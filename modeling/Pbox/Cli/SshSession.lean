import Pbox.Lib.Transition
import Mathlib.Data.List.Basic

/-! `run_ssh_session`: local input is forwarded while output is read, and the first of the two that ends
decides. The input passes a channel to the adapter task of `open_pty_session`, which puts requests on the
stream to the agent until the agent has closed its input side. -/

namespace Pbox.Cli.SshSession
open Pbox.Lib.Transition

abbrev Bytes := List UInt8

def ESC : UInt8 := 27
def BEL : UInt8 := 7

/-- The filter that puts the box's name before terminal titles. -/
structure TitlePrefix where
  inserted : Option Bytes
  pending : Bytes
  inOsc : Bool
  escaped : Bool
  deriving DecidableEq

def TitlePrefix.new (name : Option Bytes) : TitlePrefix := ⟨name, [], false, false⟩

def opensTitle (kind : UInt8) : Bool := kind == 0x30 || kind == 0x31 || kind == 0x32

/-- The bytes held may still become the start of a title. -/
def undecided : Bytes → Bool
  | [a] => a == ESC
  | [a, b] => a == ESC && b == 0x5d
  | [a, b, kind] => a == ESC && b == 0x5d && opensTitle kind
  | _ => false

def titleStart : Bytes → Bool
  | [a, b, kind, d] => a == ESC && b == 0x5d && opensTitle kind && d == 0x3b
  | _ => false

def startsOsc : Bytes → Bool
  | a :: b :: _ => a == ESC && b == 0x5d
  | _ => false

/-- One byte of `push`: what it lets out and the filter after it. -/
def TitlePrefix.byte (name : Bytes) (filter : TitlePrefix) (byte : UInt8) : Bytes × TitlePrefix :=
  if filter.inOsc then
    ([byte], { filter with
      inOsc := !(byte == BEL || filter.escaped && byte == 0x5c)
      escaped := byte == ESC })
  else
    let pending := filter.pending ++ [byte]
    if undecided pending then ([], { filter with pending })
    else if titleStart pending then
      (pending ++ name, { filter with pending := [], inOsc := true, escaped := false })
    else
      let osc := startsOsc pending
      let inOsc := osc && byte != BEL
      let escaped := if osc then byte == ESC else filter.escaped
      if !inOsc && decide (1 < pending.length) && byte == ESC then
        (pending.dropLast, { filter with pending := [ESC], inOsc, escaped })
      else (pending, { filter with pending := [], inOsc, escaped })

def TitlePrefix.pushAll (name : Bytes) (filter : TitlePrefix) : Bytes → Bytes × TitlePrefix
  | [] => ([], filter)
  | byte :: later =>
    let (out, next) := filter.byte name byte
    let (rest, last) := next.pushAll name later
    (out ++ rest, last)

def TitlePrefix.push (filter : TitlePrefix) (data : Bytes) : Bytes × TitlePrefix :=
  match filter.inserted with
  | none => (data, filter)
  | some name => filter.pushAll name data

/-- What `finish` lets out. -/
def TitlePrefix.finish (filter : TitlePrefix) : Bytes := filter.pending

inductive ExecInput where
  | data (bytes : Bytes)
  | resize (size : Nat × Nat)
  | eof
  | detach
  deriving DecidableEq

/-- A request on the stream to the agent. -/
structure ExecRequest where
  stdin : Bytes
  stdinEof : Bool
  terminalSize : Nat × Nat
  deriving DecidableEq

def keepalive : ExecRequest := ⟨[], false, (0, 0)⟩
def endOfInput : ExecRequest := ⟨[], true, (0, 0)⟩

def ExecInput.request : ExecInput → ExecRequest
  | .data bytes => ⟨bytes, false, (0, 0)⟩
  | .resize size => ⟨[], false, size⟩
  | .eof | .detach => endOfInput

def ExecInput.isData : ExecInput → Bool
  | .data _ => true
  | _ => false

inductive Event where
  | stdout (data : Bytes)
  | stderr (data : Bytes)
  | exit (code signal : Int)
  | empty
  deriving DecidableEq

structure ExecResult where
  code : Int
  signal : Int
  exited : Bool
  deriving DecidableEq

inductive Failure where
  | inputClosed
  | emptyEvent
  | noExitStatus
  | dataAfterExit
  | notClosed
  deriving DecidableEq

/-- A write to the terminal, to its error stream or not. -/
abbrev Write := Bool × Bytes

/-- What the output side keeps between two events. -/
structure Display where
  initialScreen : Bool
  titles : TitlePrefix
  deriving DecidableEq

inductive Output where
  | reading
  | writing (write : Write)
  | finishing (result : ExecResult)
  | closing (result : ExecResult)
  deriving DecidableEq

/-- The adapter task; `sending` waits for room on the request stream. -/
inductive Adapter where
  | idle
  | sending (request : ExecRequest)
  | gone
  deriving DecidableEq

/-- `persistent` is a named session; `screen` is `append_initial_screen` at the size of the terminal. -/
structure Settings where
  persistent : Bool
  screen : Bytes → Bytes

structure State where
  /-- The agent: events still to be sent, events under way, and whether each side has ended. -/
  script : List Event
  stream : List Event
  ended : Bool
  requests : List ExecRequest
  requestsOpen : Bool
  /-- Local input that waits, the window, and the forwarding task with the inputs it is sending. -/
  typed : List ExecInput
  inputOpen : Bool
  window : Nat × Nat
  windowChanged : Bool
  size : Nat × Nat
  sending : List ExecInput
  channel : List ExecInput
  adapter : Adapter
  display : Display
  output : Output
  written : List Write
  returned : Option (Except Failure ExecResult)

def CAPACITY : Nat := 32

inductive Action where
  | types (input : ExecInput)
  | resizes (window : Nat × Nat)
  | emits
  | ends
  | consumes
  | closesInput
  | takesInput
  | takesEnd
  | takesResize
  | forwards
  | adapts
  | keepsAlive
  | requests
  | reads
  | writes
  | expires
  deriving DecidableEq

section Model
variable (settings : Settings)

def Display.out (display : Display) (data : Bytes) : Bytes × Display :=
  let (bytes, titles) := display.titles.push data
  (bytes, { display with titles })

/-- What an output event writes, and what is kept after it. -/
def Display.observe (display : Display) : Event → Option (Write × Display)
  | .stdout data =>
    let shown := if display.initialScreen then settings.screen data else data
    let (bytes, next) := { display with initialScreen := false }.out shown
    some ((false, bytes), next)
  | .stderr data =>
    let (bytes, next) := display.out data
    some ((true, bytes), next)
  | _ => none

/-- The agent and the network: the output stream. -/
def emit (s : State) : Option State :=
  match s.script with
  | event :: later => some { s with script := later, stream := s.stream ++ [event] }
  | [] => none

/-- `forward_terminal_input` takes a local input; before data it announces a window that has changed. -/
def takeInput (s : State) : Option State :=
  match s.sending, s.typed with
  | [], input :: later =>
    if s.inputOpen then
      some (if input.isData ∧ s.size ≠ s.window then
        { s with typed := later, sending := [.resize s.window, input], size := s.window }
      else { s with typed := later, sending := [input] })
    else none
  | _, _ => none

def takeResize (s : State) : Option State :=
  if s.sending = [] ∧ s.windowChanged then
    some { s with windowChanged := false, size := s.window, sending := [.resize s.window] }
  else none

/-- One send into the channel; without a receiver it fails, and the failure ends the session. -/
def forward (s : State) : Option State :=
  match s.sending with
  | [] => none
  | input :: later =>
    if s.adapter = .gone then some { s with returned := some (.error .inputClosed) }
    else if s.channel.length < CAPACITY then some { s with sending := later, channel := s.channel ++ [input] }
    else none

def adapt (s : State) : Option State :=
  match s.adapter, s.channel with
  | .idle, input :: later => some { s with channel := later, adapter := .sending input.request }
  | _, _ => none

/-- The adapter's send; it ends with the input, or when nobody receives its requests any more. -/
def request (s : State) : Option State :=
  match s.adapter with
  | .sending request =>
    if s.requestsOpen then
      if s.requests.length < CAPACITY then
        some { s with requests := s.requests ++ [request]
                      adapter := if request.stdinEof then .gone else .idle }
      else none
    else some { s with adapter := .gone }
  | _ => none

/-- The next message of the output stream. -/
def readMessage (s : State) : Option State :=
  match s.output, s.stream with
  | .reading, event :: later =>
    match s.display.observe settings event, event with
    | some (write, display), _ => some { s with stream := later, display, output := .writing write }
    | none, .exit code signal =>
      some { s with stream := later, output := .finishing ⟨code, signal, true⟩ }
    | none, _ => some { s with returned := some (.error .emptyEvent) }
  | .reading, [] => if s.ended then some { s with output := .finishing ⟨0, 0, false⟩ } else none
  | .closing _, _ :: _ => some { s with returned := some (.error .dataAfterExit) }
  | .closing result, [] => if s.ended then some { s with returned := some (.ok result) } else none
  | _, _ => none

def writeOutput (s : State) : Option State :=
  match s.output with
  | .writing write => some { s with written := s.written ++ [write], output := .reading }
  | .finishing result =>
    let finished := { s with written := s.written ++ [(false, s.display.titles.finish)] }
    some (if result.exited = false then { finished with returned := some (.error .noExitStatus) }
      else if settings.persistent then { finished with returned := some (.ok result) }
      else { finished with output := .closing result })
  | _ => none

def step (s : State) (a : Action) : Option State :=
  if s.returned.isSome then none
  else
    match a with
    | .types input => some { s with typed := s.typed ++ [input] }
    | .resizes window => some { s with window, windowChanged := true }
    | .emits => emit s
    | .ends => if s.script = [] ∧ s.ended = false then some { s with ended := true } else none
    | .consumes => if s.requestsOpen then some { s with requests := s.requests.tail } else none
    | .closesInput => some { s with requestsOpen := false }
    | .takesInput => takeInput s
    | .takesEnd => if s.sending = [] ∧ s.typed = [] then some { s with inputOpen := false } else none
    | .takesResize => takeResize s
    | .forwards => forward s
    | .adapts => adapt s
    | .keepsAlive => if s.adapter = .idle then some { s with adapter := .sending keepalive } else none
    | .requests => request s
    | .reads => readMessage settings s
    | .writes => writeOutput settings s
    -- the second after the exit event runs out
    | .expires =>
      match s.output with
      | .closing _ => some { s with returned := some (.error .notClosed) }
      | _ => none

end Model

/-! The filter of titles lets every byte of the output out, in its order. -/

section Titles

/-- Inside an operating system command nothing is held back. -/
def TitlePrefix.Flowing (filter : TitlePrefix) : Prop := filter.inOsc = true → filter.pending = []

theorem byte_lossless {name : Bytes} {filter : TitlePrefix} (flowing : filter.Flowing) (byte : UInt8) :
    (filter.pending ++ [byte]).Sublist ((filter.byte name byte).1 ++ (filter.byte name byte).2.pending) ∧
      (filter.byte name byte).2.Flowing := by
  unfold TitlePrefix.byte
  split
  next inside =>
    simp [flowing inside, TitlePrefix.Flowing]
  next outside =>
    dsimp only
    split
    next held => exact ⟨by simp, fun inside => (outside inside).elim⟩
    next decided =>
      split
      next title => exact ⟨by simp [List.append_assoc], fun _ => rfl⟩
      next other =>
        split
        next escape =>
          have last : byte = ESC := by
            simp only [Bool.and_eq_true, beq_iff_eq] at escape
            exact escape.2
          refine ⟨by simp [last], fun inside => ?_⟩
          simp only [Bool.and_eq_true, Bool.not_eq_true'] at escape
          rw [escape.1.1] at inside
          cases inside
        next whole => exact ⟨by simp, fun _ => rfl⟩

theorem pushAll_lossless {name : Bytes} {filter : TitlePrefix} (flowing : filter.Flowing) (data : Bytes) :
    (filter.pending ++ data).Sublist ((filter.pushAll name data).1 ++ (filter.pushAll name data).2.pending) ∧
      (filter.pushAll name data).2.Flowing := by
  induction data generalizing filter with
  | nil => exact ⟨by simp [TitlePrefix.pushAll], flowing⟩
  | cons byte later ih =>
    obtain ⟨first, flows⟩ := @byte_lossless name filter flowing byte
    obtain ⟨rest, last⟩ := ih flows
    refine ⟨?_, last⟩
    show (filter.pending ++ byte :: later).Sublist (((filter.byte name byte).1 ++
      ((filter.byte name byte).2.pushAll name later).1) ++ ((filter.byte name byte).2.pushAll name later).2.pending)
    rw [List.append_cons, List.append_assoc (filter.byte name byte).1]
    refine (first.append_right later).trans ?_
    rw [List.append_assoc]
    exact rest.append_left _

theorem byte_inserted (name : Bytes) (filter : TitlePrefix) (byte : UInt8) :
    (filter.byte name byte).2.inserted = filter.inserted := by
  unfold TitlePrefix.byte
  dsimp only
  split_ifs <;> rfl

theorem pushAll_inserted (name : Bytes) (filter : TitlePrefix) (data : Bytes) :
    (filter.pushAll name data).2.inserted = filter.inserted := by
  induction data generalizing filter with
  | nil => rfl
  | cons byte later ih => exact (ih _).trans (byte_inserted name filter byte)

/-- A filter that has been used in order. -/
structure TitlePrefix.Steady (filter : TitlePrefix) : Prop where
  flowing : filter.Flowing
  plain : filter.inserted = none → filter.pending = []

theorem push_lossless {filter : TitlePrefix} (steady : filter.Steady) (data : Bytes) :
    (filter.pending ++ data).Sublist ((filter.push data).1 ++ (filter.push data).2.pending) ∧
      (filter.push data).2.Steady := by
  unfold TitlePrefix.push
  cases named : filter.inserted with
  | none => exact ⟨by simp [steady.plain named], steady⟩
  | some name =>
    obtain ⟨lossless, flows⟩ := @pushAll_lossless name filter steady.flowing data
    refine ⟨lossless, flows, fun plain => ?_⟩
    rw [pushAll_inserted, named] at plain
    cases plain

end Titles

end Pbox.Cli.SshSession
