import Mathlib.Data.List.Infix
import Mathlib.Tactic.Basic

/-! One connection of a reverse forward as one end sees it: the task `bridge` between a socket and
the queue of the events that carry the connection's number. -/

namespace Pbox.Reverse

abbrev Bytes := List UInt8

inductive Event where
  | listen
  | ready
  | connected (ok : Bool)
  | data (bytes : Bytes)
  | close (code : Nat) (halfClose : Bool)
  deriving DecidableEq, Repr

def Event.bytes : Event → Bytes
  | .data bytes => bytes
  | _ => []

/-- An event that ends one direction or both. -/
def Event.closing : Event → Bool
  | .close _ _ => true
  | _ => false

/-- An event behind which the sender's end sends nothing more for the connection. -/
def Event.full : Event → Bool
  | .close _ halfClose => !halfClose
  | _ => false

/-- The bytes that a list of events carries, in order. -/
def payload (events : List Event) : Bytes := events.flatMap Event.bytes

@[simp] theorem payload_nil : payload [] = [] := rfl

@[simp] theorem payload_append (front back : List Event) :
    payload (front ++ back) = payload front ++ payload back := List.flatMap_append

@[simp] theorem payload_singleton (event : Event) : payload [event] = event.bytes := List.append_nil _

/-- Where the task stands. A branch that was selected runs to its end: it sends, writes or shuts
down before the next selection. `finishing` is the last send. -/
inductive Pc where
  | unborn
  | connecting
  | select
  | sending (event : Event)
  | writing (data : Bytes)
  | shutting
  | finishing (code : Nat)
  | ended
  deriving DecidableEq

/-- The last four fields record what crossed the socket and the queues. No step reads them. -/
structure Bridge where
  id : Nat := 0
  pc : Pc := .unborn
  readClosed : Bool := false
  writeClosed : Bool := false
  input : List Event := []
  read : Bytes := []
  written : Bytes := []
  emitted : List Event := []
  taken : List Event := []

inductive BridgeAct where
  | connect
  | connectFails
  | read (bytes : Bytes)
  | eof
  | readFails
  | take
  | hangUp
  | write
  | writeFails (count : Nat)
  | shutdown
  | shutdownFails
  deriving DecidableEq

/-- The buffer that a bridge reads into. -/
def BUFFER : Nat := 8192

namespace Bridge

/-- The head of the loop. -/
def loop (b : Bridge) : Bridge :=
  { b with pc := if b.readClosed && b.writeClosed then .finishing 0 else .select }

/-- What the loop does with an event of its queue. -/
def dispatch (b : Bridge) : Event → Bridge
  | .data bytes => { b with pc := .writing bytes }
  | .close code halfClose =>
    if code = 0 ∧ halfClose = true then { b with pc := .shutting } else { b with pc := .finishing 0 }
  | _ => { b with pc := .finishing 0 }

/-- The steps between two awaits that send nothing. `alive` says whether the queue has a sender. -/
def act (alive : Bool) (b : Bridge) : BridgeAct → Option Bridge
  | .connect => if b.pc = .connecting then some { b with pc := .select } else none
  | .connectFails => if b.pc = .connecting then some { b with pc := .finishing 1 } else none
  | .read bytes =>
    if b.pc = .select ∧ b.readClosed = false ∧ bytes ≠ [] ∧ bytes.length ≤ BUFFER then
      some { b with pc := .sending (.data bytes), read := b.read ++ bytes }
    else none
  | .eof =>
    if b.pc = .select ∧ b.readClosed = false then
      some { b with pc := .sending (.close 0 true), readClosed := true }
    else none
  | .readFails =>
    if b.pc = .select ∧ b.readClosed = false then some { b with pc := .finishing 0 } else none
  | .take =>
    if b.pc = .select ∧ b.writeClosed = false then
      match b.input with
      | [] => none
      | event :: rest => some ({ b with input := rest, taken := b.taken ++ [event] }.dispatch event)
    else none
  | .hangUp =>
    if b.pc = .select ∧ b.writeClosed = false ∧ b.input = [] ∧ alive = false then
      some { b with pc := .finishing 0 }
    else none
  | .write =>
    match b.pc with
    | .writing data => some { b with written := b.written ++ data }.loop
    | _ => none
  | .writeFails count =>
    match b.pc with
    | .writing data => some { b with pc := .finishing 0, written := b.written ++ data.take count }
    | _ => none
  | .shutdown => if b.pc = .shutting then some { b with writeClosed := true }.loop else none
  | .shutdownFails => if b.pc = .shutting then some { b with pc := .finishing 0 } else none

/-- The event that waits for room in the outbound channel. -/
def outgoing (b : Bridge) : Option Event :=
  match b.pc with
  | .sending event => some event
  | .finishing code => some (.close code false)
  | _ => none

def sent (b : Bridge) (event : Event) : Bridge :=
  match b.pc with
  | .sending _ => { b with emitted := b.emitted ++ [event] }.loop
  | _ => { b with pc := .ended, emitted := b.emitted ++ [event] }

def unsent (b : Bridge) : Bridge :=
  match b.pc with
  | .sending _ => { b with pc := .finishing 0 }
  | _ => { b with pc := .ended }

end Bridge

section Stages

/-- How far a bridge has closed the stream of its events. -/
inductive Stage where
  | flowing
  | half
  | full
  deriving DecidableEq

def Stage.next : Stage → Event → Option Stage
  | .flowing, .data _ => some .flowing
  | .flowing, .close _ true => some .half
  | .flowing, .close _ false => some .full
  | .half, .close _ false => some .full
  | _, _ => none

/-- The stage behind a list of events, if a bridge can have sent it. -/
def stages : Stage → List Event → Option Stage
  | stage, [] => some stage
  | stage, event :: events => (stage.next event).bind fun next => stages next events

variable {stage last : Stage} {front back events : List Event} {event : Event}

theorem stages_append : stages stage (front ++ back) = (stages stage front).bind fun next => stages next back := by
  induction front generalizing stage with
  | nil => rfl
  | cons event front ih =>
    show ((stage.next event).bind fun next => stages next (front ++ back)) = _
    cases advanced : stage.next event with
    | none => simp [stages, advanced]
    | some next => simp [stages, advanced, ih]

theorem stages_concat : stages stage (front ++ [event]) = (stages stage front).bind (·.next event) := by
  rw [stages_append]
  congr
  funext next
  cases advanced : next.next event <;> simp [stages, advanced]

/-- Behind a closing event there are no more bytes. -/
theorem payload_of_closed (closed : stage ≠ .flowing) (valid : stages stage events = some last) :
    payload events = [] := by
  induction events generalizing stage with
  | nil => rfl
  | cons event events ih =>
    obtain ⟨next, advanced, later⟩ := Option.bind_eq_some_iff.mp valid
    have silent : event.bytes = [] ∧ next ≠ .flowing := by
      cases stage <;> cases event <;> simp_all [Stage.next, Event.bytes]
      next code halfClose =>
        cases halfClose <;> simp_all
        rw [← advanced]
        decide
    show event.bytes ++ payload events = []
    rw [silent.1, ih silent.2 later]
    rfl

theorem stages_full (valid : stages .full events = some last) : events = [] := by
  cases events with
  | nil => rfl
  | cons event events =>
    obtain ⟨next, advanced, _⟩ := Option.bind_eq_some_iff.mp valid
    cases event <;> cases advanced

/-- A full close is the last event. -/
theorem full_last (valid : stages stage (front ++ event :: back) = some last) (full : event.full = true) :
    back = [] := by
  rw [stages_append] at valid
  obtain ⟨middle, _, valid⟩ := Option.bind_eq_some_iff.mp valid
  obtain ⟨next, advanced, later⟩ := Option.bind_eq_some_iff.mp valid
  cases event with
  | close code halfClose =>
    have half : halfClose = false := by simpa [Event.full] using full
    subst half
    have closed : next = .full := by cases middle <;> simp_all [Stage.next]
    rw [closed] at later
    exact stages_full later
  | listen | ready | connected | data => cases full

/-- Behind any closing event there are no more bytes. -/
theorem closing_last (valid : stages stage (front ++ event :: back) = some last) (closing : event.closing = true) :
    payload back = [] := by
  rw [stages_append] at valid
  obtain ⟨middle, _, valid⟩ := Option.bind_eq_some_iff.mp valid
  obtain ⟨next, advanced, later⟩ := Option.bind_eq_some_iff.mp valid
  cases event with
  | close code halfClose =>
    apply payload_of_closed _ later
    cases middle <;> cases halfClose <;> simp_all [Stage.next] <;> rw [← advanced] <;> decide
  | listen | ready | connected | data => cases closing

/-- A stream that is still open has no closing event. -/
theorem flowing_open (valid : stages stage events = some .flowing) :
    stage = .flowing ∧ ∀ event ∈ events, event.closing = false := by
  induction events generalizing stage with
  | nil => exact ⟨Option.some.inj valid, fun _ member => absurd member List.not_mem_nil⟩
  | cons event events ih =>
    obtain ⟨next, advanced, later⟩ := Option.bind_eq_some_iff.mp valid
    obtain ⟨rfl, silent⟩ := ih later
    have data : stage = .flowing ∧ event.closing = false := by
      cases stage <;> cases event <;> simp_all [Stage.next, Event.closing]
      next halfClose => cases halfClose <;> simp at advanced
      next halfClose => cases halfClose <;> simp at advanced
    refine ⟨data.1, fun other member => ?_⟩
    rcases List.mem_cons.mp member with rfl | member
    · exact data.2
    · exact silent other member

end Stages

section Sane

/-- The loop has not been left. -/
def Pc.running : Pc → Bool
  | .finishing _ | .ended => false
  | _ => true

namespace Bridge

def held (b : Bridge) : Bytes :=
  match b.pc with
  | .sending event => event.bytes
  | _ => []

def unwritten (b : Bridge) : Bytes :=
  match b.pc with
  | .writing data => data
  | _ => []

/-- The stage of the stream that belongs to a place in the code. -/
def Fits (b : Bridge) (stage : Stage) : Prop :=
  match b.pc with
  | .ended => True
  | .finishing _ => stage ≠ .full
  | .sending event => stage = .flowing ∧ if b.readClosed then event = .close 0 true else ∃ data, event = .data data
  | _ => stage = if b.readClosed then .half else .flowing

end Bridge

/-- The invariant of a bridge. `closed` is the state of its outbound channel, which is the one way
to lose bytes that were read. -/
structure Sane (closed : Bool) (b : Bridge) : Prop where
  reads : b.pc.running = true ∨ closed = false → b.read = payload b.emitted ++ b.held
  readsBegin : payload b.emitted <+: b.read
  readsAll : (∃ event ∈ b.emitted, event.closing = true) → b.read = payload b.emitted
  writes : b.pc.running = true → payload b.taken = b.written ++ b.unwritten
  writesBegin : b.written <+: payload b.taken
  writesAll : (∃ event ∈ b.taken, event.closing = true) → b.written = payload b.taken
  shut : (∃ event ∈ b.taken, event.closing = true) →
    b.writeClosed = true ∨ b.pc = .shutting ∨ b.pc.running = false
  stage : ∃ stage, stages .flowing b.emitted = some stage ∧ b.Fits stage

variable {closed alive : Bool} {b c : Bridge} {a : BridgeAct} {event : Event}

theorem sane_fresh (id : Nat) (pc : Pc) (quiet : pc = .unborn ∨ pc = .connecting) :
    Sane closed { id, pc } := by
  rcases quiet with rfl | rfl <;>
    exact ⟨fun _ => rfl, List.prefix_refl _, fun _ => rfl, fun _ => rfl, List.prefix_refl _, fun _ => rfl,
      fun ⟨_, member, _⟩ => absurd member List.not_mem_nil, .flowing, rfl, rfl⟩

theorem Bridge.Fits.ne_full {stage : Stage} (fits : b.Fits stage) (running : b.pc.running = true) :
    stage ≠ .full := by
  rintro rfl
  unfold Bridge.Fits at fits
  cases pc : b.pc <;> rw [pc] at fits running <;> cases closed : b.readClosed <;> simp_all [Pc.running]

/-- No closing event has been sent before the read side is closed. -/
theorem Sane.unclosed (sane : Sane closed b) (pc : b.pc = .select) (reading : b.readClosed = false) :
    ¬∃ event ∈ b.emitted, event.closing = true := by
  rintro ⟨event, member, closing⟩
  obtain ⟨stage, valid, fits⟩ := sane.stage
  unfold Bridge.Fits at fits
  rw [pc, reading] at fits
  rw [fits] at valid
  rw [(flowing_open valid).2 event member] at closing
  cases closing

/-- Elsewhere in the loop the write side is closed behind a closing event. -/
theorem Sane.shutBefore (sane : Sane closed b) (running : b.pc.running = true) (elsewhere : b.pc ≠ .shutting)
    (closing : ∃ event ∈ b.taken, event.closing = true) : b.writeClosed = true := by
  rcases sane.shut closing with closed | shutting | stopped
  · exact closed
  · exact absurd shutting elsewhere
  · rw [running] at stopped
    cases stopped

/-- Leaving the loop with nothing in hand. -/
theorem Sane.finish (sane : Sane closed b) (running : b.pc.running = true) (quiet : b.held = []) (code : Nat) :
    Sane closed { b with pc := .finishing code } := by
  have reads := sane.reads (.inl running)
  rw [quiet] at reads
  obtain ⟨stage, valid, fits⟩ := sane.stage
  exact {
    reads := fun _ => reads
    readsBegin := sane.readsBegin
    readsAll := sane.readsAll
    writes := fun running => by cases running
    writesBegin := sane.writesBegin
    writesAll := sane.writesAll
    shut := fun _ => .inr (.inr rfl)
    stage := ⟨stage, valid, fits.ne_full running⟩ }

theorem Bridge.loop_cases (b : Bridge) :
    b.loop = { b with pc := .finishing 0 } ∨ b.loop = { b with pc := .select } := by
  unfold Bridge.loop
  split
  · exact .inl rfl
  · exact .inr rfl

/-- Coming back to the head of the loop with nothing in hand. -/
theorem Sane.again (sane : Sane closed { b with pc := .select })  : Sane closed b.loop := by
  rcases b.loop_cases with finishing | select
  · rw [finishing]
    exact sane.finish rfl rfl 0
  · rw [select]
    exact sane

/-- Inside the loop the invariant comes down to two equations and what no closing event precedes. -/
theorem Sane.inside (reads : b.read = payload b.emitted ++ b.held)
    (writes : payload b.taken = b.written ++ b.unwritten)
    (holds : (∃ event ∈ b.emitted, event.closing = true) → b.held = [])
    (keeps : (∃ event ∈ b.taken, event.closing = true) → b.unwritten = [])
    (shut : (∃ event ∈ b.taken, event.closing = true) → b.writeClosed = true ∨ b.pc = .shutting)
    (stage : ∃ stage, stages .flowing b.emitted = some stage ∧ b.Fits stage) : Sane closed b where
  reads _ := reads
  readsBegin := ⟨_, reads.symm⟩
  readsAll closing := by rw [reads, holds closing, List.append_nil]
  writes _ := writes
  writesBegin := ⟨_, writes.symm⟩
  writesAll closing := by rw [writes, keeps closing, List.append_nil]
  shut closing := (shut closing).imp_right .inl
  stage := stage

/-- The places at which a bridge has nothing in hand. -/
def Pc.quiet : Pc → Bool
  | .unborn | .connecting | .select | .shutting => true
  | _ => false

theorem Sane.rest (sane : Sane closed b) (quiet : b.pc.quiet = true) :
    b.read = payload b.emitted ∧ payload b.taken = b.written ∧
      stages .flowing b.emitted = some (if b.readClosed then .half else .flowing) := by
  obtain ⟨stage, valid, fits⟩ := sane.stage
  have reads := sane.reads
  have writes := sane.writes
  unfold Bridge.held at reads
  unfold Bridge.unwritten at writes
  unfold Bridge.Fits at fits
  cases pc : b.pc <;> rw [pc] at quiet reads writes fits <;>
    simp only [Pc.quiet, Bool.false_eq_true] at quiet <;>
    · rw [fits] at valid
      exact ⟨by simpa [Pc.running] using reads, by simpa [Pc.running] using writes, valid⟩

/-- The loop begins. -/
theorem Sane.enter (sane : Sane closed b) (pc : b.pc = .unborn ∨ b.pc = .connecting) :
    Sane closed { b with pc := .select } := by
  obtain ⟨read, written, valid⟩ := sane.rest (by rcases pc with pc | pc <;> rw [pc] <;> rfl)
  refine .inside (by simpa [Bridge.held] using read) (by simpa [Bridge.unwritten] using written) (fun _ => rfl)
    (fun _ => rfl) (fun closing => ?_) ⟨_, valid, rfl⟩
  apply Or.inl
  rcases pc with pc | pc
  · exact sane.shutBefore (by rw [pc]; rfl) (by rw [pc]; nofun) closing
  · exact sane.shutBefore (by rw [pc]; rfl) (by rw [pc]; nofun) closing

theorem Sane.read (sane : Sane closed b) (pc : b.pc = .select) (reading : b.readClosed = false) (bytes : Bytes) :
    Sane closed { b with pc := .sending (.data bytes), read := b.read ++ bytes } := by
  obtain ⟨read, written, valid⟩ := sane.rest (by rw [pc]; rfl)
  refine .inside ?_ (by simpa [Bridge.unwritten] using written)
    (fun closing => absurd closing (sane.unclosed pc reading)) (fun _ => rfl) (fun closing => ?_)
    ⟨_, valid, by simp [Bridge.Fits, reading]⟩
  · show b.read ++ bytes = payload b.emitted ++ bytes
    rw [read]
  · exact .inl (sane.shutBefore (by rw [pc]; rfl) (by rw [pc]; nofun) closing)

theorem Sane.eof (sane : Sane closed b) (pc : b.pc = .select) (reading : b.readClosed = false) :
    Sane closed { b with pc := .sending (.close 0 true), readClosed := true } := by
  obtain ⟨read, written, valid⟩ := sane.rest (by rw [pc]; rfl)
  refine .inside ?_ (by simpa [Bridge.unwritten] using written) (fun _ => rfl) (fun _ => rfl) (fun closing => ?_)
    ⟨_, valid, by simp [Bridge.Fits, reading]⟩
  · show b.read = payload b.emitted ++ []
    rw [read, List.append_nil]
  · exact .inl (sane.shutBefore (by rw [pc]; rfl) (by rw [pc]; nofun) closing)

/-- Before the write side is closed no closing event has been taken. -/
theorem Sane.untaken (sane : Sane closed b) (pc : b.pc = .select) (writing : b.writeClosed = false) :
    ¬∃ event ∈ b.taken, event.closing = true := by
  intro closing
  have shut := sane.shutBefore (by rw [pc]; rfl) (by rw [pc]; nofun) closing
  rw [writing] at shut
  cases shut

theorem Sane.take {rest : List Event} (sane : Sane closed b) (pc : b.pc = .select) (writing : b.writeClosed = false)
    (event : Event) : Sane closed ({ b with input := rest, taken := b.taken ++ [event] }.dispatch event) := by
  obtain ⟨read, written, valid⟩ := sane.rest (by rw [pc]; rfl)
  have untaken := sane.untaken pc writing
  have silent (quiet : event.bytes = []) : payload (b.taken ++ [event]) = b.written := by simp [quiet, written]
  have shutting (quiet : event.bytes = []) :
      Sane closed { b with pc := .shutting, input := rest, taken := b.taken ++ [event] } :=
    .inside (by simpa [Bridge.held] using read) (by simpa [Bridge.unwritten] using silent quiet) (fun _ => rfl)
      (fun _ => rfl) (fun _ => .inr rfl) ⟨_, valid, rfl⟩
  have leaving (quiet : event.bytes = []) :
      Sane closed { b with pc := .finishing 0, input := rest, taken := b.taken ++ [event] } :=
    (shutting quiet).finish rfl rfl 0
  cases event with
  | data bytes =>
    refine .inside (by simpa [Bridge.dispatch, Bridge.held] using read) ?_ (fun _ => rfl) (fun closing => ?_)
      (fun closing => ?_) ⟨_, valid, rfl⟩
    · show payload (b.taken ++ [.data bytes]) = b.written ++ bytes
      simp [written, Event.bytes]
    all_goals
      obtain ⟨event, member, closing⟩ := closing
      rcases List.mem_append.mp member with earlier | last
      · exact absurd ⟨event, earlier, closing⟩ untaken
      · rw [List.mem_singleton.mp last] at closing
        cases closing
  | close code halfClose =>
    unfold Bridge.dispatch
    dsimp only
    split
    · exact shutting rfl
    · exact leaving rfl
  | listen | ready | connected => exact leaving rfl

theorem Sane.write {data : Bytes} (sane : Sane closed b) (pc : b.pc = .writing data) :
    Sane closed { b with written := b.written ++ data }.loop := by
  have reads := sane.reads (.inl (by rw [pc]; rfl))
  have writes := sane.writes (by rw [pc]; rfl)
  obtain ⟨stage, valid, fits⟩ := sane.stage
  simp only [Bridge.held, Bridge.unwritten, Bridge.Fits, pc] at reads writes fits
  refine Sane.again (.inside reads (by simpa [Bridge.unwritten] using writes) (fun _ => rfl) (fun _ => rfl)
    (fun closing => ?_) ⟨stage, valid, fits⟩)
  exact .inl (sane.shutBefore (by rw [pc]; rfl) (by rw [pc]; nofun) closing)

theorem Sane.writeFails {data : Bytes} (sane : Sane closed b) (pc : b.pc = .writing data) (count : Nat) :
    Sane closed { b with pc := .finishing 0, written := b.written ++ data.take count } := by
  have writes := sane.writes (by rw [pc]; rfl)
  simp only [Bridge.unwritten, pc] at writes
  have finished := sane.finish (by rw [pc]; rfl) (by rw [Bridge.held, pc]) 0
  exact {
    reads := finished.reads
    readsBegin := finished.readsBegin
    readsAll := finished.readsAll
    writes := fun running => by cases running
    writesBegin := by
      rw [writes]
      exact (List.prefix_append_right_inj _).mpr (List.take_prefix count data)
    writesAll := fun closing => by
      have whole := sane.writesAll closing
      rw [writes] at whole
      have none : data = [] := List.self_eq_append_right.mp whole
      show b.written ++ data.take count = payload b.taken
      rw [writes, none, List.take_nil]
    shut := finished.shut
    stage := finished.stage }

theorem Sane.shutdown (sane : Sane closed b) (pc : b.pc = .shutting) :
    Sane closed { b with writeClosed := true }.loop := by
  obtain ⟨read, written, valid⟩ := sane.rest (by rw [pc]; rfl)
  exact Sane.again (.inside (by simpa [Bridge.held] using read) (by simpa [Bridge.unwritten] using written)
    (fun _ => rfl) (fun _ => rfl) (fun _ => .inl rfl) ⟨_, valid, rfl⟩)

theorem Sane.act (sane : Sane closed b) (acts : b.act alive a = some c) : Sane closed c := by
  cases a with
  | connect =>
    simp only [Bridge.act] at acts
    split at acts <;> cases acts
    next pc => exact sane.enter (.inr pc)
  | connectFails =>
    simp only [Bridge.act] at acts
    split at acts <;> cases acts
    next pc => exact sane.finish (by rw [pc]; rfl) (by rw [Bridge.held, pc]) 1
  | read bytes =>
    simp only [Bridge.act] at acts
    split at acts <;> cases acts
    next ready => exact sane.read ready.1 ready.2.1 bytes
  | eof =>
    simp only [Bridge.act] at acts
    split at acts <;> cases acts
    next ready => exact sane.eof ready.1 ready.2
  | readFails =>
    simp only [Bridge.act] at acts
    split at acts <;> cases acts
    next ready => exact sane.finish (by rw [ready.1]; rfl) (by rw [Bridge.held, ready.1]) 0
  | take =>
    simp only [Bridge.act] at acts
    split at acts
    next ready =>
      split at acts <;> cases acts
      exact sane.take ready.1 ready.2 _
    next => cases acts
  | hangUp =>
    simp only [Bridge.act] at acts
    split at acts <;> cases acts
    next ready => exact sane.finish (by rw [ready.1]; rfl) (by rw [Bridge.held, ready.1]) 0
  | write =>
    simp only [Bridge.act] at acts
    split at acts <;> cases acts
    next data pc => exact sane.write pc
  | writeFails count =>
    simp only [Bridge.act] at acts
    split at acts <;> cases acts
    next data pc => exact sane.writeFails pc count
  | shutdown =>
    simp only [Bridge.act] at acts
    split at acts <;> cases acts
    next pc => exact sane.shutdown pc
  | shutdownFails =>
    simp only [Bridge.act] at acts
    split at acts <;> cases acts
    next pc => exact sane.finish (by rw [pc]; rfl) (by rw [Bridge.held, pc]) 0

/-- The send that was waited for has gone into the channel. -/
theorem Sane.sent (sane : Sane false b) (waits : b.outgoing = some event) : Sane false (b.sent event) := by
  obtain ⟨stage, valid, fits⟩ := sane.stage
  have reads := sane.reads (.inr rfl)
  unfold Bridge.outgoing at waits
  unfold Bridge.held at reads
  unfold Bridge.Fits at fits
  unfold Bridge.sent
  split at waits
  next waiting pc =>
    cases waits
    have writes := sane.writes (by rw [pc]; rfl)
    simp only [pc, Bridge.unwritten, List.append_nil] at reads fits writes
    rw [pc]
    have advanced : stages .flowing (b.emitted ++ [event]) = some (if b.readClosed then .half else .flowing) := by
      rw [stages_concat, valid, fits.1]
      have kind := fits.2
      split at kind
      next shut =>
        rw [kind, if_pos shut]
        rfl
      next reading =>
        obtain ⟨data, rfl⟩ := kind
        rw [if_neg reading]
        rfl
    refine Sane.again (.inside ?_ ?_ (fun _ => rfl) (fun _ => rfl) (fun closing => ?_) ⟨_, advanced, rfl⟩)
    · show b.read = payload (b.emitted ++ [event]) ++ []
      rw [reads, payload_append, payload_singleton, List.append_nil]
    · simpa [Bridge.unwritten] using writes
    · exact .inl (sane.shutBefore (by rw [pc]; rfl) (by rw [pc]; nofun) closing)
  next code pc =>
    cases waits
    simp only [pc, List.append_nil] at reads fits
    rw [pc]
    have whole : b.read = payload (b.emitted ++ [.close code false]) := by
      rw [reads]
      simp [Event.bytes]
    have advanced : stages .flowing (b.emitted ++ [.close code false]) = some .full := by
      rw [stages_concat, valid]
      cases stage with
      | flowing | half => rfl
      | full => exact absurd rfl fits
    exact {
      reads := fun _ => whole.trans (List.append_nil _).symm
      readsBegin := ⟨[], by rw [List.append_nil, whole]⟩
      readsAll := fun _ => whole
      writes := fun running => by cases running
      writesBegin := sane.writesBegin
      writesAll := sane.writesAll
      shut := fun _ => .inr (.inr rfl)
      stage := ⟨.full, advanced, trivial⟩ }
  next => cases waits

/-- A bridge may stop anywhere when its channel is closed. -/
theorem Sane.leave {pc : Pc} (sane : Sane true b) (out : pc = .ended ∨ b.pc.running = true ∧ pc = .finishing 0) :
    Sane true { b with pc } := by
  obtain ⟨stage, valid, fits⟩ := sane.stage
  have stopped : pc.running = false := by rcases out with rfl | ⟨_, rfl⟩ <;> rfl
  exact {
    reads := fun either => by simp [stopped] at either
    readsBegin := sane.readsBegin
    readsAll := sane.readsAll
    writes := fun running => by simp [stopped] at running
    writesBegin := sane.writesBegin
    writesAll := sane.writesAll
    shut := fun _ => .inr (.inr stopped)
    stage := by
      refine ⟨stage, valid, ?_⟩
      rcases out with rfl | ⟨running, rfl⟩
      · trivial
      · exact fits.ne_full running }

/-- The send has failed, because the channel is closed. -/
theorem Sane.unsent (sane : Sane true b) : Sane true b.unsent := by
  unfold Bridge.unsent
  split
  next event pc => exact sane.leave (.inr ⟨by rw [pc]; rfl, rfl⟩)
  next => exact sane.leave (.inl rfl)

theorem Sane.lose (sane : Sane closed b) : Sane true b :=
  { sane with reads := fun either => sane.reads (either.imp_right fun never => by cases never) }

end Sane

section Keeps
variable {alive : Bool} {b c : Bridge} {a : BridgeAct} {event : Event}

/-- What a step of a bridge leaves alone: it neither sends nor ends, and the events of its queue
only move to those it has taken. -/
structure Kept (b c : Bridge) : Prop where
  id : c.id = b.id
  emitted : c.emitted = b.emitted
  queued : c.taken ++ c.input = b.taken ++ b.input
  born : b.pc ≠ .unborn
  before : b.pc ≠ .ended
  after : c.pc ≠ .ended

theorem act_kept (acts : b.act alive a = some c) : Kept b c := by
  have loop (d : Bridge) : d.loop.pc ≠ .ended := by
    rcases d.loop_cases with same | same <;> rw [same] <;> simp
  cases a with
  | take =>
    simp only [Bridge.act] at acts
    split at acts
    next ready =>
      split at acts <;> cases acts
      next event rest shape =>
        have dispatched (d : Bridge) : (d.dispatch event).id = d.id ∧ (d.dispatch event).emitted = d.emitted ∧
            (d.dispatch event).taken = d.taken ∧ (d.dispatch event).input = d.input ∧
            (d.dispatch event).pc ≠ .ended := by
          cases event with
          | close code halfClose =>
            unfold Bridge.dispatch
            dsimp only
            split <;> simp
          | listen | ready | connected | data => simp [Bridge.dispatch]
        obtain ⟨id, emitted, taken, input, after⟩ :=
          dispatched { b with input := rest, taken := b.taken ++ [event] }
        refine ⟨id, emitted, ?_, by simp [ready.1], by simp [ready.1], after⟩
        rw [taken, input, shape]
        simp
    next => cases acts
  | write | writeFails =>
    simp only [Bridge.act] at acts
    split at acts <;> cases acts
    next pc => exact ⟨rfl, rfl, rfl, by simp [pc], by simp [pc], by simp [loop]⟩
  | connect | connectFails | read | eof | readFails | hangUp | shutdown | shutdownFails =>
    simp only [Bridge.act] at acts
    split at acts <;> cases acts
    next ready => exact ⟨rfl, rfl, rfl, by simp [ready], by simp [ready], by simp [loop]⟩

theorem sent_kept (waits : b.outgoing = some event) : (b.sent event).id = b.id ∧
    (b.sent event).emitted = b.emitted ++ [event] ∧ (b.sent event).taken = b.taken ∧
    (b.sent event).input = b.input ∧ b.pc ≠ .unborn ∧ b.pc ≠ .ended := by
  unfold Bridge.outgoing at waits
  unfold Bridge.sent
  split at waits
  next pc => simp [pc, Bridge.loop]
  next pc => simp [pc]
  next => cases waits

theorem unsent_kept (waits : b.outgoing.isSome = true) : b.unsent.id = b.id ∧ b.unsent.emitted = b.emitted ∧
    b.unsent.taken = b.taken ∧ b.unsent.input = b.input ∧ b.pc ≠ .unborn ∧ b.pc ≠ .ended := by
  unfold Bridge.outgoing at waits
  unfold Bridge.unsent
  split at waits
  next pc => simp [pc]
  next pc => simp [pc]
  next => cases waits

end Keeps

end Pbox.Reverse
