import Pbox.Agent.SessionRun

/-! A named session with its time limits: the owner with its heartbeat, the tasks that feed and read the
terminal, the task that waits for the child, and the viewers. An action of a task is one poll, from one wait
to the next. The tasks take no time: the clock stands still while one of them can go on. -/

namespace Pbox.Agent.SessionClock
open Pbox.Lib.Channel Pbox.Lib.Transition Pbox.Agent.Session Pbox.Agent.Terminal
open Pbox.Agent.SessionRun (inputRequest resizeRequest farewell openOutput)

/-! In milliseconds. -/

def EXEC_STREAM_IDLE_TIMEOUT : Nat := 5 * 60 * 1000
def EXEC_STDIN_WRITE_TIMEOUT : Nat := 30 * 1000
def HEARTBEAT : Nat := 60 * 1000

/-- Where `forward_stdin` is, and since when it waits there. -/
inductive Forward where
  | waiting (since : Nat)
  | writing (eof : Bool) (since : Nat)
  | finishing (since : Nat)
  | finished
  | failed (error : Status)
  deriving DecidableEq

/-- Where `send_output` is. An event or an error that it could not send yet waits for room. -/
inductive Reader where
  | reading
  | sending (event : Delivery) (eof : Bool) (since : Nat)
  | failing (error : Status) (since : Nat)
  | done

/-- Where `wait_for_child_with_input` is; `ending` is all that follows the kill. -/
inductive Worker where
  | waiting (inputFinished : Bool)
  | ending
  | ended
  deriving DecidableEq

/-- Where `own_session` is; the second place is inside `publish_output`. -/
inductive Owner where
  | selecting
  | publishing (event : Delivery) (rest : List Nat) (seen : Nat)
  | stopping
  | ended

/-- `close` is a notification not yet seen; `closed`, `exited` and `shutdown` record what has happened and
`killed` whether the agent has killed the process group. -/
structure Run (Screen : Type) where
  now : Nat
  state : State Screen
  viewers : Nat → Option (Channel Delivery)
  input : Channel ExecRequest
  output : Channel Delivery
  forward : Forward
  reader : Reader
  notified : Bool
  worker : Worker
  owner : Owner
  nextTick : Nat
  close : Bool
  closed : Bool
  exited : Bool
  shutdown : Bool
  killed : Bool

/-- What the tasks of the session do by themselves. -/
inductive TaskAction where
  | closes
  | ticks
  | receives
  | seesEnd
  | delivers
  | skips
  | skipsTakeover
  | returns
  | finishes
  | sends
  | sendRefused
  | sendExpires
  | takes
  | idleExpires
  | writeExpires
  | seesInput
  | seesExit
  | seesClosed
  | seesFailure
  deriving DecidableEq

def TaskAction.all : List TaskAction :=
  [.closes, .ticks, .receives, .seesEnd, .delivers, .skips, .skipsTakeover, .returns, .finishes, .sends, .sendRefused,
    .sendExpires, .takes, .idleExpires, .writeExpires, .seesInput, .seesExit, .seesClosed, .seesFailure]

/-- The clients, the program with its terminal, and the clock. -/
inductive Action where
  | task (action : TaskAction)
  | pass (time : Nat)
  | attach (v : Nat) (created : Bool) (rows cols : Nat)
  | requestResize (size : Size)
  | types (request : ExecRequest)
  | reject (v : Nat) (request : ExecRequest)
  | reads (v : Nat)
  | disconnects (v : Nat)
  | closeRequest
  | shutDown
  | prints (bytes : Bytes) (eof : Bool)
  | hangsUp
  | accepts
  | exits
  | ends
  | readFails (error : Status)
  | writeFails (error : Status)
  | resizeFails (error : Status)

def gone (viewers : Nat → Option (Channel Delivery)) (v : Nat) : Bool :=
  match viewers v with
  | some output => output.closed
  | none => true

/-- What `forward_stdin` does next for a request: it writes the input, then the end of it. -/
def forwards (now : Nat) (request : ExecRequest) : Forward :=
  if request.stdin ≠ [] then .writing request.stdinEof now
  else if request.stdinEof then .finishing now
  else .waiting now

section Steps
variable {Screen : Type} (vt : Vt100 Screen)

/-- The task that feeds the terminal is over, and with it the input queue. -/
def Run.fed (s : Run Screen) (forward : Forward) : Run Screen := { s with forward, input := s.input.close }

/-- `terminate_child`. -/
def Run.kill (s : Run Screen) : Run Screen := { s with killed := true, worker := .ending }

def ownerStep (s : Run Screen) : TaskAction → Option (Run Screen)
  | .closes =>
    match s.owner, s.close with
    | .selecting, true | .publishing _ (_ :: _) _, true =>
      some { s with owner := .stopping, close := false, output := s.output.close }
    | _, _ => none
  | .ticks =>
    match s.owner with
    | .selecting =>
      if s.nextTick ≤ s.now then
        some { s with input := s.input.offer (inputRequest []), nextTick := s.nextTick + HEARTBEAT }
      else none
    | _ => none
  | .receives =>
    match s.owner, s.output.receive with
    | .selecting, some (event, output) =>
      let published := s.state.publish vt (gone s.viewers) event
      some { s with
        state := published.1
        input := if published.2.1.isEmpty then s.input else s.input.offer (inputRequest published.2.1)
        output
        owner := .publishing event published.2.2 s.state.generation }
    | _, _ => none
  | .seesEnd =>
    match s.owner, s.worker with
    | .selecting, .ended =>
      if s.output.queue = [] then some { s with owner := .stopping, output := s.output.close } else none
    | _, _ => none
  | .delivers =>
    match s.owner with
    | .publishing event (v :: rest) seen =>
      match s.viewers v with
      | some output =>
        (output.trySend event).map fun output =>
          { s with viewers := Function.update s.viewers v (some output), owner := .publishing event rest seen }
      | none => none
    | _ => none
  | .skips =>
    match s.owner with
    | .publishing event (v :: rest) seen =>
      if gone s.viewers v then
        some { s with
          state := { s.state with outputs := retain (gone s.viewers) s.state.outputs }
          owner := .publishing event rest seen }
      else none
    | _ => none
  | .skipsTakeover =>
    match s.owner with
    | .publishing event (_ :: rest) seen =>
      if s.state.generation ≠ seen then some { s with owner := .publishing event rest seen } else none
    | _ => none
  | .returns =>
    match s.owner with
    | .publishing _ [] _ => some { s with owner := .selecting }
    | _ => none
  | .finishes =>
    match s.owner, s.worker with
    | .stopping, .ended =>
      some { s with
        state := { s.state with outputs := [], generation := s.state.generation + 1 }
        viewers := fun v =>
          if v ∈ s.state.outputs then (s.viewers v).map (·.offer farewell) else s.viewers v
        owner := .ended }
    | _, _ => none
  | _ => none

def readerStep (s : Run Screen) : TaskAction → Option (Run Screen)
  | .sends =>
    match s.reader with
    | .sending event eof _ =>
      (s.output.trySend event).map fun output => { s with output, reader := if eof then .done else .reading }
    | .failing error _ =>
      (s.output.trySend (.error error)).map fun output => { s with output, reader := .done, notified := true }
    | _ => none
  | .sendRefused =>
    match s.reader with
    | .sending _ _ _ | .failing _ _ =>
      if s.output.closed then some { s with reader := .done, notified := true } else none
    | _ => none
  | .sendExpires =>
    -- a send that can go on is not timed out
    match s.reader with
    | .sending _ _ since | .failing _ since =>
      if ¬s.output.Room ∧ s.output.closed = false ∧ since + EXEC_STREAM_IDLE_TIMEOUT ≤ s.now then
        some { s with reader := .done, notified := true }
      else none
    | _ => none
  | _ => none

def forwardStep (s : Run Screen) : TaskAction → Option (Run Screen)
  | .takes =>
    match s.forward, s.input.receive with
    | .waiting _, some (request, input) =>
      match checkProtocol request.protocolVersion with
      | .ok () => some { s with forward := forwards s.now request, input }
      | .error error => some (s.fed (.failed error))
    | _, _ => none
  | .idleExpires =>
    match s.forward with
    | .waiting since =>
      if s.input.queue = [] ∧ since + EXEC_STREAM_IDLE_TIMEOUT ≤ s.now then
        some (s.fed (.failed (.of .deadlineExceeded "stdin stream idle timeout")))
      else none
    | _ => none
  | .writeExpires =>
    match s.forward with
    | .writing _ since =>
      if since + EXEC_STDIN_WRITE_TIMEOUT ≤ s.now then
        some (s.fed (.failed (.of .deadlineExceeded "stdin write timed out")))
      else none
    | .finishing since =>
      if since + EXEC_STDIN_WRITE_TIMEOUT ≤ s.now then
        some (s.fed (.failed (.of .deadlineExceeded "stdin shutdown timed out")))
      else none
    | _ => none
  | _ => none

def workerStep (s : Run Screen) : TaskAction → Option (Run Screen)
  | .seesInput =>
    match s.worker, s.forward with
    | .waiting false, .finished => some { s with worker := .waiting true }
    | .waiting false, .failed _ => some s.kill
    | _, _ => none
  | .seesExit =>
    match s.worker with
    | .waiting _ => if s.exited then some s.kill else none
    | _ => none
  | .seesClosed =>
    match s.worker with
    | .waiting _ => if s.output.closed then some s.kill else none
    | _ => none
  | .seesFailure =>
    match s.worker with
    | .waiting _ => if s.notified then some s.kill else none
    | _ => none
  | _ => none

def taskStep (s : Run Screen) (action : TaskAction) : Option (Run Screen) :=
  match action with
  | .closes | .ticks | .receives | .seesEnd | .delivers | .skips | .skipsTakeover | .returns | .finishes =>
    ownerStep vt s action
  | .sends | .sendRefused | .sendExpires => readerStep s action
  | .takes | .idleExpires | .writeExpires => forwardStep s action
  | .seesInput | .seesExit | .seesClosed | .seesFailure => workerStep s action

/-- Every task waits. -/
def quiet (s : Run Screen) : Bool := TaskAction.all.all fun action => (taskStep vt s action).isNone

/-- When a task that waits will go on by itself. -/
def Forward.deadline : Forward → Option Nat
  | .waiting since => some (since + EXEC_STREAM_IDLE_TIMEOUT)
  | .writing _ since | .finishing since => some (since + EXEC_STDIN_WRITE_TIMEOUT)
  | _ => none

def Reader.deadline : Reader → Option Nat
  | .sending _ _ since | .failing _ since => some (since + EXEC_STREAM_IDLE_TIMEOUT)
  | _ => none

def Run.tick (s : Run Screen) : Option Nat :=
  match s.owner with
  | .selecting => some s.nextTick
  | _ => none

def Run.waitsUntil (s : Run Screen) (time : Nat) : Bool :=
  s.forward.deadline.all (time ≤ ·) && s.reader.deadline.all (time ≤ ·) && s.tick.all (time ≤ ·)

/-- The request that `attachment` lets through, and `send` writes. -/
def admissible (request : ExecRequest) : Option (Option Size) :=
  match checkProtocol request.protocolVersion, request.stdinEof, resizeOf request with
  | .ok (), false, .ok resize => some resize
  | _, _, _ => none

def step (s : Run Screen) : Action → Option (Run Screen)
  | .task action => taskStep vt s action
  | .pass time =>
    if quiet vt s && s.waitsUntil (s.now + time) then some { s with now := s.now + time } else none
  | .attach v created rows cols =>
    match dimensions rows cols with
    | .ok size =>
      if (s.viewers v).isNone then
        let attached := s.state.attach vt created size v
        some { s with
          state := attached.1
          viewers := Function.update s.viewers v (some (openOutput attached.2)) }
      else none
    | .error _ => none
  | .requestResize size => some { s with input := s.input.offer (resizeRequest size) }
  | .types request =>
    (admissible request).bind fun resize =>
      (s.input.trySend request).map fun input => { s with state := s.state.attachment vt resize, input }
  | .reject v request =>
    match resizeOf request, s.viewers v with
    | .error status, some output =>
      some { s with viewers := Function.update s.viewers v (some (output.offer (.error status))) }
    | _, _ => none
  | .reads v =>
    (s.viewers v).bind fun output =>
      output.receive.map fun taken => { s with viewers := Function.update s.viewers v (some taken.2) }
  | .disconnects v =>
    (s.viewers v).map fun output => { s with viewers := Function.update s.viewers v (some output.close) }
  | .closeRequest => some { s with close := true, closed := true }
  | .shutDown => some { s with shutdown := true, killed := true }
  | .prints bytes eof =>
    match s.reader with
    | .reading => some { s with reader := .sending (.ok ⟨some (.stdout bytes)⟩) eof s.now }
    | _ => none
  | .hangsUp =>
    match s.reader with
    | .reading => some { s with reader := .done }
    | _ => none
  | .accepts =>
    match s.forward with
    | .writing eof _ => some { s with forward := if eof then .finishing s.now else .waiting s.now }
    | .finishing _ => some (s.fed .finished)
    | _ => none
  | .exits => if s.killed then none else some { s with exited := true }
  | .ends =>
    -- the child has been reaped, and the tasks beside it are joined or aborted
    match s.worker with
    | .ending => some { s.fed .finished with worker := .ended, reader := .done }
    | _ => none
  | .readFails error =>
    match s.reader with
    | .reading => some { s with reader := .failing error s.now }
    | _ => none
  | .writeFails error =>
    match s.forward with
    | .writing _ _ | .finishing _ => some (s.fed (.failed error))
    | _ => none
  | .resizeFails error =>
    match s.forward, s.input.queue with
    | .waiting _, request :: _ =>
      if 0 < request.terminalRows ∧ 0 < request.terminalCols then some (s.fed (.failed error)) else none
    | _, _ => none

/-- The child has just been spawned; the first heartbeat is due at once. -/
def initial (first : ExecRequest) (createdUnix : Nat) : Run Screen :=
  { now := 0
    state := State.new vt first createdUnix
    viewers := fun _ => none
    input := Channel.empty 32
    output := Channel.empty 16
    forward := forwards 0 first
    reader := .reading
    notified := false
    worker := .waiting false
    owner := .selecting
    nextTick := 0
    close := false
    closed := false
    exited := false
    shutdown := false
    killed := false }

def system (first : ExecRequest) (createdUnix : Nat) : System (Run Screen) Action where
  init s := (∃ request, normalise request = .ok first) ∧ s = initial vt first createdUnix
  step := step vt

end Steps

end Pbox.Agent.SessionClock
