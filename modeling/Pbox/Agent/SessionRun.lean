import Pbox.Agent.Terminal
import Pbox.Lib.Channel
import Pbox.Lib.Transition
import Mathlib.Logic.Function.Basic

/-! One terminal session as it runs: the calls of its viewers, its owner and the task that feeds
the PTY. They meet in the locked state, in one queue for each viewer and in the input queue. An
action is what one of them does between two points at which another can run. -/

namespace Pbox.Agent.SessionRun
open Pbox.Lib.Channel Pbox.Lib.Transition Pbox.Agent.Session Pbox.Agent.Terminal

/-- A viewer's queue and all that its client has read from it. `joined` counts what had happened
to the screen when the viewer subscribed, its own resize included. -/
structure Viewer where
  output : Channel Delivery
  received : List Delivery
  created : Bool
  joined : Nat

/-- How far the `attach` call of a viewer, and then its `attachment` task, has come. -/
inductive Task where
  | resizing (size : Size)
  | attached
  | permitted (request : ExecRequest)
  | detached
  deriving DecidableEq

/-- How far `own_session` has come. While it publishes it holds the viewers still to be served
and the generation it saw. -/
inductive Owner where
  | unspawned
  | idle
  | sending (event : Delivery) (rest : List Nat) (seen : Nat)
  | stopping
  | ended
  deriving DecidableEq

/-- What a locked section did to the screen. -/
inductive Happening where
  | published (event : Delivery) (headless : Bool)
  | resized (size : Size)

/-- `dropped` and `log` record requests that the feeding task never took and the locked sections
in their order; no step reads them. -/
structure Run (Screen : Type) where
  state : State Screen
  viewers : Nat → Option Viewer
  tasks : Nat → Option Task
  input : Channel ExecRequest
  dropped : List ExecRequest
  typing : Nat
  owner : Owner
  creating : Bool
  pty : Nat × Nat
  log : List Happening

inductive Action where
  | attach (v : Nat) (created : Bool) (rows cols : Nat)
  | requestResize (v : Nat)
  | spawn
  | publish (event : Delivery)
  | deliver
  | skipClosed
  | skipTakeover
  | publishDone
  | workerEnds
  | close
  | finish
  | receive (v : Nat)
  | disconnect (v : Nat)
  | read (v : Nat) (request : ExecRequest)
  | reject (v : Nat) (request : ExecRequest)
  | commit (v : Nat)
  | leave (v : Nat)
  | heartbeat
  | typeReserve
  | typeSend (bytes : Bytes)
  | typeDrop
  | consume
  | feedStops

def closed (viewers : Nat → Option Viewer) (v : Nat) : Bool :=
  match viewers v with
  | some viewer => viewer.output.closed
  | none => true

def resizeRequest (size : Size) : ExecRequest :=
  { protocolVersion := PROTOCOL, terminalRows := size.rows, terminalCols := size.cols }

def inputRequest (bytes : Bytes) : ExecRequest := { protocolVersion := PROTOCOL, stdin := bytes }

/-- `resize_pty`, which cuts both numbers to 16 bits. -/
def resizePty (rows cols : Nat) : Nat × Nat := (min rows 65535, min cols 65535)

/-- The part of `forward_stdin` that changes the size of the PTY. -/
def forwardResize (pty : Nat × Nat) (request : ExecRequest) : Nat × Nat :=
  if 0 < request.terminalRows ∧ 0 < request.terminalCols then
    resizePty request.terminalRows request.terminalCols
  else pty

/-- `Status::cancelled`, the last item of a viewer's stream when it has room for it. -/
def farewell : Delivery := .error (.of .cancelled "terminal session closed")

def Viewer.dismiss (viewer : Viewer) : Viewer :=
  { viewer with output := viewer.output.offer farewell }

/-- The queue of a new viewer, with the first event already in it. -/
def openOutput (first : Option Delivery) : Channel Delivery :=
  match first with
  | some event => (Channel.empty 64).offer event
  | none => Channel.empty 64

section Steps
variable {Screen : Type} (vt : Vt100 Screen)

def attach (s : Run Screen) (v : Nat) (created : Bool) (size : Size) : Run Screen :=
  let attached := s.state.attach vt created size v
  { s with
    state := attached.1
    viewers := Function.update s.viewers v
      (some ⟨openOutput attached.2, [], created, s.log.length + 1⟩)
    tasks := Function.update s.tasks v (some (.resizing size))
    creating := s.creating && !created
    log := s.log ++ [.resized size] }

def publish (s : Run Screen) (event : Delivery) : Run Screen :=
  let published := s.state.publish vt (closed s.viewers) event
  { s with
    state := published.1
    input := if published.2.1.isEmpty then s.input
      else s.input.offer (inputRequest published.2.1)
    owner := .sending event published.2.2 s.state.generation
    log := s.log ++ [.published event (s.state.headless (closed s.viewers))] }

def finish (s : Run Screen) : Run Screen :=
  { s with
    state := { s.state with outputs := [], generation := s.state.generation + 1 }
    viewers := fun v => if v ∈ s.state.outputs then (s.viewers v).map Viewer.dismiss else s.viewers v
    owner := .ended }

def commit (s : Run Screen) (v : Nat) (request : ExecRequest) (resize : Option Size)
    (input : Channel ExecRequest) : Run Screen :=
  { s with
    state := s.state.attachment vt resize
    tasks := Function.update s.tasks v (some .attached)
    input := input
    dropped := if s.input.closed then s.dropped ++ [request] else s.dropped
    log := match resize with
      | some size => s.log ++ [.resized size]
      | none => s.log }

def step (s : Run Screen) : Action → Option (Run Screen)
  | .attach v created rows cols =>
    match dimensions rows cols with
    | .ok size =>
      if (s.viewers v).isNone ∧ (created = true → s.creating = true) then
        some (attach vt s v created size)
      else none
    | .error _ => none
  | .requestResize v =>
    match s.tasks v with
    | some (.resizing size) =>
      some { s with
        input := s.input.offer (resizeRequest size)
        tasks := Function.update s.tasks v (some .attached) }
    | _ => none
  | .spawn =>
    -- `attach` spawns the owner of a session it created after subscribing to it.
    if s.owner = .unspawned ∧ s.creating = false then some { s with owner := .idle } else none
  | .publish event => if s.owner = .idle then some (publish vt s event) else none
  | .deliver =>
    match s.owner with
    | .sending event (v :: rest) seen =>
      match s.viewers v with
      | some viewer =>
        (viewer.output.trySend event).map fun output =>
          { s with
            viewers := Function.update s.viewers v (some { viewer with output := output })
            owner := .sending event rest seen }
      | none => none
    | _ => none
  | .skipClosed =>
    match s.owner with
    | .sending event (v :: rest) seen =>
      if closed s.viewers v = true then
        some { s with
          state := { s.state with outputs := retain (closed s.viewers) s.state.outputs }
          owner := .sending event rest seen }
      else none
    | _ => none
  | .skipTakeover =>
    match s.owner with
    | .sending event (_ :: rest) seen =>
      if s.state.generation ≠ seen then some { s with owner := .sending event rest seen } else none
    | _ => none
  | .publishDone =>
    match s.owner with
    | .sending _ [] _ => some { s with owner := .idle }
    | _ => none
  | .workerEnds => if s.owner = .idle then some { s with owner := .stopping } else none
  | .close =>
    match s.owner with
    | .idle | .sending _ _ _ => some { s with owner := .stopping }
    | _ => none
  | .finish => if s.owner = .stopping then some (finish s) else none
  | .receive v =>
    match s.viewers v with
    | some viewer =>
      viewer.output.receive.map fun taken =>
        { s with
          viewers := Function.update s.viewers v
            (some { viewer with output := taken.2, received := viewer.received ++ [taken.1] }) }
    | none => none
  | .disconnect v =>
    match s.viewers v with
    | some viewer =>
      some { s with
        viewers := Function.update s.viewers v
          (some { viewer with output := viewer.output.close }) }
    | none => none
  | .read v request =>
    -- Every check stands before the permit; what breaks the loop instead is `leave` or `reject`.
    match s.tasks v, checkProtocol request.protocolVersion, request.stdinEof, resizeOf request with
    | some .attached, .ok (), false, .ok _ =>
      s.input.reserve.map fun input =>
        { s with input := input, tasks := Function.update s.tasks v (some (.permitted request)) }
    | _, _, _, _ => none
  | .reject v request =>
    match s.tasks v, s.viewers v, resizeOf request with
    | some .attached, some viewer, .error status =>
      some { s with
        viewers := Function.update s.viewers v
          (some { viewer with output := viewer.output.offer (.error status) })
        tasks := Function.update s.tasks v (some .detached) }
    | _, _, _ => none
  | .commit v =>
    match s.tasks v with
    | some (.permitted request) =>
      match resizeOf request with
      | .ok resize => (s.input.fill request).map fun input => commit vt s v request resize input
      | .error _ => none
    | _ => none
  | .leave v =>
    match s.tasks v with
    | some .attached => some { s with tasks := Function.update s.tasks v (some .detached) }
    | _ => none
  | .heartbeat =>
    if s.owner = .idle then some { s with input := s.input.offer (inputRequest []) } else none
  | .typeReserve =>
    s.input.reserve.map fun input => { s with input := input, typing := s.typing + 1 }
  | .typeSend bytes =>
    if 0 < s.typing then
      (s.input.fill (inputRequest bytes)).map fun input =>
        { s with
          input := input
          typing := s.typing - 1
          dropped := if s.input.closed then s.dropped ++ [inputRequest bytes] else s.dropped }
    else none
  | .typeDrop =>
    if 0 < s.typing then
      s.input.release.map fun input => { s with input := input, typing := s.typing - 1 }
    else none
  | .consume =>
    if s.owner ≠ .unspawned then
      s.input.receive.map fun taken =>
        { s with input := taken.2, pty := forwardResize s.pty taken.1 }
    else none
  | .feedStops =>
    if s.owner ≠ .unspawned then
      some { s with input := s.input.close, dropped := s.dropped ++ s.input.queue }
    else none

/-- A session just inserted by `prepare`, for an `attach` that is still to subscribe its own
viewer or for a `start` without one. -/
def initial (first : ExecRequest) (createdUnix : Nat) (creating : Bool) : Run Screen :=
  { state := State.new vt first createdUnix
    viewers := fun _ => none
    tasks := fun _ => none
    input := Channel.empty 32
    dropped := []
    typing := 0
    owner := .unspawned
    creating := creating
    pty := resizePty first.terminalRows first.terminalCols
    log := [] }

def system (first : ExecRequest) (createdUnix : Nat) (creating : Bool) :
    System (Run Screen) Action where
  init s := (∃ request, normalise request = .ok first) ∧ s = initial vt first createdUnix creating
  step := step vt

end Steps

end Pbox.Agent.SessionRun
