import Pbox.Agent.SessionRun

/-! What a step of a running session can do, once for all proofs: its guard, what it does to the
queues, and the state after it. -/

namespace Pbox.Agent.SessionSteps
open Pbox.Lib.Channel Pbox.Agent.Session Pbox.Agent.Terminal Pbox.Agent.SessionRun

inductive RunStep {Screen : Type} (vt : Vt100 Screen) (s : Run Screen) : Action → Run Screen → Prop
  | attach {v : Nat} {created : Bool} {rows cols : Nat} {size : Size}
      (sized : dimensions rows cols = .ok size) (fresh : s.viewers v = none)
      (own : created = true → s.creating = true) :
      RunStep vt s (.attach v created rows cols) (attach vt s v created size)
  | requestResize {v : Nat} {size : Size} (held : s.tasks v = some (.resizing size)) :
      RunStep vt s (.requestResize v)
        { s with
          input := s.input.offer (resizeRequest size)
          tasks := Function.update s.tasks v (some .attached) }
  | spawn (was : s.owner = .unspawned) (settled : s.creating = false) :
      RunStep vt s .spawn { s with owner := .idle }
  | publish {event : Delivery} (was : s.owner = .idle) :
      RunStep vt s (.publish event) (publish vt s event)
  | deliver {event : Delivery} {v : Nat} {rest : List Nat} {seen : Nat} {viewer : Viewer}
      {output : Channel Delivery} (was : s.owner = .sending event (v :: rest) seen)
      (found : s.viewers v = some viewer) (sent : viewer.output.trySend event = some output) :
      RunStep vt s .deliver
        { s with
          viewers := Function.update s.viewers v (some { viewer with output := output })
          owner := .sending event rest seen }
  | skipClosed {event : Delivery} {v : Nat} {rest : List Nat} {seen : Nat}
      (was : s.owner = .sending event (v :: rest) seen) (gone : closed s.viewers v = true) :
      RunStep vt s .skipClosed
        { s with
          state := { s.state with outputs := retain (closed s.viewers) s.state.outputs }
          owner := .sending event rest seen }
  | skipTakeover {event : Delivery} {v : Nat} {rest : List Nat} {seen : Nat}
      (was : s.owner = .sending event (v :: rest) seen) (newer : s.state.generation ≠ seen) :
      RunStep vt s .skipTakeover { s with owner := .sending event rest seen }
  | publishDone {event : Delivery} {seen : Nat} (was : s.owner = .sending event [] seen) :
      RunStep vt s .publishDone { s with owner := .idle }
  | workerEnds (was : s.owner = .idle) : RunStep vt s .workerEnds { s with owner := .stopping }
  | close (was : s.owner = .idle ∨ ∃ event rest seen, s.owner = .sending event rest seen) :
      RunStep vt s .close { s with owner := .stopping }
  | finish (was : s.owner = .stopping) : RunStep vt s .finish (finish s)
  | receive {v : Nat} {viewer : Viewer} {event : Delivery} {output : Channel Delivery}
      (found : s.viewers v = some viewer) (received : viewer.output.receive = some (event, output)) :
      RunStep vt s (.receive v)
        { s with
          viewers := Function.update s.viewers v
            (some { viewer with output := output, received := viewer.received ++ [event] }) }
  | disconnect {v : Nat} {viewer : Viewer} (found : s.viewers v = some viewer) :
      RunStep vt s (.disconnect v)
        { s with
          viewers := Function.update s.viewers v
            (some { viewer with output := viewer.output.close }) }
  | read {v : Nat} {request : ExecRequest} {resize : Option Size} {input : Channel ExecRequest}
      (held : s.tasks v = some .attached) (current : checkProtocol request.protocolVersion = .ok ())
      (more : request.stdinEof = false) (asked : resizeOf request = .ok resize)
      (reserved : s.input.reserve = some input) :
      RunStep vt s (.read v request)
        { s with input := input, tasks := Function.update s.tasks v (some (.permitted request)) }
  | reject {v : Nat} {request : ExecRequest} {viewer : Viewer} {status : Status}
      (held : s.tasks v = some .attached) (found : s.viewers v = some viewer)
      (refused : resizeOf request = .error status) :
      RunStep vt s (.reject v request)
        { s with
          viewers := Function.update s.viewers v
            (some { viewer with output := viewer.output.offer (.error status) })
          tasks := Function.update s.tasks v (some .detached) }
  | commit {v : Nat} {request : ExecRequest} {resize : Option Size} {input : Channel ExecRequest}
      (held : s.tasks v = some (.permitted request)) (asked : resizeOf request = .ok resize)
      (filled : s.input.fill request = some input) :
      RunStep vt s (.commit v) (commit vt s v request resize input)
  | leave {v : Nat} (held : s.tasks v = some .attached) :
      RunStep vt s (.leave v)
        { s with tasks := Function.update s.tasks v (some .detached) }
  | heartbeat (was : s.owner = .idle) :
      RunStep vt s .heartbeat { s with input := s.input.offer (inputRequest []) }
  | typeReserve {input : Channel ExecRequest} (reserved : s.input.reserve = some input) :
      RunStep vt s .typeReserve { s with input := input, typing := s.typing + 1 }
  | typeSend {bytes : Bytes} {input : Channel ExecRequest} (typing : 0 < s.typing)
      (filled : s.input.fill (inputRequest bytes) = some input) :
      RunStep vt s (.typeSend bytes)
        { s with
          input := input
          typing := s.typing - 1
          dropped := if s.input.closed then s.dropped ++ [inputRequest bytes] else s.dropped }
  | typeDrop {input : Channel ExecRequest} (typing : 0 < s.typing)
      (released : s.input.release = some input) :
      RunStep vt s .typeDrop { s with input := input, typing := s.typing - 1 }
  | consume {request : ExecRequest} {input : Channel ExecRequest} (spawned : s.owner ≠ .unspawned)
      (received : s.input.receive = some (request, input)) :
      RunStep vt s .consume { s with input := input, pty := forwardResize s.pty request }
  | feedStops (spawned : s.owner ≠ .unspawned) :
      RunStep vt s .feedStops
        { s with input := s.input.close, dropped := s.dropped ++ s.input.queue }

variable {Screen : Type} {vt : Vt100 Screen} {s t : Run Screen}

theorem runStep {a : Action} (taken : step vt s a = some t) : RunStep vt s a t := by
  cases a with
  | attach v created rows cols =>
    simp only [step] at taken
    split at taken
    next size sized =>
      split at taken
      next allowed =>
        cases taken
        exact .attach sized (Option.isNone_iff_eq_none.mp allowed.1) allowed.2
      next => cases taken
    next => cases taken
  | requestResize v =>
    simp only [step] at taken
    split at taken
    next size held => cases taken; exact .requestResize held
    next => cases taken
  | spawn =>
    simp only [step] at taken
    split at taken
    next allowed => cases taken; exact .spawn allowed.1 allowed.2
    next => cases taken
  | publish event =>
    simp only [step] at taken
    split at taken
    next was => cases taken; exact .publish was
    next => cases taken
  | deliver =>
    simp only [step] at taken
    split at taken
    next event v rest seen was =>
      split at taken
      next viewer found =>
        obtain ⟨output, sent, rfl⟩ := Option.map_eq_some_iff.mp taken
        exact .deliver was found sent
      next => cases taken
    next => cases taken
  | skipClosed =>
    simp only [step] at taken
    split at taken
    next event v rest seen was =>
      split at taken
      next gone => cases taken; exact .skipClosed was gone
      next => cases taken
    next => cases taken
  | skipTakeover =>
    simp only [step] at taken
    split at taken
    next event v rest seen was =>
      split at taken
      next newer => cases taken; exact .skipTakeover was newer
      next => cases taken
    next => cases taken
  | publishDone =>
    simp only [step] at taken
    split at taken
    next event seen was => cases taken; exact .publishDone was
    next => cases taken
  | workerEnds =>
    simp only [step] at taken
    split at taken
    next was => cases taken; exact .workerEnds was
    next => cases taken
  | close =>
    simp only [step] at taken
    split at taken
    next was => cases taken; exact .close (.inl was)
    next event rest seen was => cases taken; exact .close (.inr ⟨event, rest, seen, was⟩)
    next => cases taken
  | finish =>
    simp only [step] at taken
    split at taken
    next was => cases taken; exact .finish was
    next => cases taken
  | receive v =>
    simp only [step] at taken
    split at taken
    next viewer found =>
      obtain ⟨⟨event, output⟩, received, rfl⟩ := Option.map_eq_some_iff.mp taken
      exact .receive found received
    next => cases taken
  | disconnect v =>
    simp only [step] at taken
    split at taken
    next viewer found => cases taken; exact .disconnect found
    next => cases taken
  | read v request =>
    simp only [step] at taken
    split at taken
    next held current more asked =>
      obtain ⟨input, reserved, rfl⟩ := Option.map_eq_some_iff.mp taken
      exact .read held current more asked reserved
    next => cases taken
  | reject v request =>
    simp only [step] at taken
    split at taken
    next held found refused => cases taken; exact .reject held found refused
    next => cases taken
  | commit v =>
    simp only [step] at taken
    split at taken
    next request held =>
      split at taken
      next resize asked =>
        obtain ⟨input, filled, rfl⟩ := Option.map_eq_some_iff.mp taken
        exact .commit held asked filled
      next => cases taken
    next => cases taken
  | leave v =>
    simp only [step] at taken
    split at taken
    next held => cases taken; exact .leave held
    next => cases taken
  | heartbeat =>
    simp only [step] at taken
    split at taken
    next was => cases taken; exact .heartbeat was
    next => cases taken
  | typeReserve =>
    obtain ⟨input, reserved, rfl⟩ := Option.map_eq_some_iff.mp taken
    exact .typeReserve reserved
  | typeSend bytes =>
    simp only [step] at taken
    split at taken
    next typing =>
      obtain ⟨input, filled, rfl⟩ := Option.map_eq_some_iff.mp taken
      exact .typeSend typing filled
    next => cases taken
  | typeDrop =>
    simp only [step] at taken
    split at taken
    next typing =>
      obtain ⟨input, released, rfl⟩ := Option.map_eq_some_iff.mp taken
      exact .typeDrop typing released
    next => cases taken
  | consume =>
    simp only [step] at taken
    split at taken
    next spawned =>
      obtain ⟨⟨request, input⟩, received, rfl⟩ := Option.map_eq_some_iff.mp taken
      exact .consume spawned received
    next => cases taken
  | feedStops =>
    simp only [step] at taken
    split at taken
    next spawned => cases taken; exact .feedStops spawned
    next => cases taken

end Pbox.Agent.SessionSteps
