import Pbox.Forward.Model

/-! What a step of either loop can do, once for all proofs: its guard, what it does to the streams
and sockets, and the state after it. -/

namespace Pbox.Forward.Steps
open Pbox.Lib.Channel Pbox.Lib.HalfClose Pbox.Lib.Pipe Pbox.Forward.Model

inductive ClientStep (s : Forward) : ClientAction → Forward → Prop
  | read {count : Nat} (was : s.client.pc = .select) (opened : s.client.localWriteClosed = false)
      (ready : readable s.localIn count) :
      ClientStep s (.read count)
        { s with
          localIn := (s.localIn.read count).2
          localRead := s.localRead ++ (s.localIn.read count).1
          client := { s.client with pc := .sending (.data (s.localIn.read count).1) } }
  | eof (was : s.client.pc = .select) (opened : s.client.localWriteClosed = false)
      (empty : s.localIn.buffered = []) (ended : s.localIn.ended = true) :
      ClientStep s .eof { s with client := { s.client with pc := .sending (.close 0 true) } }
  | send {event : ForwardEvent} {request : Channel ForwardEvent} (was : s.client.pc = .sending event)
      (sent : s.request.trySend event = some request) :
      ClientStep s .send
        { s with
          request := request
          client :=
            { s.client with
              pc := .select
              localWriteClosed := s.client.localWriteClosed || event == .close 0 true } }
  | take {event : ForwardEvent} {response : Channel ForwardEvent} (was : s.client.pc = .select)
      (unread : s.client.remoteWriteClosed = false)
      (received : s.response.receive = some (event, response)) :
      ClientStep s .take (clientHandle s response event)
  | write {count : Nat} {rest : Bytes} {localOut : Pipe UInt8} (was : s.client.pc = .writing rest)
      (bounds : 0 < count ∧ count ≤ rest.length)
      (wrote : s.localOut.write (rest.take count) = some localOut) :
      ClientStep s (.write count)
        { s with
          localOut := localOut
          localWritten := s.localWritten ++ rest.take count
          client := { s.client with pc := .writing (rest.drop count) } }
  | writeDone (was : s.client.pc = .writing []) :
      ClientStep s .writeDone { s with client := { s.client with pc := .select } }
  | finish (was : s.client.pc = .select) (done : s.client.done = true) :
      ClientStep s .finish { s with client := { s.client with pc := .finishing } }
  | leave (was : s.client.pc = .finishing) (closed : s.request.closed = true) :
      ClientStep s .leave (clientReturns s true)
  | close {request : Channel ForwardEvent} (was : s.client.pc = .finishing)
      (sent : s.request.trySend (.close 0 false) = some request) :
      ClientStep s .leave (clientReturns { s with request := request } true)
  | fails {action : ClientAction} (forced : action.forced = true)
      (active : s.client.pc ≠ .returned true) : ClientStep s action (clientReturns s false)

theorem clientStep {s t : Forward} {action : ClientAction} (taken : stepClient s action = some t) :
    ClientStep s action t := by
  cases action with
  | read count =>
    simp only [stepClient] at taken
    split at taken
    next ready => cases taken; exact .read ready.1 ready.2.1 ready.2.2
    next => cases taken
  | eof =>
    simp only [stepClient] at taken
    split at taken
    next ready =>
      cases taken
      obtain ⟨empty, ended⟩ := Bool.and_eq_true_iff.mp ready.2.2
      exact .eof ready.1 ready.2.1 (List.isEmpty_iff.mp empty) ended
    next => cases taken
  | readFails | streamFails =>
    simp only [stepClient] at taken
    split at taken
    next ready => cases taken; exact .fails rfl (by simp [ready.1])
    next => cases taken
  | send =>
    simp only [stepClient] at taken
    split at taken
    next event sending =>
      obtain ⟨request, sent, rfl⟩ := Option.map_eq_some_iff.mp taken
      exact .send sending sent
    next => cases taken
  | sendFails =>
    simp only [stepClient] at taken
    split at taken
    next event sending =>
      split at taken
      next => cases taken; exact .fails rfl (by simp [sending])
      next => cases taken
    next => cases taken
  | take =>
    simp only [stepClient] at taken
    split at taken
    next ready =>
      obtain ⟨⟨event, response⟩, received, rfl⟩ := Option.map_eq_some_iff.mp taken
      exact .take ready.1 ready.2 received
    next => cases taken
  | write count =>
    simp only [stepClient] at taken
    split at taken
    next rest writing =>
      split at taken
      next some =>
        obtain ⟨localOut, wrote, rfl⟩ := Option.map_eq_some_iff.mp taken
        exact .write writing some wrote
      next => cases taken
    next => cases taken
  | writeDone =>
    simp only [stepClient] at taken
    split at taken
    next writing => cases taken; exact .writeDone writing
    next => cases taken
  | writeFails =>
    simp only [stepClient] at taken
    split at taken
    next rest writing => cases taken; exact .fails rfl (by simp [writing])
    next => cases taken
  | finish =>
    simp only [stepClient] at taken
    split at taken
    next ready => cases taken; exact .finish ready.1 ready.2
    next => cases taken
  | leave =>
    simp only [stepClient] at taken
    split at taken
    next finishing =>
      split at taken
      next closed => cases taken; exact .leave finishing closed
      next =>
        obtain ⟨request, sent, rfl⟩ := Option.map_eq_some_iff.mp taken
        exact .close finishing sent
    next => cases taken

inductive AgentStep (s : Forward) : AgentAction → Forward → Prop
  | take {event : ForwardEvent} {request : Channel ForwardEvent} (was : s.agent.pc = .select)
      (unread : s.agent.clientWriteClosed = false)
      (received : s.request.receive = some (event, request)) :
      AgentStep s .take (agentHandle s request event)
  | breaks {action : AgentAction} {code : Nat}
      (stops : action = .streamFails ∨ action = .readFails ∨ action = .idle)
      (was : s.agent.pc = .select) (failed : code ≠ 0) : AgentStep s action (agentBreaks s code)
  | shutdownFails {request : Channel ForwardEvent} (was : s.agent.pc = .select)
      (received : s.request.receive = some (.close 0 true, request)) :
      AgentStep s .shutdownFails (agentBreaks { s with request := request } 1)
  | read {count : Nat} (was : s.agent.pc = .select) (opened : s.agent.targetWriteClosed = false)
      (ready : readable s.targetOut count) :
      AgentStep s (.read count)
        { s with
          targetOut := (s.targetOut.read count).2
          targetRead := s.targetRead ++ (s.targetOut.read count).1
          agent := { s.agent with pc := .sending (.data (s.targetOut.read count).1) } }
  | eof (was : s.agent.pc = .select) (opened : s.agent.targetWriteClosed = false)
      (empty : s.targetOut.buffered = []) (ended : s.targetOut.ended = true) :
      AgentStep s .eof
        { s with agent := { s.agent with pc := .sending (.close 0 true), targetWriteClosed := true } }
  | write {count : Nat} {rest : Bytes} {targetIn : Pipe UInt8} (was : s.agent.pc = .writing rest)
      (bounds : 0 < count ∧ count ≤ rest.length)
      (wrote : s.targetIn.write (rest.take count) = some targetIn) :
      AgentStep s (.write count)
        { s with
          targetIn := targetIn
          targetWritten := s.targetWritten ++ rest.take count
          agent := { s.agent with pc := .writing (rest.drop count) } }
  | writeDone (was : s.agent.pc = .writing []) :
      AgentStep s .writeDone { s with agent := { s.agent with pc := .select } }
  | writeFails {rest : Bytes} (was : s.agent.pc = .writing rest) :
      AgentStep s .writeFails (agentBreaks { s with dropped := s.dropped ++ rest } 1)
  | send {event : ForwardEvent} {response : Channel ForwardEvent} (was : s.agent.pc = .sending event)
      (sent : s.response.trySend event = some response) :
      AgentStep s .send
        { s with
          response := response
          agent := { s.agent with pc := .select }
          announced := s.announced || event == .close 0 true }
  | sendFails {event : ForwardEvent} (was : s.agent.pc = .sending event) :
      AgentStep s .sendFails (agentEnds s)
  | finish (was : s.agent.pc = .select) (done : s.agent.done = true) :
      AgentStep s .finish (agentBreaks s 0)
  | close {code : Nat} {response : Channel ForwardEvent} (was : s.agent.pc = .finishing code)
      (sent : s.response.trySend (.close code false) = some response) :
      AgentStep s .close (agentEnds { s with response := response })
  | closeFails {code : Nat} (was : s.agent.pc = .finishing code) :
      AgentStep s .closeFails (agentEnds s)

theorem agentStep {s t : Forward} {action : AgentAction} (taken : stepAgent s action = some t) :
    AgentStep s action t := by
  cases action with
  | take =>
    simp only [stepAgent] at taken
    split at taken
    next ready =>
      obtain ⟨⟨event, request⟩, received, rfl⟩ := Option.map_eq_some_iff.mp taken
      exact .take ready.1 ready.2 received
    next => cases taken
  | streamFails | readFails | idle =>
    simp only [stepAgent] at taken
    split at taken
    next ready => cases taken; exact .breaks (by decide) ready.1 (by decide)
    next => cases taken
  | shutdownFails =>
    simp only [stepAgent] at taken
    split at taken
    next ready =>
      split at taken
      next request received => cases taken; exact .shutdownFails ready.1 received
      next => cases taken
    next => cases taken
  | read count =>
    simp only [stepAgent] at taken
    split at taken
    next ready => cases taken; exact .read ready.1 ready.2.1 ready.2.2
    next => cases taken
  | eof =>
    simp only [stepAgent] at taken
    split at taken
    next ready =>
      cases taken
      obtain ⟨empty, ended⟩ := Bool.and_eq_true_iff.mp ready.2.2
      exact .eof ready.1 ready.2.1 (List.isEmpty_iff.mp empty) ended
    next => cases taken
  | write count =>
    simp only [stepAgent] at taken
    split at taken
    next rest writing =>
      split at taken
      next some =>
        obtain ⟨targetIn, wrote, rfl⟩ := Option.map_eq_some_iff.mp taken
        exact .write writing some wrote
      next => cases taken
    next => cases taken
  | writeDone =>
    simp only [stepAgent] at taken
    split at taken
    next writing => cases taken; exact .writeDone writing
    next => cases taken
  | writeFails =>
    simp only [stepAgent] at taken
    split at taken
    next rest writing => cases taken; exact .writeFails writing
    next => cases taken
  | send =>
    simp only [stepAgent] at taken
    split at taken
    next event sending =>
      obtain ⟨response, sent, rfl⟩ := Option.map_eq_some_iff.mp taken
      exact .send sending sent
    next => cases taken
  | sendFails =>
    simp only [stepAgent] at taken
    split at taken
    next event sending => cases taken; exact .sendFails sending
    next => cases taken
  | finish =>
    simp only [stepAgent] at taken
    split at taken
    next ready => cases taken; exact .finish ready.1 ready.2
    next => cases taken
  | close =>
    simp only [stepAgent] at taken
    split at taken
    next code finishing =>
      obtain ⟨response, sent, rfl⟩ := Option.map_eq_some_iff.mp taken
      exact .close finishing sent
    next => cases taken
  | closeFails =>
    simp only [stepAgent] at taken
    split at taken
    next code finishing => cases taken; exact .closeFails finishing
    next => cases taken

section Frame
variable {s t : Forward}

theorem agentHandle_frame (s : Forward) (stream : Channel ForwardEvent) (event : ForwardEvent) :
    (agentHandle s stream event).client = s.client ∧ (agentHandle s stream event).localIn = s.localIn ∧
      (agentHandle s stream event).localOut = s.localOut := by
  unfold agentHandle
  split
  · exact ⟨rfl, rfl, rfl⟩
  · dsimp only
    split_ifs <;> exact ⟨rfl, rfl, rfl⟩
  · exact ⟨rfl, rfl, rfl⟩

theorem clientHandle_frame (s : Forward) (stream : Channel ForwardEvent) (event : ForwardEvent) :
    (clientHandle s stream event).agent = s.agent ∧ (clientHandle s stream event).targetIn = s.targetIn ∧
      (clientHandle s stream event).targetOut = s.targetOut := by
  unfold clientHandle
  split
  · exact ⟨rfl, rfl, rfl⟩
  · dsimp only
    split_ifs <;> exact ⟨rfl, rfl, rfl⟩
  · exact ⟨rfl, rfl, rfl⟩

/-- The loops do not touch each other, nor each other's socket. -/
theorem agent_frame {action : AgentAction} (taken : stepAgent s action = some t) :
    t.client = s.client ∧ t.localIn = s.localIn ∧ t.localOut = s.localOut := by
  cases agentStep taken with
  | take => exact agentHandle_frame s _ _
  | _ => exact ⟨rfl, rfl, rfl⟩

theorem client_frame {action : ClientAction} (taken : stepClient s action = some t) :
    t.agent = s.agent ∧ t.targetIn = s.targetIn ∧ t.targetOut = s.targetOut := by
  cases clientStep taken with
  | take => exact clientHandle_frame s _ _
  | _ => exact ⟨rfl, rfl, rfl⟩

end Frame

end Pbox.Forward.Steps
