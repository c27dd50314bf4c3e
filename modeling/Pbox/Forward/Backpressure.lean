import Pbox.Forward.Delivery

/-! Orderly runs of a forwarded connection and what they keep true. An event is taken off a
stream only when its socket has room for all of it, and the two loops never wait in full streams
for each other. -/

namespace Pbox.Forward.Backpressure
open Pbox.Lib.Channel Pbox.Lib.HalfClose Pbox.Lib.Pipe Pbox.Lib.Transition Pbox.Forward.Model
  Pbox.Forward.Steps Pbox.Forward.Delivery

def ClientStuck (s : Forward) : Prop := s.client.sends = true ∧ ¬s.request.Room
def AgentStuck (s : Forward) : Prop := s.agent.sends = true ∧ ¬s.response.Room

instance (s : Forward) : Decidable (ClientStuck s) := inferInstanceAs (Decidable (_ ∧ _))
instance (s : Forward) : Decidable (AgentStuck s) := inferInstanceAs (Decidable (_ ∧ _))

/-- The event that a loop would take next has room in its socket. -/
def Fits (queue : List ForwardEvent) (room : Nat) : Prop :=
  ∀ chunk rest, queue = .data chunk :: rest → chunk.length ≤ room

instance (queue : List ForwardEvent) (room : Nat) : Decidable (Fits queue room) :=
  match queue with
  | .data chunk :: _ =>
    decidable_of_iff (chunk.length ≤ room)
      ⟨fun fits _ _ same => by cases same; exact fits, fun fits => fits chunk _ rfl⟩
  | [] => isTrue (by nofun)
  | .close _ _ :: _ => isTrue (by nofun)
  | .invalid :: _ => isTrue (by nofun)

def clientOrderly (s : Forward) : ClientAction → Prop
  | .read _ | .eof => s.request.Room ∨ ¬AgentStuck s
  | .take => Fits s.response.queue s.localOut.room
  | _ => True

def agentOrderly (s : Forward) : AgentAction → Prop
  | .read _ | .eof => s.response.Room ∨ ¬ClientStuck s
  | .take => Fits s.request.queue s.targetIn.room
  | _ => True

/-- An event is taken off a stream only when its socket has room for all of it, and neither loop
starts a send into a full stream while the other waits in one. Nothing fails or times out; the
agent's last close may find the client gone. -/
def Orderly (s : Forward) : Action → Prop
  | .peer _ => True
  | .client action => action.forced = false ∧ clientOrderly s action
  | .agent action =>
    (action.forced = false ∨ action = .closeFails ∧ s.response.closed = true) ∧ agentOrderly s action

instance (s : Forward) (action : ClientAction) : Decidable (clientOrderly s action) := by
  unfold clientOrderly
  split <;> infer_instance

instance (s : Forward) (action : AgentAction) : Decidable (agentOrderly s action) := by
  unfold agentOrderly
  split <;> infer_instance

instance (s : Forward) (a : Action) : Decidable (Orderly s a) :=
  match a with
  | .peer _ => isTrue trivial
  | .client _ => inferInstanceAs (Decidable (_ ∧ _))
  | .agent _ => inferInstanceAs (Decidable (_ ∧ _))

structure ClientInv (client : Client) (localIn localOut : Pipe UInt8) : Prop where
  offers : ∀ event, client.pc = .sending event → client.localWriteClosed = false ∧
    (event = .close 0 true ∨ ∃ chunk, event = .data chunk)
  unfailed : client.pc ≠ .returned false
  out : client.pc = .finishing ∨ client.pc = .returned true → client.done = true
  fits : ∀ rest, client.pc = .writing rest → rest.length ≤ localOut.room ∧ localOut.ended = false
  ended : localOut.ended = true → client.remoteWriteClosed = true
  eof : client.localWriteClosed = true ∨ client.pc = .sending (.close 0 true) →
    localIn.buffered = [] ∧ localIn.ended = true

structure AgentInv (agent : Agent) (targetIn targetOut : Pipe UInt8) : Prop where
  zero : ∀ code, agent.pc = .finishing code → code = 0
  out : agent.running = false → agent.done = true
  fits : ∀ rest, agent.pc = .writing rest → rest.length ≤ targetIn.room ∧ targetIn.ended = false
  ended : targetIn.ended = true → agent.clientWriteClosed = true
  eof : agent.targetWriteClosed = true → targetOut.buffered = [] ∧ targetOut.ended = true

/-- No close in a queue reports an error. -/
def Clean (queue : List ForwardEvent) : Prop := ∀ code half, Frame.close code half ∈ queue → code = 0

structure StreamInv (client : Client) (agent : Agent) (request response : Channel ForwardEvent) :
    Prop where
  shape : Shape client.localWriteClosed agent.clientWriteClosed request.queue
  requests : Clean request.queue
  responses : Clean response.queue
  requestOpen : request.closed = true ↔ agent.pc = .ended
  emptied : agent.pc = .ended → request.queue = []
  responseOpen : response.closed = true → client.pc = .returned true
  requestSize : request.reserved = 0 ∧ request.capacity = 32
  responseSize : response.reserved = 0 ∧ response.capacity = 32
  apart : client.sends = true → agent.sends = true → request.Room ∨ response.Room

structure Live (s : Forward) : Prop extends Inv s where
  client : ClientInv s.client s.localIn s.localOut
  agent : AgentInv s.agent s.targetIn s.targetOut
  streams : StreamInv s.client s.agent s.request s.response

theorem Clean.push {queue : List ForwardEvent} {event : ForwardEvent} (clean : Clean queue)
    (fine : ∀ code half, event = .close code half → code = 0) : Clean (queue ++ [event]) := by
  intro code half member
  rcases List.mem_append.mp member with earlier | last
  · exact clean code half earlier
  · exact fine code half (List.mem_singleton.mp last).symm

theorem Clean.tail {queue : List ForwardEvent} {event : ForwardEvent} (clean : Clean (event :: queue)) :
    Clean queue := fun code half member => clean code half (List.mem_cons_of_mem _ member)

/-- An open stream without room holds something. -/
theorem nonempty_of_full {stream : Channel ForwardEvent} (opened : stream.closed = false)
    (size : stream.reserved = 0 ∧ stream.capacity = 32) (full : ¬stream.Room) : stream.queue ≠ [] := by
  intro empty
  refine full ⟨opened, ?_⟩
  rw [empty, size.1, size.2]
  decide

/-- What is left of a write still fits. -/
theorem rest_fits {before after count : Nat} {rest : Bytes} (fits : rest.length ≤ before)
    (short : count ≤ rest.length) (room : after + (rest.take count).length = before) :
    (rest.drop count).length ≤ after := by
  rw [List.length_take_of_le short] at room
  rw [List.length_drop]
  omega

section ClientSteps
variable {s t : Forward}

/-- What the head of the response stream can be while the client reads it. -/
theorem response_head {event : ForwardEvent} {rest : List ForwardEvent} (live : Live s)
    (unread : s.client.remoteWriteClosed = false) (head : s.response.queue = event :: rest) :
    (∃ chunk, event = .data chunk) ∨ event = .close 0 true := by
  have shape := live.response.shape live.client.unfailed
  rw [unread, head] at shape
  rcases shape.take with ⟨opening, _⟩ | ⟨half, _⟩
  · cases event with
    | data chunk => exact .inl ⟨chunk, rfl⟩
    | close code half =>
      have zero := live.streams.responses code half (by rw [head]; exact List.mem_cons_self)
      exact absurd zero opening.1
    | invalid => cases opening
  · exact .inr half

theorem clientInv_step {action : ClientAction} (live : Live s) (prompt : action.forced = false)
    (orderly : clientOrderly s action) (taken : stepClient s action = some t) :
    ClientInv t.client t.localIn t.localOut := by
  have inv := live.client
  cases clientStep taken with
  | read was opened =>
    exact
      { offers := by simp [opened]
        unfailed := by simp
        out := by simp
        fits := by simp
        ended := inv.ended
        eof := by simp [opened] }
  | eof was opened empty ended =>
    exact
      { offers := by simp [opened]
        unfailed := by simp
        out := by simp
        fits := by simp
        ended := inv.ended
        eof := fun _ => ⟨empty, ended⟩ }
  | @send event _ was =>
    refine
      { offers := by simp
        unfailed := by simp
        out := by simp
        fits := by simp
        ended := inv.ended
        eof := fun closed => inv.eof ?_ }
    rcases closed with closed | sends
    · rcases Bool.or_eq_true_iff.mp closed with before | half
      · exact .inl before
      · exact .inr (by rw [was, beq_iff_eq.mp half])
    · cases sends
  | @take event response was unread received =>
    have head := (Channel.receive_some received).1
    rcases response_head live unread head with ⟨chunk, rfl⟩ | rfl
    · refine
        { offers := by simp [clientHandle]
          unfailed := by simp [clientHandle]
          out := by simp [clientHandle]
          fits := fun rest writing => ?_
          ended := inv.ended
          eof := fun closed => inv.eof (closed.imp id (by simp [clientHandle])) }
      rw [show rest = chunk by simpa [clientHandle] using writing.symm]
      refine ⟨orderly chunk response.queue head, ?_⟩
      cases ended : s.localOut.ended with
      | false => exact ended
      | true =>
        have closed := inv.ended ended
        rw [unread] at closed
        cases closed
    · rw [clientHandle_half]
      exact
        { offers := by simp [was]
          unfailed := by simp [was]
          out := by simp [was]
          fits := by simp [was]
          ended := fun _ => rfl
          eof := fun closed => inv.eof closed }
  | @write count rest localOut was bounds wrote =>
    obtain ⟨_, _, _, still, room⟩ := Pipe.write_some wrote
    have fits := inv.fits rest was
    refine
      { offers := by simp
        unfailed := by simp
        out := by simp
        fits := fun other later => ?_
        ended := fun ended => inv.ended (still ▸ ended)
        eof := fun closed => inv.eof (closed.imp id (by simp)) }
    rw [show other = rest.drop count by simpa using later.symm]
    exact ⟨rest_fits fits.1 bounds.2 room, still ▸ fits.2⟩
  | writeDone was =>
    exact
      { offers := by simp
        unfailed := by simp
        out := by simp
        fits := by simp
        ended := inv.ended
        eof := fun closed => inv.eof (closed.imp id (by simp)) }
  | finish was done =>
    exact
      { offers := by simp
        unfailed := by simp
        out := fun _ => done
        fits := by simp
        ended := inv.ended
        eof := fun closed => inv.eof (closed.imp id (by simp)) }
  | leave was | close was =>
    exact
      { offers := by simp [clientReturns]
        unfailed := by simp [clientReturns]
        out := fun _ => inv.out (.inl was)
        fits := by simp [clientReturns]
        ended := inv.ended
        eof := fun closed => inv.eof (closed.imp id (by simp [clientReturns])) }
  | fails forced =>
    rw [prompt] at forced
    cases forced

end ClientSteps

section AgentSteps
variable {s t : Forward}

/-- What the head of the request stream can be while the agent reads it. -/
theorem request_head {event : ForwardEvent} {rest : List ForwardEvent} (live : Live s)
    (unread : s.agent.clientWriteClosed = false)
    (head : s.request.queue = event :: rest) : (∃ chunk, event = .data chunk) ∨ event = .close 0 true := by
  have shape := live.streams.shape
  rw [unread, head] at shape
  rcases shape.take with ⟨opening, _⟩ | ⟨half, _⟩
  · cases event with
    | data chunk => exact .inl ⟨chunk, rfl⟩
    | close code half =>
      have zero := live.streams.requests code half (by rw [head]; exact List.mem_cons_self)
      exact absurd zero opening.1
    | invalid => cases opening
  · exact .inr half

theorem agentInv_step {action : AgentAction} (live : Live s)
    (prompt : action.forced = false ∨ action = .closeFails ∧ s.response.closed = true)
    (orderly : agentOrderly s action) (taken : stepAgent s action = some t) :
    AgentInv t.agent t.targetIn t.targetOut := by
  have inv := live.agent
  cases agentStep taken with
  | read was opened =>
    exact
      { zero := by simp
        out := by simp [Agent.running]
        fits := by simp
        ended := inv.ended
        eof := by simp [opened] }
  | eof was _ empty ended =>
    exact
      { zero := by simp
        out := by simp [Agent.running]
        fits := by simp
        ended := inv.ended
        eof := fun _ => ⟨empty, ended⟩ }
  | send | writeDone =>
    exact
      { zero := by simp
        out := by simp [Agent.running]
        fits := by simp
        ended := inv.ended
        eof := inv.eof }
  | @take event request was unread received =>
    have head := (Channel.receive_some received).1
    rcases request_head live unread head with ⟨chunk, rfl⟩ | rfl
    · refine
        { zero := by simp [agentHandle]
          out := by simp [agentHandle, Agent.running]
          fits := fun rest writing => ?_
          ended := inv.ended
          eof := inv.eof }
      rw [show rest = chunk by simpa [agentHandle] using writing.symm]
      refine ⟨orderly chunk request.queue head, ?_⟩
      cases ended : s.targetIn.ended with
      | false => exact ended
      | true =>
        have closed := inv.ended ended
        rw [unread] at closed
        cases closed
    · rw [agentHandle_half]
      exact
        { zero := by simp [was]
          out := by simp [Agent.running, was]
          fits := by simp [was]
          ended := fun _ => rfl
          eof := inv.eof }
  | @write count rest targetIn was bounds wrote =>
    obtain ⟨_, _, _, still, room⟩ := Pipe.write_some wrote
    have fits := inv.fits rest was
    refine
      { zero := by simp
        out := by simp [Agent.running]
        fits := fun other later => ?_
        ended := fun ended => inv.ended (still ▸ ended)
        eof := inv.eof }
    rw [show other = rest.drop count by simpa using later.symm]
    exact ⟨rest_fits fits.1 bounds.2 room, still ▸ fits.2⟩
  | finish was done =>
    exact
      { zero := by simp [agentBreaks]
        out := fun _ => done
        fits := by simp [agentBreaks]
        ended := inv.ended
        eof := inv.eof }
  | closeFails was | close was =>
    exact
      { zero := by simp [agentEnds]
        out := fun _ => inv.out (by simp [Agent.running, was])
        fits := by simp [agentEnds]
        ended := inv.ended
        eof := inv.eof }
  | breaks stops => rcases stops with rfl | rfl | rfl <;> simp [AgentAction.forced] at prompt
  | shutdownFails | writeFails | sendFails => simp [AgentAction.forced] at prompt

end AgentSteps

section StreamSteps
variable {s t : Forward}

/-- A loop that starts a send does so with room, or while the other loop is not waiting. -/
theorem apart_of_orderly {mine other : Channel ForwardEvent} {waits : Bool}
    (orderly : mine.Room ∨ ¬(waits = true ∧ ¬other.Room)) (waiting : waits = true) :
    mine.Room ∨ other.Room := by
  rcases orderly with room | free
  · exact .inl room
  · exact .inr (not_not.mp fun full => free ⟨waiting, full⟩)

/-- A request stream with room is that of an agent that has not ended. -/
theorem open_runs (inv : StreamInv s.client s.agent s.request s.response) (room : s.request.Room) :
    s.agent.pc ≠ .ended := by
  intro ended
  have shut := inv.requestOpen.mpr ended
  rw [room.1] at shut
  cases shut

theorem streams_client {action : ClientAction} (live : Live s) (prompt : action.forced = false)
    (orderly : clientOrderly s action) (taken : stepClient s action = some t) :
    StreamInv t.client t.agent t.request t.response := by
  have inv := live.streams
  have opened : s.response.closed = true → s.client.pc ≠ .returned true → False :=
    fun shut running => running (inv.responseOpen shut)
  cases clientStep taken with
  | read was | eof was =>
    exact
      { inv with
        responseOpen := fun shut => (opened shut (by simp [was])).elim
        apart := fun _ waiting => apart_of_orderly orderly waiting }
  | @send event request was sent =>
    obtain ⟨room, queue, reserved, closed, capacity⟩ := Channel.trySend_some sent
    obtain ⟨unclosed, kind⟩ := live.client.offers event was
    have running : s.agent.pc ≠ .ended := open_runs inv room
    refine
      { inv with
        shape := ?_
        requests := ?_
        requestOpen := by rw [closed]; exact inv.requestOpen
        emptied := fun ended => absurd ended running
        responseOpen := fun shut => (opened shut (by simp [was])).elim
        requestSize := by rw [reserved, capacity]; exact inv.requestSize
        apart := by simp [Client.sends] }
    · have shape := inv.shape
      rw [unclosed] at shape
      rw [queue]
      rcases kind with rfl | ⟨chunk, rfl⟩
      · simpa using shape.push_half
      · have flag : (s.client.localWriteClosed || (Frame.data chunk : ForwardEvent) == .close 0 true) =
            false := by
          rw [unclosed]
          rfl
        show Shape (s.client.localWriteClosed || _ == _) _ _
        rw [flag]
        exact shape.push_opening trivial
    · rw [queue]
      refine inv.requests.push fun code half same => ?_
      rcases kind with rfl | ⟨chunk, rfl⟩
      · cases same; rfl
      · cases same
  | @take event response was unread received =>
    obtain ⟨head, reserved, closed, capacity⟩ := Channel.receive_some received
    have responses : Clean response.queue := by
      have before := inv.responses
      rw [head] at before
      exact before.tail
    have size : response.reserved = 0 ∧ response.capacity = 32 := by
      rw [reserved, capacity]
      exact inv.responseSize
    have shut : response.closed = true → False := fun shut =>
      opened (closed ▸ shut) (by simp [was])
    rcases response_head live unread head with ⟨chunk, rfl⟩ | rfl
    · exact
        { inv with
          responses := responses
          responseOpen := fun closed => (shut closed).elim
          responseSize := size
          apart := by simp [clientHandle, Client.sends] }
    · rw [clientHandle_half]
      exact
        { inv with
          responses := responses
          responseOpen := fun closed => (shut closed).elim
          responseSize := size
          apart := by simp [Client.sends, was] }
  | write was | writeDone was | finish was =>
    exact
      { inv with
        responseOpen := fun shut => (opened shut (by simp [was])).elim
        apart := by simp [Client.sends] }
  | leave =>
    exact
      { inv with
        responses := fun _ _ member => absurd member List.not_mem_nil
        responseOpen := fun _ => rfl
        apart := by simp [clientReturns, Client.sends] }
  | @close request was sent =>
    obtain ⟨room, queue, reserved, closed, capacity⟩ := Channel.trySend_some sent
    have running : s.agent.pc ≠ .ended := open_runs inv room
    have done := Bool.and_eq_true_iff.mp (live.client.out (.inl was))
    have size : request.reserved = 0 ∧ request.capacity = 32 := by
      rw [reserved, capacity]
      exact inv.requestSize
    refine
      { shape := ?_
        requests := ?_
        responses := fun _ _ member => absurd member List.not_mem_nil
        requestOpen := by
          show request.closed = true ↔ _
          rw [closed]
          exact inv.requestOpen
        emptied := fun ended => absurd ended running
        responseOpen := fun _ => rfl
        requestSize := size
        responseSize := inv.responseSize
        apart := by simp [clientReturns, Client.sends] }
    · have shape := inv.shape
      show Shape s.client.localWriteClosed s.agent.clientWriteClosed request.queue
      rw [done.1] at shape ⊢
      rw [queue]
      exact shape.push_silent rfl
    · show Clean request.queue
      rw [queue]
      refine inv.requests.push fun code half same => ?_
      cases same
      rfl
  | fails forced =>
    rw [prompt] at forced
    cases forced

/-- The agent's task ends with both halves closed. -/
theorem streams_end {response : Channel ForwardEvent} (live : Live s) {code : Nat}
    (finishing : s.agent.pc = .finishing code) (responses : Clean response.queue)
    (closed : response.closed = s.response.closed)
    (size : response.reserved = 0 ∧ response.capacity = 32) :
    StreamInv s.client { s.agent with pc := .ended } s.request.close response where
  shape := by
    have inv := live.streams
    have done := Bool.and_eq_true_iff.mp (live.agent.out (by simp [Agent.running, finishing]))
    have shape := inv.shape
    show Shape s.client.localWriteClosed s.agent.clientWriteClosed []
    rw [done.1] at shape ⊢
    exact shape.dropped
  requests _ _ member := absurd member List.not_mem_nil
  responses := responses
  requestOpen := by simp
  emptied _ := rfl
  responseOpen shut := live.streams.responseOpen (closed ▸ shut)
  requestSize := live.streams.requestSize
  responseSize := size
  apart := by simp [Agent.sends]

theorem streams_agent {action : AgentAction} (live : Live s)
    (prompt : action.forced = false ∨ action = .closeFails ∧ s.response.closed = true)
    (orderly : agentOrderly s action) (taken : stepAgent s action = some t) :
    StreamInv t.client t.agent t.request t.response := by
  have inv := live.streams
  cases agentStep taken with
  | closeFails was =>
    have ended := streams_end live was inv.responses rfl inv.responseSize
    exact ended
  | @close code response was sent =>
    obtain ⟨_, queue, reserved, closed, capacity⟩ := Channel.trySend_some sent
    have responses : Clean response.queue := by
      rw [queue]
      refine inv.responses.push fun other half same => ?_
      cases same
      exact live.agent.zero code was
    have size : response.reserved = 0 ∧ response.capacity = 32 := by
      rw [reserved, capacity]
      exact inv.responseSize
    have ended := streams_end live was responses closed size
    exact ended
  | read was | eof was =>
    exact
      { inv with
        requestOpen := inv.requestOpen.trans (by simp [was])
        emptied := by simp
        apart := fun waiting _ => (apart_of_orderly orderly waiting).symm }
  | @send event response was sent =>
    obtain ⟨_, queue, reserved, closed, capacity⟩ := Channel.trySend_some sent
    refine
      { inv with
        responses := ?_
        requestOpen := inv.requestOpen.trans (by simp [was])
        emptied := by simp
        responseOpen := fun shut => inv.responseOpen (closed ▸ shut)
        responseSize := by
          rw [reserved, capacity]
          exact inv.responseSize
        apart := by simp [Agent.sends] }
    rw [queue]
    refine inv.responses.push fun code half same => ?_
    rcases live.response.sends event was with ⟨rfl, _⟩ | ⟨⟨chunk, rfl⟩, _⟩
    · cases same
      rfl
    · cases same
  | @take event request was unread received =>
    obtain ⟨head, reserved, closed, capacity⟩ := Channel.receive_some received
    have running : s.agent.pc ≠ .ended := by simp [was]
    have requests : Clean request.queue := by
      have before := inv.requests
      rw [head] at before
      exact before.tail
    have opened : request.closed = true ↔ s.agent.pc = .ended := by
      rw [closed]
      exact inv.requestOpen
    have size : request.reserved = 0 ∧ request.capacity = 32 := by
      rw [reserved, capacity]
      exact inv.requestSize
    have shape := inv.shape
    rw [unread, head] at shape
    rcases request_head live unread head with ⟨chunk, rfl⟩ | rfl
    · rcases shape.take with ⟨_, later⟩ | ⟨half, _⟩
      · exact
          { inv with
            shape := by
              show Shape s.client.localWriteClosed s.agent.clientWriteClosed request.queue
              rw [unread]
              exact later
            requests := requests
            requestOpen := opened.trans (by simp [agentHandle, was])
            emptied := by simp [agentHandle]
            requestSize := size
            apart := by simp [agentHandle, Agent.sends] }
      · cases half
    · rcases shape.take with ⟨opening, _⟩ | ⟨_, sent, later⟩
      · exact absurd rfl opening.1
      · rw [agentHandle_half]
        exact
          { inv with
            shape := by
              show Shape s.client.localWriteClosed true request.queue
              rw [sent]
              exact later
            requests := requests
            requestOpen := opened
            emptied := fun ended => absurd ended running
            requestSize := size
            apart := by simp [Agent.sends, was] }
  | write was | writeDone was =>
    exact
      { inv with
        requestOpen := inv.requestOpen.trans (by simp [was])
        emptied := by simp
        apart := by simp [Agent.sends] }
  | finish was =>
    exact
      { inv with
        requestOpen := inv.requestOpen.trans (by simp [agentBreaks, was])
        emptied := by simp [agentBreaks]
        apart := by simp [agentBreaks, Agent.sends] }
  | breaks stops => rcases stops with rfl | rfl | rfl <;> simp [AgentAction.forced] at prompt
  | shutdownFails | writeFails | sendFails => simp [AgentAction.forced] at prompt

theorem live_peer {action : PeerAction} (live : Live s) (taken : stepPeer s action = some t) :
    Live t := by
  have inv := inv_peer live.toInv taken
  have client := live.client
  have agent := live.agent
  cases action with
  | localWrites bytes =>
    obtain ⟨localIn, wrote, rfl⟩ := Option.map_eq_some_iff.mp taken
    obtain ⟨_, unclosed, _⟩ := Pipe.write_some wrote
    refine ⟨inv, { client with eof := fun closed => ?_ }, agent, live.streams⟩
    have ended := (client.eof closed).2
    rw [unclosed] at ended
    cases ended
  | targetWrites bytes =>
    obtain ⟨targetOut, wrote, rfl⟩ := Option.map_eq_some_iff.mp taken
    obtain ⟨_, unclosed, _⟩ := Pipe.write_some wrote
    refine ⟨inv, client, { agent with eof := fun closed => ?_ }, live.streams⟩
    have ended := (agent.eof closed).2
    rw [unclosed] at ended
    cases ended
  | localEnds =>
    cases taken
    exact ⟨inv, { client with eof := fun closed => ⟨(client.eof closed).1, rfl⟩ }, agent, live.streams⟩
  | targetEnds =>
    cases taken
    exact ⟨inv, client, { agent with eof := fun closed => ⟨(agent.eof closed).1, rfl⟩ }, live.streams⟩
  | localReads count =>
    cases taken
    refine ⟨inv, { client with fits := fun rest writing => ?_ }, agent, live.streams⟩
    obtain ⟨fits, unclosed⟩ := client.fits rest writing
    exact ⟨Nat.le_trans fits (Pipe.read_room count), unclosed⟩
  | targetReads count =>
    cases taken
    refine ⟨inv, client, { agent with fits := fun rest writing => ?_ }, live.streams⟩
    obtain ⟨fits, unclosed⟩ := agent.fits rest writing
    exact ⟨Nat.le_trans fits (Pipe.read_room count), unclosed⟩

theorem live_step {a : Action} (live : Live s) (orderly : Orderly s a) (taken : step s a = some t) :
    Live t := by
  have inv := inv_step live.toInv taken
  cases a with
  | peer action => exact live_peer live taken
  | client action =>
    obtain ⟨agent, targetIn, targetOut⟩ := client_frame taken
    refine ⟨inv, clientInv_step live orderly.1 orderly.2 taken, ?_,
      streams_client live orderly.1 orderly.2 taken⟩
    rw [agent, targetIn, targetOut]
    exact live.agent
  | agent action =>
    obtain ⟨client, localIn, localOut⟩ := agent_frame taken
    refine ⟨inv, ?_, agentInv_step live orderly.1 orderly.2 taken,
      streams_agent live orderly.1 orderly.2 taken⟩
    rw [client, localIn, localOut]
    exact live.client

end StreamSteps

theorem initial_live (capacities : Capacities) : Live (initial capacities) where
  toInv := initial_inv capacities
  client :=
    { offers := by simp [initial]
      unfailed := by simp [initial]
      out := by simp [initial]
      fits := by simp [initial]
      ended := by simp [initial, Pipe.empty]
      eof := by simp [initial] }
  agent :=
    { zero := by simp [initial]
      out := by simp [initial, Agent.running]
      fits := by simp [initial]
      ended := by simp [initial, Pipe.empty]
      eof := by simp [initial] }
  streams :=
    { shape := .empty
      requests := by simp [initial, Clean]
      responses := by simp [initial, Clean]
      requestOpen := by simp [initial]
      emptied := fun _ => rfl
      responseOpen := by simp [initial]
      requestSize := ⟨rfl, rfl⟩
      responseSize := ⟨rfl, rfl⟩
      apart := by simp [initial, Client.sends] }

end Pbox.Forward.Backpressure
