import Pbox.Forward.Steps

/-! What a forwarded connection has delivered when `forward_tcp` returns. Towards the client the
half close of the agent comes after all data, so its arrival proves delivery. Towards the target
nothing comes back: the client returns while its data may still be on the way. -/

namespace Pbox.Forward.Delivery
open Pbox.Lib.Channel Pbox.Lib.HalfClose Pbox.Lib.Pipe Pbox.Lib.Transition Pbox.Forward.Model
  Pbox.Forward.Steps

/-- Where every byte read from the local socket is. -/
structure RequestInv (client : Client) (agent : Agent) (queue : List ForwardEvent)
    (dropped localRead targetWritten : Bytes) : Prop where
  total : client.pc ≠ .returned false →
    localRead = targetWritten ++ dropped ++ agent.unwritten ++ payload queue ++ client.unsent
  intact : agent.running = true → dropped = []

/-- Where every byte read from the target is, and how the agent's half close bounds it. -/
structure ResponseInv (client : Client) (agent : Agent) (requests queue : List ForwardEvent)
    (announced : Bool) (targetRead localWritten : Bytes) : Prop where
  shape : client.pc ≠ .returned false → Shape announced client.remoteWriteClosed queue
  total : client.pc ≠ .returned false → announced = true ∨ agent.pc ≠ .ended →
    targetRead = localWritten ++ client.unwritten ++ payload queue ++ agent.unsent
  sends : ∀ event, agent.pc = .sending event →
    (event = .close 0 true ∧ agent.targetWriteClosed = true) ∨
      (∃ chunk, event = .data chunk) ∧ agent.targetWriteClosed = false
  eof : agent.targetWriteClosed = true →
    announced = true ∨ agent.pc = .sending (.close 0 true) ∨ agent.pc = .ended
  after : announced = true → agent.targetWriteClosed = true ∧ ∀ event, agent.pc ≠ .sending event
  code : agent.pc = .finishing 0 → announced = true
  left : client.pc = .finishing ∨ client.pc = .returned true →
    client.localWriteClosed = true ∧ client.remoteWriteClosed = true
  offers : ∀ event, client.pc = .sending event → event ≠ .close 0 false
  final : Frame.close 0 false ∈ requests → client.pc = .returned true

structure Inv (s : Forward) : Prop where
  request : RequestInv s.client s.agent s.request.queue s.dropped s.localRead s.targetWritten
  response : ResponseInv s.client s.agent s.request.queue s.response.queue s.announced s.targetRead
    s.localWritten

section Request
variable {client : Client} {agent : Agent} {queue : List ForwardEvent}
  {dropped localRead targetWritten : Bytes}

/-- A step after which the same bytes are in the same places. -/
theorem RequestInv.move {client' : Client} {agent' : Agent} {queue' : List ForwardEvent}
    (inv : RequestInv client agent queue dropped localRead targetWritten)
    (alive : client'.pc ≠ .returned false → client.pc ≠ .returned false)
    (running : agent'.running = true → agent.running = true)
    (same : client'.pc ≠ .returned false →
      agent'.unwritten ++ payload queue' ++ client'.unsent =
        agent.unwritten ++ payload queue ++ client.unsent) :
    RequestInv client' agent' queue' dropped localRead targetWritten where
  total kept := by
    have before := inv.total (alive kept)
    have moved := same kept
    simp only [List.append_assoc] at before moved ⊢
    rw [before, moved]
  intact still := inv.intact (running still)

theorem RequestInv.read {client' : Client} {chunk : Bytes}
    (inv : RequestInv client agent queue dropped localRead targetWritten)
    (was : client.pc = .select) (now : client'.pc = .sending (.data chunk)) :
    RequestInv client' agent queue dropped (localRead ++ chunk) targetWritten where
  total _ := by
    have before := inv.total (by simp [was])
    simp only [Client.unsent, was, now, chunk_data, List.append_nil] at before ⊢
    rw [before]
  intact := inv.intact

theorem RequestInv.write {agent' : Agent} {rest : Bytes} {count : Nat}
    (inv : RequestInv client agent queue dropped localRead targetWritten)
    (was : agent.pc = .writing rest) (now : agent'.pc = .writing (rest.drop count)) :
    RequestInv client agent' queue dropped localRead (targetWritten ++ rest.take count) where
  total kept := by
    have before := inv.total kept
    have whole := inv.intact (by simp [Agent.running, was])
    simp only [Agent.unwritten, was, now, whole, List.append_nil] at before ⊢
    conv_lhs => rw [before, ← List.take_append_drop count rest]
    simp only [List.append_assoc]
  intact _ := inv.intact (by simp [Agent.running, was])

/-- The agent gives up a write. -/
theorem RequestInv.abandon {agent' : Agent} {rest : Bytes}
    (inv : RequestInv client agent queue dropped localRead targetWritten)
    (was : agent.pc = .writing rest) (idle : agent'.unwritten = []) (stopped : agent'.running = false) :
    RequestInv client agent' queue (dropped ++ rest) localRead targetWritten where
  total kept := by
    have before := inv.total kept
    simp only [Agent.unwritten, was] at before
    rw [before, idle]
    simp only [List.append_assoc, List.append_nil]
  intact still := by
    rw [stopped] at still
    cases still

/-- The agent's task ends with requests in the stream. -/
theorem RequestInv.stop {agent' : Agent}
    (inv : RequestInv client agent queue dropped localRead targetWritten)
    (was : agent.unwritten = []) (idle : agent'.unwritten = []) (stopped : agent'.running = false) :
    RequestInv client agent' [] (dropped ++ payload queue) localRead targetWritten where
  total kept := by
    have before := inv.total kept
    rw [was] at before
    rw [before, idle]
    simp only [List.append_assoc, payload_nil, List.append_nil]
  intact still := by
    rw [stopped] at still
    cases still

end Request

section Response
variable {client : Client} {agent : Agent} {requests queue : List ForwardEvent} {announced : Bool}
  {targetRead localWritten : Bytes}

/-- The client moves without touching the response stream or the local socket. -/
theorem ResponseInv.clientMove {client' : Client} {requests' : List ForwardEvent}
    (inv : ResponseInv client agent requests queue announced targetRead localWritten)
    (alive : client.pc ≠ .returned false) (flag : client'.remoteWriteClosed = client.remoteWriteClosed)
    (same : client'.unwritten = client.unwritten)
    (left : client'.pc = .finishing ∨ client'.pc = .returned true →
      client'.localWriteClosed = true ∧ client'.remoteWriteClosed = true)
    (offers : ∀ event, client'.pc = .sending event → event ≠ .close 0 false)
    (final : Frame.close 0 false ∈ requests' → client'.pc = .returned true) :
    ResponseInv client' agent requests' queue announced targetRead localWritten where
  shape _ := flag ▸ inv.shape alive
  total _ unended := by rw [same, inv.total alive unended]
  sends := inv.sends
  eof := inv.eof
  after := inv.after
  code := inv.code
  left := left
  offers := offers
  final := final

/-- The client fails; nothing is promised of it any more. -/
theorem ResponseInv.clientFail {client' : Client}
    (inv : ResponseInv client agent requests queue announced targetRead localWritten)
    (active : client.pc ≠ .returned true) (now : client'.pc = .returned false)
    (queue' : List ForwardEvent) :
    ResponseInv client' agent requests queue' announced targetRead localWritten where
  shape kept := absurd now kept
  total kept := absurd now kept
  sends := inv.sends
  eof := inv.eof
  after := inv.after
  code := inv.code
  left := by simp [now]
  offers := by simp [now]
  final member := absurd (inv.final member) active

/-- The client leaves with both halves closed. -/
theorem ResponseInv.clientLeave {client' : Client} {requests' : List ForwardEvent}
    (inv : ResponseInv client agent requests queue announced targetRead localWritten)
    (was : client.pc = .finishing) (now : client'.pc = .returned true)
    (localFlag : client'.localWriteClosed = client.localWriteClosed)
    (flag : client'.remoteWriteClosed = client.remoteWriteClosed) :
    ResponseInv client' agent requests' [] announced targetRead localWritten where
  shape _ := by
    have shape := inv.shape (by simp [was])
    rw [flag]
    rw [(inv.left (.inl was)).2] at shape ⊢
    exact shape.dropped
  total _ unended := by
    have shape := inv.shape (by simp [was])
    rw [(inv.left (.inl was)).2] at shape
    have total := inv.total (by simp [was]) unended
    rw [shape.sent_of_taken.2] at total
    rw [total]
    simp only [Client.unwritten, was, now, payload_nil]
  sends := inv.sends
  eof := inv.eof
  after := inv.after
  code := inv.code
  left _ := by rw [localFlag, flag]; exact inv.left (.inl was)
  offers := by simp [now]
  final _ := now

theorem ResponseInv.takeData {client' : Client} {chunk : Bytes} {rest : List ForwardEvent}
    (inv : ResponseInv client agent requests (.data chunk :: rest) announced targetRead localWritten)
    (was : client.pc = .select) (now : client'.pc = .writing chunk)
    (flag : client'.remoteWriteClosed = client.remoteWriteClosed)
    (unread : client.remoteWriteClosed = false) :
    ResponseInv client' agent requests rest announced targetRead localWritten where
  shape _ := by
    have shape := inv.shape (by simp [was])
    rw [flag, unread]
    rw [unread] at shape
    rcases shape.take with ⟨_, later⟩ | ⟨half, _⟩
    · exact later
    · cases half
  total _ unended := by
    rw [inv.total (by simp [was]) unended]
    simp only [Client.unwritten, was, now, payload_cons, chunk_data, List.append_nil, List.append_assoc]
  sends := inv.sends
  eof := inv.eof
  after := inv.after
  code := inv.code
  left := by simp [now]
  offers := by simp [now]
  final member := by
    have left := inv.final member
    rw [was] at left
    cases left

theorem ResponseInv.takeHalf {client' : Client} {rest : List ForwardEvent}
    (inv : ResponseInv client agent requests (.close 0 true :: rest) announced targetRead localWritten)
    (was : client.pc = .select) (now : client'.pc = .select) (flag : client'.remoteWriteClosed = true)
    (unread : client.remoteWriteClosed = false) :
    ResponseInv client' agent requests rest announced targetRead localWritten where
  shape _ := by
    have shape := inv.shape (by simp [was])
    rw [unread] at shape
    rw [flag]
    rcases shape.take with ⟨opening, _⟩ | ⟨_, sent, later⟩
    · exact absurd opening.2 (by simp)
    · rw [sent]
      exact later
  total _ unended := by
    rw [inv.total (by simp [was]) unended]
    simp only [Client.unwritten, was, now, payload_cons, chunk_close, List.nil_append]
  sends := inv.sends
  eof := inv.eof
  after := inv.after
  code := inv.code
  left := by simp [now]
  offers := by simp [now]
  final member := by
    have left := inv.final member
    rw [was] at left
    cases left

/-- A full close without an error never reaches a client that still reads. -/
theorem ResponseInv.no_final {rest : List ForwardEvent}
    (inv : ResponseInv client agent requests (.close 0 false :: rest) announced targetRead localWritten)
    (was : client.pc = .select) (unread : client.remoteWriteClosed = false) : False := by
  have shape := inv.shape (by simp [was])
  rw [unread] at shape
  rcases shape.take with ⟨opening, _⟩ | ⟨half, _⟩
  · exact opening.1 rfl
  · cases half

theorem ResponseInv.clientWrite {client' : Client} {rest : Bytes} {count : Nat}
    (inv : ResponseInv client agent requests queue announced targetRead localWritten)
    (was : client.pc = .writing rest) (now : client'.pc = .writing (rest.drop count))
    (flag : client'.remoteWriteClosed = client.remoteWriteClosed) :
    ResponseInv client' agent requests queue announced targetRead (localWritten ++ rest.take count) where
  shape _ := flag ▸ inv.shape (by simp [was])
  total _ unended := by
    have before := inv.total (by simp [was]) unended
    simp only [Client.unwritten, was, now] at before ⊢
    conv_lhs => rw [before, ← List.take_append_drop count rest]
    simp only [List.append_assoc]
  sends := inv.sends
  eof := inv.eof
  after := inv.after
  code := inv.code
  left := by simp [now]
  offers := by simp [now]
  final member := by
    have left := inv.final member
    rw [was] at left
    cases left

/-- The agent moves without touching the response stream or the target's output. -/
theorem ResponseInv.agentMove {agent' : Agent} {requests' : List ForwardEvent}
    (inv : ResponseInv client agent requests queue announced targetRead localWritten)
    (alive : agent.pc ≠ .ended) (quiet : agent.unsent = []) (idle : ∀ event, agent.pc ≠ .sending event)
    (idle' : ∀ event, agent'.pc ≠ .sending event)
    (flag : agent'.targetWriteClosed = agent.targetWriteClosed)
    (code : agent'.pc = .finishing 0 → announced = true)
    (final : Frame.close 0 false ∈ requests' → Frame.close 0 false ∈ requests) :
    ResponseInv client agent' requests' queue announced targetRead localWritten where
  shape := inv.shape
  total kept _ := by
    have none : agent'.unsent = [] := by
      unfold Agent.unsent
      split
      next event sending => exact absurd sending (idle' event)
      next => rfl
    rw [inv.total kept (.inr alive), quiet, none]
  sends event sending := absurd sending (idle' event)
  eof closed := by
    rcases inv.eof (flag ▸ closed) with sent | sending | ended
    · exact .inl sent
    · exact absurd sending (idle _)
    · exact absurd ended alive
  after sent := ⟨flag ▸ (inv.after sent).1, idle'⟩
  code := code
  left := inv.left
  offers := inv.offers
  final member := inv.final (final member)

theorem ResponseInv.agentRead {agent' : Agent} {chunk : Bytes}
    (inv : ResponseInv client agent requests queue announced targetRead localWritten)
    (was : agent.pc = .select) (unread : agent.targetWriteClosed = false)
    (now : agent'.pc = .sending (.data chunk)) (flag : agent'.targetWriteClosed = false) :
    ResponseInv client agent' requests queue announced (targetRead ++ chunk) localWritten where
  shape := inv.shape
  total kept _ := by
    rw [inv.total kept (.inr (by simp [was]))]
    simp only [Agent.unsent, was, now, chunk_data, List.append_nil]
  sends event sending := by
    rw [now, AgentPc.sending.injEq] at sending
    exact .inr ⟨⟨chunk, sending.symm⟩, flag⟩
  eof closed := by
    rw [flag] at closed
    cases closed
  after sent := by
    have closed := (inv.after sent).1
    rw [unread] at closed
    cases closed
  code finishing := by
    rw [now] at finishing
    cases finishing
  left := inv.left
  offers := inv.offers
  final := inv.final

theorem ResponseInv.agentEof {agent' : Agent}
    (inv : ResponseInv client agent requests queue announced targetRead localWritten)
    (was : agent.pc = .select) (unread : agent.targetWriteClosed = false)
    (now : agent'.pc = .sending (.close 0 true)) (flag : agent'.targetWriteClosed = true) :
    ResponseInv client agent' requests queue announced targetRead localWritten where
  shape := inv.shape
  total kept _ := by
    rw [inv.total kept (.inr (by simp [was]))]
    simp only [Agent.unsent, was, now, chunk_close]
  sends event sending := by
    rw [now, AgentPc.sending.injEq] at sending
    exact .inl ⟨sending.symm, flag⟩
  eof _ := .inr (.inl now)
  after sent := by
    have closed := (inv.after sent).1
    rw [unread] at closed
    cases closed
  code finishing := by
    rw [now] at finishing
    cases finishing
  left := inv.left
  offers := inv.offers
  final := inv.final

/-- An event of the agent enters the response stream. -/
theorem ResponseInv.agentSend (agent' : Agent) {event : ForwardEvent}
    (inv : ResponseInv client agent requests queue announced targetRead localWritten)
    (was : agent.pc = .sending event) (now : agent'.pc = .select)
    (flag : agent'.targetWriteClosed = agent.targetWriteClosed) :
    ResponseInv client agent' requests (queue ++ [event]) (announced || event == .close 0 true)
      targetRead localWritten := by
  have unsent : announced = false := by
    cases sent : announced with
    | false => rfl
    | true => exact absurd was ((inv.after sent).2 event)
  subst unsent
  refine ⟨fun kept => ?_, fun kept _ => ?_, by simp [now], fun closed => ?_, fun sent => ?_,
    by simp [now], inv.left, inv.offers, inv.final⟩
  · rcases inv.sends event was with ⟨rfl, _⟩ | ⟨⟨chunk, rfl⟩, _⟩
    · exact (inv.shape kept).push_half
    · exact (inv.shape kept).push_opening trivial
  · rw [inv.total kept (.inr (by simp [was]))]
    simp only [Agent.unsent, was, now, payload_append, payload_cons, payload_nil, List.append_nil,
      List.append_assoc]
  · rcases inv.sends event was with ⟨rfl, _⟩ | ⟨_, unended⟩
    · exact .inl rfl
    · rw [flag, unended] at closed
      cases closed
  · rcases inv.sends event was with ⟨rfl, closed⟩ | ⟨⟨chunk, rfl⟩, _⟩
    · exact ⟨flag ▸ closed, by simp [now]⟩
    · cases sent

/-- The agent's task ends, after a close or without one. -/
theorem ResponseInv.agentEnd {agent' : Agent} {queue' : List ForwardEvent}
    (inv : ResponseInv client agent requests queue announced targetRead localWritten)
    (alive : agent.pc ≠ .ended) (now : agent'.pc = .ended)
    (flag : agent'.targetWriteClosed = agent.targetWriteClosed)
    (silent : payload queue' = payload queue)
    (shape : client.pc ≠ .returned false → Shape announced client.remoteWriteClosed queue') :
    ResponseInv client agent' [] queue' announced targetRead localWritten where
  shape := shape
  total kept unended := by
    have sent : announced = true := unended.resolve_right fun other => other now
    have quiet : agent.unsent = [] := by
      unfold Agent.unsent
      split
      next event sending => exact absurd sending ((inv.after sent).2 event)
      next => rfl
    rw [inv.total kept (.inr alive), silent, quiet]
    simp only [Agent.unsent, now]
  sends := by simp [now]
  eof _ := .inr (.inr now)
  after sent := ⟨flag ▸ (inv.after sent).1, by simp [now]⟩
  code := by simp [now]
  left := inv.left
  offers := inv.offers
  final member := absurd member List.not_mem_nil

end Response

section Steps
variable {s t : Forward}

/-- `forward_tcp` returns an error. -/
theorem inv_fail (inv : Inv s) (active : s.client.pc ≠ .returned true) :
    Inv (clientReturns s false) where
  request := inv.request.move (fun kept => absurd rfl kept) id (fun kept => absurd rfl kept)
  response := inv.response.clientFail active rfl _

/-- The agent stops reading requests, with a close code that it will send. -/
theorem inv_break (inv : Inv s) {code : Nat} (was : s.agent.pc = .select)
    (known : code = 0 → s.announced = true) : Inv (agentBreaks s code) where
  request := inv.request.move id (by simp [agentBreaks, Agent.running])
    (fun _ => by simp [agentBreaks, Agent.unwritten, was])
  response := inv.response.agentMove (by simp [was]) (by simp [Agent.unsent, was]) (by simp [was])
    (by simp [agentBreaks]) rfl
    (fun finishing => known (by simpa [agentBreaks] using finishing)) id

theorem inv_handleClient {response : Channel ForwardEvent} {event : ForwardEvent} (inv : Inv s)
    (was : s.client.pc = .select) (unread : s.client.remoteWriteClosed = false)
    (head : s.response.queue = event :: response.queue) : Inv (clientHandle s response event) := by
  have active : s.client.pc ≠ .returned true := by simp [was]
  obtain ⟨request, answer⟩ := inv
  have failed : ∀ localOut,
      Inv (clientReturns { s with response := response, localOut := localOut } false) := fun localOut =>
      ⟨request.move (fun kept => absurd rfl kept) id (fun kept => absurd rfl kept),
        answer.clientFail active rfl _⟩
  rw [head] at answer
  cases event with
  | data chunk =>
    exact
      { request := request.move (fun _ => by simp [was]) id
          (fun _ => by simp [clientHandle, Client.unsent, was])
        response := answer.takeData was rfl rfl unread }
  | close code half =>
    by_cases zero : code = 0
    · subst zero
      cases half with
      | true =>
        rw [clientHandle_half]
        exact
          { request := request.move id id (fun _ => by simp [Client.unsent, was])
            response := answer.takeHalf was was rfl unread }
      | false => exact (answer.no_final was unread).elim
    · rw [clientHandle_failed s response half zero]
      exact failed _
  | invalid => exact failed s.localOut

theorem inv_client {action : ClientAction} (inv : Inv s) (taken : stepClient s action = some t) :
    Inv t := by
  cases clientStep taken with
  | read was =>
    exact
      { request := inv.request.read was rfl
        response := inv.response.clientMove (by simp [was]) rfl (by simp [Client.unwritten, was])
          (by simp) (by simp) (fun member => absurd (inv.response.final member) (by simp [was])) }
  | eof was =>
    exact
      { request := inv.request.move (fun _ => by simp [was]) id (fun _ => by simp [Client.unsent, was])
        response := inv.response.clientMove (by simp [was]) rfl (by simp [Client.unwritten, was])
          (by simp) (by simp) (fun member => absurd (inv.response.final member) (by simp [was])) }
  | @send event request was sent =>
    obtain ⟨_, queue, _⟩ := Channel.trySend_some sent
    exact
      { request := inv.request.move (fun _ => by simp [was]) id
          (fun _ => by simp [Client.unsent, was, queue])
        response := inv.response.clientMove (by simp [was]) rfl (by simp [Client.unwritten, was])
          (by simp) (by simp) (fun member => by
            rw [queue] at member
            rcases List.mem_append.mp member with earlier | last
            · exact absurd (inv.response.final earlier) (by simp [was])
            · exact absurd (List.mem_singleton.mp last).symm (inv.response.offers event was)) }
  | take was unread received =>
    exact inv_handleClient inv was unread (Channel.receive_some received).1
  | write was =>
    exact
      { request := inv.request.move (fun _ => by simp [was]) id (fun _ => by simp [Client.unsent, was])
        response := inv.response.clientWrite was rfl rfl }
  | writeDone was =>
    exact
      { request := inv.request.move (fun _ => by simp [was]) id (fun _ => by simp [Client.unsent, was])
        response := inv.response.clientMove (by simp [was]) rfl (by simp [Client.unwritten, was])
          (by simp) (by simp) (fun member => absurd (inv.response.final member) (by simp [was])) }
  | finish was done =>
    have closed := Bool.and_eq_true_iff.mp done
    exact
      { request := inv.request.move (fun _ => by simp [was]) id (fun _ => by simp [Client.unsent, was])
        response := inv.response.clientMove (by simp [was]) rfl (by simp [Client.unwritten, was])
          (fun _ => closed) (by simp)
          (fun member => absurd (inv.response.final member) (by simp [was])) }
  | leave was =>
    exact
      { request := inv.request.move (fun _ => by simp [was]) id
          (fun _ => by simp [clientReturns, Client.unsent, was])
        response := inv.response.clientLeave was rfl rfl rfl }
  | close was sent =>
    obtain ⟨_, queue, _⟩ := Channel.trySend_some sent
    exact
      { request := inv.request.move (fun _ => by simp [was]) id
          (fun _ => by simp [clientReturns, Client.unsent, was, queue])
        response := inv.response.clientLeave was rfl rfl rfl }
  | fails _ active => exact inv_fail inv active

theorem inv_handleAgent {request : Channel ForwardEvent} {event : ForwardEvent} (inv : Inv s)
    (was : s.agent.pc = .select) (head : s.request.queue = event :: request.queue) :
    Inv (agentHandle s request event) := by
  obtain ⟨asked, answer⟩ := inv
  rw [head] at asked answer
  have later : Frame.close 0 false ∈ request.queue →
      Frame.close 0 false ∈ event :: request.queue := List.mem_cons_of_mem _
  have broken : ∀ code, event.chunk = [] → (code = 0 → s.announced = true) →
      Inv (agentBreaks { s with request := request } code) := fun code silent known =>
    { request := asked.move id (by simp [agentBreaks, Agent.running])
        (fun _ => by simp [agentBreaks, Agent.unwritten, was, silent])
      response := answer.agentMove (by simp [was]) (by simp [Agent.unsent, was]) (by simp [was])
        (by simp [agentBreaks]) rfl
        (fun finishing => known (by simpa [agentBreaks] using finishing)) later }
  cases event with
  | data chunk =>
    exact
      { request := asked.move id (fun _ => by simp [Agent.running, was])
          (fun _ => by simp [agentHandle, Agent.unwritten, was])
        response := answer.agentMove (by simp [was]) (by simp [Agent.unsent, was]) (by simp [was])
          (by simp [agentHandle]) rfl (by simp [agentHandle]) later }
  | close code half =>
    by_cases zero : code = 0
    · subst zero
      cases half with
      | true =>
        rw [agentHandle_half]
        exact
          { request := asked.move id (fun _ => by simp [Agent.running, was])
              (fun _ => by simp [Agent.unwritten, was])
            response := answer.agentMove (by simp [was]) (by simp [Agent.unsent, was]) (by simp [was])
              (by simp [was]) rfl (by simp [was]) later }
      | false =>
        -- Only a client that has returned sends this, and it had the agent's half close.
        have left := answer.final List.mem_cons_self
        have shape := answer.shape (by simp [left])
        rw [(answer.left (.inr left)).2] at shape
        rw [agentHandle_final]
        exact broken 0 rfl (fun _ => shape.sent_of_taken.1)
    · rw [agentHandle_failed s request half zero]
      exact broken code rfl (fun same => absurd same zero)
  | invalid => exact broken 1 rfl (by simp)

theorem inv_end (inv : Inv s) (alive : s.agent.pc ≠ .ended) (idle : s.agent.unwritten = []) :
    Inv (agentEnds s) where
  request := inv.request.stop idle rfl rfl
  response := inv.response.agentEnd alive rfl rfl rfl inv.response.shape

theorem inv_agent {action : AgentAction} (inv : Inv s) (taken : stepAgent s action = some t) :
    Inv t := by
  cases agentStep taken with
  | take was _ received => exact inv_handleAgent inv was (Channel.receive_some received).1
  | breaks _ was failed => exact inv_break inv was (fun zero => absurd zero failed)
  | shutdownFails was received =>
    obtain ⟨queue, _⟩ := Channel.receive_some received
    obtain ⟨asked, answer⟩ := inv
    rw [queue] at asked answer
    exact
      { request := asked.move id (by simp [agentBreaks, Agent.running])
          (fun _ => by simp [agentBreaks, Agent.unwritten, was])
        response := answer.agentMove (by simp [was]) (by simp [Agent.unsent, was]) (by simp [was])
          (by simp [agentBreaks]) rfl (by simp [agentBreaks]) (List.mem_cons_of_mem _) }
  | write was =>
    exact
      { request := inv.request.write was rfl
        response := inv.response.agentMove (by simp [was]) (by simp [Agent.unsent, was])
          (by simp [was]) (by simp) rfl (by simp) id }
  | writeDone was =>
    exact
      { request := inv.request.move id (fun _ => by simp [Agent.running, was])
          (fun _ => by simp [Agent.unwritten, was])
        response := inv.response.agentMove (by simp [was]) (by simp [Agent.unsent, was])
          (by simp [was]) (by simp) rfl (by simp) id }
  | writeFails was =>
    exact
      { request := inv.request.abandon was rfl rfl
        response := inv.response.agentMove (by simp [was]) (by simp [Agent.unsent, was])
          (by simp [was]) (by simp [agentBreaks]) rfl (by simp [agentBreaks]) id }
  | read was opened =>
    exact
      { request := inv.request.move id (fun _ => by simp [Agent.running, was])
          (fun _ => by simp [Agent.unwritten, was])
        response := inv.response.agentRead was opened rfl opened }
  | eof was opened =>
    exact
      { request := inv.request.move id (fun _ => by simp [Agent.running, was])
          (fun _ => by simp [Agent.unwritten, was])
        response := inv.response.agentEof was opened rfl rfl }
  | send was sent =>
    obtain ⟨_, queue, _⟩ := Channel.trySend_some sent
    refine ⟨inv.request.move id (fun _ => by simp [Agent.running, was])
      (fun _ => by simp [Agent.unwritten, was]), ?_⟩
    have moved := inv.response.agentSend { s.agent with pc := .select } was rfl rfl
    rw [← queue] at moved
    exact moved
  | sendFails was => exact inv_end inv (by simp [was]) (by simp [Agent.unwritten, was])
  | finish was done =>
    refine inv_break inv was fun _ => ?_
    rcases inv.response.eof (Bool.and_eq_true_iff.mp done).2 with sent | sending | ended
    · exact sent
    · rw [was] at sending
      cases sending
    · rw [was] at ended
      cases ended
  | @close code response was sent =>
    obtain ⟨_, queue, _⟩ := Channel.trySend_some sent
    refine ⟨inv.request.stop (by simp [Agent.unwritten, was]) rfl rfl, ?_⟩
    have silent : payload response.queue = payload s.response.queue := by simp [queue]
    refine inv.response.agentEnd (by simp [was]) rfl rfl silent fun kept => ?_
    show Shape s.announced s.client.remoteWriteClosed response.queue
    have shape := inv.response.shape kept
    rw [queue]
    cases known : s.announced with
    | true =>
      rw [known] at shape
      exact shape.push_silent rfl
    | false =>
      rw [known] at shape
      refine shape.push_opening ⟨fun zero => ?_, rfl⟩
      have sent := inv.response.code (zero ▸ was)
      rw [known] at sent
      cases sent
  | closeFails was => exact inv_end inv (by simp [was]) (by simp [Agent.unwritten, was])

theorem inv_peer {action : PeerAction} (inv : Inv s) (taken : stepPeer s action = some t) : Inv t := by
  cases action with
  | localWrites bytes | targetWrites bytes =>
    obtain ⟨_, _, rfl⟩ := Option.map_eq_some_iff.mp taken
    exact ⟨inv.request, inv.response⟩
  | localEnds | targetEnds | localReads count | targetReads count =>
    cases taken
    exact ⟨inv.request, inv.response⟩

theorem inv_step {a : Action} (inv : Inv s) (taken : step s a = some t) : Inv t := by
  cases a with
  | peer action => exact inv_peer inv taken
  | client action => exact inv_client inv taken
  | agent action => exact inv_agent inv taken

end Steps

theorem initial_inv (capacities : Capacities) : Inv (initial capacities) where
  request := ⟨fun _ => rfl, fun _ => rfl⟩
  response :=
    { shape := fun _ => .empty
      total := fun _ _ => rfl
      sends := by simp [initial]
      eof := by simp [initial]
      after := by simp [initial]
      code := by simp [initial]
      left := by simp [initial]
      offers := by simp [initial]
      final := by simp [initial] }

theorem reachable_inv {capacities : Capacities} {s : Forward}
    (reached : (system capacities).Reachable s) : Inv s :=
  reached.invariant (fun _ start => start ▸ initial_inv capacities)
    (fun _ _ _ inv taken => inv_step inv taken)

/-- The agent has taken every data event of the request stream, has finished its writes and has
given none up. -/
def CaughtUp (s : Forward) : Prop :=
  payload s.request.queue = [] ∧ s.agent.unwritten = [] ∧ s.dropped = []

instance (s : Forward) : Decidable (CaughtUp s) := inferInstanceAs (Decidable (_ ∧ _ ∧ _))

/-- When `forward_tcp` returns, the agent has caught up. -/
def CaughtUpAtReturn (s : Forward) (a : Action) : Prop := a = .client .leave → CaughtUp s

/-- Everything read on one side has been written on the other. -/
def Delivered (s : Forward) : Prop :=
  s.targetWritten = s.localRead ∧ s.localWritten = s.targetRead

section Settled
variable {s t : Forward}

/-- A client that has returned takes no further step. -/
theorem client_returned {action : ClientAction} (returned : s.client.pc = .returned true) :
    stepClient s action = none := by
  cases action <;> simp [stepClient, returned]

theorem caughtUp_handle {request : Channel ForwardEvent} {event : ForwardEvent} (caught : CaughtUp s)
    (was : s.agent.pc = .select) (head : s.request.queue = event :: request.queue) :
    CaughtUp (agentHandle s request event) := by
  obtain ⟨taken, _, kept⟩ := caught
  rw [head, payload_cons, List.append_eq_nil_iff] at taken
  have idle : s.agent.unwritten = [] := by simp [Agent.unwritten, was]
  cases event with
  | data chunk => exact ⟨taken.2, taken.1, kept⟩
  | invalid => exact ⟨taken.2, rfl, kept⟩
  | close code half =>
    unfold agentHandle
    dsimp only
    split_ifs
    · exact ⟨taken.2, rfl, kept⟩
    · exact ⟨taken.2, idle, kept⟩
    · exact ⟨taken.2, rfl, kept⟩

/-- An agent that has caught up stays so when no more data comes. -/
theorem caughtUp_agent {action : AgentAction} (caught : CaughtUp s)
    (taken : stepAgent s action = some t) : CaughtUp t := by
  obtain ⟨sent, written, kept⟩ := caught
  cases agentStep taken with
  | take was _ received =>
    exact caughtUp_handle ⟨sent, written, kept⟩ was (Channel.receive_some received).1
  | shutdownFails _ received =>
    obtain ⟨queue, _⟩ := Channel.receive_some received
    rw [queue, payload_cons, List.append_eq_nil_iff] at sent
    exact ⟨sent.2, rfl, kept⟩
  | write was some =>
    simp only [Agent.unwritten, was] at written
    subst written
    exact absurd some.1 (by simpa using some.2)
  | writeFails was =>
    simp only [Agent.unwritten, was] at written
    exact ⟨sent, rfl, by simp [agentBreaks, kept, written]⟩
  | breaks | finish | writeDone | read | eof | send => exact ⟨sent, rfl, kept⟩
  | sendFails | closeFails | close => exact ⟨rfl, rfl, by simp [agentEnds, kept, sent]⟩

/-- The step by which `forward_tcp` returns leaves the agent where it was. -/
theorem caughtUp_leave (caught : CaughtUp s) (taken : stepClient s .leave = some t) : CaughtUp t := by
  obtain ⟨sent, written, kept⟩ := caught
  cases clientStep taken with
  | leave => exact ⟨sent, written, kept⟩
  | @close request _ offered =>
    obtain ⟨_, queue, _⟩ := Channel.trySend_some offered
    have silent : payload request.queue = [] := by simp [queue, sent]
    exact ⟨silent, written, kept⟩
  | fails forced => cases forced

theorem running_handle {response : Channel ForwardEvent} {event : ForwardEvent} (inv : Inv s)
    (was : s.client.pc = .select) (unread : s.client.remoteWriteClosed = false)
    (head : s.response.queue = event :: response.queue) :
    (clientHandle s response event).client.pc ≠ .returned true := by
  cases event with
  | data chunk => simp [clientHandle]
  | invalid => simp [clientHandle, clientReturns]
  | close code half =>
    by_cases zero : code = 0
    · subst zero
      cases half with
      | true =>
        rw [clientHandle_half]
        simp [was]
      | false =>
        have answer := inv.response
        rw [head] at answer
        exact (answer.no_final was unread).elim
    · rw [clientHandle_failed s response half zero]
      simp [clientReturns]

/-- `forward_tcp` returns without an error only by leaving its loop with both halves closed. -/
theorem leaves {action : ClientAction} (inv : Inv s) (taken : stepClient s action = some t)
    (returned : t.client.pc = .returned true) : action = .leave := by
  cases clientStep taken with
  | leave | close => rfl
  | take was unread received =>
    exact absurd returned (running_handle inv was unread (Channel.receive_some received).1)
  | writeDone | read | eof | send | write | finish | fails => cases returned

/-- Once `forward_tcp` has returned without an error, the agent has nothing left to write. -/
theorem settled_step {a : Action} (inv : Inv s) (settled : s.client.pc = .returned true → CaughtUp s)
    (meets : CaughtUpAtReturn s a) (taken : step s a = some t)
    (returned : t.client.pc = .returned true) : CaughtUp t := by
  cases a with
  | peer action =>
    cases action with
    | localWrites bytes | targetWrites bytes =>
      obtain ⟨_, _, rfl⟩ := Option.map_eq_some_iff.mp taken
      exact settled returned
    | localEnds | targetEnds | localReads count | targetReads count =>
      cases taken
      exact settled returned
  | client action =>
    have left := leaves inv taken returned
    subst left
    exact caughtUp_leave (meets rfl) taken
  | agent action => exact caughtUp_agent (settled ((agent_frame taken).1 ▸ returned)) taken

/-- A settled connection has delivered both directions. -/
theorem delivered_of_caughtUp (inv : Inv s) (returned : s.client.pc = .returned true)
    (caught : CaughtUp s) : Delivered s := by
  have alive : s.client.pc ≠ .returned false := by simp [returned]
  have shape := inv.response.shape alive
  rw [(inv.response.left (.inr returned)).2] at shape
  obtain ⟨announced, silent⟩ := shape.sent_of_taken
  have unsent : s.agent.unsent = [] := by
    unfold Agent.unsent
    split
    next event sending => exact absurd sending ((inv.response.after announced).2 event)
    next => rfl
  have sent := inv.request.total alive
  have answered := inv.response.total alive (.inl announced)
  rw [caught.1, caught.2.1, caught.2.2] at sent
  rw [silent, unsent] at answered
  simp only [Client.unsent, Client.unwritten, returned, List.append_nil] at sent answered
  exact ⟨sent.symm, answered.symm⟩

/-- At the return itself, delivery means that the agent has caught up. -/
theorem delivered_iff_caughtUp (inv : Inv s) (finishing : s.client.pc = .finishing) :
    s.targetWritten = s.localRead ↔ CaughtUp s := by
  have total := inv.request.total (by simp [finishing])
  simp only [Client.unsent, finishing, List.append_nil, List.append_assoc] at total
  rw [total, List.self_eq_append_right]
  simp only [List.append_eq_nil_iff, CaughtUp]
  constructor
  · exact fun ⟨dropped, unwritten, silent⟩ => ⟨silent, unwritten, dropped⟩
  · exact fun ⟨silent, unwritten, dropped⟩ => ⟨dropped, unwritten, silent⟩

end Settled

structure SettledInv (s : Forward) : Prop extends Inv s where
  settled : s.client.pc = .returned true → CaughtUp s

theorem reachable_settled {capacities : Capacities} {s : Forward}
    (reached : (system capacities).ReachableBy CaughtUpAtReturn s) : SettledInv s :=
  reached.invariant
    (fun _ start => start ▸ ⟨initial_inv capacities, by simp [initial]⟩)
    (fun _ _ _ before meets taken =>
      ⟨inv_step before.toInv taken, settled_step before.toInv before.settled meets taken⟩)

/-- In every run in which the agent has caught up whenever `forward_tcp` leaves its loop, a
successful return means that both directions were delivered in full and in order. -/
theorem returned_delivered (capacities : Capacities) (s : Forward)
    (reached : (system capacities).ReachableBy CaughtUpAtReturn s)
    (returned : s.client.pc = .returned true) : Delivered s := by
  have inv := reachable_settled reached
  exact delivered_of_caughtUp inv.toInv returned (inv.settled returned)

/-- The target ends its side first; one byte is sent, written, and both halves are closed. -/
def exchange : List Action :=
  [.peer .targetEnds, .agent .eof, .agent .send, .client .take, .peer (.localWrites [7]),
    .client (.read 1), .client .send, .agent .take, .agent (.write 1), .agent .writeDone,
    .peer .localEnds, .client .eof, .client .send, .client .finish, .client .leave]

/-- The condition as a check. -/
def caughtUpAtReturn (s : Forward) (a : Action) : Bool := decide (a = .client .leave → CaughtUp s)

theorem caughtUpAtReturn_sound (s : Forward) (a : Action) (checked : caughtUpAtReturn s a = true) :
    CaughtUpAtReturn s a := by
  have meets : a = .client .leave → CaughtUp s := of_decide_eq_true checked
  exact meets

theorem exchange_runs :
    ((system ⟨1, 1, 1, 1⟩).runBy caughtUpAtReturn (initial ⟨1, 1, 1, 1⟩) exchange).isSome = true := by
  decide

theorem exchange_delivered :
    Delivered (((system ⟨1, 1, 1, 1⟩).runBy caughtUpAtReturn (initial ⟨1, 1, 1, 1⟩) exchange).get
      exchange_runs) :=
  returned_delivered ⟨1, 1, 1, 1⟩ _
    (System.reachableBy_of_runBy caughtUpAtReturn_sound (.start rfl) (Option.some_get _).symm)
    (by decide)

/-- The same exchange, but the byte is still in the stream when the client returns, and the
target has stopped taking input when the agent gets to it. -/
def hastyExchange : List Action :=
  [.peer .targetEnds, .agent .eof, .agent .send, .client .take, .peer (.localWrites [7]),
    .client (.read 1), .client .send, .peer .localEnds, .client .eof, .client .send, .client .finish,
    .client .leave, .agent .take, .agent .writeFails]

theorem hastyExchange_runs :
    ((system ⟨1, 1, 1, 1⟩).run (initial ⟨1, 1, 1, 1⟩) hastyExchange).isSome = true := by decide

/-- A successful return does not mean delivery. -/
theorem hasty_return_loses :
    ¬∀ s, (system ⟨1, 1, 1, 1⟩).Reachable s → s.client.pc = .returned true → Delivered s := by
  intro delivers
  have both := delivers _ (System.reachable_of_run (.start rfl)
    (Option.some_get hastyExchange_runs).symm) (by decide)
  have written := both.1
  revert written
  decide

end Pbox.Forward.Delivery
