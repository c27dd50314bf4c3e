import Pbox.Forward.Backpressure

/-! Whether a forwarded connection can always move on. Each loop awaits the write or the send of
the event it has taken before it looks at the other direction, so a full socket on one side can
hold up output that has room everywhere. In an orderly run nothing is held up. -/

namespace Pbox.Forward.Progress
open Pbox.Lib.Channel Pbox.Lib.HalfClose Pbox.Lib.Pipe Pbox.Lib.Transition Pbox.Forward.Model
  Pbox.Forward.Delivery Pbox.Forward.Backpressure

/-- What can happen without a failure, a timeout or new input: a step of a loop, or a peer that
takes what is there. The target stops reading while its own output is full. -/
def Enabled (s : Forward) : Action → Prop
  | .peer (.localReads _) => s.localOut.buffered ≠ []
  | .peer (.targetReads _) => s.targetIn.buffered ≠ [] ∧ 0 < s.targetOut.room
  | .peer _ => False
  | .client action => action.forced = false ∧ (stepClient s action).isSome = true
  | .agent action => action.forced = false ∧ (stepAgent s action).isSome = true

/-- Bytes that have entered the connection and not yet left it. -/
def Remaining (s : Forward) : Prop :=
  s.localIn.buffered ≠ [] ∨ s.client.unsent ≠ [] ∨ payload s.request.queue ≠ [] ∨
    s.agent.unwritten ≠ [] ∨ s.targetOut.buffered ≠ [] ∨ s.agent.unsent ≠ [] ∨
    payload s.response.queue ≠ [] ∨ s.client.unwritten ≠ []

/-- The agent can take output of the target by steps of its own. -/
def AgentMoves (s : Forward) : Prop :=
  ∃ (actions : List AgentAction) (t : Forward), (∀ action ∈ actions, action.forced = false) ∧
    actions.foldlM stepAgent s = some t ∧ s.targetRead.length < t.targetRead.length

def ClientMoves (s : Forward) : Prop :=
  ∃ (actions : List ClientAction) (t : Forward), (∀ action ∈ actions, action.forced = false) ∧
    actions.foldlM stepClient s = some t ∧ s.localRead.length < t.localRead.length

/-- No state with bytes to move waits for a timeout only, and output with room ahead of it can be
moved, whatever the other direction is doing. -/
structure Flows (s : Forward) : Prop where
  unstuck : Remaining s → ∃ a, Enabled s a
  output : s.targetOut.buffered ≠ [] → s.response.Room → 0 < s.localOut.room → AgentMoves s
  input : s.localIn.buffered ≠ [] → s.request.Room → 0 < s.targetIn.room → ClientMoves s

/-- Runs without failures and timeouts, against a target that stops reading while its output is
full. -/
def Undisturbed (s : Forward) : Action → Prop
  | .peer (.targetReads _) => 0 < s.targetOut.room
  | .peer _ => True
  | .client action => action.forced = false
  | .agent action => action.forced = false

instance (s : Forward) (a : Action) : Decidable (Undisturbed s a) := by
  unfold Undisturbed
  split <;> infer_instance

section Standing
variable {s : Forward}

theorem client_stands (live : Live s) (unfinished : s.client.done = false) :
    s.client.pc = .select ∨ (∃ event, s.client.pc = .sending event) ∨
      ∃ rest, s.client.pc = .writing rest := by
  have left : s.client.pc = .finishing ∨ s.client.pc = .returned true → False := fun gone => by
    have done := live.client.out gone
    rw [unfinished] at done
    cases done
  cases pc : s.client.pc with
  | select => exact .inl rfl
  | sending event => exact .inr (.inl ⟨event, rfl⟩)
  | writing rest => exact .inr (.inr ⟨rest, rfl⟩)
  | finishing => exact (left (.inl pc)).elim
  | returned ok =>
    cases ok with
    | true => exact (left (.inr pc)).elim
    | false => exact absurd pc live.client.unfailed

theorem agent_stands (live : Live s) (unfinished : s.agent.done = false) :
    s.agent.pc = .select ∨ (∃ event, s.agent.pc = .sending event) ∨
      ∃ rest, s.agent.pc = .writing rest := by
  have left : s.agent.running = false → False := fun gone => by
    have done := live.agent.out gone
    rw [unfinished] at done
    cases done
  cases pc : s.agent.pc with
  | select => exact .inl rfl
  | sending event => exact .inr (.inl ⟨event, rfl⟩)
  | writing rest => exact .inr (.inr ⟨rest, rfl⟩)
  | finishing code => exact (left (by simp [Agent.running, pc])).elim
  | ended => exact (left (by simp [Agent.running, pc])).elim

/-- Until the client has closed its half, the agent reads on. -/
theorem agent_reads (live : Live s) (opened : s.client.localWriteClosed = false) :
    s.agent.clientWriteClosed = false := by
  have shape := live.streams.shape
  rw [opened] at shape
  exact shape.untaken.1

/-- Until the agent has announced its half, the client reads on. -/
theorem client_reads (live : Live s) (opened : s.announced = false) :
    s.client.remoteWriteClosed = false := by
  have shape := live.response.shape live.client.unfailed
  rw [opened] at shape
  exact shape.untaken.1

theorem client_unfinished (unread : s.client.remoteWriteClosed = false) : s.client.done = false := by
  simp [Client.done, unread]

theorem agent_unfinished (unread : s.agent.clientWriteClosed = false) : s.agent.done = false := by
  simp [Agent.done, unread]

end Standing

section Writing
variable {s : Forward}

/-- A write in progress has room to go on. -/
theorem clientWriting_enabled (live : Live s) {rest : Bytes} (writing : s.client.pc = .writing rest) :
    ∃ a, Enabled s a := by
  obtain ⟨fits, unended⟩ := live.client.fits rest writing
  cases rest with
  | nil => exact ⟨.client .writeDone, rfl, by simp [stepClient, writing]⟩
  | cons byte later =>
    refine ⟨.client (.write 1), rfl, ?_⟩
    have wrote : (s.localOut.write [byte]).isSome = true :=
      Pipe.write_isSome.mpr ⟨Nat.le_trans (by simp) fits, unended⟩
    simpa [stepClient, writing] using wrote

theorem agentWriting_enabled (live : Live s) {rest : Bytes} (writing : s.agent.pc = .writing rest) :
    ∃ a, Enabled s a := by
  obtain ⟨fits, unended⟩ := live.agent.fits rest writing
  cases rest with
  | nil => exact ⟨.agent .writeDone, rfl, by simp [stepAgent, writing]⟩
  | cons byte later =>
    refine ⟨.agent (.write 1), rfl, ?_⟩
    have wrote : (s.targetIn.write [byte]).isSome = true :=
      Pipe.write_isSome.mpr ⟨Nat.le_trans (by simp) fits, unended⟩
    simpa [stepAgent, writing] using wrote

end Writing

section Sending
variable {s : Forward}

theorem clientSend_enabled {event : ForwardEvent} (sending : s.client.pc = .sending event)
    (room : s.request.Room) : Enabled s (.client .send) :=
  ⟨rfl, by simpa [stepClient, sending] using Channel.trySend_isSome.mpr room⟩

theorem agentSend_enabled {event : ForwardEvent} (sending : s.agent.pc = .sending event)
    (room : s.response.Room) : Enabled s (.agent .send) :=
  ⟨rfl, by simpa [stepAgent, sending] using Channel.trySend_isSome.mpr room⟩

theorem clientTake_enabled (was : s.client.pc = .select) (unread : s.client.remoteWriteClosed = false)
    (some : s.response.queue ≠ []) : Enabled s (.client .take) :=
  ⟨rfl, by simpa [stepClient, was, unread] using Channel.receive_isSome.mpr some⟩

theorem agentTake_enabled (was : s.agent.pc = .select) (unread : s.agent.clientWriteClosed = false)
    (some : s.request.queue ≠ []) : Enabled s (.agent .take) :=
  ⟨rfl, by simpa [stepAgent, was, unread] using Channel.receive_isSome.mpr some⟩

theorem client_takes_or_stuck (live : Live s) (unread : s.client.remoteWriteClosed = false)
    (some : s.response.queue ≠ []) : (∃ a, Enabled s a) ∨ ClientStuck s := by
  rcases client_stands live (client_unfinished unread) with pc | ⟨event, pc⟩ | ⟨rest, pc⟩
  · exact .inl ⟨_, clientTake_enabled pc unread some⟩
  · by_cases room : s.request.Room
    · exact .inl ⟨_, clientSend_enabled pc room⟩
    · exact .inr ⟨by simp [Client.sends, pc], room⟩
  · exact .inl (clientWriting_enabled live pc)

theorem agent_takes_or_stuck (live : Live s) (unread : s.agent.clientWriteClosed = false)
    (some : s.request.queue ≠ []) : (∃ a, Enabled s a) ∨ AgentStuck s := by
  rcases agent_stands live (agent_unfinished unread) with pc | ⟨event, pc⟩ | ⟨rest, pc⟩
  · exact .inl ⟨_, agentTake_enabled pc unread some⟩
  · by_cases room : s.response.Room
    · exact .inl ⟨_, agentSend_enabled pc room⟩
    · exact .inr ⟨by simp [Agent.sends, pc], room⟩
  · exact .inl (agentWriting_enabled live pc)

/-- A client that waits in a full stream waits for an agent that can move. -/
theorem clientSending_enabled (live : Live s) {event : ForwardEvent}
    (sending : s.client.pc = .sending event) : ∃ a, Enabled s a := by
  by_cases room : s.request.Room
  · exact ⟨_, clientSend_enabled sending room⟩
  · have unread := agent_reads live (live.client.offers event sending).1
    have opened : s.request.closed = false := by
      cases closed : s.request.closed with
      | false => rfl
      | true =>
        have ended := live.streams.requestOpen.mp closed
        have done := live.agent.out (by simp [Agent.running, ended])
        rw [agent_unfinished unread] at done
        cases done
    have some := nonempty_of_full opened live.streams.requestSize room
    rcases agent_takes_or_stuck live unread some with moves | stuck
    · exact moves
    · rcases live.streams.apart (by simp [Client.sends, sending]) stuck.1 with free | free
      · exact absurd free room
      · exact absurd free stuck.2

theorem agentSending_enabled (live : Live s) {event : ForwardEvent}
    (sending : s.agent.pc = .sending event) : ∃ a, Enabled s a := by
  by_cases room : s.response.Room
  · exact ⟨_, agentSend_enabled sending room⟩
  · have silent : s.announced = false := by
      cases announced : s.announced with
      | false => rfl
      | true => exact absurd sending ((live.response.after announced).2 event)
    have unread := client_reads live silent
    have opened : s.response.closed = false := by
      cases closed : s.response.closed with
      | false => rfl
      | true =>
        have left := live.response.left (.inr (live.streams.responseOpen closed))
        rw [unread] at left
        cases left.2
    have some := nonempty_of_full opened live.streams.responseSize room
    rcases client_takes_or_stuck live unread some with moves | stuck
    · exact moves
    · rcases live.streams.apart stuck.1 (by simp [Agent.sends, sending]) with free | free
      · exact absurd free stuck.2
      · exact absurd free room

end Sending

section Unstuck
variable {s : Forward}

theorem client_moves (live : Live s) (unfinished : s.client.done = false)
    (selects : s.client.pc = .select → ∃ a, Enabled s a) : ∃ a, Enabled s a := by
  rcases client_stands live unfinished with pc | ⟨event, pc⟩ | ⟨rest, pc⟩
  · exact selects pc
  · exact clientSending_enabled live pc
  · exact clientWriting_enabled live pc

theorem agent_moves (live : Live s) (unfinished : s.agent.done = false)
    (selects : s.agent.pc = .select → ∃ a, Enabled s a) : ∃ a, Enabled s a := by
  rcases agent_stands live unfinished with pc | ⟨event, pc⟩ | ⟨rest, pc⟩
  · exact selects pc
  · exact agentSending_enabled live pc
  · exact agentWriting_enabled live pc

theorem localWriteOpen (live : Live s) (input : s.localIn.buffered ≠ []) :
    s.client.localWriteClosed = false := by
  cases closed : s.client.localWriteClosed with
  | false => rfl
  | true => exact absurd (live.client.eof (.inl closed)).1 input

theorem targetWriteOpen (live : Live s) (output : s.targetOut.buffered ≠ []) :
    s.agent.targetWriteClosed = false := by
  cases closed : s.agent.targetWriteClosed with
  | false => rfl
  | true => exact absurd (live.agent.eof closed).1 output

theorem readable_one {socket : Pipe UInt8} (some : socket.buffered ≠ []) : readable socket 1 :=
  ⟨Nat.one_pos, by decide, List.length_pos_iff.mpr some⟩

/-- Wherever a byte waits, one of the two loops has a step to take. -/
theorem unstuck (live : Live s) (remaining : Remaining s) : ∃ a, Enabled s a := by
  rcases remaining with input | unsent | requests | unwritten | output | unsent | responses | unwritten
  · have opened := localWriteOpen live input
    refine client_moves live (by simp [Client.done, opened]) fun pc => ?_
    exact ⟨.client (.read 1), rfl, by simp [stepClient, pc, opened, readable_one input]⟩
  · unfold Client.unsent at unsent
    split at unsent
    next event sending => exact clientSending_enabled live sending
    next => exact absurd rfl unsent
  · have some : s.request.queue ≠ [] := fun empty => requests (by rw [empty, payload_nil])
    have unread : s.agent.clientWriteClosed = false := by
      cases read : s.agent.clientWriteClosed with
      | false => rfl
      | true =>
        have shape := live.streams.shape
        rw [read] at shape
        exact absurd shape.sent_of_taken.2 requests
    exact agent_moves live (agent_unfinished unread) fun pc => ⟨_, agentTake_enabled pc unread some⟩
  · unfold Agent.unwritten at unwritten
    split at unwritten
    next rest writing => exact agentWriting_enabled live writing
    next => exact absurd rfl unwritten
  · have opened := targetWriteOpen live output
    refine agent_moves live (by simp [Agent.done, opened]) fun pc => ?_
    exact ⟨.agent (.read 1), rfl, by simp [stepAgent, pc, opened, readable_one output]⟩
  · unfold Agent.unsent at unsent
    split at unsent
    next event sending => exact agentSending_enabled live sending
    next => exact absurd rfl unsent
  · have some : s.response.queue ≠ [] := fun empty => responses (by rw [empty, payload_nil])
    have unread : s.client.remoteWriteClosed = false := by
      cases read : s.client.remoteWriteClosed with
      | false => rfl
      | true =>
        have shape := live.response.shape live.client.unfailed
        rw [read] at shape
        exact absurd shape.sent_of_taken.2 responses
    exact client_moves live (client_unfinished unread) fun pc => ⟨_, clientTake_enabled pc unread some⟩
  · unfold Client.unwritten at unwritten
    split at unwritten
    next rest writing => exact clientWriting_enabled live writing
    next => exact absurd rfl unwritten

end Unstuck

section Moving
variable {s t : Forward}

theorem AgentMoves.now {action : AgentAction} (prompt : action.forced = false)
    (taken : stepAgent s action = some t) (more : s.targetRead.length < t.targetRead.length) :
    AgentMoves s := by
  refine ⟨[action], t, List.forall_mem_singleton.mpr prompt, ?_, more⟩
  simp [List.foldlM_cons, taken]

theorem AgentMoves.after {action : AgentAction} (prompt : action.forced = false)
    (taken : stepAgent s action = some t) (same : t.targetRead = s.targetRead) (later : AgentMoves t) :
    AgentMoves s := by
  obtain ⟨actions, last, own, runs, more⟩ := later
  refine ⟨action :: actions, last, List.forall_mem_cons.mpr ⟨prompt, own⟩, ?_, same ▸ more⟩
  simpa [List.foldlM_cons, taken] using runs

theorem ClientMoves.now {action : ClientAction} (prompt : action.forced = false)
    (taken : stepClient s action = some t) (more : s.localRead.length < t.localRead.length) :
    ClientMoves s := by
  refine ⟨[action], t, List.forall_mem_singleton.mpr prompt, ?_, more⟩
  simp [List.foldlM_cons, taken]

theorem ClientMoves.after {action : ClientAction} (prompt : action.forced = false)
    (taken : stepClient s action = some t) (same : t.localRead = s.localRead) (later : ClientMoves t) :
    ClientMoves s := by
  obtain ⟨actions, last, own, runs, more⟩ := later
  refine ⟨action :: actions, last, List.forall_mem_cons.mpr ⟨prompt, own⟩, ?_, same ▸ more⟩
  simpa [List.foldlM_cons, taken] using runs

theorem grows {read buffered : Bytes} (some : buffered ≠ []) :
    read.length < (read ++ buffered.take 1).length := by
  have positive := List.length_pos_iff.mpr some
  rw [List.length_append, List.length_take]
  omega

theorem agentMoves_select (pc : s.agent.pc = .select) (opened : s.agent.targetWriteClosed = false)
    (output : s.targetOut.buffered ≠ []) : AgentMoves s := by
  have taken : stepAgent s (.read 1) = some _ := if_pos ⟨pc, opened, readable_one output⟩
  exact .now rfl taken (grows output)

theorem clientMoves_select (pc : s.client.pc = .select) (opened : s.client.localWriteClosed = false)
    (input : s.localIn.buffered ≠ []) : ClientMoves s := by
  have taken : stepClient s (.read 1) = some _ := if_pos ⟨pc, opened, readable_one input⟩
  exact .now rfl taken (grows input)

theorem agentMoves_written (pc : s.agent.pc = .writing [])
    (opened : s.agent.targetWriteClosed = false) (output : s.targetOut.buffered ≠ []) :
    AgentMoves s := by
  have taken : stepAgent s .writeDone = some _ := if_pos pc
  exact .after rfl taken rfl (agentMoves_select rfl opened output)

theorem clientMoves_written (pc : s.client.pc = .writing [])
    (opened : s.client.localWriteClosed = false) (input : s.localIn.buffered ≠ []) :
    ClientMoves s := by
  have taken : stepClient s .writeDone = some _ := if_pos pc
  exact .after rfl taken rfl (clientMoves_select rfl opened input)

/-- The agent gets to output of the target: what it is busy with has room. -/
theorem output_moves (live : Live s) (output : s.targetOut.buffered ≠ []) (room : s.response.Room) :
    AgentMoves s := by
  have opened := targetWriteOpen live output
  rcases agent_stands live (by simp [Agent.done, opened]) with pc | ⟨event, pc⟩ | ⟨rest, pc⟩
  · exact agentMoves_select pc opened output
  · obtain ⟨t, taken⟩ := Option.isSome_iff_exists.mp (agentSend_enabled pc room).2
    have sends := taken
    simp only [stepAgent, pc] at sends
    obtain ⟨response, _, rfl⟩ := Option.map_eq_some_iff.mp sends
    exact .after rfl taken rfl (agentMoves_select rfl opened output)
  · obtain ⟨fits, unended⟩ := live.agent.fits rest pc
    cases rest with
    | nil => exact agentMoves_written pc opened output
    | cons byte later =>
      obtain ⟨targetIn, wrote⟩ :=
        Option.isSome_iff_exists.mp (Pipe.write_isSome.mpr ⟨fits, unended⟩)
      have taken : stepAgent s (.write (byte :: later).length) =
          some { s with
            targetIn := targetIn
            targetWritten := s.targetWritten ++ byte :: later
            agent := { s.agent with pc := .writing [] } } := by
        simp [stepAgent, pc, wrote]
      exact .after rfl taken rfl (agentMoves_written rfl opened output)

theorem input_moves (live : Live s) (input : s.localIn.buffered ≠ []) (room : s.request.Room) :
    ClientMoves s := by
  have opened := localWriteOpen live input
  rcases client_stands live (by simp [Client.done, opened]) with pc | ⟨event, pc⟩ | ⟨rest, pc⟩
  · exact clientMoves_select pc opened input
  · obtain ⟨t, taken⟩ := Option.isSome_iff_exists.mp (clientSend_enabled pc room).2
    have sends := taken
    simp only [stepClient, pc] at sends
    obtain ⟨request, _, rfl⟩ := Option.map_eq_some_iff.mp sends
    have unclosed : (event == .close 0 true) = false := by
      rcases (live.client.offers event pc).2 with half | ⟨chunk, rfl⟩
      · exact absurd (live.client.eof (.inr (half ▸ pc))).1 input
      · rfl
    exact .after rfl taken rfl (clientMoves_select rfl (by rw [opened, unclosed]; rfl) input)
  · obtain ⟨fits, unended⟩ := live.client.fits rest pc
    cases rest with
    | nil => exact clientMoves_written pc opened input
    | cons byte later =>
      obtain ⟨localOut, wrote⟩ :=
        Option.isSome_iff_exists.mp (Pipe.write_isSome.mpr ⟨fits, unended⟩)
      have taken : stepClient s (.write (byte :: later).length) =
          some { s with
            localOut := localOut
            localWritten := s.localWritten ++ byte :: later
            client := { s.client with pc := .writing [] } } := by
        simp [stepClient, pc, wrote]
      exact .after rfl taken rfl (clientMoves_written rfl opened input)

end Moving

theorem live_flows {s : Forward} (live : Live s) : Flows s where
  unstuck := unstuck live
  output output room _ := output_moves live output room
  input input room _ := input_moves live input room

theorem reachable_live {capacities : Capacities} {s : Forward}
    (reached : (system capacities).ReachableBy Orderly s) : Live s :=
  reached.invariant (fun _ start => start ▸ initial_live capacities)
    (fun _ _ _ live orderly taken => live_step live orderly taken)

/-- In every run that takes events only into room and never lets both loops wait in full streams,
bytes keep moving whatever the fill levels are. -/
theorem orderly_flows (capacities : Capacities) (s : Forward)
    (reached : (system capacities).ReachableBy Orderly s) : Flows s :=
  live_flows (reachable_live reached)

/-- A byte is on its way to the target while the target's answer waits to be read. -/
def crossing : List Action :=
  [.peer (.localWrites [7]), .client (.read 1), .client .send, .peer (.targetWrites [9]), .agent .take]

theorem crossing_runs :
    ((system ⟨1, 1, 1, 1⟩).runBy (fun s a => decide (Orderly s a)) (initial ⟨1, 1, 1, 1⟩)
      crossing).isSome = true := by
  decide

theorem crossing_flows :
    Flows (((system ⟨1, 1, 1, 1⟩).runBy (fun s a => decide (Orderly s a)) (initial ⟨1, 1, 1, 1⟩)
      crossing).get crossing_runs) :=
  orderly_flows ⟨1, 1, 1, 1⟩ _
    (System.reachableBy_of_runBy (fun _ _ => of_decide_eq_true) (.start rfl) (Option.some_get _).symm)

/-- Two bytes for the target, which has room for one and is held up by its own answer. -/
def jam : List Action :=
  [.peer (.localWrites [7, 8]), .client (.read 2), .client .send, .agent .take,
    .peer (.targetWrites [9]), .agent (.write 1)]

theorem jam_runs :
    ((system ⟨2, 1, 1, 1⟩).runBy (fun s a => decide (Undisturbed s a)) (initial ⟨2, 1, 1, 1⟩)
      jam).isSome = true := by
  decide

def jammed : Forward :=
  ((system ⟨2, 1, 1, 1⟩).runBy (fun s a => decide (Undisturbed s a)) (initial ⟨2, 1, 1, 1⟩) jam).get
    jam_runs

theorem jammed_client (action : ClientAction) (prompt : action.forced = false) :
    (stepClient jammed action).isSome = false := by
  cases action with
  | readFails | sendFails | streamFails | writeFails => cases prompt
  | read count =>
    have empty : jammed.localIn.buffered = [] := by decide
    simp only [stepClient, readable, empty, List.length_nil]
    rw [if_neg (by omega)]
    rfl
  | write count =>
    have selects : jammed.client.pc = .select := by decide
    simp [stepClient, selects]
  | eof | send | take | writeDone | finish | leave => decide

theorem jammed_agent (action : AgentAction) (prompt : action.forced = false) :
    (stepAgent jammed action).isSome = false := by
  have writes : jammed.agent.pc = .writing [8] := by decide
  cases action with
  | streamFails | shutdownFails | idle | writeFails | readFails | sendFails | closeFails => cases prompt
  | read count => simp [stepAgent, writes]
  | write count =>
    have full : jammed.targetIn.room = 0 := by decide
    simp only [stepAgent, writes]
    split
    next some =>
      have one : count = 1 := by
        have short := some.2
        simp only [List.length_singleton] at short
        omega
      subst one
      decide
    next => rfl
  | take | writeDone | eof | send | finish | close => decide

/-- Bytes wait on both sides and nothing but a timeout can happen. -/
theorem jammed_stuck :
    ¬∀ s, (system ⟨2, 1, 1, 1⟩).ReachableBy Undisturbed s → Flows s := by
  intro flows
  have reached : (system ⟨2, 1, 1, 1⟩).ReachableBy Undisturbed jammed :=
    System.reachableBy_of_runBy (fun _ _ => of_decide_eq_true) (.start rfl) (Option.some_get _).symm
  have remaining : Remaining jammed := .inr (.inr (.inr (.inl (by decide))))
  obtain ⟨a, enabled⟩ := (flows jammed reached).unstuck remaining
  cases a with
  | peer action =>
    cases action with
    | localReads count =>
      revert enabled
      show ¬(jammed.localOut.buffered ≠ [])
      decide
    | targetReads count =>
      revert enabled
      show ¬(jammed.targetIn.buffered ≠ [] ∧ 0 < jammed.targetOut.room)
      decide
    | localWrites bytes | localEnds | targetWrites bytes | targetEnds => cases enabled
  | client action => exact absurd enabled.2 (by simp [jammed_client action enabled.1])
  | agent action => exact absurd enabled.2 (by simp [jammed_agent action enabled.1])

end Pbox.Forward.Progress
