import Pbox.Reverse.Sound

/-! What the connections of a reverse forward get: their bytes in order, nothing of one another,
and numbers of their own. -/

namespace Pbox.Reverse
open Pbox.Lib.Transition

section Delivered

/-- The bytes of a connection between the socket they were read from and the one they are for. -/
def inFlight (x y : Endpoint) (index : Nat) : Bytes :=
  (y.bridge index).unwritten ++ payload (y.bridge index).input ++ payload (y.hand index) ++
    payload (onWay index x.messages) ++ (x.bridge index).held

/-- One direction of one connection. Bytes are given up only where the bridge that they are for has
left its loop, or with the whole outbound channel. -/
structure Delivered (x y : Endpoint) (index : Nat) : Prop where
  applied : (y.bridge index).taken <+: (x.bridge index).emitted
  inOrder : (y.bridge index).written <+: (x.bridge index).read
  nothingLost : (y.bridge index).pc.running = true → (x.bridge index).pc.running = true ∨ x.closed = false →
    (x.bridge index).read = (y.bridge index).written ++ inFlight x y index
  untilClosed : (∃ event ∈ (y.bridge index).taken, event.closing = true) →
    (y.bridge index).written = (x.bridge index).read

variable {x y : Endpoint} {index : Nat}

theorem Lane.whole (lane : Lane x y) (sender : Local x) (receiver : Local y)
    (running : (y.bridge index).pc.running = true)
    (kept : (x.bridge index).pc.running = true ∨ x.closed = false) :
    (x.bridge index).read = (y.bridge index).written ++ inFlight x y index := by
  have opens : y.Open index := by
    intro gone
    rw [gone] at running
    cases running
  have writes := (receiver.sane index).writes running
  calc (x.bridge index).read
      = payload (x.bridge index).emitted ++ (x.bridge index).held := (sender.sane index).reads kept
    _ = payload (y.bridge index).taken ++ payload (y.bridge index).input ++ payload (y.hand index) ++
          payload (onWay index x.messages) ++ (x.bridge index).held := by
        rw [lane.carried index opens, payload_append, payload_append, payload_append]
    _ = (y.bridge index).written ++ inFlight x y index := by
        rw [writes]
        simp only [inFlight, List.append_assoc]

/-- A closing event that has been taken comes behind all the bytes that were read. -/
theorem Lane.complete (lane : Lane x y) (sender : Local x) (receiver : Local y)
    (closed : ∃ event ∈ (y.bridge index).taken, event.closing = true) :
    (y.bridge index).written = (x.bridge index).read := by
  obtain ⟨rest, emitted⟩ := lane.prefix_taken index
  obtain ⟨event, member, closing⟩ := closed
  obtain ⟨front, back, shape⟩ := List.append_of_mem member
  obtain ⟨stage, valid, _⟩ := (sender.sane index).stage
  rw [← emitted, shape, List.append_assoc, List.cons_append] at valid
  have silent : payload rest = [] := by
    have behind := closing_last valid closing
    rw [payload_append] at behind
    exact (List.append_eq_nil_iff.mp behind).2
  have sent : ∃ event ∈ (x.bridge index).emitted, event.closing = true :=
    ⟨event, emitted ▸ List.mem_append_left rest member, closing⟩
  rw [(receiver.sane index).writesAll ⟨event, member, closing⟩, (sender.sane index).readsAll sent, ← emitted,
    payload_append, silent, List.append_nil]

theorem payload_begins {front events : List Event} (before : front <+: events) :
    payload front <+: payload events := by
  obtain ⟨rest, rfl⟩ := before
  rw [payload_append]
  exact List.prefix_append _ _

theorem Lane.delivered (lane : Lane x y) (sender : Local x) (receiver : Local y) (index : Nat) :
    Delivered x y index where
  applied := lane.prefix_taken index
  inOrder := (receiver.sane index).writesBegin.trans
    ((payload_begins (lane.prefix_taken index)).trans (sender.sane index).readsBegin)
  nothingLost := lane.whole sender receiver
  untilClosed := lane.complete sender receiver

end Delivered

section Routed

/-- Nothing has happened but that entries of ended bridges are gone. -/
structure Unmoved (e f : Endpoint) : Prop where
  same : f = { e with pc := f.pc, connections := f.connections }
  entries : ∀ other index, f.connections other = some index ↔ e.connections other = some index ∧ e.Open index

/-- An event has gone into the queue of its connection. -/
structure Applied (id : Nat) (event : Event) (e f : Endpoint) : Prop where
  same : f = { e.setBridge id { e.bridge id with input := (e.bridge id).input ++ [event] } with
    pc := f.pc, connections := f.connections }
  entries : ∀ other index, other ≠ id →
    (f.connections other = some index ↔ e.connections other = some index ∧ e.Open index)

/-- What a loop does with the messages that it takes. -/
structure Routed (handle : Endpoint → ReverseForwardEvent → Endpoint) (drops : Bool) (e : Endpoint) : Prop where
  unknown : ∀ message id event, message.item = some (id, event) → e.connections id = none →
    Unmoved e (handle e message)
  known : ∀ message id event, message.item = some (id, event) → e.connections id ≠ none →
    handle e message = { e with pc := .delivering id id event }
  closed : ∀ id index event f, e.pc = .delivering id index event → e.deliver drops = some f → ¬e.Open id →
    Unmoved e f
  delivered : ∀ id index event f, e.pc = .delivering id index event → e.deliver drops = some f → e.Open id →
    Applied id event e f

variable {e f : Endpoint} {id index : Nat} {event : Event} {drops : Bool}

theorem unmoved_retain (e : Endpoint) : Unmoved e e.retain := ⟨rfl, fun _ _ => retain_entry⟩

theorem route_unknown (absent : e.connections id = none) : Unmoved e (e.route id event) := by
  unfold Endpoint.route
  rw [absent]
  exact unmoved_retain e

theorem Local.route_known (inv : Local e) (entry : e.connections id ≠ none) :
    e.route id event = { e with pc := .delivering id id event } := by
  obtain ⟨index, found⟩ := Option.ne_none_iff_exists'.mp entry
  obtain ⟨rfl, _⟩ := inv.entries id index found
  unfold Endpoint.route
  rw [found]

theorem Local.deliver_closed (inv : Local e) (pc : e.pc = .delivering id index event)
    (done : e.deliver drops = some f) (gone : ¬e.Open id) : Unmoved e f := by
  have entry := inv.held id index event pc
  obtain ⟨rfl, _⟩ := inv.entries id index entry
  have ended : (e.bridge index).pc = .ended := not_not.mp gone
  unfold Endpoint.deliver at done
  rw [pc] at done
  dsimp only at done
  rw [if_pos ended] at done
  cases done
  refine ⟨rfl, fun other target => ?_⟩
  rw [retain_entry]
  by_cases own : other = index
  · subst own
    have dropped : ∀ target, other = target → (e.bridge target).pc = .ended := by
      rintro _ rfl
      exact ended
    simpa [entry, Endpoint.Open] using dropped target
  · simp [Function.update_of_ne own, Endpoint.Open]

theorem Local.deliver_open (inv : Local e) (pc : e.pc = .delivering id index event)
    (done : e.deliver drops = some f) (opened : e.Open id) : Applied id event e f := by
  obtain ⟨rfl, _⟩ := inv.entries id index (inv.held id index event pc)
  unfold Endpoint.deliver at done
  rw [pc] at done
  dsimp only at done
  rw [if_neg opened] at done
  split at done
  next =>
    cases done
    refine ⟨rfl, fun other target different => ?_⟩
    have kept : (if drops && event.full then Function.update e.connections index none else e.connections) other =
        e.connections other := by
      split
      · exact Function.update_of_ne different _ _
      · rfl
    rw [retain_entry]
    simp only [Endpoint.Open, kept, setBridge_pc]
  next => cases done

theorem Local.routed {handle : Endpoint → ReverseForwardEvent → Endpoint} (inv : Local e)
    (routes : ∀ message id event, message.item = some (id, event) → handle e message = e.route id event)
    (drops : Bool) : Routed handle drops e where
  unknown message id event item absent := by
    rw [routes message id event item]
    exact route_unknown absent
  known message id event item entry := by
    rw [routes message id event item]
    exact inv.route_known entry
  closed _ _ _ _ := inv.deliver_closed
  delivered _ _ _ _ := inv.deliver_open

end Routed

section Fresh
variable {s t : Forward}

/-- Every connection has its own number, and the next number to be given out is in no map. -/
structure Fresh (s : Forward) : Prop where
  agent : ∀ index, 1 ≤ index → index ≤ s.agent.spawned → (s.agent.bridge index).id = index
  client : ∀ index, 1 ≤ index → index ≤ s.client.spawned → (s.client.bridge index).id = index
  accepts : s.agent.connections (connectionIdOf (s.agent.spawned + 1)) = none
  announced : ∀ message ∈ s.agent.messages, message.event = some (.connected true) →
    s.client.connections message.connectionId = none

theorem Inv.fresh (inv : Inv s) (small : s.agent.spawned < 2 ^ 64) : Fresh s where
  agent := inv.agent.numbered
  client := inv.client.numbered
  accepts := by
    by_contra taken
    obtain ⟨index, entry⟩ := Option.ne_none_iff_exists'.mp taken
    obtain ⟨same, low, high⟩ := inv.agent.entries _ _ entry
    rw [same] at low high
    unfold connectionIdOf at low high
    rcases Nat.lt_or_ge (s.agent.spawned + 1) (2 ^ 64) with below | last
    · rw [Nat.mod_eq_of_lt below] at high
      omega
    · have exact : s.agent.spawned + 1 = 2 ^ 64 := by omega
      rw [exact, Nat.mod_self] at low
      omega
  announced message member connected := by
    by_contra taken
    obtain ⟨index, entry⟩ := Option.ne_none_iff_exists'.mp taken
    obtain ⟨same, _, high⟩ := inv.client.entries _ _ entry
    obtain ⟨announced, numbers⟩ := inv.numbers
    have late := announcedBy_fresh numbers.stream member (by rw [ReverseForwardEvent.item, connected])
    omega

theorem agentHandle_spawned (e : Endpoint) (message : ReverseForwardEvent) :
    (agentHandle e message).spawned = e.spawned := by
  unfold agentHandle
  split
  · exact (route_keeps e _ _).2.2.1
  · exact (route_keeps e _ _).2.2.1
  · rfl

/-- The counter of accepted connections never falls. -/
theorem step_spawned {a : Act} (taken : forward.step s a = some t) : s.agent.spawned ≤ t.agent.spawned := by
  cases a with
  | agent act =>
    obtain ⟨agent, stepped, rfl⟩ := Option.map_eq_some_iff.mp taken
    exact (stepped_spawned (step_cases stepped)).ge
  | client act =>
    obtain ⟨client, stepped, rfl⟩ := Option.map_eq_some_iff.mp taken
    exact le_refl _
  | accept =>
    obtain ⟨agent, accepted, rfl⟩ := Option.map_eq_some_iff.mp taken
    unfold Endpoint.accept at accepted
    split at accepted <;> cases accepted
    exact Nat.le_succ _
  | announce =>
    obtain ⟨agent, announced, rfl⟩ := Option.map_eq_some_iff.mp taken
    obtain ⟨index, _, _, rfl⟩ := announce_cases announced
    exact le_refl _
  | announceFails =>
    obtain ⟨agent, failed, rfl⟩ := Option.map_eq_some_iff.mp taken
    obtain ⟨index, _, _, rfl⟩ := announceFails_cases failed
    exact le_refl _
  | agentTakes =>
    obtain ⟨⟨agent, client⟩, took, rfl⟩ := Option.map_eq_some_iff.mp taken
    obtain ⟨message, rest, _, _, same⟩ := takes_cases took
    cases same
    exact (agentHandle_spawned _ _).ge
  | clientTakes =>
    obtain ⟨⟨client, agent⟩, took, rfl⟩ := Option.map_eq_some_iff.mp taken
    obtain ⟨message, rest, _, _, same⟩ := takes_cases took
    cases same
    exact le_refl _

/-- The invariant holds until the counter of the agent comes round. -/
theorem reachable_inv (reached : forward.Reachable s) : s.agent.spawned < 2 ^ 64 → Inv s := by
  apply reached.invariant
  · rintro _ rfl _
    exact inv_init
  · intro s a t inv taken small
    exact (inv (by have := step_spawned taken; omega)).step taken small

/-- What the connections of a reverse forward can rely on. -/
structure Multiplexed (s : Forward) : Prop where
  up : ∀ index, Delivered s.agent s.client index
  down : ∀ index, Delivered s.client s.agent index
  agent : Routed agentHandle false s.agent
  client : Routed clientHandle true s.client
  fresh : Fresh s

/-- However the connections interleave: as long as the counter of the accepted ones has not come
round, each of them gets what belongs to it. -/
theorem forward_multiplexed (s : Forward) (reached : forward.Reachable s) (small : s.agent.spawned < 2 ^ 64) :
    Multiplexed s := by
  have inv := reachable_inv reached small
  exact {
    up := inv.up.delivered inv.agent inv.client
    down := inv.down.delivered inv.client inv.agent
    agent := inv.agent.routed (fun _ _ _ item => (handle_item item).1) false
    client := inv.client.routed (fun _ _ _ item => (handle_item item).2) true
    fresh := inv.fresh small }

/-- One connection brings a byte to the target while a second one is announced. -/
def twoConnections : List Act :=
  [.accept, .announce, .agent (.bridge 1 (.read [0x61])), .accept, .agent (.send 1), .announce, .agent .transfer,
    .agent .transfer, .agent .transfer, .clientTakes, .client (.bridge 1 .connect), .clientTakes, .client .deliver,
    .clientTakes, .client (.bridge 1 .take), .client (.bridge 1 .write)]

theorem twoConnections_multiplexed : ∃ s, forward.run {} twoConnections = some s ∧
    (s.client.bridge 1).written = [0x61] ∧ (s.client.bridge 2).pc = .connecting ∧ Multiplexed s := by
  obtain ⟨s, ran, spawned, written, second⟩ : ∃ s, forward.run {} twoConnections = some s ∧ s.agent.spawned = 2 ∧
      (s.client.bridge 1).written = [0x61] ∧ (s.client.bridge 2).pc = .connecting := ⟨_, rfl, rfl, rfl, rfl⟩
  exact ⟨s, ran, written, second, forward_multiplexed s (System.reachable_of_run (.start rfl) ran)
    (by rw [spawned]; decide)⟩

end Fresh

section Round
variable {s : Forward} {count : Nat}

/-- The first connection is open, and this many have been accepted. -/
structure Busy (s : Forward) (count : Nat) : Prop where
  reached : forward.Reachable s
  pc : s.agent.pc = .select
  spawned : s.agent.spawned = count
  entry : s.agent.connections 1 = some 1
  opens : s.agent.Open 1
  closed : s.agent.closed = false
  buffer : s.agent.buffer = []

/-- A connection that is accepted and fails at its first read. -/
def brief (index : Nat) : List Act :=
  [.accept, .announce, .agent (.bridge index .readFails), .agent (.send index), .agent .transfer, .agent .transfer]

def briefMessages (id : Nat) : List ReverseForwardEvent :=
  [⟨id, some (.connected true)⟩, ⟨id, some (.close 0 false)⟩]

theorem Busy.brief (busy : Busy s count) (low : 1 ≤ count) (high : count < 2 ^ 64) :
    ∃ t, Busy t (count + 1) ∧ t.client = s.client ∧
      t.agent.net = s.agent.net ++ briefMessages (connectionIdOf (count + 1)) := by
  obtain ⟨reached, pc, spawned, entry, opens, closed, buffer⟩ := busy
  have otherId : 1 ≠ connectionIdOf (count + 1) := by
    unfold connectionIdOf
    omega
  have other : 1 ≠ count + 1 := by omega
  have ran : ∃ t, forward.run s (Reverse.brief (count + 1)) = some t ∧ t.agent.pc = .select ∧
      t.agent.spawned = count + 1 ∧ t.agent.connections 1 = some 1 ∧ t.agent.bridge 1 = s.agent.bridge 1 ∧
      t.agent.closed = false ∧ t.agent.buffer = [] ∧ t.client = s.client ∧
      t.agent.net = s.agent.net ++ briefMessages (connectionIdOf (count + 1)) := by
    simp [Reverse.brief, briefMessages, System.run, forward, Forward.step, Endpoint.accept, Endpoint.announce,
      Endpoint.step, Endpoint.push, Endpoint.setBridge, Endpoint.retain, Bridge.act, Bridge.outgoing, Bridge.sent,
      CAPACITY, pc, spawned, entry, closed, buffer, Function.update_of_ne otherId, Function.update_of_ne other]
    exact opens
  obtain ⟨t, ran, pc, spawned, entry, bridge, closed, buffer, client, net⟩ := ran
  refine ⟨t, ⟨System.reachable_of_run reached ran, pc, spawned, entry, ?_, closed, buffer⟩, client, net⟩
  unfold Endpoint.Open
  rw [bridge]
  exact opens

/-- The client makes a bridge for such a connection and drops its entry again. -/
theorem Busy.forgotten {id : Nat} (busy : Busy s count) (select : s.client.pc = .select) (positive : id ≠ 0)
    (net : s.agent.net = briefMessages id) : ∃ t, Busy t count ∧ t.client.pc = .select ∧ t.agent.net = [] := by
  obtain ⟨reached, pc, spawned, entry, opens, closed, buffer⟩ := busy
  have ran : ∃ t, forward.run s [.clientTakes, .clientTakes, .client .deliver] = some t ∧
      t.agent = { s.agent with net := [] } ∧ t.client.pc = .select := by
    simp [briefMessages, System.run, forward, Forward.step, takes, clientHandle, Endpoint.spawn, Endpoint.route,
      Endpoint.step, Endpoint.deliver, Endpoint.setBridge, Endpoint.retain, CAPACITY, select, positive, net,
      Option.filter]
  obtain ⟨t, ran, agent, client⟩ := ran
  refine ⟨t, ?_, client, by rw [agent]⟩
  refine ⟨System.reachable_of_run reached ran, ?_, ?_, ?_, ?_, ?_, ?_⟩
  all_goals
    try unfold Endpoint.Open
    rw [agent]
    assumption

theorem busy_reached (low : 1 ≤ count) (high : count < 2 ^ 64) :
    ∃ s, Busy s count ∧ s.client.pc = .select ∧ s.agent.net = [] := by
  induction count, low using Nat.le_induction with
  | base =>
    obtain ⟨s, ran, busy⟩ : ∃ s, forward.run {} [.accept, .announce, .agent .transfer, .clientTakes] = some s ∧
        (s.agent.pc = .select ∧ s.agent.spawned = 1 ∧ s.agent.connections 1 = some 1 ∧
          (s.agent.bridge 1).pc = .select ∧ s.agent.closed = false ∧ s.agent.buffer = []) ∧
        s.client.pc = .select ∧ s.agent.net = [] := ⟨_, rfl, ⟨rfl, rfl, rfl, rfl, rfl, rfl⟩, rfl, rfl⟩
    obtain ⟨⟨pc, spawned, entry, bridge, closed, buffer⟩, rest⟩ := busy
    have opens : s.agent.Open 1 := by
      unfold Endpoint.Open
      rw [bridge]
      decide
    exact ⟨s, ⟨System.reachable_of_run (.start rfl) ran, pc, spawned, entry, opens, closed, buffer⟩, rest⟩
  | succ count low ih =>
    obtain ⟨s, busy, select, net⟩ := ih (Nat.lt_of_succ_lt high)
    obtain ⟨t, busy, client, messages⟩ := busy.brief low (Nat.lt_of_succ_lt high)
    rw [net] at messages
    refine busy.forgotten (by rw [client, select]) ?_ messages
    unfold connectionIdOf
    rw [Nat.mod_eq_of_lt high]
    exact Nat.succ_ne_zero count

/-- With that many connections behind it the counter gives out the number of one that is open. -/
theorem number_given_again : ∃ s t, forward.Reachable s ∧ s.agent.connections 1 = some 1 ∧ s.agent.Open 1 ∧
    forward.step s .accept = some t ∧ t.agent.connections 1 = some (2 ^ 64 + 1) := by
  obtain ⟨s, busy, _⟩ := @busy_reached (2 ^ 64 - 1) (by decide) (by decide)
  obtain ⟨t, busy, _⟩ := busy.brief (by decide) (by decide)
  obtain ⟨reached, pc, spawned, entry, opens, _⟩ := busy
  have last : t.agent.spawned = 2 ^ 64 := spawned.trans (by omega)
  have round : connectionIdOf (2 ^ 64 + 1) = 1 := by
    unfold connectionIdOf
    omega
  obtain ⟨agent, accepted, given⟩ : ∃ agent, t.agent.accept = some agent ∧
      agent.connections 1 = some (2 ^ 64 + 1) := by
    refine ⟨_, if_pos pc, ?_⟩
    dsimp only
    rw [last, round, Function.update_self]
  exact ⟨t, { t with agent }, reached, entry, opens, congrArg (Option.map _) accepted, given⟩

end Round

end Pbox.Reverse
