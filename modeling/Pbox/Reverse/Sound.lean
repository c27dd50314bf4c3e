import Pbox.Reverse.Loops

/-! The invariant of a reverse forward. Besides the two directions and the two ends it says which
numbers the stream from the agent announces, and that no event runs ahead of its announcement. -/

namespace Pbox.Reverse
open Pbox.Lib.Transition

section Announced

/-- The bridges that the client has when it has taken these messages, if it finds every number
announced before it is used and in turn. -/
def announcedBy : Nat → List ReverseForwardEvent → Option Nat
  | count, [] => some count
  | count, message :: rest =>
    match message.item with
    | some (id, _) => if 1 ≤ id ∧ id ≤ count then announcedBy count rest else none
    | none => if message = ⟨count + 1, some (.connected true)⟩ then announcedBy (count + 1) rest else none

variable {count announced id : Nat} {message : ReverseForwardEvent} {messages rest : List ReverseForwardEvent}
  {event : Event}

theorem announcedBy_append (back : List ReverseForwardEvent) :
    announcedBy count (messages ++ back) = (announcedBy count messages).bind (announcedBy · back) := by
  induction messages generalizing count with
  | nil => rfl
  | cons message messages ih =>
    rw [List.cons_append, announcedBy, announcedBy]
    cases message.item with
    | some owned =>
      dsimp only
      split
      · exact ih
      · rfl
    | none =>
      dsimp only
      split
      · exact ih
      · rfl

theorem announcedBy_item (item : message.item = some (id, event))
    (stream : announcedBy count (message :: rest) = some announced) :
    1 ≤ id ∧ id ≤ count ∧ announcedBy count rest = some announced := by
  rw [announcedBy, item] at stream
  dsimp only at stream
  split at stream
  next range => exact ⟨range.1, range.2, stream⟩
  next => cases stream

theorem announcedBy_none (empty : message.item = none)
    (stream : announcedBy count (message :: rest) = some announced) :
    message = ⟨count + 1, some (.connected true)⟩ ∧ announcedBy (count + 1) rest = some announced := by
  rw [announcedBy, empty] at stream
  dsimp only at stream
  split at stream
  next same => exact ⟨same, stream⟩
  next => cases stream

theorem announcedBy_le (stream : announcedBy count messages = some announced) : count ≤ announced := by
  induction messages generalizing count with
  | nil =>
    cases stream
    exact le_refl _
  | cons message messages ih =>
    cases item : message.item with
    | some owned => exact ih (announcedBy_item item stream).2.2
    | none => exact Nat.le_of_succ_le (ih (announcedBy_none item stream).2)

/-- An announcement on its way is of a number that the client has not seen. -/
theorem announcedBy_fresh (stream : announcedBy count messages = some announced) (member : message ∈ messages)
    (empty : message.item = none) : count < message.connectionId := by
  induction messages generalizing count with
  | nil => exact absurd member List.not_mem_nil
  | cons head messages ih =>
    rcases List.mem_cons.mp member with rfl | member
    · obtain ⟨same, _⟩ := announcedBy_none empty stream
      rw [same]
      exact Nat.lt_succ_self count
    · cases item : head.item with
      | some owned => exact ih (announcedBy_item item stream).2.2 member
      | none => exact Nat.lt_of_succ_lt (ih (announcedBy_none item stream).2 member)

theorem announcedBy_event (stream : announcedBy count messages = some announced) (low : 1 ≤ id)
    (high : id ≤ announced) (item : message.item = some (id, event)) :
    announcedBy count (messages ++ [message]) = some announced := by
  rw [announcedBy_append, stream, Option.bind_some, announcedBy, item]
  exact if_pos ⟨low, high⟩

theorem announcedBy_connected (stream : announcedBy count messages = some announced) :
    announcedBy count (messages ++ [⟨announced + 1, some (.connected true)⟩]) = some (announced + 1) := by
  rw [announcedBy_append, stream]
  exact if_pos rfl

end Announced

/-- The numbers that the agent has given out and announced. -/
structure Numbers (s : Forward) (announced : Nat) : Prop where
  stream : announcedBy s.client.spawned s.agent.messages = some announced
  behind : announced ≤ s.agent.spawned
  settled : (∀ index, s.agent.pc ≠ .announcing index) → s.agent.pc ≠ .ended → announced = s.agent.spawned
  announcing : ∀ index, s.agent.pc = .announcing index →
    index = s.agent.spawned ∧ s.agent.spawned = announced + 1 ∧ (s.agent.bridge index).pc = .unborn
  unborn : ∀ index, announced < index →
    (s.agent.bridge index).pc = .unborn ∨ (s.agent.bridge index).pc = .ended

structure Inv (s : Forward) : Prop where
  agent : Local s.agent
  client : Local s.client
  up : Lane s.agent s.client
  down : Lane s.client s.agent
  numbers : ∃ announced, Numbers s announced

theorem inv_init : Inv {} := by
  have ends : Local {} := {
    numbered := fun index low high => absurd (low.trans high) (by decide)
    unused := fun _ _ => rfl
    entries := fun _ _ entry => by cases entry
    held := fun _ _ _ pc => by cases pc
    sane := fun _ => sane_fresh 0 .unborn (.inl rfl) }
  have lane : Lane {} {} := {
    carried := fun _ _ => rfl
    begun := fun _ _ => List.prefix_refl _
    entered := fun _ index low high => absurd (low.trans high) (by decide) }
  have numbers : Numbers {} 0 := {
    stream := rfl
    behind := le_refl _
    settled := fun _ _ => rfl
    announcing := fun _ pc => by cases pc
    unborn := fun _ _ => .inl rfl }
  exact ⟨ends, ends, lane, lane, 0, numbers⟩

section Steps
variable {s t : Forward} {agent client : Endpoint} {announced : Nat}

theorem Numbers.client_le (numbers : Numbers s announced) : s.client.spawned ≤ s.agent.spawned :=
  (announcedBy_le numbers.stream).trans numbers.behind

theorem stepped_spawned {drops : Bool} {e f : Endpoint} (step : Stepped drops e f) : f.spawned = e.spawned := by
  cases step <;> rfl

/-- A step of the agent's end keeps the numbers. -/
theorem Numbers.stepped (numbers : Numbers s announced) (inv : Local s.agent) (step : Stepped false s.agent agent) :
    Numbers { s with agent } announced := by
  obtain ⟨stream, behind, settled, announcing, unborn⟩ := numbers
  have speaks {index : Nat} (born : (s.agent.bridge index).pc ≠ .unborn)
      (gone : (s.agent.bridge index).pc ≠ .ended) : index ≤ announced := by
    by_contra high
    exact (unborn index (by omega)).elim born gone
  have bridges {index : Nat} {b : Bridge} (early : index ≤ announced) (other : Nat) (late : announced < other) :
      ((s.agent.setBridge index b).bridge other).pc = .unborn ∨
        ((s.agent.setBridge index b).bridge other).pc = .ended := by
    rw [setBridge_of_ne (by omega)]
    exact unborn other late
  have waiting {index : Nat} {b : Bridge} (early : index ≤ announced) (newest : Nat)
      (pc : s.agent.pc = .announcing newest) :
      newest = s.agent.spawned ∧ s.agent.spawned = announced + 1 ∧
        ((s.agent.setBridge index b).bridge newest).pc = .unborn := by
    obtain ⟨last, next, unborn⟩ := announcing newest pc
    rw [setBridge_of_ne (by omega)]
    exact ⟨last, next, unborn⟩
  cases step with
  | acts index alive act c done =>
    have kept := act_kept done
    have early := speaks kept.born kept.before
    exact ⟨stream, behind, settled, waiting early, bridges early⟩
  | sends index event waits accepts =>
    obtain ⟨_, _, _, _, born, gone⟩ := sent_kept waits
    have range := inv.spawned born
    have early := speaks born gone
    refine ⟨?_, behind, settled, waiting early, bridges early⟩
    show announcedBy s.client.spawned (s.agent.net ++ (s.agent.buffer ++ [_])) = _
    rw [inv.numbered index range.1 range.2, ← List.append_assoc]
    exact announcedBy_event stream range.1 early ((inv.sane index).outgoing_item waits index)
  | givesUp index waits closed =>
    obtain ⟨_, _, _, _, born, gone⟩ := unsent_kept waits
    exact ⟨stream, behind, settled, waiting (speaks born gone), bridges (speaks born gone)⟩
  | transfers message rest buffer =>
    refine ⟨?_, behind, settled, announcing, unborn⟩
    show announcedBy s.client.spawned ((s.agent.net ++ [message]) ++ rest) = _
    rw [List.append_assoc]
    unfold Endpoint.messages at stream
    rwa [buffer] at stream
  | loses => exact ⟨stream, behind, settled, announcing, unborn⟩
  | bounces id index event pc gone =>
    exact ⟨stream, behind, fun _ _ => settled (by rw [pc]; simp) (by rw [pc]; simp),
      (fun _ pc => nomatch pc), unborn⟩
  | delivers id index event pc opened =>
    refine ⟨stream, behind, fun _ _ => settled (by rw [pc]; simp) (by rw [pc]; simp), (fun _ pc => nomatch pc),
      fun other late => ?_⟩
    have same : ((s.agent.setBridge index { s.agent.bridge index with
        input := (s.agent.bridge index).input ++ [event] }).bridge other).pc = (s.agent.bridge other).pc := by
      by_cases here : other = index
      · rw [here, setBridge_self]
      · rw [setBridge_of_ne here]
    show ((s.agent.setBridge index _).bridge other).pc = .unborn ∨
      ((s.agent.setBridge index _).bridge other).pc = .ended
    rw [same]
    exact unborn other late
  | stops pc => exact ⟨stream, behind, fun _ running => absurd rfl running, (fun _ pc => nomatch pc), unborn⟩

theorem Inv.agent_step (inv : Inv s) (step : Stepped false s.agent agent) : Inv { s with agent } where
  agent := inv.agent.stepped step
  client := inv.client
  up := inv.up.stepped_sender inv.agent step
  down := inv.down.stepped_receiver inv.agent step
  numbers := inv.numbers.imp fun _ numbers => numbers.stepped inv.agent step

theorem Inv.client_step (inv : Inv s) (step : Stepped true s.client client) : Inv { s with client } where
  agent := inv.agent
  client := inv.client.stepped step
  up := inv.up.stepped_receiver inv.client step
  down := inv.down.stepped_sender inv.client step
  numbers := by
    obtain ⟨announced, stream, behind, settled, announcing, unborn⟩ := inv.numbers
    rw [← stepped_spawned step] at stream
    exact ⟨announced, stream, behind, settled, announcing, unborn⟩

/-- A connection is accepted and gets the next number. -/
theorem Inv.accept (inv : Inv s) (taken : s.agent.accept = some agent) (small : agent.spawned < 2 ^ 64) :
    Inv { s with agent } := by
  unfold Endpoint.accept at taken
  split at taken
  next select =>
    have born : agent = s.agent.bear (.announcing (s.agent.spawned + 1)) .unborn := by
      cases taken
      have id : connectionIdOf (s.agent.spawned + 1) = s.agent.spawned + 1 := Nat.mod_eq_of_lt small
      rw [id]
      rfl
    obtain ⟨announced, numbers⟩ := inv.numbers
    have settled := numbers.settled (by rw [select]; simp) (by rw [select]; simp)
    rw [born]
    refine ⟨inv.agent.bear (.inl rfl) (by simp), inv.client, inv.up.bear_sender inv.agent,
      inv.down.bear_receiver inv.agent select (by simp), announced, numbers.stream, ?_, ?_, ?_, ?_⟩
    · exact Nat.le_succ_of_le numbers.behind
    · exact fun idle => absurd rfl (idle (s.agent.spawned + 1))
    · intro index pc
      cases pc
      refine ⟨rfl, congrArg (· + 1) settled.symm, ?_⟩
      show (Function.update s.agent.bridge (s.agent.spawned + 1) _ (s.agent.spawned + 1)).pc = .unborn
      rw [Function.update_self]
    · intro index late
      show (Function.update s.agent.bridge (s.agent.spawned + 1) _ index).pc = .unborn ∨
        (Function.update s.agent.bridge (s.agent.spawned + 1) _ index).pc = .ended
      by_cases new : index = s.agent.spawned + 1
      · left
        rw [new, Function.update_self]
      · rw [Function.update_of_ne new]
        exact numbers.unborn index late
  next => cases taken

/-- The newest bridge is announced and begins to run. -/
theorem Inv.announce (inv : Inv s) (taken : s.agent.announce = some agent) (small : s.agent.spawned < 2 ^ 64) :
    Inv { s with agent } := by
  obtain ⟨index, pc, accepts, rfl⟩ := announce_cases taken
  obtain ⟨announced, stream, behind, settled, announcing, unborn⟩ := inv.numbers
  obtain ⟨rfl, next, quiet⟩ := announcing index pc
  have id : connectionIdOf s.agent.spawned = s.agent.spawned := Nat.mod_eq_of_lt small
  have range : 1 ≤ s.agent.spawned ∧ s.agent.spawned ≤ s.agent.spawned := ⟨by omega, le_refl _⟩
  have opened : s.agent.Open s.agent.spawned := by
    unfold Endpoint.Open
    rw [quiet]
    simp
  have begun : Local (s.agent.setBridge s.agent.spawned { s.agent.bridge s.agent.spawned with pc := .select }) :=
    inv.agent.setBridge range rfl ((inv.agent.sane _).enter (.inl quiet))
  refine ⟨?_, inv.client, ?_, ?_, announced + 1, ?_, ?_, ?_, ?_, ?_⟩
  · exact begun.shrink rfl rfl rfl (fun _ _ entry => (retain_entry.mp entry).1) (fun _ _ _ pc => nomatch pc)
  · refine inv.up.sender (emitted_update rfl) (fun index => ?_)
    show onWay index (s.agent.net ++ (s.agent.buffer ++ [_])) = _
    rw [← List.append_assoc, onWay_append]
    exact List.append_nil _
  · have lane :=
      inv.down.receiver_bridge opened (b := { s.agent.bridge s.agent.spawned with pc := .select }) rfl (by simp)
    exact (lane.turn (by rw [show (s.agent.setBridge _ _).pc = s.agent.pc from rfl, pc]; simp)
      (by rw [show (s.agent.setBridge _ _).pc = s.agent.pc from rfl, pc]; simp) .select (by simp) _).retain
  · show announcedBy s.client.spawned (s.agent.net ++ (s.agent.buffer ++ [_])) = _
    rw [id, next, ← List.append_assoc]
    exact announcedBy_connected stream
  · exact next.symm.le
  · exact fun _ _ => next.symm
  · exact fun _ pc => nomatch pc
  · intro index late
    show ((s.agent.setBridge s.agent.spawned _).bridge index).pc = .unborn ∨
      ((s.agent.setBridge s.agent.spawned _).bridge index).pc = .ended
    rw [setBridge_of_ne (by omega)]
    exact unborn index (by omega)

theorem Inv.announceFails (inv : Inv s) (taken : s.agent.announceFails = some agent) : Inv { s with agent } := by
  obtain ⟨index, pc, closed, rfl⟩ := announceFails_cases taken
  obtain ⟨announced, stream, behind, settled, announcing, unborn⟩ := inv.numbers
  obtain ⟨rfl, next, quiet⟩ := announcing index pc
  have range : 1 ≤ s.agent.spawned ∧ s.agent.spawned ≤ s.agent.spawned := ⟨by omega, le_refl _⟩
  have opened : s.agent.Open s.agent.spawned := by
    unfold Endpoint.Open
    rw [quiet]
    simp
  have sane : Sane s.agent.closed { s.agent.bridge s.agent.spawned with pc := .ended } := by
    have before := inv.agent.sane s.agent.spawned
    rw [closed] at before ⊢
    exact before.leave (.inl rfl)
  have gone : Local (s.agent.setBridge s.agent.spawned { s.agent.bridge s.agent.spawned with pc := .ended }) :=
    inv.agent.setBridge range rfl sane
  have lane :
      Lane s.client (s.agent.setBridge s.agent.spawned { s.agent.bridge s.agent.spawned with pc := .ended }) :=
    inv.down.receiver_bridge opened rfl (fun _ => rfl)
  refine ⟨?_, inv.client, ?_, ?_, announced, stream, behind, fun _ running => absurd rfl running,
    (fun _ pc => nomatch pc), ?_⟩
  · exact gone.shrink rfl rfl rfl (fun _ _ entry => nomatch entry) (fun _ _ _ pc => nomatch pc)
  · exact inv.up.sender (emitted_update rfl) (fun _ => rfl)
  · refine lane.stop ?_
    rw [show (s.agent.setBridge _ _).pc = s.agent.pc from rfl, pc]
    simp
  · intro index late
    show ((s.agent.setBridge s.agent.spawned _).bridge index).pc = .unborn ∨
      ((s.agent.setBridge s.agent.spawned _).bridge index).pc = .ended
    by_cases here : index = s.agent.spawned
    · right
      rw [here, setBridge_self]
    · rw [setBridge_of_ne here]
      exact unborn index late

theorem takes_cases {handle : Endpoint → ReverseForwardEvent → Endpoint} {receiver sender : Endpoint}
    {next : Endpoint × Endpoint} (taken : takes handle receiver sender = some next) :
    ∃ message rest, receiver.pc = .select ∧ sender.net = message :: rest ∧
      next = (handle receiver message, { sender with net := rest }) := by
  unfold takes at taken
  split at taken
  next message rest select net =>
    cases taken
    exact ⟨message, rest, select, net, rfl⟩
  next => cases taken

theorem Local.net {e : Endpoint} (inv : Local e) (net : List ReverseForwardEvent) : Local { e with net } :=
  ⟨inv.numbered, inv.unused, inv.entries, inv.held, inv.sane⟩

/-- No event is for a bridge that the agent has not made. -/
theorem Inv.known_down {message : ReverseForwardEvent} {rest : List ReverseForwardEvent} {id : Nat} {event : Event}
    (inv : Inv s) (select : s.agent.pc = .select) (net : s.client.net = message :: rest)
    (item : message.item = some (id, event)) : 1 ≤ id ∧ id ≤ s.agent.spawned := by
  obtain ⟨announced, numbers⟩ := inv.numbers
  by_contra outside
  have agent := inv.agent.unused id (by omega)
  have client := inv.client.unused id (by have := numbers.client_le; omega)
  have opens : s.agent.Open id := by
    unfold Endpoint.Open
    rw [agent]
    simp
  have carried := inv.down.carried id opens
  rw [agent, client, hand_idle (by rw [select]; simp), messages_net net, onWay_own item] at carried
  cases carried

theorem Inv.agentTakes (inv : Inv s) (taken : takes agentHandle s.agent s.client = some (agent, client)) :
    Inv ⟨agent, client⟩ := by
  obtain ⟨message, rest, select, net, same⟩ := takes_cases taken
  cases same
  obtain ⟨announced, stream, behind, settled, announcing, unborn⟩ := inv.numbers
  cases item : message.item with
  | none =>
    rw [handle_other item]
    have stopped : Stepped false s.agent s.agent.stop := .stops select
    exact ⟨inv.agent.stepped stopped, inv.client.net rest,
      let lane := inv.up.stepped_sender inv.agent stopped; ⟨lane.carried, lane.begun, lane.entered⟩,
      (inv.down.skip net item).stepped_receiver inv.agent stopped,
      announced, stream, behind, fun _ running => absurd rfl running, (fun _ pc => nomatch pc), unborn⟩
  | some owned =>
    obtain ⟨id, event⟩ := owned
    rw [(handle_item item).1]
    obtain ⟨bridge, messages, spawned, pcs⟩ := route_keeps s.agent id event
    have range := inv.known_down select net item
    have up : Lane (s.agent.route id event) s.client := inv.up.sender (by simp [bridge]) (by simp [messages])
    have quiet : ∀ index, s.agent.pc ≠ .announcing index := by
      rw [select]
      simp
    refine ⟨inv.agent.route select id event, inv.client.net rest, ⟨up.carried, up.begun, up.entered⟩,
      inv.down.route inv.client inv.agent select net item (fun _ => range), announced, ?_, ?_, ?_, ?_, ?_⟩
    · show announcedBy s.client.spawned (s.agent.route id event).messages = _
      rw [messages, stream]
    · show announced ≤ (s.agent.route id event).spawned
      rw [spawned]
      exact behind
    · intro _ _
      show announced = (s.agent.route id event).spawned
      rw [spawned]
      exact settled quiet (by rw [select]; simp)
    · exact fun index pc => absurd (pcs index pc) (quiet index)
    · show ∀ index, announced < index → ((s.agent.route id event).bridge index).pc = .unborn ∨
        ((s.agent.route id event).bridge index).pc = .ended
      rw [bridge]
      exact unborn

theorem Inv.clientTakes (inv : Inv s) (taken : takes clientHandle s.client s.agent = some (client, agent)) :
    Inv ⟨agent, client⟩ := by
  obtain ⟨message, rest, select, net, same⟩ := takes_cases taken
  cases same
  obtain ⟨announced, stream, behind, settled, announcing, unborn⟩ := inv.numbers
  rw [messages_net net] at stream
  cases item : message.item with
  | none =>
    obtain ⟨rfl, later⟩ := announcedBy_none item stream
    have spawned : clientHandle s.client ⟨s.client.spawned + 1, some (.connected true)⟩ =
        (s.client.bear .select .connecting).retain := by
      unfold clientHandle Endpoint.spawn
      rw [if_pos (Nat.succ_ne_zero _)]
      unfold Endpoint.bear
      rw [← select]
    rw [spawned]
    have born : Lane (s.client.bear .select .connecting) s.agent := inv.down.bear_sender inv.client
    have down : Lane (s.client.bear .select .connecting).retain s.agent :=
      born.sender (fun _ => rfl) (fun _ => rfl)
    exact ⟨inv.agent.net rest, (inv.client.bear (.inr rfl) (by simp)).retain (by simp [Endpoint.bear]),
      ((inv.up.skip net item).bear_receiver inv.client select (by simp)).retain,
      ⟨down.carried, down.begun, down.entered⟩, announced, later, behind, settled, announcing, unborn⟩
  | some owned =>
    obtain ⟨id, event⟩ := owned
    obtain ⟨low, high, stream⟩ := announcedBy_item item stream
    rw [(handle_item item).2]
    obtain ⟨bridge, messages, spawned, _⟩ := route_keeps s.client id event
    have down : Lane (s.client.route id event) s.agent := inv.down.sender (by simp [bridge]) (by simp [messages])
    refine ⟨inv.agent.net rest, inv.client.route select id event,
      inv.up.route inv.agent inv.client select net item (fun _ => ⟨low, high⟩),
      ⟨down.carried, down.begun, down.entered⟩, announced, ?_, behind, settled, announcing, unborn⟩
    show announcedBy (s.client.route id event).spawned _ = _
    rw [spawned]
    exact stream

/-- Every step keeps the invariant as long as the counter of the agent has not come round. -/
theorem Inv.step (inv : Inv s) {a : Act} (taken : forward.step s a = some t) (small : t.agent.spawned < 2 ^ 64) :
    Inv t := by
  cases a with
  | agent act =>
    obtain ⟨agent, stepped, rfl⟩ := Option.map_eq_some_iff.mp taken
    exact inv.agent_step (step_cases stepped)
  | client act =>
    obtain ⟨client, stepped, rfl⟩ := Option.map_eq_some_iff.mp taken
    exact inv.client_step (step_cases stepped)
  | accept =>
    obtain ⟨agent, accepted, rfl⟩ := Option.map_eq_some_iff.mp taken
    exact inv.accept accepted small
  | announce =>
    obtain ⟨agent, announced, rfl⟩ := Option.map_eq_some_iff.mp taken
    obtain ⟨index, _, _, rfl⟩ := announce_cases announced
    exact inv.announce announced small
  | announceFails =>
    obtain ⟨agent, failed, rfl⟩ := Option.map_eq_some_iff.mp taken
    exact inv.announceFails failed
  | agentTakes =>
    obtain ⟨⟨agent, client⟩, took, rfl⟩ := Option.map_eq_some_iff.mp taken
    exact inv.agentTakes took
  | clientTakes =>
    obtain ⟨⟨client, agent⟩, took, rfl⟩ := Option.map_eq_some_iff.mp taken
    exact inv.clientTakes took

end Steps

end Pbox.Reverse
