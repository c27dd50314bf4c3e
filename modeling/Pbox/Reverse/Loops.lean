import Pbox.Reverse.Ends

/-! The steps of the two loops: taking a message, making a bridge and announcing it. -/

namespace Pbox.Reverse

section Birth
variable {e x y : Endpoint} {index : Nat}

/-- One more bridge, with the entry that leads to it. -/
def Endpoint.bear (e : Endpoint) (loopPc : LoopPc) (pc : Pc) : Endpoint :=
  { e with
    pc := loopPc
    spawned := e.spawned + 1
    connections := Function.update e.connections (e.spawned + 1) (some (e.spawned + 1))
    bridge := Function.update e.bridge (e.spawned + 1) { id := e.spawned + 1, pc } }

variable {loopPc : LoopPc} {pc : Pc}

theorem bear_bridge (inv : Local e) (index : Nat) :
    ((e.bear loopPc pc).bridge index).emitted = (e.bridge index).emitted ∧
      ((e.bear loopPc pc).bridge index).taken = (e.bridge index).taken ∧
      ((e.bear loopPc pc).bridge index).input = (e.bridge index).input := by
  show (Function.update e.bridge (e.spawned + 1) _ index).emitted = _ ∧ _
  by_cases new : index = e.spawned + 1
  · rw [new, inv.unused _ (.inr (Nat.lt_succ_self _))]
    refine ⟨?_, ?_, ?_⟩
    · rw [Function.update_self]
    · show (Function.update e.bridge (e.spawned + 1) _ (e.spawned + 1)).taken = _
      rw [Function.update_self]
    · show (Function.update e.bridge (e.spawned + 1) _ (e.spawned + 1)).input = _
      rw [Function.update_self]
  · have old : (e.bear loopPc pc).bridge index = e.bridge index := Function.update_of_ne new _ _
    exact ⟨by rw [← old]; rfl, by rw [← old], by rw [← old]⟩

theorem Local.bear (inv : Local e) (quiet : pc = .unborn ∨ pc = .connecting)
    (idle : ∀ id index event, loopPc ≠ .delivering id index event) : Local (e.bear loopPc pc) where
  numbered index low high := by
    have high : index ≤ e.spawned + 1 := high
    show (Function.update e.bridge (e.spawned + 1) _ index).id = index
    by_cases new : index = e.spawned + 1
    · rw [new, Function.update_self]
    · rw [Function.update_of_ne new]
      exact inv.numbered index low (by omega)
  unused index outside := by
    have outside : index = 0 ∨ e.spawned + 1 < index := outside
    show Function.update e.bridge (e.spawned + 1) _ index = {}
    rw [Function.update_of_ne (by omega)]
    exact inv.unused index (by omega)
  entries id index entry := by
    have entry : Function.update e.connections (e.spawned + 1) (some (e.spawned + 1)) id = some index := entry
    show index = id ∧ 1 ≤ index ∧ index ≤ e.spawned + 1
    by_cases new : id = e.spawned + 1
    · rw [new, Function.update_self] at entry
      cases entry
      exact ⟨new.symm, by omega, by omega⟩
    · rw [Function.update_of_ne new] at entry
      have old := inv.entries id index entry
      exact ⟨old.1, old.2.1, by omega⟩
  held id index event pc := absurd pc (idle id index event)
  sane index := by
    show Sane e.closed (Function.update e.bridge (e.spawned + 1) _ index)
    by_cases new : index = e.spawned + 1
    · rw [new, Function.update_self]
      exact sane_fresh _ _ quiet
    · rw [Function.update_of_ne new]
      exact inv.sane index

theorem Lane.bear_sender (lane : Lane x y) (inv : Local x) : Lane (x.bear loopPc pc) y :=
  lane.sender (fun index => (bear_bridge inv index).1) (fun _ => rfl)

theorem Lane.bear_receiver (lane : Lane x y) (inv : Local y) (select : y.pc = .select)
    (idle : ∀ id index event, loopPc ≠ .delivering id index event) : Lane x (y.bear loopPc pc) := by
  have old {index : Nat} (other : index ≠ y.spawned + 1) : (y.bear loopPc pc).bridge index = y.bridge index :=
    Function.update_of_ne other _ _
  refine lane.receiver (fun index _ => ?_) (fun index => ?_) (fun index opens => ?_)
    (fun index _ => (bear_bridge inv index).2.1) (fun _ => ⟨by rw [select]; simp, fun index low high _ => ?_⟩)
  · rw [hand_idle (e := y) (by rw [select]; simp), hand_idle]
    exact idle
  · rw [(bear_bridge inv index).2.1, (bear_bridge inv index).2.2]
  · by_cases new : index = y.spawned + 1
    · unfold Endpoint.Open
      rw [inv.unused index (by omega)]
      simp
    · unfold Endpoint.Open at opens
      rwa [old new] at opens
  · have high : index ≤ y.spawned + 1 := high
    show Function.update y.connections (y.spawned + 1) (some (y.spawned + 1)) index = some index ∨ _
    by_cases new : index = y.spawned + 1
    · left
      rw [new, Function.update_self]
    · rw [Function.update_of_ne new]
      by_cases entry : y.connections index = some index
      · exact .inl entry
      · exact .inr ⟨by omega, entry⟩

theorem Local.retain (inv : Local e) (idle : ∀ id index event, e.pc ≠ .delivering id index event) :
    Local e.retain :=
  inv.shrink rfl rfl rfl (fun _ _ entry => (retain_entry.mp entry).1) idle

theorem Lane.retain (lane : Lane x y) : Lane x y.retain := by
  refine lane.receiver (fun _ _ => rfl) (fun _ => rfl) (fun _ opens => opens) (fun _ _ => rfl)
    (fun running => ⟨running, fun index low high opens => ?_⟩)
  by_cases entry : y.connections index = some index
  · exact .inl (retain_entry.mpr ⟨entry, opens⟩)
  · exact .inr ⟨high, entry⟩

/-- A loop that turns from one thing to another with nothing in hand. -/
theorem Lane.turn (lane : Lane x y) (idle : ∀ id index event, y.pc ≠ .delivering id index event)
    (running : y.pc ≠ .ended) (loopPc : LoopPc) (idle' : ∀ id index event, loopPc ≠ .delivering id index event)
    (buffer : List ReverseForwardEvent) : Lane x { y with pc := loopPc, buffer } := by
  refine lane.receiver (fun index _ => ?_) (fun _ => rfl) (fun _ opens => opens) (fun _ _ => rfl)
    (fun _ => ⟨running, fun index low high opens => ?_⟩)
  · rw [hand_idle idle, hand_idle]
    exact idle'
  · by_cases entry : y.connections index = some index
    · exact .inl entry
    · exact .inr ⟨high, entry⟩

end Birth

section Routing
variable {x y : Endpoint} {message : ReverseForwardEvent} {rest : List ReverseForwardEvent} {id index : Nat}
  {event : Event}

theorem messages_net (net : x.net = message :: rest) : x.messages = message :: { x with net := rest }.messages := by
  unfold Endpoint.messages
  rw [net]
  rfl

/-- Behind a full close nothing is on its way. -/
theorem Lane.nothing_behind (lane : Lane x y) (inv : Local x) (opens : y.Open index)
    (given : ∃ event ∈ (y.bridge index).taken ++ (y.bridge index).input, event.full = true) :
    onWay index x.messages = [] := by
  obtain ⟨event, member, full⟩ := given
  obtain ⟨front, back, shape⟩ := List.append_of_mem member
  obtain ⟨stage, valid, _⟩ := (inv.sane index).stage
  rw [lane.carried index opens, shape, List.append_assoc, List.append_assoc, List.cons_append] at valid
  have none := full_last valid full
  exact (List.append_eq_nil_iff.mp (List.append_eq_nil_iff.mp none).2).2

/-- A message that carries nothing for a connection leaves the stream. -/
theorem Lane.skip (lane : Lane x y) (net : x.net = message :: rest) (empty : message.item = none) :
    Lane { x with net := rest } y := by
  refine lane.sender (fun _ => rfl) (fun index => ?_)
  rw [messages_net net, onWay_none empty]

/-- The receiving loop takes an event for a connection. -/
theorem Lane.route (lane : Lane x y) (sender : Local x) (receiver : Local y) (select : y.pc = .select)
    (net : x.net = message :: rest) (item : message.item = some (id, event))
    (known : y.Open id → 1 ≤ id ∧ id ≤ y.spawned) : Lane { x with net := rest } (y.route id event) := by
  have idle : ∀ id target event, y.pc ≠ .delivering id target event := by
    rw [select]
    simp
  have messages := messages_net net
  unfold Endpoint.route
  split
  next target entry =>
    obtain ⟨rfl, low, high⟩ := receiver.entries id target entry
    refine ⟨fun index opens => ?_, fun index gone => lane.begun index gone, fun _ index low high opens =>
      lane.entered (by rw [select]; simp) index low high opens⟩
    have before := lane.carried index opens
    rw [hand_idle idle, List.append_nil, messages] at before
    show (x.bridge index).emitted = (y.bridge index).taken ++ (y.bridge index).input ++
      (if target = index then [event] else []) ++ _
    rw [before]
    by_cases own : target = index
    · subst own
      rw [onWay_own item, if_pos rfl]
      simp
    · rw [onWay_foreign item own, if_neg own, List.append_nil]
  next absent =>
    apply Lane.retain
    refine ⟨fun index opens => ?_, lane.begun, lane.entered⟩
    have before := lane.carried index opens
    rw [messages] at before
    by_cases own : id = index
    · subst own
      have range := known opens
      have given :=
        (lane.entered (by rw [select]; simp) id range.1 range.2 opens).resolve_left (by rw [absent]; simp)
      have none := lane.nothing_behind sender opens given
      rw [messages, onWay_own item] at none
      cases none
    · rwa [onWay_foreign item own] at before

theorem Local.route (inv : Local y) (select : y.pc = .select) (id : Nat) (event : Event) :
    Local (y.route id event) := by
  unfold Endpoint.route
  split
  next target entry =>
    refine ⟨inv.numbered, inv.unused, inv.entries, fun other index event pc => ?_, inv.sane⟩
    cases pc
    exact entry
  next => exact inv.retain (by rw [select]; simp)

/-- Taking an event changes no bridge and nothing of what the end sends. -/
theorem route_keeps (y : Endpoint) (id : Nat) (event : Event) : (y.route id event).bridge = y.bridge ∧
    (y.route id event).messages = y.messages ∧ (y.route id event).spawned = y.spawned ∧
    ∀ index, (y.route id event).pc = .announcing index → y.pc = .announcing index := by
  unfold Endpoint.route
  split
  · refine ⟨rfl, rfl, rfl, fun _ pc => ?_⟩
    cases pc
  · exact ⟨rfl, rfl, rfl, fun _ pc => pc⟩

theorem handle_item (item : message.item = some (id, event)) :
    agentHandle y message = y.route id event ∧ clientHandle y message = y.route id event := by
  unfold ReverseForwardEvent.item at item
  unfold agentHandle clientHandle
  split at item
  next same =>
    cases item
    rw [same]
    exact ⟨rfl, rfl⟩
  next same =>
    cases item
    rw [same]
    exact ⟨rfl, rfl⟩
  next => cases item

theorem handle_other (empty : message.item = none) : agentHandle y message = y.stop := by
  obtain ⟨id, event⟩ := message
  cases event with
  | none => rfl
  | some event =>
    cases event with
    | data | close => cases empty
    | listen | ready | connected => rfl

end Routing

section Announcing
variable {e f x y : Endpoint} {index : Nat}

/-- What the announcement of the newest bridge does. -/
theorem announce_cases (taken : e.announce = some f) : ∃ index, e.pc = .announcing index ∧ e.closed = false ∧
    f = Endpoint.retain { e.setBridge index { e.bridge index with pc := .select } with
      pc := .select
      buffer := e.buffer ++ [⟨connectionIdOf index, some (.connected true)⟩] } := by
  unfold Endpoint.announce at taken
  split at taken
  next index pc =>
    obtain ⟨next, pushed, rfl⟩ := Option.map_eq_some_iff.mp taken
    unfold Endpoint.push at pushed
    split at pushed
    next room =>
      cases pushed
      exact ⟨index, pc, room.1, rfl⟩
    next => cases pushed
  next => cases taken

theorem announceFails_cases (taken : e.announceFails = some f) : ∃ index, e.pc = .announcing index ∧
    e.closed = true ∧ f = (e.setBridge index { e.bridge index with pc := .ended }).stop := by
  unfold Endpoint.announceFails at taken
  split at taken
  next index pc closed =>
    cases taken
    exact ⟨index, pc, closed, rfl⟩
  next => cases taken

end Announcing

end Pbox.Reverse
