import Pbox.Reverse.Lanes

/-! What each step of one end does to its own state and to both directions. The ends have these
steps in common: those of the bridges, of the outbound channel and the delivery to a queue. -/

namespace Pbox.Reverse
open Pbox.Lib.Multiplex

/-- The invariant of one end: bridges are numbered as their connections, the map leads to them, and
an event in the loop's hand is for a bridge of the map. -/
structure Local (e : Endpoint) : Prop where
  numbered : ∀ index, 1 ≤ index → index ≤ e.spawned → (e.bridge index).id = index
  unused : ∀ index, index = 0 ∨ e.spawned < index → e.bridge index = {}
  entries : ∀ id index, e.connections id = some index → index = id ∧ 1 ≤ index ∧ index ≤ e.spawned
  held : ∀ id index event, e.pc = .delivering id index event → e.connections id = some index
  sane : ∀ index, Sane e.closed (e.bridge index)

section Bridges
variable {e x y : Endpoint} {index other : Nat} {b : Bridge} {event : Event}

@[simp] theorem setBridge_self : (e.setBridge index b).bridge index = b := Function.update_self _ _ _

theorem setBridge_of_ne (different : other ≠ index) : (e.setBridge index b).bridge other = e.bridge other :=
  Function.update_of_ne different _ _

theorem setBridge_pc (same : b.pc = (e.bridge index).pc) :
    ((e.setBridge index b).bridge other).pc = (e.bridge other).pc := by
  by_cases here : other = index
  · rw [here, setBridge_self, same]
  · rw [setBridge_of_ne here]

/-- A bridge that has been born is one of those spawned. -/
theorem Local.spawned (inv : Local e) (born : (e.bridge index).pc ≠ .unborn) : 1 ≤ index ∧ index ≤ e.spawned := by
  by_contra outside
  have unused : index = 0 ∨ e.spawned < index := by omega
  rw [inv.unused index unused] at born
  exact born rfl

theorem Local.setBridge (inv : Local e) (range : 1 ≤ index ∧ index ≤ e.spawned) (id : b.id = (e.bridge index).id)
    (sane : Sane e.closed b) : Local (e.setBridge index b) where
  numbered other low high := by
    by_cases same : other = index
    · subst same
      rw [setBridge_self, id]
      exact inv.numbered other low high
    · rw [setBridge_of_ne same]
      exact inv.numbered other low high
  unused other outside := by
    have same : other ≠ index := by
      have outside : other = 0 ∨ e.spawned < other := outside
      omega
    rw [setBridge_of_ne same]
    exact inv.unused other outside
  entries := inv.entries
  held := inv.held
  sane other := by
    by_cases same : other = index
    · subst same
      rw [setBridge_self]
      exact sane
    · rw [setBridge_of_ne same]
      exact inv.sane other

theorem Sane.queue {closed : Bool} (sane : Sane closed b) (input : List Event) : Sane closed { b with input } :=
  ⟨sane.reads, sane.readsBegin, sane.readsAll, sane.writes, sane.writesBegin, sane.writesAll, sane.shut, sane.stage⟩

/-- What waits for room is data or a closing event. -/
theorem Sane.outgoing_item {closed : Bool} (sane : Sane closed b) (waits : b.outgoing = some event) (id : Nat) :
    ReverseForwardEvent.item ⟨id, some event⟩ = some (id, event) := by
  obtain ⟨stage, _, fits⟩ := sane.stage
  unfold Bridge.outgoing at waits
  unfold Bridge.Fits at fits
  split at waits
  next pc =>
    cases waits
    rw [pc] at fits
    have kind := fits.2
    split at kind
    · rw [kind]
      rfl
    · obtain ⟨data, rfl⟩ := kind
      rfl
  next =>
    cases waits
    rfl
  next => cases waits

end Bridges

section Common
variable {e f x x' y y' : Endpoint} {index : Nat} {drops : Bool}

/-- All that a common step can do. -/
inductive Stepped (drops : Bool) (e : Endpoint) : Endpoint → Prop
  | acts (index : Nat) (alive : Bool) (act : BridgeAct) (c : Bridge)
    (done : (e.bridge index).act alive act = some c) : Stepped drops e (e.setBridge index c)
  | sends (index : Nat) (event : Event) (waits : (e.bridge index).outgoing = some event)
    (accepts : e.closed = false) :
    Stepped drops e { e.setBridge index ((e.bridge index).sent event) with
      buffer := e.buffer ++ [⟨(e.bridge index).id, some event⟩] }
  | givesUp (index : Nat) (waits : (e.bridge index).outgoing.isSome = true) (closed : e.closed = true) :
    Stepped drops e (e.setBridge index (e.bridge index).unsent)
  | transfers (message : ReverseForwardEvent) (rest : List ReverseForwardEvent)
    (buffer : e.buffer = message :: rest) :
    Stepped drops e { e with buffer := rest, net := e.net ++ [message] }
  | loses : Stepped drops e { e with closed := true }
  | bounces (id index : Nat) (event : Event) (pc : e.pc = .delivering id index event)
    (gone : (e.bridge index).pc = .ended) :
    Stepped drops e { e with pc := .select, connections := Function.update e.connections id none }.retain
  | delivers (id index : Nat) (event : Event) (pc : e.pc = .delivering id index event)
    (opened : (e.bridge index).pc ≠ .ended) :
    Stepped drops e { e.setBridge index { e.bridge index with input := (e.bridge index).input ++ [event] } with
      pc := .select
      connections := if drops && event.full then Function.update e.connections id none
        else e.connections }.retain
  | stops (pc : e.pc = .select) : Stepped drops e e.stop

theorem step_cases {a : EndAct} (taken : e.step drops a = some f) : Stepped drops e f := by
  cases a with
  | bridge index act =>
    obtain ⟨c, done, rfl⟩ := Option.map_eq_some_iff.mp taken
    exact .acts index _ act c done
  | send index =>
    obtain ⟨event, waits, taken⟩ := Option.bind_eq_some_iff.mp taken
    obtain ⟨next, pushed, rfl⟩ := Option.map_eq_some_iff.mp taken
    unfold Endpoint.push at pushed
    split at pushed
    next room =>
      cases pushed
      exact .sends index event waits room.1
    next => cases pushed
  | sendFails index =>
    simp only [Endpoint.step] at taken
    split at taken
    next failed =>
      cases taken
      exact .givesUp index failed.2 failed.1
    next => cases taken
  | transfer =>
    simp only [Endpoint.step] at taken
    split at taken
    next message rest _ buffer =>
      cases taken
      exact .transfers message rest buffer
    next => cases taken
  | lose =>
    cases taken
    exact .loses
  | deliver =>
    simp only [Endpoint.step, Endpoint.deliver] at taken
    split at taken
    next id index event pc =>
      split at taken
      next gone =>
        cases taken
        exact .bounces id index event pc gone
      next opened =>
        split at taken
        · cases taken
          exact .delivers id index event pc opened
        · cases taken
    next => cases taken
  | stop =>
    simp only [Endpoint.step] at taken
    split at taken
    next pc =>
      cases taken
      exact .stops pc
    next => cases taken

theorem born_of_outgoing (waits : (e.bridge index).outgoing.isSome = true) : (e.bridge index).pc ≠ .unborn :=
  (unsent_kept waits).2.2.2.2.1

theorem retain_entry {id : Nat} :
    e.retain.connections id = some index ↔ e.connections id = some index ∧ e.Open index := by
  show (e.connections id).filter _ = some index ↔ _
  rw [Option.filter_eq_some_iff]
  simp [Endpoint.Open]

/-- A loop with nothing in hand may lose entries of its map. -/
theorem Local.shrink (inv : Local e) (bridge : f.bridge = e.bridge) (spawned : f.spawned = e.spawned)
    (closed : f.closed = e.closed)
    (fewer : ∀ id index, f.connections id = some index → e.connections id = some index)
    (idle : ∀ id index event, f.pc ≠ .delivering id index event) : Local f where
  numbered := by
    rw [bridge, spawned]
    exact inv.numbered
  unused := by
    rw [bridge, spawned]
    exact inv.unused
  entries id index entry := by
    rw [spawned]
    exact inv.entries id index (fewer id index entry)
  held id index event pc := absurd pc (idle id index event)
  sane := by
    rw [bridge, closed]
    exact inv.sane

theorem update_none {connections : Nat → Option Nat} {id other : Nat}
    (entry : Function.update connections id none other = some index) :
    other ≠ id ∧ connections other = some index := by
  by_cases same : other = id
  · rw [same, Function.update_self] at entry
    cases entry
  · rw [Function.update_of_ne same] at entry
    exact ⟨same, entry⟩

/-- What is left of the map behind a delivery. -/
theorem dropped_entry {connections : Nat → Option Nat} {id other : Nat} {drop : Bool}
    (entry : (if drop then Function.update connections id none else connections) other = some index) :
    connections other = some index := by
  split at entry
  · exact (update_none entry).2
  · exact entry

theorem Local.stepped (inv : Local e) (step : Stepped drops e f) : Local f := by
  cases step with
  | acts index alive act c done =>
    have kept := act_kept done
    exact inv.setBridge (inv.spawned kept.born) kept.id ((inv.sane index).act done)
  | sends index event waits accepts =>
    have born := born_of_outgoing (e := e) (by rw [waits]; rfl)
    have sane : Sane e.closed ((e.bridge index).sent event) := by
      have before := inv.sane index
      rw [accepts] at before ⊢
      exact before.sent waits
    obtain ⟨numbered, unused, entries, held, sane⟩ := inv.setBridge (inv.spawned born) (sent_kept waits).1 sane
    exact ⟨numbered, unused, entries, held, sane⟩
  | givesUp index waits closed =>
    have sane : Sane e.closed (e.bridge index).unsent := by
      have before := inv.sane index
      rw [closed] at before ⊢
      exact before.unsent
    exact inv.setBridge (inv.spawned (born_of_outgoing waits)) (unsent_kept waits).1 sane
  | transfers message rest buffer => exact ⟨inv.numbered, inv.unused, inv.entries, inv.held, inv.sane⟩
  | loses => exact ⟨inv.numbered, inv.unused, inv.entries, inv.held, fun index => (inv.sane index).lose⟩
  | bounces id index event pc gone =>
    refine inv.shrink rfl rfl rfl (fun other target entry => ?_) (fun _ _ _ pc => nomatch pc)
    exact (update_none (retain_entry.mp entry).1).2
  | delivers id index event pc opened =>
    have entry := inv.held id index event pc
    have range := inv.entries id index entry
    have queued := (inv.sane index).queue ((e.bridge index).input ++ [event])
    have filled : Local (e.setBridge index { e.bridge index with input := (e.bridge index).input ++ [event] }) :=
      inv.setBridge range.2 rfl queued
    refine filled.shrink rfl rfl rfl (fun other target entry => ?_) (fun _ _ _ pc => nomatch pc)
    exact dropped_entry (retain_entry.mp entry).1
  | stops pc => exact inv.shrink rfl rfl rfl (fun _ _ entry => nomatch entry) (fun _ _ _ pc => nomatch pc)

theorem emitted_update {b : Bridge} (same : b.emitted = (e.bridge index).emitted) (other : Nat) :
    ((e.setBridge index b).bridge other).emitted = (e.bridge other).emitted := by
  by_cases here : other = index
  · rw [here, setBridge_self, same]
  · rw [setBridge_of_ne here]

/-- A step of the sending end. -/
theorem Lane.stepped_sender (lane : Lane x y) (inv : Local x) (step : Stepped drops x x') : Lane x' y := by
  cases step with
  | acts index alive act c done => exact lane.sender (emitted_update (act_kept done).emitted) (fun _ => rfl)
  | sends index event waits accepts =>
    obtain ⟨_, emitted, _, _, born, _⟩ := sent_kept waits
    have range := inv.spawned born
    have id := inv.numbered index range.1 range.2
    have item := (inv.sane index).outgoing_item waits index
    have grows (other : Nat) : ((x.setBridge index ((x.bridge index).sent event)).bridge other).emitted =
          (x.bridge other).emitted ++ onWay other [⟨(x.bridge index).id, some event⟩] := by
      rw [id]
      by_cases here : other = index
      · subst here
        rw [setBridge_self, emitted]
        rw [onWay_own item]
        rfl
      · rw [setBridge_of_ne here]
        rw [onWay_foreign item (Ne.symm here)]
        exact (List.append_nil _).symm
    refine ⟨fun other opens => ?_, fun other gone => ?_, lane.entered⟩
    · show ((x.setBridge index ((x.bridge index).sent event)).bridge other).emitted =
        _ ++ onWay other (x.net ++ (x.buffer ++ [_]))
      have way : onWay other (x.net ++ x.buffer) = onWay other x.messages := rfl
      rw [grows, ← List.append_assoc, onWay_append, way, ← List.append_assoc, ← lane.carried other opens]
    · show _ <+: ((x.setBridge index ((x.bridge index).sent event)).bridge other).emitted
      rw [grows]
      exact (lane.begun other gone).trans (List.prefix_append _ _)
  | givesUp index waits closed => exact lane.sender (emitted_update (unsent_kept waits).2.1) (fun _ => rfl)
  | transfers message rest buffer =>
    refine lane.sender (fun _ => rfl) (fun index => ?_)
    show onWay index ((x.net ++ [message]) ++ rest) = onWay index (x.net ++ x.buffer)
    rw [buffer, List.append_assoc]
    rfl
  | loses => exact lane.sender (fun _ => rfl) (fun _ => rfl)
  | bounces => exact lane.sender (fun _ => rfl) (fun _ => rfl)
  | delivers index target event => exact lane.sender (emitted_update rfl) (fun _ => rfl)
  | stops => exact lane.sender (fun _ => rfl) (fun _ => rfl)

/-- One bridge of the receiving end steps and its queue stays as it is. -/
theorem Lane.receiver_bridge {b : Bridge} (lane : Lane x y) (opened : y.Open index)
    (queued : b.taken ++ b.input = (y.bridge index).taken ++ (y.bridge index).input)
    (gone : b.pc = .ended → b.taken = (y.bridge index).taken) : Lane x (y.setBridge index b) := by
  refine lane.receiver (fun _ _ => rfl) (fun other => ?_) (fun other opens => ?_) (fun other ended => ?_)
    (fun running => ⟨running, fun other low high opens => ?_⟩)
  · by_cases here : other = index
    · rw [here, setBridge_self, queued]
    · rw [setBridge_of_ne here]
  · by_cases here : other = index
    · rw [here]
      exact opened
    · unfold Endpoint.Open at opens
      rwa [setBridge_of_ne here] at opens
  · unfold Endpoint.Open at ended
    by_cases here : other = index
    · rw [here, setBridge_self] at ended ⊢
      exact gone (not_not.mp ended)
    · rw [setBridge_of_ne here]
  · by_cases entry : y.connections other = some other
    · exact .inl entry
    · exact .inr ⟨high, entry⟩

theorem hand_delivering {id target : Nat} {event : Event} (pc : e.pc = .delivering id target event) :
    e.hand index = if target = index then [event] else [] := by
  unfold Endpoint.hand
  rw [pc]

theorem hand_idle (idle : ∀ id target event, e.pc ≠ .delivering id target event) : e.hand index = [] := by
  unfold Endpoint.hand
  split
  next pc => exact absurd pc (idle _ _ _)
  next => rfl

/-- The receiving loop returns with nothing in hand. -/
theorem Lane.stop (lane : Lane x y) (idle : ∀ id index event, y.pc ≠ .delivering id index event) :
    Lane x y.stop := by
  refine lane.receiver (fun index _ => ?_) (fun _ => rfl) (fun _ opens => opens) (fun _ _ => rfl)
    (fun running => absurd rfl running)
  rw [hand_idle idle]
  rfl

section Deliveries
variable {id target : Nat} {event : Event}

/-- A delivery to a bridge that has ended. -/
theorem Lane.bounces (lane : Lane x y) (inv : Local y) (pc : y.pc = .delivering id target event)
    (gone : (y.bridge target).pc = .ended) :
    Lane x (Endpoint.retain { y with pc := .select, connections := Function.update y.connections id none }) := by
  have same := (inv.entries id target (inv.held id target event pc)).1
  refine lane.receiver (fun index opens => ?_) (fun _ => rfl) (fun _ opens => opens) (fun _ _ => rfl)
    (fun _ => ⟨by rw [pc]; simp, fun index low high opens => ?_⟩)
  · have other : target ≠ index := fun here => opens (here ▸ gone)
    rw [hand_delivering pc, if_neg other]
    rfl
  · by_cases entry : y.connections index = some index
    · left
      have other : index ≠ id := fun here => opens ((same.trans here.symm) ▸ gone)
      refine retain_entry.mpr ⟨?_, opens⟩
      show Function.update y.connections id none index = some index
      rw [Function.update_of_ne other, entry]
    · exact .inr ⟨high, entry⟩

/-- A delivery: the event goes from the hand of the loop to the end of the queue. -/
theorem Lane.delivers (lane : Lane x y) (inv : Local y) (pc : y.pc = .delivering id target event)
    (opened : (y.bridge target).pc ≠ .ended) :
    Lane x (Endpoint.retain
      { y.setBridge target { y.bridge target with input := (y.bridge target).input ++ [event] } with
        pc := .select
        connections := if drops && event.full then Function.update y.connections id none else y.connections }) := by
  have same := (inv.entries id target (inv.held id target event pc)).1
  let filled := { y.bridge target with input := (y.bridge target).input ++ [event] }
  have opens_iff (index : Nat) : (y.setBridge target filled).Open index ↔ y.Open index := by
    unfold Endpoint.Open
    rw [setBridge_pc (b := filled) rfl]
  refine ⟨fun index opens => ?_, fun index gone => ?_, fun _ index low high opens => ?_⟩
  · have before := lane.carried index ((opens_iff index).mp opens)
    show _ = ((y.setBridge target filled).bridge index).taken ++
      ((y.setBridge target filled).bridge index).input ++ [] ++ _
    rw [hand_delivering pc] at before
    by_cases here : index = target
    · subst here
      rw [if_pos rfl] at before
      rw [setBridge_self, before]
      simp [filled]
    · rw [if_neg (Ne.symm here)] at before
      rw [setBridge_of_ne here, before]
  · have here : index ≠ target := fun same => gone ((opens_iff index).mpr (same ▸ opened))
    show ((y.setBridge target filled).bridge index).taken <+: _
    rw [setBridge_of_ne here]
    exact lane.begun index fun opens => gone ((opens_iff index).mpr opens)
  · have opens' := (opens_iff index).mp opens
    by_cases here : index = target
    · subst here
      by_cases drop : (drops && event.full) = true
      · right
        show ∃ other ∈ ((y.setBridge index filled).bridge index).taken ++
          ((y.setBridge index filled).bridge index).input, other.full = true
        rw [setBridge_self]
        exact ⟨event, by simp [filled], (Bool.and_eq_true_iff.mp drop).2⟩
      · left
        refine retain_entry.mpr ⟨?_, opens⟩
        show (if (drops && event.full) = true then _ else y.connections) index = some index
        rw [if_neg drop]
        have entry := inv.held id index event pc
        rwa [← same] at entry
    · have queue : (y.setBridge target filled).bridge index = y.bridge index := setBridge_of_ne here
      rcases lane.entered (by rw [pc]; simp) index low high opens' with entry | full
      · left
        refine retain_entry.mpr ⟨?_, opens⟩
        show (if (drops && event.full) = true then Function.update y.connections id none
          else y.connections) index = some index
        split
        · rw [Function.update_of_ne (fun there => here (there.trans same.symm)), entry]
        · exact entry
      · right
        show ∃ other ∈ ((y.setBridge target filled).bridge index).taken ++
          ((y.setBridge target filled).bridge index).input, other.full = true
        rw [queue]
        exact full

end Deliveries

/-- A step of the receiving end. -/
theorem Lane.stepped_receiver (lane : Lane x y) (inv : Local y) (step : Stepped drops y y') : Lane x y' := by
  cases step with
  | acts index alive act c done =>
    have kept := act_kept done
    exact lane.receiver_bridge kept.before kept.queued (fun ended => absurd ended kept.after)
  | sends index event waits accepts =>
    obtain ⟨_, _, taken, input, _, opened⟩ := sent_kept waits
    obtain ⟨carried, begun, entered⟩ := lane.receiver_bridge (b := (y.bridge index).sent event) opened
      (by rw [taken, input]) (fun _ => taken)
    exact ⟨carried, begun, entered⟩
  | givesUp index waits closed =>
    obtain ⟨_, _, taken, input, _, opened⟩ := unsent_kept waits
    exact lane.receiver_bridge opened (by rw [taken, input]) (fun _ => taken)
  | transfers => exact ⟨lane.carried, lane.begun, lane.entered⟩
  | loses => exact ⟨lane.carried, lane.begun, lane.entered⟩
  | bounces id target event pc gone => exact lane.bounces inv pc gone
  | delivers id target event pc opened => exact lane.delivers inv pc opened
  | stops pc => exact lane.stop (by rw [pc]; simp)

end Common

end Pbox.Reverse
