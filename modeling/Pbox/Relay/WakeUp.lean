import Pbox.Relay.Matching

/-! No client sleeps through a registration. A client that parked saw no entry of its route with
its notification already enabled, so an entry it has not been told of was inserted later and
its registrar has yet to notify. -/

namespace Pbox.Relay.WakeUp
open Pbox.Lib.Strings Pbox.Lib.Transition Pbox.Lib.Maps Pbox.Relay.Server Pbox.Relay.Matching

/-- A registrar that still has its call of `notify_waiters` before it. -/
def NotifyOutstanding (s : Relay) (waiter : Waiter) (route : Route) : Prop :=
  s.conn waiter.agent = .inserted route waiter.generation

def InvAt (map : Waiting) (conn : Nat → Phase) : Prop :=
  ∀ client route waiter, conn client = .parked route false → Assoc.find map route = some waiter →
    conn waiter.agent = .inserted route waiter.generation

def Inv (s : Relay) : Prop := InvAt s.waiting s.conn

theorem initial_inv (maxConnections : Nat) : Inv (initial maxConnections) := by
  intro client route waiter parked
  simp [initial] at parked

section Steps
variable {map : Waiting} {conn : Nat → Phase} {id : Nat} {phase : Phase}

/-- A task that neither parks unnotified nor was about to notify keeps the invariant, also when
entries leave the map. -/
theorem inv_update {smaller : Waiting} (inv : InvAt map conn)
    (shrinks : ∀ route waiter, Assoc.find smaller route = some waiter →
      Assoc.find map route = some waiter)
    (unparked : ∀ route, phase ≠ .parked route false)
    (started : ∀ route generation, conn id ≠ .inserted route generation) :
    InvAt smaller (Function.update conn id phase) := by
  intro client route waiter parked found
  rw [Function.update_apply] at parked
  split_ifs at parked with here
  · exact absurd parked (unparked route)
  · exact stays (inv client route waiter parked (shrinks _ _ found)) (started _ _)

theorem inv_parks {route : Route} {notified : Bool} (inv : InvAt map conn)
    (was : conn id = .enabled route notified) (empty : Assoc.find map route = none) :
    InvAt map (Function.update conn id (.parked route notified)) := by
  intro client other waiter parked found
  rw [Function.update_apply] at parked
  split_ifs at parked with here
  · cases parked
    rw [empty] at found
    cases found
  · exact stays (inv client other waiter parked found) (by simp [was])

theorem inv_inserts {route : Route} {generation : UInt64} (inv : InvAt map conn)
    (was : conn id = .numbered route generation) :
    InvAt (map.insert route ⟨generation, id⟩) (Function.update conn id (.inserted route generation)) := by
  intro client other waiter parked found
  rw [Function.update_apply] at parked
  split_ifs at parked with here
  rcases find_insert_iff.mp found with ⟨rfl, rfl⟩ | ⟨_, found⟩
  · exact Function.update_self ..
  · exact stays (inv client other waiter parked found) (by simp [was])

/-- After `notify_waiters` no parked client is without a notification. -/
theorem inv_notifies {route : Route} {generation : UInt64} :
    InvAt map (Function.update (fun other => (conn other).notify) id (.upgrading route generation)) := by
  intro client other waiter parked _
  rw [Function.update_apply] at parked
  split_ifs at parked with here
  cases was : conn client <;> simp [was, Phase.notify] at parked

end Steps

theorem inv_effect {s t : Relay} (inv : Inv s) (effect : Effect s t) : Inv t := by
  have same : ∀ (route : Route) (waiter : Waiter), Assoc.find s.waiting route = some waiter →
      Assoc.find s.waiting route = some waiter := fun _ _ found => found
  cases effect with
  | moves _ id phase conn map _ _ _ _ unparked _ started _ =>
    unfold Inv
    rw [conn, map]
    exact inv_update inv same unparked started
  | parks id route notified was empty => exact inv_parks inv was empty
  | takes id route notified waiter was _ =>
    exact inv_update inv (fun _ _ found => (find_erase_iff.mp found).2) (by simp) (by simp [was])
  | hands id route agent was => exact inv_update inv same (by simp) (by simp [was])
  | drops id route agent was => exact inv_update inv same (by simp) (by simp [was])
  | inserts id route generation was _ => exact inv_inserts inv was
  | notifies => exact inv_notifies
  | receives id route generation client was _ => exact inv_update inv same (by simp) (by simp [was])
  | removes id route generation permit was =>
    exact inv_update inv (fun _ _ found => (find_removeWaiter_iff.mp found).1) (by simp) (by simp [was])

/-- No reachable state has a client parked without a notification while the map holds an entry
of its route whose registrar has already notified. -/
theorem reachable_no_missed_wake_up (authorisedConnection : Text → Text → Text → Bool)
    (maxConnections : Nat) (s : Relay)
    (reached : (system authorisedConnection maxConnections).Reachable s) :
    ¬∃ client route waiter, s.conn client = .parked route false ∧
      Assoc.find s.waiting route = some waiter ∧ ¬NotifyOutstanding s waiter route := by
  have inv : Inv s := reached.invariant (fun _ start => start ▸ initial_inv maxConnections)
    (fun _ _ _ inv taken => inv_effect inv (step_effect taken))
  rintro ⟨client, route, waiter, parked, found, notified⟩
  exact notified (inv client route waiter parked found)

/-- A client parks first and an agent registers while it sleeps. -/
def sleeper : List Action :=
  [.request 0 "client".toList "pbx_12345678".toList [], .enable 0, .check 0,
    .request 1 "agent".toList "pbx_12345678".toList [], .number 1, .insert 1]

theorem sleeper_runs : ((system (fun _ _ _ => true) 1).run (initial 1) sleeper).isSome = true := by
  decide

theorem sleeper_not_missed :
    ¬∃ client route waiter,
      (((system (fun _ _ _ => true) 1).run (initial 1) sleeper).get sleeper_runs).conn client =
          .parked route false ∧
        Assoc.find (((system (fun _ _ _ => true) 1).run (initial 1) sleeper).get sleeper_runs).waiting
          route = some waiter ∧
        ¬NotifyOutstanding
          (((system (fun _ _ _ => true) 1).run (initial 1) sleeper).get sleeper_runs) waiter route :=
  reachable_no_missed_wake_up _ _ _ (System.reachable_of_run (.start rfl) (Option.some_get _).symm)

end Pbox.Relay.WakeUp
