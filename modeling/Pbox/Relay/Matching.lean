import Pbox.Relay.Server

/-! Agents and clients meet at most once. An entry of the waiting map is owned by the agent
whose registration it names, and its sender is in the map, with one client, or gone. -/

namespace Pbox.Relay.Matching
open Pbox.Lib.Strings Pbox.Lib.Transition Pbox.Lib.Maps Pbox.Relay.Server

/-- The invariant on the parts of a state that it speaks of. -/
structure InvAt (map : Waiting) (conn : Nat → Phase) (channel : Nat → Oneshot) : Prop where
  owner : ∀ route waiter, Assoc.find map route = some waiter →
    (conn waiter.agent).registration = some (route, waiter.generation)
  sameRoute : ∀ client route agent, (conn client).taken = some (route, agent) →
    (conn agent).registered = some route
  exclusive : ∀ first second route other agent, (conn first).taken = some (route, agent) →
    (conn second).taken = some (other, agent) → first = second
  unclaimed : ∀ client route other waiter, Assoc.find map route = some waiter →
    (conn client).taken ≠ some (other, waiter.agent)
  delivered : ∀ agent client, channel agent = .sent client →
    ∃ route, conn client = .handed route agent
  served : ∀ agent route generation client, conn agent = .serving route generation client →
    ∃ other, conn client = .handed other agent

abbrev Inv (s : Relay) : Prop := InvAt s.waiting s.conn s.channel

theorem initial_inv (maxConnections : Nat) : Inv (initial maxConnections) := by
  constructor <;> simp [initial, find_empty]

theorem registered_of_registration {phase : Phase} {route : Route} {generation : UInt64}
    (held : phase.registration = some (route, generation)) : phase.registered = some route := by
  cases phase <;> simp_all

section Steps
variable {map : Waiting} {conn : Nat → Phase} {channel : Nat → Oneshot} {id : Nat}

/-- A projection that the moving task keeps is kept everywhere. -/
theorem kept_everywhere {β : Type} (view : Phase → β) {phase : Phase}
    (same : view phase = view (conn id)) (other : Nat) :
    view (Function.update conn id phase other) = view (conn other) := by
  rw [Function.update_apply]
  split_ifs with here
  · rw [here, same]
  · rfl

/-- A task in a phase that the moving task is not in stays there. -/
theorem stays {other : Nat} {phase found : Phase} (was : conn other = found)
    (notHere : conn id ≠ found) : Function.update conn id phase other = found := by
  have different : other ≠ id := fun same => notHere (same ▸ was)
  rw [Function.update_of_ne different, was]

/-- A state in which every task keeps its part in what binds agents and clients. -/
theorem InvAt.keep {conn' : Nat → Phase} {channel' : Nat → Oneshot} (inv : InvAt map conn channel)
    (registration : ∀ a, (conn' a).registration = (conn a).registration)
    (registered : ∀ a, (conn' a).registered = (conn a).registered)
    (taken : ∀ a, (conn' a).taken = (conn a).taken)
    (delivered : ∀ agent client, channel' agent = .sent client →
      ∃ route, conn' client = .handed route agent)
    (served : ∀ agent route generation client, conn' agent = .serving route generation client →
      ∃ other, conn' client = .handed other agent) :
    InvAt map conn' channel' where
  owner route waiter present := (registration waiter.agent).trans (inv.owner route waiter present)
  sameRoute client route agent held :=
    (registered agent).trans (inv.sameRoute client route agent ((taken client).symm.trans held))
  exclusive first second route other agent one two :=
    inv.exclusive first second route other agent ((taken first).symm.trans one)
      ((taken second).symm.trans two)
  unclaimed client route other waiter present held :=
    inv.unclaimed client route other waiter present ((taken client).symm.trans held)
  delivered := delivered
  served := served

/-- A task that is not done handing over moves: what was delivered stays so. -/
theorem delivered_stays {phase : Phase} (inv : InvAt map conn channel)
    (resting : ∀ route agent, conn id ≠ .handed route agent) (agent client : Nat)
    (sent : channel agent = .sent client) :
    ∃ route, Function.update conn id phase client = .handed route agent := by
  obtain ⟨route, handed⟩ := inv.delivered agent client sent
  exact ⟨route, stays handed (resting route agent)⟩

theorem served_stays {phase : Phase} (inv : InvAt map conn channel)
    (resting : ∀ route agent, conn id ≠ .handed route agent)
    (unserving : ∀ route generation client, phase ≠ .serving route generation client)
    (agent : Nat) (route : Route) (generation : UInt64) (client : Nat)
    (serving : Function.update conn id phase agent = .serving route generation client) :
    ∃ other, Function.update conn id phase client = .handed other agent := by
  rw [Function.update_apply] at serving
  split_ifs at serving with here
  · exact absurd serving (unserving route generation client)
  · obtain ⟨other, handed⟩ := inv.served agent route generation client serving
    exact ⟨other, stays handed (resting other agent)⟩

theorem inv_moves {phase : Phase} (inv : InvAt map conn channel)
    (registration : phase.registration = (conn id).registration)
    (registered : phase.registered = (conn id).registered) (taken : phase.taken = (conn id).taken)
    (unserving : ∀ route generation client, phase ≠ .serving route generation client)
    (resting : ∀ route agent, conn id ≠ .handed route agent) :
    InvAt map (Function.update conn id phase) channel :=
  inv.keep (kept_everywhere Phase.registration registration)
    (kept_everywhere Phase.registered registered) (kept_everywhere Phase.taken taken)
    (delivered_stays inv resting) (served_stays inv resting unserving)

/-- Changing the channel of an agent whose sender one client holds. -/
theorem inv_released {route : Route} {agent : Nat} {phase : Phase} {state : Oneshot}
    (inv : InvAt map conn channel) (was : conn id = .holding route agent)
    (taken : phase.taken = some (route, agent)) (idle : phase.registered = none)
    (sends : ∀ client, state = .sent client → client = id ∧ phase = .handed route agent)
    (unserving : ∀ route generation client, phase ≠ .serving route generation client) :
    InvAt map (Function.update conn id phase) (Function.update channel agent state) := by
  have unregistered : phase.registration = (conn id).registration := by
    rw [was]
    cases phase <;> simp_all
  have resting : ∀ route agent, conn id ≠ .handed route agent := by simp [was]
  refine inv.keep (kept_everywhere Phase.registration unregistered)
    (kept_everywhere Phase.registered (by rw [was, idle]; rfl))
    (kept_everywhere Phase.taken (by rw [was, taken]; rfl)) (fun other client sent => ?_)
    (served_stays inv resting unserving)
  rw [Function.update_apply] at sent
  split_ifs at sent with here
  · obtain ⟨rfl, shape⟩ := sends client sent
    exact ⟨route, by rw [Function.update_self, shape, here]⟩
  · exact delivered_stays inv resting other client sent

theorem inv_takes {route : Route} {notified : Bool} {waiter : Waiter} (inv : InvAt map conn channel)
    (was : conn id = .enabled route notified) (found : Assoc.find map route = some waiter) :
    InvAt (map.erase route) (Function.update conn id (.holding route waiter.agent)) channel where
  owner other entry present := by
    obtain ⟨_, present⟩ := find_erase_iff.mp present
    have owned := inv.owner other entry present
    have different : entry.agent ≠ id := fun same => by simp [same, was] at owned
    rw [Function.update_of_ne different, owned]
  sameRoute client other agent taken := by
    have known : (conn agent).registered = some other := by
      rw [Function.update_apply] at taken
      split_ifs at taken with here
      · simp only [Phase.taken, Option.some.injEq, Prod.mk.injEq] at taken
        obtain ⟨rfl, rfl⟩ := taken
        exact registered_of_registration (inv.owner _ _ found)
      · exact inv.sameRoute client other agent taken
    have different : agent ≠ id := fun same => by simp [same, was] at known
    rw [Function.update_of_ne different, known]
  exclusive first second other third agent one two := by
    rw [Function.update_apply] at one two
    split_ifs at one two with here there there
    · rw [here, there]
    · simp only [Phase.taken, Option.some.injEq, Prod.mk.injEq] at one
      exact absurd (one.2 ▸ two) (inv.unclaimed second route third waiter found)
    · simp only [Phase.taken, Option.some.injEq, Prod.mk.injEq] at two
      exact absurd (two.2 ▸ one) (inv.unclaimed first route other waiter found)
    · exact inv.exclusive first second other third agent one two
  unclaimed client other third entry present taken := by
    obtain ⟨apart, present⟩ := find_erase_iff.mp present
    rw [Function.update_apply] at taken
    split_ifs at taken with here
    · simp only [Phase.taken, Option.some.injEq, Prod.mk.injEq] at taken
      have one := inv.owner _ _ present
      rw [← taken.2, inv.owner _ _ found] at one
      simp only [Option.some.injEq, Prod.mk.injEq] at one
      exact apart one.1.symm
    · exact inv.unclaimed client other third entry present taken
  delivered := delivered_stays inv (by simp [was])
  served := served_stays inv (by simp [was]) (by simp)

theorem inv_inserts {route : Route} {generation : UInt64} (inv : InvAt map conn channel)
    (was : conn id = .numbered route generation) :
    InvAt (map.insert route ⟨generation, id⟩) (Function.update conn id (.inserted route generation))
      (Function.update channel id .pending) where
  owner other entry present := by
    rcases find_insert_iff.mp present with ⟨rfl, rfl⟩ | ⟨_, present⟩
    · rw [Function.update_self]
      rfl
    · have owned := inv.owner other entry present
      have different : entry.agent ≠ id := fun same => by simp [same, was] at owned
      rw [Function.update_of_ne different, owned]
  sameRoute client other agent taken := by
    rw [kept_everywhere Phase.taken (by rw [was]; rfl)] at taken
    have known := inv.sameRoute client other agent taken
    have different : agent ≠ id := fun same => by simp [same, was] at known
    rw [Function.update_of_ne different, known]
  exclusive first second other third agent one two := by
    rw [kept_everywhere Phase.taken (by rw [was]; rfl)] at one two
    exact inv.exclusive first second other third agent one two
  unclaimed client other third entry present taken := by
    rw [kept_everywhere Phase.taken (by rw [was]; rfl)] at taken
    rcases find_insert_iff.mp present with ⟨rfl, rfl⟩ | ⟨_, present⟩
    · have known := inv.sameRoute client third id taken
      simp [was] at known
    · exact inv.unclaimed client other third entry present taken
  delivered agent client sent := by
    rw [Function.update_apply] at sent
    split_ifs at sent
    exact delivered_stays inv (by simp [was]) agent client sent
  served := served_stays inv (by simp [was]) (by simp)

theorem notify_views (phase : Phase) :
    phase.notify.registration = phase.registration ∧ phase.notify.registered = phase.registered ∧
      phase.notify.taken = phase.taken := by
  cases phase <;> exact ⟨rfl, rfl, rfl⟩

theorem notify_fixed {phase found : Phase} (shape : found.taken.isSome ∨ found.registration.isSome) :
    phase.notify = found ↔ phase = found := by
  cases phase with
  | enabled | parked => cases found <;> simp_all [Phase.notify]
  | _ => rfl

theorem inv_notified (inv : InvAt map conn channel) :
    InvAt map (fun other => (conn other).notify) channel := by
  refine inv.keep (fun other => (notify_views _).1) (fun other => (notify_views _).2.1)
    (fun other => (notify_views _).2.2) (fun agent client sent => ?_)
    fun agent route generation client serving => ?_
  · obtain ⟨route, handed⟩ := inv.delivered agent client sent
    exact ⟨route, by rw [handed]; rfl⟩
  · rw [notify_fixed (Or.inr rfl)] at serving
    obtain ⟨other, handed⟩ := inv.served agent route generation client serving
    exact ⟨other, by rw [handed]; rfl⟩

theorem inv_receives {route : Route} {generation : UInt64} {client : Nat}
    (inv : InvAt map conn channel) (was : conn id = .waiting route generation)
    (sent : channel id = .sent client) :
    InvAt map (Function.update conn id (.serving route generation client)) channel := by
  have resting : ∀ route agent, conn id ≠ .handed route agent := by simp [was]
  refine inv.keep (kept_everywhere Phase.registration (by rw [was]; rfl))
    (kept_everywhere Phase.registered (by rw [was]; rfl))
    (kept_everywhere Phase.taken (by rw [was]; rfl)) (delivered_stays inv resting)
    fun agent other number third serving => ?_
  rw [Function.update_apply] at serving
  split_ifs at serving with here
  · cases serving
    rw [here]
    exact delivered_stays inv resting id client sent
  · obtain ⟨fourth, handed⟩ := inv.served agent other number third serving
    exact ⟨fourth, stays handed (resting fourth agent)⟩

end Steps

/-- `remove_waiter` takes nothing but the entry of its own route and generation. -/
theorem find_removeWaiter_iff {map : Waiting} {boxId route : Route} {generation : UInt64}
    {waiter : Waiter} :
    Assoc.find (removeWaiter map boxId generation) route = some waiter ↔
      Assoc.find map route = some waiter ∧ ¬(route = boxId ∧ waiter.generation = generation) := by
  unfold removeWaiter
  cases found : Assoc.find map boxId with
  | none =>
    simp only
    constructor
    · intro present
      refine ⟨present, fun both => ?_⟩
      rw [both.1, found] at present
      cases present
    · exact fun both => both.1
  | some entry =>
    simp only
    split_ifs with matching
    · rw [find_erase_iff]
      constructor
      · exact fun both => ⟨both.2, fun same => both.1 same.1⟩
      · rintro ⟨present, other⟩
        refine ⟨fun same => other ⟨same, ?_⟩, present⟩
        rw [same, found, Option.some.injEq] at present
        rw [← present, matching]
    · constructor
      · intro present
        refine ⟨present, fun both => ?_⟩
        rw [both.1, found, Option.some.injEq] at present
        exact matching (by rw [present, both.2])
      · exact fun both => both.1

theorem inv_removes {map : Waiting} {conn : Nat → Phase} {channel : Nat → Oneshot} {id : Nat}
    {route : Route} {generation : UInt64} {permit : Bool} (inv : InvAt map conn channel)
    (was : conn id = .leaving route generation permit) :
    InvAt (removeWaiter map route generation) (Function.update conn id (.gone route generation))
      channel where
  owner other entry present := by
    obtain ⟨present, foreign⟩ := find_removeWaiter_iff.mp present
    have owned := inv.owner other entry present
    have different : entry.agent ≠ id := by
      intro same
      rw [same, was] at owned
      simp only [Phase.registration, Option.some.injEq, Prod.mk.injEq] at owned
      exact foreign ⟨owned.1.symm, owned.2.symm⟩
    rw [Function.update_of_ne different, owned]
  sameRoute client other agent taken := by
    rw [kept_everywhere Phase.taken (by rw [was]; rfl)] at taken
    rw [kept_everywhere Phase.registered (by rw [was]; rfl)]
    exact inv.sameRoute client other agent taken
  exclusive first second other third agent one two := by
    rw [kept_everywhere Phase.taken (by rw [was]; rfl)] at one two
    exact inv.exclusive first second other third agent one two
  unclaimed client other third entry present taken := by
    rw [kept_everywhere Phase.taken (by rw [was]; rfl)] at taken
    exact inv.unclaimed client other third entry (find_removeWaiter_iff.mp present).1 taken
  delivered := delivered_stays inv (by simp [was])
  served := served_stays inv (by simp [was]) (by simp)

/-- Without an agent to give the socket to, `hand` changes only the client's task. -/
theorem inv_hands {s : Relay} {id : Nat} {route : Route} {agent : Nat} (inv : Inv s)
    (was : s.conn id = .holding route agent) : Inv (hand s id route agent) := by
  unfold Inv hand
  by_cases open_ : (s.conn agent).receiving = true
  · simp only [open_, if_true]
    exact inv_released inv was rfl rfl (fun client same => by cases same; exact ⟨rfl, rfl⟩) (by simp)
  · simp only [open_, Bool.false_eq_true, if_false]
    exact inv_moves inv (by rw [was]; rfl) (by rw [was]; rfl) (by rw [was]; rfl) (by simp)
      (by simp [was])

theorem inv_effect {s t : Relay} (inv : Inv s) (effect : Effect s t) : Inv t := by
  cases effect with
  | moves _ id phase conn map channels registration registered taken _ unserving _ resting =>
    unfold Inv
    rw [conn, map, channels]
    exact inv_moves inv registration registered taken unserving resting
  | parks id route notified was =>
    exact inv_moves inv (by rw [was]; rfl) (by rw [was]; rfl) (by rw [was]; rfl) (by simp)
      (by simp [was])
  | takes id route notified waiter was found => exact inv_takes inv was found
  | hands id route agent was => exact inv_hands inv was
  | drops id route agent was => exact inv_released inv was rfl rfl (by simp) (by simp)
  | inserts id route generation was => exact inv_inserts inv was
  | notifies id route generation was =>
    refine inv_moves (inv_notified inv) ?_ ?_ ?_ (by simp) ?_ <;> simp [was, Phase.notify]
  | receives id route generation client was sent => exact inv_receives inv was sent
  | removes id route generation permit was => exact inv_removes inv was

/-- The client's task took the agent's sender out of the map. -/
def Given (s : Relay) (agent client : Nat) : Prop :=
  ∃ route, (s.conn client).taken = some (route, agent)

/-- The steps of one agent's task alone lead to a state whose map has no entry for the route. -/
def Clears (sys : System Relay Action) (agent : Nat) (route : Route) (s : Relay) : Prop :=
  ∃ actions t, (∀ a ∈ actions, a.id = agent) ∧ sys.run s actions = some t ∧
    Assoc.find t.waiting route = none

structure Matched (sys : System Relay Action) (s : Relay) : Prop where
  oneWaiter : ∀ route first second, Sigma.mk route first ∈ s.waiting.entries →
    Sigma.mk route second ∈ s.waiting.entries → first = second
  oneClient : ∀ agent first second, Given s agent first → Given s agent second → first = second
  oneAgent : ∀ client first second, Given s first client → Given s second client → first = second
  sameRoute : ∀ agent client route, (s.conn client).taken = some (route, agent) →
    (s.conn agent).registered = some route
  socket : ∀ agent client route generation, s.conn agent = .serving route generation client →
    Given s agent client
  removal : ∀ boxId generation route waiter, Assoc.find s.waiting route = some waiter →
    waiter.generation ≠ generation →
    Assoc.find (removeWaiter s.waiting boxId generation) route = some waiter
  owned : ∀ route waiter, Assoc.find s.waiting route = some waiter →
    (s.conn waiter.agent).registration = some (route, waiter.generation)
  unblocked : ∀ route waiter, Assoc.find s.waiting route = some waiter →
    Clears sys waiter.agent route s

theorem reachable_inv {authorisedConnection : Text → Text → Text → Bool} {maxConnections : Nat}
    {s : Relay} (reached : (system authorisedConnection maxConnections).Reachable s) : Inv s :=
  reached.invariant (fun _ start => start ▸ initial_inv maxConnections)
    (fun _ _ _ inv taken => inv_effect inv (step_effect taken))

section Progress
variable {authorisedConnection : Text → Text → Text → Bool} {maxConnections : Nat} {s t : Relay}
  {route : Route} {waiter : Waiter}

theorem Clears.before {sys : System Relay Action} {agent : Nat} {a : Action} (mine : a.id = agent)
    (taken : sys.step s a = some t) (rest : Clears sys agent route t) : Clears sys agent route s := by
  obtain ⟨actions, last, own, runs, empty⟩ := rest
  refine ⟨a :: actions, last, ?_, by simp [System.run, taken, runs], empty⟩
  intro b member
  rcases List.mem_cons.mp member with rfl | later
  · exact mine
  · exact own b later

theorem leaving_clears {permit : Bool} (found : Assoc.find s.waiting route = some waiter)
    (phase : s.conn waiter.agent = .leaving route waiter.generation permit) :
    Clears (system authorisedConnection maxConnections) waiter.agent route s := by
  refine ⟨[.removeWaiter waiter.agent], _, by simp,
    by simp only [System.run, system, step, phase, Option.bind_some]; rfl, ?_⟩
  change Assoc.find (removeWaiter s.waiting route waiter.generation) route = none
  rw [Option.eq_none_iff_forall_ne_some]
  intro other left
  obtain ⟨present, foreign⟩ := find_removeWaiter_iff.mp left
  rw [found, Option.some.injEq] at present
  exact foreign ⟨rfl, by rw [present]⟩

/-- An agent that can finish has nothing but its clean-up before it. -/
theorem finish_clears (found : Assoc.find s.waiting route = some waiter)
    (taken : (system authorisedConnection maxConnections).step s (.finish waiter.agent) =
      some (s.set waiter.agent (.leaving route waiter.generation true))) :
    Clears (system authorisedConnection maxConnections) waiter.agent route s :=
  .before rfl taken (leaving_clears found (Function.update_self ..))

theorem waiting_clears (found : Assoc.find s.waiting route = some waiter)
    (phase : s.conn waiter.agent = .waiting route waiter.generation) :
    Clears (system authorisedConnection maxConnections) waiter.agent route s := by
  apply finish_clears found
  simp only [system, step, phase]

theorem upgrading_clears (found : Assoc.find s.waiting route = some waiter)
    (phase : s.conn waiter.agent = .upgrading route waiter.generation) :
    Clears (system authorisedConnection maxConnections) waiter.agent route s := by
  have taken : (system authorisedConnection maxConnections).step s (.agentUpgrades waiter.agent) =
      some (s.set waiter.agent (.waiting route waiter.generation)) := by
    simp only [system, step, phase]
  exact .before rfl taken (waiting_clears found (Function.update_self ..))

theorem inserted_clears (found : Assoc.find s.waiting route = some waiter)
    (phase : s.conn waiter.agent = .inserted route waiter.generation) :
    Clears (system authorisedConnection maxConnections) waiter.agent route s := by
  have taken : (system authorisedConnection maxConnections).step s (.notifyWaiters waiter.agent) =
      some { s with
        conn := Function.update (fun other => (s.conn other).notify) waiter.agent
          (.upgrading route waiter.generation) } := by
    simp only [system, step, phase]
  exact .before rfl taken (upgrading_clears found (by simp only [Function.update_self]))

theorem serving_clears {client : Nat} (found : Assoc.find s.waiting route = some waiter)
    (phase : s.conn waiter.agent = .serving route waiter.generation client) :
    Clears (system authorisedConnection maxConnections) waiter.agent route s := by
  apply finish_clears found
  simp only [system, step, phase]

/-- The owner of an entry is somewhere between its insertion and its `remove_waiter`. -/
theorem inv_clears (inv : Inv s) (found : Assoc.find s.waiting route = some waiter) :
    Clears (system authorisedConnection maxConnections) waiter.agent route s := by
  have owned := inv.owner route waiter found
  cases phase : s.conn waiter.agent with
  | inserted r g =>
    simp only [phase, Phase.registration, Option.some.injEq, Prod.mk.injEq] at owned
    exact inserted_clears found (by rw [phase, owned.1, owned.2])
  | upgrading r g =>
    simp only [phase, Phase.registration, Option.some.injEq, Prod.mk.injEq] at owned
    exact upgrading_clears found (by rw [phase, owned.1, owned.2])
  | waiting r g =>
    simp only [phase, Phase.registration, Option.some.injEq, Prod.mk.injEq] at owned
    exact waiting_clears found (by rw [phase, owned.1, owned.2])
  | serving r g c =>
    simp only [phase, Phase.registration, Option.some.injEq, Prod.mk.injEq] at owned
    exact serving_clears found (by rw [phase, owned.1, owned.2])
  | leaving r g permit =>
    simp only [phase, Phase.registration, Option.some.injEq, Prod.mk.injEq] at owned
    exact leaving_clears found (by rw [phase, owned.1, owned.2])
  | _ => simp [phase] at owned

end Progress

/-- What the relay promises of every reachable state, under any order of its tasks' steps. -/
theorem reachable_matched (authorisedConnection : Text → Text → Text → Bool) (maxConnections : Nat)
    (s : Relay) (reached : (system authorisedConnection maxConnections).Reachable s) :
    Matched (system authorisedConnection maxConnections) s := by
  have inv := reachable_inv reached
  refine ⟨fun _ _ _ one two => entries_unique one two, ?_, ?_, ?_, ?_, ?_, inv.owner,
    fun _ _ found => inv_clears inv found⟩
  · rintro agent first second ⟨route, one⟩ ⟨other, two⟩
    exact inv.exclusive first second route other agent one two
  · rintro client first second ⟨route, one⟩ ⟨other, two⟩
    rw [one, Option.some.injEq, Prod.mk.injEq] at two
    exact two.2
  · exact fun agent client route given => inv.sameRoute client route agent given
  · intro agent client route generation serving
    obtain ⟨other, handed⟩ := inv.served agent route generation client serving
    exact ⟨other, by rw [handed]; rfl⟩
  · exact fun boxId generation route waiter found different =>
      find_removeWaiter_iff.mpr ⟨found, fun ⟨_, same⟩ => different same⟩

/-- One agent registered, one client handed over, and the route registered again. -/
def reuse : List Action :=
  [.request 0 "agent".toList "pbx_12345678".toList [], .number 0, .insert 0, .notifyWaiters 0,
    .agentUpgrades 0, .request 1 "client".toList "pbx_12345678".toList [], .enable 1, .check 1,
    .hand 1, .receive 0, .request 2 "agent".toList "pbx_12345678".toList [], .number 2, .insert 2,
    .finish 0, .removeWaiter 0]

theorem reuse_runs : ((system (fun _ _ _ => true) 2).run (initial 2) reuse).isSome = true := by
  decide

theorem reuse_matched : Matched (system (fun _ _ _ => true) 2)
    (((system (fun _ _ _ => true) 2).run (initial 2) reuse).get reuse_runs) :=
  reachable_matched _ _ _ (System.reachable_of_run (.start rfl) (Option.some_get _).symm)

end Pbox.Relay.Matching
