import Mathlib.Logic.Function.Basic
import Pbox.Core.Identity
import Pbox.Lib.Maps
import Pbox.Lib.Transition

/-! The relay server: every HTTP upgrade runs as its own task, and the tasks meet in the waiting
map, in the `available` notification and in one oneshot channel for each agent. An action is
what one task does between two points at which another task can run. -/

namespace Pbox.Relay.Server
set_option linter.dupNamespace false
open Pbox.Lib.Strings Pbox.Lib.Transition Pbox.Lib.Maps Pbox.Core.Identity

abbrev Route := Text

inductive StatusCode where
  | unauthorized
  | serviceUnavailable
  | conflict
  deriving DecidableEq, Repr

/-- An entry of the waiting map: a generation and the sending half of one agent's channel. -/
structure Waiter where
  generation : UInt64
  agent : Nat
  deriving DecidableEq

abbrev Waiting := Assoc Route Waiter

/-- A oneshot channel as its receiver sees it. -/
inductive Oneshot where
  | pending
  | sent (client : Nat)
  | dropped
  deriving DecidableEq

/-- How far the task of one connection has come. A client's task holds the sender of the agent
it took; an agent's task keeps the route and generation of its registration. -/
inductive Phase where
  | absent
  | refused (status : StatusCode)
  | looking (route : Route)
  | enabled (route : Route) (notified : Bool)
  | parked (route : Route) (notified : Bool)
  | holding (route : Route) (agent : Nat)
  | handed (route : Route) (agent : Nat)
  | failed (route : Route) (agent : Nat)
  | admitted (route : Route)
  | numbered (route : Route) (generation : UInt64)
  | inserted (route : Route) (generation : UInt64)
  | upgrading (route : Route) (generation : UInt64)
  | waiting (route : Route) (generation : UInt64)
  | serving (route : Route) (generation : UInt64) (client : Nat)
  | leaving (route : Route) (generation : UInt64) (permit : Bool)
  | gone (route : Route) (generation : UInt64)
  deriving DecidableEq

/-- The registration of an agent that has inserted an entry and not yet run `remove_waiter`. -/
@[simp] def Phase.registration : Phase → Option (Route × UInt64)
  | .inserted route generation | .upgrading route generation | .waiting route generation
  | .serving route generation _ | .leaving route generation _ => some (route, generation)
  | _ => none

/-- The route of an agent that has ever inserted an entry. -/
@[simp] def Phase.registered : Phase → Option Route
  | .inserted route _ | .upgrading route _ | .waiting route _ | .serving route _ _
  | .leaving route _ _ | .gone route _ => some route
  | _ => none

/-- The route of a client and the agent whose sender it took from the map. -/
@[simp] def Phase.taken : Phase → Option (Route × Nat)
  | .holding route agent | .handed route agent | .failed route agent => some (route, agent)
  | _ => none

/-- The agent's task still owns the receiving half of its channel. -/
def Phase.receiving : Phase → Bool
  | .inserted _ _ | .upgrading _ _ | .waiting _ _ => true
  | _ => false

/-- `notify_waiters` reaches every enabled future, parked or not, and no later one. -/
def Phase.notify : Phase → Phase
  | .enabled route _ => .enabled route true
  | .parked route _ => .parked route true
  | phase => phase

structure Relay where
  waiting : Waiting
  slots : Nat
  clients : Nat
  next : UInt64
  conn : Nat → Phase
  channel : Nat → Oneshot

def Relay.set (s : Relay) (id : Nat) (phase : Phase) : Relay :=
  { s with conn := Function.update s.conn id phase }

/-- `remove_waiter` under the lock of the map. -/
def removeWaiter (waiting : Waiting) (boxId : Route) (generation : UInt64) : Waiting :=
  match Assoc.find waiting boxId with
  | some waiter => if waiter.generation = generation then waiting.erase boxId else waiting
  | none => waiting

inductive Action where
  | request (id : Nat) (role boxId token : Text)
  | enable (id : Nat)
  | check (id : Nat)
  | wake (id : Nat)
  | timeout (id : Nat)
  | hand (id : Nat)
  | clientUpgradeFails (id : Nat)
  | number (id : Nat)
  | insert (id : Nat)
  | notifyWaiters (id : Nat)
  | agentUpgrades (id : Nat)
  | agentUpgradeFails (id : Nat)
  | receive (id : Nat)
  | finish (id : Nat)
  | removeWaiter (id : Nat)
  deriving DecidableEq

/-- The connection whose task takes the action. -/
@[simp] def Action.id : Action → Nat
  | .request id _ _ _ | .enable id | .check id | .wake id | .timeout id | .hand id
  | .clientUpgradeFails id | .number id | .insert id | .notifyWaiters id | .agentUpgrades id
  | .agentUpgradeFails id | .receive id | .finish id | .removeWaiter id => id

section Upgrade
variable (authorisedConnection : Text → Text → Text → Bool)

/-- The head of `upgrade`, up to the permit of the connection's role. -/
def request (s : Relay) (id : Nat) (role boxId token : Text) : Relay :=
  if (role ≠ "agent".toList ∧ role ≠ "client".toList) ∨ validRoute boxId = false ∨
      authorisedConnection role boxId token = false then s.set id (.refused .unauthorized)
  else if role = "client".toList then
    if s.clients = 0 then s.set id (.refused .serviceUnavailable)
    else { s.set id (.looking boxId) with clients := s.clients - 1 }
  else if s.slots = 0 then s.set id (.refused .serviceUnavailable)
  else { s.set id (.admitted boxId) with slots := s.slots - 1 }

/-- A client's turn with the map locked: it takes an entry of its route or parks. -/
def check (s : Relay) (id : Nat) (route : Route) (notified : Bool) : Relay :=
  match Assoc.find s.waiting route with
  | some waiter => { s.set id (.holding route waiter.agent) with waiting := s.waiting.erase route }
  | none => s.set id (.parked route notified)

/-- `sender.send(socket)`, which gives the socket back when the receiver is gone. -/
def hand (s : Relay) (id : Nat) (route : Route) (agent : Nat) : Relay :=
  { s.set id (.handed route agent) with
    clients := s.clients + 1
    channel := if (s.conn agent).receiving then Function.update s.channel agent (.sent id)
      else s.channel }

/-- An agent's turn with the map locked: a second agent of a route is refused. -/
def insert (s : Relay) (id : Nat) (route : Route) (generation : UInt64) : Relay :=
  if (Assoc.find s.waiting route).isSome then
    { s.set id (.refused .conflict) with slots := s.slots + 1 }
  else
    { s.set id (.inserted route generation) with
      waiting := s.waiting.insert route ⟨generation, id⟩
      channel := Function.update s.channel id .pending }

def step (s : Relay) : Action → Option Relay
  | .request id role boxId token =>
    if s.conn id = .absent then some (request authorisedConnection s id role boxId token) else none
  | .enable id =>
    match s.conn id with
    | .looking route => some (s.set id (.enabled route false))
    | _ => none
  | .check id =>
    match s.conn id with
    | .enabled route notified => some (check s id route notified)
    | _ => none
  | .wake id =>
    match s.conn id with
    | .parked route true => some (s.set id (.looking route))
    | _ => none
  | .timeout id =>
    match s.conn id with
    | .looking _ | .enabled _ _ | .parked _ _ =>
      some { s.set id (.refused .serviceUnavailable) with clients := s.clients + 1 }
    | _ => none
  | .hand id =>
    match s.conn id with
    | .holding route agent => some (hand s id route agent)
    | _ => none
  | .clientUpgradeFails id =>
    match s.conn id with
    | .holding route agent =>
      some { s.set id (.failed route agent) with
        clients := s.clients + 1
        channel := Function.update s.channel agent .dropped }
    | _ => none
  | .number id =>
    match s.conn id with
    | .admitted route => some { s.set id (.numbered route s.next) with next := s.next + 1 }
    | _ => none
  | .insert id =>
    match s.conn id with
    | .numbered route generation => some (insert s id route generation)
    | _ => none
  | .notifyWaiters id =>
    match s.conn id with
    | .inserted route generation =>
      some { s with
        conn := Function.update (fun other => (s.conn other).notify) id (.upgrading route generation) }
    | _ => none
  | .agentUpgrades id =>
    match s.conn id with
    | .upgrading route generation => some (s.set id (.waiting route generation))
    | _ => none
  | .agentUpgradeFails id =>
    match s.conn id with
    | .upgrading route generation =>
      some { s.set id (.leaving route generation false) with slots := s.slots + 1 }
    | _ => none
  | .receive id =>
    match s.conn id, s.channel id with
    | .waiting route generation, .sent client => some (s.set id (.serving route generation client))
    | _, _ => none
  | .finish id =>
    -- `wait_and_forward` returns: a closed channel, a heartbeat, a message, the deadline, or the
    -- end of a session.
    match s.conn id with
    | .waiting route generation | .serving route generation _ =>
      some (s.set id (.leaving route generation true))
    | _ => none
  | .removeWaiter id =>
    match s.conn id with
    | .leaving route generation permit =>
      some { s.set id (.gone route generation) with
        waiting := removeWaiter s.waiting route generation
        slots := if permit then s.slots + 1 else s.slots }
    | _ => none

/-- The server as `router` starts it. -/
def initial (maxConnections : Nat) : Relay :=
  { waiting := ∅, slots := maxConnections, clients := maxConnections, next := 0,
    conn := fun _ => .absent, channel := fun _ => .pending }

def system (maxConnections : Nat) : System Relay Action where
  init s := s = initial maxConnections
  step := step authorisedConnection

end Upgrade

/-- Everything a step can do, by what it changes. Steps that move one task and leave the map,
the registrations and the channels alone are `moves`. -/
inductive Effect (s : Relay) : Relay → Prop
  | moves (t : Relay) (id : Nat) (phase : Phase) (conn : t.conn = Function.update s.conn id phase)
      (map : t.waiting = s.waiting) (channels : t.channel = s.channel)
      (registration : phase.registration = (s.conn id).registration)
      (registered : phase.registered = (s.conn id).registered)
      (taken : phase.taken = (s.conn id).taken)
      (unparked : ∀ route, phase ≠ .parked route false)
      (unserving : ∀ route generation client, phase ≠ .serving route generation client)
      (started : ∀ route generation, s.conn id ≠ .inserted route generation)
      (resting : ∀ route agent, s.conn id ≠ .handed route agent) : Effect s t
  | parks (id : Nat) (route : Route) (notified : Bool) (was : s.conn id = .enabled route notified)
      (empty : Assoc.find s.waiting route = none) : Effect s (s.set id (.parked route notified))
  | takes (id : Nat) (route : Route) (notified : Bool) (waiter : Waiter)
      (was : s.conn id = .enabled route notified) (found : Assoc.find s.waiting route = some waiter) :
      Effect s { s.set id (.holding route waiter.agent) with waiting := s.waiting.erase route }
  | hands (id : Nat) (route : Route) (agent : Nat) (was : s.conn id = .holding route agent) :
      Effect s (hand s id route agent)
  | drops (id : Nat) (route : Route) (agent : Nat) (was : s.conn id = .holding route agent) :
      Effect s { s.set id (.failed route agent) with
        clients := s.clients + 1
        channel := Function.update s.channel agent .dropped }
  | inserts (id : Nat) (route : Route) (generation : UInt64)
      (was : s.conn id = .numbered route generation) (empty : Assoc.find s.waiting route = none) :
      Effect s { s.set id (.inserted route generation) with
        waiting := s.waiting.insert route ⟨generation, id⟩
        channel := Function.update s.channel id .pending }
  | notifies (id : Nat) (route : Route) (generation : UInt64)
      (was : s.conn id = .inserted route generation) :
      Effect s { s with
        conn := Function.update (fun other => (s.conn other).notify) id (.upgrading route generation) }
  | receives (id : Nat) (route : Route) (generation : UInt64) (client : Nat)
      (was : s.conn id = .waiting route generation) (sent : s.channel id = .sent client) :
      Effect s (s.set id (.serving route generation client))
  | removes (id : Nat) (route : Route) (generation : UInt64) (permit : Bool)
      (was : s.conn id = .leaving route generation permit) :
      Effect s { s.set id (.gone route generation) with
        waiting := removeWaiter s.waiting route generation
        slots := if permit then s.slots + 1 else s.slots }

theorem request_effect (authorisedConnection : Text → Text → Text → Bool) (s : Relay) (id : Nat)
    (role boxId token : Text) (fresh : s.conn id = .absent) :
    Effect s (request authorisedConnection s id role boxId token) := by
  unfold request
  split_ifs
  all_goals
    refine .moves _ id _ rfl rfl rfl ?_ ?_ ?_ ?_ ?_ ?_ ?_
  all_goals simp [fresh]

theorem insert_effect (s : Relay) (id : Nat) (route : Route) (generation : UInt64)
    (was : s.conn id = .numbered route generation) : Effect s (insert s id route generation) := by
  unfold insert
  split_ifs with occupied
  · refine .moves _ id _ rfl rfl rfl ?_ ?_ ?_ ?_ ?_ ?_ ?_
    all_goals simp [was]
  · exact .inserts id route generation was (by simpa using occupied)

theorem check_effect (s : Relay) (id : Nat) (route : Route) (notified : Bool)
    (was : s.conn id = .enabled route notified) : Effect s (check s id route notified) := by
  unfold check
  split
  next waiter found => exact .takes id route notified waiter was found
  next empty => exact .parks id route notified was empty

/-- Each action has one of the effects. -/
theorem step_effect {authorisedConnection : Text → Text → Text → Bool} {s t : Relay} {a : Action}
    (taken : step authorisedConnection s a = some t) : Effect s t := by
  cases a with
  | request id role boxId token =>
    simp only [step] at taken
    split at taken
    next fresh => cases taken; exact request_effect _ s id role boxId token fresh
    next => cases taken
  | check id =>
    simp only [step] at taken
    split at taken
    next route notified was => cases taken; exact check_effect s id route notified was
    next => cases taken
  | hand id =>
    simp only [step] at taken
    split at taken
    next route agent was => cases taken; exact .hands id route agent was
    next => cases taken
  | clientUpgradeFails id =>
    simp only [step] at taken
    split at taken
    next route agent was => cases taken; exact .drops id route agent was
    next => cases taken
  | insert id =>
    simp only [step] at taken
    split at taken
    next route generation was => cases taken; exact insert_effect s id route generation was
    next => cases taken
  | notifyWaiters id =>
    simp only [step] at taken
    split at taken
    next route generation was => cases taken; exact .notifies id route generation was
    next => cases taken
  | receive id =>
    simp only [step] at taken
    split at taken
    next route generation client was sent =>
      cases taken
      exact .receives id route generation client was sent
    next => cases taken
  | removeWaiter id =>
    simp only [step] at taken
    split at taken
    next route generation permit was => cases taken; exact .removes id route generation permit was
    next => cases taken
  | enable id | wake id | timeout id | number id | agentUpgrades id | agentUpgradeFails id
  | finish id =>
    simp only [step] at taken
    split at taken
    all_goals cases taken
    all_goals
      rename_i was
      refine .moves _ id _ rfl rfl rfl ?_ ?_ ?_ ?_ ?_ ?_ ?_
    all_goals simp [was]

end Pbox.Relay.Server
