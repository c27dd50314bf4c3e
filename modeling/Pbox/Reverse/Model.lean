import Mathlib.Algebra.Group.Nat.Defs
import Mathlib.Logic.Function.Basic
import Pbox.Lib.Transition
import Pbox.Reverse.Bridge

/-! A reverse forward: the loop of the agent's `serve`, the loop of the client's `run`, the bridges
that each of them has spawned, and the two streams between them. Both loops keep a map from
connection numbers to the queues of their bridges. -/

namespace Pbox.Reverse
open Pbox.Lib.Transition

structure ReverseForwardEvent where
  connectionId : Nat
  event : Option Event
  deriving DecidableEq, Repr

/-- The bound of the outbound channels and of the queues. -/
def CAPACITY : Nat := 32

/-- Where a loop stands: it awaits the send of a `Connected`, or of an event to a bridge. -/
inductive LoopPc where
  | select
  | announcing (index : Nat)
  | delivering (id index : Nat) (event : Event)
  | ended
  deriving DecidableEq

/-- One end. Bridges are numbered from one in the order they were made, and the map leads from
connection numbers to bridges. `buffer` is the outbound channel and `net` what the transport has
taken from it; `closed` says that the channel has lost its receiver. What a closed channel held
stays in the list, where nothing takes it. -/
structure Endpoint where
  pc : LoopPc := .select
  spawned : Nat := 0
  connections : Nat → Option Nat := fun _ => none
  bridge : Nat → Bridge := fun _ => {}
  buffer : List ReverseForwardEvent := []
  net : List ReverseForwardEvent := []
  closed : Bool := false

/-- `next_id` after this many accepted connections: a counter of 64 bits. -/
def connectionIdOf (index : Nat) : Nat := index % 2 ^ 64

inductive EndAct where
  | bridge (index : Nat) (act : BridgeAct)
  | send (index : Nat)
  | sendFails (index : Nat)
  | transfer
  | lose
  | deliver
  | stop
  deriving DecidableEq

namespace Endpoint

def setBridge (e : Endpoint) (index : Nat) (b : Bridge) : Endpoint :=
  { e with bridge := Function.update e.bridge index b }

/-- `connections.retain(|_, sender| !sender.is_closed())`. -/
def retain (e : Endpoint) : Endpoint :=
  { e with connections := fun id => (e.connections id).filter fun index => (e.bridge index).pc ≠ .ended }

/-- The loop returns and drops its map. -/
def stop (e : Endpoint) : Endpoint := { e with pc := .ended, connections := fun _ => none }

def push (e : Endpoint) (message : ReverseForwardEvent) : Option Endpoint :=
  if e.closed = false ∧ e.buffer.length < CAPACITY then some { e with buffer := e.buffer ++ [message] }
  else none

/-- Whether the queue of a bridge has a sender. -/
def alive (e : Endpoint) (index : Nat) : Bool := e.connections (e.bridge index).id = some index

/-- An event for a connection; a number without an entry is passed over. -/
def route (e : Endpoint) (id : Nat) (event : Event) : Endpoint :=
  match e.connections id with
  | some index => { e with pc := .delivering id index event }
  | none => e.retain

/-- The rest of the branch once the queue has room or has lost its receiver. The client drops an
entry behind a full close. -/
def deliver (dropsFull : Bool) (e : Endpoint) : Option Endpoint :=
  match e.pc with
  | .delivering id index event =>
    if (e.bridge index).pc = .ended then
      some { e with pc := .select, connections := Function.update e.connections id none }.retain
    else if (e.bridge index).input.length < CAPACITY then
      some { e.setBridge index { e.bridge index with input := (e.bridge index).input ++ [event] } with
        pc := .select
        connections := if dropsFull && event.full then Function.update e.connections id none
          else e.connections }.retain
    else none
  | _ => none

/-- The steps that both ends have in common. -/
def step (dropsFull : Bool) (e : Endpoint) : EndAct → Option Endpoint
  | .bridge index act => ((e.bridge index).act (e.alive index) act).map (e.setBridge index)
  | .send index =>
    (e.bridge index).outgoing.bind fun event =>
      (e.push ⟨(e.bridge index).id, some event⟩).map fun next =>
        next.setBridge index ((e.bridge index).sent event)
  | .sendFails index =>
    if e.closed = true ∧ (e.bridge index).outgoing.isSome then
      some (e.setBridge index (e.bridge index).unsent)
    else none
  | .transfer =>
    match e.closed, e.buffer with
    | false, message :: rest => some { e with buffer := rest, net := e.net ++ [message] }
    | _, _ => none
  | .lose => some { e with closed := true }
  | .deliver => e.deliver dropsFull
  | .stop => if e.pc = .select then some e.stop else none

end Endpoint

section Agent

/-- A connection is accepted and there is a permit for it. -/
def Endpoint.accept (e : Endpoint) : Option Endpoint :=
  if e.pc = .select then
    some { e with
      pc := .announcing (e.spawned + 1)
      spawned := e.spawned + 1
      connections := Function.update e.connections (connectionIdOf (e.spawned + 1)) (some (e.spawned + 1))
      bridge := Function.update e.bridge (e.spawned + 1) { id := connectionIdOf (e.spawned + 1) } }
  else none

def Endpoint.announce (e : Endpoint) : Option Endpoint :=
  match e.pc with
  | .announcing index =>
    (e.push ⟨connectionIdOf index, some (.connected true)⟩).map fun next =>
      { next.setBridge index { e.bridge index with pc := .select } with pc := .select }.retain
  | _ => none

/-- The channel has no receiver any more; the socket is dropped with its queue. -/
def Endpoint.announceFails (e : Endpoint) : Option Endpoint :=
  match e.pc, e.closed with
  | .announcing index, true => some (e.setBridge index { e.bridge index with pc := .ended }).stop
  | _, _ => none

/-- A message of the client. -/
def agentHandle (e : Endpoint) (message : ReverseForwardEvent) : Endpoint :=
  match message.event with
  | some (.data bytes) => e.route message.connectionId (.data bytes)
  | some (.close code halfClose) => e.route message.connectionId (.close code halfClose)
  | _ => e.stop

end Agent

section Client

def Endpoint.spawn (e : Endpoint) (id : Nat) : Endpoint :=
  { e with
    spawned := e.spawned + 1
    connections := Function.update e.connections id (some (e.spawned + 1))
    bridge := Function.update e.bridge (e.spawned + 1) { id, pc := .connecting } }.retain

/-- A message of the agent. -/
def clientHandle (e : Endpoint) (message : ReverseForwardEvent) : Endpoint :=
  match message.event with
  | some (.connected true) => if message.connectionId ≠ 0 then e.spawn message.connectionId else e.stop
  | some (.data bytes) => e.route message.connectionId (.data bytes)
  | some (.close code halfClose) => e.route message.connectionId (.close code halfClose)
  | _ => e.stop

end Client

structure Forward where
  agent : Endpoint := {}
  client : Endpoint := {}

inductive Act where
  | agent (act : EndAct)
  | client (act : EndAct)
  | accept
  | announce
  | announceFails
  | agentTakes
  | clientTakes
  deriving DecidableEq

/-- A loop takes the next message of the other end's stream. -/
def takes (handle : Endpoint → ReverseForwardEvent → Endpoint) (receiver sender : Endpoint) :
    Option (Endpoint × Endpoint) :=
  match receiver.pc, sender.net with
  | .select, message :: rest => some (handle receiver message, { sender with net := rest })
  | _, _ => none

def Forward.step (s : Forward) : Act → Option Forward
  | .agent act => (s.agent.step false act).map fun agent => { s with agent }
  | .client act => (s.client.step true act).map fun client => { s with client }
  | .accept => s.agent.accept.map fun agent => { s with agent }
  | .announce => s.agent.announce.map fun agent => { s with agent }
  | .announceFails => s.agent.announceFails.map fun agent => { s with agent }
  | .agentTakes => (takes agentHandle s.agent s.client).map fun (agent, client) => ⟨agent, client⟩
  | .clientTakes => (takes clientHandle s.client s.agent).map fun (client, agent) => ⟨agent, client⟩

def forward : System Forward Act where
  init s := s = {}
  step := Forward.step

end Pbox.Reverse
