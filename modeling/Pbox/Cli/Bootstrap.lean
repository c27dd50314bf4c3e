import Pbox.Lib.Transition
import Pbox.Cli.BootstrapFiles
import Mathlib.Logic.Function.Basic

/-! `pbox new` over SSH and `pbox repair` for one box. Both work through the recovery directory and PVE;
each can be interrupted at any step, and a call that fails may have taken effect. -/

namespace Pbox.Cli.Bootstrap
open Pbox.Lib.Strings Pbox.Lib.Transition Pbox.Cli.BootstrapFiles

structure Place where
  node : Text
  vmid : UInt64
  deriving DecidableEq

/-- The container with the box's metadata. `cleaned` says whether the key is gone from the guest. -/
inductive Remote where
  | absent
  | creating (place : Place)
  | existing (place : Place) (cleaned : Bool)
  deriving DecidableEq

/-- The creation request that was sent last. While it is flying PVE may still carry it out, whatever the
client has heard of it. -/
inductive Request where
  | none
  | flying (place : Place)
  | accepted
  | rejected
  deriving DecidableEq

/-- What follows when a record has been saved. -/
inductive After where
  | request
  | await (place : Place)
  | address (place : Place)
  | mark (place : Place)
  | install (place : Place)
  | clean (place : Place)
  | remove
  | quit
  deriving DecidableEq

/-- Where `run_new` is. `saving` writes the record; `removing` is `remove_dir_all` under way. -/
inductive NewPc where
  | start
  | saving (operation : BootstrapOperation) (next : After)
  | ready (operation : BootstrapOperation)
  | requesting (operation : BootstrapOperation) (place : Place)
  | waiting (operation : BootstrapOperation) (place : Place)
  | addressing (operation : BootstrapOperation) (place : Place)
  | installing (operation : BootstrapOperation) (place : Place)
  | cleaning (operation : BootstrapOperation) (place : Place)
  | removing
  | ended
  deriving DecidableEq

/-- Where a `run_repair` is. -/
inductive RepairPc where
  | looking
  | loaded (key : BootstrapKey) (operation : BootstrapOperation)
  | working (key : BootstrapKey) (operation : BootstrapOperation) (place : Place)
  | saving (key : BootstrapKey) (operation : BootstrapOperation) (next : After)
  | installing (key : BootstrapKey) (operation : BootstrapOperation) (place : Place)
  | cleaning (key : BootstrapKey) (operation : BootstrapOperation) (direct : Bool)
  | removing
  | ended
  deriving DecidableEq

structure State where
  disk : Option Directory
  request : Request
  remote : Remote
  new : NewPc
  repairs : Nat → RepairPc

/-- The steps of `run_new`. -/
inductive NewAction where
  | generates
  | saves (written : Bool)
  | requests (place : Place)
  | unallocated
  | created
  | conflicts
  | errors
  | finishes (ok : Bool)
  | addresses (ip : Option (BitVec 32))
  | installs
  | cleans
  | unlinks (file : File)
  | removes
  | fails
  deriving DecidableEq

/-- The steps of a `run_repair`; `discovers` gives the box that discovery returned, if any. -/
inductive RepairAction where
  | looks
  | discovers (seen : Option Place)
  | branches (agent : Bool) (ip : BitVec 32)
  | saves (written : Bool)
  | installs
  | cleans
  | unlinks (file : File)
  | removes
  | fails
  deriving DecidableEq

inductive Action where
  | new (action : NewAction)
  | repair (process : Nat) (action : RepairAction)
  /-- PVE and other clients; `cleanedUnseen` is a cleanup of the guest whose reply is lost. -/
  | accepts
  | rejects
  | completes
  | collapses
  | destroyed
  | cleanedUnseen
  deriving DecidableEq

/-- What does not change: the box, the node it is created on, its key, and the other directories. -/
structure Settings where
  boxId : Text
  node : Text
  port : UInt16
  publicKey : Text
  process : Nat
  stamp : Nat
  others : List Directory

section Model
variable (settings : Settings)

def key : BootstrapKey := generate settings.boxId settings.publicKey settings.process settings.stamp

def firstOperation : BootstrapOperation :=
  .new settings.boxId settings.node settings.port (key settings).remoteStage

/-- The container that PVE finds, when it is complete. -/
def Remote.place? : Remote → Option Place
  | .existing place _ => some place
  | _ => none

def State.goes (s : State) (new : NewPc) : State := { s with new }

def State.turns (s : State) (r : Nat) (pc : RepairPc) : State :=
  { s with repairs := Function.update s.repairs r pc }

/-- The guest's key is removed where the container is. -/
def Remote.clean : Remote → Remote
  | .existing place _ => .existing place true
  | other => other

/-- `run_new` after a record has been written, or could not be. -/
def afterNew (operation : BootstrapOperation) : After → NewPc
  | .request => .ready operation
  | .await place => .waiting operation place
  | .address place => .addressing operation place
  | .mark place => .saving { operation with phase := BOOTSTRAPPING } (.install place)
  | .install place => .installing operation place
  | .clean place => .cleaning operation place
  | .remove => .removing
  | .quit => .ended

def newStep (s : State) : NewAction → Option State
  | .generates =>
    match s.new with
    | .start => some { s with disk := some ⟨true, some settings.publicKey, none⟩
                              new := .saving (firstOperation settings) .request }
    | _ => none
  | .saves written =>
    match s.new with
    | .saving operation next =>
      match written, saveOperation (key settings) operation s.disk with
      | true, .ok directory => some { s with disk := some directory, new := afterNew operation next }
      | true, .error _ => none
      -- the key of a record that could not be written is removed when nothing was requested yet
      | false, _ => some (s.goes (if next = .request then .removing else .ended))
    | _ => none
  | .requests place =>
    match s.new with
    | .ready operation =>
      if place.node = settings.node then
        some { s with request := .flying place, new := .requesting operation place }
      else none
    | _ => none
  | .unallocated =>
    match s.new with
    | .ready _ => some (s.goes .removing)
    | _ => none
  | .created =>
    match s.new with
    | .requesting operation place =>
      if s.request = .accepted then
        some (s.goes (.saving { operation with vmid := some place.vmid, phase := CONTAINER_CREATED } (.await place)))
      else none
    | _ => none
  | .conflicts =>
    match s.new with
    | .requesting operation _ => if s.request = .rejected then some (s.goes (.ready operation)) else none
    | _ => none
  | .errors =>
    match s.new with
    | .requesting _ _ => some (s.goes .removing)
    | _ => none
  | .finishes ok =>
    match s.new with
    | .waiting operation place =>
      some (s.goes (if ok then .saving { operation with phase := CONTAINER_RUNNING } (.address place)
        else .saving { operation with phase := CONTAINER_CREATE_TASK } .quit))
    | _ => none
  | .addresses ip =>
    match s.new with
    | .addressing operation place =>
      some (s.goes (match ip with
        | some ip => .saving { operation with ip := some ip, phase := IP_DISCOVERED } (.mark place)
        | none => .saving { operation with phase := IP_DISCOVERY } .quit))
    | _ => none
  | .installs =>
    match s.new with
    | .installing operation place => some (s.goes (.saving { operation with phase := AGENT_READY } (.clean place)))
    | _ => none
  | .cleans =>
    match s.new, s.remote with
    | .cleaning operation _, .existing place _ =>
      some { s with remote := .existing place true
                    new := .saving { operation with phase := GUEST_CLEANED } .remove }
    | _, _ => none
  | .unlinks file =>
    match s.new with
    | .removing => some { s with disk := unlink s.disk file }
    | _ => none
  | .removes =>
    match s.new with
    | .removing => some { s with disk := rmdir s.disk, new := .ended }
    | _ => none
  | .fails => some (s.goes .ended)

/-- What `run_repair` makes of the box that discovery returned. -/
def found (key : BootstrapKey) (operation : BootstrapOperation) : Option Place → RepairPc
  | some place =>
    if operation.vmid.all (· = place.vmid) ∧ (operation.vmid.isSome → place.node = operation.node) then
      .working key operation place
    else .ended
  | none => if operation.vmid.isSome then .ended else .removing

/-- The branch on the recorded phase. -/
def branch (key : BootstrapKey) (operation : BootstrapOperation) (place : Place) (agent : Bool) (ip : BitVec 32) :
    RepairPc :=
  if operation.phase = GUEST_CLEANED then if agent then .cleaning key operation true else .ended
  else
    let known := { operation with node := place.node, vmid := some place.vmid, ip := some ip, port := settings.port }
    if operation.phase = AGENT_READY ∧ agent then .cleaning key known false
    else .saving key { known with phase := REPAIRING } (.install place)

def afterRepair (key : BootstrapKey) (operation : BootstrapOperation) : After → RepairPc
  | .install place => .installing key operation place
  | .clean _ => .cleaning key operation false
  | .remove => .removing
  | _ => .ended

def repairStep (s : State) (r : Nat) : RepairAction → Option State
  | .looks =>
    match s.repairs r with
    | .looking =>
      some (s.turns r (match findPending settings.boxId (s.disk.toList ++ settings.others) with
        | .ok (some (key, operation)) => if operation.relay then .ended else .loaded key operation
        | _ => .ended))
    | _ => none
  | .discovers seen =>
    match s.repairs r with
    | .loaded key operation =>
      -- a complete container is always seen, one that is being created is not running
      if s.remote.place? = seen then some (s.turns r (found key operation seen)) else none
    | _ => none
  | .branches agent ip =>
    match s.repairs r with
    | .working key operation place => some (s.turns r (branch settings key operation place agent ip))
    | _ => none
  | .saves written =>
    match s.repairs r with
    | .saving key operation next =>
      match written, saveOperation key operation s.disk with
      | true, .ok directory => some { s.turns r (afterRepair key operation next) with disk := some directory }
      | true, .error _ => none
      | false, _ => some (s.turns r .ended)
    | _ => none
  | .installs =>
    match s.repairs r with
    | .installing key operation place =>
      some (s.turns r (.saving key { operation with phase := AGENT_READY } (.clean place)))
    | _ => none
  | .cleans =>
    match s.repairs r, s.remote with
    | .cleaning key operation direct, .existing place _ =>
      some { s.turns r (if direct then .removing
        else .saving key { operation with phase := GUEST_CLEANED } .remove) with remote := .existing place true }
    | _, _ => none
  | .unlinks file =>
    match s.repairs r with
    | .removing => some { s with disk := unlink s.disk file }
    | _ => none
  | .removes =>
    match s.repairs r with
    | .removing => some { s.turns r .ended with disk := rmdir s.disk }
    | _ => none
  | .fails => some (s.turns r .ended)

def step (s : State) : Action → Option State
  | .new action => newStep settings s action
  | .repair r action => repairStep settings s r action
  | .accepts =>
    match s.request with
    | .flying place => some { s with request := .accepted, remote := .creating place }
    | _ => none
  | .rejects =>
    match s.request with
    | .flying _ => some { s with request := .rejected }
    | _ => none
  | .completes =>
    match s.remote with
    | .creating place => some { s with remote := .existing place false }
    | _ => none
  | .collapses =>
    match s.remote with
    | .creating _ => some { s with remote := .absent }
    | _ => none
  | .destroyed =>
    match s.remote with
    | .existing _ _ => some { s with remote := .absent }
    | _ => none
  | .cleanedUnseen => some { s with remote := s.remote.clean }

/-- Nothing has been done for the box. -/
structure Initial (s : State) : Prop where
  disk : s.disk = none
  remote : s.request = .none ∧ s.remote = .absent
  processes : s.new = .start ∧ ∀ r, s.repairs r = .looking

def system : System State Action := ⟨Initial, step settings⟩

end Model

end Pbox.Cli.Bootstrap
