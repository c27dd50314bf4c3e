import Pbox.Lib.Numerals
import Pbox.Core.Id
import Pbox.Cli.RecipeApply

/-! The recovery directory of a bootstrap: the key pair and the record of the operation, as they are
written, read back and removed. -/

namespace Pbox.Cli.BootstrapFiles
open Pbox.Lib.Strings Pbox.Lib.Numerals Pbox.Core.Id Pbox.Cli.RecipeApply

def OPERATION_SCHEMA : Nat := 1

structure BootstrapOperation where
  schema : Nat
  boxId : Text
  node : Text
  vmid : Option UInt64
  ip : Option (BitVec 32)
  port : UInt16
  stage : Text
  phase : Text
  relay : Bool
  relayTemplate : Option Text
  relayTask : Option Text
  deriving DecidableEq

def CREATED : Text := "created".toList
def CONTAINER_CREATE_TASK : Text := "container-create-task".toList
def CONTAINER_CREATED : Text := "container-created".toList
def CONTAINER_RUNNING : Text := "container-running".toList
def IP_DISCOVERY : Text := "ip-discovery".toList
def IP_DISCOVERED : Text := "ip-discovered".toList
def BOOTSTRAPPING : Text := "bootstrapping".toList
def REPAIRING : Text := "repairing".toList
def AGENT_READY : Text := "agent-ready".toList
def GUEST_CLEANED : Text := "guest-cleaned".toList
def RELAY_CREATING : Text := "relay-creating".toList
def RELAY_WAITING : Text := "relay-waiting".toList
def COMPLETE : Text := "complete".toList

def BootstrapOperation.new (boxId node : Text) (port : UInt16) (stage : Text) : BootstrapOperation where
  schema := OPERATION_SCHEMA
  boxId
  node
  vmid := none
  ip := none
  port
  stage
  phase := CREATED
  relay := false
  relayTemplate := none
  relayTask := none

/-- The files of a recovery directory; `operation` is what `operation.json` is read as. -/
structure Directory where
  sshKey : Bool
  publicKey : Option Text
  operation : Option BootstrapOperation
  deriving DecidableEq

/-- The key in memory. -/
structure BootstrapKey where
  publicKey : Text
  hostKeyAlias : Text
  remoteStage : Text
  deriving DecidableEq

inductive Failure where
  | unsupportedSchema
  | missingIdentity
  | invalidStage
  | unsupportedPhase
  | missingKey
  | publicKeyFormat
  | wrongIdentity
  | wrongStage
  | missingDirectory
  | multiplePending
  deriving DecidableEq

def STAGE_ROOT : Text := "/tmp/pbox-bootstrap-".toList
def ED25519 : Text := "ssh-ed25519 ".toList
def ALIAS : Text := "pbox-".toList

def stageByte (c : Char) : Bool := c.isAlphanum || c == '/' || c == '-' || c == '_'

def validateStage (stage : Text) : Bool :=
  STAGE_ROOT.isPrefixOf stage && STAGE_ROOT.length < stage.length && stage.all stageByte

def basePhases : List Text :=
  [CREATED, CONTAINER_CREATE_TASK, CONTAINER_CREATED, CONTAINER_RUNNING, IP_DISCOVERY, IP_DISCOVERED,
    BOOTSTRAPPING, REPAIRING, AGENT_READY, GUEST_CLEANED]

def knownPhase (operation : BootstrapOperation) : Bool :=
  basePhases.contains operation.phase ||
    operation.relay && [RELAY_CREATING, RELAY_WAITING].contains operation.phase

/-- A key pair that `ssh-keygen` has made, with the time and the process in its staging path. -/
def generate (boxId publicKey : Text) (process stamp : Nat) : BootstrapKey where
  publicKey := trim publicKey
  hostKeyAlias := ALIAS ++ boxId
  remoteStage := STAGE_ROOT ++ boxId ++ '-' :: showNat process ++ '-' :: showNat stamp

def fromOperation (directory : Directory) (operation : BootstrapOperation) : Except Failure BootstrapKey :=
  if operation.schema ≠ OPERATION_SCHEMA then .error .unsupportedSchema
  else if operation.boxId = [] ∨ operation.stage = [] then .error .missingIdentity
  else if validateStage operation.stage = false then .error .invalidStage
  else if knownPhase operation = false then .error .unsupportedPhase
  else
    match directory.sshKey, directory.publicKey with
    | true, some publicKey =>
      if ED25519.isPrefixOf (trim publicKey) then
        .ok ⟨trim publicKey, ALIAS ++ operation.boxId, operation.stage⟩
      else .error .publicKeyFormat
    | _, _ => .error .missingKey

/-- The record replaces an earlier one at once, by a rename. -/
def saveOperation (key : BootstrapKey) (operation : BootstrapOperation) (disk : Option Directory) :
    Except Failure Directory :=
  if operation.boxId ≠ trimStartMatches ALIAS key.hostKeyAlias key.hostKeyAlias.length then .error .wrongIdentity
  else if operation.stage ≠ key.remoteStage then .error .wrongStage
  else
    match disk with
    | some directory => .ok { directory with operation := some operation }
    | none => .error .missingDirectory

inductive File where
  | sshKey
  | publicKey
  | operation
  deriving DecidableEq

def Directory.without (directory : Directory) : File → Directory
  | .sshKey => { directory with sshKey := false }
  | .publicKey => { directory with publicKey := none }
  | .operation => { directory with operation := none }

/-- All files are gone, so the directory itself can be removed. -/
def Directory.bare (directory : Directory) : Bool :=
  !directory.sshKey && directory.publicKey.isNone && directory.operation.isNone

/-- A file of the directory goes, or the directory itself. -/
def unlink (disk : Option Directory) (file : File) : Option Directory :=
  disk.map (·.without file)

def rmdir (disk : Option Directory) : Option Directory :=
  disk.filter fun directory => !directory.bare

/-- The loop of `find_pending` over the directories. -/
def findPendingFrom (boxId : Text) (found : Option (BootstrapKey × BootstrapOperation)) :
    List Directory → Except Failure (Option (BootstrapKey × BootstrapOperation))
  | [] => .ok found
  | directory :: later =>
    match directory.operation with
    | none => findPendingFrom boxId found later
    | some operation =>
      if operation.boxId ≠ boxId ∨ operation.phase = COMPLETE then findPendingFrom boxId found later
      else if found.isSome then .error .multiplePending
      else
        match fromOperation directory operation with
        | .error error => .error error
        | .ok key => findPendingFrom boxId (some (key, operation)) later

def findPending (boxId : Text) (directories : List Directory) :
    Except Failure (Option (BootstrapKey × BootstrapOperation)) :=
  findPendingFrom boxId none directories

/-- A directory with nothing pending for this box. -/
def Foreign (boxId : Text) (directory : Directory) : Prop :=
  ∀ operation, directory.operation = some operation → operation.boxId ≠ boxId ∨ operation.phase = COMPLETE

theorem findPendingFrom_foreign {boxId : Text} {directories : List Directory}
    (foreign : ∀ directory ∈ directories, Foreign boxId directory)
    (found : Option (BootstrapKey × BootstrapOperation)) :
    findPendingFrom boxId found directories = .ok found := by
  induction directories with
  | nil => rfl
  | cons directory later ih =>
    have rest := ih fun other member => foreign other (List.mem_cons_of_mem _ member)
    unfold findPendingFrom
    cases recorded : directory.operation with
    | none => exact rest
    | some operation =>
      dsimp only
      rw [if_pos (foreign directory List.mem_cons_self operation recorded)]
      exact rest

/-- With one record pending for the box, it is the one found, when its key can be read. -/
theorem findPending_single {boxId : Text} {directory : Directory} {operation : BootstrapOperation}
    {others : List Directory} (foreign : ∀ other ∈ others, Foreign boxId other)
    (recorded : directory.operation = some operation) (own : operation.boxId = boxId)
    (pending : operation.phase ≠ COMPLETE) :
    findPending boxId (directory :: others) =
      (fromOperation directory operation).map fun key => some (key, operation) := by
  unfold findPending findPendingFrom
  simp only [recorded]
  rw [if_neg (by simp [own, pending])]
  simp only [Option.isSome_none, Bool.false_eq_true, if_false]
  cases fromOperation directory operation with
  | error error => rfl
  | ok key => exact findPendingFrom_foreign foreign _

end Pbox.Cli.BootstrapFiles
