import Pbox.Lib.Dialogue
import Pbox.Lib.ErrorChain
import Pbox.Cli.Discovery
import Pbox.Cli.TaskLog

/-! `pbox start`, `stop` and `restart`, and the deletion that waits: what each asks PVE and the box, in which order, and
what it makes of the answers. -/

namespace Pbox.Cli.Lifecycle
open Pbox.Lib.Strings Pbox.Lib.Numerals Pbox.Lib.Dialogue Pbox.Lib.ErrorChain Pbox.Core.Id Pbox.Core.Metadata
open Pbox.Cli.Discovery (BoxRecord RUNNING)
open Pbox.Cli.TaskLog (STOPPED)

/-- The error that a caller can tell from others: the task itself failed. -/
structure PveTaskFailure where
  exitStatus : Text
  detail : Text

abbrev Failure := Chain PveTaskFailure

inductive Query where
  | clientFromStore
  | findBox (reference : Text)
  | getLxcState (node : Text) (vmid : UInt64)
  | startLxc (node : Text) (vmid : UInt64)
  | shutdownLxc (node : Text) (vmid : UInt64)
  | stopLxc (node : Text) (vmid : UInt64)
  | deleteLxc (node : Text) (vmid : UInt64)
  | waitForTask (node upid : Text)
  | relayReady (id : Text)
  | waitForLxcIp (node : Text) (vmid : UInt64)
  | agentMaterials (id : Text)
  | waitForAgent (id ip : Text)
  deriving DecidableEq

/-- Of the configuration, whether boxes are reached through a relay; of the answers to requests, the UPID. -/
abbrev Value : Query → Type
  | .clientFromStore => Bool
  | .findBox _ => BoxRecord
  | .getLxcState .. | .startLxc .. | .shutdownLxc .. | .stopLxc .. | .deleteLxc .. | .waitForLxcIp .. => Text
  | .waitForTask .. | .relayReady _ | .agentMaterials _ | .waitForAgent .. => Unit

abbrev Command (Result : Type) := Attempt Query Value Failure Result

def call (query : Query) : Command (Value query) := request query

structure BoxInfo where
  id : PboxId
  vmid : UInt64
  node : Text
  state : Text
  ip : Option Text
  ipv6 : Option Text
  name : Option Text
  recipes : List PboxRecipeProvenance
  capabilities : List Text

def withContext {Result : Type} (part : Command Result) (message : Text) : Command Result :=
  mapFailure (·.context message) part

/-- `anyhow::ensure!`. -/
def ensure (condition : Bool) (message : Text) : Command Unit :=
  if condition then pure () else throw (.of message)

def BoxRecord.stateOf (record : BoxRecord) : Command Text := call (.getLxcState record.node record.vmid)

def ensureBoxStarted (record : BoxRecord) : Command Unit := do
  let state ← BoxRecord.stateOf record
  if state ≠ RUNNING then
    let task ← withContext (call (.startLxc record.node record.vmid)) ("start box ".toList ++ record.id.value)
    withContext (call (.waitForTask record.node task)) ("PVE did not finish starting box ".toList ++ record.id.value)

/-- What is printed once the box is up, where there is a relay and where there is not. -/
def relayedInfo (record : BoxRecord) : Command BoxInfo := do
  call (.relayReady record.id.value)
  let current ← call (.findBox record.id.value)
  pure { id := record.id, vmid := record.vmid, node := record.node, state := RUNNING, ip := current.ip,
         ipv6 := current.ipv6.or record.ipv6, name := record.name, recipes := record.recipes,
         capabilities := record.capabilities }

def directInfo (record : BoxRecord) : Command BoxInfo := do
  let ip ← withContext (call (.waitForLxcIp record.node record.vmid))
    ("discover IPv4 address for box ".toList ++ record.id.value)
  call (.agentMaterials record.id.value)
  withContext (call (.waitForAgent record.id.value ip))
    ("wait for authenticated pbox-agent in box ".toList ++ record.id.value)
  pure { id := record.id, vmid := record.vmid, node := record.node, state := RUNNING, ip := some ip, ipv6 := record.ipv6,
         name := record.name, recipes := record.recipes, capabilities := record.capabilities }

def startBox (relayed : Bool) (record : BoxRecord) : Command BoxInfo := do
  -- only the message to the user depends on this state
  let _ ← withContext (BoxRecord.stateOf record) "check box state before starting".toList
  ensureBoxStarted record
  if relayed then relayedInfo record else directInfo record

def runStart (reference : Text) : Command BoxInfo := do
  let relayed ← call .clientFromStore
  let record ← call (.findBox reference)
  startBox relayed record

def stopAction (force : Bool) : Text := if force then "force stop".toList else "graceful shutdown".toList

def stopRequest (force : Bool) (record : BoxRecord) : Command Text :=
  if force then call (.stopLxc record.node record.vmid) else call (.shutdownLxc record.node record.vmid)

def stopBox (record : BoxRecord) (force : Bool) : Command Unit := do
  let action := stopAction force
  let task ← withContext (stopRequest force record) (action ++ " box ".toList ++ record.id.value)
  withContext (call (.waitForTask record.node task))
    ("PVE did not finish ".toList ++ action ++ " for box ".toList ++ record.id.value)

/-- What follows a graceful shutdown that failed. -/
def forceStop (record : BoxRecord) (gracefulError : Failure) : Command Unit :=
  if gracefulError.root.isSome then do
    let state ← withContext (BoxRecord.stateOf record) "check box state after graceful shutdown failed".toList
    if state = STOPPED then pure ()
    else withContext (stopBox record true) "force stop after graceful shutdown failed".toList
  else throw gracefulError

def stopForRestart (record : BoxRecord) (force : Bool) : Command Unit :=
  if force then stopBox record true else tryCatch (stopBox record false) (forceStop record)

def restartStopHintForReference (reference : Text) (force : Bool) : Text :=
  if force then "force stop failed; inspect the PVE task for `".toList ++ reference ++ "` before retrying".toList
  else "graceful shutdown failed; retry with `pbox stop ".toList ++ reference ++ " --force` or `pbox restart ".toList ++
    reference ++ " --force`".toList

def restartStopHint (record : BoxRecord) (force : Bool) : Text := restartStopHintForReference record.id.value force

def stopBeforeRestart (record : BoxRecord) (force : Bool) : Command Unit := do
  withContext (stopForRestart record force) (restartStopHint record force)
  let state ← BoxRecord.stateOf record
  ensure (state = STOPPED) ("box ".toList ++ record.id.value ++
    " is still running after restart stop; retry with `pbox restart ".toList ++ record.id.value ++ " --force`".toList)

def runRestart (reference : Text) (force : Bool) : Command BoxInfo := do
  let relayed ← call .clientFromStore
  let record ← call (.findBox reference)
  let state ← withContext (BoxRecord.stateOf record) "check box state before restarting".toList
  if state ≠ STOPPED then stopBeforeRestart record force
  startBox relayed record

/-- `run_box_task`, of which `pbox stop` is the only use. -/
def runStop (reference : Text) (force : Bool) : Command BoxInfo := do
  let _ ← call .clientFromStore
  let record ← call (.findBox reference)
  let action := stopAction force
  let task ← withContext (stopRequest force record) (action ++ " box ".toList ++ record.id.value)
  withContext (withContext (call (.waitForTask record.node task))
      ("PVE did not finish ".toList ++ action ++ " for box ".toList ++ record.id.value))
    (restartStopHintForReference reference force)
  pure { id := record.id, vmid := record.vmid, node := record.node, state := STOPPED, ip := none, ipv6 := none,
         name := record.name, recipes := record.recipes, capabilities := record.capabilities }

def stopBeforeDelete (record : BoxRecord) : Command Unit := do
  let task ← withContext (call (.shutdownLxc record.node record.vmid))
    ("request shutdown of ".toList ++ record.id.value ++ "; box was not deleted".toList)
  withContext (call (.waitForTask record.node task)) ("shutdown failed; box was not deleted. Use `pbox stop ".toList ++
    record.id.value ++ " --force` if needed, then retry deletion".toList)
  let state ← BoxRecord.stateOf record
  ensure (state = STOPPED) ("box ".toList ++ record.id.value ++ " is still running; it was not deleted".toList)

def destroyBox (record : BoxRecord) : Command Unit := do
  let task ← withContext (call (.deleteLxc record.node record.vmid)) ("delete box ".toList ++ record.id.value)
  withContext (call (.waitForTask record.node task)) ("PVE did not finish deleting box ".toList ++ record.id.value)

def deleteBox (record : BoxRecord) : Command Unit := do
  let state ← withContext (BoxRecord.stateOf record) "check box state before deletion".toList
  if state ≠ STOPPED then stopBeforeDelete record
  destroyBox record

theorem devId_accepted : Accepted "pbx_d3v0b0x1".toList := ⟨by decide, by decide, List.all_eq_true.mp (by decide)⟩

/-- A box, for runs on fixed inputs. -/
def devBox : BoxRecord :=
  ⟨⟨"pbx_d3v0b0x1".toList, devId_accepted⟩, none, 104, RUNNING, "pve".toList, none, none, some "dev".toList, [], []⟩

end Pbox.Cli.Lifecycle
