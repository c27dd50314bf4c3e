import Pbox.Lib.Transition
import Pbox.Cli.BootstrapFiles
import Mathlib.Logic.Function.Basic

/-! `pbox new` over the relay, `pbox repair` and `pbox delete` for one box: the private template in PVE
storage, the tasks that write, read and delete it, and the record in the recovery directory. -/

namespace Pbox.Cli.RelayTemplate
open Pbox.Lib.Strings Pbox.Lib.Transition Pbox.Cli.BootstrapFiles

/-- The upload request. While it is sent PVE may still carry it out, whatever the client has heard. -/
inductive Upload where
  | none
  | sent
  | rejected
  | running (upid : Text)
  | finished (upid : Text) (ok : Bool)
  deriving DecidableEq

/-- The creation request that was sent last. The task reads the template while it is running; it only
starts the container after that. -/
inductive Create where
  | none
  | flying
  | rejected
  | running (upid : Text)
  | starting (upid : Text)
  | existing (upid : Text)
  | failed (upid : Text)
  | destroyed (upid : Text)
  deriving DecidableEq

/-- The deletion that one `cleanup_template` asks PVE for. -/
inductive Deletion where
  | none
  | sent (volume : Text)
  | succeeded
  | failed
  deriving DecidableEq

inductive Party where
  | new
  | run (r : Nat)
  deriving DecidableEq

/-- Where a `cleanup_template` is. -/
inductive CleanPc where
  | checking (key : BootstrapKey) (operation : BootstrapOperation)
  | unmarking (key : BootstrapKey) (operation : BootstrapOperation)
  | listing (key : BootstrapKey) (operation : BootstrapOperation)
  | deleting (key : BootstrapKey) (operation : BootstrapOperation)
  | awaiting (key : BootstrapKey) (operation : BootstrapOperation)
  | clearing (key : BootstrapKey) (operation : BootstrapOperation)
  | done
  deriving DecidableEq

/-- What follows in `run_new` when a record has been saved. -/
inductive After where
  | prepare
  | uploaded
  | ready
  | creating
  | clean
  deriving DecidableEq

/-- Where `run_new` is. `saving` writes the record; `removing` is `remove_dir_all` under way. -/
inductive NewPc where
  | start
  | saving (operation : BootstrapOperation) (next : After)
  | preparing (operation : BootstrapOperation)
  | uploading (operation : BootstrapOperation)
  | uploaded (operation : BootstrapOperation)
  | ready (operation : BootstrapOperation)
  | requesting (operation : BootstrapOperation)
  | creating (operation : BootstrapOperation)
  | cleaning (pc : CleanPc)
  | connecting
  | removing
  | ended
  deriving DecidableEq

/-- Where a `repair` or a `run_delete` is. `cleaning` says whether the container was seen before. -/
inductive RunPc where
  | start
  | loaded (key : BootstrapKey) (operation : BootstrapOperation)
  | probing (key : BootstrapKey) (operation : BootstrapOperation)
  | destroying
  | pending
  | cleaning (seen : Bool) (pc : CleanPc)
  | removing
  | ended
  deriving DecidableEq

structure State where
  disk : Option Directory
  storage : Text → Bool
  upload : Upload
  create : Create
  deletions : Party → Deletion
  new : NewPc
  runs : Nat → RunPc

inductive NewAction where
  | generates
  | saves (written : Bool)
  | unprepared
  | uploads
  | uploaded
  | awaits
  | requests
  | created (vmid : UInt64)
  | conflicts
  | finishes
  | cleaned
  | connects
  | unlinks (file : File)
  | removes
  | fails
  deriving DecidableEq

/-- `looks`, `discovers` and `probes` are steps of a repair, `finds`, `destroys` and `resumes` of a delete. -/
inductive RunAction where
  | looks
  | discovers (seen : Bool)
  | probes
  | finds (wait : Bool)
  | destroys
  | resumes
  | cleaned
  | unlinks (file : File)
  | removes
  | fails
  deriving DecidableEq

inductive CleanAction where
  | checks
  | saves (written : Bool)
  | lists
  | deletes
  | awaits
  deriving DecidableEq

inductive Action where
  | new (action : NewAction)
  | run (r : Nat) (action : RunAction)
  | clean (who : Party) (action : CleanAction)
  /-- PVE, and other clients that destroy the box. -/
  | uploadAccepted (upid : Text)
  | uploadRejected
  | uploadEnds (ok : Bool)
  | createAccepted (upid : Text)
  | createRejected
  | extracted
  | started
  | createFails
  | destroyed
  | deletionEnds (who : Party) (ok : Bool)
  deriving DecidableEq

def VZTMPL : Text := ":vztmpl/".toList
def BOOTSTRAP : Text := "pbox-bootstrap-".toList
def BOOTSTRAP_BOX : Text := "pbox-bootstrap-pbx_".toList
def ARCHIVE : Text := ".tar.zst".toList

/-- What does not change: the box, its node, storage and key, and the directories of other boxes. -/
structure Settings where
  boxId : Text
  node : Text
  storage : Text
  port : UInt16
  publicKey : Text
  process : Nat
  stamp : Nat
  others : List Directory
  foreign : ∀ other ∈ others, Foreign boxId other

/-- `split_once` at the content type. -/
def splitVolume (volume : Text) : Option (Text × Text) :=
  (find VZTMPL volume).map fun i => (volume.take i, volume.drop (i + VZTMPL.length))

/-- The volume that `delete_bootstrap_template` deletes; it refuses any other template. -/
def deletedVolume (storage filename : Text) : Option Text :=
  if BOOTSTRAP_BOX.isPrefixOf filename && ARCHIVE.isSuffixOf filename then some (storage ++ VZTMPL ++ filename)
  else none

/-- The status of a task is "running". -/
def State.busy (s : State) (upid : Text) : Bool :=
  s.upload = .running upid || s.create = .running upid || s.create = .starting upid

/-- The container's agent can answer: the template has been extracted. -/
def Create.extracted : Create → Bool
  | .starting _ | .existing _ => true
  | _ => false

/-- What discovery may say. A container may be listed before it is complete. -/
def Create.visible (create : Create) (seen : Bool) : Bool :=
  match create with
  | .running _ => true
  | create => seen = create.extracted

def Upload.upid? : Upload → Option Text
  | .running upid | .finished upid _ => some upid
  | _ => Option.none

def Create.upid? : Create → Option Text
  | .running upid | .starting upid | .existing upid | .failed upid | .destroyed upid => some upid
  | _ => Option.none

/-- The container is gone, or another box has its VMID by now. -/
def Create.destroy : Create → Option Create
  | .starting upid | .existing upid | .destroyed upid => some (.destroyed upid)
  | _ => Option.none

section Model
variable (settings : Settings)

def key : BootstrapKey := generate settings.boxId settings.publicKey settings.process settings.stamp

def volume : Text := settings.storage ++ VZTMPL ++ (BOOTSTRAP ++ settings.boxId ++ ARCHIVE)

def firstOperation : BootstrapOperation :=
  { BootstrapOperation.new settings.boxId settings.node settings.port (key settings).remoteStage with
    relay := true, relayTemplate := some (volume settings) }

def State.goes (s : State) (new : NewPc) : State := { s with new }

def State.turns (s : State) (r : Nat) (pc : RunPc) : State :=
  { s with runs := Function.update s.runs r pc }

/-- The `cleanup_template` that a party is in. -/
def State.cleaner (s : State) : Party → Option CleanPc
  | .new =>
    match s.new with
    | .cleaning pc => some pc
    | _ => none
  | .run r =>
    match s.runs r with
    | .cleaning _ pc => some pc
    | _ => none

def State.sweeps (s : State) (pc : CleanPc) : Party → State
  | .new => s.goes (.cleaning pc)
  | .run r =>
    match s.runs r with
    | .cleaning seen _ => s.turns r (.cleaning seen pc)
    | _ => s

def cleanStep (s : State) (who : Party) : CleanAction → Option State
  | .checks =>
    match s.cleaner who with
    | some (.checking key operation) =>
      match operation.relayTask with
      | some upid =>
        if s.busy upid then none
        else some (s.sweeps (.unmarking key { operation with relayTask := none }) who)
      | none => some (s.sweeps (.listing key operation) who)
    | _ => none
  | .saves written =>
    match s.cleaner who with
    | some (.unmarking key operation) =>
      match written, saveOperation key operation s.disk with
      | true, .ok directory => some (State.sweeps { s with disk := some directory } (.listing key operation) who)
      | _, _ => none
    | some (.clearing key operation) =>
      match written, saveOperation key operation s.disk with
      | true, .ok directory => some (State.sweeps { s with disk := some directory } .done who)
      | _, _ => none
    | _ => none
  | .lists =>
    match s.cleaner who with
    | some (.listing key operation) =>
      match operation.relayTemplate with
      | none => some (s.sweeps .done who)
      | some volume =>
        match splitVolume volume with
        | none => none
        | some _ =>
          some (s.sweeps (if s.storage volume then .deleting key operation
            else .clearing key { operation with relayTemplate := none }) who)
    | _ => none
  | .deletes =>
    match s.cleaner who with
    | some (.deleting key operation) =>
      match (operation.relayTemplate.bind splitVolume).bind fun parts => deletedVolume parts.1 parts.2 with
      | some volume =>
        some (State.sweeps { s with deletions := Function.update s.deletions who (.sent volume) }
          (.awaiting key operation) who)
      | none => none
    | _ => none
  | .awaits =>
    match s.cleaner who with
    | some (.awaiting key operation) =>
      if s.deletions who = .succeeded then
        some (s.sweeps (.clearing key { operation with relayTemplate := none }) who)
      else none
    | _ => none

/-- `run_new` after a record has been written. -/
def afterNew (operation : BootstrapOperation) : After → NewPc
  | .prepare => .preparing operation
  | .uploaded => .uploaded operation
  | .ready => .ready operation
  | .creating => .creating operation
  | .clean => .cleaning (.checking (key settings) operation)

def newStep (s : State) : NewAction → Option State
  | .generates =>
    match s.new with
    | .start => some { s with disk := some ⟨true, some settings.publicKey, none⟩
                              new := .saving (firstOperation settings) .prepare }
    | _ => none
  | .saves written =>
    match s.new with
    | .saving operation next =>
      match written, saveOperation (key settings) operation s.disk with
      | true, .ok directory => some { s with disk := some directory, new := afterNew settings operation next }
      | _, _ => none
    | _ => none
  | .unprepared =>
    match s.new with
    | .preparing _ => some (s.goes .removing)
    | _ => none
  | .uploads =>
    match s.new with
    | .preparing operation => some { s with upload := .sent, new := .uploading operation }
    | _ => none
  | .uploaded =>
    match s.new, s.upload.upid? with
    | .uploading operation, some upid => some (s.goes (.saving { operation with relayTask := some upid } .uploaded))
    | _, _ => none
  | .awaits =>
    match s.new, s.upload with
    | .uploaded operation, .finished _ true => some (s.goes (.saving { operation with phase := RELAY_CREATING } .ready))
    | _, _ => none
  | .requests =>
    match s.new with
    | .ready operation => some { s with create := .flying, new := .requesting operation }
    | _ => none
  | .created vmid =>
    match s.new, s.create.upid? with
    | .requesting operation, some upid =>
      some (s.goes (.saving { operation with vmid := some vmid, relayTask := some upid } .creating))
    | _, _ => none
  | .conflicts =>
    match s.new with
    | .requesting operation => if s.create = .rejected then some (s.goes (.ready operation)) else none
    | _ => none
  | .finishes =>
    match s.new, s.create with
    | .creating operation, .existing _ | .creating operation, .destroyed _ =>
      some (s.goes (.saving { operation with phase := RELAY_WAITING } .clean))
    | _, _ => none
  | .cleaned =>
    match s.new with
    | .cleaning .done => some (s.goes .connecting)
    | _ => none
  | .connects =>
    match s.new with
    | .connecting => if s.create.extracted then some (s.goes .removing) else none
    | _ => none
  | .unlinks file =>
    match s.new with
    | .removing => some { s with disk := unlink s.disk file }
    | _ => none
  | .removes =>
    match s.new with
    | .removing => some { s with disk := rmdir s.disk, new := .ended }
    | _ => none
  | .fails => some (s.goes .ended)

/-- `find_pending` for the box. -/
def pending (s : State) : Option (BootstrapKey × BootstrapOperation) :=
  match findPending settings.boxId (s.disk.toList ++ settings.others) with
  | .ok found => found
  | .error _ => none

def runStep (s : State) (r : Nat) : RunAction → Option State
  | .looks =>
    match s.runs r, pending settings s with
    | .start, some (key, operation) => if operation.relay then some (s.turns r (.loaded key operation)) else none
    | _, _ => none
  | .discovers seen =>
    match s.runs r with
    | .loaded key operation =>
      if s.create.visible seen then
        some (s.turns r (if seen then .probing key operation else .cleaning false (.checking key operation)))
      else none
    | _ => none
  | .probes =>
    match s.runs r with
    | .probing key operation =>
      if s.create.extracted then some (s.turns r (.cleaning true (.checking key operation))) else none
    | _ => none
  | .finds wait =>
    match s.runs r with
    | .start =>
      if s.create.visible true then
        -- without a record the deletion may be left to PVE
        some (s.turns r (if wait || (pending settings s).isSome then .destroying else .ended))
      else none
    | _ => none
  | .destroys =>
    match s.runs r, s.create.destroy with
    | .destroying, some create => some { s.turns r .pending with create }
    | _, _ => none
  | .resumes =>
    match s.runs r with
    | .pending =>
      some (s.turns r (match pending settings s with
        | some (key, operation) => .cleaning true (.checking key operation)
        | none => .ended))
    | _ => none
  | .cleaned =>
    match s.runs r with
    | .cleaning _ .done => some (s.turns r .removing)
    | _ => none
  | .unlinks file =>
    match s.runs r with
    | .removing => some { s with disk := unlink s.disk file }
    | _ => none
  | .removes =>
    match s.runs r with
    | .removing => some { s.turns r .ended with disk := rmdir s.disk }
    | _ => none
  | .fails => some (s.turns r .ended)

def step (s : State) : Action → Option State
  | .new action => newStep settings s action
  | .run r action => runStep settings s r action
  | .clean who action => cleanStep s who action
  | .uploadAccepted upid => if s.upload = .sent then some { s with upload := .running upid } else none
  | .uploadRejected => if s.upload = .sent then some { s with upload := .rejected } else none
  | .uploadEnds ok =>
    match s.upload with
    | .running upid =>
      some { s with upload := .finished upid ok
                    storage := if ok then Function.update s.storage (volume settings) true else s.storage }
    | _ => none
  | .createAccepted upid => if s.create = .flying then some { s with create := .running upid } else none
  | .createRejected => if s.create = .flying then some { s with create := .rejected } else none
  | .extracted =>
    match s.create with
    | .running upid => some { s with create := .starting upid }
    | _ => none
  | .started =>
    match s.create with
    | .starting upid => some { s with create := .existing upid }
    | _ => none
  | .createFails =>
    match s.create with
    | .running upid => some { s with create := .failed upid }
    | _ => none
  | .destroyed => s.create.destroy.map fun create => { s with create }
  | .deletionEnds who ok =>
    match s.deletions who with
    | .sent volume =>
      some { s with deletions := Function.update s.deletions who (if ok then .succeeded else .failed)
                    storage := if ok then Function.update s.storage volume false else s.storage }
    | _ => none

/-- Nothing has been done for the box. -/
structure Initial (s : State) : Prop where
  disk : s.disk = none
  storage : s.storage (volume settings) = false
  remote : s.upload = .none ∧ s.create = .none ∧ ∀ who, s.deletions who = .none
  processes : s.new = .start ∧ ∀ r, s.runs r = .start

def system : System State Action := ⟨Initial settings, step settings⟩

end Model

end Pbox.Cli.RelayTemplate
