import Pbox.Cli.Bootstrap

/-! What a repair can do with the record that an interrupted `run_new` has left behind, when there is no
container of the box. -/

namespace Pbox.Cli.BootstrapRecovery
open Pbox.Lib.Strings Pbox.Lib.Numerals Pbox.Lib.Transition Pbox.Core.Id
open Pbox.Cli.RecipeApply Pbox.Cli.BootstrapFiles Pbox.Cli.Bootstrap

/-- The identifier is generated, the public key has the form that `generate` checks, and no other
directory holds anything for this box. -/
structure Valid (settings : Settings) : Prop where
  identity : ∃ indices, settings.boxId = PboxId.generateText indices
  keyFormat : ED25519.isPrefixOf (trim settings.publicKey) = true
  foreign : ∀ other ∈ settings.others, Foreign settings.boxId other

/-- A run of `run_new` alone, with whatever PVE does. -/
def Alone (_ : State) : Action → Prop
  | .repair _ _ => False
  | _ => True

/-- PVE can be reached and has no container of the box. -/
def withoutBox (s : State) : State := { s with remote := .absent, request := .none }

/-- A repair on its own can remove the directory. -/
def Removable (settings : Settings) (s : State) : Prop :=
  ∃ (steps : List RepairAction) (t : State),
    (system settings).run (withoutBox s) (steps.map (Action.repair 0)) = some t ∧ t.disk = none

/-- A record as `run_new` writes it. -/
structure Own (settings : Settings) (operation : BootstrapOperation) : Prop where
  schema : operation.schema = OPERATION_SCHEMA
  boxId : operation.boxId = settings.boxId
  stage : operation.stage = (key settings).remoteStage
  phase : operation.phase ∈ basePhases
  relay : operation.relay = false

/-- The record that `run_new` works on. -/
def NewPc.operation? : NewPc → Option BootstrapOperation
  | .saving operation _ | .ready operation | .requesting operation _ | .waiting operation _
  | .addressing operation _ | .installing operation _ | .cleaning operation _ => some operation
  | .start | .removing | .ended => none

structure Written (settings : Settings) (s : State) : Prop where
  memory : ∀ operation, NewPc.operation? s.new = some operation → Own settings operation
  record : ∀ directory operation, s.disk = some directory → directory.operation = some operation →
    Own settings operation
  publicKey : ∀ directory text, s.disk = some directory → directory.publicKey = some text → text = settings.publicKey
  fresh : ∀ r, s.repairs r = .looking

section Records
variable {settings : Settings}

theorem boxId_bytes (valid : Valid settings) {c : Char} (member : c ∈ settings.boxId) : stageByte c = true := by
  obtain ⟨indices, generated⟩ := valid.identity
  obtain ⟨suffix, shape, _, alphabet⟩ := generateText_grammar indices
  rw [generated, shape] at member
  rcases List.mem_append.mp member with start | inside
  · exact List.all_eq_true.mp (show PREFIX.all stageByte = true by decide) c start
  · exact List.all_eq_true.mp (show alphabetChars.all stageByte = true by decide) c (alphabet c inside)

theorem boxId_shape (valid : Valid settings) : ∃ rest, settings.boxId = PREFIX ++ rest := by
  obtain ⟨indices, generated⟩ := valid.identity
  exact ⟨_, generated⟩

theorem digit_byte {c : Char} (digit : c.isDigit = true) : stageByte c = true := by
  unfold stageByte Char.isAlphanum
  simp [digit]

theorem showNat_bytes (n : Nat) : (showNat n).all stageByte = true :=
  List.all_eq_true.mpr fun _ member => digit_byte (showNat_isDigit member)

theorem stage_shape (settings : Settings) : (key settings).remoteStage = STAGE_ROOT ++
    (settings.boxId ++ '-' :: showNat settings.process ++ '-' :: showNat settings.stamp) := by
  rw [← List.append_assoc, ← List.append_assoc]
  rfl

theorem stage_valid (valid : Valid settings) : validateStage (key settings).remoteStage = true := by
  have bytes : settings.boxId.all stageByte = true := List.all_eq_true.mpr fun _ member => boxId_bytes valid member
  have root : STAGE_ROOT.all stageByte = true := by decide
  have dash : stageByte '-' = true := by decide
  have stage := stage_shape settings
  generalize showNat settings.process = process, showNat settings.stamp = stamp,
    showNat_bytes settings.process = processBytes, showNat_bytes settings.stamp = stampBytes at stage
  unfold validateStage
  rw [stage, Bool.and_eq_true, Bool.and_eq_true, decide_eq_true_eq]
  refine ⟨⟨List.isPrefixOf_iff_prefix.mpr (List.prefix_append _ _), ?_⟩, ?_⟩
  · rw [List.length_append, List.length_append, List.length_cons]
    omega
  · simp only [List.all_append, List.all_cons, root, bytes, dash, processBytes, stampBytes, Bool.and_true]

theorem phase_pending {operation : BootstrapOperation} (own : Own settings operation) : operation.phase ≠ COMPLETE := by
  intro complete
  have phase := own.phase
  rw [complete] at phase
  revert phase
  decide

/-- A record of `run_new` is accepted just when the key pair is still there. -/
theorem fromOperation_iff (valid : Valid settings) {directory : Directory} {operation : BootstrapOperation}
    (own : Own settings operation)
    (publicKey : ∀ text, directory.publicKey = some text → text = settings.publicKey) :
    (fromOperation directory operation).isOk = true ↔ directory.sshKey = true ∧ directory.publicKey.isSome = true := by
  have named : ¬(operation.boxId = [] ∨ operation.stage = []) := by
    obtain ⟨rest, shape⟩ := boxId_shape valid
    rintro (empty | empty)
    · rw [own.boxId, shape] at empty
      simp [PREFIX] at empty
    · rw [own.stage, stage_shape, List.append_eq_nil_iff] at empty
      cases empty.1
  have staged : ¬validateStage operation.stage = false := by
    rw [own.stage, stage_valid valid]
    exact Bool.true_eq_false_eq_False
  have known : ¬knownPhase operation = false := by
    unfold knownPhase
    rw [List.contains_iff_mem.mpr own.phase, Bool.true_or]
    exact Bool.true_eq_false_eq_False
  unfold fromOperation
  rw [if_neg (not_not.mpr own.schema), if_neg named, if_neg staged, if_neg known]
  cases directory.sshKey with
  | false => simp [Except.isOk, Except.toBool]
  | true =>
    cases text : directory.publicKey with
    | none => simp [Except.isOk, Except.toBool]
    | some found =>
      rw [publicKey found text]
      simp [valid.keyFormat, Except.isOk, Except.toBool]

end Records

section Runs
variable {settings : Settings} {s t : State}

theorem initial_written (initial : Initial s) : Written settings s := by
  obtain ⟨disk, _, new, repairs⟩ := initial
  refine ⟨fun operation held => ?_, fun directory operation present => ?_, fun directory text present => ?_, repairs⟩
  · rw [new] at held
    cases held
  · rw [disk] at present
    cases present
  · rw [disk] at present
    cases present

/-- A record that only has other fields of its own and a phase of the list is still one of `run_new`. -/
theorem Own.with {operation next : BootstrapOperation} (own : Own settings operation)
    (schema : next.schema = operation.schema)
    (boxId : next.boxId = operation.boxId) (stage : next.stage = operation.stage) (relay : next.relay = operation.relay)
    (phase : next.phase ∈ basePhases) : Own settings next :=
  ⟨schema.trans own.schema, boxId.trans own.boxId, stage.trans own.stage, phase, relay.trans own.relay⟩

theorem firstOperation_own : Own settings (firstOperation settings) :=
  ⟨rfl, rfl, rfl, show CREATED ∈ basePhases by decide, rfl⟩

/-- `run_new` moves on with a record of its own. -/
theorem Written.goes (written : Written settings s) {pc : NewPc}
    (own : ∀ operation, NewPc.operation? pc = some operation → Own settings operation) :
    Written settings (s.goes pc) :=
  ⟨own, written.record, written.publicKey, written.fresh⟩

theorem Written.unlinks (written : Written settings s) (file : File) :
    Written settings { s with disk := unlink s.disk file } := by
  refine ⟨written.memory, fun directory operation present recorded => ?_, fun directory text present known => ?_,
    written.fresh⟩
  · obtain ⟨before, was, rfl⟩ := Option.map_eq_some_iff.mp present
    refine written.record before operation was ?_
    cases file <;> first | exact recorded | cases recorded
  · obtain ⟨before, was, rfl⟩ := Option.map_eq_some_iff.mp present
    refine written.publicKey before text was ?_
    cases file <;> first | exact known | cases known

theorem Written.removes (written : Written settings s) : Written settings { s with disk := rmdir s.disk } := by
  refine ⟨written.memory, fun directory operation present recorded => ?_, fun directory text present known => ?_,
    written.fresh⟩
  · exact written.record directory operation (Option.filter_eq_some_iff.mp present).1 recorded
  · exact written.publicKey directory text (Option.filter_eq_some_iff.mp present).1 known

theorem saved_shape {key : BootstrapKey} {operation : BootstrapOperation} {disk : Option Directory}
    {directory : Directory} (saved : saveOperation key operation disk = .ok directory) :
    ∃ before, disk = some before ∧ directory = { before with operation := some operation } := by
  unfold saveOperation at saved
  split at saved
  · cases saved
  · split at saved
    · cases saved
    · cases disk with
      | none => cases saved
      | some before =>
        cases saved
        exact ⟨before, rfl, rfl⟩

theorem Written.saves (written : Written settings s) {key : BootstrapKey} {operation : BootstrapOperation}
    {directory : Directory} (own : Own settings operation)
    (saved : saveOperation key operation s.disk = .ok directory) :
    Written settings { s with disk := some directory } := by
  obtain ⟨before, was, rfl⟩ := saved_shape saved
  refine ⟨written.memory, fun other record present recorded => ?_, fun other text present known => ?_, written.fresh⟩
  · cases present
    cases recorded
    exact own
  · cases present
    exact written.publicKey before text was known

theorem afterNew_own {operation : BootstrapOperation} (own : Own settings operation) (next : After) :
    ∀ held, NewPc.operation? (afterNew operation next) = some held → Own settings held := by
  intro held known
  cases next <;> cases known
  case mark => exact own.with rfl rfl rfl rfl (show BOOTSTRAPPING ∈ basePhases by decide)
  all_goals exact own

theorem newStep_written {a : NewAction} (written : Written settings s) (taken : newStep settings s a = some t) :
    Written settings t := by
  have memory (pc : NewPc) (now : s.new = pc) (operation : BootstrapOperation)
      (held : NewPc.operation? pc = some operation) : Own settings operation :=
    written.memory operation (now ▸ held)
  cases a with
  | generates =>
    simp only [newStep] at taken
    split at taken
    · cases taken
      refine ⟨?_, fun directory operation present recorded => ?_, fun directory text present known => ?_, written.fresh⟩
      · rintro operation ⟨⟩
        exact firstOperation_own
      · cases present
        cases recorded
      · cases present
        exact (Option.some.inj known).symm
    · cases taken
  | saves ok =>
    simp only [newStep] at taken
    split at taken
    next operation next now =>
      have own := memory _ now operation rfl
      split at taken
      next directory saved =>
        cases taken
        exact (written.saves own saved).goes (afterNew_own own next)
      next => cases taken
      next =>
        cases taken
        refine written.goes fun held known => ?_
        split at known <;> cases known
    next => cases taken
  | requests place =>
    simp only [newStep] at taken
    split at taken
    next operation now =>
      simp only [Option.ite_none_right_eq_some, Option.some.injEq] at taken
      obtain ⟨_, rfl⟩ := taken
      refine ⟨?_, written.record, written.publicKey, written.fresh⟩
      rintro held ⟨⟩
      exact memory _ now operation rfl
    next => cases taken
  | unallocated =>
    simp only [newStep] at taken
    split at taken
    · cases taken
      exact written.goes (by rintro _ ⟨⟩)
    · cases taken
  | created =>
    simp only [newStep] at taken
    split at taken
    next operation place now =>
      simp only [Option.ite_none_right_eq_some, Option.some.injEq] at taken
      obtain ⟨_, rfl⟩ := taken
      refine written.goes ?_
      rintro held ⟨⟩
      exact (memory _ now operation rfl).with rfl rfl rfl rfl (show CONTAINER_CREATED ∈ basePhases by decide)
    next => cases taken
  | conflicts =>
    simp only [newStep] at taken
    split at taken
    next operation place now =>
      simp only [Option.ite_none_right_eq_some, Option.some.injEq] at taken
      obtain ⟨_, rfl⟩ := taken
      refine written.goes ?_
      rintro held ⟨⟩
      exact memory _ now operation rfl
    next => cases taken
  | errors =>
    simp only [newStep] at taken
    split at taken
    · cases taken
      exact written.goes (by rintro _ ⟨⟩)
    · cases taken
  | finishes ok =>
    simp only [newStep] at taken
    split at taken
    next operation place now =>
      cases taken
      refine written.goes fun held known => ?_
      have own := memory _ now operation rfl
      split at known
      · cases known
        exact own.with rfl rfl rfl rfl (show CONTAINER_RUNNING ∈ basePhases by decide)
      · cases known
        exact own.with rfl rfl rfl rfl (show CONTAINER_CREATE_TASK ∈ basePhases by decide)
    next => cases taken
  | addresses ip =>
    simp only [newStep] at taken
    split at taken
    next operation place now =>
      cases taken
      refine written.goes fun held known => ?_
      have own := memory _ now operation rfl
      cases ip with
      | some ip =>
        cases known
        exact own.with rfl rfl rfl rfl (show IP_DISCOVERED ∈ basePhases by decide)
      | none =>
        cases known
        exact own.with rfl rfl rfl rfl (show IP_DISCOVERY ∈ basePhases by decide)
    next => cases taken
  | installs =>
    simp only [newStep] at taken
    split at taken
    next operation place now =>
      cases taken
      refine written.goes ?_
      rintro held ⟨⟩
      exact (memory _ now operation rfl).with rfl rfl rfl rfl (show AGENT_READY ∈ basePhases by decide)
    next => cases taken
  | cleans =>
    simp only [newStep] at taken
    split at taken
    next operation _ place cleaned now existing =>
      cases taken
      refine ⟨?_, written.record, written.publicKey, written.fresh⟩
      rintro held ⟨⟩
      exact (memory _ now operation rfl).with rfl rfl rfl rfl (show GUEST_CLEANED ∈ basePhases by decide)
    next => cases taken
  | unlinks file =>
    simp only [newStep] at taken
    split at taken
    · cases taken
      exact written.unlinks file
    · cases taken
  | removes =>
    simp only [newStep] at taken
    split at taken
    · cases taken
      exact written.removes.goes (by rintro _ ⟨⟩)
    · cases taken
  | fails =>
    cases taken
    exact written.goes (by rintro _ ⟨⟩)

theorem step_written {a : Action} (written : Written settings s) (alone : Alone s a)
    (taken : step settings s a = some t) : Written settings t := by
  have shared (remote : Remote) (request : Request) : Written settings { s with remote, request } :=
    ⟨written.memory, written.record, written.publicKey, written.fresh⟩
  cases a with
  | new action => exact newStep_written written taken
  | repair r action => exact alone.elim
  | cleanedUnseen => exact Option.some.inj taken ▸ shared _ _
  | _ =>
    simp only [step] at taken
    split at taken
    · exact Option.some.inj taken ▸ shared _ _
    · cases taken

end Runs

section Repair
variable {settings : Settings} {s : State} {directory : Directory} {operation : BootstrapOperation}

theorem looked (valid : Valid settings) (own : Own settings operation)
    (recorded : directory.operation = some operation) :
    findPending settings.boxId (directory :: settings.others) =
      (fromOperation directory operation).map fun key => some (key, operation) :=
  findPending_single valid.foreign recorded own.boxId (phase_pending own)

/-- A repair that knows the VMID of a container that is not there. -/
structure Stuck (disk : Option Directory) (operation : BootstrapOperation) (s : State) : Prop where
  disk : s.disk = disk
  remote : s.remote = .absent
  pc : s.repairs 0 = .looking ∨ (∃ key, s.repairs 0 = .loaded key operation) ∨ s.repairs 0 = .ended

theorem Stuck.turns {disk : Option Directory} (stuck : Stuck disk operation s) {pc : RepairPc}
    (next : pc = .looking ∨ (∃ key, pc = .loaded key operation) ∨ pc = .ended) :
    Stuck disk operation (s.turns 0 pc) := by
  refine ⟨stuck.disk, stuck.remote, ?_⟩
  simpa only [State.turns, Function.update_self] using next

theorem repairStep_stuck {t : State} {a : RepairAction} (valid : Valid settings) (own : Own settings operation)
    (recorded : directory.operation = some operation) (numbered : operation.vmid.isSome = true)
    (stuck : Stuck (some directory) operation s) (taken : repairStep settings s 0 a = some t) :
    Stuck (some directory) operation t := by
  obtain ⟨disk, remote, looking | ⟨key, loaded⟩ | ended⟩ := id stuck
  · cases a with
    | looks =>
      simp only [repairStep, looking, Option.some.injEq, disk, Option.toList_some, List.singleton_append,
        looked valid own recorded] at taken
      subst taken
      refine stuck.turns ?_
      cases fromOperation directory operation with
      | error error => exact .inr (.inr rfl)
      | ok key => exact .inr (.inl ⟨key, by simp [Except.map, own.relay]⟩)
    | fails => exact Option.some.inj taken ▸ stuck.turns (.inr (.inr rfl))
    | _ => simp only [repairStep, looking] at taken; cases taken
  · cases a with
    | discovers seen =>
      simp only [repairStep, loaded, remote, Remote.place?, Option.ite_none_right_eq_some, Option.some.injEq] at taken
      obtain ⟨rfl, rfl⟩ := taken
      refine stuck.turns (.inr (.inr ?_))
      simp [found, numbered]
    | fails => exact Option.some.inj taken ▸ stuck.turns (.inr (.inr rfl))
    | _ => simp only [repairStep, loaded] at taken; cases taken
  · cases a with
    | fails => exact Option.some.inj taken ▸ stuck.turns (.inr (.inr rfl))
    | _ => simp only [repairStep, ended] at taken; cases taken

theorem run_stuck {t : State} {steps : List RepairAction} (valid : Valid settings) (own : Own settings operation)
    (recorded : directory.operation = some operation) (numbered : operation.vmid.isSome = true)
    (stuck : Stuck (some directory) operation s)
    (ran : (system settings).run s (steps.map (Action.repair 0)) = some t) : Stuck (some directory) operation t := by
  induction steps generalizing s with
  | nil => exact Option.some.inj ran ▸ stuck
  | cons a rest ih =>
    obtain ⟨mid, taken, later⟩ := Option.bind_eq_some_iff.mp ran
    exact ih (repairStep_stuck valid own recorded numbered stuck taken) later

/-- The steps of a repair that finds neither a VMID nor a box. -/
def removal : List RepairAction :=
  [.looks, .discovers none, .unlinks .sshKey, .unlinks .publicKey, .unlinks .operation, .removes]

theorem removal_runs (valid : Valid settings) (own : Own settings operation) (disk : s.disk = some directory)
    (recorded : directory.operation = some operation) (unnumbered : operation.vmid = none)
    (looking : s.repairs 0 = .looking) (accepted : (fromOperation directory operation).isOk = true) :
    Removable settings s := by
  cases read : fromOperation directory operation with
  | error error => rw [read] at accepted; cases accepted
  | ok key =>
    have found := looked valid own recorded
    rw [read] at found
    have removed : ((system settings).run (withoutBox s) (removal.map (Action.repair 0))).map (·.disk) = some none := by
      simp [removal, System.run, system, step, repairStep, withoutBox, looking, disk, found, Except.map, own.relay,
        State.turns, Bootstrap.found, unnumbered, Remote.place?, unlink, rmdir, Directory.without, Directory.bare]
    obtain ⟨t, ran, gone⟩ := Option.map_eq_some_iff.mp removed
    exact ⟨removal, t, ran, gone⟩

theorem withoutBox_stuck (disk : s.disk = some directory) (looking : s.repairs 0 = .looking) :
    Stuck (some directory) operation (withoutBox s) :=
  ⟨disk, rfl, .inl looking⟩

/-- A record that run_new has left behind is accepted, and a repair without a container removes it, just
when it has no VMID and the key pair is still beside it. -/
theorem recoverable_iff (settings : Settings) (valid : Valid settings) {s : State}
    (reached : (system settings).ReachableBy Alone s) {directory : Directory} {operation : BootstrapOperation}
    (disk : s.disk = some directory) (recorded : directory.operation = some operation) :
    (fromOperation directory operation).isOk = true ∧ Removable settings s ↔
      operation.vmid = none ∧ directory.sshKey = true ∧ directory.publicKey.isSome = true := by
  have written : Written settings s :=
    reached.invariant (fun _ initial => initial_written initial)
      fun _ _ _ written alone taken => step_written written alone taken
  have own := written.record directory operation disk recorded
  have accepts := fromOperation_iff valid own fun text known => written.publicKey directory text disk known
  constructor
  · rintro ⟨accepted, steps, t, ran, gone⟩
    refine ⟨?_, accepts.mp accepted⟩
    by_contra numbered
    have stuck := run_stuck valid own recorded (Option.isSome_iff_ne_none.mpr numbered)
      (withoutBox_stuck disk (written.fresh 0)) ran
    rw [stuck.disk] at gone
    cases gone
  · rintro ⟨unnumbered, present⟩
    have accepted := accepts.mpr present
    exact ⟨accepted, removal_runs valid own disk recorded unnumbered (written.fresh 0) accepted⟩

end Repair

section Sample

def sampleSettings : Settings where
  boxId := PboxId.generateText fun _ => ⟨3, by decide⟩
  node := "pve".toList
  port := 7443
  publicKey := "ssh-ed25519 AAAA pbox".toList
  process := 17
  stamp := 1700000000
  others := []

theorem sampleSettings_valid : Valid sampleSettings :=
  ⟨⟨_, rfl⟩, by decide, by rintro _ ⟨⟩⟩

def blank : State := ⟨none, .none, .absent, .start, fun _ => .looking⟩

theorem blank_initial : Initial blank := ⟨rfl, ⟨rfl, rfl⟩, ⟨rfl, fun _ => rfl⟩⟩

def samplePlace : Place := ⟨"pve".toList, 9000⟩

def alone : Action → Bool
  | .repair _ _ => false
  | _ => true

theorem alone_sound (s : State) (a : Action) (known : alone a = true) : Alone s a := by
  cases a with
  | repair => cases known
  | _ => trivial

/-- The creation task fails after the VMID has been recorded. -/
def failedTask : List Action :=
  [.new .generates, .new (.saves true), .new (.requests samplePlace), .accepts, .new .created, .new (.saves true),
    .collapses, .new (.finishes false), .new (.saves true)]

def failedRecord : BootstrapOperation :=
  { firstOperation sampleSettings with vmid := some 9000, phase := CONTAINER_CREATE_TASK }

/-- No repair removes that record. -/
theorem failed_task_stays : ∃ s, (system sampleSettings).ReachableBy Alone s ∧ s.remote = .absent ∧
    s.new = .ended ∧ s.disk = some ⟨true, some sampleSettings.publicKey, some failedRecord⟩ ∧
    ¬Removable sampleSettings s := by
  obtain ⟨s, ran⟩ := Option.isSome_iff_exists.mp
    (show ((system sampleSettings).runBy (fun _ => alone) blank failedTask).isSome = true by decide)
  have last : ((system sampleSettings).runBy (fun _ => alone) blank failedTask).map
      (fun s => (s.remote, s.new, s.disk)) =
      some (.absent, .ended, some ⟨true, some sampleSettings.publicKey, some failedRecord⟩) := by rfl
  rw [ran, Option.map_some, Option.some.injEq] at last
  simp only [Prod.mk.injEq] at last
  have reached : (system sampleSettings).ReachableBy Alone s :=
    System.reachableBy_of_runBy alone_sound (.start blank_initial) ran
  have written : Written sampleSettings s :=
    reached.invariant (fun _ initial => initial_written initial)
      fun _ _ _ written alone taken => step_written written alone taken
  refine ⟨s, reached, last.1, last.2.1, last.2.2, ?_⟩
  rintro ⟨steps, t, ran, gone⟩
  have stuck := run_stuck sampleSettings_valid (written.record _ _ last.2.2 rfl) rfl rfl
    (withoutBox_stuck last.2.2 (written.fresh 0)) ran
  rw [stuck.disk] at gone
  cases gone

/-- `run_new` is killed before it asks PVE for a container. -/
def killed : List Action := [.new .generates, .new (.saves true), .new .fails]

theorem killed_recoverable : ∃ s, (system sampleSettings).ReachableBy Alone s ∧
    s.disk = some ⟨true, some sampleSettings.publicKey, some (firstOperation sampleSettings)⟩ ∧
    Removable sampleSettings s := by
  obtain ⟨s, ran⟩ := Option.isSome_iff_exists.mp
    (show ((system sampleSettings).runBy (fun _ => alone) blank killed).isSome = true by decide)
  have last : ((system sampleSettings).runBy (fun _ => alone) blank killed).map (·.disk) =
      some (some ⟨true, some sampleSettings.publicKey, some (firstOperation sampleSettings)⟩) := by rfl
  rw [ran, Option.map_some, Option.some.injEq] at last
  have reached : (system sampleSettings).ReachableBy Alone s :=
    System.reachableBy_of_runBy alone_sound (.start blank_initial) ran
  have both := (recoverable_iff sampleSettings sampleSettings_valid reached last rfl).mpr ⟨rfl, rfl, rfl⟩
  exact ⟨s, reached, last, both.2⟩

end Sample

end Pbox.Cli.BootstrapRecovery
