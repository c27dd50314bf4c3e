import Pbox.Cli.RelayTemplate

/-! While the private template is in storage, or can still come there, a record names it; and nothing of it
goes while a creation reads it. Both rest on what `cleanup_template` knows when its check passes. -/

namespace Pbox.Cli.RelayCleanup
open Pbox.Lib.Strings Pbox.Lib.Transition Pbox.Cli.BootstrapFiles Pbox.Cli.RelayTemplate

def Upload.pending : Upload → Bool
  | .sent | .running _ => true
  | _ => false

/-- A creation reads the template, or may come to. -/
def Create.reads : Create → Bool
  | .flying | .running _ => true
  | _ => false

/-- `run_new` is going to send an upload or a creation. -/
def NewPc.asks (create : Create) : NewPc → Bool
  | .start | .saving _ .prepare | .saving _ .uploaded | .saving _ .ready | .preparing _ | .uploading _ | .uploaded _
  | .ready _ => true
  | .requesting _ => create = .rejected
  | _ => false

/-- Nothing writes or reads the template any more, and nothing is going to. -/
structure Settled (s : State) : Prop where
  upload : Upload.pending s.upload = false
  create : Create.reads s.create = false
  new : NewPc.asks s.create s.new = false

/-- The check of a repair that has found no container is right about what is still under way. -/
def Definite (s : State) : Action → Prop
  | .clean (.run r) .checks => ∀ key operation, s.runs r = .cleaning false (.checking key operation) → Settled s
  | _ => True

section Spec
variable (settings : Settings) (s : State)

/-- The recovery record names the template. -/
def Named : Prop :=
  ∃ directory operation, s.disk = some directory ∧ directory.operation = some operation ∧
    operation.relayTemplate = some (volume settings)

def Recorded : Prop := ∃ directory, s.disk = some directory ∧ directory.operation.isSome = true

structure Cleared : Prop where
  settled : Settled s
  absent : s.storage (volume settings) = false

/-- A record that is held by a process, or on disk, names the template unless it is gone for good. -/
def Held (operation : BootstrapOperation) : Prop :=
  operation.relayTemplate = some (volume settings) ∨ Cleared settings s

/-- Before the upload. -/
structure Fresh : Prop where
  upload : s.upload = .none
  create : s.create = .none
  absent : s.storage (volume settings) = false

def Uploaded : Prop := ∃ upid ok, s.upload = .finished upid ok

/-- Before a creation that PVE accepts. -/
structure Ready : Prop where
  upload : Uploaded s
  create : s.create = .none ∨ s.create = .rejected

def CleanPc.needs : CleanPc → Prop
  | .checking _ operation => Held settings s operation
  | .unmarking _ operation | .listing _ operation | .deleting _ operation | .awaiting _ operation =>
    Settled s ∧ Held settings s operation
  | .clearing _ _ | .done => Cleared settings s

def NewPc.needs : NewPc → Prop
  | .start => Fresh settings s
  | .saving operation .prepare | .preparing operation => Fresh settings s ∧ Held settings s operation
  | .uploading operation | .saving operation .uploaded | .uploaded operation =>
    s.create = .none ∧ Held settings s operation
  | .saving operation .ready | .ready operation => Ready s ∧ Held settings s operation
  | .requesting operation | .saving operation .creating | .creating operation => Held settings s operation
  | .saving operation .clean => Settled s ∧ Held settings s operation
  | .cleaning pc => Settled s ∧ CleanPc.needs settings s pc
  | .connecting | .removing => Cleared settings s
  | .ended => True

def RunPc.needs : RunPc → Prop
  | .loaded _ operation => Held settings s operation
  | .probing _ operation => Held settings s operation
  | .pending => Settled s
  | .cleaning seen pc => (seen = true → Settled s) ∧ CleanPc.needs settings s pc
  | .removing => Cleared settings s
  | _ => True

def Deletion.needs : Deletion → Prop
  | .sent name => Settled s ∧ (name = volume settings ∨ Cleared settings s)
  | .succeeded => Cleared settings s
  | _ => True

/-- `run_new` has not written its first record. -/
def NewPc.unsaved : NewPc → Bool
  | .start | .saving _ .prepare => true
  | _ => false

/-- What the record on disk is worth. -/
structure Filed : Prop where
  record : ∀ directory operation, s.disk = some directory → directory.operation = some operation →
    Held settings s operation
  named : Named settings s ∨ Cleared settings s ∨ NewPc.unsaved s.new = true

structure Sound : Prop where
  new : NewPc.needs settings s s.new
  runs : ∀ r, RunPc.needs settings s (s.runs r)
  deletions : ∀ who, Deletion.needs settings s (s.deletions who)
  filed : Filed settings s
  placed : s.storage (volume settings) = true ∨ s.create ≠ .none → Uploaded s

end Spec

section Proofs
variable {settings : Settings} {s t : State}

theorem Settled.turns (settled : Settled s) (r : Nat) (pc : RunPc) : Settled (s.turns r pc) :=
  ⟨settled.upload, settled.create, settled.new⟩

/-- A step after which still nothing is asked for, and that leaves the storage alone. -/
def Calm (s t : State) : Prop := Settled t ∧ t.storage = s.storage

theorem Settled.goes (settled : Settled s) {pc : NewPc} (quiet : NewPc.asks s.create pc = false)
    (taken : some (s.goes pc) = some t) : Calm s t := by
  cases taken
  exact ⟨⟨settled.upload, settled.create, quiet⟩, rfl⟩

theorem newStep_calm {a : NewAction} (settled : Settled s) (taken : newStep settings s a = some t) : Calm s t := by
  have quiet := settled.new
  cases a with
  | generates =>
    simp only [newStep] at taken
    split at taken
    next now => rw [now] at quiet; cases quiet
    next => cases taken
  | saves written =>
    simp only [newStep] at taken
    split at taken
    next operation next now =>
      split at taken
      next directory saved =>
        cases taken
        refine ⟨⟨settled.upload, settled.create, ?_⟩, rfl⟩
        rw [now] at quiet
        cases next <;> first | rfl | cases quiet
      next => cases taken
    next => cases taken
  | uploads =>
    simp only [newStep] at taken
    split at taken
    next now => rw [now] at quiet; cases quiet
    next => cases taken
  | uploaded =>
    simp only [newStep] at taken
    split at taken
    next now _ => rw [now] at quiet; cases quiet
    next => cases taken
  | awaits =>
    simp only [newStep] at taken
    split at taken
    next now _ => rw [now] at quiet; cases quiet
    next => cases taken
  | requests =>
    simp only [newStep] at taken
    split at taken
    next now => rw [now] at quiet; cases quiet
    next => cases taken
  | conflicts =>
    simp only [newStep] at taken
    split at taken
    next now =>
      simp only [Option.ite_none_right_eq_some, Option.some.injEq] at taken
      rw [now] at quiet
      exact absurd taken.1 (of_decide_eq_false quiet)
    next => cases taken
  | finishes =>
    simp only [newStep] at taken
    split at taken
    · exact settled.goes rfl taken
    · exact settled.goes rfl taken
    · cases taken
  | connects =>
    simp only [newStep] at taken
    split at taken
    · split at taken
      · exact settled.goes rfl taken
      · cases taken
    · cases taken
  | unlinks file =>
    simp only [newStep] at taken
    split at taken
    · cases taken
      exact ⟨⟨settled.upload, settled.create, settled.new⟩, rfl⟩
    · cases taken
  | removes =>
    simp only [newStep] at taken
    split at taken
    · cases taken
      exact ⟨⟨settled.upload, settled.create, rfl⟩, rfl⟩
    · cases taken
  | fails => exact settled.goes rfl taken
  | _ =>
    simp only [newStep] at taken
    split at taken
    · exact settled.goes rfl taken
    · cases taken

/-- Only a rejected creation is asked for again. -/
theorem asks_past {create other : Create} (past : other ≠ .rejected) {pc : NewPc}
    (quiet : NewPc.asks create pc = false) : NewPc.asks other pc = false := by
  cases pc with
  | requesting operation => exact decide_eq_false past
  | saving operation next => cases next <;> first | rfl | cases quiet
  | _ => exact quiet

theorem destroy_past {create gone : Create} (destroyed : create.destroy = some gone) :
    Create.reads gone = false ∧ gone ≠ .rejected := by
  cases create <;> cases destroyed <;> exact ⟨rfl, nofun⟩

theorem runStep_calm {r : Nat} {a : RunAction} (settled : Settled s) (taken : runStep settings s r a = some t) :
    Calm s t := by
  have turns {pc : RunPc} (turned : some (s.turns r pc) = some t) : Calm s t :=
    Option.some.inj turned ▸ ⟨settled.turns r pc, rfl⟩
  cases a with
  | destroys =>
    simp only [runStep] at taken
    split at taken
    next create _ gone =>
      cases taken
      obtain ⟨unread, past⟩ := destroy_past gone
      exact ⟨⟨settled.upload, unread, asks_past past settled.new⟩, rfl⟩
    next => cases taken
  | unlinks file =>
    simp only [runStep] at taken
    split at taken
    · cases taken
      exact ⟨⟨settled.upload, settled.create, settled.new⟩, rfl⟩
    · cases taken
  | removes =>
    simp only [runStep] at taken
    split at taken
    · cases taken
      exact ⟨⟨settled.upload, settled.create, settled.new⟩, rfl⟩
    · cases taken
  | fails => exact turns taken
  | resumes =>
    simp only [runStep] at taken
    split at taken
    · exact turns taken
    · cases taken
  | cleaned =>
    simp only [runStep] at taken
    split at taken
    · exact turns taken
    · cases taken
  | _ =>
    simp only [runStep] at taken
    split at taken
    · split at taken
      · exact turns taken
      · cases taken
    · cases taken

/-- What one `cleanup_template` step goes from and to, and what it writes. -/
inductive Sweep (s : State) (who : Party) : CleanPc → CleanPc → Option Directory → (Party → Deletion) → Prop
  | unmark {key : BootstrapKey} {operation : BootstrapOperation} {upid : Text}
      (task : operation.relayTask = some upid) (idle : s.busy upid = false) :
      Sweep s who (.checking key operation) (.unmarking key { operation with relayTask := none }) s.disk s.deletions
  | skip {key : BootstrapKey} {operation : BootstrapOperation} (task : operation.relayTask = none) :
      Sweep s who (.checking key operation) (.listing key operation) s.disk s.deletions
  | unmarked {key : BootstrapKey} {operation : BootstrapOperation} {directory : Directory}
      (saved : saveOperation key operation s.disk = .ok directory) :
      Sweep s who (.unmarking key operation) (.listing key operation) (some directory) s.deletions
  | unnamed {key : BootstrapKey} {operation : BootstrapOperation} (unnamed : operation.relayTemplate = none) :
      Sweep s who (.listing key operation) .done s.disk s.deletions
  | listed {key : BootstrapKey} {operation : BootstrapOperation} {name : Text}
      (names : operation.relayTemplate = some name) (present : s.storage name = true) :
      Sweep s who (.listing key operation) (.deleting key operation) s.disk s.deletions
  | absent {key : BootstrapKey} {operation : BootstrapOperation} {name : Text}
      (names : operation.relayTemplate = some name) (absent : s.storage name = false) :
      Sweep s who (.listing key operation) (.clearing key { operation with relayTemplate := none }) s.disk s.deletions
  | delete {key : BootstrapKey} {operation : BootstrapOperation} {name : Text}
      (names : operation.relayTemplate = some name) :
      Sweep s who (.deleting key operation) (.awaiting key operation) s.disk
        (Function.update s.deletions who (.sent name))
  | deleted {key : BootstrapKey} {operation : BootstrapOperation} (gone : s.deletions who = .succeeded) :
      Sweep s who (.awaiting key operation) (.clearing key { operation with relayTemplate := none }) s.disk s.deletions
  | cleared {key : BootstrapKey} {operation : BootstrapOperation} {directory : Directory}
      (saved : saveOperation key operation s.disk = .ok directory) :
      Sweep s who (.clearing key operation) .done (some directory) s.deletions

/-- The parts that a volume is split into are the volume that gets deleted. -/
theorem deletedVolume_eq {name : Text} {parts : Text × Text} {gone : Text} (split : splitVolume name = some parts)
    (deleted : deletedVolume parts.1 parts.2 = some gone) : gone = name := by
  unfold splitVolume at split
  obtain ⟨i, found, rfl⟩ := Option.map_eq_some_iff.mp split
  unfold deletedVolume at deleted
  simp only [Option.ite_none_right_eq_some, Option.some.injEq] at deleted
  obtain ⟨rest, eq⟩ := (find_eq_some.mp found).1
  calc gone = name.take i ++ VZTMPL ++ name.drop (i + VZTMPL.length) := deleted.2.symm
    _ = name.take i ++ (VZTMPL ++ (name.drop i).drop VZTMPL.length) := by rw [List.append_assoc, List.drop_drop]
    _ = name.take i ++ name.drop i := by rw [← eq, List.drop_left]
    _ = name := List.take_append_drop i name

theorem cleanStep_cases {who : Party} {a : CleanAction} (taken : cleanStep s who a = some t) :
    ∃ pc pc' disk deletions, s.cleaner who = some pc ∧ Sweep s who pc pc' disk deletions ∧
      t = State.sweeps { s with disk, deletions } pc' who ∧
      (∀ key operation, pc = .checking key operation → a = .checks) := by
  cases a with
  | checks =>
    simp only [cleanStep] at taken
    split at taken
    next key operation now =>
      split at taken
      next upid task =>
        split at taken
        next => cases taken
        next idle =>
          cases taken
          exact ⟨_, _, _, _, now, .unmark task (by simpa using idle), rfl, fun _ _ _ => rfl⟩
      next task =>
        cases taken
        exact ⟨_, _, _, _, now, .skip task, rfl, fun _ _ _ => rfl⟩
    next => cases taken
  | saves written =>
    simp only [cleanStep] at taken
    split at taken
    next key operation now =>
      split at taken
      next directory saved =>
        cases taken
        exact ⟨_, _, _, _, now, .unmarked saved, rfl, nofun⟩
      next => cases taken
    next key operation now =>
      split at taken
      next directory saved =>
        cases taken
        exact ⟨_, _, _, _, now, .cleared saved, rfl, nofun⟩
      next => cases taken
    next => cases taken
  | lists =>
    simp only [cleanStep] at taken
    split at taken
    next key operation now =>
      split at taken
      next unnamed =>
        cases taken
        exact ⟨_, _, _, _, now, .unnamed unnamed, rfl, nofun⟩
      next name names =>
        split at taken
        next => cases taken
        next =>
          split at taken
          next present =>
            cases taken
            exact ⟨_, _, _, _, now, .listed names present, rfl, nofun⟩
          next absent =>
            cases taken
            exact ⟨_, _, _, _, now, .absent names (by simpa using absent), rfl, nofun⟩
    next => cases taken
  | deletes =>
    simp only [cleanStep] at taken
    split at taken
    next key operation now =>
      split at taken
      next gone deleted =>
        cases taken
        obtain ⟨parts, split, removed⟩ := Option.bind_eq_some_iff.mp deleted
        obtain ⟨name, names, split⟩ := Option.bind_eq_some_iff.mp split
        rw [deletedVolume_eq split removed]
        exact ⟨_, _, _, _, now, .delete names, rfl, nofun⟩
      next => cases taken
    next => cases taken
  | awaits =>
    simp only [cleanStep] at taken
    split at taken
    next key operation now =>
      simp only [Option.ite_none_right_eq_some, Option.some.injEq] at taken
      obtain ⟨gone, rfl⟩ := taken
      exact ⟨_, _, _, _, now, .deleted gone, rfl, nofun⟩
    next => cases taken

/-- What has come to rest stays at rest. -/
structure Keeps (settings : Settings) (s t : State) : Prop where
  settled : Settled s → Settled t
  cleared : Cleared settings s → Cleared settings t

theorem Keeps.of_calm (calm : Settled s → Calm s t) : Keeps settings s t where
  settled settled := (calm settled).1
  cleared cleared := ⟨(calm cleared.settled).1, by rw [(calm cleared.settled).2]; exact cleared.absent⟩

theorem sweeps_calm (settled : Settled s) (pc : CleanPc) (who : Party) (disk : Option Directory)
    (deletions : Party → Deletion) : Calm s (State.sweeps { s with disk, deletions } pc who) := by
  cases who with
  | new => exact ⟨⟨settled.upload, settled.create, rfl⟩, rfl⟩
  | run r =>
    simp only [State.sweeps]
    split <;> exact ⟨⟨settled.upload, settled.create, settled.new⟩, rfl⟩

theorem Settled.not_pending {upload : Upload} (settled : Settled s) (now : s.upload = upload)
    (pending : Upload.pending upload = true) : False := by
  rw [← now, settled.upload] at pending
  cases pending

theorem Settled.not_reads {create : Create} (settled : Settled s) (now : s.create = create)
    (reads : Create.reads create = true) : False := by
  rw [← now, settled.create] at reads
  cases reads

/-- The steps of PVE, and of other clients. -/
def Action.remote : Action → Bool
  | .new _ | .run _ _ | .clean _ _ => false
  | _ => true

theorem remote_keeps {a : Action} (theirs : Action.remote a = true) (taken : step settings s a = some t) :
    Keeps settings s t := by
  have unsettled (impossible : ¬Settled s) : Keeps settings s t :=
    ⟨fun settled => (impossible settled).elim, fun cleared => (impossible cleared.settled).elim⟩
  cases a with
  | new b => cases theirs
  | run r b => cases theirs
  | clean who b => cases theirs
  | uploadAccepted upid =>
    simp only [step, Option.ite_none_right_eq_some] at taken
    exact unsettled fun settled => settled.not_pending taken.1 rfl
  | uploadRejected =>
    simp only [step, Option.ite_none_right_eq_some] at taken
    exact unsettled fun settled => settled.not_pending taken.1 rfl
  | uploadEnds ok =>
    simp only [step] at taken
    split at taken
    next upid now => exact unsettled fun settled => settled.not_pending now rfl
    next => cases taken
  | createAccepted upid =>
    simp only [step, Option.ite_none_right_eq_some] at taken
    exact unsettled fun settled => settled.not_reads taken.1 rfl
  | createRejected =>
    simp only [step, Option.ite_none_right_eq_some] at taken
    exact unsettled fun settled => settled.not_reads taken.1 rfl
  | extracted | createFails =>
    simp only [step] at taken
    split at taken
    next upid now => exact unsettled fun settled => settled.not_reads now rfl
    next => cases taken
  | started =>
    simp only [step] at taken
    split at taken
    next upid now =>
      cases taken
      exact Keeps.of_calm fun settled =>
        ⟨⟨settled.upload, rfl, asks_past (show Create.existing upid ≠ .rejected from nofun) settled.new⟩, rfl⟩
    next => cases taken
  | destroyed =>
    obtain ⟨create, gone, rfl⟩ := Option.map_eq_some_iff.mp taken
    obtain ⟨unread, past⟩ := destroy_past gone
    exact Keeps.of_calm fun settled => ⟨⟨settled.upload, unread, asks_past past settled.new⟩, rfl⟩
  | deletionEnds who ok =>
    simp only [step] at taken
    split at taken
    next name sent =>
      cases taken
      have same (settled : Settled s) (storage : Text → Bool) (deletions : Party → Deletion) :
          Settled { s with storage, deletions } := ⟨settled.upload, settled.create, settled.new⟩
      refine ⟨fun settled => same settled _ _, fun cleared => ⟨same cleared.settled _ _, ?_⟩⟩
      cases ok with
      | false => exact cleared.absent
      | true =>
        by_cases here : volume settings = name
        · simp [here]
        · simpa [Function.update_of_ne here] using cleared.absent
    next => cases taken

theorem step_keeps {a : Action} (taken : step settings s a = some t) : Keeps settings s t := by
  cases a with
  | new b => exact .of_calm fun settled => newStep_calm settled taken
  | run r b => exact .of_calm fun settled => runStep_calm settled taken
  | clean who b =>
    obtain ⟨pc, pc', disk, deletions, _, _, rfl, _⟩ := cleanStep_cases taken
    exact .of_calm fun settled => sweeps_calm settled pc' who disk deletions
  | _ => exact remote_keeps rfl taken

section Keeping
variable (keeps : Keeps settings s t)
include keeps

theorem Keeps.held {operation : BootstrapOperation} (held : Held settings s operation) : Held settings t operation :=
  held.imp_right keeps.cleared

theorem Keeps.cleaner {pc : CleanPc} (needs : CleanPc.needs settings s pc) : CleanPc.needs settings t pc := by
  cases pc with
  | checking => exact keeps.held needs
  | clearing => exact keeps.cleared needs
  | done => exact keeps.cleared needs
  | _ => exact ⟨keeps.settled needs.1, keeps.held needs.2⟩

theorem Keeps.run {pc : RunPc} (needs : RunPc.needs settings s pc) : RunPc.needs settings t pc := by
  cases pc with
  | loaded => exact keeps.held needs
  | probing => exact keeps.held needs
  | pending => exact keeps.settled needs
  | cleaning seen pc => exact ⟨fun known => keeps.settled (needs.1 known), keeps.cleaner needs.2⟩
  | removing => exact keeps.cleared needs
  | _ => trivial

theorem Keeps.deletion {deletion : Deletion} (needs : Deletion.needs settings s deletion) :
    Deletion.needs settings t deletion := by
  cases deletion with
  | sent name => exact ⟨keeps.settled needs.1, needs.2.imp_right keeps.cleared⟩
  | succeeded => exact keeps.cleared needs
  | _ => trivial

/-- What the others do leaves the calls that `run_new` has still to make as they are. -/
theorem Keeps.new {pc : NewPc} (fresh : Fresh settings s → Fresh settings t)
    (uncreated : s.create = .none → t.create = .none) (ready : Ready s → Ready t) (needs : NewPc.needs settings s pc) :
    NewPc.needs settings t pc := by
  cases pc with
  | start => exact fresh needs
  | saving operation next =>
    cases next with
    | prepare => exact ⟨fresh needs.1, keeps.held needs.2⟩
    | uploaded => exact ⟨uncreated needs.1, keeps.held needs.2⟩
    | ready => exact ⟨ready needs.1, keeps.held needs.2⟩
    | creating => exact keeps.held needs
    | clean => exact ⟨keeps.settled needs.1, keeps.held needs.2⟩
  | preparing => exact ⟨fresh needs.1, keeps.held needs.2⟩
  | uploading => exact ⟨uncreated needs.1, keeps.held needs.2⟩
  | uploaded => exact ⟨uncreated needs.1, keeps.held needs.2⟩
  | ready => exact ⟨ready needs.1, keeps.held needs.2⟩
  | requesting => exact keeps.held needs
  | creating => exact keeps.held needs
  | cleaning => exact ⟨keeps.settled needs.1, keeps.cleaner needs.2⟩
  | connecting => exact keeps.cleared needs
  | removing => exact keeps.cleared needs
  | ended => trivial

end Keeping

/-! What is on disk. -/

theorem saved_operation {key : BootstrapKey} {operation : BootstrapOperation} {disk : Option Directory}
    {directory : Directory} (saved : saveOperation key operation disk = .ok directory) :
    directory.operation = some operation := by
  unfold saveOperation at saved
  split at saved
  · cases saved
  · split at saved
    · cases saved
    · split at saved
      · cases saved
        rfl
      · cases saved

theorem Cleared.filed (cleared : Cleared settings s) : Filed settings s :=
  ⟨fun _ _ _ _ => .inr cleared, .inr (.inl cleared)⟩

theorem Held.filed {operation : BootstrapOperation} {directory : Directory} (held : Held settings s operation)
    (disk : s.disk = some directory) (recorded : directory.operation = some operation) : Filed settings s where
  record other found present known := by
    rw [disk] at present
    cases present
    rw [recorded] at known
    cases known
    exact held
  named := by
    rcases held with names | cleared
    · exact .inl ⟨directory, operation, disk, recorded, names⟩
    · exact .inr (.inl cleared)

theorem Filed.keeps (filed : Filed settings s) (keeps : Keeps settings s t) (disk : t.disk = s.disk)
    (unsaved : NewPc.unsaved s.new = true → Cleared settings t ∨ NewPc.unsaved t.new = true) : Filed settings t := by
  refine ⟨fun directory operation present known => ?_, ?_⟩
  · rw [disk] at present
    exact keeps.held (filed.record directory operation present known)
  · rcases filed.named with named | cleared | first
    · unfold Named at named ⊢
      rw [disk]
      exact .inl named
    · exact .inr (.inl (keeps.cleared cleared))
    · exact .inr (unsaved first)

/-- A record that is found is the one on disk. -/
theorem pending_record {key : BootstrapKey} {operation : BootstrapOperation}
    (found : pending settings s = some (key, operation)) :
    ∃ directory, s.disk = some directory ∧ directory.operation = some operation := by
  unfold pending at found
  cases disk : s.disk with
  | none =>
    simp only [disk, Option.toList_none, List.nil_append, findPending,
      findPendingFrom_foreign settings.foreign] at found
    cases found
  | some directory =>
    refine ⟨directory, rfl, ?_⟩
    simp only [disk, Option.toList_some, List.singleton_append] at found
    cases recorded : directory.operation with
    | none =>
      have foreign : Foreign settings.boxId directory := by
        intro operation present
        rw [recorded] at present
        cases present
      simp only [findPending, findPendingFrom_foreign (List.forall_mem_cons.mpr ⟨foreign, settings.foreign⟩)] at found
      cases found
    | some present =>
      by_cases own : present.boxId = settings.boxId ∧ present.phase ≠ COMPLETE
      · rw [findPending_single settings.foreign recorded own.1 own.2] at found
        cases read : fromOperation directory present with
        | error error =>
          rw [read] at found
          cases found
        | ok key =>
          rw [read] at found
          cases found
          rfl
      · have foreign : Foreign settings.boxId directory := by
          intro operation known
          rw [recorded] at known
          cases known
          by_cases same : present.boxId = settings.boxId
          · exact .inr (by_contra fun pending => own ⟨same, pending⟩)
          · exact .inl same
        simp only [findPending, findPendingFrom_foreign (List.forall_mem_cons.mpr ⟨foreign, settings.foreign⟩)] at found
        cases found

/-! The steps of `run_new`. -/

theorem Fresh.cleared (fresh : Fresh settings s) (quiet : NewPc.asks s.create s.new = false) : Cleared settings s where
  settled := ⟨by rw [fresh.upload]; rfl, by rw [fresh.create]; rfl, quiet⟩
  absent := fresh.absent

theorem Sound.fresh (sound : Sound settings s) (unsaved : NewPc.unsaved s.new = true) : Fresh settings s := by
  have needs := sound.new
  cases now : s.new with
  | start => rw [now] at needs; exact needs
  | saving operation next =>
    rw [now] at needs unsaved
    cases next with
    | prepare => exact needs.1
    | _ => cases unsaved
  | _ => rw [now] at unsaved; cases unsaved

/-- A creation that has come to rest is behind everything that `run_new` asks for. -/
theorem Sound.settled (sound : Sound settings s) {upid : Text} (asked : s.create.upid? = some upid)
    (unread : Create.reads s.create = false) : Settled s := by
  have past : s.create ≠ .none ∧ s.create ≠ .rejected := by
    cases create : s.create <;> rw [create] at asked <;> first | (cases asked; done) | exact ⟨nofun, nofun⟩
  obtain ⟨upid, ok, finished⟩ := sound.placed (.inr past.1)
  have needs := sound.new
  refine ⟨by rw [finished]; rfl, unread, ?_⟩
  cases pc : s.new with
  | requesting operation => exact decide_eq_false past.2
  | start => rw [pc] at needs; exact (past.1 needs.create).elim
  | preparing operation => rw [pc] at needs; exact (past.1 needs.1.create).elim
  | uploading operation => rw [pc] at needs; exact (past.1 needs.1).elim
  | uploaded operation => rw [pc] at needs; exact (past.1 needs.1).elim
  | ready operation => rw [pc] at needs; exact (needs.1.create.elim past.1 past.2).elim
  | saving operation next =>
    rw [pc] at needs
    cases next with
    | prepare => exact (past.1 needs.1.create).elim
    | uploaded => exact (past.1 needs.1).elim
    | ready => exact (needs.1.create.elim past.1 past.2).elim
    | creating => rfl
    | clean => rfl
  | _ => rfl

/-- The place that `run_new` has come to when nothing else has changed. -/
theorem Sound.goes (sound : Sound settings s) {pc : NewPc} (keeps : Keeps settings s (s.goes pc))
    (needs : NewPc.needs settings (s.goes pc) pc)
    (unsaved : NewPc.unsaved s.new = true → Cleared settings (s.goes pc)) : Sound settings (s.goes pc) where
  new := needs
  runs r := keeps.run (sound.runs r)
  deletions who := keeps.deletion (sound.deletions who)
  filed := sound.filed.keeps keeps rfl fun first => .inl (unsaved first)
  placed := sound.placed

theorem newSaves_sound (sound : Sound settings s) {written : Bool}
    (taken : newStep settings s (.saves written) = some t) : Sound settings t := by
  have keeps := step_keeps (show step settings s (.new (.saves written)) = some t from taken)
  simp only [newStep] at taken
  split at taken
  next operation next now =>
    have needs := sound.new
    rw [now] at needs
    split at taken
    next directory saved =>
      cases taken
      have runs (r : Nat) := keeps.run (sound.runs r)
      have deletions (who : Party) := keeps.deletion (sound.deletions who)
      have filed {held : Held settings s operation} := (keeps.held held).filed rfl (saved_operation saved)
      cases next with
      | prepare =>
        obtain ⟨fresh, held⟩ := needs
        exact ⟨⟨⟨fresh.upload, fresh.create, fresh.absent⟩, keeps.held held⟩, runs, deletions, @filed held,
          sound.placed⟩
      | uploaded =>
        obtain ⟨uncreated, held⟩ := needs
        exact ⟨⟨uncreated, keeps.held held⟩, runs, deletions, @filed held, sound.placed⟩
      | ready =>
        obtain ⟨ready, held⟩ := needs
        exact ⟨⟨⟨ready.upload, ready.create⟩, keeps.held held⟩, runs, deletions, @filed held, sound.placed⟩
      | creating => exact ⟨keeps.held needs, runs, deletions, @filed needs, sound.placed⟩
      | clean =>
        obtain ⟨settled, held⟩ := needs
        exact ⟨⟨keeps.settled settled, keeps.held held⟩, runs, deletions, @filed held, sound.placed⟩
    next => cases taken
  next => cases taken

theorem newStep_sound {a : NewAction} (sound : Sound settings s) (taken : newStep settings s a = some t) :
    Sound settings t := by
  have keeps := step_keeps (show step settings s (.new a) = some t from taken)
  have needs := sound.new
  cases a with
  | saves written => exact newSaves_sound sound taken
  | generates =>
    simp only [newStep] at taken
    split at taken
    next now =>
      cases taken
      rw [now] at needs
      refine ⟨⟨⟨needs.upload, needs.create, needs.absent⟩, .inl rfl⟩, fun r => keeps.run (sound.runs r),
        fun who => keeps.deletion (sound.deletions who), ⟨?_, .inr (.inr rfl)⟩, sound.placed⟩
      rintro directory operation ⟨⟩ ⟨⟩
    next => cases taken
  | unprepared =>
    simp only [newStep] at taken
    split at taken
    next operation now =>
      cases taken
      rw [now] at needs
      have fresh : Fresh settings (s.goes .removing) := ⟨needs.1.upload, needs.1.create, needs.1.absent⟩
      exact sound.goes keeps (fresh.cleared rfl) fun _ => fresh.cleared rfl
    next => cases taken
  | uploads =>
    simp only [newStep] at taken
    split at taken
    next operation now =>
      cases taken
      rw [now] at needs
      refine ⟨⟨needs.1.create, keeps.held needs.2⟩, fun r => keeps.run (sound.runs r),
        fun who => keeps.deletion (sound.deletions who), sound.filed.keeps keeps rfl ?_, ?_⟩
      · rw [now]
        rintro ⟨⟩
      · rintro (present | created)
        · exact absurd (needs.1.absent.symm.trans present) nofun
        · exact (created needs.1.create).elim
    next => cases taken
  | uploaded =>
    simp only [newStep] at taken
    split at taken
    next operation upid now _ =>
      cases taken
      rw [now] at needs
      exact sound.goes keeps ⟨needs.1, keeps.held needs.2⟩ (by rw [now]; rintro ⟨⟩)
    next => cases taken
  | awaits =>
    simp only [newStep] at taken
    split at taken
    next operation upid now finished =>
      cases taken
      rw [now] at needs
      exact sound.goes keeps ⟨⟨⟨upid, true, finished⟩, .inl needs.1⟩, keeps.held needs.2⟩ (by rw [now]; rintro ⟨⟩)
    next => cases taken
  | requests =>
    simp only [newStep] at taken
    split at taken
    next operation now =>
      cases taken
      rw [now] at needs
      refine ⟨keeps.held needs.2, fun r => keeps.run (sound.runs r), fun who => keeps.deletion (sound.deletions who),
        sound.filed.keeps keeps rfl ?_, fun _ => needs.1.upload⟩
      rw [now]
      rintro ⟨⟩
    next => cases taken
  | created vmid =>
    simp only [newStep] at taken
    split at taken
    next operation upid now _ =>
      cases taken
      rw [now] at needs
      exact sound.goes keeps (keeps.held needs) (by rw [now]; rintro ⟨⟩)
    next => cases taken
  | conflicts =>
    simp only [newStep] at taken
    split at taken
    next operation now =>
      simp only [Option.ite_none_right_eq_some, Option.some.injEq] at taken
      obtain ⟨rejected, rfl⟩ := taken
      rw [now] at needs
      have uploaded : Uploaded s := sound.placed (.inr (by rw [rejected]; rintro ⟨⟩))
      exact sound.goes keeps ⟨⟨uploaded, .inr rejected⟩, keeps.held needs⟩ (by rw [now]; rintro ⟨⟩)
    next => cases taken
  | finishes =>
    simp only [newStep] at taken
    split at taken
    next operation upid now existing =>
      cases taken
      rw [now] at needs
      have settled := sound.settled (show s.create.upid? = some upid by rw [existing]; rfl) (by rw [existing]; rfl)
      exact sound.goes keeps ⟨keeps.settled settled, keeps.held needs⟩ (by rw [now]; rintro ⟨⟩)
    next operation upid now destroyed =>
      cases taken
      rw [now] at needs
      have settled := sound.settled (show s.create.upid? = some upid by rw [destroyed]; rfl) (by rw [destroyed]; rfl)
      exact sound.goes keeps ⟨keeps.settled settled, keeps.held needs⟩ (by rw [now]; rintro ⟨⟩)
    next => cases taken
  | cleaned =>
    simp only [newStep] at taken
    split at taken
    next now =>
      cases taken
      rw [now] at needs
      exact sound.goes keeps (keeps.cleared needs.2) fun _ => keeps.cleared needs.2
    next => cases taken
  | connects =>
    simp only [newStep] at taken
    split at taken
    next now =>
      simp only [Option.ite_none_right_eq_some, Option.some.injEq] at taken
      obtain ⟨_, rfl⟩ := taken
      rw [now] at needs
      exact sound.goes keeps (keeps.cleared needs) fun _ => keeps.cleared needs
    next => cases taken
  | unlinks file =>
    simp only [newStep] at taken
    split at taken
    next now =>
      cases taken
      rw [now] at needs
      have cleared := keeps.cleared needs
      exact ⟨keeps.new (fun fresh => ⟨fresh.upload, fresh.create, fresh.absent⟩) id
        (fun ready => ⟨ready.upload, ready.create⟩) sound.new, fun r => keeps.run (sound.runs r),
        fun who => keeps.deletion (sound.deletions who), cleared.filed, sound.placed⟩
    next => cases taken
  | removes =>
    simp only [newStep] at taken
    split at taken
    next now =>
      cases taken
      rw [now] at needs
      exact ⟨trivial, fun r => keeps.run (sound.runs r), fun who => keeps.deletion (sound.deletions who),
        (keeps.cleared needs).filed, sound.placed⟩
    next => cases taken
  | fails =>
    cases taken
    refine sound.goes keeps trivial fun first => ?_
    have fresh := sound.fresh first
    exact Fresh.cleared ⟨fresh.upload, fresh.create, fresh.absent⟩ rfl

/-! The steps of the others. -/

/-- One run has moved on; the requests are where they were. -/
theorem Keeps.turned (keeps : Keeps settings s t) {r : Nat} {pc : RunPc} (sound : Sound settings s)
    (runs : t.runs = Function.update s.runs r pc) (needs : RunPc.needs settings t pc) (other : Nat) :
    RunPc.needs settings t (t.runs other) := by
  rw [runs]
  by_cases self : other = r
  · rw [self, Function.update_self]
    exact needs
  · rw [Function.update_of_ne self]
    exact keeps.run (sound.runs other)

/-- What `run_new` waits for does not change with files, runs and deletions. -/
theorem Keeps.waits (keeps : Keeps settings s t) (sound : Sound settings s) (upload : t.upload = s.upload)
    (create : t.create = s.create) (storage : t.storage = s.storage) (new : t.new = s.new) :
    NewPc.needs settings t t.new := by
  rw [new]
  refine keeps.new (fun fresh => ⟨by rw [upload]; exact fresh.upload, by rw [create]; exact fresh.create, ?_⟩)
    (fun uncreated => by rw [create]; exact uncreated) (fun ready => ⟨?_, by rw [create]; exact ready.create⟩) sound.new
  · rw [storage]
    exact fresh.absent
  · unfold Uploaded
    rw [upload]
    exact ready.upload

theorem Sound.turns (sound : Sound settings s) {r : Nat} {pc : RunPc} (keeps : Keeps settings s (s.turns r pc))
    (needs : RunPc.needs settings (s.turns r pc) pc) : Sound settings (s.turns r pc) where
  new := keeps.waits sound rfl rfl rfl rfl
  runs := keeps.turned sound rfl needs
  deletions who := keeps.deletion (sound.deletions who)
  filed := sound.filed.keeps keeps rfl .inr
  placed := sound.placed

theorem extracted_settled (sound : Sound settings s) (extracted : s.create.extracted = true) : Settled s := by
  cases create : s.create with
  | starting upid => exact sound.settled (show s.create.upid? = some upid by rw [create]; rfl) (by rw [create]; rfl)
  | existing upid => exact sound.settled (show s.create.upid? = some upid by rw [create]; rfl) (by rw [create]; rfl)
  | _ => rw [create] at extracted; cases extracted

/-- A container that can be destroyed has been created. -/
theorem destroyed_settled (sound : Sound settings s) {gone : Create} (destroyed : s.create.destroy = some gone) :
    Settled s := by
  cases create : s.create with
  | starting upid => exact extracted_settled sound (by rw [create]; rfl)
  | existing upid => exact extracted_settled sound (by rw [create]; rfl)
  | destroyed upid => exact sound.settled (show s.create.upid? = some upid by rw [create]; rfl) (by rw [create]; rfl)
  | _ => rw [create] at destroyed; cases destroyed

/-- The container is destroyed, by a delete of this model or by others. -/
theorem Sound.destroyed (sound : Sound settings s) {create : Create} (gone : s.create.destroy = some create) :
    Sound settings { s with create } := by
  have keeps : Keeps settings s { s with create } :=
    remote_keeps (show Action.remote .destroyed = true from rfl) (show (s.create.destroy.map _) = _ by rw [gone]; rfl)
  have past : s.create ≠ .none ∧ s.create ≠ .rejected := by
    cases create : s.create <;> rw [create] at gone <;> first | (cases gone; done) | exact ⟨nofun, nofun⟩
  refine ⟨keeps.new (fun fresh => (past.1 fresh.create).elim) (fun uncreated => (past.1 uncreated).elim)
    (fun ready => (ready.create.elim past.1 past.2).elim) sound.new, fun r => keeps.run (sound.runs r),
    fun who => keeps.deletion (sound.deletions who), sound.filed.keeps keeps rfl .inr, ?_⟩
  exact fun _ => sound.placed (.inr past.1)

theorem runStep_sound {r : Nat} {a : RunAction} (sound : Sound settings s)
    (taken : runStep settings s r a = some t) : Sound settings t := by
  have keeps := step_keeps (show step settings s (.run r a) = some t from taken)
  have needs := sound.runs r
  cases a with
  | looks =>
    simp only [runStep] at taken
    split at taken
    next key operation _ found =>
      simp only [Option.ite_none_right_eq_some, Option.some.injEq] at taken
      obtain ⟨_, rfl⟩ := taken
      obtain ⟨directory, disk, recorded⟩ := pending_record found
      exact sound.turns keeps (keeps.held (sound.filed.record directory operation disk recorded))
    next => cases taken
  | discovers seen =>
    simp only [runStep] at taken
    split at taken
    next key operation now =>
      simp only [Option.ite_none_right_eq_some, Option.some.injEq] at taken
      obtain ⟨_, rfl⟩ := taken
      rw [now] at needs
      cases seen with
      | true => exact sound.turns keeps (keeps.held needs)
      | false => exact sound.turns keeps ⟨nofun, keeps.held needs⟩
    next => cases taken
  | probes =>
    simp only [runStep] at taken
    split at taken
    next key operation now =>
      simp only [Option.ite_none_right_eq_some, Option.some.injEq] at taken
      obtain ⟨extracted, rfl⟩ := taken
      rw [now] at needs
      exact sound.turns keeps ⟨fun _ => keeps.settled (extracted_settled sound extracted), keeps.held needs⟩
    next => cases taken
  | finds wait =>
    simp only [runStep] at taken
    split at taken
    next =>
      simp only [Option.ite_none_right_eq_some, Option.some.injEq] at taken
      obtain ⟨_, rfl⟩ := taken
      refine sound.turns keeps ?_
      split <;> trivial
    next => cases taken
  | destroys =>
    simp only [runStep] at taken
    split at taken
    next create now gone =>
      cases taken
      have settled := keeps.settled (destroyed_settled sound gone)
      have destroyed := sound.destroyed gone
      exact destroyed.turns
        ⟨fun settled => settled.turns _ _, fun cleared => ⟨cleared.settled.turns _ _, cleared.absent⟩⟩ settled
    next => cases taken
  | resumes =>
    simp only [runStep] at taken
    split at taken
    next now =>
      cases taken
      rw [now] at needs
      refine sound.turns keeps ?_
      split
      next key operation found =>
        obtain ⟨directory, disk, recorded⟩ := pending_record found
        exact ⟨fun _ => Settled.turns needs _ _, .imp_right (fun cleared => ⟨cleared.settled.turns _ _, cleared.absent⟩)
          (sound.filed.record directory operation disk recorded)⟩
      next => trivial
    next => cases taken
  | cleaned =>
    simp only [runStep] at taken
    split at taken
    next now =>
      cases taken
      rw [now] at needs
      exact sound.turns keeps (keeps.cleared needs.2)
    next => cases taken
  | unlinks file =>
    simp only [runStep] at taken
    split at taken
    next now =>
      cases taken
      rw [now] at needs
      exact ⟨keeps.waits sound rfl rfl rfl rfl, fun r => keeps.run (sound.runs r),
        fun who => keeps.deletion (sound.deletions who), (keeps.cleared needs).filed, sound.placed⟩
    next => cases taken
  | removes =>
    simp only [runStep] at taken
    split at taken
    next now =>
      cases taken
      rw [now] at needs
      exact ⟨keeps.waits sound rfl rfl rfl rfl, keeps.turned sound rfl trivial,
        fun who => keeps.deletion (sound.deletions who), (keeps.cleared needs).filed, sound.placed⟩
    next => cases taken
  | fails =>
    cases taken
    exact sound.turns keeps trivial

theorem Settled.saved (settled : Settled s) : NewPc.unsaved s.new = false := by
  have quiet := settled.new
  cases new : s.new with
  | start => rw [new] at quiet; cases quiet
  | saving operation next =>
    rw [new] at quiet
    cases next <;> first | rfl | cases quiet
  | _ => rfl

theorem CleanPc.needs_settled {pc : CleanPc} (needs : CleanPc.needs settings s pc)
    (checked : ∀ key operation, pc = .checking key operation → Settled s) : Settled s := by
  cases pc with
  | checking key operation => exact checked key operation rfl
  | clearing => exact needs.settled
  | done => exact needs.settled
  | _ => exact needs.1

/-- What a `cleanup_template` that has passed its check goes on with. -/
theorem Sweep.sound {who : Party} {pc pc' : CleanPc} (sweep : Sweep s who pc pc' t.disk t.deletions)
    (sound : Sound settings s) (keeps : Keeps settings s t) (settled : Settled s)
    (needs : CleanPc.needs settings s pc) :
    CleanPc.needs settings t pc' ∧ (∀ other, Deletion.needs settings t (t.deletions other)) ∧ Filed settings t := by
  have first (unsaved : NewPc.unsaved s.new = true) : Cleared settings t ∨ NewPc.unsaved t.new = true :=
    absurd (settled.saved.symm.trans unsaved) nofun
  have deletions (same : t.deletions = s.deletions) (other : Party) :
      Deletion.needs settings t (t.deletions other) := by
    rw [same]
    exact keeps.deletion (sound.deletions other)
  have filed (same : t.disk = s.disk) : Filed settings t := sound.filed.keeps keeps same first
  generalize written : t.disk = disk at sweep
  generalize t.deletions = deleted at sweep deletions ⊢
  cases sweep with
  | unmark => exact ⟨⟨keeps.settled settled, keeps.held needs⟩, deletions rfl, filed written⟩
  | skip => exact ⟨⟨keeps.settled settled, keeps.held needs⟩, deletions rfl, filed written⟩
  | unmarked saved =>
    exact ⟨⟨keeps.settled settled, keeps.held needs.2⟩, deletions rfl,
      (keeps.held needs.2).filed written (saved_operation saved)⟩
  | unnamed unnamed =>
    refine ⟨?_, deletions rfl, filed written⟩
    rcases needs.2 with names | cleared
    · rw [unnamed] at names
      cases names
    · exact keeps.cleared cleared
  | listed => exact ⟨⟨keeps.settled settled, keeps.held needs.2⟩, deletions rfl, filed written⟩
  | @absent key operation name names absent =>
    refine ⟨keeps.cleared ?_, deletions rfl, filed written⟩
    rcases needs.2 with volume | cleared
    · rw [names, Option.some.injEq] at volume
      exact ⟨settled, volume ▸ absent⟩
    · exact cleared
  | @delete key operation name names =>
    refine ⟨⟨keeps.settled settled, keeps.held needs.2⟩, fun other => ?_, filed written⟩
    by_cases self : other = who
    · rw [self, Function.update_self]
      refine ⟨keeps.settled settled, needs.2.imp (fun volume => ?_) keeps.cleared⟩
      rw [names, Option.some.injEq] at volume
      exact volume
    · rw [Function.update_of_ne self]
      exact keeps.deletion (sound.deletions other)
  | deleted gone =>
    have cleared := sound.deletions who
    rw [gone] at cleared
    exact ⟨keeps.cleared cleared, deletions rfl, filed written⟩
  | cleared => exact ⟨keeps.cleared needs, deletions rfl, (keeps.cleared needs).filed⟩

theorem cleanStep_sound {who : Party} {a : CleanAction} (sound : Sound settings s)
    (definite : Definite s (.clean who a)) (taken : cleanStep s who a = some t) : Sound settings t := by
  have keeps := step_keeps (show step settings s (.clean who a) = some t from taken)
  obtain ⟨pc, pc', disk, deletions, now, sweep, rfl, checks⟩ := cleanStep_cases taken
  cases who with
  | new =>
    have here : s.new = .cleaning pc := by
      simp only [State.cleaner] at now
      split at now
      next at_pc => cases now; exact at_pc
      next => cases now
    have needs := sound.new
    rw [here] at needs
    obtain ⟨cleaner, sent, filed⟩ := @Sweep.sound settings s _ _ _ _ sweep sound keeps needs.1 needs.2
    exact ⟨⟨keeps.settled needs.1, cleaner⟩, fun r => keeps.run (sound.runs r), sent, filed, sound.placed⟩
  | run r =>
    obtain ⟨seen, here⟩ : ∃ seen, s.runs r = .cleaning seen pc := by
      simp only [State.cleaner] at now
      split at now
      next seen _ at_pc => cases now; exact ⟨seen, at_pc⟩
      next => cases now
    have needs := sound.runs r
    rw [here] at needs
    have settled : Settled s := by
      refine CleanPc.needs_settled needs.2 fun key operation checking => ?_
      cases seen with
      | true => exact needs.1 rfl
      | false =>
        rw [checks key operation checking] at definite
        exact definite key operation (checking ▸ here)
    have swept : State.sweeps { s with disk, deletions } pc' (.run r) =
        State.turns { s with disk, deletions } r (.cleaning seen pc') := by
      simp only [State.sweeps, here]
    rw [swept] at keeps ⊢
    obtain ⟨cleaner, sent, filed⟩ := @Sweep.sound settings s _ _ _ _ sweep sound keeps settled needs.2
    exact ⟨keeps.waits sound rfl rfl rfl rfl,
      keeps.turned sound rfl ⟨fun known => keeps.settled (needs.1 known), cleaner⟩, sent, filed, sound.placed⟩

/-- A request of `run_new` is answered, or its task moves on. -/
theorem Sound.answered (sound : Sound settings s) (keeps : Keeps settings s t) (runs : t.runs = s.runs)
    (deletions : t.deletions = s.deletions) (disk : t.disk = s.disk) (new : t.new = s.new)
    (fresh : Fresh settings s → Fresh settings t) (uncreated : s.create = .none → t.create = .none)
    (ready : Ready s → Ready t) (placed : t.storage (volume settings) = true ∨ t.create ≠ .none → Uploaded t) :
    Sound settings t where
  new := by
    rw [new]
    exact keeps.new fresh uncreated ready sound.new
  runs r := by
    rw [runs]
    exact keeps.run (sound.runs r)
  deletions who := by
    rw [deletions]
    exact keeps.deletion (sound.deletions who)
  filed := sound.filed.keeps keeps disk fun first => .inr (by rw [new]; exact first)
  placed := placed

theorem upload_sound (sound : Sound settings s) {upload : Upload} {storage : Text → Bool}
    (keeps : Keeps settings s { s with upload, storage }) (sent : Upload.pending s.upload = true)
    (placed : storage (volume settings) = true →
      Uploaded { s with upload, storage } ∨ s.storage (volume settings) = true) :
    Sound settings { s with upload, storage } := by
  have past (uploaded : Uploaded s) : False := by
    obtain ⟨upid, ok, finished⟩ := uploaded
    rw [finished] at sent
    cases sent
  refine sound.answered keeps rfl rfl rfl rfl (fun fresh => ?_) id (fun ready => (past ready.upload).elim) ?_
  · rw [fresh.upload] at sent
    cases sent
  · rintro (present | created)
    · exact (placed present).elim id fun before => (past (sound.placed (.inl before))).elim
    · exact (past (sound.placed (.inr created))).elim

theorem create_sound (sound : Sound settings s) {create : Create} (keeps : Keeps settings s { s with create })
    (asked : s.create ≠ .none) (ready : Ready s → create = .rejected) : Sound settings { s with create } :=
  sound.answered keeps rfl rfl rfl rfl (fun fresh => (asked fresh.create).elim)
    (fun uncreated => (asked uncreated).elim)
    (fun before => ⟨before.upload, .inr (ready before)⟩) fun _ => sound.placed (.inr asked)

/-- Once the creation is asked for and not refused, a task is no longer ready to ask for it. -/
theorem Ready.past {create : Create} (ready : Ready s) (now : s.create = create) (asked : create ≠ .none)
    (kept : create ≠ .rejected) : False := by
  rcases ready.create with uncreated | rejected
  · exact asked (now.symm.trans uncreated)
  · exact kept (now.symm.trans rejected)

theorem remote_sound {a : Action} (sound : Sound settings s) (theirs : Action.remote a = true)
    (taken : step settings s a = some t) : Sound settings t := by
  have keeps := step_keeps taken
  cases a with
  | new b => cases theirs
  | run r b => cases theirs
  | clean who b => cases theirs
  | uploadAccepted upid =>
    simp only [step, Option.ite_none_right_eq_some, Option.some.injEq] at taken
    obtain ⟨sent, rfl⟩ := taken
    exact upload_sound sound keeps (by rw [sent]; rfl) .inr
  | uploadRejected =>
    simp only [step, Option.ite_none_right_eq_some, Option.some.injEq] at taken
    obtain ⟨sent, rfl⟩ := taken
    exact upload_sound sound keeps (by rw [sent]; rfl) .inr
  | uploadEnds ok =>
    simp only [step] at taken
    split at taken
    next upid running =>
      cases taken
      exact upload_sound sound keeps (by rw [running]; rfl) fun _ => .inl ⟨upid, ok, rfl⟩
    next => cases taken
  | createAccepted upid =>
    simp only [step, Option.ite_none_right_eq_some, Option.some.injEq] at taken
    obtain ⟨flying, rfl⟩ := taken
    exact create_sound sound keeps (by rw [flying]; rintro ⟨⟩) fun ready =>
      (ready.past flying nofun nofun).elim
  | createRejected =>
    simp only [step, Option.ite_none_right_eq_some, Option.some.injEq] at taken
    obtain ⟨flying, rfl⟩ := taken
    exact create_sound sound keeps (by rw [flying]; rintro ⟨⟩) fun _ => rfl
  | extracted | createFails | started =>
    simp only [step] at taken
    split at taken
    next upid running =>
      cases taken
      exact create_sound sound keeps (by rw [running]; rintro ⟨⟩) fun ready =>
        (ready.past running nofun nofun).elim
    next => cases taken
  | destroyed =>
    obtain ⟨create, gone, rfl⟩ := Option.map_eq_some_iff.mp taken
    exact sound.destroyed gone
  | deletionEnds who ok =>
    simp only [step] at taken
    split at taken
    next name sent =>
      cases taken
      have deletion := sound.deletions who
      rw [sent] at deletion
      obtain ⟨settled, whose⟩ := deletion
      have lower {volume : Text}
          (present : (if ok then Function.update s.storage name false else s.storage) volume = true) :
          s.storage volume = true := by
        cases ok with
        | false => exact present
        | true =>
          by_cases here : volume = name
          · simp [here] at present
          · simpa [Function.update_of_ne here] using present
      refine ⟨keeps.new (fun fresh => ⟨fresh.upload, fresh.create, ?_⟩) id (fun ready => ⟨ready.upload, ready.create⟩)
        sound.new, fun r => keeps.run (sound.runs r), fun other => ?_, sound.filed.keeps keeps rfl .inr, ?_⟩
      · exact Bool.eq_false_iff.mpr fun present => absurd (fresh.absent.symm.trans (lower present)) nofun
      · by_cases self : other = who
        · simp only [self, Function.update_self]
          cases ok with
          | false => trivial
          | true =>
            rcases whose with here | cleared
            · exact ⟨keeps.settled settled, by simp [here]⟩
            · exact keeps.cleared cleared
        · simp only [Function.update_of_ne self]
          exact keeps.deletion (sound.deletions other)
      · exact fun present => sound.placed (present.imp_left lower)
    next => cases taken

theorem initial_sound (initial : Initial settings s) : Sound settings s := by
  obtain ⟨disk, storage, ⟨upload, create, deletions⟩, ⟨new, runs⟩⟩ := initial
  refine ⟨?_, fun r => ?_, fun who => ?_, ⟨fun directory operation present => ?_, ?_⟩, ?_⟩
  · rw [new]
    exact ⟨upload, create, storage⟩
  · rw [runs r]
    trivial
  · rw [deletions who]
    trivial
  · rw [disk] at present
    cases present
  · rw [new]
    exact .inr (.inr rfl)
  · rintro (present | created)
    · exact absurd (storage.symm.trans present) nofun
    · exact (created create).elim

theorem step_sound {a : Action} (sound : Sound settings s) (definite : Definite s a)
    (taken : step settings s a = some t) : Sound settings t := by
  cases a with
  | new b => exact newStep_sound sound taken
  | run r b => exact runStep_sound sound taken
  | clean who b => exact cleanStep_sound sound definite taken
  | _ => exact remote_sound sound rfl taken

theorem sound_of_definite (reached : (system settings).ReachableBy Definite s) : Sound settings s :=
  reached.invariant (fun _ initial => initial_sound initial) fun _ _ _ sound definite taken =>
    step_sound sound definite taken

/-! What may go while a creation reads the template. -/

/-- A step leaves the storage alone, and the record there, unless the directory is just made or is being removed. -/
def Spares (s t : State) (past : Prop) : Prop :=
  t.storage = s.storage ∧ (Recorded s → Recorded t ∨ past)

theorem spares_goes {past : Prop} {pc : NewPc} (taken : some (s.goes pc) = some t) : Spares s t past :=
  Option.some.inj taken ▸ ⟨rfl, .inl⟩

theorem spares_turns {past : Prop} {r : Nat} {pc : RunPc} (taken : some (s.turns r pc) = some t) : Spares s t past :=
  Option.some.inj taken ▸ ⟨rfl, .inl⟩

theorem newStep_spares {a : NewAction} (taken : newStep settings s a = some t) :
    Spares s t (s.new = .start ∨ s.new = .removing) := by
  cases a with
  | generates =>
    simp only [newStep] at taken
    split at taken
    next now => exact Option.some.inj taken ▸ ⟨rfl, fun _ => .inr (.inl now)⟩
    next => cases taken
  | saves written =>
    simp only [newStep] at taken
    split at taken
    · split at taken
      next directory saved =>
        cases taken
        exact ⟨rfl, fun _ => .inl ⟨directory, rfl, by rw [saved_operation saved]; rfl⟩⟩
      next => cases taken
    · cases taken
  | unlinks file =>
    simp only [newStep] at taken
    split at taken
    next now => exact Option.some.inj taken ▸ ⟨rfl, fun _ => .inr (.inr now)⟩
    next => cases taken
  | removes =>
    simp only [newStep] at taken
    split at taken
    next now => exact Option.some.inj taken ▸ ⟨rfl, fun _ => .inr (.inr now)⟩
    next => cases taken
  | uploads =>
    simp only [newStep] at taken
    split at taken
    · exact Option.some.inj taken ▸ ⟨rfl, .inl⟩
    · cases taken
  | requests =>
    simp only [newStep] at taken
    split at taken
    · exact Option.some.inj taken ▸ ⟨rfl, .inl⟩
    · cases taken
  | finishes =>
    simp only [newStep] at taken
    split at taken
    · exact spares_goes taken
    · exact spares_goes taken
    · cases taken
  | fails => exact spares_goes taken
  | conflicts =>
    simp only [newStep] at taken
    split at taken
    · split at taken
      · exact spares_goes taken
      · cases taken
    · cases taken
  | connects =>
    simp only [newStep] at taken
    split at taken
    · split at taken
      · exact spares_goes taken
      · cases taken
    · cases taken
  | _ =>
    simp only [newStep] at taken
    split at taken
    · exact spares_goes taken
    · cases taken

theorem runStep_spares {r : Nat} {a : RunAction} (taken : runStep settings s r a = some t) :
    Spares s t (s.runs r = .removing) := by
  cases a with
  | destroys =>
    simp only [runStep] at taken
    split at taken
    · exact Option.some.inj taken ▸ ⟨rfl, .inl⟩
    · cases taken
  | unlinks file =>
    simp only [runStep] at taken
    split at taken
    next now => exact Option.some.inj taken ▸ ⟨rfl, fun _ => .inr now⟩
    next => cases taken
  | removes =>
    simp only [runStep] at taken
    split at taken
    next now => exact Option.some.inj taken ▸ ⟨rfl, fun _ => .inr now⟩
    next => cases taken
  | fails => exact spares_turns taken
  | resumes =>
    simp only [runStep] at taken
    split at taken
    · exact spares_turns taken
    · cases taken
  | cleaned =>
    simp only [runStep] at taken
    split at taken
    · exact spares_turns taken
    · cases taken
  | _ =>
    simp only [runStep] at taken
    split at taken
    · split at taken
      · exact spares_turns taken
      · cases taken
    · cases taken

theorem cleanStep_spares {who : Party} {a : CleanAction} (taken : cleanStep s who a = some t) : Spares s t False := by
  obtain ⟨pc, pc', disk, deletions, _, sweep, rfl, _⟩ := cleanStep_cases taken
  have swept : Spares { s with disk, deletions } (State.sweeps { s with disk, deletions } pc' who) False := by
    cases who with
    | new => exact ⟨rfl, .inl⟩
    | run r =>
      simp only [State.sweeps]
      split <;> exact ⟨rfl, .inl⟩
  refine ⟨swept.1, fun recorded => swept.2 ?_⟩
  cases sweep with
  | unmarked saved => exact ⟨_, rfl, by rw [saved_operation saved]; rfl⟩
  | cleared saved => exact ⟨_, rfl, by rw [saved_operation saved]; rfl⟩
  | _ => exact recorded

theorem running_unsettled {upid : Text} (running : s.create = .running upid) : ¬Settled s := by
  intro settled
  have unread := settled.create
  rw [running] at unread
  cases unread

theorem step_spares {a : Action} {upid : Text} (sound : Sound settings s) (running : s.create = .running upid)
    (taken : step settings s a = some t) :
    (s.storage (volume settings) = true → t.storage (volume settings) = true) ∧ (Recorded s → Recorded t) := by
  have unsettled := running_unsettled running
  cases a with
  | new b =>
    obtain ⟨storage, recorded⟩ := newStep_spares taken
    refine ⟨fun present => by rw [storage]; exact present, fun before => (recorded before).elim id fun past => ?_⟩
    have needs := sound.new
    rcases past with start | removing
    · rw [start] at needs
      exact absurd (running.symm.trans needs.create) nofun
    · rw [removing] at needs
      exact (unsettled needs.settled).elim
  | run r b =>
    obtain ⟨storage, recorded⟩ := runStep_spares taken
    refine ⟨fun present => by rw [storage]; exact present, fun before => (recorded before).elim id fun removing => ?_⟩
    have needs := sound.runs r
    rw [removing] at needs
    exact (unsettled needs.settled).elim
  | clean who b =>
    obtain ⟨storage, recorded⟩ := cleanStep_spares taken
    exact ⟨fun present => by rw [storage]; exact present, fun before => (recorded before).elim id False.elim⟩
  | deletionEnds who ok =>
    simp only [step] at taken
    split at taken
    next name sent =>
      have deletion := sound.deletions who
      rw [sent] at deletion
      exact (unsettled deletion.1).elim
    next => cases taken
  | uploadEnds ok =>
    simp only [step] at taken
    split at taken
    next upid now =>
      cases taken
      refine ⟨fun present => ?_, id⟩
      cases ok with
      | false => exact present
      | true => exact Function.update_self ..
    next => cases taken
  | destroyed =>
    obtain ⟨create, _, rfl⟩ := Option.map_eq_some_iff.mp taken
    exact ⟨id, id⟩
  | _ =>
    simp only [step] at taken
    split at taken
    · exact Option.some.inj taken ▸ ⟨id, id⟩
    · cases taken

end Proofs

section Results

/-- While the template is in storage, or an upload may still bring it there, a record names it; and no step
takes the template or the record away from a creation that is running. -/
theorem template_recorded (settings : Settings) {s : State} (reached : (system settings).ReachableBy Definite s) :
    (s.storage (volume settings) = true ∨ Upload.pending s.upload = true → Named settings s) ∧
      ∀ a t upid, (system settings).step s a = some t → s.create = .running upid →
        (s.storage (volume settings) = true → t.storage (volume settings) = true) ∧ (Recorded s → Recorded t) := by
  have sound := sound_of_definite reached
  refine ⟨fun known => ?_, fun a t upid taken running => step_spares sound running taken⟩
  rcases sound.filed.named with named | cleared | unsaved
  · exact named
  · rcases known with present | pending
    · exact absurd (cleared.absent.symm.trans present) nofun
    · exact absurd (cleared.settled.upload.symm.trans pending) nofun
  · have fresh : Fresh settings s := sound.fresh unsaved
    rcases known with present | pending
    · exact absurd (fresh.absent.symm.trans present) nofun
    · rw [fresh.upload] at pending
      cases pending

end Results

section Sample

def sampleSettings : Settings where
  boxId := "pbx_aaaaaaaa".toList
  node := "pve".toList
  storage := "local".toList
  port := 7443
  publicKey := "ssh-ed25519 AAAA pbox".toList
  process := 17
  stamp := 1700000000
  others := []
  foreign := nofun

def blank : State := ⟨none, fun _ => false, .none, .none, fun _ => .none, .start, fun _ => .start⟩

theorem blank_initial : Initial sampleSettings blank :=
  ⟨rfl, rfl, ⟨rfl, rfl, fun _ => rfl⟩, ⟨rfl, fun _ => rfl⟩⟩

def uploadTask : Text := "UPID:upload".toList
def createTask : Text := "UPID:create".toList

/-- `run_new` until its upload is running at PVE, with the reply to come. -/
def uploading : List Action :=
  [.new .generates, .new (.saves true), .new .uploads, .uploadAccepted uploadTask]

/-- It goes on until the upload has ended and the request for the container can be sent. -/
def uploaded : List Action :=
  uploading ++ [.new .uploaded, .new (.saves true), .uploadEnds true, .new .awaits, .new (.saves true)]

/-- A repair that finds no container, up to the check of the recorded task. -/
def repairing : List Action := [.run 0 .looks, .run 0 (.discovers false), .clean (.run 0) .checks]

/-- The reply to the upload is lost; a repair removes the record before the upload has ended. -/
def lostReply : List Action :=
  uploading ++ .new .fails :: repairing ++
    [.clean (.run 0) .lists, .clean (.run 0) (.saves true), .run 0 .cleaned, .run 0 (.unlinks .sshKey),
      .run 0 (.unlinks .publicKey), .run 0 (.unlinks .operation), .run 0 .removes, .uploadEnds true]

/-- The reply to the creation is lost; a repair still knows the task of the upload only. -/
def lostCreation : List Action :=
  uploaded ++ [.new .requests, .createAccepted createTask, .new .fails] ++ repairing ++
    [.clean (.run 0) (.saves true), .clean (.run 0) .lists, .clean (.run 0) .deletes]

/-- The template is left behind with no record, or is taken away from a creation that is running. -/
theorem lost_reply_leaks :
    (∃ s, (system sampleSettings).Reachable s ∧ s.storage (volume sampleSettings) = true ∧ ¬Named sampleSettings s) ∧
      ∃ s a t upid, (system sampleSettings).Reachable s ∧ (system sampleSettings).step s a = some t ∧
        s.create = .running upid ∧ s.storage (volume sampleSettings) = true ∧
        t.storage (volume sampleSettings) = false := by
  constructor
  · obtain ⟨s, ran⟩ := Option.isSome_iff_exists.mp
      (show ((system sampleSettings).run blank lostReply).isSome = true by decide)
    have last : ((system sampleSettings).run blank lostReply).map
        (fun s => (s.storage (volume sampleSettings), s.disk)) = some (true, none) := by decide
    rw [ran, Option.map_some, Option.some.injEq, Prod.mk.injEq] at last
    refine ⟨s, System.reachable_of_run (.start blank_initial) ran, last.1, ?_⟩
    rintro ⟨directory, operation, disk, _⟩
    rw [last.2] at disk
    cases disk
  · obtain ⟨s, ran⟩ := Option.isSome_iff_exists.mp
      (show ((system sampleSettings).run blank lostCreation).isSome = true by decide)
    have last : ((system sampleSettings).run blank lostCreation).map (fun s => (s.create,
        s.storage (volume sampleSettings), s.deletions (.run 0))) =
        some (.running createTask, true, .sent (volume sampleSettings)) := by decide
    rw [ran, Option.map_some, Option.some.injEq] at last
    simp only [Prod.mk.injEq] at last
    have deleted : ((system sampleSettings).step s (.deletionEnds (.run 0) true)).map
        (·.storage (volume sampleSettings)) = some false := by
      simp [system, step, last.2.2]
    obtain ⟨t, taken, gone⟩ := Option.map_eq_some_iff.mp deleted
    exact ⟨s, .deletionEnds (.run 0) true, t, createTask, System.reachable_of_run (.start blank_initial) ran, taken,
      last.1, last.2.1, gone⟩

def definite (s : State) : Action → Bool
  | .clean (.run _) .checks => !Upload.pending s.upload && !Create.reads s.create && !NewPc.asks s.create s.new
  | _ => true

theorem definite_sound (s : State) (a : Action) (known : definite s a = true) : Definite s a := by
  unfold definite at known
  split at known
  next =>
    intro _ _ _
    simp only [Bool.and_eq_true, Bool.not_eq_true'] at known
    exact ⟨known.1.1, known.1.2, known.2⟩
  next other =>
    unfold Definite
    split
    · exact (other _ rfl).elim
    · trivial

/-- `run_new` dies after its upload, and a repair is about to delete the template. -/
def quietRun : List Action :=
  uploaded ++ .new .fails :: repairing ++ [.clean (.run 0) (.saves true), .clean (.run 0) .lists]

theorem quietRun_recorded : ∃ s, (system sampleSettings).ReachableBy Definite s ∧
    s.storage (volume sampleSettings) = true ∧ Named sampleSettings s := by
  obtain ⟨s, ran⟩ := Option.isSome_iff_exists.mp
    (show ((system sampleSettings).runBy definite blank quietRun).isSome = true by decide)
  have last : ((system sampleSettings).runBy definite blank quietRun).map (·.storage (volume sampleSettings)) =
      some true := by decide
  rw [ran, Option.map_some, Option.some.injEq] at last
  have reached := System.reachableBy_of_runBy definite_sound (.start blank_initial) ran
  exact ⟨s, reached, last, (template_recorded sampleSettings reached).1 (.inl last)⟩

end Sample

end Pbox.Cli.RelayCleanup
