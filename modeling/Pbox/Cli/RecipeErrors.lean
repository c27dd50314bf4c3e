import Pbox.Lib.Effects
import Pbox.Cli.RecipeApply

/-! What an apply tells of the snapshot it leaves and of the errors its cleanup meets. Every error
that is built on the way keeps what it mentioned before; what is lost is lost where an error is
built without the snapshot in hand, and where a failed playbook is reported by itself. -/

namespace Pbox.Cli.RecipeErrors
open Pbox.Lib.Strings Pbox.Lib.Effects Pbox.Lib.ErrorChain Pbox.Cli.RecipeApply

/-- What the command prints of an error: of a failed playbook only the reason and the log. -/
def Tells (error : Error) (text : Text) : Prop :=
  match error.root with
  | some (.playbook failure) => text <:+: failure.reason ∨ text <:+: failure.logPath
  | _ => Mentions error text

/-- A run accounts for everything outstanding when it ends: an error that tells it. -/
def Accounts {Store Value : Type} (told : Error → Text → Prop)
    (ended : Except Error Value × World Store) : Prop :=
  ∀ text ∈ ended.2.outstanding, ∃ error, ended.1 = .error error ∧ told error text

/-- A PVE that refuses a snapshot holds none, and one that reports success holds it. -/
structure Lawful (outcomes : Outcomes) : Prop where
  completed : outcomes.create = .ok () → outcomes.createTask = .ok () → outcomes.taken = true
  refused : ∀ error, outcomes.create = .error error → snapshotUnavailable error = true → outcomes.taken = false
  unsupported : ∀ error, outcomes.create = .ok () → outcomes.createTask = .error error →
    unsupportedTask error = true → outcomes.taken = false

/-- The error is not that of a playbook, so it is printed whole. -/
def Plain (error : Error) : Prop := ∀ failure, error.root ≠ some (.playbook failure)

theorem Plain.tells {error : Error} (plain : Plain error) (text : Text) :
    Tells error text ↔ Mentions error text := by
  unfold Tells
  split
  next failure root => exact absurd root (plain failure)
  next => exact Iff.rfl

theorem plain_of_root {error primary : Error} (same : error.root = primary.root) (plain : Plain primary) :
    Plain error := fun failure => same ▸ plain failure

theorem widen_plain (error : Chain Empty) : Plain error.widen := by
  rintro failure ⟨⟩

theorem pveError_plain (error : PveError) : Plain error.anyhow := by
  rintro failure ⟨⟩

theorem taskError_plain (error : TaskError) : Plain error.anyhow := by
  intro failure root
  obtain ⟨message, causes, exitStatus⟩ := error
  cases exitStatus <;> cases root

section Covers
variable {Store : Type}

/-- The error mentions everything outstanding. -/
def Covers (error : Error) (w : World Store) : Prop := ∀ text ∈ w.outstanding, Mentions error text

theorem mem_outstanding {w : World Store} {text : Text} :
    text ∈ w.outstanding ↔ w.snapshot = some text ∨ text ∈ w.met := by
  simp only [World.outstanding, List.mem_append, Option.mem_toList]

theorem covers_of_none {w : World Store} (error : Error) (clean : w.outstanding = []) : Covers error w := by
  intro text member
  rw [clean] at member
  cases member

theorem Covers.context {error : Error} {w : World Store} (covers : Covers error w) (message : Text) :
    Covers (error.context message) w :=
  fun text member => (covers text member).context message

theorem Covers.attach {error : Error} {w : World Store} (covers : Covers error w) (label : Text)
    (secondary : Error) : Covers (error.attach label secondary) w :=
  covers.context _

theorem Covers.store {error : Error} {w : World Store} (covers : Covers error w) (store : Store) :
    Covers error { w with store := store } := covers

theorem Covers.accounts {Value : Type} {error : Error} {w : World Store} (covers : Covers error w) :
    Accounts Mentions ((.error error : Except Error Value), w) :=
  fun text member => ⟨error, rfl, covers text member⟩

theorem Covers.accounts_tells {Value : Type} {error : Error} {w : World Store} (covers : Covers error w)
    (plain : Plain error) : Accounts Tells ((.error error : Except Error Value), w) :=
  fun text member => ⟨error, rfl, (plain.tells text).mpr (covers text member)⟩

theorem accounts_ok_iff {Value : Type} {told : Error → Text → Prop} {value : Value} {w : World Store} :
    Accounts told (.ok value, w) ↔ w.outstanding = [] := by
  constructor
  · intro accounts
    refine List.eq_nil_iff_forall_not_mem.mpr fun text member => ?_
    obtain ⟨error, ended, _⟩ := accounts text member
    cases ended
  · intro clean text member
    rw [show (((Except.ok value : Except Error Value), w) : _ × World Store).2.outstanding = [] from clean] at member
    cases member

theorem accounts_error_iff {Value : Type} {told : Error → Text → Prop} {error : Error} {w : World Store} :
    Accounts told ((.error error : Except Error Value), w) ↔ ∀ text ∈ w.outstanding, told error text := by
  constructor
  · intro accounts text member
    obtain ⟨_, ⟨⟩, told⟩ := accounts text member
    exact told
  · exact fun every text member => ⟨error, rfl, every text member⟩

end Covers

section Deletion
variable {Store : Type} (outcomes : Outcomes)

/-- What `delete_recipe_snapshot` returns. -/
def deletion (name : Text) : Except Error Unit :=
  match outcomes.delete with
  | .error error => .error (error.anyhow.context ("delete recipe snapshot ".toList ++ name))
  | .ok () =>
    match outcomes.deleteTask with
    | .error error => .error (error.anyhow.context ("wait for recipe snapshot deletion ".toList ++ name))
    | .ok () => .ok ()

def afterDeletion (name : Text) (w : World Store) : World Store :=
  match deletion outcomes name with
  | .error error =>
    { w with snapshot := if outcomes.survives then w.snapshot else none, met := w.met ++ [error.full] }
  | .ok () => { w with snapshot := none }

theorem deleteRecipeSnapshot_run (snapshot : RecipeSnapshot) (w : World Store) :
    deleteRecipeSnapshot outcomes snapshot w =
      (deletion outcomes snapshot.name, afterDeletion outcomes snapshot.name w) := by
  obtain ⟨name⟩ := snapshot
  unfold deleteRecipeSnapshot deleteLxcSnapshot afterDeletion deletion
  cases requested : outcomes.delete with
  | error error => rfl
  | ok done =>
    simp only [applied_bind, applied_pure, waitForTask]
    cases ended : outcomes.deleteTask with
    | error error => rfl
    | ok done => rfl

variable {outcomes}

theorem deletion_names {name : Text} {error : Error} (failed : deletion outcomes name = .error error) :
    Mentions error name ∧ Plain error := by
  unfold deletion at failed
  split at failed
  next cause _ =>
    cases failed
    exact ⟨mentions_context _ (List.suffix_append _ _).isInfix,
      plain_of_root rfl (pveError_plain cause)⟩
  next =>
    split at failed
    next cause _ =>
      cases failed
      exact ⟨mentions_context _ (List.suffix_append _ _).isInfix,
        plain_of_root rfl (taskError_plain cause)⟩
    next => cases failed

theorem afterDeletion_ok {name : Text} (deleted : deletion outcomes name = .ok ()) (w : World Store) :
    afterDeletion outcomes name w = { w with snapshot := none } := by
  simp only [afterDeletion, deleted]

theorem afterDeletion_store (outcomes : Outcomes) (name : Text) (w : World Store) :
    (afterDeletion outcomes name w).store = w.store := by
  unfold afterDeletion
  split <;> rfl

/-- After a deletion that failed, its error is all that is new. -/
theorem afterDeletion_error {name : Text} {error : Error} (failed : deletion outcomes name = .error error)
    {w : World Store} {text : Text} (member : text ∈ (afterDeletion outcomes name w).outstanding) :
    text ∈ w.outstanding ∨ Mentions error text := by
  simp only [afterDeletion, failed, mem_outstanding, List.mem_append, List.mem_singleton] at member ⊢
  rcases member with kept | before | rfl
  · split at kept
    · exact Or.inl (Or.inl kept)
    · cases kept
  · exact Or.inl (Or.inr before)
  · exact Or.inr (mentions_full error)

end Deletion

section Snapshot
variable {Store : Type} (outcomes : Outcomes) (config : RecipesConfig)

/-- The snapshot with which the recipes are applied. -/
def snapshotTaken : Option Text :=
  if config.snapshotBeforeApply = NEVER then none
  else
    match outcomes.nowNanos, outcomes.create, outcomes.createTask with
    | .ok nanos, .ok (), .ok () => some (snapshotName nanos)
    | _, _, _ => none

/-- The snapshot step lets the recipes be applied. -/
def proceeds : Bool :=
  if config.snapshotBeforeApply = NEVER then true
  else if config.snapshotBeforeApply ≠ ALWAYS ∧ config.snapshotBeforeApply ≠ AUTO then false
  else
    match outcomes.nowNanos with
    | .error _ => false
    | .ok _ =>
      match outcomes.create with
      | .error error => config.snapshotBeforeApply == AUTO && snapshotUnavailable error
      | .ok () =>
        match outcomes.createTask with
        | .error error => unsupportedTask error && config.snapshotBeforeApply == AUTO
        | .ok () => true

/-- The error of `cleanup_failed_recipe_snapshot`. -/
def cleanupFailed (name : Text) (primary : Error) : Error :=
  match deletion outcomes name with
  | .ok () =>
    primary.context
      ("removed incomplete recipe snapshot ".toList ++ name ++ " after snapshot operation failure".toList)
  | .error cleanupError =>
    primary.attach ("recipe snapshot ".toList ++ name ++ " may remain; cleanup failed".toList) cleanupError

theorem cleanupFailed_run (name : Text) (primary : Error) (w : World Store) :
    cleanupFailedRecipeSnapshot outcomes name primary w =
      (cleanupFailed outcomes name primary, afterDeletion outcomes name w) := by
  simp only [cleanupFailedRecipeSnapshot, applied_bind, deleteRecipeSnapshot_run, cleanupFailed]
  cases deletion outcomes name <;> rfl

theorem cleanupFailed_root (name : Text) (primary : Error) :
    (cleanupFailed outcomes name primary).root = primary.root := by
  unfold cleanupFailed
  split <;> rfl

theorem cleanupFailed_covers (name : Text) (primary : Error) {w : World Store}
    (held : ∀ other, w.snapshot = some other → other = name) (clean : w.met = []) :
    Covers (cleanupFailed outcomes name primary) (afterDeletion outcomes name w) := by
  unfold cleanupFailed
  split
  next deleted =>
    apply covers_of_none
    rw [afterDeletion_ok deleted]
    simp [World.outstanding, clean]
  next cause failed =>
    intro text member
    rcases afterDeletion_error failed member with before | mentioned
    · rcases mem_outstanding.mp before with kept | earlier
      · rw [held text kept]
        exact (deletion_names failed).1.attached _ _
      · rw [clean] at earlier
        cases earlier
    · exact mentioned.attached _ _

/-- The snapshot that PVE holds after a snapshot step that lets the recipes be applied. -/
def snapshotLeft : Option Text :=
  if config.snapshotBeforeApply = NEVER then none
  else
    match outcomes.nowNanos with
    | .ok nanos => if outcomes.taken then some (snapshotName nanos) else none
    | .error _ => none

theorem snapshotLeft_eq (lawful : Lawful outcomes) (goes : proceeds outcomes config = true) :
    snapshotLeft outcomes config = snapshotTaken outcomes config := by
  unfold proceeds at goes
  unfold snapshotLeft snapshotTaken
  by_cases never : config.snapshotBeforeApply = NEVER
  · simp only [if_pos never]
  simp only [if_neg never] at goes ⊢
  split at goes
  · cases goes
  · cases clock : outcomes.nowNanos with
    | error error => rfl
    | ok nanos =>
      simp only [clock] at goes ⊢
      cases requested : outcomes.create with
      | error error =>
        simp only [requested, Bool.and_eq_true] at goes
        simp [lawful.refused error requested goes.2]
      | ok done =>
        simp only [requested] at goes
        cases ended : outcomes.createTask with
        | error error =>
          simp only [ended, Bool.and_eq_true] at goes
          simp [lawful.unsupported error requested ended goes.1]
        | ok finished => simp [lawful.completed requested ended]

theorem createRecipeSnapshot_spec (run : AnsibleRun) (store : Store) :
    (proceeds outcomes config = true ∧
      createRecipeSnapshot outcomes config run ⟨none, [], store⟩ =
        (.ok ((snapshotTaken outcomes config).map RecipeSnapshot.mk),
          ⟨snapshotLeft outcomes config, [], store⟩)) ∨
    (proceeds outcomes config = false ∧ ∃ error t,
      createRecipeSnapshot outcomes config run ⟨none, [], store⟩ = (.error error, t) ∧
        t.store = store ∧ (Lawful outcomes → Covers error t) ∧ Plain error) := by
  unfold createRecipeSnapshot proceeds snapshotTaken snapshotLeft
  by_cases never : config.snapshotBeforeApply = NEVER
  · simp only [if_pos never]
    exact Or.inl ⟨trivial, rfl⟩
  simp only [if_neg never]
  by_cases invalid : config.snapshotBeforeApply ≠ ALWAYS ∧ config.snapshotBeforeApply ≠ AUTO
  · simp only [if_pos invalid]
    refine Or.inr ⟨trivial, _, _, rfl, rfl, fun _ => covers_of_none _ rfl, ?_⟩
    rintro failure ⟨⟩
  simp only [if_neg invalid]
  cases clock : outcomes.nowNanos with
  | error error =>
    exact Or.inr ⟨rfl, _, _, rfl, rfl, fun _ => covers_of_none _ rfl, plain_of_root rfl (widen_plain error)⟩
  | ok nanos =>
    have held : ∀ other, (if outcomes.taken then some (snapshotName nanos) else none) = some other →
        other = snapshotName nanos := by
      intro other kept
      split at kept
      · exact (Option.some.inj kept).symm
      · cases kept
    simp only [applied_bind, createLxcSnapshot, applied_modify, applied_pure]
    cases requested : outcomes.create with
    | error error =>
      simp only [Except.map]
      by_cases tolerated : config.snapshotBeforeApply = AUTO ∧ snapshotUnavailable error = true
      · simp only [if_pos tolerated]
        exact Or.inl ⟨by simp [tolerated], rfl⟩
      · simp only [if_neg tolerated, applied_bind, applied_pure, cleanupFailed_run]
        refine Or.inr ⟨by simpa using tolerated, _, _, rfl, afterDeletion_store .., fun _ => ?_, ?_⟩
        · exact cleanupFailed_covers outcomes _ _ held rfl
        · exact plain_of_root (cleanupFailed_root ..) (plain_of_root rfl (pveError_plain error))
    | ok done =>
      simp only [Except.map, waitForTask, applied_bind, applied_pure]
      cases ended : outcomes.createTask with
      | error error =>
        by_cases unsupported : unsupportedTask error = true
        · simp only [if_pos unsupported]
          by_cases auto : config.snapshotBeforeApply = AUTO
          · simp only [if_pos auto]
            exact Or.inl ⟨by simp [unsupported, auto], rfl⟩
          · simp only [if_neg auto]
            refine Or.inr ⟨by simp [auto], _, _, rfl, rfl, fun lawful => covers_of_none _ ?_,
              plain_of_root rfl (taskError_plain error)⟩
            simp [World.outstanding, lawful.unsupported error requested ended unsupported]
        · simp only [if_neg unsupported, applied_bind, applied_pure, cleanupFailed_run]
          refine Or.inr ⟨by simp [unsupported], _, _, rfl, afterDeletion_store .., fun _ => ?_, ?_⟩
          · exact cleanupFailed_covers outcomes _ _ held rfl
          · exact plain_of_root (cleanupFailed_root ..) (plain_of_root rfl (taskError_plain error))
      | ok finished => exact Or.inl ⟨rfl, rfl⟩

end Snapshot

section Ends
variable {Store : Type} (outcomes : Outcomes)

/-- The error met in removing the operation directory. -/
def removalError : Option (Chain Empty) :=
  match outcomes.removeOperationDirectory with
  | .error error => some error
  | .ok () => none

def removalMet : List Text := ((removalError outcomes).map Chain.message).toList

/-- The error of a playbook, with the removal's error in its context. -/
def withRemoval (error : Error) : Error :=
  match removalError outcomes with
  | some cleanupError => error.context cleanupError.message
  | none => error

theorem withRemoval_root (error : Error) : (withRemoval outcomes error).root = error.root := by
  unfold withRemoval
  split <;> rfl

theorem withRemoval_mentions (error : Error) {text : Text} (member : text ∈ removalMet outcomes) :
    Mentions (withRemoval outcomes error) text := by
  unfold removalMet at member
  unfold withRemoval
  cases removed : removalError outcomes with
  | none =>
    rw [removed] at member
    cases member
  | some cleanupError =>
    rw [removed] at member
    rw [List.mem_singleton.mp member]
    exact mentions_context _ (List.infix_refl _)

theorem applyRecipes_refused (catalog : RecipeCatalog) {selected : List Recipe} (boxId : Text)
    (refused : selected = [] ∨ outcomes.operationDirectory ≠ .ok ()) (w : World Store) :
    ∃ error, applyRecipes outcomes catalog selected boxId w = (.error error, w) ∧ Plain error := by
  unfold applyRecipes
  by_cases empty : selected = []
  · simp only [if_pos empty, applied_pure]
    refine ⟨_, rfl, ?_⟩
    rintro failure ⟨⟩
  simp only [if_neg empty]
  cases directory : outcomes.operationDirectory with
  | error error => exact ⟨_, rfl, widen_plain error⟩
  | ok done => exact absurd directory (refused.resolve_left empty)

theorem applyRecipes_run (catalog : RecipeCatalog) {selected : List Recipe} (boxId : Text)
    (some_recipe : selected ≠ []) (directory : outcomes.operationDirectory = .ok ()) (w : World Store) :
    applyRecipes outcomes catalog selected boxId w =
      (match outcomes.ansible with
        | .error error => .error (withRemoval outcomes error)
        | .ok () =>
          .ok ⟨⟨joinIds (selected.map (·.id)), boxId, catalog.repository, catalog.revision⟩, removalError outcomes⟩,
        { w with met := w.met ++ removalMet outcomes }) := by
  unfold applyRecipes removalMet withRemoval removalError
  simp only [if_neg some_recipe, directory]
  cases removed : outcomes.removeOperationDirectory with
  | error cleanupError =>
    cases outcomes.ansible <;> rfl
  | ok done =>
    cases outcomes.ansible <;> simp [applied_pure]

/-- The world after `finish_recipe_failure` has tried to undo the recipes. -/
def recovered (rollbackOnFailure : Bool) (snapshot : Option Text) (w : World Store) : World Store :=
  match snapshot with
  | some name =>
    if rollbackOnFailure ∧ outcomes.rollback = .ok () ∧ outcomes.rollbackTask = .ok () then
      afterDeletion outcomes name w
    else w
  | none => w

theorem rollbackRecipeSnapshot_run (snapshot : RecipeSnapshot) (w : World Store) :
    (outcomes.rollback = .ok () ∧ outcomes.rollbackTask = .ok () ∧
      rollbackRecipeSnapshot outcomes snapshot w = (.ok (), w)) ∨
    (¬(outcomes.rollback = .ok () ∧ outcomes.rollbackTask = .ok ()) ∧
      ∃ error, rollbackRecipeSnapshot outcomes snapshot w = (.error error, w) ∧ Mentions error snapshot.name) := by
  obtain ⟨name⟩ := snapshot
  unfold rollbackRecipeSnapshot rollbackLxcSnapshot
  cases requested : outcomes.rollback with
  | error error =>
    refine Or.inr ⟨by simp, _, rfl, ?_⟩
    exact mentions_context _ (List.suffix_append _ _).isInfix
  | ok done =>
    simp only [applied_bind, applied_pure, Except.map, waitForTask]
    cases ended : outcomes.rollbackTask with
    | error error =>
      refine Or.inr ⟨by simp, _, rfl, ?_⟩
      exact mentions_context _ (List.suffix_append _ _).isInfix
    | ok done => exact Or.inl ⟨trivial, rfl, rfl⟩

variable (recordRecipeProvenance : AnsibleRun → List Text → Text → StateM Store (Except (Chain Empty) Unit))

theorem record_run (run : AnsibleRun) (capabilities : List Text) (result : Text) (w : World Store) :
    record recordRecipeProvenance run capabilities result w =
      ((recordRecipeProvenance run capabilities result w.store).1,
        { w with store := (recordRecipeProvenance run capabilities result w.store).2 }) := rfl

/-- Whatever a recovery ends with, the record of the failure only adds to it. -/
theorem recordFailure_run (plannedRun : AnsibleRun) (capabilities : List Text) (error : Error) (t : World Store) :
    ∃ final, (do
        match ← record recordRecipeProvenance plannedRun capabilities FAILED with
        | .error provenanceError =>
          return error.attach "record failed recipe provenance".toList provenanceError.widen
        | .ok () => return error : Run Store Error) t =
        (final, { t with store := (recordRecipeProvenance plannedRun capabilities FAILED t.store).2 }) ∧
      final.root = error.root ∧ (Covers error t → Covers final t) := by
  simp only [applied_bind, record_run]
  cases (recordRecipeProvenance plannedRun capabilities FAILED t.store).1 with
  | error provenanceError => exact ⟨_, rfl, rfl, fun covers => covers.attach _ _⟩
  | ok done => exact ⟨_, rfl, rfl, id⟩

theorem recordFailure_store (plannedRun : AnsibleRun) (capabilities : List Text) (error : Error) {t w : World Store}
    (same : t.store = w.store) :
    ((do
        match ← record recordRecipeProvenance plannedRun capabilities FAILED with
        | .error provenanceError =>
          return error.attach "record failed recipe provenance".toList provenanceError.widen
        | .ok () => return error : Run Store Error) t).2.store =
      (recordRecipeProvenance plannedRun capabilities FAILED w.store).2 := by
  obtain ⟨final, recorded, _⟩ := recordFailure_run recordRecipeProvenance plannedRun capabilities error t
  rw [recorded, same]

theorem finishRecipeFailure_run (plannedRun : AnsibleRun) (capabilities : List Text) (primary : Error)
    (snapshot : Option RecipeSnapshot) (rollbackOnFailure : Bool) {w : World Store}
    (held : ∀ name, w.snapshot = some name → snapshot.map RecipeSnapshot.name = some name ∨ Mentions primary name)
    (met : ∀ text ∈ w.met, Mentions primary text) :
    ∃ error, finishRecipeFailure outcomes recordRecipeProvenance plannedRun capabilities primary snapshot
        rollbackOnFailure w =
        (error, { recovered outcomes rollbackOnFailure (snapshot.map RecipeSnapshot.name) w with
          store := (recordRecipeProvenance plannedRun capabilities FAILED w.store).2 }) ∧
      error.root = primary.root ∧
      Covers error (recovered outcomes rollbackOnFailure (snapshot.map RecipeSnapshot.name) w) := by
  have recorded : ∀ (error : Error) (t : World Store), error.root = primary.root → Covers error t →
      t.store = w.store → ∃ final, (do
        match ← record recordRecipeProvenance plannedRun capabilities FAILED with
        | .error provenanceError =>
          return error.attach "record failed recipe provenance".toList provenanceError.widen
        | .ok () => return error : Run Store Error) t =
          (final, { t with store := (recordRecipeProvenance plannedRun capabilities FAILED w.store).2 }) ∧
        final.root = primary.root ∧ Covers final t := by
    intro error t root covers same
    obtain ⟨final, recorded, kept, covered⟩ :=
      recordFailure_run recordRecipeProvenance plannedRun capabilities error t
    rw [same] at recorded
    exact ⟨final, recorded, kept.trans root, covered covers⟩
  unfold finishRecipeFailure
  rw [applied_bind]
  cases snapshot with
  | none =>
    have clean : Covers primary w := by
      intro text member
      rcases mem_outstanding.mp member with kept | before
      · exact (held text kept).resolve_left (by rintro ⟨⟩)
      · exact met text before
    cases rollbackOnFailure with
    | false => exact recorded primary w rfl clean rfl
    | true => exact recorded (primary.context _) w rfl (clean.context _) rfl
  | some snapshot =>
    obtain ⟨name⟩ := snapshot
    have kept : ∀ error : Error, (∀ text, Mentions primary text → Mentions error text) → Mentions error name →
        Covers error w := by
      intro error keeps named text member
      rcases mem_outstanding.mp member with remains | before
      · rcases held text remains with same | mentions
        · cases same
          exact named
        · exact keeps text mentions
      · exact keeps text (met text before)
    cases rollbackOnFailure with
    | false =>
      have named : name <:+: "recipe snapshot ".toList ++ name ++ " was preserved for manual recovery".toList :=
        ⟨_, _, rfl⟩
      exact recorded (primary.context _) w rfl (kept _ (fun _ mentions => mentions.context _)
        (mentions_context _ named)) rfl
    | true =>
      rcases rollbackRecipeSnapshot_run outcomes ⟨name⟩ w with ⟨asked, undone, back⟩ | ⟨failed, error, back, named⟩
      · have world : recovered outcomes true (some name) w = afterDeletion outcomes name w := by
          simp [recovered, asked, undone]
        simp only [Option.map_some, world, if_true, applied_bind, back, deleteRecipeSnapshot_run]
        cases deleted : deletion outcomes name with
        | error deleteError =>
          refine recorded (primary.attach _ deleteError) _ rfl ?_ (afterDeletion_store ..)
          intro text member
          rcases afterDeletion_error deleted member with before | mentioned
          · exact kept _ (fun _ mentions => mentions.attach _ _)
              ((deletion_names deleted).1.attached _ _) text before
          · exact mentioned.attached _ _
        | ok done =>
          refine recorded primary _ rfl ?_ (afterDeletion_store ..)
          intro text member
          rw [afterDeletion_ok deleted] at member
          exact met text member
      · have world : recovered outcomes true (some name) w = w := by
          simp [recovered, failed]
        simp only [Option.map_some, world, if_true, applied_bind, back]
        exact recorded (primary.attach _ error) w rfl (kept _ (fun _ mentions => mentions.attach _ _)
          (named.attached _ _)) rfl

/-- An end that needs no more than the run gives: nothing outstanding, or an error that covers it and
is printed whole. -/
def Settled {Value : Type} (ended : Except Error Value × World Store) : Prop :=
  (∃ value, ended.1 = .ok value ∧ ended.2.outstanding = []) ∨
    ∃ error, ended.1 = .error error ∧ Covers error ended.2 ∧ Plain error

theorem finishRecipeSuccess_early (run : AnsibleRun) (capabilities : List Text) (w : World Store) :
    finishRecipeSuccess outcomes recordRecipeProvenance run capabilities none none w =
      ((recordRecipeProvenance run capabilities SUCCESS w.store).1.mapError Chain.widen,
        { w with store := (recordRecipeProvenance run capabilities SUCCESS w.store).2 }) := by
  unfold finishRecipeSuccess
  simp only [applied_bind, record_run]
  cases (recordRecipeProvenance run capabilities SUCCESS w.store).1 <;> rfl

theorem finishRecipeSuccess_last (run : AnsibleRun) (capabilities : List Text) {snapshot : Option RecipeSnapshot}
    {cleanupError : Option (Chain Empty)} {w : World Store}
    (held : w.snapshot = snapshot.map RecipeSnapshot.name) (met : w.met = (cleanupError.map Chain.message).toList) :
    Settled (finishRecipeSuccess outcomes recordRecipeProvenance run capabilities snapshot cleanupError w) := by
  unfold finishRecipeSuccess
  simp only [applied_bind, record_run]
  have metMentioned : ∀ cleanup : Chain Empty, cleanupError = some cleanup →
      ∀ text ∈ w.met, Mentions (cleanup.widen : Error) text := by
    rintro cleanup rfl text member
    rw [met] at member
    rw [List.mem_singleton.mp member]
    exact mentions_message _ (List.infix_refl _)
  cases (recordRecipeProvenance run capabilities SUCCESS w.store).1 with
  | error error =>
    have metCovered : ∀ text ∈ w.met, Mentions (match cleanupError with
        | some cleanupError =>
          error.widen.attach "recipe cleanup also failed".toList cleanupError.widen
        | none => (error.widen : Error)) text := by
      intro text member
      cases cleanupError with
      | some cleanup => exact (metMentioned cleanup rfl text member).attached _ _
      | none =>
        rw [met] at member
        cases member
    refine Or.inr ⟨_, rfl, ?_, ?_⟩
    · intro text member
      rcases mem_outstanding.mp member with kept | before
      · replace kept : w.snapshot = some text := kept
        rw [held] at kept
        obtain ⟨_, rfl, rfl⟩ := Option.map_eq_some_iff.mp kept
        exact mentions_context _ ⟨_, _, rfl⟩
      · cases snapshot with
        | none => exact metCovered text before
        | some snapshot => exact (metCovered text before).context _
    · refine plain_of_root (?_ : _ = (error.widen : Error).root) ?_
      · cases snapshot <;> cases cleanupError <;> rfl
      · exact widen_plain error
  | ok done =>
    cases snapshot with
    | none =>
      cases cleanupError with
      | none =>
        refine Or.inl ⟨(), rfl, ?_⟩
        simp [World.outstanding, applied_pure, held, met]
      | some cleanup =>
        refine Or.inr ⟨_, rfl, ?_, plain_of_root rfl (widen_plain cleanup)⟩
        intro text member
        rcases mem_outstanding.mp member with kept | before
        · replace kept : w.snapshot = some text := kept
          rw [held] at kept
          cases kept
        · exact (metMentioned cleanup rfl text before).context _
    | some snapshot =>
      simp only [applied_bind, deleteRecipeSnapshot_run]
      cases deleted : deletion outcomes snapshot.name with
      | error error =>
        refine Or.inr ⟨_, rfl, ?_, ?_⟩
        · intro text member
          apply Mentions.context
          unfold mergeCleanupError
          rcases afterDeletion_error deleted member with earlier | mentioned
          · rcases mem_outstanding.mp earlier with kept | before
            · replace kept : w.snapshot = some text := kept
              rw [held] at kept
              obtain ⟨_, ⟨⟩, rfl⟩ := Option.map_eq_some_iff.mp kept
              have named := (deletion_names deleted).1
              cases cleanupError with
              | none => exact named.context _
              | some cleanup => exact named.attached _ _
            · cases cleanupError with
              | none =>
                replace before : text ∈ w.met := before
                rw [met] at before
                cases before
              | some cleanup => exact (metMentioned cleanup rfl text before).attach _ _
          · cases cleanupError with
            | none => exact mentioned.context _
            | some cleanup => exact mentioned.attached _ _
        · cases cleanupError with
          | none => exact plain_of_root rfl (deletion_names deleted).2
          | some cleanup => exact plain_of_root rfl (widen_plain cleanup)
      | ok done =>
        rw [afterDeletion_ok deleted]
        cases cleanupError with
        | none =>
          refine Or.inl ⟨(), rfl, ?_⟩
          simp [World.outstanding, met, applied_pure]
        | some cleanup =>
          refine Or.inr ⟨_, rfl, ?_, plain_of_root rfl (widen_plain cleanup)⟩
          intro text member
          exact (metMentioned cleanup rfl text member).context _

/-- The error of the first provenance record that fails, the last recipe's left out. -/
def firstFailure (run : AnsibleRun) : List Recipe → Store → Option (Chain Empty)
  | [], _ => none
  | [_], _ => none
  | recipe :: next :: rest, store =>
    match recordRecipeProvenance { run with recipe := recipe.id } recipe.capabilities SUCCESS store with
    | (.error error, _) => some error
    | (.ok (), later) => firstFailure run (next :: rest) later

theorem finishRecipes_run (run : AnsibleRun) (snapshot : Option RecipeSnapshot) (cleanupError : Option (Chain Empty))
    {selected : List Recipe} (nonempty : selected ≠ []) {w : World Store}
    (held : w.snapshot = snapshot.map RecipeSnapshot.name) (met : w.met = (cleanupError.map Chain.message).toList) :
    match firstFailure recordRecipeProvenance run selected w.store with
    | some error =>
      (finishRecipes outcomes recordRecipeProvenance run snapshot cleanupError selected w).1 = .error error.widen ∧
        (finishRecipes outcomes recordRecipeProvenance run snapshot cleanupError selected w).2.outstanding =
          w.outstanding
    | none => Settled (finishRecipes outcomes recordRecipeProvenance run snapshot cleanupError selected w) := by
  induction selected generalizing w with
  | nil => exact absurd rfl nonempty
  | cons recipe rest ih =>
    cases rest with
    | nil =>
      have last := finishRecipeSuccess_last outcomes recordRecipeProvenance { run with recipe := recipe.id }
        recipe.capabilities held met
      simp only [firstFailure, finishRecipes, if_true, applied_bind]
      rcases last with ⟨value, ended, clean⟩ | ⟨error, ended, covers, plain⟩
      · simp only [ended]
        exact Or.inl ⟨_, rfl, clean⟩
      · simp only [ended]
        exact Or.inr ⟨error, rfl, covers, plain⟩
    | cons next rest =>
      rw [finishRecipes]
      simp only [firstFailure, if_neg (List.cons_ne_nil next rest), applied_bind, finishRecipeSuccess_early]
      rcases recorded : recordRecipeProvenance { run with recipe := recipe.id } recipe.capabilities SUCCESS w.store
        with ⟨error | done, later⟩
      · exact ⟨rfl, rfl⟩
      · have following := ih (List.cons_ne_nil next rest) (w := { w with store := later }) held met
        simp only [Except.mapError, applied_bind]
        split at following
        next error failed =>
          simp only [failed, following.1, Except.map]
          exact ⟨rfl, following.2⟩
        next passed =>
          simp only [passed]
          rcases following with ⟨value, ended, clean⟩ | ⟨error, ended, covers, plain⟩
          · simp only [ended, Except.map]
            exact Or.inl ⟨_, rfl, clean⟩
          · simp only [ended, Except.map]
            exact Or.inr ⟨error, rfl, covers, plain⟩

theorem Settled.accounts {Value : Type} {ended : Except Error Value × World Store} (settled : Settled ended) :
    Accounts Mentions ended ∧ Accounts Tells ended := by
  obtain ⟨result, t⟩ := ended
  rcases settled with ⟨value, rfl, clean⟩ | ⟨error, rfl, covers, plain⟩
  · exact ⟨accounts_ok_iff.mpr clean, accounts_ok_iff.mpr clean⟩
  · exact ⟨covers.accounts, covers.accounts_tells plain⟩

end Ends

section Apply
variable {Store : Type} (outcomes : Outcomes)
variable (recordRecipeProvenance : AnsibleRun → List Text → Text → StateM Store (Except (Chain Empty) Unit))
variable (config : RecipesConfig) (catalog : RecipeCatalog) (recipe : List Text) (store : Store)

/-- The selected recipes get as far as the playbook on this box. -/
structure Applies (selected : List Recipe) (box : BoxRecord) : Prop where
  selects : selectRecipes catalog recipe = .ok selected
  found : outcomes.findBox = .ok box
  running : box.state = "running".toList
  proceeds : proceeds outcomes config = true
  nonempty : selected ≠ []
  directory : outcomes.operationDirectory = .ok ()

/-- The playbook succeeds, the provenance of a recipe other than the last cannot be recorded, and
the error of that does not itself tell of the snapshot and of the cleanup error in hand. -/
def LostEarly (told : Error → Text → Prop) : Prop :=
  ∃ selected box error, Applies outcomes config catalog recipe selected box ∧ outcomes.ansible = .ok () ∧
    firstFailure recordRecipeProvenance
      ⟨joinIds (selected.map (·.id)), box.id.value, catalog.repository, catalog.revision⟩ selected store = some error ∧
    ∃ text ∈ (snapshotTaken outcomes config).toList ++ removalMet outcomes, ¬told error.widen text

/-- The playbook fails and the report of it tells no more than its reason and its log, of which
something that recovery leaves behind is no part. -/
def LostInReport : Prop :=
  ∃ selected box error failure, Applies outcomes config catalog recipe selected box ∧
    outcomes.ansible = .error error ∧ error.root = some (.playbook failure) ∧
    ∃ text ∈ (recovered outcomes config.rollbackOnFailure (snapshotTaken outcomes config)
        ⟨snapshotTaken outcomes config, removalMet outcomes, ()⟩).outstanding,
      ¬(text <:+: failure.reason ∨ text <:+: failure.logPath)

variable {outcomes config catalog recipe}

theorem Applies.run {selected : List Recipe} {box : BoxRecord}
    (applies : Applies outcomes config catalog recipe selected box) (w : World Store) :
    runRecipe outcomes recordRecipeProvenance config catalog recipe w =
      applySelected outcomes recordRecipeProvenance config catalog selected box w := by
  simp only [runRecipe, applies.selects, applies.found, applies.running, ne_eq, not_true_eq_false, if_false]

theorem Applies.unique {selected selected' : List Recipe} {box box' : BoxRecord}
    (applies : Applies outcomes config catalog recipe selected box)
    (applies' : Applies outcomes config catalog recipe selected' box') : selected' = selected ∧ box' = box :=
  ⟨Except.ok.inj (applies'.selects.symm.trans applies.selects), Except.ok.inj (applies'.found.symm.trans applies.found)⟩

theorem accounts_of_clean {Value : Type} {told : Error → Text → Prop} {error : Error} {w : World Store}
    (clean : w.outstanding = []) : Accounts told ((.error error : Except Error Value), w) := by
  refine accounts_error_iff.mpr fun text member => ?_
  rw [clean] at member
  cases member

theorem snapshot_names : ∀ snapshot : Option Text,
    (snapshot.map RecipeSnapshot.mk).map RecipeSnapshot.name = snapshot
  | none => rfl
  | some _ => rfl

/-- An error on the way to the playbook leaves nothing that it does not tell. -/
theorem stops_early (lawful : Lawful outcomes)
    (stops : ∀ selected box, ¬Applies outcomes config catalog recipe selected box) :
    Accounts Mentions (runRecipe outcomes recordRecipeProvenance config catalog recipe ⟨none, [], store⟩) ∧
      Accounts Tells (runRecipe outcomes recordRecipeProvenance config catalog recipe ⟨none, [], store⟩) := by
  unfold runRecipe
  cases selects : selectRecipes catalog recipe with
  | error error => exact ⟨accounts_of_clean rfl, accounts_of_clean rfl⟩
  | ok selected =>
    cases found : outcomes.findBox with
    | error error => exact ⟨accounts_of_clean rfl, accounts_of_clean rfl⟩
    | ok box =>
      by_cases stopped : box.state ≠ "running".toList
      · simp only [if_pos stopped]
        exact ⟨accounts_of_clean rfl, accounts_of_clean rfl⟩
      simp only [if_neg stopped, applySelected, applied_bind]
      -- the record of the failure keeps what the primary error covers
      have recorded : ∀ (primary : Error) (snapshot : Option RecipeSnapshot) (rollbackOnFailure : Bool)
          (w : World Store) (plannedRun : AnsibleRun), Plain primary →
          (∀ name, w.snapshot = some name → snapshot.map RecipeSnapshot.name = some name ∨ Mentions primary name) →
          (∀ text ∈ w.met, Mentions primary text) →
          let ended := finishRecipeFailure outcomes recordRecipeProvenance plannedRun (allCapabilities selected)
            primary snapshot rollbackOnFailure w
          Accounts Mentions ((.error ended.1 : Except Error (List AnsibleRun)), ended.2) ∧
            Accounts Tells ((.error ended.1 : Except Error (List AnsibleRun)), ended.2) := by
        intro primary snapshot rollbackOnFailure w plannedRun plain held met
        obtain ⟨error, finished, root, covers⟩ := finishRecipeFailure_run outcomes recordRecipeProvenance
          plannedRun (allCapabilities selected) primary snapshot rollbackOnFailure held met
        simp only [finished]
        exact ⟨(covers.store _).accounts, (covers.store _).accounts_tells (plain_of_root root plain)⟩
      rcases createRecipeSnapshot_spec outcomes config
        ⟨joinIds (selected.map (·.id)), box.id.value, catalog.repository, catalog.revision⟩ store with
        ⟨goes, taken⟩ | ⟨_, error, t, failed, _, covered, plain⟩
      · have refused : selected = [] ∨ outcomes.operationDirectory ≠ .ok () := by
          by_contra both
          obtain ⟨nonempty, directory⟩ := not_or.mp both
          exact stops selected box
            ⟨selects, found, not_ne_iff.mp stopped, goes, nonempty, not_ne_iff.mp directory⟩
        rw [snapshotLeft_eq outcomes config lawful goes] at taken
        obtain ⟨error, ended, plain⟩ := applyRecipes_refused outcomes catalog box.id.value refused
          (⟨snapshotTaken outcomes config, [], store⟩ : World Store)
        simp only [taken, applied_bind, ended]
        refine recorded error _ _ _ _ plain (fun name kept => Or.inl ?_) (by rintro _ ⟨⟩)
        rw [snapshot_names]
        exact kept
      · have covers := covered lawful
        simp only [failed]
        exact recorded error none false t _ plain
          (fun name kept => Or.inr (covers name (mem_outstanding.mpr (Or.inl kept))))
          (fun text before => covers text (mem_outstanding.mpr (Or.inr before)))

theorem Applies.snapshot (lawful : Lawful outcomes) {selected : List Recipe} {box : BoxRecord}
    (applies : Applies outcomes config catalog recipe selected box) (run : AnsibleRun) :
    createRecipeSnapshot outcomes config run ⟨none, [], store⟩ =
      (.ok ((snapshotTaken outcomes config).map RecipeSnapshot.mk), ⟨snapshotTaken outcomes config, [], store⟩) := by
  rcases createRecipeSnapshot_spec outcomes config run store with ⟨goes, taken⟩ | ⟨stops, _⟩
  · rw [taken, snapshotLeft_eq outcomes config lawful goes]
  · rw [applies.proceeds] at stops
    cases stops

theorem recovered_outstanding (rollbackOnFailure : Bool) (snapshot : Option Text) (met : List Text)
    {Other : Type} (store : Store) (other : Other) :
    (recovered outcomes rollbackOnFailure snapshot ⟨snapshot, met, store⟩).outstanding =
      (recovered outcomes rollbackOnFailure snapshot ⟨snapshot, met, other⟩).outstanding := by
  cases snapshot with
  | none => rfl
  | some name =>
    by_cases undone : rollbackOnFailure ∧ outcomes.rollback = .ok () ∧ outcomes.rollbackTask = .ok ()
    · simp only [recovered, if_pos undone, afterDeletion]
      cases deletion outcomes name <;> rfl
    · simp only [recovered, if_neg undone]
      rfl

/-- A playbook that fails leaves an error that mentions everything and keeps the playbook's own. -/
theorem playbook_fails (lawful : Lawful outcomes) {selected : List Recipe} {box : BoxRecord} {error : Error}
    (applies : Applies outcomes config catalog recipe selected box) (failed : outcomes.ansible = .error error) :
    ∃ final t, runRecipe outcomes recordRecipeProvenance config catalog recipe ⟨none, [], store⟩ =
        (.error final, t) ∧ final.root = error.root ∧ Covers final t ∧
      t.outstanding = (recovered outcomes config.rollbackOnFailure (snapshotTaken outcomes config)
        ⟨snapshotTaken outcomes config, removalMet outcomes, ()⟩).outstanding := by
  obtain ⟨final, finished, root, covers⟩ := finishRecipeFailure_run outcomes recordRecipeProvenance
    ⟨joinIds (selected.map (·.id)), box.id.value, catalog.repository, catalog.revision⟩
    (allCapabilities selected) (withRemoval outcomes error)
    ((snapshotTaken outcomes config).map RecipeSnapshot.mk) config.rollbackOnFailure
    (w := ⟨snapshotTaken outcomes config, removalMet outcomes, store⟩)
    (fun name kept => Or.inl (by rw [snapshot_names]; exact kept))
    (fun text member => withRemoval_mentions outcomes error member)
  rw [snapshot_names] at finished covers
  have run := applies.run recordRecipeProvenance (⟨none, [], store⟩ : World Store)
  rw [applySelected] at run
  simp only [applied_bind, applies.snapshot store lawful, applyRecipes_run outcomes catalog box.id.value
    applies.nonempty applies.directory, failed, List.nil_append, finished, applied_pure] at run
  refine ⟨final, _, run, root.trans (withRemoval_root outcomes error), covers.store _, ?_⟩
  exact recovered_outstanding _ _ _ store ()

/-- After a playbook that succeeds, what counts is the first provenance record that fails. -/
theorem playbook_succeeds (lawful : Lawful outcomes) {selected : List Recipe} {box : BoxRecord}
    (applies : Applies outcomes config catalog recipe selected box) (succeeded : outcomes.ansible = .ok ()) :
    match firstFailure recordRecipeProvenance
      ⟨joinIds (selected.map (·.id)), box.id.value, catalog.repository, catalog.revision⟩ selected store with
    | some error => ∃ t, runRecipe outcomes recordRecipeProvenance config catalog recipe ⟨none, [], store⟩ =
        (.error error.widen, t) ∧ t.outstanding = (snapshotTaken outcomes config).toList ++ removalMet outcomes
    | none => Settled (runRecipe outcomes recordRecipeProvenance config catalog recipe ⟨none, [], store⟩) := by
  have finished := finishRecipes_run outcomes recordRecipeProvenance
    ⟨joinIds (selected.map (·.id)), box.id.value, catalog.repository, catalog.revision⟩
    ((snapshotTaken outcomes config).map RecipeSnapshot.mk) (removalError outcomes)
    applies.nonempty (w := ⟨snapshotTaken outcomes config, removalMet outcomes, store⟩) (snapshot_names _).symm rfl
  have run : runRecipe outcomes recordRecipeProvenance config catalog recipe ⟨none, [], store⟩ =
      finishRecipes outcomes recordRecipeProvenance
        ⟨joinIds (selected.map (·.id)), box.id.value, catalog.repository, catalog.revision⟩
        ((snapshotTaken outcomes config).map RecipeSnapshot.mk) (removalError outcomes) selected
        ⟨snapshotTaken outcomes config, removalMet outcomes, store⟩ := by
    rw [applies.run, applySelected]
    simp only [applied_bind, applies.snapshot store lawful, applyRecipes_run outcomes catalog box.id.value
      applies.nonempty applies.directory, succeeded, List.nil_append]
  rw [run]
  split at finished
  next error failed =>
    simp only [failed]
    exact ⟨_, Prod.ext finished.1 rfl, finished.2⟩
  next passed =>
    simp only [passed]
    exact finished

end Apply

def sampleBox : BoxRecord :=
  ⟨⟨"pbx_k7m3q9t2".toList, by decide, by decide, List.all_eq_true.mp (by decide)⟩, 104, "pve".toList, "running".toList⟩

def sampleCatalog : RecipeCatalog := ⟨"recipes".toList, "abc123".toList, [⟨"a".toList, []⟩, ⟨"b".toList, []⟩]⟩

def sampleConfig : RecipesConfig := ⟨AUTO, false⟩

/-- Everything but the provenance records succeeds. -/
def sampleOutcomes : Outcomes where
  findBox := .ok sampleBox
  nowNanos := .ok 7
  create := .ok ()
  createTask := .ok ()
  taken := true
  operationDirectory := .ok ()
  ansible := .ok ()
  removeOperationDirectory := .ok ()
  rollback := .ok ()
  rollbackTask := .ok ()
  delete := .ok ()
  deleteTask := .ok ()
  survives := false

theorem sampleOutcomes_lawful (ansible : Except Error Unit) : Lawful { sampleOutcomes with ansible := ansible } where
  completed _ _ := rfl
  refused _ requested := by cases requested
  unsupported _ _ ended := by cases ended

def unreachable : AnsibleRun → List Text → Text → StateM Unit (Except (Chain Empty) Unit) :=
  fun _ _ _ => return .error (.of "could not record".toList)

end Pbox.Cli.RecipeErrors
