import Pbox.Cli.Provenance
import Pbox.Cli.RecipeErrors
import Mathlib.Data.Countable.Basic
import Mathlib.Logic.Equiv.List

/-! What an apply leaves in the metadata of the box when nothing else writes to it: the entries of
the attempted recipes, each with the result of this run, beside the entries that were there. -/

namespace Pbox.Cli.RecipeRecords
open Pbox.Lib.Strings Pbox.Lib.Effects Pbox.Lib.ErrorChain Pbox.Lib.Upsert
open Pbox.Core.Id Pbox.Core.Metadata Pbox.Core.MetadataRoundTrip
open Pbox.Cli.RecipeApply Pbox.Cli.RecipeErrors Pbox.Cli.Provenance

/-- The box's notes, and the readings of the clock taken so far. -/
structure Notes where
  description : Option Text
  tick : Nat

/-- A PVE that nobody else writes to, which accepts every update under the current digest. -/
def quiet (now : Nat → Text) (digestOf : Option Text → Text) : Client Notes where
  currentTimestamp := fun s => (.ok (now s.tick), { s with tick := s.tick + 1 })
  getLxcConfig := fun s => (.ok ⟨s.description, some (digestOf s.description)⟩, s)
  updateLxcConfig request := fun s =>
    if request.digest = some (digestOf s.description) then (.ok (), { s with description := request.description })
    else (.error ⟨some 400, "detected modified configuration".toList, []⟩, s)

section Stores
variable {Store : Type} (outcomes : Outcomes)
variable (recordRecipeProvenance : AnsibleRun → List Text → Text → StateM Store (Except (Chain Empty) Unit))

theorem rollbackRecipeSnapshot_world (snapshot : RecipeSnapshot) (w : World Store) :
    (rollbackRecipeSnapshot outcomes snapshot w).2 = w := by
  rcases rollbackRecipeSnapshot_run outcomes snapshot w with ⟨_, _, back⟩ | ⟨_, error, back, _⟩
  · rw [back]
  · rw [back]

theorem finishRecipeFailure_store (plannedRun : AnsibleRun) (capabilities : List Text) (primary : Error)
    (snapshot : Option RecipeSnapshot) (rollbackOnFailure : Bool) (w : World Store) :
    (finishRecipeFailure outcomes recordRecipeProvenance plannedRun capabilities primary snapshot
      rollbackOnFailure w).2.store = (recordRecipeProvenance plannedRun capabilities FAILED w.store).2 := by
  unfold finishRecipeFailure
  rw [applied_bind]
  cases rollbackOnFailure with
  | false => cases snapshot <;> exact recordFailure_store _ _ _ _ rfl
  | true =>
    cases snapshot with
    | none => exact recordFailure_store _ _ _ _ rfl
    | some snapshot =>
      simp only [if_true, applied_bind, rollbackRecipeSnapshot_world]
      cases (rollbackRecipeSnapshot outcomes snapshot w).1 with
      | error error => exact recordFailure_store _ _ _ _ rfl
      | ok done =>
        simp only [applied_bind, deleteRecipeSnapshot_run]
        cases deletion outcomes snapshot.name <;> exact recordFailure_store _ _ _ _ (afterDeletion_store ..)

theorem finishRecipeSuccess_store (run : AnsibleRun) (capabilities : List Text)
    (snapshot : Option RecipeSnapshot) (cleanupError : Option (Chain Empty)) (w : World Store) :
    (finishRecipeSuccess outcomes recordRecipeProvenance run capabilities snapshot cleanupError w).2.store =
      (recordRecipeProvenance run capabilities SUCCESS w.store).2 := by
  unfold finishRecipeSuccess
  simp only [applied_bind, record_run]
  cases (recordRecipeProvenance run capabilities SUCCESS w.store).1 with
  | error error => rfl
  | ok done =>
    cases snapshot with
    | none => cases cleanupError <;> rfl
    | some snapshot =>
      simp only [applied_bind, deleteRecipeSnapshot_run]
      cases deletion outcomes snapshot.name <;> cases cleanupError <;> exact afterDeletion_store ..

/-- The provenance records of the recipes, one after the other. -/
def recordAll (run : AnsibleRun) : List Recipe → Store → Store
  | [], store => store
  | recipe :: rest, store =>
    recordAll run rest
      (recordRecipeProvenance { run with recipe := recipe.id } recipe.capabilities SUCCESS store).2

/-- While no record fails, all of them are made. -/
theorem finishRecipes_store (inv : Store → Prop) (run : AnsibleRun)
    (accepted : ∀ run capabilities store, inv store →
      (recordRecipeProvenance run capabilities SUCCESS store).1 = .ok () ∧
        inv (recordRecipeProvenance run capabilities SUCCESS store).2)
    (snapshot : Option RecipeSnapshot) (cleanupError : Option (Chain Empty)) (selected : List Recipe)
    (w : World Store) (holds : inv w.store) :
    (finishRecipes outcomes recordRecipeProvenance run snapshot cleanupError selected w).2.store =
      recordAll recordRecipeProvenance run selected w.store := by
  induction selected generalizing w with
  | nil => rfl
  | cons recipe rest ih =>
    have step := accepted { run with recipe := recipe.id } recipe.capabilities w.store holds
    simp only [finishRecipes, applied_bind, recordAll]
    cases rest with
    | nil =>
      simp only [if_true]
      have store := finishRecipeSuccess_store outcomes recordRecipeProvenance { run with recipe := recipe.id }
        recipe.capabilities snapshot cleanupError w
      cases (finishRecipeSuccess outcomes recordRecipeProvenance { run with recipe := recipe.id }
        recipe.capabilities snapshot cleanupError w).1 <;> exact store
    | cons next rest =>
      simp only [if_neg (List.cons_ne_nil next rest), finishRecipeSuccess_early, step.1, Except.mapError,
        applied_bind, applied_pure]
      exact ih _ step.2

/-- The playbook has been run to its end. -/
def succeeds (config : RecipesConfig) (selected : List Recipe) : Bool :=
  proceeds outcomes config && !selected.isEmpty && outcomes.operationDirectory.isOk && outcomes.ansible.isOk

variable (config : RecipesConfig) {catalog : RecipeCatalog} {recipe : List Text} {selected : List Recipe}
  {box : BoxRecord}

/-- The records an apply makes: one for each recipe after a playbook that succeeded, and otherwise one. -/
theorem runRecipe_store (inv : Store → Prop) (selects : selectRecipes catalog recipe = .ok selected)
    (found : outcomes.findBox = .ok box) (running : box.state = "running".toList)
    (accepted : ∀ run capabilities store, inv store →
      (recordRecipeProvenance run capabilities SUCCESS store).1 = .ok () ∧
        inv (recordRecipeProvenance run capabilities SUCCESS store).2)
    (store : Store) (holds : inv store) :
    (runRecipe outcomes recordRecipeProvenance config catalog recipe ⟨none, [], store⟩).2.store =
      let run : AnsibleRun :=
        ⟨joinIds (selected.map (·.id)), box.id.value, catalog.repository, catalog.revision⟩
      if succeeds outcomes config selected then recordAll recordRecipeProvenance run selected store
      else (recordRecipeProvenance run (allCapabilities selected) FAILED store).2 := by
  unfold runRecipe succeeds
  simp only [selects, found, running, ne_eq, not_true_eq_false, if_false, applySelected, applied_bind]
  rcases createRecipeSnapshot_spec outcomes config
    ⟨joinIds (selected.map (·.id)), box.id.value, catalog.repository, catalog.revision⟩ store with
    ⟨goes, taken⟩ | ⟨stops, error, t, failed, same, _⟩
  · simp only [goes, taken, Bool.true_and, applied_bind]
    by_cases refused : selected = [] ∨ outcomes.operationDirectory ≠ .ok ()
    · obtain ⟨error, ended, _⟩ := applyRecipes_refused outcomes catalog box.id.value refused
        (⟨snapshotLeft outcomes config, [], store⟩ : World Store)
      have short : (!selected.isEmpty && outcomes.operationDirectory.isOk) = false := by
        rcases refused with rfl | directory
        · rfl
        · cases made : outcomes.operationDirectory with
          | error error => simp [Except.isOk, Except.toBool]
          | ok done => exact absurd made directory
      simp only [ended, applied_bind, short, Bool.false_and, Bool.false_eq_true, if_false]
      exact finishRecipeFailure_store ..
    · obtain ⟨nonempty, directory⟩ := not_or.mp refused
      have empty : selected.isEmpty = false := by simpa using nonempty
      simp only [not_not.mp directory, empty, Except.isOk, Except.toBool, Bool.not_false, Bool.true_and,
        applyRecipes_run outcomes catalog box.id.value nonempty (not_not.mp directory)]
      cases outcomes.ansible with
      | error error =>
        simp only [applied_bind, Bool.false_eq_true, if_false]
        exact finishRecipeFailure_store ..
      | ok done =>
        simp only [if_true]
        exact finishRecipes_store outcomes recordRecipeProvenance inv _ accepted _ _ selected _ holds
  · simp only [stops, failed, applied_bind, Bool.false_and, Bool.false_eq_true, if_false]
    rw [← same]
    exact finishRecipeFailure_store ..

end Stores

section Entries

/-- An entry of this run, whose clock has been read from `start` on. -/
structure OfRun (repository revision : Text) (now : Nat → Text) (start : Nat) (result : Text)
    (entry : PboxRecipeProvenance) : Prop where
  repository : entry.repository = repository
  revision : entry.revision = revision
  appliedAt : ∃ tick, start ≤ tick ∧ entry.appliedAt = some (now tick)
  result : entry.result = some result

/-- Each attempted recipe has one entry, of this run, and all other entries are those of before. -/
structure Recorded (repository revision : Text) (now : Nat → Text) (start : Nat) (result : Text) (ids : List Text)
    (before after : PboxMetadata) : Prop where
  attempted : ∀ id ∈ ids, ∃ entry, after.recipes.filter (fun e => e.id = id) = [entry] ∧
    OfRun repository revision now start result entry
  others : (after.recipes.filter fun e => e.id ∉ ids).Perm (before.recipes.filter fun e => e.id ∉ ids)

/-- The metadata after the records of the recipes. -/
def recordedAll (repository revision : Text) (now : Nat → Text) :
    List Recipe → Nat → PboxMetadata → PboxMetadata
  | [], _, metadata => metadata
  | recipe :: rest, tick, metadata =>
    recordedAll repository revision now rest (tick + 1)
      (recorded metadata ⟨recipe.id, repository, revision, some (now tick), some SUCCESS⟩
        recipe.capabilities SUCCESS)

theorem entries_recorded_other {metadata : PboxMetadata} {provenance : PboxRecipeProvenance}
    {capabilities : List Text} {result : Text} {apart : PboxRecipeProvenance → Bool}
    (other : ∀ e, e.id = provenance.id → apart e = false) :
    ((recorded metadata provenance capabilities result).recipes.filter apart).Perm
      (metadata.recipes.filter apart) := by
  have sorted := filter_sort (fun left right : PboxRecipeProvenance => textLe left.id right.id)
    (upsert (·.id) provenance metadata.recipes) apart
  rw [filter_upsert_other other] at sorted
  exact sorted

theorem entries_recorded_same (metadata : PboxMetadata) (provenance : PboxRecipeProvenance)
    (capabilities : List Text) (result : Text) :
    ((recorded metadata provenance capabilities result).recipes.filter fun e => e.id = provenance.id).Perm
      (provenance :: (metadata.recipes.filter fun e => e.id = provenance.id).tail) := by
  have sorted := filter_sort (fun left right : PboxRecipeProvenance => textLe left.id right.id)
    (upsert (·.id) provenance metadata.recipes) (fun e => e.id = provenance.id)
  rw [filter_upsert_same] at sorted
  exact sorted

/-- A record never makes the entries of a recipe fewer. -/
theorem entries_grow (id : Text) (metadata : PboxMetadata) (provenance : PboxRecipeProvenance)
    (capabilities : List Text) (result : Text) :
    (metadata.recipes.filter fun e => e.id = id).length ≤
      ((recorded metadata provenance capabilities result).recipes.filter fun e => e.id = id).length := by
  by_cases same : provenance.id = id
  · have replaced := entries_recorded_same metadata provenance capabilities result
    rw [same] at replaced
    rw [replaced.length_eq, List.length_cons, List.length_tail]
    omega
  · exact (entries_recorded_other (fun e key => by simp [key, same])).length_eq.ge

section All
variable (repository revision : Text) (now : Nat → Text)

theorem recordedAll_grow (id : Text) (selected : List Recipe) (tick : Nat) (metadata : PboxMetadata) :
    (metadata.recipes.filter fun e => e.id = id).length ≤
      ((recordedAll repository revision now selected tick metadata).recipes.filter fun e => e.id = id).length := by
  induction selected generalizing tick metadata with
  | nil => exact le_rfl
  | cons recipe rest ih => exact (entries_grow id metadata _ _ _).trans (ih _ _)

theorem recordedAll_others {ids : List Text} (selected : List Recipe) (attempted : ∀ recipe ∈ selected, recipe.id ∈ ids)
    (tick : Nat) (metadata : PboxMetadata) :
    ((recordedAll repository revision now selected tick metadata).recipes.filter fun e => e.id ∉ ids).Perm
      (metadata.recipes.filter fun e => e.id ∉ ids) := by
  induction selected generalizing tick metadata with
  | nil => exact List.Perm.refl _
  | cons recipe rest ih =>
    have later := ih (fun other member => attempted other (List.mem_cons_of_mem _ member)) (tick + 1)
      (recorded metadata ⟨recipe.id, repository, revision, some (now tick), some SUCCESS⟩ recipe.capabilities SUCCESS)
    refine later.trans (entries_recorded_other fun e key => ?_)
    have among := attempted recipe List.mem_cons_self
    simp only [key, among, not_true_eq_false, decide_false]

/-- The entries of one recipe after all records: those of before, or the one of its last record. -/
theorem recordedAll_entries (id : Text) (selected : List Recipe) (tick : Nat) (metadata : PboxMetadata)
    (single : (metadata.recipes.filter fun e => e.id = id).length ≤ 1) :
    (id ∉ selected.map (·.id) ∧
      ((recordedAll repository revision now selected tick metadata).recipes.filter fun e => e.id = id).Perm
        (metadata.recipes.filter fun e => e.id = id)) ∨
    ∃ entry, (recordedAll repository revision now selected tick metadata).recipes.filter (fun e => e.id = id) =
      [entry] ∧ OfRun repository revision now tick SUCCESS entry := by
  induction selected generalizing tick metadata with
  | nil => exact Or.inl ⟨List.not_mem_nil, List.Perm.refl _⟩
  | cons recipe rest ih =>
    let provenance : PboxRecipeProvenance :=
      ⟨recipe.id, repository, revision, some (now tick), some SUCCESS⟩
    let next := recorded metadata provenance recipe.capabilities SUCCESS
    have later : ∀ entry, OfRun repository revision now (tick + 1) SUCCESS entry →
        OfRun repository revision now tick SUCCESS entry := by
      rintro entry ⟨from_repository, at_revision, ⟨reading, after, applied⟩, ended⟩
      exact ⟨from_repository, at_revision, ⟨reading, by omega, applied⟩, ended⟩
    by_cases same : recipe.id = id
    · subst same
      have replaced : (next.recipes.filter fun e => e.id = recipe.id) = [provenance] := by
        have entries := entries_recorded_same metadata provenance recipe.capabilities SUCCESS
        have none_left : (metadata.recipes.filter fun e => e.id = recipe.id).tail = [] := by
          apply List.eq_nil_of_length_eq_zero
          rw [List.length_tail]
          omega
        rw [none_left] at entries
        exact List.perm_singleton.mp entries
      rcases ih (tick + 1) next (by rw [replaced]; exact le_rfl) with ⟨_, kept⟩ | ⟨entry, alone, ofRun⟩
      · rw [replaced] at kept
        exact Or.inr ⟨provenance, List.perm_singleton.mp kept, rfl, rfl, ⟨tick, le_rfl, rfl⟩, rfl⟩
      · exact Or.inr ⟨entry, alone, later entry ofRun⟩
    · have kept : (next.recipes.filter fun e => e.id = id).Perm (metadata.recipes.filter fun e => e.id = id) :=
        entries_recorded_other fun e key => by simpa [key] using same
      rcases ih (tick + 1) next (by rw [kept.length_eq]; exact single) with ⟨absent, before⟩ | ⟨entry, alone, ofRun⟩
      · refine Or.inl ⟨?_, before.trans kept⟩
        simp only [List.map_cons, List.mem_cons, not_or]
        exact ⟨fun other => same other.symm, absent⟩
      · exact Or.inr ⟨entry, alone, later entry ofRun⟩

/-- The records of a successful apply are as they should be exactly when no attempted recipe had
several entries. -/
theorem recordedAll_recorded_iff (selected : List Recipe) (tick : Nat) (before : PboxMetadata) :
    Recorded repository revision now tick SUCCESS (selected.map (·.id)) before
        (recordedAll repository revision now selected tick before) ↔
      ∀ id ∈ selected.map (·.id), (before.recipes.filter fun e => e.id = id).length ≤ 1 := by
  constructor
  · intro recorded id member
    obtain ⟨entry, alone, _⟩ := recorded.attempted id member
    have grows := recordedAll_grow repository revision now id selected tick before
    rw [alone] at grows
    exact grows
  · intro single
    refine ⟨fun id member => ?_, recordedAll_others repository revision now selected
      (fun recipe among => List.mem_map_of_mem among) tick before⟩
    rcases recordedAll_entries repository revision now id selected tick before (single id member) with
      ⟨absent, _⟩ | found
    · exact absurd member absent
    · exact found

end All

theorem joinIds_cons (first next : Text) (rest : List Text) :
    joinIds (first :: next :: rest) = first ++ (", ".toList ++ joinIds (next :: rest)) := by
  simp [joinIds, List.intercalate]

theorem length_le_joinIds {ids : List Text} {id : Text} (member : id ∈ ids) : id.length ≤ (joinIds ids).length := by
  induction ids with
  | nil => cases member
  | cons first rest ih =>
    cases rest with
    | nil =>
      rw [List.mem_singleton.mp member]
      simp [joinIds, List.intercalate]
    | cons next rest =>
      rw [joinIds_cons, List.length_append, List.length_append]
      rcases List.mem_cons.mp member with rfl | later
      · omega
      · have := ih later
        omega

/-- The ids of several recipes joined are none of them. -/
theorem joinIds_not_mem {ids : List Text} (several : ids.length ≠ 1) : joinIds ids ∉ ids := by
  intro member
  cases ids with
  | nil => cases member
  | cons first rest =>
    cases rest with
    | nil => exact several rfl
    | cons next rest =>
      have longer : ", ".toList.length = 2 := rfl
      have total := congrArg List.length (joinIds_cons first next rest)
      rw [List.length_append, List.length_append, longer] at total
      rcases List.mem_cons.mp member with same | later
      · rw [same] at total
        omega
      · have := length_le_joinIds later
        omega

theorem exists_fresh_time (entries : List PboxRecipeProvenance) :
    ∃ time : Text, ∀ e ∈ entries, e.appliedAt ≠ some time := by
  obtain ⟨bound, longest⟩ : ∃ bound, ∀ e ∈ entries, ∀ time : Text, e.appliedAt = some time → time.length ≤ bound := by
    induction entries with
    | nil => exact ⟨0, by rintro _ ⟨⟩⟩
    | cons first rest ih =>
      obtain ⟨bound, longest⟩ := ih
      refine ⟨bound + (first.appliedAt.getD []).length, fun e member time applied => ?_⟩
      rcases List.mem_cons.mp member with rfl | later
      · simp [applied]
      · have := longest e later time applied
        omega
  refine ⟨List.replicate (bound + 1) '0', fun e member applied => ?_⟩
  have := longest e member _ applied
  rw [List.length_replicate] at this
  omega

/-- The one record of a failed apply is as it should be for a single recipe only. -/
theorem recorded_failed_iff (repository revision : Text) (ids capabilities : List Text) (tick : Nat)
    (before : PboxMetadata) :
    (∀ now : Nat → Text, Recorded repository revision now tick FAILED ids before
        (recorded before ⟨joinIds ids, repository, revision, some (now tick), some FAILED⟩ capabilities FAILED)) ↔
      (∀ id ∈ ids, (before.recipes.filter fun e => e.id = id).length ≤ 1) ∧ ids.length = 1 := by
  constructor
  · intro everywhere
    refine ⟨fun id member => ?_, ?_⟩
    · obtain ⟨entry, alone, _⟩ := (everywhere fun _ => []).attempted id member
      have grows := entries_grow id before ⟨joinIds ids, repository, revision, some [], some FAILED⟩ capabilities FAILED
      rw [alone] at grows
      exact grows
    · by_contra several
      obtain ⟨time, fresh⟩ := exists_fresh_time before.recipes
      let entry : PboxRecipeProvenance := ⟨joinIds ids, repository, revision, some time, some FAILED⟩
      have added : entry ∈ (recorded before entry capabilities FAILED).recipes :=
        (List.mem_insertionSort _).mpr (mem_upsert_self entry _)
      have apart : entry ∈ (recorded before entry capabilities FAILED).recipes.filter fun e => e.id ∉ ids :=
        List.mem_filter.mpr ⟨added, by simpa [entry] using joinIds_not_mem several⟩
      have old := ((everywhere fun _ => time).others.mem_iff).mp apart
      exact fresh entry (List.mem_filter.mp old).1 rfl
  · rintro ⟨single, one⟩ now
    obtain ⟨id, rfl⟩ := List.length_eq_one_iff.mp one
    have joined : joinIds [id] = id := by simp [joinIds, List.intercalate]
    rw [joined]
    constructor
    · intro id' member
      rw [List.mem_singleton.mp member]
      have entries := entries_recorded_same before ⟨id, repository, revision, some (now tick), some FAILED⟩
        capabilities FAILED
      have none_left : (before.recipes.filter fun e => e.id = id).tail = [] := by
        apply List.eq_nil_of_length_eq_zero
        have := single id (List.mem_singleton_self id)
        rw [List.length_tail]
        omega
      rw [none_left] at entries
      exact ⟨_, List.perm_singleton.mp entries, rfl, rfl, ⟨tick, le_rfl, rfl⟩, rfl⟩
    · exact entries_recorded_other fun e key => by simp [key]

end Entries

section Apply
variable {codec : Codec} {box : BoxRecord}

/-- The notes hold this metadata, and it is the box's own. -/
structure Reads (codec : Codec) (box : BoxRecord) (s : Notes) (metadata : PboxMetadata) : Prop where
  parses : parseMetadata codec (s.description.getD []) = .ok (some metadata)
  sameId : metadata.id = box.id
  sameVmid : metadata.vmid = box.vmid

/-- A record on a quiet PVE is accepted at the first attempt. -/
theorem record_quiet (lawful : codec.Lawful) (total : ∀ metadata, ∃ bytes, codec.toVec metadata = .ok bytes)
    (now : Nat → Text) (digestOf : Option Text → Text) (run : AnsibleRun) (capabilities : List Text) (result : Text)
    {s : Notes} {metadata : PboxMetadata} (reads : Reads codec box s metadata) :
    (recordRecipeProvenance codec box (quiet now digestOf) run capabilities result s).1 = .ok () ∧
      (recordRecipeProvenance codec box (quiet now digestOf) run capabilities result s).2.tick = s.tick + 1 ∧
      Reads codec box (recordRecipeProvenance codec box (quiet now digestOf) run capabilities result s).2
        (recorded metadata ⟨run.recipe, run.repository, run.revision, some (now s.tick), some result⟩
          capabilities result) := by
  obtain ⟨output, updated, trips⟩ := updatedDescription_ok box lawful
    ⟨run.recipe, run.repository, run.revision, some (now s.tick), some result⟩ capabilities result (total _)
    reads.parses reads.sameId reads.sameVmid
  have ended : recordRecipeProvenance codec box (quiet now digestOf) run capabilities result s =
      (.ok (), ⟨some output, s.tick + 1⟩) := by
    simp only [recordRecipeProvenance, applied_bind, quiet, attempts, updated, if_true, applied_pure]
  rw [ended]
  exact ⟨rfl, rfl, trips.1, reads.sameId, reads.sameVmid⟩

theorem recordAll_quiet (lawful : codec.Lawful) (total : ∀ metadata, ∃ bytes, codec.toVec metadata = .ok bytes)
    (now : Nat → Text) (digestOf : Option Text → Text) (run : AnsibleRun) (selected : List Recipe)
    {s : Notes} {metadata : PboxMetadata} (reads : Reads codec box s metadata) :
    Reads codec box (recordAll (recordRecipeProvenance codec box (quiet now digestOf)) run selected s)
      (recordedAll run.repository run.revision now selected s.tick metadata) := by
  induction selected generalizing s metadata with
  | nil => exact reads
  | cons recipe rest ih =>
    obtain ⟨_, ticked, next⟩ := record_quiet lawful total now digestOf { run with recipe := recipe.id }
      recipe.capabilities SUCCESS reads
    have later := ih next
    rw [ticked] at later
    exact later

theorem selectRecipes_ids {catalog : RecipeCatalog} {recipe : List Text} {selected : List Recipe}
    (selects : selectRecipes catalog recipe = .ok selected) : selected.map (·.id) = recipe := by
  induction recipe generalizing selected with
  | nil =>
    cases selects
    rfl
  | cons id rest ih =>
    unfold selectRecipes at selects
    split at selects
    next => cases selects
    next first found =>
      cases later : selectRecipes catalog rest with
      | error error =>
        rw [later] at selects
        cases selects
      | ok others =>
        rw [later] at selects
        cases selects
        have named := List.find?_some found
        rw [List.map_cons, ih later, beq_iff_eq.mp named]

/-- The metadata that an apply leaves in the notes. -/
def leftBy (outcomes : Outcomes) (config : RecipesConfig) (catalog : RecipeCatalog) (selected : List Recipe)
    (now : Nat → Text) (tick : Nat) (before : PboxMetadata) : PboxMetadata :=
  if succeeds outcomes config selected then
    recordedAll catalog.repository catalog.revision now selected tick before
  else
    recorded before ⟨joinIds (selected.map (·.id)), catalog.repository, catalog.revision, some (now tick), some FAILED⟩
      (allCapabilities selected) FAILED

theorem apply_reads (lawful : codec.Lawful) (total : ∀ metadata, ∃ bytes, codec.toVec metadata = .ok bytes)
    (now : Nat → Text) (digestOf : Option Text → Text) (outcomes : Outcomes) (config : RecipesConfig)
    {catalog : RecipeCatalog} {recipe : List Text} {selected : List Recipe}
    (selects : selectRecipes catalog recipe = .ok selected) (found : outcomes.findBox = .ok box)
    (running : box.state = "running".toList) {s : Notes} {before : PboxMetadata} (reads : Reads codec box s before) :
    Reads codec box (runRecipe outcomes (recordRecipeProvenance codec box (quiet now digestOf)) config catalog recipe
      ⟨none, [], s⟩).2.store (leftBy outcomes config catalog selected now s.tick before) := by
  rw [runRecipe_store outcomes (recordRecipeProvenance codec box (quiet now digestOf)) config
    (fun s => ∃ metadata, Reads codec box s metadata) selects found running
    (fun run capabilities s ⟨metadata, holds⟩ =>
      have step := record_quiet lawful total now digestOf run capabilities SUCCESS holds
      ⟨step.1, _, step.2.2⟩) s ⟨before, reads⟩]
  unfold leftBy
  by_cases succeeded : succeeds outcomes config selected = true
  · simp only [succeeded, if_true]
    exact recordAll_quiet lawful total now digestOf _ selected reads
  · simp only [succeeded, Bool.false_eq_true, if_false]
    exact (record_quiet lawful total now digestOf _ (allCapabilities selected) FAILED reads).2.2

/-- The metadata that an apply leaves in the notes, whatever the clock reads, is as it should be
exactly when no attempted recipe had several entries and the recipes succeeded or were but one. -/
theorem apply_records_iff (lawful : codec.Lawful) (total : ∀ metadata, ∃ bytes, codec.toVec metadata = .ok bytes)
    (digestOf : Option Text → Text) (outcomes : Outcomes) (config : RecipesConfig) {catalog : RecipeCatalog}
    {recipe : List Text} {selected : List Recipe} (selects : selectRecipes catalog recipe = .ok selected)
    (found : outcomes.findBox = .ok box) (running : box.state = "running".toList)
    {s : Notes} {before : PboxMetadata} (reads : Reads codec box s before) :
    (∀ now, ∃ after,
        parseMetadata codec
          ((runRecipe outcomes (recordRecipeProvenance codec box (quiet now digestOf)) config catalog recipe
            ⟨none, [], s⟩).2.store.description.getD []) = .ok (some after) ∧
        Recorded catalog.repository catalog.revision now s.tick
          (if succeeds outcomes config selected then SUCCESS else FAILED) recipe before after) ↔
      (∀ id ∈ recipe, (before.recipes.filter fun e => e.id = id).length ≤ 1) ∧
        (succeeds outcomes config selected = true ∨ recipe.length = 1) := by
  have left : ∀ now, _ := fun now =>
    (apply_reads lawful total now digestOf outcomes config selects found running reads).parses
  obtain rfl := selectRecipes_ids selects
  simp only [left, Except.ok.injEq, Option.some.injEq, exists_eq_left']
  unfold leftBy
  by_cases succeeded : succeeds outcomes config selected = true
  · have each := fun now =>
      recordedAll_recorded_iff catalog.repository catalog.revision now selected s.tick before
    simp only [succeeded, if_true, true_or, and_true, each]
    exact ⟨fun every => every fun _ => [], fun single _ => single⟩
  · simp only [succeeded, Bool.false_eq_true, if_false, false_or]
    exact recorded_failed_iff catalog.repository catalog.revision (selected.map (·.id)) (allCapabilities selected)
      s.tick before

end Apply

section Sample

theorem metadata_countable : Countable PboxMetadata := by
  have char : Countable Char := Function.Injective.countable (f := Char.toNat) fun _ _ same =>
    Char.ext (UInt32.toNat_inj.mp same)
  have entry : Countable PboxRecipeProvenance := Function.Injective.countable
    (f := fun e : PboxRecipeProvenance => (e.id, e.repository, e.revision, e.appliedAt, e.result))
    fun e e' same => by
      cases e
      cases e'
      simpa using same
  refine Function.Injective.countable (f := fun m : PboxMetadata =>
    (m.id.value, m.vmid.toNat, m.image, m.snapshot, m.node, m.recipes, m.capabilities)) fun m m' same => ?_
  obtain ⟨⟨id, _⟩, vmid, image, snapshot, node, recipes, capabilities⟩ := m
  obtain ⟨⟨id', _⟩, vmid', image', snapshot', node', recipes', capabilities'⟩ := m'
  simp only [Prod.mk.injEq, UInt64.toNat_inj] at same
  obtain ⟨rfl, rfl, rfl, rfl, rfl, rfl, rfl⟩ := same
  rfl

noncomputable def number : PboxMetadata → Nat :=
  (metadata_countable.exists_injective_nat).choose

theorem number_injective : Function.Injective number :=
  (metadata_countable.exists_injective_nat).choose_spec

open Classical in
/-- A coder that serialises every metadata, as `serde_json` does. -/
noncomputable def numberCodec : Codec where
  toVec metadata := .ok (List.replicate (number metadata) 0)
  fromSlice bytes := if known : ∃ metadata, number metadata = bytes.length then .ok known.choose else .error []
  fromStr _ := .error []
  encode bytes := List.replicate bytes.length 'A'
  decode payload := some (List.replicate payload.length 0)

theorem numberCodec_lawful : numberCodec.Lawful where
  json metadata bytes serialised := by
    cases serialised
    have known : ∃ other, number other = (List.replicate (number metadata) (0 : UInt8)).length :=
      ⟨metadata, (List.length_replicate ..).symm⟩
    have same : known.choose = metadata := number_injective (known.choose_spec.trans (List.length_replicate ..))
    unfold numberCodec
    dsimp only
    rw [dif_pos known, same]
  base64 metadata bytes serialised := by
    cases serialised
    simp [numberCodec]
  alphabet bytes c member := by
    rw [List.eq_of_mem_replicate member]
    decide

def emptyMetadata : PboxMetadata := .new sampleBox.id 104

noncomputable def sampleNotes : Notes :=
  ⟨some (markerOf (numberCodec.encode (List.replicate (number emptyMetadata) 0))), 0⟩

theorem sampleNotes_read : Reads numberCodec sampleBox sampleNotes emptyMetadata := by
  refine ⟨?_, rfl, rfl⟩
  have reads : parseMetadata numberCodec
      ([] ++ (markerOf (numberCodec.encode (List.replicate (number emptyMetadata) 0)) ++ [])) =
        .ok (some emptyMetadata) :=
    (parse_marker_iff (numberCodec_lawful.alphabet (List.replicate (number emptyMetadata) 0)) [] (by decide)
      (numberCodec_lawful.base64 emptyMetadata _ rfl) (numberCodec_lawful.json emptyMetadata _ rfl)).mpr (by decide)
  rw [List.nil_append, List.append_nil] at reads
  exact reads

def playbookFails : Outcomes :=
  { sampleOutcomes with ansible := .error ⟨"failed".toList, [], some (.playbook ⟨[], []⟩)⟩ }

theorem apply_records_iff_sample :
    (∀ now, ∃ after,
        parseMetadata numberCodec
          ((runRecipe playbookFails (recordRecipeProvenance numberCodec sampleBox (quiet now fun _ => [])) sampleConfig
            sampleCatalog ["a".toList] ⟨none, [], sampleNotes⟩).2.store.description.getD []) = .ok (some after) ∧
        Recorded sampleCatalog.repository sampleCatalog.revision now 0
          (if succeeds playbookFails sampleConfig [⟨"a".toList, []⟩] then SUCCESS else FAILED) ["a".toList]
          emptyMetadata after) ↔
      (∀ id ∈ ["a".toList], (emptyMetadata.recipes.filter fun e => e.id = id).length ≤ 1) ∧
        (succeeds playbookFails sampleConfig [⟨"a".toList, []⟩] = true ∨ ["a".toList].length = 1) :=
  apply_records_iff numberCodec_lawful (fun _ => ⟨_, rfl⟩) (fun _ => []) playbookFails sampleConfig rfl rfl rfl
    sampleNotes_read

/-- Two recipes, a playbook that fails: neither recipe has an entry. -/
theorem joined_entry :
    ¬∃ after,
        parseMetadata numberCodec
          ((runRecipe playbookFails
            (recordRecipeProvenance numberCodec sampleBox (quiet (fun _ => "2026-01-01T00:00:00Z".toList) fun _ => []))
            sampleConfig sampleCatalog ["a".toList, "b".toList]
            ⟨none, [], sampleNotes⟩).2.store.description.getD []) = .ok (some after) ∧
        Recorded sampleCatalog.repository sampleCatalog.revision (fun _ => "2026-01-01T00:00:00Z".toList) 0
          (if succeeds playbookFails sampleConfig sampleCatalog.recipes then SUCCESS else FAILED)
          ["a".toList, "b".toList] emptyMetadata after := by
  rintro ⟨after, parsed, recorded⟩
  have left := (apply_reads numberCodec_lawful (fun _ => ⟨_, rfl⟩) (fun _ => "2026-01-01T00:00:00Z".toList)
    (fun _ => []) playbookFails sampleConfig
    (rfl : selectRecipes sampleCatalog ["a".toList, "b".toList] = .ok sampleCatalog.recipes) rfl rfl
    sampleNotes_read).parses
  rw [left] at parsed
  cases parsed
  obtain ⟨entry, alone, _⟩ := recorded.attempted "a".toList List.mem_cons_self
  have absent : ((leftBy playbookFails sampleConfig sampleCatalog sampleCatalog.recipes
      (fun _ => "2026-01-01T00:00:00Z".toList) 0 emptyMetadata).recipes.filter fun e => e.id = "a".toList) = [] := by
    decide
  exact absurd (absent.symm.trans alone) (by simp)

end Sample

end Pbox.Cli.RecipeRecords
