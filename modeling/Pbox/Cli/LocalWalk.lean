import Pbox.Cli.LocalTree

/-! The walk of a local directory, whatever its links share and wherever they lead back: it ends, it
fails exactly at what cannot be copied, and else it lists everything reached. -/

namespace Pbox.Cli.LocalTree
open Pbox.Lib.Strings Pbox.Lib.Effects Pbox.Lib.Descent Pbox.Lib.FileTree

/-! One step of the walk, and the walk. -/

section Steps
variable (fs : LocalFs)

def LocalFs.directoryAt (place : Place) : Option Place :=
  if fs.metadata place = .ok .directory then some place else none

def LocalFs.fileAt (place : Place) : Option LocalUploadFile :=
  match fs.metadata place, fs.localFileMode place with
  | .ok (.file _), .ok mode => some ⟨place, place, mode⟩
  | _, _ => none

/-- What the walk has listed when it has gone through these paths. -/
def LocalFs.through (walk : Walk) (places : List Place) : Walk :=
  { walk with
    directories := walk.directories ++ places.filterMap fs.directoryAt
    files := walk.files ++ places.filterMap fs.fileAt }

/-- The state in which the walk enters a directory. -/
structure LocalFs.Ready (fuel : Nat) (place : Place) (ancestors : List Place) : Prop where
  inner : fs.IsDirectory place
  nodup : ancestors.Nodup
  known : ∀ canonical ∈ ancestors, canonical ∈ fs.places
  enough : fs.places.length < fuel + ancestors.length
  above : ∀ canonical, canonical ∈ ancestors ↔
    ∃ ancestor, ancestor <+: place ∧ ancestor ≠ place ∧ fs.canonicalize ancestor = .ok canonical

variable {fs} {place : Place} {walk : Walk} {fuel : Nat}

@[simp] theorem ends_orContext {Value : Type} {outcome : Except Text Value} {text : Text}
    {ok : Value → Walk → Prop} {failed : Stop → Walk → Prop} :
    Ends (orContext outcome text place) walk ok failed ↔
      (∀ cause, outcome = .error cause → failed (.failed ⟨text, place, some cause⟩) walk) ∧
        (∀ value, outcome = .ok value → ok value walk) := by
  cases outcome <;> simp [orContext]

@[simp] theorem ends_popping {body : Walking Unit} {ok : Unit → Walk → Prop} {failed : Stop → Walk → Prop} :
    Ends (popping body) walk ok failed ↔
      Ends body walk (fun _ t => ok () { t with ancestors := t.ancestors.dropLast })
        fun stop t => failed stop { t with ancestors := t.ancestors.dropLast } := by
  simp [popping]

theorem through_append (walk : Walk) (first second : List Place) :
    fs.through (fs.through walk first) second = fs.through walk (first ++ second) := by
  simp [LocalFs.through, List.filterMap_append]

theorem isDirectory_child {name : Name} (kind : fs.metadata (place ++ [name]) = .ok .directory) :
    fs.IsDirectory (place ++ [name]) := Or.inr kind

/-- A path under a directory that is none itself lists nothing. -/
theorem children_none {name : Name} (kind : fs.metadata (place ++ [name]) ≠ .ok .directory) :
    fs.children (place ++ [name]) = none := by
  unfold LocalFs.children
  rw [if_neg]
  rintro (top | directory)
  · simp at top
  · exact kind directory

theorem children_some {names : List Name} (inner : fs.IsDirectory place)
    (lists : fs.readDir place = .ok (.ok names)) :
    fs.children place = some (names.insertionSort (· ≤ ·)) := by
  unfold LocalFs.children
  rw [if_pos inner, lists]

theorem children_eq_some {names : List Name} (lists : fs.children place = some names) :
    ∃ listed, fs.readDir place = .ok (.ok listed) ∧ names = listed.insertionSort (· ≤ ·) := by
  unfold LocalFs.children at lists
  split at lists
  next =>
    split at lists
    next listed opens =>
      cases lists
      exact ⟨listed, opens, rfl⟩
    next => cases lists
  next => cases lists

theorem below_isName {reached : Place} (below : Below fs.children [] reached) : ∀ name ∈ reached, IsName name := by
  refine below.names (P := IsName) ?_ (by simp)
  intro here names lists name member
  obtain ⟨listed, opens, rfl⟩ := children_eq_some lists
  exact fs.named here listed opens name ((List.mem_insertionSort _).mp member)

/-- Entering a directory keeps the walk ready for what the directory lists. -/
theorem LocalFs.Ready.child {ancestors : List Place} {name : Name} {canonical : Place}
    (ready : fs.Ready (fuel + 1) place ancestors) (resolved : fs.canonicalize place = .ok canonical)
    (fresh : canonical ∉ ancestors) (kind : fs.metadata (place ++ [name]) = .ok .directory) :
    fs.Ready fuel (place ++ [name]) (ancestors ++ [canonical]) where
  inner := isDirectory_child kind
  nodup := List.nodup_append.mpr ⟨ready.nodup, List.nodup_singleton _, by
    intro first member second among same
    rw [List.mem_singleton.mp among] at same
    exact fresh (same ▸ member)⟩
  known := by
    intro other member
    rcases List.mem_append.mp member with member | member
    · exact ready.known other member
    · rw [List.mem_singleton.mp member]
      exact fs.resolved place canonical resolved
  enough := by
    have enough := ready.enough
    rw [List.length_append, List.length_singleton]
    omega
  above := by
    intro other
    rw [List.mem_append, List.mem_singleton, ready.above other]
    constructor
    · rintro (⟨ancestor, above, _, again⟩ | rfl)
      · refine ⟨ancestor, above.trans (List.prefix_append _ _), ?_, again⟩
        rintro rfl
        have length := above.length_le
        rw [List.length_append, List.length_singleton] at length
        omega
      · exact ⟨place, List.prefix_append _ _, by simp, resolved⟩
    · rintro ⟨ancestor, above, apart, again⟩
      rcases List.prefix_concat_iff.mp above with same | above
      · exact absurd same apart
      · by_cases same : ancestor = place
        · rw [same, resolved] at again
          cases again
          exact Or.inr rfl
        · exact Or.inl ⟨ancestor, above, same, again⟩

/-- With no fuel left the ancestors would be more than there are places. -/
theorem not_ready_zero {ancestors : List Place} : ¬fs.Ready 0 place ancestors := by
  intro ready
  have enough := ready.enough
  have within := (List.subperm_of_subset ready.nodup ready.known).length_le
  omega

/-- A path at which the walk is not stopped, nor below it. -/
def LocalFs.Sound (fs : LocalFs) (place : Place) : Prop :=
  ∀ reached, reached = place ∨ Below fs.children place reached → ¬fs.Defect reached

structure LocalFs.Listed (fs : LocalFs) (fuel : Nat) (place : Place) (walk t : Walk) : Prop where
  walk : t = fs.through walk (tour fs.children fuel place)
  within : Within fs.children fuel place
  sound : fs.Sound place

structure LocalFs.Stopped (fs : LocalFs) (place : Place) (stop : Stop) : Prop where
  failed : ∃ failure, stop = .failed failure
  defect : ¬fs.Sound place

/-- What a walk with this fuel does in the directories it may enter. -/
def LocalFs.Walks (fs : LocalFs) (fuel : Nat) : Prop :=
  ∀ place walk, fs.Ready fuel place walk.ancestors →
    Ends (collectLocalDirectoryAt fs fuel place) walk (fun _ t => fs.Listed fuel place walk t)
      fun stop _ => fs.Stopped place stop

theorem LocalFs.Stopped.here {failure : Failure} (defect : fs.Defect place) : fs.Stopped place (.failed failure) where
  failed := ⟨failure, rfl⟩
  defect := fun sound => sound place (Or.inl rfl) defect

/-- A path that lists nothing is sound when there is nothing wrong with itself. -/
theorem sound_barren (barren : fs.children place = none) (healthy : ¬fs.Defect place) : fs.Sound place := by
  rintro reached (rfl | below)
  · exact healthy
  · exact absurd below (not_below barren)

theorem healthy_file {len : Nat} {bits : UInt32} (entry : place ≠ []) (kind : fs.metadata place = .ok (.file len))
    (fits : ¬MAX_FILE_TRANSFER_BYTES < len) (mode : fs.permissions place = .ok bits) : ¬fs.Defect place := by
  have outer : ¬fs.IsDirectory place := by
    rintro (top | directory)
    · exact entry top
    · rw [kind] at directory
      cases directory
  intro defect
  cases defect with
  | unreadable _ cause fails => rw [kind] at fails; cases fails
  | special _ other => rw [kind] at other; cases other
  | large _ len' other exceeds =>
    rw [kind] at other
    cases other
    exact fits exceeds
  | modeless _ len' other cause fails => rw [mode] at fails; cases fails
  | unresolved inner cause fails => exact outer inner
  | unopened inner cause fails => exact outer inner
  | unlisted inner cause fails => exact outer inner
  | reenters inner ancestor above apart canonical resolved again => exact outer inner

theorem healthy_directory {canonical : Place} {names : List Name} (inner : fs.IsDirectory place)
    (resolved : fs.canonicalize place = .ok canonical) (lists : fs.readDir place = .ok (.ok names))
    (fresh : ¬∃ ancestor, ancestor <+: place ∧ ancestor ≠ place ∧ fs.canonicalize ancestor = .ok canonical) :
    ¬fs.Defect place := by
  have kind (entry : place ≠ []) : fs.metadata place = .ok .directory := inner.resolve_left entry
  intro defect
  cases defect with
  | unreadable entry cause fails => rw [kind entry] at fails; cases fails
  | special entry other => rw [kind entry] at other; cases other
  | large entry len other exceeds => rw [kind entry] at other; cases other
  | modeless entry len other cause fails => rw [kind entry] at other; cases other
  | unresolved _ cause fails => rw [resolved] at fails; cases fails
  | unopened _ cause fails => rw [lists] at fails; cases fails
  | unlisted _ cause fails => rw [lists] at fails; cases fails
  | reenters _ ancestor above apart other resolved' again =>
    rw [resolved] at resolved'
    cases resolved'
    exact fresh ⟨ancestor, above, apart, again⟩

/-- What one entry adds: itself, and what the walk lists below it. -/
def LocalFs.under (fs : LocalFs) (fuel : Nat) (place : Place) : List Place :=
  place :: tour fs.children fuel place

theorem ends_collectEntry {name : Name} (walks : fs.Walks fuel)
    (ready : fs.metadata (place ++ [name]) = .ok .directory → fs.Ready fuel (place ++ [name]) walk.ancestors) :
    Ends (collectEntry fs (collectLocalDirectoryAt fs fuel) (place ++ [name])) walk
      (fun _ t => t = fs.through walk (fs.under fuel (place ++ [name])) ∧
        Within fs.children fuel (place ++ [name]) ∧ fs.Sound (place ++ [name]))
      fun stop _ => fs.Stopped (place ++ [name]) stop := by
  have entry : place ++ [name] ≠ [] := by simp
  unfold collectEntry
  rw [ends_bind, ends_orContext]
  constructor
  · intro cause fails
    exact LocalFs.Stopped.here (.unreadable entry cause fails)
  · intro kind is
    cases kind with
    | directory =>
      have first : ({ walk with directories := walk.directories ++ [place ++ [name]] } : Walk) =
          fs.through walk [place ++ [name]] := by
        simp [LocalFs.through, LocalFs.directoryAt, LocalFs.fileAt, is]
      dsimp only
      rw [ends_bind, ends_modify, first]
      refine (walks _ (fs.through walk _) (ready is)).mono ?_ fun _ _ stopped => stopped
      intro _ t listed
      refine ⟨?_, listed.within, listed.sound⟩
      rw [listed.walk, through_append]
      rfl
    | file len =>
      have barren : fs.children (place ++ [name]) = none := by
        apply children_none
        rw [is]
        simp
      dsimp only
      rw [ends_bind, ends_throwIf]
      constructor
      · intro exceeds
        exact LocalFs.Stopped.here (.large entry len is exceeds)
      · intro fits
        rw [ends_bind, ends_orContext]
        cases mode : fs.permissions (place ++ [name]) with
        | error cause =>
          constructor
          · intro cause' fails
            exact LocalFs.Stopped.here (.modeless entry len is cause mode)
          · intro value found
            simp [LocalFs.localFileMode, mode] at found
        | ok bits =>
          have masked : fs.localFileMode (place ++ [name]) = .ok (bits &&& 0o777) := by
            simp [LocalFs.localFileMode, mode]
          constructor
          · intro cause fails
            rw [masked] at fails
            cases fails
          · intro value found
            rw [masked] at found
            cases found
            rw [ends_modify]
            refine ⟨?_, within_barren barren, sound_barren barren (healthy_file entry is fits mode)⟩
            simp [LocalFs.through, LocalFs.under, tour_barren barren, LocalFs.directoryAt, LocalFs.fileAt, is, masked]
    | special =>
      dsimp only
      rw [ends_throw]
      exact LocalFs.Stopped.here (.special entry is)

theorem ends_entries {names : List Name} (walks : fs.Walks fuel)
    (ready : ∀ name, fs.metadata (place ++ [name]) = .ok .directory →
      fs.Ready fuel (place ++ [name]) walk.ancestors) :
    Ends (forM names fun name => collectEntry fs (collectLocalDirectoryAt fs fuel) (place ++ [name])) walk
      (fun _ t => t = fs.through walk (names.flatMap fun name => fs.under fuel (place ++ [name])) ∧
        ∀ name ∈ names, Within fs.children fuel (place ++ [name]) ∧ fs.Sound (place ++ [name]))
      fun stop _ => ∃ name ∈ names, fs.Stopped (place ++ [name]) stop := by
  induction names generalizing walk with
  | nil =>
    rw [List.forM_nil, ends_pure]
    exact ⟨by simp [LocalFs.through], by simp⟩
  | cons name rest ih =>
    rw [List.forM_cons, ends_bind]
    refine (ends_collectEntry walks (ready name)).mono ?_ ?_
    · rintro _ t ⟨rfl, within, sound⟩
      refine (@ih (fs.through walk _) ready).mono ?_ ?_
      · rintro _ t ⟨rfl, later⟩
        refine ⟨?_, ?_⟩
        · rw [through_append, List.flatMap_cons]
        · intro other member
          rcases List.mem_cons.mp member with rfl | member
          · exact ⟨within, sound⟩
          · exact later other member
      · rintro stop _ ⟨other, member, stopped⟩
        exact ⟨other, List.mem_cons_of_mem _ member, stopped⟩
    · intro stop _ stopped
      exact ⟨name, List.mem_cons_self, stopped⟩

/-- Popped and pushed again, the ancestors are what they were. -/
theorem popped {t : Walk} {canonical : Place} {places : List Place}
    (pushed : t = fs.through { walk with ancestors := walk.ancestors ++ [canonical] } places) :
    { t with ancestors := t.ancestors.dropLast } = fs.through walk places := by
  subst pushed
  simp [LocalFs.through]

theorem walks (fs : LocalFs) (fuel : Nat) : fs.Walks fuel := by
  induction fuel with
  | zero => exact fun place walk ready => absurd ready not_ready_zero
  | succ fuel ih =>
    intro place walk ready
    have inner := ready.inner
    unfold collectLocalDirectoryAt
    rw [ends_bind, ends_orContext]
    constructor
    · intro cause fails
      exact LocalFs.Stopped.here (.unresolved inner cause fails)
    intro canonical resolved
    rw [ends_bind, ends_get, ends_bind, ends_throwIf]
    constructor
    · intro again
      obtain ⟨ancestor, above, apart, same⟩ := (ready.above canonical).mp again
      exact LocalFs.Stopped.here (.reenters inner ancestor above apart canonical resolved same)
    intro fresh
    rw [ends_bind, ends_modify, ends_popping, ends_bind, ends_orContext]
    constructor
    · intro cause fails
      exact LocalFs.Stopped.here (.unopened inner cause fails)
    intro opened opens
    rw [ends_bind, ends_orContext]
    constructor
    · intro cause fails
      exact LocalFs.Stopped.here (.unlisted inner cause (fails ▸ opens))
    intro names lists
    have listed := children_some inner (lists ▸ opens)
    refine (ends_entries ih fun name kind => ready.child resolved fresh kind).mono ?_ ?_
    · rintro _ t ⟨rfl, entries⟩
      refine ⟨?_, ?_, ?_⟩
      · rw [tour_listed listed]
        exact popped rfl
      · intro other again
        rw [listed] at again
        cases again
        exact fun name member => (entries name member).1
      · rintro reached (rfl | below)
        · exact healthy_directory inner resolved (lists ▸ opens) fun again => fresh ((ready.above canonical).mpr again)
        · obtain ⟨name, member, under⟩ := (below_iff listed).mp below
          exact (entries name member).2 reached under
    · rintro stop _ ⟨name, member, stopped⟩
      refine ⟨stopped.failed, ?_⟩
      intro sound
      apply stopped.defect
      intro reached under
      exact sound reached (Or.inr ((below_iff listed).mpr ⟨name, member, under⟩))

end Steps

/-! The lists that the walk gives. -/

section Lists
variable {fs : LocalFs} {fuel : Nat} {directories : List Place} {files : List LocalUploadFile}

/-- The copy creates the directories, then the files. -/
def order (directories : List Place) (files : List LocalUploadFile) : List Place :=
  directories ++ files.map (·.relativePath)

/-- Everything reached is listed once, as what it is, and nothing before the directory it is in. -/
structure LocalFs.Collected (fs : LocalFs) (directories : List Place) (files : List LocalUploadFile) : Prop where
  exactly : ∀ place, place ∈ order directories files ↔ Below fs.children [] place
  once : (order directories files).Nodup
  parents : (order directories files).Pairwise fun earlier later => ¬later <+: earlier
  directory : ∀ place ∈ directories, fs.metadata place = .ok .directory
  file : ∀ file ∈ files, fs.fileAt file.relativePath = some file

/-- The state at the root. -/
theorem ready_root (enough : fs.places.length < fuel) : fs.Ready fuel [] [] where
  inner := Or.inl rfl
  nodup := List.nodup_nil
  known := by simp
  enough := enough
  above := by
    intro canonical
    constructor
    · intro member
      cases member
    · rintro ⟨ancestor, above, apart, _⟩
      exact absurd (List.prefix_nil.mp above) apart

theorem fileAt_path {place : Place} {file : LocalUploadFile} (found : fs.fileAt place = some file) :
    file.relativePath = place := by
  unfold LocalFs.fileAt at found
  split at found
  next => cases found; rfl
  next => cases found

theorem filterMap_directoryAt (places : List Place) :
    places.filterMap fs.directoryAt = places.filter fun place => fs.metadata place = .ok .directory := by
  induction places with
  | nil => rfl
  | cons place rest ih =>
    by_cases kind : fs.metadata place = .ok .directory <;> simp [LocalFs.directoryAt, kind, ih]

theorem map_fileAt (places : List Place) :
    (places.filterMap fs.fileAt).map (·.relativePath) = places.filter fun place => (fs.fileAt place).isSome := by
  induction places with
  | nil => rfl
  | cons place rest ih =>
    rw [List.filterMap_cons, List.filter_cons]
    cases found : fs.fileAt place with
    | none => simpa using ih
    | some file => simp [fileAt_path found, ih]

/-- A sound entry is a directory or a file, and not both. -/
theorem fileAt_isSome {place : Place} (entry : place ≠ []) (healthy : ¬fs.Defect place) :
    (fs.fileAt place).isSome = !decide (fs.metadata place = .ok .directory) := by
  cases kind : fs.metadata place with
  | error cause => exact absurd (.unreadable entry cause kind) healthy
  | ok metadata =>
    cases metadata with
    | directory => simp [LocalFs.fileAt, kind]
    | special => exact absurd (.special entry kind) healthy
    | file len =>
      cases mode : fs.permissions place with
      | error cause => exact absurd (.modeless entry len kind cause mode) healthy
      | ok bits => simp [LocalFs.fileAt, LocalFs.localFileMode, kind, mode]

theorem below_nonempty {place : Place} (below : Below fs.children [] place) : place ≠ [] := by
  rintro rfl
  obtain ⟨name, longer⟩ := below.longer
  have length := longer.length_le
  simp at length

theorem fileAt_kind {place : Place} {file : LocalUploadFile} (found : fs.fileAt place = some file) :
    fs.metadata place ≠ .ok .directory := by
  intro kind
  simp [LocalFs.fileAt, kind] at found

/-- Sorted or not, the two lists together are what the walk went through. -/
theorem order_perm {places : List Place} (sound : ∀ place ∈ places, place ≠ [] ∧ ¬fs.Defect place) :
    (order ((places.filterMap fs.directoryAt).insertionSort (· ≤ ·))
      ((places.filterMap fs.fileAt).insertionSort fun left right => left.relativePath ≤ right.relativePath)).Perm
      places := by
  unfold order
  refine ((List.perm_insertionSort _ _).append ((List.perm_insertionSort _ _).map _)).trans ?_
  rw [filterMap_directoryAt, map_fileAt]
  have others : (places.filter fun place => (fs.fileAt place).isSome) =
      places.filter fun place => !decide (fs.metadata place = .ok .directory) :=
    List.filter_congr fun place member => fileAt_isSome (sound place member).1 (sound place member).2
  rw [others]
  exact List.filter_append_perm _ _

/-- In sorted lists without repetition nothing comes before what it is below. -/
theorem parents_first {places : List Place} (sorted : places.Pairwise (· ≤ ·)) (once : places.Nodup) :
    places.Pairwise fun earlier later => ¬later <+: earlier := by
  refine (sorted.and once).imp ?_
  rintro earlier later ⟨le, different⟩ above
  exact different (List.le_antisymm le above.le)

theorem collected_tour (within : Within fs.children fuel []) (sound : fs.Sound []) :
    fs.Collected (((tour fs.children fuel []).filterMap fs.directoryAt).insertionSort (· ≤ ·))
      (((tour fs.children fuel []).filterMap fs.fileAt).insertionSort fun left right =>
        left.relativePath ≤ right.relativePath) := by
  have reached (place : Place) (member : place ∈ tour fs.children fuel []) : place ≠ [] ∧ ¬fs.Defect place := by
    have below := (mem_tour within).mp member
    exact ⟨below_nonempty below, sound place (Or.inr below)⟩
  have perm := order_perm reached
  have distinct (here : Place) (names : List Name) (lists : fs.children here = some names) : names.Nodup := by
    obtain ⟨listed, opens, rfl⟩ := children_eq_some lists
    exact (List.perm_insertionSort _ _).nodup_iff.mpr (fs.distinct here listed opens)
  have once := perm.nodup_iff.mpr (nodup_tour distinct [])
  have exactly (place : Place) := perm.mem_iff.trans (@mem_tour _ fs.children [] place fuel within)
  have directory (place : Place)
      (member : place ∈ ((tour fs.children fuel []).filterMap fs.directoryAt).insertionSort (· ≤ ·)) :
      fs.metadata place = .ok .directory := by
    rw [List.mem_insertionSort, filterMap_directoryAt, List.mem_filter] at member
    exact of_decide_eq_true member.2
  have file (file : LocalUploadFile)
      (member : file ∈ ((tour fs.children fuel []).filterMap fs.fileAt).insertionSort fun left right =>
        left.relativePath ≤ right.relativePath) : fs.fileAt file.relativePath = some file := by
    rw [List.mem_insertionSort, List.mem_filterMap] at member
    obtain ⟨place, _, found⟩ := member
    rw [fileAt_path found, found]
  refine ⟨exactly, once, List.pairwise_append.mpr ⟨?_, ?_, ?_⟩, directory, file⟩
  · exact parents_first (List.pairwise_insertionSort _ _) (List.nodup_append.mp once).1
  · refine parents_first ?_ (List.nodup_append.mp once).2.1
    rw [List.pairwise_map]
    have total : Std.Total fun left right : LocalUploadFile => left.relativePath ≤ right.relativePath :=
      ⟨fun left right => List.le_total _ _⟩
    have trans : IsTrans LocalUploadFile fun left right => left.relativePath ≤ right.relativePath :=
      ⟨fun _ _ _ => List.le_trans⟩
    exact List.pairwise_insertionSort _ _
  · -- a file lists nothing, so no directory is below it
    intro earlier inner later outer above
    obtain ⟨other, among, rfl⟩ := List.mem_map.mp outer
    have below := (exactly earlier).mp (List.mem_append_left _ inner)
    have apart : other.relativePath ≠ earlier := by
      rintro rfl
      exact fileAt_kind (file other among) (directory _ inner)
    have lists := below.between List.nil_prefix above apart
    have entry := below_nonempty ((exactly _).mp (List.mem_append_right _ outer))
    obtain ⟨front, name, path⟩ := (List.eq_nil_or_concat' other.relativePath).resolve_left entry
    have kind := fileAt_kind (file other among)
    rw [path] at kind lists
    exact lists (children_none kind)

/-- With more fuel than there are places the walk comes to an end. It fails exactly at a defect that is
reached from the root, and else its lists are what is reached. -/
theorem collectLocalDirectory_spec (enough : fs.places.length < fuel) :
    (fs.Sound [] → ∃ directories files,
      collectLocalDirectory fs fuel = .ok (directories, files) ∧ fs.Collected directories files) ∧
    (¬fs.Sound [] → ∃ failure, collectLocalDirectory fs fuel = .error (.failed failure)) := by
  have ends := walks fs fuel [] {} (ready_root enough)
  unfold collectLocalDirectory
  rcases run : (collectLocalDirectoryAt fs fuel []).from {} with ⟨stop | _, walk⟩
  · have stopped := ends.failed_of run
    obtain ⟨failure, rfl⟩ := stopped.failed
    exact ⟨fun sound => absurd sound stopped.defect, fun _ => ⟨failure, rfl⟩⟩
  · obtain ⟨rfl, within, sound⟩ := ends.ok_of run
    exact ⟨fun _ => ⟨_, _, rfl, collected_tour within sound⟩, fun defect => absurd sound defect⟩

/-- What the walk from the root does: it comes to an end, with an error exactly where a defect is reached,
and else with the lists of what is reached. -/
structure LocalFs.Traversed (fs : LocalFs) (fuel : Nat) : Prop where
  ends : ∀ stop, collectLocalDirectory fs fuel = .error stop → ∃ failure, stop = .failed failure
  fails : (∃ failure, collectLocalDirectory fs fuel = .error failure) ↔ ∃ place, fs.Reached place ∧ fs.Defect place
  lists : ∀ directories files, collectLocalDirectory fs fuel = .ok (directories, files) →
    fs.Collected directories files

theorem traversed (enough : fs.places.length < fuel) : fs.Traversed fuel := by
  obtain ⟨passes, fails⟩ := collectLocalDirectory_spec enough
  by_cases sound : fs.Sound []
  · obtain ⟨directories, files, run, collected⟩ := passes sound
    constructor
    · intro stop failed
      rw [run] at failed
      cases failed
    · constructor
      · rintro ⟨stop, failed⟩
        rw [run] at failed
        cases failed
      · rintro ⟨place, reached, defect⟩
        exact absurd defect (sound place reached)
    · intro directories' files' again
      rw [run] at again
      cases again
      exact collected
  · obtain ⟨failure, run⟩ := fails sound
    constructor
    · intro stop failed
      rw [run] at failed
      cases failed
      exact ⟨failure, rfl⟩
    · unfold LocalFs.Sound at sound
      push Not at sound
      exact ⟨fun _ => sound, fun _ => ⟨_, run⟩⟩
    · intro directories files again
      rw [run] at again
      cases again

end Lists

theorem collect_local_directory_traverses (volume : Volume LocalFile) (links : Nat) (root : List Component)
    (faults : LocalFaults) (extra : Nat) :
    (localFs volume links root faults).Traversed (volume.places.length + 1 + extra) :=
  traversed (by
    show volume.places.length < _
    omega)

/-- A directory with a directory, a link beside it that shares it, and a link in it as given. -/
def linked (target : Target) : Volume LocalFile where
  entries := [([[100]], .directory), ([[100], [120]], .directory), ([[100], [121]], .link ⟨false, [.normal [120]]⟩),
    ([[100], [120], [122]], .link target), ([[101]], .directory)]
  named := by simp [isName_single]
  distinct := by simp
  nested := by
    intro entry member
    simp only [List.mem_cons, List.not_mem_nil, or_false] at member
    rcases member with rfl | rfl | rfl | rfl | rfl
    · exact ⟨[], [100], rfl, Or.inl rfl⟩
    · exact ⟨[[100]], [120], rfl, Or.inr (by simp)⟩
    · exact ⟨[[100]], [121], rfl, Or.inr (by simp)⟩
    · exact ⟨[[100], [120]], [122], rfl, Or.inr (by simp)⟩
    · exact ⟨[], [101], rfl, Or.inl rfl⟩

/-- What is shared is listed by each of its paths. -/
example : (match collectLocalDirectory (localFs (linked ⟨true, [.normal [101]]⟩) 40 [.normal [100]] {}) 7 with
    | .ok (directories, _) => directories
    | .error _ => []) = [[[120]], [[120], [122]], [[121]], [[121], [122]]] := by decide

/-- A link back to a directory that the walk is inside of stops it. -/
example : (match collectLocalDirectory (localFs (linked ⟨false, [.parent]⟩) 40 [.normal [100]] {}) 7 with
    | .error (.failed failure) => some failure.path
    | _ => none) = some [[120], [122]] := by decide

end Pbox.Cli.LocalTree
