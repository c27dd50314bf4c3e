import Pbox.Cli.RecipeHistory

/-! What a synchronisation makes of the cache it finds: of a checkout that passes the checks, whatever an earlier command
left of its markers, and of no cache at all, the current revision; any other cache it refuses and leaves as it is. -/

namespace Pbox.Cli.RecipeCache
open Pbox.Lib.Strings Pbox.Lib.FileTree Pbox.Lib.Utf8 Pbox.Lib.Transition Pbox.Lib.Checks
open Pbox.Cli.RecipeSource (validateRecipeReference)
open Pbox.Cli.RecipeTree (RecipeCatalog Failure Stop orFailed)

/-! A checkout as Git leaves it passes the checks. -/

structure Pristine (setting : Setting) (repo : Repo) (worktree : Tree) : Prop where
  origin : ∃ origin, fromUtf8 repo.origin = some origin ∧
    repositoryIdentity setting (trim origin) = repositoryIdentity setting setting.repository
  submodules : repo.submodules = []
  flags : ∀ entry ∈ repo.index, entry.assumeUnchanged = false ∧ entry.skipWorktree = false
  staged : ∀ place, (repo.staged place).map (·.object) = contents (setting.tree repo.head) place
  worktree : ∀ place, contents worktree place = contents (setting.tree repo.head) place

section Checked
variable {setting : Setting} {repo : Repo} {worktree : Tree} {reference : Text}

theorem Pristine.seen (pristine : Pristine setting repo worktree) (place : Place) :
    repo.seen worktree place = contents (setting.tree repo.head) place := by
  rw [← pristine.worktree place]
  unfold Repo.seen
  cases found : repo.staged place with
  | none => rfl
  | some entry =>
    obtain ⟨assume_, skip⟩ := pristine.flags entry (List.mem_of_find?_eq_some found)
    simp only [assume_, skip, Bool.or_self, Bool.false_eq_true, if_false]

theorem Pristine.status (pristine : Pristine setting repo worktree) : repo.status setting.tree worktree = [] := by
  apply List.filter_eq_nil_iff.mpr
  intro place _
  rw [pristine.staged, pristine.seen]
  simp

theorem Pristine.differs (pristine : Pristine setting repo worktree) : repo.differs setting.tree worktree = false := by
  apply List.any_eq_false.mpr
  intro place _
  rw [pristine.seen]
  simp

theorem Pristine.safe (pristine : Pristine setting repo worktree) :
    hasUnsafeGitIndexFlags (lsFiles repo.index) = false := by
  rw [← Bool.not_eq_true, hasUnsafe_lsFiles]
  rintro ⟨entry, member, differ⟩
  obtain ⟨assume_, skip⟩ := pristine.flags entry member
  exact differ (assume_.trans skip.symm)

theorem Pristine.integrity (pristine : Pristine setting repo worktree) :
    ensureCacheIntegrity setting (.directory (.directory repo) worktree) = .ok () := by
  obtain ⟨origin, read, same⟩ := pristine.origin
  simp only [ensureCacheIntegrity, cacheIsGitCheckout, runGit, CacheDir.repo, CacheDir.worktree, Option.elim, read, same,
    pristine.submodules, pristine.safe, pristine.status, pristine.differs, expect, List.isEmpty_nil, Bool.not_false,
    decide_true, if_true, bind, Except.bind]

/-- Markers do not matter to Git. -/
theorem Pristine.marks (pristine : Pristine setting repo worktree) (reference revision : Marker) :
    Pristine setting { repo with reference, revision } worktree where
  origin := pristine.origin
  submodules := pristine.submodules
  flags := pristine.flags
  staged := pristine.staged
  worktree := pristine.worktree

theorem Pristine.checks (pristine : Pristine setting repo worktree)
    (solid : ∀ c ∈ reference, isWhitespace c = false) (marked : repo.reference = .file (reference ++ ['\n']))
    (recorded : repo.revision = .file (repo.head.hex ++ ['\n'])) :
    discoverChecks setting reference (.directory (.directory repo) worktree) = .ok () := by
  simp only [discoverChecks, ensureCachePathIsSafe, restrictCacheDirectory, pristine.integrity, referenceMarker,
    revisionMarker, readMarker, CacheDir.marker, CacheDir.reached, Option.map_some, Option.getD_some, marked, recorded,
    trim_line solid, trim_line repo.head.solid, gitRevision, runGit, CacheDir.repo, expect, decide_true, if_true, bind,
    Except.bind]

end Checked

/-! A synchronisation nobody disturbs. -/

/-- A cache that a synchronisation accepts. -/
def Usable (setting : Setting) (cache : CacheDir) : Prop :=
  cache = .absent ∨ ensureCacheIntegrity setting cache = .ok ()

/-- The recipes of the tree can be read. -/
def Readable (setting : Setting) (reference : Text) (revision : Revision) (worktree : Tree) : Prop :=
  ∃ catalog, (setting.checkout worktree).discoverPath setting.quoted setting.parse (some revision.hex)
    ((setting.checkout worktree).volume.entries.length + 1) setting.repository reference = .ok catalog

/-- The steps are carried out, and after a clone or a checkout the working tree is that of the revision. The remote
repository and the clock may move on. -/
def Undisturbed (setting : Setting) (s : State) : Action → Prop
  | .proceeds left answers => answers = true ∧ ∀ task, s.task = some task → task.pc = .checkingOut ∨ task.pc = .cloning →
    ∀ repo worktree, left = .directory (.directory repo) worktree →
      Pristine setting repo worktree ∧ Readable setting task.reference repo.head worktree
  | .pushes _ _ | .clock _ => True
  | _ => False

/-- What has come of a synchronisation of the reference that began in the first state. -/
def Progress (setting : Setting) (first : State) (reference : Text) (s : State) : Prop :=
  match s.task with
  | none => ∃ answer catalog revision time, s.answers = answer :: first.answers ∧
    s.sightings = ⟨reference, revision, time⟩ :: first.sightings ∧ answer.result = .ok catalog ∧
    catalog.reference = reference ∧ catalog.revision = revision.hex
  | some task => task.reference = reference ∧ task.command = .sync ∧ s.answers = first.answers ∧
    match task.pc with
    | .starting => s.sightings = first.sightings ∧ Usable setting s.cache
    | .fetching | .cloning => s.sightings = first.sightings
    | .checkingOut => ∃ revision time, s.sightings = ⟨reference, revision, time⟩ :: first.sightings ∧
      s.cache.fetchHead.bind (·.revision) = some revision
    | .restricting | .markingReference => ∃ repo worktree time, s.cache = .directory (.directory repo) worktree ∧
      s.sightings = ⟨reference, repo.head, time⟩ :: first.sightings ∧ Pristine setting repo worktree ∧
      Readable setting reference repo.head worktree
    | .readingRevision _ => ∃ repo worktree time, s.cache = .directory (.directory repo) worktree ∧
      s.sightings = ⟨reference, repo.head, time⟩ :: first.sightings ∧ Pristine setting repo worktree ∧
      Readable setting reference repo.head worktree ∧ repo.reference = .file (reference ++ ['\n'])
    | .markingRevision _ revision => ∃ repo worktree time, s.cache = .directory (.directory repo) worktree ∧
      s.sightings = ⟨reference, repo.head, time⟩ :: first.sightings ∧ Pristine setting repo worktree ∧
      Readable setting reference repo.head worktree ∧ repo.reference = .file (reference ++ ['\n']) ∧ revision = repo.head.hex
    | .discovering => ∃ repo worktree time, s.cache = .directory (.directory repo) worktree ∧
      s.sightings = ⟨reference, repo.head, time⟩ :: first.sightings ∧ Pristine setting repo worktree ∧
      Readable setting reference repo.head worktree ∧ repo.reference = .file (reference ++ ['\n']) ∧
      repo.revision = .file (repo.head.hex ++ ['\n'])

section Run
variable {setting : Setting} {first s t : State} {task : Task} {reference : Text} {left cache : CacheDir} {answers : Bool}

theorem integrity_isCheckout {cache : CacheDir} (ok : ensureCacheIntegrity setting cache = .ok ()) :
    ∃ repo worktree, cache = .directory (.directory repo) worktree := by
  obtain ⟨repo, worktree, shape, _⟩ := integrity_ok ok
  exact ⟨repo, worktree, shape⟩

theorem beginSync_usable (usable : Usable setting cache) :
    beginSync setting cache = .ok .fetching ∨ beginSync setting cache = .ok .cloning := by
  rcases usable with rfl | ok
  · exact Or.inr rfl
  · obtain ⟨repo, worktree, rfl⟩ := integrity_isCheckout ok
    left
    simp [beginSync, ensureCachePathIsSafe, cacheIsGitCheckout, ok, bind, Except.bind, pure, Except.pure]

theorem usable_of_beginSync {pc : Pc} (ok : beginSync setting cache = .ok pc) : Usable setting cache := by
  obtain ⟨_, _, ok⟩ := bind_ok ok
  obtain ⟨isCheckout, _, ok⟩ := bind_ok ok
  split at ok
  next =>
    obtain ⟨_, sound, _⟩ := bind_ok ok
    exact Or.inr sound
  next =>
    split at ok
    next => exact Or.inl rfl
    all_goals cases ok

theorem progress_proceed (solid : ∀ c ∈ reference, isWhitespace c = false) (progress : Progress setting first reference s)
    (current : s.task = some task) (undisturbed : Undisturbed setting s (.proceeds left answers))
    (turn : Proceeds setting s task left answers t) : Progress setting first reference t := by
  unfold Progress at progress
  rw [current] at progress
  obtain ⟨rfl, command, unanswered, progress⟩ := progress
  obtain ⟨rfl, exact_⟩ := undisturbed
  cases turn with
  | @begins pc here begun =>
    rw [here] at progress
    obtain ⟨unseen, usable⟩ := progress
    have begun : beginSync setting s.cache = .ok pc := by
      unfold begin at begun
      rw [command] at begun
      exact begun
    rcases beginSync_usable usable with ok | ok
    all_goals
      rw [begun] at ok
      cases ok
      exact ⟨rfl, command, unanswered, unseen⟩
  | @fetches revision here remote kept fetched =>
    rw [here] at progress
    refine ⟨rfl, command, unanswered, revision, s.clock, ?_, ?_⟩
    · show _ :: s.sightings = _
      rw [progress]
    · show left.fetchHead.bind _ = _
      rw [fetched]
      rfl
  | @checksOut repo here named kept found unchanged =>
    rw [here] at progress
    obtain ⟨revision, time, seen, head⟩ := progress
    obtain ⟨worktree, rfl⟩ := repo_directory found
    obtain ⟨pristine, readable⟩ := exact_ task current (Or.inl here) repo worktree rfl
    rw [named] at head
    cases head
    exact ⟨rfl, command, unanswered, repo, worktree, time, rfl, seen, pristine, readable⟩
  | @clones repo here remote kept found fresh =>
    rw [here] at progress
    obtain ⟨worktree, rfl⟩ := repo_directory found
    obtain ⟨pristine, readable⟩ := exact_ task current (Or.inr here) repo worktree rfl
    refine ⟨rfl, command, unanswered, repo, worktree, s.clock, rfl, ?_, pristine, readable⟩
    show _ :: s.sightings = _
    rw [progress]
  | restricts here =>
    rw [here] at progress
    exact ⟨rfl, command, unanswered, progress⟩
  | @marksReference own here found =>
    rw [here] at progress
    obtain ⟨repo, worktree, time, shape, seen, pristine, readable⟩ := progress
    refine ⟨rfl, command, unanswered, { repo with reference := .file (task.reference ++ ['\n']) }, worktree, time, ?_,
      seen, pristine.marks _ _, readable, rfl⟩
    show s.cache.change _ = _
    rw [shape]
    rfl
  | @readsRevision renamed own here found =>
    rw [here] at progress
    obtain ⟨repo, worktree, time, shape, seen, pristine, readable, marked⟩ := progress
    rw [shape] at found
    cases found
    exact ⟨rfl, command, unanswered, own, worktree, time, shape, seen, pristine, readable, marked, rfl⟩
  | @marksRevision renamed revision here =>
    rw [here] at progress
    obtain ⟨repo, worktree, time, shape, seen, pristine, readable, marked, rfl⟩ := progress
    refine ⟨rfl, command, unanswered, { repo with revision := .file (repo.head.hex ++ ['\n']) }, worktree, time, ?_,
      seen, pristine.marks _ _, readable, marked, rfl⟩
    show s.cache.change _ = _
    rw [shape]
    rfl
  | discovers here =>
    rw [here] at progress
    obtain ⟨repo, worktree, time, shape, seen, pristine, readable, marked, recorded⟩ := progress
    obtain ⟨catalog, discovered⟩ := readable
    have ok : discoverUnlockedChecked setting task.reference true s.cache = .ok catalog := by
      rw [shape]
      simp only [discoverUnlockedChecked, pristine.checks solid marked recorded, orFailed, Except.mapError, bind,
        Except.bind, discoverUnlocked, CacheDir.worktree, gitRevision, runGit, CacheDir.repo, if_true, Except.toOption,
        trim_line repo.head.solid]
      exact discovered
    obtain ⟨_, named, revision⟩ := discoverPath_names discovered
    refine ⟨⟨task, s.cache, discoverUnlockedChecked setting task.reference true s.cache⟩, catalog, repo.head, time, ?_,
      seen, ok, named, revision⟩
    show _ :: s.answers = _
    rw [unanswered]
  | refuses here =>
    rcases here with ⟨here, refused⟩ | ⟨gone, here | ⟨renamed, here⟩⟩
    · rw [here] at progress
      unfold begin at refused
      rw [command] at refused
      rcases beginSync_usable progress.2 with ok | ok
      all_goals
        have both := refused.symm.trans ok
        cases both
    all_goals
      rw [here] at progress
      obtain ⟨repo, worktree, _, shape, _⟩ := progress
      rw [shape] at gone
      cases gone

theorem progress_step (solid : ∀ c ∈ reference, isWhitespace c = false) {a : Action}
    (progress : Progress setting first reference s) (undisturbed : Undisturbed setting s a)
    (taken : step setting s a = some t) : Progress setting first reference t := by
  cases a with
  | proceeds left answers =>
    obtain ⟨task, current, taken⟩ := Option.bind_eq_some_iff.mp taken
    exact progress_proceed solid progress current undisturbed (proceed_cases taken)
  | pushes reference revision =>
    cases taken
    exact progress
  | clock now =>
    cases taken
    exact progress
  | starts => exact undisturbed.elim
  | fails => exact undisturbed.elim
  | dies => exact undisturbed.elim
  | tampers => exact undisturbed.elim

/-- What has come of a synchronisation that began with a cache it does not accept. -/
def Refusal (first : State) (s : State) : Prop :=
  s.cache = first.cache ∧ s.sightings = first.sightings ∧
    match s.task with
    | none => ∃ answer failure, s.answers = answer :: first.answers ∧ answer.result = .error (.failed failure)
    | some task => task.command = .sync ∧ task.pc = .starting ∧ s.answers = first.answers

theorem refusal_step {a : Action} (unusable : ¬Usable setting first.cache) (refusal : Refusal first s)
    (undisturbed : Undisturbed setting s a) (taken : step setting s a = some t) : Refusal first t := by
  obtain ⟨same, unseen, refusal⟩ := refusal
  cases a with
  | proceeds left answers =>
    obtain ⟨task, current, taken⟩ := Option.bind_eq_some_iff.mp taken
    rw [current] at refusal
    obtain ⟨command, here, unanswered⟩ := refusal
    unfold proceed at taken
    rw [here] at taken
    dsimp only at taken
    split at taken
    next pc begun =>
      unfold begin at begun
      rw [command, same] at begun
      exact absurd (usable_of_beginSync begun) unusable
    next failure _ =>
      cases taken
      refine ⟨same, unseen, ⟨task, s.cache, _⟩, failure, ?_, rfl⟩
      show _ :: s.answers = _
      rw [unanswered]
  | pushes reference revision =>
    cases taken
    exact ⟨same, unseen, refusal⟩
  | clock now =>
    cases taken
    exact ⟨same, unseen, refusal⟩
  | starts => exact undisturbed.elim
  | fails => exact undisturbed.elim
  | dies => exact undisturbed.elim
  | tampers => exact undisturbed.elim

end Run

section Restart

/-- A cache that a synchronisation of another reference left between its markers. -/
def halfMarked : CacheDir := emptyRepo nextRevision (some ⟨some nextRevision, 3⟩) (mark NEXT) (mark mainRevision.hex)

/-- An empty checkout of the repository. -/
def isEmptyCheckout : CacheDir → Bool
  | .directory (.directory repo) worktree => worktree.entries.isEmpty && repo.index.isEmpty && repo.submodules.isEmpty &&
    repo.origin = utf8 "https://example.org/r.git\n".toList
  | _ => false

def plainly (s : State) : Action → Bool
  | .proceeds left answers => answers && s.task.all fun task =>
    isEmptyCheckout left || task.pc ≠ .checkingOut && task.pc ≠ .cloning
  | _ => false

theorem contents_emptyTree (place : Place) : contents emptyTree place = none := by
  unfold contents
  by_cases top : place = []
  · subst top
    rfl
  · have absent : emptyTree.lookup place = none := if_neg top
    rw [absent]

theorem isEmptyCheckout_pristine {repo : Repo} {worktree : Tree}
    (empty : isEmptyCheckout (.directory (.directory repo) worktree) = true) (reference : Text) :
    Pristine emptySetting repo worktree ∧ Readable emptySetting reference repo.head worktree := by
  simp only [isEmptyCheckout, Bool.and_eq_true, List.isEmpty_iff, decide_eq_true_eq] at empty
  obtain ⟨⟨⟨nothing, unstaged⟩, submodules⟩, origin⟩ := empty
  have own : worktree = emptyTree := by
    cases worktree
    cases nothing
    rfl
  subst own
  refine ⟨⟨⟨"https://example.org/r.git\n".toList, ?_, by decide +kernel⟩, submodules, ?_, ?_, fun _ => rfl⟩, ⟨_, rfl⟩⟩
  · rw [origin]
    decide +kernel
  · rw [unstaged]
    rintro _ ⟨⟩
  · intro place
    unfold Repo.staged
    rw [unstaged]
    exact (contents_emptyTree place).symm

theorem undisturbed_of_plainly (s : State) (a : Action) (plain : plainly s a = true) : Undisturbed emptySetting s a := by
  cases a
  case proceeds left answers =>
    obtain ⟨told, each⟩ := Bool.and_eq_true_iff.mp plain
    refine ⟨told, ?_⟩
    rintro task current here repo worktree rfl
    rw [current, Option.all_some, Bool.or_eq_true, Bool.and_eq_true, decide_eq_true_eq, decide_eq_true_eq] at each
    rcases each with empty | ⟨notChecking, notCloning⟩
    · exact isEmptyCheckout_pristine empty task.reference
    · exact (here.elim notChecking notCloning).elim
  all_goals cases plain

end Restart

end Pbox.Cli.RecipeCache
