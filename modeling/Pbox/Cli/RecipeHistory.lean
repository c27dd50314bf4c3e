import Pbox.Cli.CacheIntegrity

/-! Runs of commands on one recipe cache, with failures and deaths at any step, other writers between the commands, and
a remote repository that moves on. The markers of the cache are written one after the other, and which revision they
stand for is the history of the run. -/

namespace Pbox.Cli.RecipeCache
open Pbox.Lib.Strings Pbox.Lib.FileTree Pbox.Lib.Transition
open Pbox.Cli.RecipeSource (validateRecipeReference validateRecipeReference_iff)
open Pbox.Cli.RecipeTree (RecipeCatalog RecipeManifestEntry Failure Stop)

/-! Changes of the cache. -/

section Changes
variable {before after cache : CacheDir} {repo : Repo} {update : Repo → Repo} {text : Text}

theorem keeps_reference (kept : keepsMarkers before after = true) (written : after.marker Repo.reference = .file text) :
    before.marker Repo.reference = .file text := by
  unfold keepsMarkers at kept
  simpa [written, eq_comm] using (Bool.and_eq_true_iff.mp kept).1

theorem keeps_revision (kept : keepsMarkers before after = true) (written : after.marker Repo.revision = .file text) :
    before.marker Repo.revision = .file text := by
  unfold keepsMarkers at kept
  simpa [written, eq_comm] using (Bool.and_eq_true_iff.mp kept).2

theorem repo_change (found : cache.repo = some repo) : (cache.change update).repo = some (update repo) := by
  obtain ⟨worktree, rfl⟩ := repo_directory found
  rfl

theorem reached_repo (found : cache.repo = some repo) : cache.reached = some repo := by
  obtain ⟨worktree, rfl⟩ := repo_directory found
  exact found

theorem marker_repo (found : cache.repo = some repo) (select : Repo → Marker) : cache.marker select = select repo := by
  unfold CacheDir.marker
  rw [reached_repo found]
  rfl

theorem fetchHead_repo (found : cache.repo = some repo) : cache.fetchHead = repo.fetchHead := by
  unfold CacheDir.fetchHead
  rw [reached_repo found]
  rfl

end Changes

/-! What a step of a command can do. -/

section Inversion
variable {setting : Setting}

/-- A step that is carried out, with what it requires. -/
inductive Proceeds (setting : Setting) (s : State) (task : Task) (left : CacheDir) (answers : Bool) :
    State → Prop
  | begins {pc : Pc} (here : task.pc = .starting) (begun : begin setting task s.clock s.cache = .ok pc) :
    Proceeds setting s task left answers (s.goto task pc)
  | fetches {revision : Revision} (here : task.pc = .fetching)
    (current : s.remote task.reference = some revision) (kept : keepsMarkers s.cache left = true)
    (fetched : left.fetchHead = some ⟨some revision, s.clock⟩) :
    Proceeds setting s task left answers (({ s with cache := left }.sees task.reference revision).goto task .checkingOut)
  | checksOut {repo : Repo} (here : task.pc = .checkingOut)
    (named : s.cache.fetchHead.bind (·.revision) = some repo.head) (kept : keepsMarkers s.cache left = true)
    (found : left.repo = some repo) (same : left.fetchHead = s.cache.fetchHead) :
    Proceeds setting s task left answers ({ s with cache := left }.goto task .restricting)
  | clones {repo : Repo} (here : task.pc = .cloning)
    (current : s.remote task.reference = some repo.head) (kept : keepsMarkers s.cache left = true)
    (found : left.repo = some repo) (fresh : left.fetchHead = none) :
    Proceeds setting s task left answers (({ s with cache := left }.sees task.reference repo.head).goto task .restricting)
  | restricts (here : task.pc = .restricting) : Proceeds setting s task left answers (s.goto task .markingReference)
  | marksReference {repo : Repo} (here : task.pc = .markingReference) (found : s.cache.repo = some repo) :
    Proceeds setting s task left answers ({ s with cache := s.cache.change fun repo =>
        { repo with reference := .file (task.reference ++ ['\n']) } }.goto task
      (.readingRevision (repo.renamedBy task.reference)))
  | readsRevision {renamed : Bool} {repo : Repo} (here : task.pc = .readingRevision renamed)
    (found : s.cache.repo = some repo) :
    Proceeds setting s task left answers (s.goto task (.markingRevision renamed repo.head.hex))
  | marksRevision {renamed : Bool} {revision : Text} (here : task.pc = .markingRevision renamed revision) :
    Proceeds setting s task left answers ({ s with cache := s.cache.change fun repo =>
        { repo with revision := .file (revision ++ ['\n']) } }.goto task .discovering)
  | discovers (here : task.pc = .discovering) :
    Proceeds setting s task left answers (s.answer task (discoverUnlockedChecked setting task.reference answers s.cache))
  | refuses {failure : Failure} (here : task.pc = .starting ∧ begin setting task s.clock s.cache = .error failure ∨
      s.cache.repo = none ∧ (task.pc = .restricting ∨ ∃ renamed, task.pc = .readingRevision renamed)) :
    Proceeds setting s task left answers (s.answer task (.error (.failed failure)))

theorem gitRevision_error {cache : CacheDir} {failure : Failure} (refused : gitRevision cache = .error failure) :
    cache.repo = none := by
  unfold gitRevision runGit at refused
  cases found : cache.repo with
  | none => rfl
  | some repo =>
    rw [found] at refused
    cases refused

theorem restrict_error {cache : CacheDir} {failure : Failure}
    (refused : restrictCacheDirectory setting cache = .error failure) : cache.repo = none := by
  unfold restrictCacheDirectory at refused
  split at refused
  next => rfl
  next => rfl
  next => cases refused

theorem proceed_cases {s t : State} {task : Task} {left : CacheDir} {answers : Bool}
    (taken : proceed setting s task left answers = some t) : Proceeds setting s task left answers t := by
  unfold proceed at taken
  split at taken
  next here =>
    split at taken
    next pc begun =>
      cases taken
      exact .begins here begun
    next failure refused =>
      cases taken
      exact .refuses (Or.inl ⟨here, refused⟩)
  next here =>
    split at taken
    next => cases taken
    next revision current =>
      split at taken
      next meets =>
        cases taken
        exact .fetches here current meets.1 meets.2.2
      next => cases taken
  next here =>
    split at taken
    next => cases taken
    next revision named =>
      split at taken
      next meets =>
        cases taken
        obtain ⟨repo, found, rfl⟩ := Option.map_eq_some_iff.mp meets.2.1
        exact .checksOut here named meets.1 found meets.2.2
      next => cases taken
  next here =>
    split at taken
    next => cases taken
    next revision current =>
      split at taken
      next meets =>
        cases taken
        obtain ⟨repo, found, rfl⟩ := Option.map_eq_some_iff.mp meets.2.1
        exact .clones here current meets.1 found meets.2.2
      next => cases taken
  next here =>
    split at taken
    next =>
      cases taken
      exact .restricts here
    next failure refused =>
      cases taken
      exact .refuses (Or.inr ⟨restrict_error refused, Or.inl here⟩)
  next here =>
    split at taken
    next => cases taken
    next repo found =>
      cases taken
      exact .marksReference here found
  next renamed here =>
    split at taken
    next revision told =>
      cases taken
      obtain ⟨repo, found, rfl⟩ := gitRevision_ok told
      exact .readsRevision here found
    next failure refused =>
      cases taken
      exact .refuses (Or.inr ⟨gitRevision_error refused, Or.inr ⟨renamed, here⟩⟩)
  next renamed revision here =>
    cases taken
    exact .marksRevision here
  next here =>
    cases taken
    exact .discovers here

/-- What is left after a cut: for a command of Git anything with the same markers, otherwise what was there. -/
theorem cut_cases {s : State} {task : Task} {left cache : CacheDir} (cut_ : cut s task left = some cache) :
    cache = s.cache ∨ task.pc.runsGit = true ∧ keepsMarkers s.cache cache = true := by
  unfold cut at cut_
  split at cut_
  next git =>
    split at cut_
    next kept =>
      cases cut_
      exact Or.inr ⟨git, kept⟩
    next => cases cut_
  next =>
    cases cut_
    exact Or.inl rfl

theorem begin_ok {task : Task} {now : Nat} {cache : CacheDir} {pc : Pc} (begun : begin setting task now cache = .ok pc) :
    pc = .fetching ∨ pc = .cloning ∨ pc = .discovering ∧ (task.command = .discover ∨
      ∃ ttl, task.command = .syncIfStale ttl ∧ isFresh setting task.reference ttl now cache = .ok true) := by
  have sync {pc : Pc} (ok : beginSync setting cache = .ok pc) : pc = .fetching ∨ pc = .cloning := by
    obtain ⟨_, _, ok⟩ := Pbox.Lib.Checks.bind_ok ok
    obtain ⟨isCheckout, _, ok⟩ := Pbox.Lib.Checks.bind_ok ok
    split at ok
    next =>
      obtain ⟨_, _, ok⟩ := Pbox.Lib.Checks.bind_ok ok
      cases ok
      exact Or.inl rfl
    next =>
      split at ok
      all_goals cases ok
      exact Or.inr rfl
  unfold begin at begun
  split at begun
  next => exact (sync begun).imp_right Or.inl
  next command =>
    cases begun
    exact Or.inr (Or.inr ⟨rfl, Or.inl command⟩)
  next ttl command =>
    obtain ⟨_, _, begun⟩ := Pbox.Lib.Checks.bind_ok begun
    obtain ⟨fresh, judged, begun⟩ := Pbox.Lib.Checks.bind_ok begun
    split at begun
    next holds =>
      cases begun
      subst holds
      exact Or.inr (Or.inr ⟨rfl, Or.inr ⟨ttl, command, judged⟩⟩)
    next => exact (sync begun).imp_right Or.inl

end Inversion

/-! What the markers stand for. -/

/-- At some time the remote repository had the revision at the reference. -/
def Sighted (seen : List Sighting) (reference : Text) (revision : Revision) : Prop :=
  ∃ time, ⟨reference, revision, time⟩ ∈ seen

def Named (seen : List Sighting) (cache : CacheDir) : Prop :=
  ∀ reference revision, cache.marker Repo.reference = .file reference → cache.marker Repo.revision = .file revision →
    ∃ own, Sighted seen (trim reference) own ∧ own.hex = trim revision

/-- What a command knows of the cache it works on. -/
def Working (seen : List Sighting) (cache : CacheDir) (task : Task) : Prop :=
  match task.pc with
  | .starting | .fetching | .cloning | .discovering => True
  | .checkingOut => ∀ revision, cache.fetchHead.bind (·.revision) = some revision → Sighted seen task.reference revision
  | .restricting | .markingReference => ∃ repo, cache.repo = some repo ∧ Sighted seen task.reference repo.head
  | .readingRevision _ => ∃ repo, cache.repo = some repo ∧ Sighted seen task.reference repo.head ∧
    repo.reference = .file (task.reference ++ ['\n'])
  | .markingRevision _ revision => ∃ repo own, cache.repo = some repo ∧ Sighted seen task.reference own ∧
    repo.reference = .file (task.reference ++ ['\n']) ∧ revision = own.hex

/-- The catalog is of the tree the remote repository had at the reference that was asked for. -/
def Served (setting : Setting) (seen : List Sighting) (answer : Answer) (catalog : RecipeCatalog) : Prop :=
  ∃ repo worktree, Checked setting answer.task.reference answer.cache repo worktree ∧
    Catalogued setting answer.task.reference repo worktree catalog ∧ Sighted seen answer.task.reference repo.head

structure Sound (setting : Setting) (s : State) : Prop where
  solid : ∀ task, s.task = some task → ∀ c ∈ task.reference, isWhitespace c = false
  named : (∀ task, s.task = some task → task.pc.renamed = false) → Named s.sightings s.cache
  working : ∀ task, s.task = some task → Working s.sightings s.cache task
  answers : ∀ answer ∈ s.answers, ∀ catalog, answer.result = .ok catalog → Served setting s.sightings answer catalog

/-- No command ends between its two markers when the first of them has renamed the cache. -/
def Uncut (s : State) : Action → Prop
  | .fails _ _ | .dies _ => ∀ task, s.task = some task → task.pc.renamed = false
  | _ => True

section Invariant
variable {setting : Setting} {s t : State} {task : Task} {seen more : List Sighting} {cache left : CacheDir}

theorem Sighted.mono (sub : seen ⊆ more) {reference : Text} {revision : Revision}
    (sighted : Sighted seen reference revision) : Sighted more reference revision := by
  obtain ⟨time, member⟩ := sighted
  exact ⟨time, sub member⟩

theorem Named.mono (sub : seen ⊆ more) (named : Named seen cache) : Named more cache := by
  intro reference revision marked recorded
  obtain ⟨own, sighted, same⟩ := named reference revision marked recorded
  exact ⟨own, sighted.mono sub, same⟩

theorem Named.keeps (kept : keepsMarkers cache left = true) (named : Named seen cache) : Named seen left :=
  fun reference revision marked recorded =>
    named reference revision (keeps_reference kept marked) (keeps_revision kept recorded)

theorem Served.mono (sub : seen ⊆ more) {answer : Answer} {catalog : RecipeCatalog}
    (served : Served setting seen answer catalog) : Served setting more answer catalog := by
  obtain ⟨repo, worktree, checked, catalogued, sighted⟩ := served
  exact ⟨repo, worktree, checked, catalogued, sighted.mono sub⟩

/-- A checked cache whose markers stand for something is at a revision the reference had. -/
theorem Named.checked {reference : Text} {repo : Repo} {worktree : Tree} (named : Named seen cache)
    (checked : Checked setting reference cache repo worktree) : Sighted seen reference repo.head := by
  obtain ⟨marked, reference_, rfl⟩ := checked.reference
  obtain ⟨recorded, revision_, hex⟩ := checked.revision
  have found : cache.repo = some repo := by rw [checked.shape]; rfl
  obtain ⟨own, sighted, same⟩ := named marked recorded ((marker_repo found _).trans reference_)
    ((marker_repo found _).trans revision_)
  have head : own = repo.head := Revision.ext (same.trans hex)
  exact head ▸ sighted

theorem Sound.goto (sound : Sound setting s) (current : s.task = some task) {pc : Pc} (sub : s.sightings ⊆ more)
    (named : pc.renamed = false → Named more cache) (working : Working more cache { task with pc }) :
    Sound setting ({ s with cache, sightings := more }.goto task pc) where
  solid := by
    rintro _ ⟨⟩
    exact sound.solid task current
  named := fun plain => named (plain _ rfl)
  working := by
    rintro _ ⟨⟩
    exact working
  answers := fun answer member catalog ok => (sound.answers answer member catalog ok).mono sub

theorem Sound.answer (sound : Sound setting s) (named : Named s.sightings cache) {result : Except Stop RecipeCatalog}
    (served : ∀ catalog, result = .ok catalog → Served setting s.sightings ⟨task, cache, result⟩ catalog) :
    Sound setting ({ s with cache }.answer task result) where
  solid := by
    rintro _ ⟨⟩
  named := fun _ => named
  working := by
    rintro _ ⟨⟩
  answers := by
    intro answer member catalog ok
    rcases List.mem_cons.mp member with rfl | earlier
    · exact served catalog ok
    · exact sound.answers answer earlier catalog ok

theorem Sound.plain (sound : Sound setting s) (current : s.task = some task) (plain : task.pc.renamed = false) :
    Named s.sightings s.cache := by
  apply sound.named
  intro other same
  rw [current] at same
  cases same
  exact plain

theorem sound_proceed {answers : Bool} (sound : Sound setting s) (current : s.task = some task)
    (turn : Proceeds setting s task left answers t) :
    Sound setting t := by
  have same : s.sightings ⊆ s.sightings := List.Subset.refl _
  have working : Working s.sightings s.cache task := sound.working task current
  unfold Working at working
  cases turn with
  | @begins pc here begun =>
    apply sound.goto current same
    · exact fun _ => sound.plain current (by rw [here]; rfl)
    · rcases begin_ok begun with rfl | rfl | ⟨rfl, _⟩
      all_goals trivial
  | @fetches revision here remote kept fetched =>
    have sub : s.sightings ⊆ ⟨task.reference, revision, s.clock⟩ :: s.sightings := List.subset_cons_self _ _
    apply sound.goto current sub
    · exact fun _ => ((sound.plain current (by rw [here]; rfl)).keeps kept).mono sub
    · intro named same
      rw [fetched] at same
      cases same
      exact ⟨s.clock, List.mem_cons_self⟩
  | @checksOut repo here named kept found _ =>
    rw [here] at working
    apply sound.goto current same
    · exact fun _ => (sound.plain current (by rw [here]; rfl)).keeps kept
    · exact ⟨repo, found, working _ named⟩
  | @clones repo here remote kept found fresh =>
    have sub : s.sightings ⊆ ⟨task.reference, repo.head, s.clock⟩ :: s.sightings := List.subset_cons_self _ _
    apply sound.goto current sub
    · exact fun _ => ((sound.plain current (by rw [here]; rfl)).keeps kept).mono sub
    · exact ⟨repo, found, s.clock, List.mem_cons_self⟩
  | restricts here =>
    rw [here] at working
    apply sound.goto current same
    · exact fun _ => sound.plain current (by rw [here]; rfl)
    · exact working
  | @marksReference repo here found =>
    rw [here] at working
    obtain ⟨own, own_, sighted⟩ := working
    rw [found] at own_
    cases own_
    have changed : (s.cache.change fun repo => { repo with reference := .file (task.reference ++ ['\n']) }).repo =
        some { repo with reference := .file (task.reference ++ ['\n']) } := repo_change found
    apply sound.goto current same
    · -- What was there named the same reference, or had no second marker that could be misread.
      intro plain reference revision marked recorded
      have named := sound.plain current (by rw [here]; rfl)
      rw [marker_repo changed] at marked recorded
      cases marked
      have second : repo.revision = .file revision := recorded
      have first : repo.reference = .file (task.reference ++ ['\n']) := by
        simpa [Pc.renamed, Repo.renamedBy, second] using plain
      exact named _ _ ((marker_repo found _).trans first) ((marker_repo found _).trans second)
    · exact ⟨_, changed, sighted, rfl⟩
  | @readsRevision renamed repo here found =>
    rw [here] at working
    obtain ⟨own, own_, sighted, marked⟩ := working
    rw [found] at own_
    cases own_
    apply sound.goto current same
    · exact fun plain => sound.plain current (by rw [here]; exact plain)
    · exact ⟨repo, repo.head, found, sighted, marked, rfl⟩
  | @marksRevision renamed revision here =>
    rw [here] at working
    obtain ⟨repo, own, found, sighted, marked, rfl⟩ := working
    have changed : (s.cache.change fun repo => { repo with revision := .file (own.hex ++ ['\n']) }).repo =
        some { repo with revision := .file (own.hex ++ ['\n']) } := repo_change found
    apply sound.goto current same
    · intro _ reference revision first second
      rw [marker_repo changed] at first second
      cases second
      have named : reference = task.reference ++ ['\n'] := by
        have shown : repo.reference = .file reference := first
        rw [marked] at shown
        cases shown
        rfl
      rw [named, trim_line (sound.solid task current), trim_line own.solid]
      exact ⟨own, sighted, rfl⟩
    · trivial
  | discovers here =>
    have named := sound.plain current (by rw [here]; rfl)
    apply sound.answer named
    intro catalog ok
    obtain ⟨repo, worktree, checked, catalogued⟩ := discoverUnlockedChecked_ok ok
    exact ⟨repo, worktree, checked, catalogued, named.checked checked⟩
  | refuses here =>
    refine sound.answer ?_ (fun _ ok => by cases ok)
    rcases here with ⟨here, _⟩ | ⟨gone, here | ⟨renamed, here⟩⟩
    · exact sound.plain current (by rw [here]; rfl)
    · exact sound.plain current (by rw [here]; rfl)
    · rw [here] at working
      obtain ⟨repo, found, _⟩ := working
      rw [gone] at found
      cases found

theorem Named.cut (named : Named s.sightings s.cache) (cut_ : cut s task left = some cache) : Named s.sightings cache := by
  rcases cut_cases cut_ with rfl | ⟨_, kept⟩
  · exact named
  · exact named.keeps kept

theorem sound_step {a : Action} (sound : Sound setting s) (uncut : Uncut s a) (taken : step setting s a = some t) :
    Sound setting t := by
  cases a with
  | starts command reference =>
    unfold step at taken
    dsimp only at taken
    split at taken
    next meets =>
      cases taken
      have valid : validateRecipeReference reference = .ok () := by
        cases outcome : validateRecipeReference reference with
        | ok => rfl
        | error => simp [outcome, Except.isOk, Except.toBool] at meets
      refine ⟨?_, fun _ => ?_, ?_, sound.answers⟩
      · rintro _ ⟨⟩ c member
        exact ((validateRecipeReference_iff.mp valid).characters c member).2.1
      · apply sound.named
        intro task current
        rw [Option.isNone_iff_eq_none.mp meets.1] at current
        cases current
      · rintro _ ⟨⟩
        trivial
    next => cases taken
  | proceeds left answers =>
    obtain ⟨task, current, taken⟩ := Option.bind_eq_some_iff.mp taken
    exact sound_proceed sound current (proceed_cases taken)
  | fails failure left =>
    obtain ⟨task, current, taken⟩ := Option.bind_eq_some_iff.mp taken
    obtain ⟨cache, cut_, rfl⟩ := Option.map_eq_some_iff.mp taken
    exact sound.answer ((sound.named uncut).cut cut_) (fun _ ok => by cases ok)
  | dies left =>
    obtain ⟨task, current, taken⟩ := Option.bind_eq_some_iff.mp taken
    obtain ⟨cache, cut_, rfl⟩ := Option.map_eq_some_iff.mp taken
    refine ⟨?_, fun _ => (sound.named uncut).cut cut_, ?_, sound.answers⟩
    · rintro _ ⟨⟩
    · rintro _ ⟨⟩
  | pushes reference revision =>
    cases taken
    exact ⟨sound.solid, sound.named, sound.working, sound.answers⟩
  | tampers left =>
    unfold step at taken
    dsimp only at taken
    split at taken
    next meets =>
      cases taken
      have idle : s.task = none := Option.isNone_iff_eq_none.mp meets.1
      have named : Named s.sightings s.cache := by
        apply sound.named
        intro task current
        rw [idle] at current
        cases current
      refine ⟨sound.solid, fun _ => named.keeps meets.2, ?_, sound.answers⟩
      intro task current
      rw [show s.task = some task from current] at idle
      cases idle
    next => cases taken
  | clock now =>
    cases taken
    exact ⟨sound.solid, sound.named, sound.working, sound.answers⟩

theorem sound_init (initial : (system setting).init s) : Sound setting s := by
  obtain ⟨unmarked, _, idle, _, unanswered⟩ := initial
  refine ⟨?_, ?_, ?_, ?_⟩
  · rw [idle]
    rintro _ ⟨⟩
  · intro _ reference revision marked
    rw [unmarked] at marked
    cases marked
  · rw [idle]
    rintro _ ⟨⟩
  · rw [unanswered]
    rintro _ ⟨⟩

end Invariant

/-! A repository whose two references were at one revision each, all of them empty. -/

section Cuts

def emptyTree : Tree := ⟨[], by simp, by simp, by simp⟩

def revisionOf (hex : Text) (solid : (hex.all fun c => !isWhitespace c) = true) : Revision :=
  ⟨hex, fun c member => by simpa using List.all_eq_true.mp solid c member⟩

def mainRevision : Revision := revisionOf "a1".toList (by decide)
def nextRevision : Revision := revisionOf "b2".toList (by decide)

theorem nothing_ascends : (([] : List (Text × RecipeManifestEntry)).map Prod.fst).Pairwise
    fun left right => textLe left right = true ∧ left ≠ right :=
  List.Pairwise.nil

def emptySetting : Setting where
  repository := "https://example.org/r.git".toList
  shown := "/cache".toList
  canonicalize := fun _ => none
  tree := fun _ => emptyTree
  checkout := fun tree => ⟨tree, 40, [], "/cache".toList⟩
  quoted := id
  parse := fun _ => .ok ⟨[], nothing_ascends⟩

def emptyRepo (head : Revision) (fetchHead : Option FetchHead) (reference revision : Marker) : CacheDir :=
  .directory (.directory ⟨utf8 "https://example.org/r.git\n".toList, head, fetchHead, [], [], reference, revision⟩) emptyTree

def MAIN : Text := "main".toList
def NEXT : Text := "next".toList

def mark (text : Text) : Marker := .file (text ++ ['\n'])

def remoteOf (reference : Text) : Option Revision :=
  if reference = MAIN then some mainRevision else if reference = NEXT then some nextRevision else none

def freshState : State := ⟨.absent, remoteOf, 0, none, [], []⟩

/-- A first synchronisation. -/
def cloning : List Action :=
  [.starts .sync MAIN, .proceeds .absent true, .proceeds (emptyRepo mainRevision none .absent .absent) true,
    .proceeds .absent true, .proceeds .absent true, .proceeds .absent true, .proceeds .absent true,
    .proceeds .absent true]

def proceedsOnly (_ : State) : Action → Bool
  | .starts _ _ | .proceeds _ _ => true
  | _ => false

theorem uncut_of_proceedsOnly (s : State) (a : Action) (only : proceedsOnly s a = true) : Uncut s a := by
  cases a
  case fails => cases only
  case dies => cases only
  all_goals trivial

/-- Two commands cut off: one between its markers, one after its checkout. -/
def mislabelling : List Action :=
  cloning ++ [.starts .sync NEXT, .proceeds .absent true,
    .proceeds (emptyRepo mainRevision (some ⟨some nextRevision, 0⟩) (mark MAIN) (mark mainRevision.hex)) true,
    .proceeds (emptyRepo nextRevision (some ⟨some nextRevision, 0⟩) (mark MAIN) (mark mainRevision.hex)) true,
    .proceeds .absent true, .proceeds .absent true, .dies .absent,
    .starts .sync MAIN, .proceeds .absent true,
    .proceeds (emptyRepo nextRevision (some ⟨some mainRevision, 0⟩) (mark NEXT) (mark mainRevision.hex)) true,
    .proceeds (emptyRepo mainRevision (some ⟨some mainRevision, 0⟩) (mark NEXT) (mark mainRevision.hex)) true,
    .dies .absent, .starts .discover NEXT, .proceeds .absent true, .proceeds .absent true]

-- Without the condition on cuts a catalog of `next` is handed out at the revision of `main`.
example : ((system emptySetting).run freshState mislabelling).map
    (fun s : State => ((s.answers.map (·.result)).head?, s.sightings.any fun sighting =>
      sighting.reference = NEXT && sighting.revision = mainRevision)) =
    some (some (.ok ⟨emptySetting.repository, NEXT, mainRevision.hex, []⟩), false) := by decide +kernel

end Cuts

end Pbox.Cli.RecipeCache
