import Pbox.Cli.RecipeCache
import Pbox.Cli.RecipeCatalog

/-! What the checks of a recipe cache establish: that its working tree is the tree of its revision, save where two flags
of the index hide a file together, and that its markers name the reference asked for and the revision it is at. -/

namespace Pbox.Cli.RecipeCache
open Pbox.Lib.Strings Pbox.Lib.FileTree Pbox.Lib.Utf8 Pbox.Lib.Checks
open Pbox.Cli.RecipeTree (RecipeCatalog RecipeManifest Checkout Failure Stop orFailed MANIFEST_NAMES)

/-! The flags of the index. -/

theorem tag_plain (entry : IndexEntry) : entry.tag ≠ 0x0a := by
  unfold IndexEntry.tag
  cases entry.assumeUnchanged <;> cases entry.skipWorktree <;> decide

/-- Two letters are refused; the letter of both flags together is neither. -/
theorem tag_unsafe (entry : IndexEntry) :
    (entry.tag = 0x68 ∨ entry.tag = 0x53) ↔ entry.assumeUnchanged ≠ entry.skipWorktree := by
  unfold IndexEntry.tag
  cases entry.assumeUnchanged <;> cases entry.skipWorktree <;> decide

theorem hasUnsafe_lsFiles (index : List IndexEntry) : hasUnsafeGitIndexFlags (lsFiles index) = true ↔
    ∃ entry ∈ index, entry.assumeUnchanged ≠ entry.skipWorktree := by
  induction index with
  | nil => simp [lsFiles, hasUnsafeGitIndexFlags]
  | cons entry rest ih =>
    have line : 0x0a ∉ entry.tag :: 0x20 :: entry.shown := by
      intro member
      rcases List.mem_cons.mp member with same | later
      · exact tag_plain entry same.symm
      · rcases List.mem_cons.mp later with same | within
        · exact absurd same (by decide)
        · exact entry.oneLine within
    have shape : lsFiles (entry :: rest) = (entry.tag :: 0x20 :: entry.shown) ++ 0x0a :: lsFiles rest := by
      simp [lsFiles]
    have parts : (lsFiles (entry :: rest)).splitOn 0x0a =
        (entry.tag :: 0x20 :: entry.shown) :: (lsFiles rest).splitOn 0x0a := by
      rw [shape]
      exact List.splitOn_append_cons_self_of_not_mem line _
    unfold hasUnsafeGitIndexFlags at ih ⊢
    rw [parts, List.any_cons, Bool.or_eq_true, ih]
    simp only [List.head?_cons, Option.some.injEq, Bool.or_eq_true, decide_eq_true_eq, tag_unsafe, List.mem_cons,
      exists_eq_or_imp]

/-! A clean working tree. -/

section Clean
variable {tree : Revision → Tree} {repo : Repo} {worktree : Tree} {place : Place}

theorem contents_absent (absent : place ∉ worktree.places) : contents worktree place = none := by
  have missing : worktree.lookup place = none := by
    cases found : worktree.lookup place with
    | none => rfl
    | some object => exact absurd (mem_places found) absent
  unfold contents
  rw [missing]

theorem staged_absent (absent : place ∉ repo.index.map (·.place)) : repo.staged place = none := by
  apply List.find?_eq_none.mpr
  intro entry member same
  exact absent (List.mem_map.mpr ⟨entry, member, of_decide_eq_true same⟩)

/-- What a status without lines says, at the places it looks at and elsewhere. -/
theorem seen_of_status (clean : repo.status tree worktree = []) (place : Place) :
    repo.seen worktree place = contents (tree repo.head) place := by
  by_cases looked : place ∈ repo.places tree worktree
  · have same := List.filter_eq_nil_iff.mp clean place looked
    simp only [Bool.not_eq_true', Bool.not_eq_false, Bool.and_eq_true, decide_eq_true_eq] at same
    rw [same.1, same.2]
  · unfold Repo.places at looked
    rw [List.mem_append, List.mem_append, not_or, not_or] at looked
    obtain ⟨committed, staged, working⟩ := looked
    unfold Repo.seen
    rw [staged_absent staged, contents_absent committed]
    exact contents_absent working

/-- A file that both flags hide at once. -/
def Repo.HiddenAt (repo : Repo) (place : Place) : Prop :=
  ∃ entry ∈ repo.index, entry.place = place ∧ entry.assumeUnchanged = true ∧ entry.skipWorktree = true

theorem contents_of_clean (clean : repo.status tree worktree = [])
    (flags : hasUnsafeGitIndexFlags (lsFiles repo.index) = false) (place : Place) (seen : ¬repo.HiddenAt place) :
    contents worktree place = contents (tree repo.head) place := by
  rw [← seen_of_status clean place]
  unfold Repo.seen
  cases found : repo.staged place with
  | none => rfl
  | some entry =>
    have member : entry ∈ repo.index := List.mem_of_find?_eq_some found
    have here : entry.place = place := by simpa using List.find?_some found
    have alike : entry.assumeUnchanged = entry.skipWorktree := by
      by_contra differ
      rw [(hasUnsafe_lsFiles repo.index).mpr ⟨entry, member, differ⟩] at flags
      cases flags
    have plain : entry.assumeUnchanged = false := by
      by_contra flagged
      rw [Bool.not_eq_false] at flagged
      exact seen ⟨entry, member, here, flagged, alike ▸ flagged⟩
    simp only [plain, ← alike, Bool.or_self, Bool.false_eq_true, if_false]

end Clean

/-! What the checks establish. -/

section Checked
variable {setting : Setting} {cache : CacheDir} {reference : Text}

theorem expect_ok {condition : Bool} {message : Text} : expect condition message = .ok () ↔ condition = true := by
  unfold expect
  split
  next holds => simp [holds]
  next fails => simp [fails, fail]

theorem runGit_ok {Answer : Type} {ask : Repo → Answer} {answer : Answer} (ok : runGit cache ask = .ok answer) :
    ∃ repo, cache.repo = some repo ∧ ask repo = answer := by
  unfold runGit at ok
  cases found : cache.repo with
  | none =>
    rw [found] at ok
    cases ok
  | some repo =>
    rw [found] at ok
    cases ok
    exact ⟨repo, rfl, rfl⟩

theorem repo_directory {repo : Repo} (found : cache.repo = some repo) :
    ∃ worktree, cache = .directory (.directory repo) worktree := by
  unfold CacheDir.repo at found
  split at found
  next own worktree =>
    cases found
    exact ⟨worktree, rfl⟩
  next => cases found

/-- The cache is a checkout of the repository, and nothing in it but hidden files differs from its revision. -/
structure Intact (setting : Setting) (repo : Repo) (worktree : Tree) : Prop where
  origin : ∃ origin, fromUtf8 repo.origin = some origin ∧
    repositoryIdentity setting (trim origin) = repositoryIdentity setting setting.repository
  submodules : repo.submodules = []
  exact : ∀ place, ¬repo.HiddenAt place → contents worktree place = contents (setting.tree repo.head) place

theorem integrity_ok (ok : ensureCacheIntegrity setting cache = .ok ()) :
    ∃ repo worktree, cache = .directory (.directory repo) worktree ∧ Intact setting repo worktree := by
  obtain ⟨isCheckout, _, ok⟩ := bind_ok ok
  obtain ⟨_, _, ok⟩ := bind_ok ok
  obtain ⟨origin, asked, ok⟩ := bind_ok ok
  obtain ⟨repo, found, rfl⟩ := runGit_ok asked
  obtain ⟨worktree, rfl⟩ := repo_directory found
  refine ⟨repo, worktree, rfl, ?_⟩
  cases read : fromUtf8 repo.origin with
  | none =>
    rw [read] at ok
    cases ok
  | some origin =>
    rw [read] at ok
    obtain ⟨_, same, ok⟩ := bind_ok ok
    obtain ⟨submodules, asked, ok⟩ := bind_ok ok
    obtain ⟨own, found, rfl⟩ := runGit_ok asked
    obtain rfl : repo = own := Option.some.inj found
    obtain ⟨_, none_, ok⟩ := bind_ok ok
    obtain ⟨flags, asked, ok⟩ := bind_ok ok
    obtain ⟨own, found, rfl⟩ := runGit_ok asked
    obtain rfl : repo = own := Option.some.inj found
    obtain ⟨_, safe, ok⟩ := bind_ok ok
    obtain ⟨status, asked, ok⟩ := bind_ok ok
    obtain ⟨own, found, rfl⟩ := runGit_ok asked
    obtain rfl : repo = own := Option.some.inj found
    obtain ⟨_, _, ok⟩ := bind_ok ok
    obtain ⟨_, _, clean⟩ := bind_ok ok
    have flags : hasUnsafeGitIndexFlags (lsFiles repo.index) = false := by simpa using expect_ok.mp safe
    have status : repo.status setting.tree worktree = [] := List.isEmpty_iff.mp (expect_ok.mp clean)
    exact { origin := ⟨origin, read, of_decide_eq_true (expect_ok.mp same)⟩
            submodules := List.isEmpty_iff.mp (expect_ok.mp none_)
            exact := contents_of_clean status flags }

theorem readMarker_some {purpose : Text} {select : Repo → Marker} {text : Text}
    (ok : readMarker setting purpose select cache = .ok (some text)) :
    ∃ written, cache.marker select = .file written ∧ trim written = text := by
  unfold readMarker at ok
  dsimp only at ok
  split at ok
  all_goals try cases ok
  split at ok
  all_goals try cases ok
  next written shown => exact ⟨written, shown, rfl⟩

theorem gitRevision_ok {revision : Text} (ok : gitRevision cache = .ok revision) :
    ∃ repo, cache.repo = some repo ∧ repo.head.hex = revision := by
  obtain ⟨repo, found, same⟩ := runGit_ok ok
  refine ⟨repo, found, ?_⟩
  rw [← same, trim_line repo.head.solid]

/-- What has been checked when a catalog is read. -/
structure Checked (setting : Setting) (reference : Text) (cache : CacheDir) (repo : Repo) (worktree : Tree) : Prop where
  shape : cache = .directory (.directory repo) worktree
  intact : Intact setting repo worktree
  reference : ∃ written, repo.reference = .file written ∧ trim written = reference
  revision : ∃ written, repo.revision = .file written ∧ trim written = repo.head.hex

theorem discoverChecks_ok (ok : discoverChecks setting reference cache = .ok ()) :
    ∃ repo worktree, Checked setting reference cache repo worktree := by
  obtain ⟨_, _, ok⟩ := bind_ok ok
  obtain ⟨_, _, ok⟩ := bind_ok ok
  obtain ⟨_, sound, ok⟩ := bind_ok ok
  obtain ⟨repo, worktree, rfl, intact⟩ := integrity_ok sound
  obtain ⟨marked, referenceRead, ok⟩ := bind_ok ok
  cases marked with
  | none => cases ok
  | some marked =>
    obtain ⟨_, same, ok⟩ := bind_ok ok
    obtain ⟨expected, revisionRead, ok⟩ := bind_ok ok
    cases expected with
    | none => cases ok
    | some expected =>
      obtain ⟨actual, head, ok⟩ := bind_ok ok
      obtain ⟨own, found, rfl⟩ := gitRevision_ok head
      obtain rfl : repo = own := Option.some.inj found
      have named : marked = reference := of_decide_eq_true (expect_ok.mp same)
      have recorded : expected = repo.head.hex := of_decide_eq_true (expect_ok.mp ok)
      subst named recorded
      exact ⟨repo, worktree, rfl, intact, readMarker_some referenceRead, readMarker_some revisionRead⟩

theorem discoverPath_names {checkout : Checkout} {quoted : Text → Text} {parse : Text → Except Text RecipeManifest}
    {revision : Option Text} {fuel : Nat} {repository : Text} {catalog : RecipeCatalog}
    (ok : checkout.discoverPath quoted parse revision fuel repository reference = .ok catalog) :
    catalog.repository = repository ∧ catalog.reference = reference ∧
      catalog.revision = revision.getD "working-tree".toList := by
  unfold Checkout.discoverPath at ok
  split at ok
  next =>
    obtain ⟨manifest, _, ok⟩ := bind_ok ok
    obtain ⟨candidates, _, ok⟩ := bind_ok ok
    obtain ⟨found, _, ok⟩ := bind_ok ok
    obtain ⟨all, _, ok⟩ := bind_ok ok
    dsimp only at ok
    split at ok
    next => cases ok
    next =>
      cases ok
      exact ⟨rfl, rfl, rfl⟩
  next => cases ok

/-- A catalog of a checked cache: it is read from its working tree, and labelled with its reference and revision. -/
structure Catalogued (setting : Setting) (reference : Text) (repo : Repo) (worktree : Tree) (catalog : RecipeCatalog) :
    Prop where
  repository : catalog.repository = setting.repository
  reference : catalog.reference = reference
  revision : catalog.revision = repo.head.hex ∨ catalog.revision = "working-tree".toList
  recipes : ∃ base manifest, (setting.checkout worktree).Rooted base ∧
    (setting.checkout worktree).readManifest setting.parse MANIFEST_NAMES = .ok manifest ∧
    (setting.checkout worktree).Discovered base manifest catalog.recipes

theorem discoverUnlockedChecked_ok {answers : Bool} {catalog : RecipeCatalog}
    (ok : discoverUnlockedChecked setting reference answers cache = .ok catalog) :
    ∃ repo worktree, Checked setting reference cache repo worktree ∧
      Catalogued setting reference repo worktree catalog := by
  obtain ⟨_, passed, ok⟩ := bind_ok ok
  obtain ⟨repo, worktree, checked⟩ := discoverChecks_ok (mapError_ok passed)
  refine ⟨repo, worktree, checked, ?_⟩
  obtain rfl := checked.shape
  unfold discoverUnlocked at ok
  dsimp only [CacheDir.worktree] at ok
  obtain ⟨repository, named, revision⟩ := discoverPath_names ok
  refine ⟨repository, named, ?_, RecipeTree.discovered ok⟩
  cases answers with
  | false => exact Or.inr revision
  | true =>
    left
    rw [revision]
    simp only [if_true, gitRevision, runGit, CacheDir.repo, trim_line repo.head.solid, Except.toOption, Option.getD_some]

end Checked

end Pbox.Cli.RecipeCache
