import Pbox.Cli.RecipeHistory

/-! How old the catalog of `sync_if_stale` can be. The age is that of `FETCH_HEAD`, which Git writes before the cache is
changed and pbox marks it; it is the age of what is handed out as long as no synchronisation ends in between. -/

namespace Pbox.Cli.RecipeCache
open Pbox.Lib.Strings Pbox.Lib.Transition Pbox.Lib.Checks
open Pbox.Cli.RecipeTree (RecipeCatalog Failure Stop)

/-- For how long a command may do with what it has; a discovery never asks. -/
def Command.ttl : Command → Option Nat
  | .sync => some 0
  | .syncIfStale ttl => some ttl
  | .discover => none

/-- Markers and `FETCH_HEAD` are of one synchronisation. -/
def Pc.settled : Pc → Bool
  | .starting | .fetching | .cloning | .discovering => true
  | _ => false

/-- The time of `FETCH_HEAD` is a time at which the remote repository had what the markers name. -/
def Timed (seen : List Sighting) (cache : CacheDir) : Prop :=
  ∀ reference revision fetched, cache.marker Repo.reference = .file reference →
    cache.marker Repo.revision = .file revision → cache.fetchHead = some fetched →
    ∃ own, ⟨trim reference, own, fetched.modified⟩ ∈ seen ∧ own.hex = trim revision

/-- The remote repository had the revision since the start of the command, or less than its time to live before. -/
def Recent (seen : List Sighting) (task : Task) (reference : Text) (own : Revision) : Prop :=
  ∀ ttl, task.command.ttl = some ttl →
    ∃ time, ⟨reference, own, time⟩ ∈ seen ∧ (task.started ≤ time ∨ task.started < time + ttl)

/-- A revision the command has got from the remote repository itself. -/
structure Obtained (seen : List Sighting) (reference : Text) (started : Nat) (repo : Repo) (own : Revision) (time : Nat) :
    Prop where
  sighted : ⟨reference, own, time⟩ ∈ seen
  started : started ≤ time
  fetched : ∀ fetched, repo.fetchHead = some fetched → fetched.modified = time

def Dating (seen : List Sighting) (cache : CacheDir) (task : Task) : Prop :=
  match task.pc with
  | .starting | .fetching | .cloning => True
  | .checkingOut => ∀ fetched revision, cache.fetchHead = some fetched → fetched.revision = some revision →
    ⟨task.reference, revision, fetched.modified⟩ ∈ seen ∧ task.started ≤ fetched.modified
  | .restricting | .markingReference => ∃ repo time, cache.repo = some repo ∧
    Obtained seen task.reference task.started repo repo.head time
  | .readingRevision _ => ∃ repo time, cache.repo = some repo ∧
    Obtained seen task.reference task.started repo repo.head time ∧ repo.reference = .file (task.reference ++ ['\n'])
  | .markingRevision _ revision => ∃ repo own time, cache.repo = some repo ∧
    Obtained seen task.reference task.started repo own time ∧ repo.reference = .file (task.reference ++ ['\n']) ∧
    revision = own.hex
  | .discovering => ∀ reference revision, cache.marker Repo.reference = .file reference →
    cache.marker Repo.revision = .file revision → ∃ own, own.hex = trim revision ∧ Recent seen task (trim reference) own

/-- A catalog of a command with a time to live is recent. -/
def Fresh (seen : List Sighting) (answer : Answer) : Prop :=
  ∃ repo worktree, answer.cache = .directory (.directory repo) worktree ∧
    Recent seen answer.task answer.task.reference repo.head

structure Dated (s : State) : Prop where
  started : ∀ task, s.task = some task → task.started ≤ s.clock
  timed : (∀ task, s.task = some task → task.pc.settled = true) → Timed s.sightings s.cache
  dating : ∀ task, s.task = some task → Dating s.sightings s.cache task
  answers : ∀ answer ∈ s.answers, ∀ catalog, answer.result = .ok catalog → Fresh s.sightings answer

/-- The clock does not go back, and no synchronisation ends between its fetch and its second marker. Whatever else
ends or is tampered with leaves `FETCH_HEAD` alone or removes it. -/
def Orderly (s : State) : Action → Prop
  | .fails _ left | .dies left => (∀ task, s.task = some task → task.pc.settled = true) ∧
    (left.fetchHead = none ∨ left.fetchHead = s.cache.fetchHead)
  | .tampers left => left.fetchHead = none ∨ left.fetchHead = s.cache.fetchHead
  | .clock now => s.clock ≤ now
  | _ => True

section Invariant
variable {setting : Setting} {s t : State} {task : Task} {seen more : List Sighting} {cache left : CacheDir}

theorem renamed_of_settled {pc : Pc} (settled : pc.settled = true) : pc.renamed = false := by
  cases pc
  case readingRevision => cases settled
  case markingRevision => cases settled
  all_goals rfl

theorem uncut_of_orderly {a : Action} (orderly : Orderly s a) : Uncut s a := by
  cases a
  case fails => exact fun task current => renamed_of_settled (orderly.1 task current)
  case dies => exact fun task current => renamed_of_settled (orderly.1 task current)
  all_goals trivial

theorem Timed.mono (sub : seen ⊆ more) (timed : Timed seen cache) : Timed more cache := by
  intro reference revision fetched marked recorded head
  obtain ⟨own, member, same⟩ := timed reference revision fetched marked recorded head
  exact ⟨own, sub member, same⟩

theorem Timed.keeps (kept : keepsMarkers cache left = true) (head : left.fetchHead = none ∨ left.fetchHead = cache.fetchHead)
    (timed : Timed seen cache) : Timed seen left := by
  intro reference revision fetched marked recorded found
  rcases head with gone | same
  · rw [gone] at found
    cases found
  · exact timed reference revision fetched (keeps_reference kept marked) (keeps_revision kept recorded) (same ▸ found)

theorem Recent.mono (sub : seen ⊆ more) {reference : Text} {own : Revision} (recent : Recent seen task reference own) :
    Recent more task reference own := by
  intro ttl command
  obtain ⟨time, member, bound⟩ := recent ttl command
  exact ⟨time, sub member, bound⟩

theorem Fresh.mono (sub : seen ⊆ more) {answer : Answer} (fresh : Fresh seen answer) : Fresh more answer := by
  obtain ⟨repo, worktree, shape, recent⟩ := fresh
  exact ⟨repo, worktree, shape, recent.mono sub⟩

/-- What a command has obtained since its start is recent for any time to live. -/
theorem Obtained.recent {repo : Repo} {own : Revision} {time : Nat}
    (obtained : Obtained seen task.reference task.started repo own time) :
    Recent seen task task.reference own :=
  fun _ _ => ⟨time, obtained.sighted, Or.inl obtained.started⟩

theorem isFresh_ok {reference : Text} {ttl now : Nat} (ok : isFresh setting reference ttl now cache = .ok true) :
    ∃ written fetched, cache.marker Repo.reference = .file written ∧ trim written = reference ∧
      cache.fetchHead = some fetched ∧ fetched.modified ≤ now ∧ now < fetched.modified + ttl := by
  obtain ⟨marked, read, ok⟩ := bind_ok ok
  have holds := Except.ok.inj ok
  simp only [Bool.and_eq_true, decide_eq_true_eq] at holds
  obtain ⟨⟨_, rfl⟩, young⟩ := holds
  obtain ⟨written, shown, same⟩ := readMarker_some read
  cases found : cache.fetchHead with
  | none =>
    rw [found] at young
    cases young
  | some fetched =>
    rw [found, Option.any_some, Bool.and_eq_true, decide_eq_true_eq, decide_eq_true_eq] at young
    exact ⟨written, fetched, shown, same, rfl, young.1, by omega⟩

theorem Dated.goto (dated : Dated s) (current : s.task = some task) {pc : Pc} (sub : s.sightings ⊆ more)
    (timed : pc.settled = true → Timed more cache) (dating : Dating more cache { task with pc }) :
    Dated ({ s with cache, sightings := more }.goto task pc) where
  started := by
    rintro _ ⟨⟩
    exact dated.started task current
  timed := fun settled => timed (settled _ rfl)
  dating := by
    rintro _ ⟨⟩
    exact dating
  answers := fun answer member catalog ok => (dated.answers answer member catalog ok).mono sub

theorem Dated.answer (dated : Dated s) (timed : Timed s.sightings cache) {result : Except Stop RecipeCatalog}
    (fresh : ∀ catalog, result = .ok catalog → Fresh s.sightings ⟨task, cache, result⟩) :
    Dated ({ s with cache }.answer task result) where
  started := by
    rintro _ ⟨⟩
  timed := fun _ => timed
  dating := by
    rintro _ ⟨⟩
  answers := by
    intro answer member catalog ok
    rcases List.mem_cons.mp member with rfl | earlier
    · exact fresh catalog ok
    · exact dated.answers answer earlier catalog ok

theorem Dated.settled (dated : Dated s) (current : s.task = some task) (settled : task.pc.settled = true) :
    Timed s.sightings s.cache := by
  apply dated.timed
  intro other same
  rw [current] at same
  cases same
  exact settled

theorem Dated.idle (dated : Dated s) (idle : s.task = none) : Timed s.sightings s.cache := by
  apply dated.timed
  intro task current
  rw [idle] at current
  cases current

/-- What lets a command do without the remote repository is young enough. -/
theorem recent_of_fresh (dated : Dated s) (current : s.task = some task) (here : task.pc = .starting) {ttl : Nat}
    (command : task.command = .syncIfStale ttl) (fresh : isFresh setting task.reference ttl s.clock s.cache = .ok true) :
    Dating s.sightings s.cache { task with pc := .discovering } := by
  intro reference revision marked recorded
  obtain ⟨written, fetched, _, _, head, past, young⟩ := isFresh_ok fresh
  have timed := dated.settled current (by rw [here]; rfl)
  obtain ⟨own, member, same⟩ := timed reference revision fetched marked recorded head
  refine ⟨own, same, fun own_ttl same_ttl => ⟨fetched.modified, member, Or.inr ?_⟩⟩
  have started := dated.started task current
  have bound : ttl = own_ttl := by
    simp only [Command.ttl, command, Option.some.injEq] at same_ttl
    exact same_ttl
  show task.started < fetched.modified + own_ttl
  omega

theorem dated_proceed {answers : Bool} (sound : Sound setting s) (dated : Dated s) (current : s.task = some task)
    (turn : Proceeds setting s task left answers t) : Dated t := by
  have same : s.sightings ⊆ s.sightings := List.Subset.refl _
  have dating : Dating s.sightings s.cache task := dated.dating task current
  unfold Dating at dating
  cases turn with
  | @begins pc here begun =>
    apply dated.goto current same
    · exact fun _ => dated.settled current (by rw [here]; rfl)
    · rcases begin_ok begun with rfl | rfl | ⟨rfl, discover | ⟨ttl, command, fresh⟩⟩
      · trivial
      · trivial
      · intro reference revision _ recorded
        have timed := dated.settled current (by rw [here]; rfl)
        have named := sound.plain current (by rw [here]; rfl)
        obtain ⟨own, _, same⟩ := named reference revision ‹_› recorded
        refine ⟨own, same, fun ttl asked => ?_⟩
        simp [Command.ttl, discover] at asked
      · exact recent_of_fresh dated current here command fresh
  | @fetches revision here remote kept fetched =>
    have sub : s.sightings ⊆ ⟨task.reference, revision, s.clock⟩ :: s.sightings := List.subset_cons_self _ _
    apply dated.goto current sub
    · rintro ⟨⟩
    · intro head named found same
      rw [fetched] at found
      cases found
      cases same
      exact ⟨List.mem_cons_self, dated.started task current⟩
  | @checksOut repo here named kept found unchanged =>
    rw [here] at dating
    obtain ⟨fetched, head, revision⟩ := Option.bind_eq_some_iff.mp named
    obtain ⟨member, started⟩ := dating fetched repo.head head revision
    apply dated.goto current same
    · rintro ⟨⟩
    · refine ⟨repo, fetched.modified, found, member, started, fun other shown => ?_⟩
      rw [← fetchHead_repo found, unchanged, head] at shown
      cases shown
      rfl
  | @clones repo here remote kept found fresh =>
    have sub : s.sightings ⊆ ⟨task.reference, repo.head, s.clock⟩ :: s.sightings := List.subset_cons_self _ _
    apply dated.goto current sub
    · rintro ⟨⟩
    · refine ⟨repo, s.clock, found, List.mem_cons_self, dated.started task current, fun fetched shown => ?_⟩
      rw [← fetchHead_repo found, fresh] at shown
      cases shown
  | restricts here =>
    rw [here] at dating
    apply dated.goto current same
    · rintro ⟨⟩
    · exact dating
  | @marksReference repo here found =>
    rw [here] at dating
    obtain ⟨own, time, own_, obtained⟩ := dating
    rw [found] at own_
    cases own_
    have changed : (s.cache.change fun repo => { repo with reference := .file (task.reference ++ ['\n']) }).repo =
        some { repo with reference := .file (task.reference ++ ['\n']) } := repo_change found
    apply dated.goto current same
    · rintro ⟨⟩
    · exact ⟨_, time, changed, ⟨obtained.sighted, obtained.started, obtained.fetched⟩, rfl⟩
  | @readsRevision renamed repo here found =>
    rw [here] at dating
    obtain ⟨own, time, own_, obtained, marked⟩ := dating
    rw [found] at own_
    cases own_
    apply dated.goto current same
    · rintro ⟨⟩
    · exact ⟨repo, repo.head, time, found, ⟨obtained.sighted, obtained.started, obtained.fetched⟩, marked, rfl⟩
  | @marksRevision renamed revision here =>
    rw [here] at dating
    obtain ⟨repo, own, time, found, obtained, marked, rfl⟩ := dating
    have changed : (s.cache.change fun repo => { repo with revision := .file (own.hex ++ ['\n']) }).repo =
        some { repo with revision := .file (own.hex ++ ['\n']) } := repo_change found
    have solid := trim_line (sound.solid task current)
    have names {reference revision : Text} (first : (s.cache.change fun repo =>
        { repo with revision := .file (own.hex ++ ['\n']) }).marker Repo.reference = .file reference)
        (second : (s.cache.change fun repo =>
        { repo with revision := .file (own.hex ++ ['\n']) }).marker Repo.revision = .file revision) :
        trim reference = task.reference ∧ trim revision = own.hex := by
      rw [marker_repo changed] at first second
      have shown : repo.reference = .file reference := first
      rw [marked] at shown
      cases shown
      cases second
      exact ⟨solid, trim_line own.solid⟩
    apply dated.goto current same
    · intro _ reference revision fetched first second head
      obtain ⟨reference_, revision_⟩ := names first second
      rw [fetchHead_repo changed] at head
      have time_ : fetched.modified = time := obtained.fetched fetched head
      rw [reference_, revision_, time_]
      exact ⟨own, obtained.sighted, rfl⟩
    · intro reference revision first second
      obtain ⟨reference_, revision_⟩ := names first second
      rw [reference_, revision_]
      exact ⟨own, rfl, obtained.recent⟩
  | discovers here =>
    rw [here] at dating
    apply dated.answer (dated.settled current (by rw [here]; rfl))
    intro catalog ok
    obtain ⟨repo, worktree, checked, _⟩ := discoverUnlockedChecked_ok ok
    obtain ⟨marked, reference, named⟩ := checked.reference
    obtain ⟨recorded, revision, hex⟩ := checked.revision
    have found : s.cache.repo = some repo := by rw [checked.shape]; rfl
    obtain ⟨own, same, recent⟩ := dating marked recorded ((marker_repo found _).trans reference)
      ((marker_repo found _).trans revision)
    have head : own = repo.head := Revision.ext (same.trans hex)
    rw [head, named] at recent
    exact ⟨repo, worktree, checked.shape, recent⟩
  | refuses here =>
    refine dated.answer ?_ (fun _ ok => by cases ok)
    rcases here with ⟨here, _⟩ | ⟨gone, here | ⟨renamed, here⟩⟩
    · exact dated.settled current (by rw [here]; rfl)
    all_goals
      rw [here] at dating
      obtain ⟨repo, _, found, _⟩ := dating
      rw [gone] at found
      cases found

theorem Timed.cut (timed : Timed s.sightings s.cache) (cut_ : cut s task left = some cache)
    (head : left.fetchHead = none ∨ left.fetchHead = s.cache.fetchHead) : Timed s.sightings cache := by
  unfold RecipeCache.cut at cut_
  split at cut_
  next =>
    split at cut_
    next kept =>
      cases cut_
      exact timed.keeps kept head
    next => cases cut_
  next =>
    cases cut_
    exact timed

theorem dated_step {a : Action} (sound : Sound setting s) (dated : Dated s) (orderly : Orderly s a)
    (taken : step setting s a = some t) : Dated t := by
  cases a with
  | starts command reference =>
    unfold step at taken
    dsimp only at taken
    split at taken
    next meets =>
      cases taken
      refine ⟨?_, fun _ => dated.idle (Option.isNone_iff_eq_none.mp meets.1), ?_, dated.answers⟩
      · rintro _ ⟨⟩
        exact Nat.le_refl _
      · rintro _ ⟨⟩
        trivial
    next => cases taken
  | proceeds left answers =>
    obtain ⟨task, current, taken⟩ := Option.bind_eq_some_iff.mp taken
    exact dated_proceed sound dated current (proceed_cases taken)
  | fails failure left =>
    obtain ⟨task, current, taken⟩ := Option.bind_eq_some_iff.mp taken
    obtain ⟨cache, cut_, rfl⟩ := Option.map_eq_some_iff.mp taken
    exact dated.answer ((dated.timed orderly.1).cut cut_ orderly.2) (fun _ ok => by cases ok)
  | dies left =>
    obtain ⟨task, current, taken⟩ := Option.bind_eq_some_iff.mp taken
    obtain ⟨cache, cut_, rfl⟩ := Option.map_eq_some_iff.mp taken
    refine ⟨?_, fun _ => (dated.timed orderly.1).cut cut_ orderly.2, ?_, dated.answers⟩
    · rintro _ ⟨⟩
    · rintro _ ⟨⟩
  | pushes reference revision =>
    cases taken
    exact ⟨dated.started, dated.timed, dated.dating, dated.answers⟩
  | tampers left =>
    unfold step at taken
    dsimp only at taken
    split at taken
    next meets =>
      cases taken
      have idle : s.task = none := Option.isNone_iff_eq_none.mp meets.1
      refine ⟨dated.started, fun _ => (dated.idle idle).keeps meets.2 orderly, ?_, dated.answers⟩
      intro task current
      rw [show s.task = some task from current] at idle
      cases idle
    next => cases taken
  | clock now =>
    cases taken
    exact ⟨fun task current => (dated.started task current).trans orderly, dated.timed, dated.dating, dated.answers⟩

theorem dated_init (initial : (system setting).init s) : Dated s := by
  obtain ⟨unmarked, _, idle, _, unanswered⟩ := initial
  refine ⟨?_, ?_, ?_, ?_⟩
  · rw [idle]
    rintro _ ⟨⟩
  · intro _ reference revision fetched marked
    rw [unmarked] at marked
    cases marked
  · rw [idle]
    rintro _ ⟨⟩
  · rw [unanswered]
    rintro _ ⟨⟩

end Invariant

section Ages

def marked (head fetched : Revision) (time : Nat) : CacheDir :=
  emptyRepo head (some ⟨some fetched, time⟩) (mark MAIN) (mark mainRevision.hex)

/-- The clone is followed by a fetch, which is young enough for the last command. -/
def aging : List Action :=
  cloning ++ [.clock 10, .starts (.syncIfStale 20) MAIN, .proceeds .absent true,
    .proceeds (marked mainRevision mainRevision 10) true, .proceeds (marked mainRevision mainRevision 10) true,
    .proceeds .absent true, .proceeds .absent true, .proceeds .absent true, .proceeds .absent true,
    .proceeds .absent true, .clock 25, .starts (.syncIfStale 20) MAIN, .proceeds .absent true, .proceeds .absent true]

def proceedsInTime (s : State) : Action → Bool
  | .starts _ _ | .proceeds _ _ => true
  | .clock now => s.clock ≤ now
  | _ => false

theorem orderly_of_proceedsInTime (s : State) (a : Action) (only : proceedsInTime s a = true) : Orderly s a := by
  cases a
  case clock now => exact (of_decide_eq_true only : s.clock ≤ now)
  case starts => trivial
  case proceeds => trivial
  all_goals cases only

/-- A synchronisation of another reference dies after its fetch. -/
def outliving : List Action :=
  cloning ++ [.clock 100, .starts .sync NEXT, .proceeds .absent true,
    .proceeds (marked mainRevision nextRevision 100) true, .dies (marked mainRevision nextRevision 100),
    .clock 105, .starts (.syncIfStale 10) MAIN, .proceeds .absent true, .proceeds .absent true]

-- Its `FETCH_HEAD` then lets a catalog of time 0 pass for one that is less than ten old.
example : ((system emptySetting).run freshState outliving).map
    (fun s : State => ((s.answers.map (·.result)).head?,
      (s.sightings.filter fun sighting => sighting.reference = MAIN).map (·.time))) =
    some (some (.ok ⟨emptySetting.repository, MAIN, mainRevision.hex, []⟩), [0]) := by decide +kernel

end Ages

end Pbox.Cli.RecipeCache
