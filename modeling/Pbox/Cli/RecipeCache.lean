import Pbox.Cli.RecipeTree
import Pbox.Lib.Transition

/-! The cache of a recipe repository: a Git checkout with two markers of pbox beside Git's own files, which name the
reference it was made for and the revision it had. A command runs Git and writes the markers, one step each, and may
fail or die between them; one command runs at a time, as the lock of the cache is for. Git is known by its manual:
what its commands answer is read off the checkout, and what they leave when they fail is open, but for the markers,
which are none of its files. -/

namespace Pbox.Cli.RecipeCache
open Pbox.Lib.Strings Pbox.Lib.FileTree Pbox.Lib.Utf8 Pbox.Lib.Transition
open Pbox.Cli.RecipeSource (RecipeRepository joinPath normaliseRepository validateRecipeReference)
open Pbox.Cli.RecipeTree (RecipeCatalog RecipeManifest Checkout Failure Stop orFailed)

abbrev Tree := Volume (List UInt8)

/-- What Git keeps of a tree. -/
def contents (tree : Tree) (place : Place) : Option (Object (List UInt8)) :=
  match tree.lookup place with
  | some (.file bytes) => some (.file bytes)
  | some (.link target) => some (.link target)
  | _ => none

/-- The name of a commit, as Git prints it. -/
structure Revision where
  hex : Text
  solid : ∀ c ∈ hex, isWhitespace c = false

@[ext] theorem Revision.ext {first second : Revision} (same : first.hex = second.hex) : first = second := by
  cases first
  cases second
  cases same
  rfl

instance : DecidableEq Revision := fun first second =>
  decidable_of_iff (first.hex = second.hex) ⟨Revision.ext, fun same => same ▸ rfl⟩

/-- What the index has at a place, with the two flags that hide a changed file from Git. A path with line breaks in it
is shown quoted. -/
structure IndexEntry where
  place : Place
  object : Object (List UInt8)
  assumeUnchanged : Bool
  skipWorktree : Bool
  shown : List UInt8
  oneLine : 0x0a ∉ shown

/-- What `FETCH_HEAD` names, and when it was written. -/
structure FetchHead where
  revision : Option Revision
  modified : Nat
  deriving DecidableEq

inductive Marker where
  | absent
  | link
  | unreadable
  | file (contents : Text)
  deriving DecidableEq

structure Repo where
  origin : List UInt8
  head : Revision
  fetchHead : Option FetchHead
  submodules : List UInt8
  index : List IndexEntry
  reference : Marker
  revision : Marker

/-- What is at `.git`; a link may lead to a repository elsewhere. -/
inductive GitDir where
  | absent
  | file
  | link (target : Option Repo)
  | directory (repo : Repo)

inductive CacheDir where
  | absent
  | file
  | link
  | directory (git : GitDir) (worktree : Tree)

def CacheDir.repo : CacheDir → Option Repo
  | .directory (.directory repo) _ => some repo
  | _ => none

/-- The repository that paths below `.git` lead to. -/
def CacheDir.reached : CacheDir → Option Repo
  | .directory (.directory repo) _ => some repo
  | .directory (.link target) _ => target
  | _ => none

def CacheDir.marker (select : Repo → Marker) (cache : CacheDir) : Marker := (cache.reached.map select).getD .absent

def CacheDir.fetchHead (cache : CacheDir) : Option FetchHead := cache.reached.bind (·.fetchHead)

def CacheDir.change (update : Repo → Repo) : CacheDir → CacheDir
  | .directory (.directory repo) worktree => .directory (.directory (update repo)) worktree
  | cache => cache

def fail {Value : Type} (message : Text) : Except Failure Value := .error { message }

/-! What Git answers. -/

def IndexEntry.tag (entry : IndexEntry) : UInt8 :=
  let letter : UInt8 := if entry.skipWorktree then 0x53 else 0x48
  if entry.assumeUnchanged then letter + 0x20 else letter

/-- `git ls-files -v`. -/
def lsFiles (index : List IndexEntry) : List UInt8 :=
  index.flatMap fun entry => entry.tag :: 0x20 :: entry.shown ++ [0x0a]

def Repo.staged (repo : Repo) (place : Place) : Option IndexEntry := repo.index.find? fun entry => entry.place = place

/-- The object Git takes to be in the working tree. -/
def Repo.seen (repo : Repo) (worktree : Tree) (place : Place) : Option (Object (List UInt8)) :=
  match repo.staged place with
  | some entry => if entry.assumeUnchanged || entry.skipWorktree then some entry.object else contents worktree place
  | none => contents worktree place

section Git
variable (tree : Revision → Tree)

def Repo.places (repo : Repo) (worktree : Tree) : List Place :=
  (tree repo.head).places ++ (repo.index.map (·.place) ++ worktree.places)

/-- `git diff --quiet HEAD`. -/
def Repo.differs (repo : Repo) (worktree : Tree) : Bool :=
  (repo.places tree worktree).any fun place =>
    ((contents (tree repo.head) place).isSome || (repo.staged place).isSome) &&
      contents (tree repo.head) place ≠ repo.seen worktree place

/-- The places in the lines of `git status --porcelain` with ignored and untracked files. -/
def Repo.status (repo : Repo) (worktree : Tree) : List Place :=
  (repo.places tree worktree).filter fun place =>
    !(contents (tree repo.head) place = (repo.staged place).map (·.object) &&
      (repo.staged place).map (·.object) = repo.seen worktree place)

end Git

/-! The checks of a cache. -/

/-- What a command works with: the repository it is for, the file system around its cache, and what revisions are. -/
structure Setting where
  repository : Text
  shown : Text
  canonicalize : Text → Option Text
  tree : Revision → Tree
  checkout : Tree → Checkout
  quoted : Text → Text
  parse : Text → Except Text RecipeManifest

def hasUnsafeGitIndexFlags (output : List UInt8) : Bool :=
  (output.splitOn 0x0a).any fun line => line.head? = some 0x68 || line.head? = some 0x53

section Checks
variable (setting : Setting)

def repositoryIdentity (repository : Text) : Text :=
  (setting.canonicalize (normaliseRepository repository)).getD (normaliseRepository repository)

def ensureCachePathIsSafe : CacheDir → Except Failure Unit
  | .link => fail "recipe cache path must not be a symbolic link".toList
  | _ => .ok ()

def restrictCacheDirectory : CacheDir → Except Failure Unit
  | .absent => fail ("inspect recipe cache ".toList ++ setting.shown)
  | .link => fail "recipe cache path must not be a symbolic link".toList
  | _ => .ok ()

/-- The cache itself is no link here: that was checked before. -/
def cacheIsGitCheckout : CacheDir → Except Failure Bool
  | .file | .link => fail ("inspect recipe cache ".toList ++ setting.shown)
  | .absent => .ok false
  | .directory git _ =>
    match git with
    | .absent | .file => .ok false
    | .link _ => fail "recipe cache Git directory must not be a symbolic link".toList
    | .directory _ => .ok true

def readMarker (purpose : Text) (select : Repo → Marker) (cache : CacheDir) : Except Failure (Option Text) :=
  let path := joinPath (joinPath setting.shown ".git".toList) ("pbox-".toList ++ purpose)
  match cache with
  | .file | .link | .directory .file _ => fail ("inspect recipe cache ".toList ++ purpose ++ ' ' :: path)
  | cache =>
    match cache.marker select with
    | .absent => .ok none
    | .link => fail ("recipe cache ".toList ++ purpose ++ " marker must not be a symbolic link".toList)
    | .unreadable => fail ("read recipe cache ".toList ++ purpose ++ ' ' :: path)
    | .file contents => .ok (some (trim contents))

def referenceMarker (cache : CacheDir) : Except Failure (Option Text) :=
  readMarker setting "reference".toList (·.reference) cache

def revisionMarker (cache : CacheDir) : Except Failure (Option Text) :=
  readMarker setting "revision".toList (·.revision) cache

/-- An answer of Git, which has one where there is a repository. -/
def runGit {Answer : Type} (cache : CacheDir) (answer : Repo → Answer) : Except Failure Answer :=
  match cache.repo with
  | some repo => .ok (answer repo)
  | none => fail "git recipe repository operation failed".toList

def gitRevision (cache : CacheDir) : Except Failure Text := runGit cache fun repo => trim (repo.head.hex ++ ['\n'])

def CacheDir.worktree : CacheDir → Option Tree
  | .directory _ worktree => some worktree
  | _ => none

/-- A check of the cache: it holds, or the command fails with the text. -/
def expect (condition : Bool) (message : Text) : Except Failure Unit := if condition then .ok () else fail message

def LOCAL_CHANGES : Text := "recipe cache has local changes; remove the cache and synchronise again".toList

def ensureCacheIntegrity (cache : CacheDir) : Except Failure Unit := do
  let isCheckout ← cacheIsGitCheckout setting cache
  expect isCheckout "recipe cache is not a Git checkout; synchronise the repository".toList
  let origin ← runGit cache (fromUtf8 ·.origin)
  match origin with
  | none => fail "recipe cache origin is not UTF-8".toList
  | some origin =>
    expect (repositoryIdentity setting (trim origin) = repositoryIdentity setting setting.repository)
      "recipe cache origin does not match the configured repository".toList
    let submodules ← runGit cache (·.submodules)
    expect submodules.isEmpty "recipe cache must not contain Git submodules".toList
    let indexFlags ← runGit cache fun repo => lsFiles repo.index
    expect (!hasUnsafeGitIndexFlags indexFlags)
      "recipe cache uses Git index flags; remove the cache and synchronise again".toList
    let status ← runGit cache fun repo => cache.worktree.elim [] (repo.status setting.tree)
    let differs ← runGit cache fun repo => cache.worktree.elim false (repo.differs setting.tree)
    expect (!differs) LOCAL_CHANGES
    expect status.isEmpty LOCAL_CHANGES

/-- The recipes of the working tree; when Git does not tell the revision a second time, they are those of a
`working-tree`. -/
def discoverUnlocked (reference : Text) (answers : Bool) (cache : CacheDir) : Except Stop RecipeCatalog :=
  match cache.worktree with
  | none => .error (.failed { message := "recipe repository directory does not exist: ".toList ++ setting.shown })
  | some worktree =>
    let revision := if answers then (gitRevision cache).toOption else none
    (setting.checkout worktree).discoverPath setting.quoted setting.parse revision
      ((setting.checkout worktree).volume.entries.length + 1) setting.repository reference

def MARKER_MISSING (purpose : Text) : Text :=
  "recipe cache ".toList ++ purpose ++ " marker is missing; sync the repository".toList

def discoverChecks (reference : Text) (cache : CacheDir) : Except Failure Unit := do
  ensureCachePathIsSafe cache
  restrictCacheDirectory setting cache
  ensureCacheIntegrity setting cache
  match ← referenceMarker setting cache with
  | none => fail (MARKER_MISSING "reference".toList)
  | some marked =>
    expect (marked = reference) ("recipe cache contains reference ".toList ++ marked ++ ", expected ".toList ++ reference)
    match ← revisionMarker setting cache with
    | none => fail (MARKER_MISSING "revision".toList)
    | some expectedRevision =>
      let actualRevision ← gitRevision cache
      expect (expectedRevision = actualRevision)
        "recipe cache HEAD does not match its recorded revision; synchronise again".toList

def discoverUnlockedChecked (reference : Text) (answers : Bool) (cache : CacheDir) : Except Stop RecipeCatalog := do
  orFailed (discoverChecks setting reference cache)
  discoverUnlocked setting reference answers cache

/-- Whether a command may do without the remote repository. -/
def isFresh (reference : Text) (ttl now : Nat) (cache : CacheDir) : Except Failure Bool := do
  let marked ← referenceMarker setting cache
  return 0 < ttl && marked = some reference && cache.fetchHead.any fun fetched =>
    fetched.modified ≤ now && now - fetched.modified < ttl

end Checks

/-! A command, one step after another. -/

inductive Command where
  | sync
  | syncIfStale (ttl : Nat)
  | discover
  deriving DecidableEq

/-- `prepare_for_apply`. -/
def prepareForApply : Option Nat → Command
  | some ttl => .syncIfStale ttl
  | none => .discover

/-- What a command has left to do. Between its markers it is noted whether the one just written has renamed a cache
whose other marker is still of the time before. -/
inductive Pc where
  | starting
  | fetching
  | checkingOut
  | cloning
  | restricting
  | markingReference
  | readingRevision (renamed : Bool)
  | markingRevision (renamed : Bool) (revision : Text)
  | discovering
  deriving DecidableEq

def Pc.runsGit : Pc → Bool
  | .fetching | .checkingOut | .cloning => true
  | _ => false

def Pc.renamed : Pc → Bool
  | .readingRevision renamed | .markingRevision renamed _ => renamed
  | _ => false

structure Task where
  reference : Text
  command : Command
  started : Nat
  pc : Pc

/-- What the remote repository had at a reference when a command asked for it. -/
structure Sighting where
  reference : Text
  revision : Revision
  time : Nat

/-- The end of a command, and the cache it left. -/
structure Answer where
  task : Task
  cache : CacheDir
  result : Except Stop RecipeCatalog

structure State where
  cache : CacheDir
  remote : Text → Option Revision
  clock : Nat
  task : Option Task
  sightings : List Sighting
  answers : List Answer

inductive Action where
  | starts (command : Command) (reference : Text)
  | proceeds (left : CacheDir) (answers : Bool)
  | fails (failure : Failure) (left : CacheDir)
  | dies (left : CacheDir)
  | pushes (reference : Text) (revision : Option Revision)
  | tampers (left : CacheDir)
  | clock (now : Nat)

/-- Nobody but pbox writes its markers: each is as it was, or gone. -/
def keepsMarkers (before after : CacheDir) : Bool :=
  [Repo.reference, Repo.revision].all fun select =>
    after.marker select = .absent || after.marker select = before.marker select

def State.goto (s : State) (task : Task) (pc : Pc) : State := { s with task := some { task with pc } }

def State.answer (s : State) (task : Task) (result : Except Stop RecipeCatalog) : State :=
  { s with task := none, answers := ⟨task, s.cache, result⟩ :: s.answers }

def State.sees (s : State) (reference : Text) (revision : Revision) : State :=
  { s with sightings := ⟨reference, revision, s.clock⟩ :: s.sightings }

/-- Whether the first marker of a reference would go with the second one of another. -/
def Repo.renamedBy (repo : Repo) (reference : Text) : Bool :=
  repo.revision ≠ .absent && repo.reference ≠ .file (reference ++ ['\n'])

section Steps
variable (setting : Setting)

/-- `sync_unlocked` up to the first command of Git that changes the cache. -/
def beginSync (cache : CacheDir) : Except Failure Pc := do
  ensureCachePathIsSafe cache
  let isGitCheckout ← cacheIsGitCheckout setting cache
  if isGitCheckout then
    ensureCacheIntegrity setting cache
    return .fetching
  else
    match cache with
    | .absent => return .cloning
    | .link => fail "recipe cache path must not be a symbolic link".toList
    | _ => fail ("recipe cache path exists but is not a Git checkout: ".toList ++ setting.shown)

def begin (task : Task) (now : Nat) (cache : CacheDir) : Except Failure Pc :=
  match task.command with
  | .sync => beginSync setting cache
  | .discover => .ok .discovering
  | .syncIfStale ttl => do
    ensureCachePathIsSafe cache
    let fresh ← isFresh setting task.reference ttl now cache
    if fresh then return .discovering else beginSync setting cache

/-- The next step of a command when it is carried out. -/
def proceed (s : State) (task : Task) (left : CacheDir) (answers : Bool) : Option State :=
  match task.pc with
  | .starting =>
    match begin setting task s.clock s.cache with
    | .ok pc => some (s.goto task pc)
    | .error failure => some (s.answer task (.error (.failed failure)))
  | .fetching =>
    match s.remote task.reference with
    | none => none
    | some revision =>
      if keepsMarkers s.cache left ∧ left.repo.isSome ∧ left.fetchHead = some ⟨some revision, s.clock⟩ then
        some (({ s with cache := left }.sees task.reference revision).goto task .checkingOut)
      else none
  | .checkingOut =>
    match s.cache.fetchHead.bind (·.revision) with
    | none => none
    | some revision =>
      if keepsMarkers s.cache left ∧ left.repo.map (·.head) = some revision ∧ left.fetchHead = s.cache.fetchHead then
        some ({ s with cache := left }.goto task .restricting)
      else none
  | .cloning =>
    match s.remote task.reference with
    | none => none
    | some revision =>
      if keepsMarkers s.cache left ∧ left.repo.map (·.head) = some revision ∧ left.fetchHead = none then
        some (({ s with cache := left }.sees task.reference revision).goto task .restricting)
      else none
  | .restricting =>
    match restrictCacheDirectory setting s.cache with
    | .ok () => some (s.goto task .markingReference)
    | .error failure => some (s.answer task (.error (.failed failure)))
  | .markingReference =>
    match s.cache.repo with
    | none => none
    | some repo =>
      let marked := s.cache.change fun repo => { repo with reference := .file (task.reference ++ ['\n']) }
      some ({ s with cache := marked }.goto task (.readingRevision (repo.renamedBy task.reference)))
  | .readingRevision renamed =>
    match gitRevision s.cache with
    | .ok revision => some (s.goto task (.markingRevision renamed revision))
    | .error failure => some (s.answer task (.error (.failed failure)))
  | .markingRevision _ revision =>
    let marked := s.cache.change fun repo => { repo with revision := .file (revision ++ ['\n']) }
    some ({ s with cache := marked }.goto task .discovering)
  | .discovering => some (s.answer task (discoverUnlockedChecked setting task.reference answers s.cache))

/-- What is left of the cache when a step is cut off. -/
def cut (s : State) (task : Task) (left : CacheDir) : Option CacheDir :=
  if task.pc.runsGit then if keepsMarkers s.cache left then some left else none else some s.cache

def step (s : State) : Action → Option State
  | .starts command reference =>
    if s.task.isNone ∧ (validateRecipeReference reference).isOk then
      some { s with task := some ⟨reference, command, s.clock, .starting⟩ }
    else none
  | .proceeds left answers => s.task.bind fun task => proceed setting s task left answers
  | .fails failure left => s.task.bind fun task => (cut s task left).map fun cache =>
    { s with cache }.answer task (.error (.failed failure))
  | .dies left => s.task.bind fun task => (cut s task left).map fun cache => { s with cache, task := none }
  | .pushes reference revision => some { s with remote := Function.update s.remote reference revision }
  | .tampers left => if s.task.isNone ∧ keepsMarkers s.cache left then some { s with cache := left } else none
  | .clock now => some { s with clock := now }

/-- At first there are no markers. -/
def system : System State Action where
  init s := s.cache.marker Repo.reference = .absent ∧ s.cache.marker Repo.revision = .absent ∧ s.task = none ∧
    s.sightings = [] ∧ s.answers = []
  step := step setting

end Steps

end Pbox.Cli.RecipeCache
