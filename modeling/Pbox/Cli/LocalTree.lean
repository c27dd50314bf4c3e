import Mathlib.Data.List.Sort
import Pbox.Lib.Descent
import Pbox.Lib.Effects
import Pbox.Lib.FileTree
import Pbox.Lib.Strings

/-! The directory that a recursive copy collects on this side. The walk follows links, keeps the
resolved directories it is inside of and refuses to enter one of them again. -/

namespace Pbox.Cli.LocalTree
open Pbox.Lib.Strings Pbox.Lib.Effects Pbox.Lib.Descent Pbox.Lib.FileTree

def MAX_FILE_TRANSFER_BYTES : Nat := 64 * 1024 * 1024

inductive Metadata where
  | directory
  | file (len : Nat)
  | special
  deriving DecidableEq, Repr

/-- What the calls answer below the root, by relative path. Directories resolve to finitely many
places and list names, none of them twice. -/
structure LocalFs where
  canonicalize : Place → Except Text Place
  readDir : Place → Except Text (Except Text (List Name))
  metadata : Place → Except Text Metadata
  permissions : Place → Except Text UInt32
  places : List Place
  resolved : ∀ place canonical, canonicalize place = .ok canonical → canonical ∈ places
  distinct : ∀ place names, readDir place = .ok (.ok names) → names.Nodup
  named : ∀ place names, readDir place = .ok (.ok names) → ∀ name ∈ names, IsName name

structure LocalUploadFile where
  relativePath : Place
  sourcePath : Place
  mode : UInt32
  deriving DecidableEq, Repr

/-- The message is the text and the path shown below the root, over the cause. -/
structure Failure where
  text : Text
  path : Place
  cause : Option Text

inductive Stop where
  | outOfFuel
  | failed (failure : Failure)

structure Walk where
  ancestors : List Place := []
  directories : List Place := []
  files : List LocalUploadFile := []

abbrev Walking := Effect Walk Stop

/-- `with_context`. -/
def orContext {Value : Type} (outcome : Except Text Value) (text : Text) (path : Place) : Walking Value :=
  match outcome with
  | .error cause => throw (.failed ⟨text, path, some cause⟩)
  | .ok value => pure value

/-- `finally`: what is pushed around the body is popped at every end of it. -/
def popping (body : Walking Unit) : Walking Unit := do
  guarded (fun walk => { walk with ancestors := walk.ancestors.dropLast }) body
  modify fun walk => { walk with ancestors := walk.ancestors.dropLast }

variable (fs : LocalFs)

def LocalFs.localFileMode (path : Place) : Except Text UInt32 :=
  match fs.permissions path with
  | .error cause => .error cause
  | .ok bits => .ok (bits &&& 0o777)

def collectEntry (descend : Place → Walking Unit) (relativePath : Place) : Walking Unit := do
  match ← orContext (fs.metadata relativePath) "read local source metadata".toList relativePath with
  | .directory =>
    modify fun walk => { walk with directories := walk.directories ++ [relativePath] }
    descend relativePath
  | .file len =>
    throwIf (MAX_FILE_TRANSFER_BYTES < len)
      (.failed ⟨"scp source exceeds the 64 MiB limit:".toList, relativePath, none⟩)
    let mode ← orContext (fs.localFileMode relativePath) "read local file permissions".toList relativePath
    modify fun walk => { walk with files := walk.files ++ [⟨relativePath, relativePath, mode⟩] }
  | .special => throw (.failed ⟨"scp cannot copy special file:".toList, relativePath, none⟩)

def collectLocalDirectoryAt : Nat → Place → Walking Unit
  | 0, _ => throw .outOfFuel
  | fuel + 1, relativeDirectory => do
    let canonical ← orContext (fs.canonicalize relativeDirectory) "resolve local directory".toList relativeDirectory
    let walk ← get
    throwIf (canonical ∈ walk.ancestors)
      (.failed ⟨"scp source contains a cyclic directory link:".toList, relativeDirectory, none⟩)
    modify fun walk => { walk with ancestors := walk.ancestors ++ [canonical] }
    popping do
      let opened ← orContext (fs.readDir relativeDirectory) "read local directory".toList relativeDirectory
      let entries ← orContext opened "read local directory entries".toList relativeDirectory
      forM (entries.insertionSort (· ≤ ·)) fun name =>
        collectEntry fs (collectLocalDirectoryAt fuel) (relativeDirectory ++ [name])

def collectLocalDirectory (fuel : Nat) : Except Stop (List Place × List LocalUploadFile) :=
  match (collectLocalDirectoryAt fs fuel []).from {} with
  | (.error stop, _) => .error stop
  | (.ok (), walk) =>
    .ok (walk.directories.insertionSort (· ≤ ·),
      walk.files.insertionSort fun left right => left.relativePath ≤ right.relativePath)

/-! What the walk is about: the paths below the root, and what is wrong with one. -/

section Paths

def LocalFs.IsDirectory (place : Place) : Prop := place = [] ∨ fs.metadata place = .ok .directory

instance (place : Place) : Decidable (fs.IsDirectory place) := inferInstanceAs (Decidable (_ ∨ _))

/-- What a path lists, in the order of the walk. -/
def LocalFs.children (place : Place) : Option (List Name) :=
  if fs.IsDirectory place then
    match fs.readDir place with
    | .ok (.ok names) => some (names.insertionSort (· ≤ ·))
    | _ => none
  else none

/-- The path is the root or reached from it. -/
def LocalFs.Reached (place : Place) : Prop := place = [] ∨ Below fs.children [] place

inductive LocalFs.Defect (place : Place) : Prop where
  | unreadable (entry : place ≠ []) (cause : Text) (fails : fs.metadata place = .error cause)
  | special (entry : place ≠ []) (kind : fs.metadata place = .ok .special)
  | large (entry : place ≠ []) (len : Nat) (kind : fs.metadata place = .ok (.file len))
      (exceeds : MAX_FILE_TRANSFER_BYTES < len)
  | modeless (entry : place ≠ []) (len : Nat) (kind : fs.metadata place = .ok (.file len)) (cause : Text)
      (fails : fs.permissions place = .error cause)
  | unresolved (inner : fs.IsDirectory place) (cause : Text) (fails : fs.canonicalize place = .error cause)
  | unopened (inner : fs.IsDirectory place) (cause : Text) (fails : fs.readDir place = .error cause)
  | unlisted (inner : fs.IsDirectory place) (cause : Text) (fails : fs.readDir place = .ok (.error cause))
  | reenters (inner : fs.IsDirectory place) (ancestor : Place) (above : ancestor <+: place)
      (apart : ancestor ≠ place) (canonical : Place) (resolved : fs.canonicalize place = .ok canonical)
      (again : fs.canonicalize ancestor = .ok canonical)

end Paths

/-! A tree of files under its root, links and all. -/

section Trees

structure LocalFile where
  data : List UInt8
  permissions : UInt32
  deriving DecidableEq, Repr

/-- The calls that fail where the volume alone would answer, with the texts of their errors. -/
structure LocalFaults where
  canonicalize : Place → Option Text := fun _ => none
  openDir : Place → Option Text := fun _ => none
  readDir : Place → Option Text := fun _ => none
  metadata : Place → Option Text := fun _ => none
  permissions : Place → Option Text := fun _ => none
  read : Place → Option Text := fun _ => none

/-- `root.join`. -/
def join (root : List Component) (relative : Place) : List Component := root ++ relative.map .normal

def faultText : Fault → Text
  | .notFound => "No such file or directory (os error 2)".toList
  | .notDirectory => "Not a directory (os error 20)".toList
  | .tooManyLinks => "Too many levels of symbolic links (os error 40)".toList

def answer {Value : Type} (fault : Option Text) (outcome : Except Fault Value) : Except Text Value :=
  match fault with
  | some error => .error error
  | none => outcome.mapError faultText

/-- A directory is opened, and then read. -/
def lists (opening reading : Option Text) (outcome : Except Fault (List Name)) :
    Except Text (Except Text (List Name)) :=
  match answer opening outcome with
  | .error error => .error error
  | .ok names =>
    match reading with
    | some error => .ok (.error error)
    | none => .ok (.ok names)

def metadataOf : Object LocalFile → Metadata
  | .directory => .directory
  | .file file => .file file.data.length
  | .link _ | .special => .special

def permissionsOf : Object LocalFile → UInt32
  | .file file => file.permissions
  | _ => 0

theorem answer_ok {Value : Type} {fault : Option Text} {outcome : Except Fault Value} {value : Value}
    (ok : answer fault outcome = .ok value) : outcome = .ok value := by
  unfold answer at ok
  cases fault with
  | some error => cases ok
  | none =>
    cases outcome with
    | error fault => cases ok
    | ok value' => cases ok; rfl

theorem readDir_eq_ok {volume : Volume LocalFile} {links : Nat} {path : List Component} {names : List Name}
    (lists : volume.readDir links [] path = .ok names) : ∃ place, names = volume.listing place := by
  unfold Volume.readDir at lists
  split at lists
  next => cases lists
  next place _ =>
    split at lists
    next => cases lists; exact ⟨place, rfl⟩
    next => cases lists

theorem lists_ok {opening reading : Option Text} {outcome : Except Fault (List Name)} {names : List Name}
    (ok : lists opening reading outcome = .ok (.ok names)) : outcome = .ok names := by
  unfold lists at ok
  split at ok
  next => cases ok
  next opened =>
    split at ok
    next => cases ok
    next => cases ok; exact answer_ok opened

/-- The volume below an absolute path, with so many links followed on the way to a place. -/
def localFs (volume : Volume LocalFile) (links : Nat) (root : List Component) (faults : LocalFaults) : LocalFs where
  canonicalize place := answer (faults.canonicalize place) (volume.resolve links [] (join root place))
  readDir place := lists (faults.openDir place) (faults.readDir place) (volume.readDir links [] (join root place))
  metadata place :=
    match answer (faults.metadata place) (volume.stat links [] (join root place)) with
    | .error error => .error error
    | .ok object => .ok (metadataOf object)
  permissions place :=
    match answer (faults.permissions place) (volume.stat links [] (join root place)) with
    | .error error => .error error
    | .ok object => .ok (permissionsOf object)
  places := volume.places
  resolved := fun _ _ resolved => resolve_mem_places rfl (answer_ok resolved)
  distinct := by
    intro place names lists
    obtain ⟨listing, rfl⟩ := readDir_eq_ok (lists_ok lists)
    exact listing_nodup volume listing
  named := by
    intro place names lists name member
    obtain ⟨listing, rfl⟩ := readDir_eq_ok (lists_ok lists)
    exact listing_isName member

/-- `fs::read` of a path below the root. -/
def readFile (volume : Volume LocalFile) (links : Nat) (root : List Component) (faults : LocalFaults)
    (place : Place) : Except Text (List UInt8) :=
  match answer (faults.read place) (volume.stat links [] (join root place)) with
  | .error error => .error error
  | .ok (.file file) => .ok file.data
  | .ok _ => .error "Is a directory (os error 21)".toList

end Trees

end Pbox.Cli.LocalTree
