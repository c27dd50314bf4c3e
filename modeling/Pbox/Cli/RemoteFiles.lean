import Pbox.Cli.LocalWalk
import Pbox.Cli.RemoteCopy
import Pbox.Files.Exact

/-! What the upload of a directory leaves on the box: the directory, file by file, exactly if the paths
are texts and the agent sets the modes. -/

namespace Pbox.Cli.RemoteCopy
open Pbox.Lib.Strings Pbox.Lib.Effects Pbox.Lib.FileTree Pbox.Lib.Utf8 Pbox.Lib.Numerals Pbox.Lib.Framing
open Pbox.Cli.LocalTree (LocalUploadFile MAX_FILE_TRANSFER_BYTES)
open Pbox.Files (Fs Host Slots FileChunk FileEvent FileResult AgentClientError Reply below)
open Pbox.Agent.ExecStream (ExecResult)
open Pbox.Agent.Session (Bytes Status)

/-! The calls of one upload, and the files it leaves on the box. -/

section Uploads
variable {remote : Remote} {read : Place → Except Text Bytes} {target : Text} {s : Session}

/-- The entry that an upload leaves under its path. -/
def stored (host : Host) (data : Bytes) (mode : UInt32) : Files.File :=
  ⟨data, if mode ≠ 0 then Files.safeMode mode else host.privateMode⟩

/-- The path on the box that a path below the target names, where it names one. -/
def remotePath (target : Text) (relative : Place) : Except Status Files.Path :=
  Files.safePath (remoteJoin target relative)

/-- The files uploaded one by one, from these files on the box and this size to those. -/
inductive Uploaded (host : Host) (read : Place → Except Text Bytes) (target : Text) :
    List LocalUploadFile → Fs → Nat → Fs → Nat → Prop where
  | nil (fs : Fs) (size : Nat) : Uploaded host read target [] fs size fs size
  | cons {file : LocalUploadFile} {rest : List LocalUploadFile} {fs t : Fs} {size total : Nat} {data : Bytes}
      {named : Files.Path} (found : read file.sourcePath = .ok data)
      (admitted : remotePath target file.relativePath = .ok named)
      (later : Uploaded host read target rest (Function.update fs named (some (stored host data file.mode)))
        (size + data.length) t total) : Uploaded host read target (file :: rest) fs size t total

theorem ends_exec {argv : List Text} {context : Text} :
    Ends (exec remote argv context) s (fun _ t => t.fs = (remote.exec s.calls argv s.fs).2) fun _ _ => True := by
  unfold exec
  rw [ends_bind, ends_get, ends_bind, ends_set]
  split
  · exact trivial
  · exact rfl

theorem ends_put {path : Text} {data : Bytes} {mode : UInt32} {context : Text} (lawful : remote.Lawful) :
    Ends (put remote path data mode context) s
      (fun result t => result.size = data.length ∧ ∃ named, Files.safePath path = .ok named ∧
        t.fs = Function.update s.fs named (some (stored remote.host data mode)))
      fun _ _ => True := by
  unfold put
  rw [ends_bind, ends_get]
  dsimp only
  rcases run : Files.upload remote.host (remote.call s.calls).slots (remote.call s.calls).uploadId
    (remote.call s.calls).deliver (remote.call s.calls).respond path data mode true s.fs with ⟨result, fs⟩
  rw [ends_bind, ends_set]
  cases result with
  | error error => exact trivial
  | ok result =>
    obtain ⟨_, rfl, named, admitted, rfl⟩ :=
      Files.upload_sound (lawful.carries s.calls) (lawful.honest s.calls) run
    refine ⟨rfl, named, admitted, ?_⟩
    simp [stored, Files.writtenMode]

theorem ends_uploadFiles {files : List LocalUploadFile} {size : Nat} (lawful : remote.Lawful) :
    Ends (uploadFiles remote read target files size) s
      (fun total t => Uploaded remote.host read target files s.fs size t.fs total) fun _ _ => True := by
  induction files generalizing s size with
  | nil => exact .nil s.fs size
  | cons file rest ih =>
    unfold uploadFiles
    split
    next => exact trivial
    next data found =>
      rw [ends_bind, ends_throwIf]
      refine ⟨fun _ => trivial, fun _ => (ends_put lawful).andThen ?_⟩
      rintro result t ⟨sized, named, admitted, files⟩
      rw [ends_bind, ends_throwIf]
      refine ⟨fun _ => trivial, fun _ => ih.mono ?_ fun _ _ _ => trivial⟩
      intro total u later
      rw [files, sized] at later
      exact .cons found admitted later

theorem ends_createRemoteDirectory {path : Text} (lawful : remote.Lawful) :
    Ends (createRemoteDirectory remote path) s (fun _ t => t.fs = s.fs) fun _ _ => True := by
  unfold createRemoteDirectory
  refine ends_exec.andThen ?_
  intro code t files
  rw [ends_throwIf]
  exact ⟨fun _ => trivial, fun _ => files.trans (lawful.mkdirFiles _ _ _)⟩

theorem ends_createAll {directories : List Place} (lawful : remote.Lawful) :
    Ends (forM directories fun directory => createRemoteDirectory remote (remoteJoin target directory)) s
      (fun _ t => t.fs = s.fs) fun _ _ => True := by
  induction directories generalizing s with
  | nil => exact rfl
  | cons directory rest ih =>
    rw [List.forM_cons]
    refine (ends_createRemoteDirectory lawful).andThen ?_
    intro _ t files
    exact ih.mono (fun _ _ later => later.trans files) fun _ _ _ => trivial

theorem ends_remoteDirectoryTarget {destination sourceName : Text} (lawful : remote.Lawful) :
    Ends (remoteDirectoryTarget remote destination sourceName) s (fun _ t => t.fs = s.fs) fun _ _ => True := by
  unfold remoteDirectoryTarget
  refine ends_exec.andThen ?_
  intro code t files
  have same := files.trans (lawful.testFiles _ _ _)
  split
  · exact same
  · split
    · exact same
    · exact trivial

end Uploads

section Results
variable {host : Host} {read : Place → Except Text Bytes} {target : Text} {files : List LocalUploadFile}
  {fs t : Fs} {size final : Nat}

theorem Uploaded.named (uploaded : Uploaded host read target files fs size t final) :
    ∀ file ∈ files, (∃ data, read file.sourcePath = .ok data) ∧
      ∃ named, remotePath target file.relativePath = .ok named := by
  induction uploaded with
  | nil => simp
  | cons found admitted later ih =>
    intro file member
    rcases List.mem_cons.mp member with rfl | member
    · exact ⟨⟨_, found⟩, _, admitted⟩
    · exact ih file member

theorem Uploaded.total (uploaded : Uploaded host read target files fs size t final) {data : LocalUploadFile → Bytes}
    (holds : ∀ file ∈ files, read file.sourcePath = .ok (data file)) :
    final = size + (files.flatMap data).length := by
  induction uploaded with
  | nil => rfl
  | cons found admitted later ih =>
    have first := holds _ List.mem_cons_self
    rw [found] at first
    cases first
    rw [ih fun file member => holds file (List.mem_cons_of_mem _ member), List.flatMap_cons, List.length_append]
    omega

theorem Uploaded.other {path : Files.Path} (uploaded : Uploaded host read target files fs size t final)
    (apart : .ok path ∉ files.map fun file => remotePath target file.relativePath) : t path = fs path := by
  induction uploaded with
  | nil => rfl
  | @cons file rest fs t size final data named found admitted later ih =>
    rw [List.map_cons, List.mem_cons, not_or, admitted] at apart
    rw [ih apart.2, Function.update_of_ne]
    rintro rfl
    exact apart.1 rfl

/-- A path that no other file is uploaded to holds what was uploaded there. -/
theorem Uploaded.lookup (uploaded : Uploaded host read target files fs size t final)
    (apart : (files.map fun file => remotePath target file.relativePath).Nodup) {file : LocalUploadFile}
    (member : file ∈ files) {data : Bytes} {path : Files.Path} (holds : read file.sourcePath = .ok data)
    (named : remotePath target file.relativePath = .ok path) : t path = some (stored host data file.mode) := by
  induction uploaded with
  | nil => cases member
  | cons found admitted later ih =>
    rw [List.map_cons, List.nodup_cons] at apart
    rcases List.mem_cons.mp member with rfl | member
    · rw [holds] at found
      rw [named] at admitted
      cases found
      cases admitted
      rw [later.other, Function.update_self]
      rw [← named]
      exact apart.1
    · exact ih apart.2 member

end Results

/-! The local directory and what is to become of it. -/

section Copies

/-- The directory that is copied, as the calls find it. -/
structure Source where
  volume : Volume LocalTree.LocalFile
  links : Nat
  root : List Component
  faults : LocalTree.LocalFaults

def Source.fs (source : Source) : LocalTree.LocalFs :=
  LocalTree.localFs source.volume source.links source.root source.faults

def Source.read (source : Source) : Place → Except Text Bytes :=
  LocalTree.readFile source.volume source.links source.root source.faults

/-- A path below the root at which there is a regular file, links followed. -/
def Source.Holds (source : Source) (place : Place) (file : LocalTree.LocalFile) : Prop :=
  Lib.Descent.Below source.fs.children [] place ∧
    source.volume.stat source.links [] (LocalTree.join source.root place) = .ok (.file file)

def permissionBits (file : LocalTree.LocalFile) : UInt32 := file.permissions &&& 0o777

/-- The path on the box is the same one below the target. -/
def SamePath (target : Text) (place : Place) (path : Files.Path) : Prop :=
  ∃ names : List Text, place = names.map utf8 ∧ path = below (Files.Path.parse target) names

/-- Each file is at its path below the target with its bytes and permission bits, no two files went to one
path, and the totals are those of the directory. -/
structure Copied (source : Source) (target : Text) (t : Fs) (size count : Nat) : Prop where
  placed : ∀ place file, source.Holds place file → ∃ path, remotePath target place = .ok path ∧
    SamePath target place path ∧ t path = some ⟨file.data, permissionBits file⟩
  apart : ∀ first second firstFile secondFile, source.Holds first firstFile → source.Holds second secondFile →
    first ≠ second → remotePath target first ≠ remotePath target second
  totals : ∃ files : List (Place × LocalTree.LocalFile), files.Nodup ∧
    (∀ place file, (place, file) ∈ files ↔ source.Holds place file) ∧
    count = files.length ∧ size = (files.flatMap fun entry => entry.2.data).length

variable {source : Source} {host : Host} {target : Text} {directories : List Place} {files : List LocalUploadFile}
  {fs t : Fs} {size : Nat} {place : Place} {held : LocalTree.LocalFile}

theorem Source.Holds.unique {other : LocalTree.LocalFile} (holds : source.Holds place held)
    (also : source.Holds place other) : held = other := by
  have same := holds.2.symm.trans also.2
  cases same
  rfl

theorem stat_of_metadata {kind : LocalTree.Metadata} (found : source.fs.metadata place = .ok kind) :
    ∃ object, source.volume.stat source.links [] (LocalTree.join source.root place) = .ok object ∧
      LocalTree.metadataOf object = kind := by
  unfold Source.fs LocalTree.localFs at found
  dsimp only at found
  split at found
  next => cases found
  next object answered =>
    cases found
    exact ⟨object, LocalTree.answer_ok answered, rfl⟩

theorem permissions_of_stat {object : Object LocalTree.LocalFile} {bits : UInt32}
    (stat : source.volume.stat source.links [] (LocalTree.join source.root place) = .ok object)
    (found : source.fs.permissions place = .ok bits) : bits = LocalTree.permissionsOf object := by
  unfold Source.fs LocalTree.localFs at found
  dsimp only at found
  split at found
  next => cases found
  next other answered =>
    cases found
    have same := (LocalTree.answer_ok answered).symm.trans stat
    cases same
    rfl

theorem read_of_holds {data : Bytes} (holds : source.Holds place held) (found : source.read place = .ok data) :
    data = held.data := by
  unfold Source.read LocalTree.readFile at found
  split at found
  next => cases found
  next file answered =>
    cases found
    have same := (LocalTree.answer_ok answered).symm.trans holds.2
    cases same
    rfl
  next => cases found

/-- What the walk lists as files is what the directory holds. -/
theorem listed_holds (collected : source.fs.Collected directories files) {file : LocalUploadFile}
    (member : file ∈ files) :
    ∃ held, source.Holds file.relativePath held ∧
      file = ⟨file.relativePath, file.relativePath, permissionBits held⟩ := by
  have found := collected.file file member
  have below := (collected.exactly file.relativePath).mp
    (List.mem_append_right _ (List.mem_map.mpr ⟨file, member, rfl⟩))
  unfold LocalTree.LocalFs.fileAt at found
  split at found
  next len mode kind bits =>
    obtain ⟨object, stat, is⟩ := stat_of_metadata kind
    unfold LocalTree.LocalFs.localFileMode at bits
    split at bits
    next => cases bits
    next all allowed =>
      cases bits
      cases object with
      | file held =>
        refine ⟨held, ⟨below, stat⟩, ?_⟩
        rw [permissions_of_stat stat allowed] at found
        exact (Option.some.inj found).symm
      | directory => cases is
      | link target => cases is
      | special => cases is
  next => cases found

theorem holds_listed (collected : source.fs.Collected directories files) (holds : source.Holds place held) :
    ⟨place, place, permissionBits held⟩ ∈ files := by
  rcases List.mem_append.mp ((collected.exactly place).mpr holds.1) with member | member
  · obtain ⟨object, stat, is⟩ := stat_of_metadata (collected.directory place member)
    rw [holds.2] at stat
    cases stat
    cases is
  · obtain ⟨file, among, rfl⟩ := List.mem_map.mp member
    obtain ⟨other, also, same⟩ := listed_holds collected among
    rw [holds.unique also, ← same]
    exact among

theorem below_injective {path : Files.Path} : Function.Injective (below path) := by
  intro first second same
  have components := List.append_cancel_left (Files.Path.mk.inj same).2
  exact List.map_injective_iff.mpr (fun _ _ => Files.Component.normal.inj) components

theorem remotePath_eq {path : Files.Path} (named : remotePath target place = .ok path) :
    path = Files.Path.parse (remoteJoin target place) := by
  unfold remotePath Files.safePath at named
  split at named
  next => cases named
  next => cases named; rfl

/-- A path of texts is uploaded to its own path below the target. -/
theorem samePath_of_names {names : List Text} {path : Files.Path} (holds : source.Holds (names.map utf8) held)
    (named : remotePath target (names.map utf8) = .ok path) : path = below (Files.Path.parse target) names := by
  rw [remotePath_eq named]
  apply parse_remoteJoin
  · intro name member
    exact LocalTree.below_isName holds.1 (utf8 name) (List.mem_map.mpr ⟨name, member, rfl⟩)
  · rintro rfl
    exact LocalTree.below_nonempty holds.1 rfl

/-- The bytes of a path are texts, and the mode is one that the agent sets. -/
def Source.Plain (source : Source) (host : Host) : Prop :=
  ∀ place file, source.Holds place file →
    (∃ names : List Text, place = names.map utf8) ∧ (permissionBits file ≠ 0 ∨ host.privateMode = 0)

theorem stored_mode {data : Bytes} (file : LocalTree.LocalFile) :
    stored host data (permissionBits file) = ⟨data, permissionBits file⟩ ↔
      permissionBits file ≠ 0 ∨ host.privateMode = 0 := by
  have masked : Files.safeMode (permissionBits file) = permissionBits file := by
    unfold Files.safeMode permissionBits
    rw [UInt32.and_assoc, UInt32.and_self]
  unfold stored
  by_cases zero : permissionBits file = 0
  · simp [zero]
  · simp [zero, masked]

/-- The paths of the files are apart when files at different paths go to different paths. -/
theorem nodup_remotePath (collected : source.fs.Collected directories files)
    (apart : ∀ first second firstFile secondFile, source.Holds first firstFile → source.Holds second secondFile →
      first ≠ second → remotePath target first ≠ remotePath target second) :
    (files.map fun file => remotePath target file.relativePath).Nodup := by
  have once := (List.nodup_append.mp collected.once).2.1
  rw [List.Nodup, List.pairwise_map] at once ⊢
  refine once.imp_of_mem ?_
  intro first second firstMember secondMember different
  obtain ⟨firstHeld, firstHolds, _⟩ := listed_holds collected firstMember
  obtain ⟨secondHeld, secondHolds, _⟩ := listed_holds collected secondMember
  exact apart _ _ _ _ firstHolds secondHolds different

/-- What a path holds after the uploads, when no other file went there. -/
theorem lookup_holds (collected : source.fs.Collected directories files)
    (uploaded : Uploaded host source.read target files fs 0 t size)
    (apart : (files.map fun file => remotePath target file.relativePath).Nodup) (holds : source.Holds place held) :
    ∃ path, remotePath target place = .ok path ∧ t path = some (stored host held.data (permissionBits held)) := by
  have member := holds_listed collected holds
  obtain ⟨⟨data, read⟩, path, named⟩ := uploaded.named _ member
  refine ⟨path, named, ?_⟩
  rw [read_of_holds holds read] at read
  exact uploaded.lookup apart member read named

theorem holds_of_plain (plain : source.Plain host) (holds : source.Holds place held) :
    ∃ names : List Text, place = names.map utf8 :=
  (plain place held holds).1

theorem apart_of_plain (collected : source.fs.Collected directories files)
    (uploaded : Uploaded host source.read target files fs 0 t size) (plain : source.Plain host) :
    ∀ first second firstFile secondFile, source.Holds first firstFile → source.Holds second secondFile →
      first ≠ second → remotePath target first ≠ remotePath target second := by
  intro first second firstFile secondFile firstHolds secondHolds different same
  obtain ⟨firstNames, rfl⟩ := holds_of_plain plain firstHolds
  obtain ⟨secondNames, rfl⟩ := holds_of_plain plain secondHolds
  obtain ⟨_, path, named⟩ := uploaded.named _ (holds_listed collected firstHolds)
  have left := samePath_of_names firstHolds named
  have right := samePath_of_names secondHolds (same ▸ named)
  exact different (congrArg _ (below_injective (left.symm.trans right)))

/-- The files with their contents, in the order of the uploads. -/
theorem totals_uploaded (collected : source.fs.Collected directories files)
    (uploaded : Uploaded host source.read target files fs 0 t size) :
    ∃ held : List (Place × LocalTree.LocalFile), held.Nodup ∧
      (∀ place file, (place, file) ∈ held ↔ source.Holds place file) ∧
      files.length = held.length ∧ size = (held.flatMap fun entry => entry.2.data).length := by
  have chosen (file : LocalUploadFile) : ∃ held, file ∈ files → source.Holds file.relativePath held ∧
      file = ⟨file.relativePath, file.relativePath, permissionBits held⟩ := by
    by_cases member : file ∈ files
    · obtain ⟨held, listed⟩ := listed_holds collected member
      exact ⟨held, fun _ => listed⟩
    · exact ⟨⟨[], 0⟩, fun listed => absurd listed member⟩
  choose contents listed using chosen
  refine ⟨files.map fun file => (file.relativePath, contents file), ?_, ?_, (List.length_map _).symm, ?_⟩
  · have once := (List.nodup_append.mp collected.once).2.1
    rw [List.Nodup, List.pairwise_map] at once ⊢
    exact once.imp fun different same => different (congrArg Prod.fst same)
  · intro place file
    rw [List.mem_map]
    constructor
    · rintro ⟨entry, member, same⟩
      cases same
      exact (listed entry member).1
    · intro holds
      have member := holds_listed collected holds
      have same := (listed _ member).1.unique holds
      exact ⟨_, member, by rw [same]⟩
  · have reads (file : LocalUploadFile) (member : file ∈ files) :
        source.read file.sourcePath = .ok ((fun file => (contents file).data) file) := by
      obtain ⟨data, found⟩ := (uploaded.named file member).1
      obtain ⟨holds, shape⟩ := listed file member
      have same : file.sourcePath = file.relativePath := congrArg LocalUploadFile.sourcePath shape
      rw [found, read_of_holds (same ▸ holds) found]
    rw [uploaded.total reads, Nat.zero_add, List.flatMap_map]

/-- The copy is the directory exactly if all paths are texts and all modes are set. -/
theorem copied_iff (collected : source.fs.Collected directories files)
    (uploaded : Uploaded host source.read target files fs 0 t size) :
    Copied source target t size files.length ↔ source.Plain host := by
  constructor
  · intro copied place held holds
    obtain ⟨path, named, ⟨names, texts, _⟩, entry⟩ := copied.placed place held holds
    refine ⟨⟨names, texts⟩, ?_⟩
    obtain ⟨other, also, written⟩ :=
      lookup_holds collected uploaded (nodup_remotePath collected copied.apart) holds
    rw [named] at also
    cases also
    exact (stored_mode held).mp (Option.some.inj (written.symm.trans entry))
  · intro plain
    have apart := apart_of_plain collected uploaded plain
    refine ⟨?_, apart, totals_uploaded collected uploaded⟩
    intro place held holds
    obtain ⟨path, named, written⟩ := lookup_holds collected uploaded (nodup_remotePath collected apart) holds
    obtain ⟨⟨names, rfl⟩, mode⟩ := plain place held holds
    refine ⟨path, named, ⟨names, rfl, samePath_of_names holds named⟩, ?_⟩
    rw [written, (stored_mode held).mpr mode]

/-- An upload of a collected directory that returns has copied it, to the target that it chose, exactly if
all paths are texts and all modes are set. -/
theorem scp_directory_copied_iff (source : Source) (remote : Remote) (lawful : remote.Lawful) (extra : Nat)
    (destination sourceName : Text) (s t : Session) (directories : List Place) (files : List LocalUploadFile)
    (size count : Nat)
    (collects : LocalTree.collectLocalDirectory source.fs (source.volume.places.length + 1 + extra) =
      .ok (directories, files))
    (returns : (uploadDirectory remote source.read destination sourceName directories files).from s =
      (.ok (size, count), t)) :
    ∃ target u, (remoteDirectoryTarget remote destination sourceName).from s = (.ok target, u) ∧
      (Copied source target t.fs size count ↔ source.Plain remote.host) := by
  have enough : source.fs.places.length < source.volume.places.length + 1 + extra := by
    show source.volume.places.length < _
    omega
  have collected := (LocalTree.traversed enough).lists directories files collects
  unfold uploadDirectory at returns
  obtain ⟨target, u, chosen, returns⟩ := from_bind_ok returns
  refine ⟨target, u, chosen, ?_⟩
  obtain ⟨_, v, _, returns⟩ := from_bind_ok returns
  obtain ⟨_, w, _, returns⟩ := from_bind_ok returns
  obtain ⟨total, x, uploads, returns⟩ := from_bind_ok returns
  cases returns
  exact copied_iff collected ((ends_uploadFiles lawful).ok_of uploads)

/-- A directory with two files whose names are these bytes. -/
def twoFiles (first second : UInt8) (firstName : IsName [first]) (secondName : IsName [second])
    (different : first ≠ second) : Source where
  volume :=
    { entries := [([[100]], .directory), ([[100], [first]], .file ⟨[97], 0o644⟩), ([[100], [second]], .file ⟨[98], 0o644⟩)]
      named := by simp [isName_single, firstName, secondName]
      distinct := by simp [different]
      nested := by
        intro entry member
        simp only [List.mem_cons, List.not_mem_nil, or_false] at member
        rcases member with rfl | rfl | rfl
        · exact ⟨[], [100], rfl, Or.inl rfl⟩
        · exact ⟨[[100]], [first], rfl, Or.inr (by simp)⟩
        · exact ⟨[[100]], [second], rfl, Or.inr (by simp)⟩ }
  links := 40
  root := [.normal [100]]
  faults := {}

/-- A box on which nothing fails and the target does not exist. -/
def sampleRemote : Remote where
  host := Files.sampleHost
  call n := ⟨⟨true, true⟩, n, (·.map .message), .response⟩
  exec _ argv fs := (.ok { code := if argv.head? = some "test".toList then 1 else 0, exited := true }, fs)

theorem sampleRemote_lawful : sampleRemote.Lawful where
  carries _ chunks := carries_self (chunks.map .message)
  honest _ _ _ same := Reply.response.inj same
  testFiles _ _ _ := rfl
  mkdirFiles _ _ _ := rfl

def plainFiles : Source :=
  twoFiles 102 103 (isName_single (by decide) (by decide) (by decide)) (isName_single (by decide) (by decide) (by decide))
    (by decide)

def lossyFiles : Source :=
  twoFiles 254 255 (isName_single (by decide) (by decide) (by decide)) (isName_single (by decide) (by decide) (by decide))
    (by decide)

def sampleRun (source : Source) (first second : UInt8) : Except ScpError (Nat × Nat) × Session :=
  (uploadDirectory sampleRemote source.read "/t".toList "d".toList []
    [⟨[[first]], [[first]], 0o644⟩, ⟨[[second]], [[second]], 0o644⟩]).from { fs := fun _ => none }

theorem plain_files_copied :
    ∃ target, Copied plainFiles target (sampleRun plainFiles 102 103).2.fs 2 2 := by
  have collects : LocalTree.collectLocalDirectory plainFiles.fs (plainFiles.volume.places.length + 1 + 0) =
      .ok ([], [⟨[[102]], [[102]], 0o644⟩, ⟨[[103]], [[103]], 0o644⟩]) := rfl
  have plain : plainFiles.Plain sampleRemote.host := by
    intro place held holds
    have collected := (LocalTree.traversed (show plainFiles.fs.places.length < 5 by decide)).lists _ _ collects
    have member := holds_listed collected holds
    simp only [List.mem_cons, List.not_mem_nil, or_false, LocalUploadFile.mk.injEq] at member
    rcases member with ⟨rfl, _, bits⟩ | ⟨rfl, _, bits⟩
    · exact ⟨⟨["f".toList], rfl⟩, Or.inl (by rw [bits]; decide)⟩
    · exact ⟨⟨["g".toList], rfl⟩, Or.inl (by rw [bits]; decide)⟩
  obtain ⟨target, _, _, copied⟩ := scp_directory_copied_iff plainFiles sampleRemote sampleRemote_lawful 0 "/t".toList
    "d".toList { fs := fun _ => none } (sampleRun plainFiles 102 103).2 _ _ 2 2 collects rfl
  exact ⟨target, copied.mpr plain⟩

/-- Two files whose names are no texts go to one path, and the upload returns with both of them counted. -/
theorem lossy_files_overwritten :
    LocalTree.collectLocalDirectory lossyFiles.fs 5 =
        .ok ([], [⟨[[254]], [[254]], 0o644⟩, ⟨[[255]], [[255]], 0o644⟩]) ∧
      (sampleRun lossyFiles 254 255).1.toOption = some (2, 2) ∧
      remotePath "/t".toList [[254]] = remotePath "/t".toList [[255]] ∧
      ∀ target, ¬Copied lossyFiles target (sampleRun lossyFiles 254 255).2.fs 2 2 := by
  refine ⟨rfl, rfl, rfl, ?_⟩
  intro target copied
  have holds : lossyFiles.Holds [[254]] ⟨[97], 0o644⟩ := ⟨@Lib.Descent.Below.entry _ _ [] [[254], [255]] [254] rfl (by simp), rfl⟩
  obtain ⟨_, _, ⟨names, texts, _⟩, _⟩ := copied.placed _ _ holds
  obtain ⟨name, _, encoded⟩ := List.mem_map.mp (texts ▸ List.mem_singleton_self [254])
  have broken : fromUtf8 [254] = none := rfl
  rw [fromUtf8_eq_some_iff.mpr encoded] at broken
  cases broken

end Copies

end Pbox.Cli.RemoteCopy
