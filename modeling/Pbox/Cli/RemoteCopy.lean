import Pbox.Cli.LocalTree
import Pbox.Agent.ExecStream
import Pbox.Files.PathText
import Pbox.Files.Upload
import Pbox.Lib.Grammar
import Pbox.Lib.Utf8

/-! The upload of a directory: the target on the box, its directories, and one upload for each file
under the path below the target that its relative path makes. -/

namespace Pbox.Cli.RemoteCopy
open Pbox.Lib.Strings Pbox.Lib.Effects Pbox.Lib.FileTree Pbox.Lib.Utf8 Pbox.Lib.Numerals Pbox.Lib.Framing
open Pbox.Cli.LocalTree (LocalUploadFile MAX_FILE_TRANSFER_BYTES)
open Pbox.Files (Fs Host Slots FileChunk FileEvent FileResult AgentClientError Reply below IsPart isPart_of_isName
  splitOn_joined parse_joined parse_closed parse_parts)
open Pbox.Agent.ExecStream (ExecResult)
open Pbox.Agent.Session (Bytes Status)

/-- The bytes of a relative path. -/
def pathBytes (relative : Place) : Bytes := [47].intercalate relative

/-- The bytes of `Path::join` with a relative path. -/
def joinBytes (directory relative : Bytes) : Bytes :=
  if directory = [] then relative
  else if directory.getLast? = some 47 then directory ++ relative
  else directory ++ 47 :: relative

def remoteJoin (directory : Text) (relativePath : Place) : Text :=
  fromUtf8Lossy (joinBytes (utf8 directory) (pathBytes relativePath))

def remoteDirectoryTargetPath (destination sourceName : Text) (destinationIsDirectory : Bool) : Text :=
  if destinationIsDirectory ∧ (Files.Path.parse destination).fileName ≠ some sourceName then
    remoteJoin destination [utf8 sourceName]
  else destination

inductive Cause where
  | agent (error : AgentClientError)
  | exec (error : Text)
  | io (error : Text)

structure ScpError where
  text : Text
  cause : Option Cause := none

/-- One upload as it goes: the permits it finds, its number on the agent, and what the stream and the
answer come to. -/
structure Call where
  slots : Slots
  uploadId : Nat
  deliver : List FileChunk → List FileEvent
  respond : Except Status FileResult → Reply

/-- The box as the client finds it: the agent, the uploads by their order, and the commands that it runs
by their order. -/
structure Remote where
  host : Host
  call : Nat → Call
  exec : Nat → List Text → Fs → Except Text ExecResult × Fs

structure Session where
  fs : Fs
  calls : Nat := 0

abbrev Scp := Effect Session ScpError

def execExitCode (result : ExecResult) : Nat :=
  let code := if 0 < result.signal then min (result.signal + 128) (2 ^ 31 - 1) else result.code
  if code < 0 then 1 else min code.toNat 255

variable (remote : Remote)

def exec (argv : List Text) (context : Text) : Scp Nat := do
  let s ← get
  set { s with fs := (remote.exec s.calls argv s.fs).2, calls := s.calls + 1 : Session }
  match (remote.exec s.calls argv s.fs).1 with
  | .error error => throw ⟨context, some (.exec error)⟩
  | .ok result => pure (execExitCode result)

def put (path : Text) (data : Bytes) (mode : UInt32) (context : Text) : Scp FileResult := do
  let s ← get
  let call := remote.call s.calls
  let (result, fs) := Files.upload remote.host call.slots call.uploadId call.deliver call.respond path data mode true s.fs
  set { s with fs := fs, calls := s.calls + 1 : Session }
  match result with
  | .error error => throw ⟨context, some (.agent error)⟩
  | .ok result => pure result

def remoteDirectoryTarget (destination sourceName : Text) : Scp Text := do
  let code ← exec remote ["test".toList, "-d".toList, destination] "check remote scp destination".toList
  if code = 0 then return remoteDirectoryTargetPath destination sourceName true
  else if code = 1 then return remoteDirectoryTargetPath destination sourceName false
  else throw { text := "check remote scp destination exited with status ".toList ++ showNat code }

def createRemoteDirectory (path : Text) : Scp Unit := do
  let code ← exec remote ["mkdir".toList, "-p".toList, "--".toList, path]
    ("create remote directory ".toList ++ path)
  throwIf (code ≠ 0)
    { text := "create remote directory ".toList ++ path ++ " exited with status ".toList ++ showNat code }

/-- `display` of a relative path. -/
def display (relative : Place) : Text := fromUtf8Lossy (pathBytes relative)

/-- The files one after another; the number is the size so far. -/
def uploadFiles (read : Place → Except Text Bytes) (target : Text) : List LocalUploadFile → Nat → Scp Nat
  | [], size => pure size
  | file :: rest, size => do
    match read file.sourcePath with
    | .error error => throw ⟨"read local file ".toList ++ display file.sourcePath, some (.io error)⟩
    | .ok data =>
      throwIf (MAX_FILE_TRANSFER_BYTES < data.length)
        { text := "scp source exceeds the 64 MiB limit: ".toList ++ display file.sourcePath }
      let result ← put remote (remoteJoin target file.relativePath) data file.mode
        ("upload file ".toList ++ display file.relativePath ++ " through pbox-agent".toList)
      throwIf (2 ^ 64 ≤ size + result.size) { text := "scp transfer size overflowed".toList }
      uploadFiles read target rest (size + result.size)

/-- A directory as `run_scp` uploads it: the size and the number of files. -/
def uploadDirectory (read : Place → Except Text Bytes) (destination sourceName : Text) (directories : List Place)
    (files : List LocalUploadFile) : Scp (Nat × Nat) := do
  let target ← remoteDirectoryTarget remote destination sourceName
  createRemoteDirectory remote target
  forM directories fun directory => createRemoteDirectory remote (remoteJoin target directory)
  let fileCount := files.length
  let size ← uploadFiles remote read target files 0
  return (size, fileCount)

/-- What the client relies on: streams reach the agent as far as they reach it unchanged, an answer is
the agent's, and the two commands leave the files of the box as they are. -/
structure Remote.Lawful : Prop where
  carries : ∀ n chunks, Carries (chunks.map .message) ((remote.call n).deliver chunks)
  honest : ∀ n served result, (remote.call n).respond served = .response (.ok result) → served = .ok result
  testFiles : ∀ n path fs, (remote.exec n ["test".toList, "-d".toList, path] fs).2 = fs
  mkdirFiles : ∀ n path fs, (remote.exec n ["mkdir".toList, "-p".toList, "--".toList, path] fs).2 = fs

section Paths
variable {target : Text} {names : List Text}

theorem pathBytes_utf8 (names : List Text) : pathBytes (names.map utf8) = utf8 (['/'].intercalate names) := by
  unfold pathBytes
  cases names with
  | nil => rfl
  | cons first rest =>
    rw [List.map_cons, Lib.Grammar.intercalate_cons, Lib.Grammar.intercalate_cons, utf8_append]
    apply congrArg
    induction rest with
    | nil => rfl
    | cons name rest ih =>
      rw [List.map_cons, List.map_cons, List.flatten_cons, List.map_cons, List.flatten_cons, utf8_append, ih]
      rfl

/-- Under names that are texts, the joined path is the one below the target. -/
theorem parse_remoteJoin (valid : ∀ name ∈ names, IsName (utf8 name)) (some_ : names ≠ []) :
    Files.Path.parse (remoteJoin target (names.map utf8)) = below (Files.Path.parse target) names := by
  have parts (name : Text) (member : name ∈ names) : IsPart name := isPart_of_isName (valid name member)
  have split := splitOn_joined parts some_
  unfold remoteJoin joinBytes
  rw [pathBytes_utf8]
  split
  next empty =>
    have none : target = [] := utf8_injective empty
    rw [fromUtf8Lossy_utf8, none]
    exact parse_parts parts split
  next =>
    split
    next closed =>
      obtain ⟨bytes, back⟩ := List.getLast?_eq_some_iff.mp closed
      obtain ⟨front, rfl⟩ := @encoded_of_back ['/'] target bytes back
      have whole : target = front ++ ['/'] := utf8_injective (back.trans (utf8_append front ['/']).symm)
      rw [← utf8_append, fromUtf8Lossy_utf8, whole, List.append_assoc]
      exact parse_joined parts split
    next =>
      have text : utf8 target ++ 47 :: utf8 (['/'].intercalate names) =
          utf8 (target ++ '/' :: ['/'].intercalate names) := by
        rw [utf8_append]
        rfl
      rw [text, fromUtf8Lossy_utf8, parse_joined parts split, parse_closed]
      rintro rfl
      contradiction

end Paths

end Pbox.Cli.RemoteCopy
