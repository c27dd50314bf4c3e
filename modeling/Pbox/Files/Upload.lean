import Mathlib.Logic.Function.Basic
import Pbox.Lib.Effects
import Pbox.Files.Download

/-! Uploads. The client cuts the bytes into chunks; the agent writes them to a temporary file beside
the destination and moves it there, or copies it, when the stream has ended behind its mark. -/

namespace Pbox.Files
open Pbox.Lib.Strings Pbox.Lib.Framing Pbox.Lib.Numerals Pbox.Lib.Effects
open Pbox.Agent.Session (Bytes Status PROTOCOL)

section Client

/-- The chunk with this index of a file that is not empty. -/
def uploadChunk (path : Text) (mode : UInt32) (atomicWrite : Bool) (index : Nat) (chunk : Bytes) : FileChunk :=
  { path := if index = 0 then path else []
    mode := if index = 0 then mode else 0
    atomicWrite := index = 0 && atomicWrite
    data := chunk
    protocolVersion := if index = 0 then PROTOCOL else 0 }

/-- The messages of an upload. An empty file is one chunk that is first and last. -/
def uploadChunks (path : Text) (data : Bytes) (mode : UInt32) (atomicWrite : Bool) : List FileChunk :=
  if data = [] then
    [{ path, mode, atomicWrite, eof := true, protocolVersion := PROTOCOL }]
  else (pieces CHUNK data).mapIdx (uploadChunk path mode atomicWrite) ++ [{ eof := true }]

/-- What a call gives back: a response, or nothing within its time. -/
inductive Reply where
  | response (result : Except Status FileResult)
  | idle

/-- `put_file` of the client. The call runs on the other side's state. -/
def AgentClient.putFile {State : Type} (call : List FileChunk → State → Reply × State) (path : Text)
    (data : Bytes) (mode : UInt32) (atomicWrite : Bool) (s : State) :
    Except AgentClientError FileResult × State :=
  if MAX_COLLECTED_BYTES < data.length then
    (.error (.rpc (.of .resourceExhausted "upload exceeds the 64 MiB collection limit")), s)
  else
    match call (uploadChunks path data mode atomicWrite) s with
    | (.idle, t) => (.error .timeout, t)
    | (.response (.error status), t) => (.error (.rpc status), t)
    | (.response (.ok result), t) => (.ok result, t)

end Client

section Agent

structure File where
  bytes : Bytes
  mode : UInt32
  deriving DecidableEq, Repr

/-- The regular files of the box. What else a path names shows as a fault of the operation. -/
abbrev Fs := Path → Option File

abbrev Io := Effect Fs Status

/-- The operations that fail, each with the text of its error. A write or a copy that fails has let
some bytes through. -/
structure Faults where
  create : Option Text := none
  write : Nat → Option (Nat × Text) := fun _ => none
  flush : Option Text := none
  setMode : Option Text := none
  rename : Option Text := none
  openDestination : Option Text := none
  openSource : Option Text := none
  copy : Option (Nat × Text) := none
  flushDestination : Option Text := none
  setDestinationMode : Option Text := none
  remove : Option Text := none

structure Host where
  sha256 : Bytes → Bytes
  umask : UInt32
  process : Nat
  faults : Faults

def attempt (fault : Option Text) (update : Fs → Fs) : Io Unit :=
  match fault with
  | some error => throw (internalIo error)
  | none => modify update

def Fs.append (fs : Fs) (path : Path) (data : Bytes) : Fs :=
  Function.update fs path ((fs path).map fun file => { file with bytes := file.bytes ++ data })

def Fs.setMode (fs : Fs) (path : Path) (mode : UInt32) : Fs :=
  Function.update fs path ((fs path).map fun file => { file with mode })

def Fs.remove (fs : Fs) (path : Path) : Fs := Function.update fs path none

def attemptAppend (fault : Option (Nat × Text)) (path : Path) (data : Bytes) : Io Unit :=
  match fault with
  | some (count, error) => do
    modify (·.append path (data.take count))
    throw (internalIo error)
  | none => modify (·.append path data)

/-- `create_new` with the mode of a private file. -/
def createNew (host : Host) (path : Path) : Io Unit := do
  let fs ← get
  throwIf ((fs path).isSome = true) (internalIo "File exists (os error 17)".toList)
  attempt host.faults.create fun fs => Function.update fs path (some ⟨[], 0o600 &&& ~~~host.umask⟩)

def safeMode (mode : UInt32) : UInt32 := mode &&& 0o777

/-- The bytes counted and hashed so far, and how many writes there were. -/
structure Progress where
  size : Nat := 0
  hashed : Bytes := []
  writes : Nat := 0

def writeChunk (host : Host) (temporary : Path) (chunk : FileChunk) (progress : Progress) : Io Progress := do
  throwIf (MAX_FILE_SIZE - progress.size < chunk.data.length)
    (.of .resourceExhausted "file exceeds the 64 MiB limit")
  attemptAppend (host.faults.write progress.writes) temporary chunk.data
  return { size := progress.size + chunk.data.length, hashed := progress.hashed ++ chunk.data,
           writes := progress.writes + 1 }

/-- The chunks behind the first one up to the marked one, and the stream behind that. -/
def receiveRest (host : Host) (temporary : Path) : List FileEvent → Progress → Io (Progress × List FileEvent)
  | [], _ => throw (.of .invalidArgument "file stream ended before EOF marker")
  | .idle :: _, _ => throw (.of .deadlineExceeded "file stream idle timeout")
  | .failed status :: _, _ => throw status
  | .message chunk :: stream, progress => do
    throwIf (chunk.protocolVersion ≠ 0 ∧ chunk.protocolVersion ≠ PROTOCOL)
      (.of .failedPrecondition "unsupported agent protocol version")
    throwIf chunk.Owned (.of .invalidArgument "file ownership metadata is not supported")
    let progress ← writeChunk host temporary chunk progress
    if chunk.eof then return (progress, stream) else receiveRest host temporary stream progress

/-- The stream has to end behind the marked chunk. -/
def checkEnd : List FileEvent → Io Unit
  | [] => pure ()
  | .idle :: _ => throw (.of .deadlineExceeded "file stream post-EOF check timed out")
  | .failed status :: _ => throw status
  | .message _ :: _ => throw (.of .invalidArgument "file stream sent data after EOF marker")

/-- All chunks of the file. -/
def receiveMarked (host : Host) (temporary : Path) (first : FileChunk) (stream : List FileEvent) :
    Io (Progress × List FileEvent) := do
  throwIf first.Owned (.of .invalidArgument "file ownership metadata is not supported")
  let progress ← writeChunk host temporary first {}
  if first.eof then return (progress, stream) else receiveRest host temporary stream progress

/-- A mode of zero asks for no change of mode. -/
def applyMode (fault : Option Text) (path : Path) (mode : UInt32) : Io Unit :=
  if mode ≠ 0 then attempt fault (·.setMode path (safeMode mode)) else pure ()

/-- The destination opened for writing and cut to nothing. -/
def Fs.truncate (fs : Fs) (host : Host) (path : Path) : Fs :=
  Function.update fs path (some ⟨[], ((fs path).map File.mode).getD (0o666 &&& ~~~host.umask)⟩)

def copyInto (host : Host) (mode : UInt32) (temporary destination : Path) : Io Unit := do
  attempt host.faults.openDestination (·.truncate host destination)
  attempt host.faults.openSource id
  let fs ← get
  attemptAppend host.faults.copy destination (((fs temporary).map File.bytes).getD [])
  attempt host.faults.flushDestination id
  applyMode host.faults.setDestinationMode destination mode
  attempt host.faults.remove (·.remove temporary)

def moveInto (host : Host) (first : FileChunk) (temporary destination : Path) : Io Unit :=
  if first.atomicWrite then
    attempt host.faults.rename fun fs => Function.update (fs.remove temporary) destination (fs temporary)
  else copyInto host first.mode temporary destination

/-- What follows the creation of the temporary file. -/
def fillAndMove (host : Host) (stream : List FileEvent) (first : FileChunk) (temporary destination : Path) :
    Io FileResult := do
  let (progress, stream) ← receiveMarked host temporary first stream
  checkEnd stream
  attempt host.faults.flush id
  applyMode host.faults.setMode temporary first.mode
  moveInto host first temporary destination
  return { size := progress.size, digest := hexEncode (host.sha256 progress.hashed) }

/-- The guard is armed once the temporary file exists; its own removal has no result to report. -/
def receiveUpload (host : Host) (stream : List FileEvent) (first : FileChunk) (temporary destination : Path) :
    Io FileResult := do
  createNew host temporary
  guarded (·.remove temporary) (fillAndMove host stream first temporary destination)

/-- The permits that a call finds free. -/
structure Slots where
  handshake : Bool
  file : Bool

/-- The first message of a stream. -/
def handshake : List FileEvent → Except Status (FileChunk × List FileEvent)
  | [] => .error (.of .invalidArgument "file stream is empty")
  | .idle :: _ => .error (.of .deadlineExceeded "file handshake timed out")
  | .failed status :: _ => .error status
  | .message first :: stream => .ok (first, stream)

/-- What `put_file` of the agent checks before the upload proper. -/
def accept (slots : Slots) (stream : List FileEvent) : Except Status (FileChunk × List FileEvent × Path) :=
  if slots.handshake = false then .error (.of .resourceExhausted "too many concurrent handshakes")
  else
    match handshake stream with
    | .error status => .error status
    | .ok (first, stream) =>
      if first.protocolVersion ≠ PROTOCOL then
        .error (.of .failedPrecondition "unsupported agent protocol version")
      else if slots.file = false then
        .error (.of .resourceExhausted "too many concurrent file requests")
      else
        match safePath first.path with
        | .error status => .error status
        | .ok path => .ok (first, stream, path)

def putFile (host : Host) (slots : Slots) (uploadId : Nat) (stream : List FileEvent) : Io FileResult :=
  match accept slots stream with
  | .error status => throw status
  | .ok (first, stream, path) =>
    receiveUpload host stream first (temporaryPath path host.process uploadId) path

/-- An upload from end to end: the chunks reach the agent as `deliver` has it, and what it answers
comes back as `respond` has it. -/
def upload (host : Host) (slots : Slots) (uploadId : Nat) (deliver : List FileChunk → List FileEvent)
    (respond : Except Status FileResult → Reply) (path : Text) (data : Bytes) (mode : UInt32)
    (atomicWrite : Bool) (fs : Fs) : Except AgentClientError FileResult × Fs :=
  AgentClient.putFile
    (fun chunks fs =>
      let (result, t) := (putFile host slots uploadId (deliver chunks)).from fs
      (respond result, t))
    path data mode atomicWrite fs

/-- A host on which nothing fails, with the digest of the three bytes that the samples send. -/
def sampleHost : Host where
  sha256 _ := [0xba, 0x78, 0x16, 0xbf, 0x8f, 0x01, 0xcf, 0xea, 0x41, 0x41, 0x40, 0xde, 0x5d, 0xae, 0x22, 0x23,
    0xb0, 0x03, 0x61, 0xa3, 0x96, 0x17, 0x7a, 0x9c, 0xb4, 0x10, 0xff, 0x61, 0xf2, 0x00, 0x15, 0xad]
  umask := 0o022
  process := 7
  faults := {}

end Agent

end Pbox.Files
