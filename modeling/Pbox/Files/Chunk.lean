import Pbox.Agent.Session
import Pbox.Lib.Framing

/-! The messages of file transfers. A file travels as chunks of which the last is marked; only the
first chunk carries the path, the mode and the protocol version. -/

namespace Pbox.Files
open Pbox.Lib.Strings Pbox.Lib.Framing
open Pbox.Agent.Session (Bytes Status PROTOCOL)

def MAX_FILE_SIZE : Nat := 64 * 1024 * 1024
def MAX_COLLECTED_BYTES : Nat := 64 * 1024 * 1024

/-- Both ends write and read at most this many bytes at a time. -/
def CHUNK : Nat := 8192

structure FileChunk where
  path : Text := []
  mode : UInt32 := 0
  uid : UInt32 := 0
  gid : UInt32 := 0
  atomicWrite : Bool := false
  data : Bytes := []
  eof : Bool := false
  protocolVersion : Nat := 0
  deriving DecidableEq, Repr

structure FileResult where
  size : Nat
  digest : Text
  deriving DecidableEq, Repr

inductive AgentClientError where
  | rpc (status : Status)
  | timeout
  | protocolMismatch (expected actual : Nat)
  deriving DecidableEq, Repr

abbrev FileEvent := Event FileChunk Status

/-- Chunks of a file with these contents, from the first one to the marked one. -/
abbrev Complete : List FileChunk → Bytes → Prop := Framed FileChunk.data FileChunk.eof

def FileChunk.Owned (chunk : FileChunk) : Prop := chunk.uid ≠ 0 ∨ chunk.gid ≠ 0

instance (chunk : FileChunk) : Decidable chunk.Owned :=
  inferInstanceAs (Decidable (chunk.uid ≠ 0 ∨ chunk.gid ≠ 0))

end Pbox.Files
