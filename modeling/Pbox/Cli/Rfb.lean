import Pbox.Lib.Effects
import Pbox.Lib.Numerals

/-! The client of a desktop's RFB connection: the handshake, and the messages that move the pointer and press keys. -/

namespace Pbox.Cli.Rfb
open Pbox.Lib.Strings Pbox.Lib.Numerals Pbox.Lib.Effects

abbrev Bytes := List UInt8

def MAX_PIXELS : Nat := 16777216
def MAX_TEXT : Nat := 1048576

/-- A failure of the connection, a message that the program gives up with, or an operation that panics. -/
inductive Failure where
  | connection (error : Text)
  | message (text : Text)
  | panic
  deriving DecidableEq

/-- What the server still sends before the connection ends, and what was written to it. `takes` says what becomes of
a write after the ones before it. -/
structure Connection where
  incoming : Bytes
  sent : List Bytes
  takes : List Bytes → Bytes → Except Text Unit

abbrev Io := Effect Connection Failure

def ensure (condition : Prop) [Decidable condition] (text : Text) : Io Unit := throwIf (¬ condition) (.message text)

def writeAll (message : Bytes) : Io Unit := do
  let connection ← get
  match connection.takes connection.sent message with
  | .error error => throw (.connection error)
  | .ok () => set { connection with sent := connection.sent ++ [message] }

/-- The first bytes of an input and the rest, if it has that many. -/
def split (count : Nat) (bytes : Bytes) : Option (Bytes × Bytes) :=
  if count ≤ bytes.length then some (bytes.take count, bytes.drop count) else none

def UNEXPECTED_EOF : Text := "early eof".toList

def readExact (count : Nat) : Io Bytes := do
  let connection ← get
  match split count connection.incoming with
  | none => throw (.connection UNEXPECTED_EOF)
  | some (bytes, rest) => do
    set { connection with incoming := rest }
    return bytes

def bigEndian (bytes : Bytes) : Nat := bytes.foldl (fun value byte => 256 * value + byte.toNat) 0

def readU8 : Io Nat := do return bigEndian (← readExact 1)
def readU16 : Io Nat := do return bigEndian (← readExact 2)
def readU32 : Io Nat := do return bigEndian (← readExact 4)

def skipText : Io Unit := do
  let size ← readU32
  ensure (size ≤ MAX_TEXT) "oversized VNC text message".toList
  let _ ← readExact size

structure Client where
  width : UInt16
  height : UInt16
  deriving DecidableEq

def VERSION : Bytes := "RFB 003.008\n".toList.map fun c => c.toNat.toUInt8

/-- 32 bits, little endian, true colour, in the order red, green, blue. -/
def PIXEL_FORMAT : Bytes := [0, 0, 0, 0, 32, 24, 0, 1, 0, 255, 0, 255, 0, 255, 0, 8, 16, 0, 0, 0]

/-- Only raw rectangles are asked for. -/
def ENCODINGS : Bytes := [2, 0, 0, 1, 0, 0, 0, 0]

def connect : Io Client := do
  let version ← readExact 12
  ensure (version = VERSION) "desktop control requires RFB 3.8".toList
  writeAll VERSION
  let count ← readU8
  ensure (0 < count) "VNC server refused the connection".toList
  let security ← readExact count
  ensure (security.contains 1 = true)
    "desktop control requires the recipe's loopback VNC backend (SecurityTypes=None)".toList
  writeAll [1]
  let result ← readU32
  ensure (result = 0) "VNC security negotiation failed".toList
  writeAll [1]
  let width ← readU16
  let height ← readU16
  ensure (0 < width ∧ 0 < height ∧ width * height ≤ MAX_PIXELS) "invalid or oversized desktop dimensions".toList
  let _ ← readExact 16
  skipText
  writeAll PIXEL_FORMAT
  writeAll ENCODINGS
  return ⟨UInt16.ofNat width, UInt16.ofNat height⟩

def toBeBytes (value : UInt16) : Bytes := [(value >>> 8).toUInt8, value.toUInt8]

namespace Client
variable (client : Client)

def outside (x y : UInt16) : Text :=
  "point (".toList ++ showNat x.toNat ++ ", ".toList ++ showNat y.toNat ++ ") is outside desktop ".toList ++
    showNat client.width.toNat ++ "x".toList ++ showNat client.height.toNat

def checkPoint (x y : UInt16) : Io Unit := ensure (x < client.width ∧ y < client.height) (client.outside x y)

def pointerMessage (x y : UInt16) (buttons : UInt8) : Bytes := [5, buttons] ++ toBeBytes x ++ toBeBytes y

def pointer (x y : UInt16) (buttons : UInt8) : Io Unit := do
  client.checkPoint x y
  writeAll (pointerMessage x y buttons)

def keyMessage (key : UInt32) (down : Bool) : Bytes :=
  let down : UInt8 := if down then 1 else 0
  [4, down, 0, 0] ++ toBeBytes (key >>> 16).toUInt16 ++ toBeBytes key.toUInt16

def key (key : UInt32) (down : Bool) : Io Unit := writeAll (keyMessage key down)

def chord (keys : List UInt32) : Io Unit := do
  keys.forM fun key => Client.key key true
  keys.reverse.forM fun key => Client.key key false

end Client

section Rules
variable {failed : Failure → Connection → Prop} {connection : Connection}

/-- A write goes through, or the connection does not take it. -/
theorem ends_writeAll {done : Unit → Connection → Prop} {message : Bytes}
    (sent : connection.takes connection.sent message = .ok () →
      done () { connection with sent := connection.sent ++ [message] })
    (refused : ∀ error, connection.takes connection.sent message = .error error →
      failed (.connection error) connection) :
    Ends (writeAll message) connection done failed := by
  unfold writeAll
  rw [ends_bind, ends_get]
  cases taken : connection.takes connection.sent message with
  | error error => exact refused error taken
  | ok => exact sent taken

theorem ends_ensure {condition : Prop} [Decidable condition] {text : Text} {done : Unit → Connection → Prop} :
    Ends (ensure condition text) connection done failed ↔
      (¬ condition → failed (.message text) connection) ∧ (condition → done () connection) := by
  unfold ensure
  rw [ends_throwIf, Decidable.not_not]

theorem ends_readExact {count : Nat} {done : Bytes → Connection → Prop}
    (read : ∀ bytes t, bytes.length = count → done bytes t) :
    Ends (readExact count) connection done fun _ _ => True := by
  unfold readExact
  rw [ends_bind, ends_get]
  unfold split
  by_cases enough : count ≤ connection.incoming.length
  · rw [if_pos enough]
    exact read _ _ (List.length_take_of_le enough)
  · rw [if_neg enough]
    trivial

theorem bigEndian_pair (bytes : Bytes) (two : bytes.length = 2) : bigEndian bytes < 2 ^ 16 := by
  match bytes, two with
  | [high, low], _ =>
    have above := high.toNat_lt
    have below := low.toNat_lt
    simp only [bigEndian, List.foldl_cons, List.foldl_nil]
    omega

theorem ends_readU16 {done : Nat → Connection → Prop} (read : ∀ value t, value < 2 ^ 16 → done value t) :
    Ends readU16 connection done fun _ _ => True := by
  unfold readU16
  rw [ends_bind]
  apply ends_readExact
  intro bytes t two
  exact read _ t (bigEndian_pair bytes two)

/-- A desktop whose handshake succeeds has pixels, and not too many. -/
theorem connect_bounds (connection : Connection) :
    Ends connect connection
      (fun client _ => 0 < client.width.toNat ∧ 0 < client.height.toNat ∧
        client.width.toNat * client.height.toNat ≤ MAX_PIXELS)
      (fun _ _ => True) := by
  unfold connect
  -- Nothing before the dimensions matters for them.
  iterate 11
    rw [ends_bind]
    apply Ends.of_results
    intro _ _
  rw [ends_bind]
  apply ends_readU16
  intro width _ wide
  rw [ends_bind]
  apply ends_readU16
  intro height _ tall
  rw [ends_bind, ends_ensure]
  refine ⟨fun _ => trivial, fun sized => ?_⟩
  iterate 4
    rw [ends_bind]
    apply Ends.of_results
    intro _ _
  rw [ends_pure]
  dsimp only
  rw [UInt16.toNat_ofNat_of_lt' wide, UInt16.toNat_ofNat_of_lt' tall]
  exact sized

end Rules

end Pbox.Cli.Rfb
