import Pbox.Lib.Checks
import Pbox.Lib.Strings

/-! Requests of terminal sessions and the checks every session call makes on them before it
touches the registry or a screen. -/

namespace Pbox.Agent.Session
open Pbox.Lib.Strings Pbox.Lib.Checks

abbrev Bytes := List UInt8

/-- The bytes of an ASCII text. -/
def ascii (text : String) : Bytes := text.toList.map fun c => c.toNat.toUInt8

def PROTOCOL : Nat := 3

inductive Code where
  | invalidArgument
  | notFound
  | alreadyExists
  | resourceExhausted
  | failedPrecondition
  | deadlineExceeded
  | cancelled
  | internal
  | unknown
  deriving DecidableEq, Repr

structure Status where
  code : Code
  message : Text
  deriving DecidableEq, Repr

def Status.of (code : Code) (message : String) : Status := ⟨code, message.toList⟩

structure ExecRequest where
  protocolVersion : Nat := 0
  argv : List Text := []
  cwd : Text := []
  env : List (Text × Text) := []
  user : Text := []
  allocatePty : Bool := false
  stdin : Bytes := []
  stdinEof : Bool := false
  terminalRows : Nat := 0
  terminalCols : Nat := 0
  sessionName : Text := []
  deriving DecidableEq, Repr

inductive Event where
  | stdout (bytes : Bytes)
  | stderr (bytes : Bytes)
  | exit (code signal : Int)
  deriving DecidableEq, Repr

structure ExecEvent where
  event : Option Event
  deriving DecidableEq, Repr

/-- An item of an output stream. -/
abbrev Delivery := Except Status ExecEvent

structure TerminalSession where
  name : Text
  user : Text
  cwd : Text
  argv : List Text
  attached : Bool
  createdUnix : Nat
  rows : Nat
  cols : Nat
  deriving DecidableEq, Repr

def checkProtocol (version : Nat) : Except Status Unit :=
  if version ≠ PROTOCOL then
    .error (.of .failedPrecondition "unsupported agent protocol version")
  else .ok ()

/-- A terminal size that the agent accepts. -/
structure Size where
  rows : Nat
  cols : Nat
  tall : 0 < rows ∧ rows ≤ 200
  wide : 0 < cols ∧ cols ≤ 500
  deriving DecidableEq

/-- Zero rows or columns stand for the default size. -/
def orDefault (value default : Nat) : Nat := if value = 0 then default else value

theorem orDefault_of_pos {value default : Nat} (given : 0 < value) :
    orDefault value default = value := if_neg (by omega)

theorem orDefault_pos {value default : Nat} (sized : 0 < default) : 0 < orDefault value default := by
  unfold orDefault
  split <;> omega

def dimensions (rows cols : Nat) : Except Status Size :=
  if fits : orDefault rows 24 ≤ 200 ∧ orDefault cols 80 ≤ 500 then
    .ok ⟨orDefault rows 24, orDefault cols 80, ⟨orDefault_pos (by decide), fits.1⟩,
      ⟨orDefault_pos (by decide), fits.2⟩⟩
  else .error (.of .invalidArgument "terminal size exceeds 200 rows or 500 columns")

/-- The resize that a later message of a stream asks for. -/
def resizeOf (request : ExecRequest) : Except Status (Option Size) :=
  if 0 < request.terminalRows ∧ 0 < request.terminalCols then
    (dimensions request.terminalRows request.terminalCols).map some
  else .ok none

def isAsciiAlphanumeric (b : UInt8) : Bool :=
  ('0'.toNat ≤ b.toNat && b.toNat ≤ '9'.toNat) || ('A'.toNat ≤ b.toNat && b.toNat ≤ 'Z'.toNat) ||
    ('a'.toNat ≤ b.toNat && b.toNat ≤ 'z'.toNat)

def validateName (name : Text) : Except Status Unit :=
  if name.isEmpty || (utf8 name).length > 64 ||
      !(utf8 name).all fun c => isAsciiAlphanumeric c || (ascii "-_").contains c then
    .error (.of .invalidArgument
      "session names use 1–64 letters, digits, hyphens or underscores")
  else .ok ()

def checkPty (allocatePty : Bool) : Except Status Unit :=
  if allocatePty then .ok ()
  else .error (.of .invalidArgument "terminal requires a PTY")

/-- The defaults that `prepare` writes into a request. -/
def withDefaults (first : ExecRequest) : ExecRequest :=
  { first with
    user := if first.user.isEmpty then "pbox".toList else first.user
    sessionName := if first.sessionName.isEmpty then "main".toList else first.sessionName }

/-- The checks and defaults at the head of `prepare`. -/
def normalise (first : ExecRequest) : Except Status ExecRequest := do
  checkProtocol first.protocolVersion
  checkPty first.allocatePty
  validateName (withDefaults first).sessionName
  let size ← dimensions first.terminalRows first.terminalCols
  .ok { withDefaults first with terminalRows := size.rows, terminalCols := size.cols }

/-- A size already given in full is kept as it is. -/
theorem dimensions_of_pos {rows cols : Nat} {size : Size} (tall : 0 < rows) (wide : 0 < cols)
    (ok : dimensions rows cols = .ok size) : size.rows = rows ∧ size.cols = cols := by
  unfold dimensions at ok
  split at ok
  next =>
    cases ok
    exact ⟨orDefault_of_pos tall, orDefault_of_pos wide⟩
  next => cases ok

/-- A second run of `dimensions`, on the size that the first returned, never fails. -/
theorem dimensions_again (size : Size) : dimensions size.rows size.cols = .ok size := by
  have tall : orDefault size.rows 24 = size.rows := orDefault_of_pos size.tall.1
  have wide : orDefault size.cols 80 = size.cols := orDefault_of_pos size.wide.1
  have fits : orDefault size.rows 24 ≤ 200 ∧ orDefault size.cols 80 ≤ 500 := by
    rw [tall, wide]
    exact ⟨size.tall.2, size.wide.2⟩
  unfold dimensions
  rw [dif_pos fits]
  simp only [tall, wide]

/-- No check of a request finds that something exists. -/
theorem normalise_code {first : ExecRequest} {status : Status} (failed : normalise first = .error status) :
    status.code ≠ .alreadyExists := by
  unfold normalise checkProtocol checkPty validateName dimensions at failed
  repeat' split at failed
  all_goals cases failed <;> exact Code.noConfusion

/-- A normalised request carries an accepted size. -/
theorem normalise_size {first request : ExecRequest} (ok : normalise first = .ok request) :
    ∃ size : Size, request.terminalRows = size.rows ∧ request.terminalCols = size.cols := by
  obtain ⟨_, _, ok⟩ := bind_ok ok
  obtain ⟨_, _, ok⟩ := bind_ok ok
  obtain ⟨_, _, ok⟩ := bind_ok ok
  obtain ⟨size, _, ok⟩ := bind_ok ok
  cases ok
  exact ⟨size, rfl, rfl⟩

/-- A request that asks for a resize asks for the very size it gets. -/
theorem resizeOf_some {request : ExecRequest} {size : Size} (ok : resizeOf request = .ok (some size)) :
    request.terminalRows = size.rows ∧ request.terminalCols = size.cols := by
  unfold resizeOf at ok
  split at ok
  next given =>
    cases sized : dimensions request.terminalRows request.terminalCols with
    | error => rw [sized] at ok; cases ok
    | ok other =>
      rw [sized] at ok
      cases ok
      obtain ⟨rows, cols⟩ := dimensions_of_pos given.1 given.2 sized
      exact ⟨rows.symm, cols.symm⟩
  next => cases ok

theorem resizeOf_none {request : ExecRequest} (ok : resizeOf request = .ok none) :
    ¬(0 < request.terminalRows ∧ 0 < request.terminalCols) := by
  unfold resizeOf at ok
  split at ok
  next =>
    cases sized : dimensions request.terminalRows request.terminalCols <;>
      rw [sized] at ok <;> cases ok
  next absent => exact absent

/-- The normalised request of a plain shell. -/
def shell : ExecRequest :=
  { protocolVersion := PROTOCOL, argv := ["sh".toList], user := "pbox".toList, allocatePty := true,
    terminalRows := 24, terminalCols := 80, sessionName := "main".toList }

theorem shell_normal : normalise shell = .ok shell := rfl

end Pbox.Agent.Session
