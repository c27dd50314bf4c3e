import Pbox.Agent.Session
import Mathlib.Data.List.Basic

/-! What a session keeps under its lock: the emulated screen, the recorded size and the
viewers. Each locked section of the source is one function here. The emulator itself is a
parameter, with the two facts about sizes that the sections rely on. -/

namespace Pbox.Agent.Terminal
open Pbox.Agent.Session

/-- The keyboard modes that the emulator's callbacks keep. -/
structure TerminalModes where
  headless : Bool := false
  replies : Bytes := []
  kitty : Nat := 0
  stack : List Nat := []
  modifyKeys : Nat := 0
  focus : Bool := false
  cursorStyle : Option Nat := none
  cursorBlink : Option Bool := none
  deriving DecidableEq, Repr

/-- The operations of the emulator on its screens. `process` runs the callbacks, `plain` is a
parser without any; `appendScreen` is the client library's text of a normal screen. -/
structure Vt100 (Screen : Type) where
  new : Nat → Nat → Nat → Screen
  size : Screen → Nat × Nat
  setSize : Screen → Nat → Nat → Screen
  process : Screen → TerminalModes → Bytes → Screen × TerminalModes
  plain : Screen → Bytes → Screen
  alternateScreen : Screen → Bool
  stateDiff : Screen → Screen → Bytes
  appendScreen : Screen → Bytes

/-- A screen has the size it was last given, whatever it processes. -/
structure Vt100.Sized {Screen : Type} (vt : Vt100 Screen) : Prop where
  new : ∀ rows cols history, vt.size (vt.new rows cols history) = (rows, cols)
  setSize : ∀ screen rows cols, vt.size (vt.setSize screen rows cols) = (rows, cols)
  process : ∀ screen modes bytes, vt.size (vt.process screen modes bytes).1 = vt.size screen

structure Parser (Screen : Type) where
  screen : Screen
  callbacks : TerminalModes

def HISTORY_LINES : Nat := 10000

def decimal (n : Nat) : Bytes := ascii n.repr

def restoreModes (modes : TerminalModes) : Bytes :=
  (match modes.cursorStyle with
    | some style => ascii "\x1b[" ++ decimal style ++ ascii " q"
    | none => []) ++
  (match modes.cursorBlink with
    | some blink => ascii "\x1b[?12" ++ ascii (if blink then "h" else "l")
    | none => []) ++
  ascii "\x1b[<16u" ++
  (match modes.stack with
    | initial :: pushed =>
      ascii "\x1b[=" ++ decimal initial ++ ascii "u" ++
        (pushed ++ [modes.kitty]).flatMap fun flags => ascii "\x1b[>" ++ decimal flags ++ ascii "u"
    | [] => ascii "\x1b[=" ++ decimal modes.kitty ++ ascii "u") ++
  ascii "\x1b[>4;" ++ decimal modes.modifyKeys ++ ascii "m\x1b[?1004" ++
  ascii (if modes.focus then "h" else "l")

section Emulator
variable {Screen : Type} (vt : Vt100 Screen)

def redraw (parser : Parser Screen) : Bytes :=
  (if vt.alternateScreen parser.screen then
    -- Only the alternate buffer is rebuilt, as a difference to a blank one of the same size.
    let blank := vt.plain (vt.new (vt.size parser.screen).1 (vt.size parser.screen).2 0)
      (ascii "\x1b[?1049h")
    ascii "\x1b[?1049h" ++ vt.stateDiff parser.screen blank
  else vt.appendScreen parser.screen) ++ restoreModes parser.callbacks

def setSize (parser : Parser Screen) (size : Size) : Parser Screen :=
  { parser with screen := vt.setSize parser.screen size.rows size.cols }

/-- `process` with the flag that says whether the callbacks answer queries themselves. -/
def process (parser : Parser Screen) (headless : Bool) (bytes : Bytes) : Parser Screen :=
  let after := vt.process parser.screen { parser.callbacks with headless := headless } bytes
  ⟨after.1, after.2⟩

/-- The data under a session's lock. A viewer's sender is its number. -/
structure State (Screen : Type) where
  info : TerminalSession
  screen : Parser Screen
  generation : Nat
  outputs : List Nat

/-- The state of a session that `prepare` inserts. -/
def State.new (first : ExecRequest) (createdUnix : Nat) : State Screen :=
  { info :=
      { name := first.sessionName, user := first.user, cwd := first.cwd, argv := first.argv,
        attached := false, createdUnix := createdUnix, rows := first.terminalRows,
        cols := first.terminalCols }
    screen := ⟨vt.new first.terminalRows first.terminalCols HISTORY_LINES, {}⟩
    generation := 0
    outputs := [] }

def State.resize (state : State Screen) (size : Size) : State Screen :=
  { state with
    screen := setSize vt state.screen size
    info := { state.info with rows := size.rows, cols := size.cols } }

/-- The locked section of `attach`: the first event of the new viewer is the redraw, unless
this call created the session. -/
def State.attach (state : State Screen) (created : Bool) (size : Size) (output : Nat) :
    State Screen × Option Delivery :=
  let resized := state.resize vt size
  ({ resized with outputs := state.outputs ++ [output] },
    if created then none else some (.ok ⟨some (.stdout (redraw vt resized.screen))⟩))

/-- The locked section of `attachment`. -/
def State.attachment (state : State Screen) (resize : Option Size) : State Screen :=
  match resize with
  | some size => state.resize vt size
  | none => state

def takeReplies (parser : Parser Screen) : Bytes × Parser Screen :=
  (parser.callbacks.replies, { parser with callbacks := { parser.callbacks with replies := [] } })

def retain (closed : Nat → Bool) (outputs : List Nat) : List Nat :=
  outputs.filter fun output => !closed output

/-- Nobody watches, so the callbacks answer the program's queries. -/
def State.headless (state : State Screen) (closed : Nat → Bool) : Bool :=
  !state.outputs.any fun output => !closed output

/-- What the screen makes of an event, with the replies for the input queue. -/
def absorb (parser : Parser Screen) (headless : Bool) (event : Delivery) : Bytes × Parser Screen :=
  match event with
  | .ok ⟨some (.stdout bytes)⟩ => takeReplies (process vt parser headless bytes)
  | _ => ([], parser)

/-- The locked section of `publish_output`: the new state, the replies for the input queue and
the viewers that the event goes to. -/
def State.publish (state : State Screen) (closed : Nat → Bool) (event : Delivery) :
    State Screen × Bytes × List Nat :=
  let absorbed := absorb vt state.screen (state.headless closed) event
  let outputs := retain closed state.outputs
  ({ state with screen := absorbed.2, outputs := outputs }, absorbed.1, outputs)

theorem absorb_size {vt : Vt100 Screen} (sized : vt.Sized) (parser : Parser Screen) (headless : Bool)
    (event : Delivery) :
    vt.size (absorb vt parser headless event).2.screen = vt.size parser.screen := by
  unfold absorb
  split
  next => exact sized.process _ _ _
  next => rfl

end Emulator

/-- An emulator whose screen is its size and the text it was given. -/
def transcript : Vt100 ((Nat × Nat) × Bytes) where
  new rows cols _ := ((rows, cols), [])
  size screen := screen.1
  setSize screen rows cols := ((rows, cols), screen.2)
  process screen modes bytes := ((screen.1, screen.2 ++ bytes), modes)
  plain screen bytes := (screen.1, screen.2 ++ bytes)
  alternateScreen _ := false
  stateDiff screen _ := screen.2
  appendScreen screen := screen.2

theorem transcript_sized : transcript.Sized where
  new _ _ _ := rfl
  setSize _ _ _ := rfl
  process _ _ _ := rfl

end Pbox.Agent.Terminal
