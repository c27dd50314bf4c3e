import Pbox.Cli.RecipeApply
import Pbox.Cli.Viewport
import Pbox.Lib.Lines
import Pbox.Lib.Screen
import Pbox.Lib.Split

/-! `SessionViewer`: snapshots of a session's screen, each painted over the one before, with a status line below
them. The terminal that shows them is that of `Lib.Screen`; what the viewer knows of it comes from an emulator that it
feeds with the same bytes. -/

namespace Pbox.Cli.Viewer
open Pbox.Lib.Strings Pbox.Lib.Numerals Pbox.Lib.Ecma48 Pbox.Lib.Utf8
open Pbox.Cli.Viewport (ViewportFilter push isFinal)
open Pbox.Cli.RecipeApply (safeTerminalText)

/-- The crate `unicode-width`: the columns of a character, and of a text. -/
structure UnicodeWidth where
  char : Char → Option Nat
  str : Text → Nat

/-- `character.width().unwrap_or(0)` -/
def UnicodeWidth.cells (widths : UnicodeWidth) (c : Char) : Nat := (widths.char c).getD 0

/-- `vt100::Parser` and its screen. -/
structure Emulator (State : Type) where
  new : Nat → Nat → State
  process : State → Bytes → State
  setSize : State → Nat → Nat → State
  cursorPosition : State → Nat × Nat
  cursorStateFormatted : State → Bytes
  attributesFormatted : State → Bytes

/-! The status line. -/

def ansiDim : Text := "\x1b[2m".toList

def ansiCyan : Text := "\x1b[36m".toList

def ansiReset : Text := "\x1b[0m".toList

/-- `CliStyle::paint` -/
def paint (enabled : Bool) (code value : Text) : Text :=
  if enabled ∧ code ≠ [] then code ++ safeTerminalText value ++ ansiReset else safeTerminalText value

/-- `LxcUsage`, with its shares in percent as they are printed. -/
structure Usage where
  cpu : Option Nat
  mem : Option Nat
  disk : Option Nat
  deriving DecidableEq, Repr

def percent : Option Nat → Text
  | some share => showNat share ++ ['%']
  | none => "—".toList

def resourceLabel : Option Usage → Text
  | none => "⚙ CPU —  🧠 RAM —  💾 DISK —".toList
  | some usage => "⚙ CPU ".toList ++ percent usage.cpu ++ "  🧠 RAM ".toList ++ percent usage.mem ++
      "  💾 DISK ".toList ++ percent usage.disk

/-- The characters that fit, behind so many columns that are taken, and the columns taken behind them. -/
def fitting (widths : UnicodeWidth) (room : Nat) : Nat → Text → Text × Nat
  | used, [] => ([], used)
  | used, c :: rest =>
    if room < used + widths.cells c then ([], used)
    else
      let (text, total) := fitting widths room (used + widths.cells c) rest
      (c :: text, total)

def fitViewLabel (widths : UnicodeWidth) (label suffix : Text) (width : Nat) : Text :=
  let room := width - (widths.str suffix + 6)
  let name := (fitting widths room 0 (safeTerminalText label)).1
  let (output, used) := fitting widths width 0 (' ' :: name ++ "  |  ".toList ++ suffix)
  output ++ List.replicate (width - used) ' '

def fitResourceBar (widths : UnicodeWidth) (label suffix : Text) (usage : Option Text) (width : Nat) : Text :=
  match usage.filter fun usage => widths.str usage + 40 ≤ width with
  | some usage => fitViewLabel widths label suffix (width - widths.str usage - 2) ++ ' ' :: usage ++ [' ']
  | none => fitViewLabel widths label suffix width

def percentColour : Option Nat → Text
  | some share =>
    if 95 ≤ share then "\x1b[31m".toList else if 80 ≤ share then "\x1b[33m".toList else "\x1b[32m".toList
  | none => ansiDim

def trimEnd (value : Text) : Text := value.rdropWhile isWhitespace

/-- One pass of the loop over the metrics. -/
def colourMetric (metric : Text) : Text :=
  match rsplitOnce ' ' (trimEnd metric) with
  | none => metric
  | some (label, value) =>
    let share := (stripSuffix ['%'] value).bind (parseUnsigned 4294967295)
    paint true ansiDim (label ++ [' ']) ++ paint true (percentColour share) value ++ metric.drop (trimEnd metric).length

def colourLeft (left : Text) : Text :=
  match Lib.Split.splitOnce "  |  ".toList left with
  | some (name, controls) =>
    paint true (ansiDim ++ ansiCyan) name ++ paint true ansiDim ("  |  ".toList ++ controls)
  | none => paint true (ansiDim ++ ansiCyan) left

def colourResourceBar (bar : Text) (usage : Option Text) (enabled : Bool) : Text :=
  if enabled then
    let start := (usage.bind fun usage => Lib.Split.rfind usage bar).getD bar.length
    colourLeft (bar.take start) ++
      "  ".toList.intercalate ((Lib.Split.split "  ".toList (bar.drop start)).map colourMetric)
  else bar

/-! The terminal's state as the viewer keeps it. -/

/-- Times are in milliseconds. -/
structure StatusState (State : Type) where
  parser : State
  filter : ViewportFilter
  rows : Nat
  cols : Nat
  label : Text
  finished : Bool
  readOnly : Bool
  colour : Bool
  /-- Whether samples of the resources arrive. -/
  resources : Bool
  usage : Option (Nat × Usage)

/-- A control sequence. -/
def csi (body : Text) (final : Char) : Text := '\x1b' :: '[' :: body ++ [final]

def position (row col : Nat) : Text := csi (showNat row ++ ';' :: showNat col) 'H'

/-- The front of a cursor snapshot as a control sequence, and what is behind it. -/
def cursorSequence : Bytes → Option (Bytes × UInt8 × Bytes)
  | 0x1b :: 0x5b :: rest =>
    match rest.dropWhile fun byte => !isFinal byte with
    | final :: behind => some (rest.takeWhile fun byte => !isFinal byte, final, behind)
    | [] => none
  | _ => none

def relativeRow (top : Nat) (body : Bytes) : Text :=
  let params := (fromUtf8Lossy body).splitOn ';'
  let row := (params[0]?.bind (parseUnsigned 65535)).getD 1
  let col := (params[1]?.bind (parseUnsigned 65535)).getD 1
  position (max (row - (top - 1)) 1) col

/-- Every pass of the loop takes a byte at least. -/
def relativeFrom (top : Nat) : Nat → Bytes → Bytes
  | 0, _ => []
  | _, [] => []
  | fuel + 1, byte :: rest =>
    match cursorSequence (byte :: rest) with
    | some (body, final, behind) =>
      (if final = 0x48 then utf8 (relativeRow top body) else ESC :: 0x5b :: body ++ [final]) ++
        relativeFrom top fuel behind
    | none => byte :: relativeFrom top fuel rest

def relativeCursor (bytes : Bytes) (top : Nat) : Bytes := relativeFrom top bytes.length bytes

def showCursor : Text := "\x1b[?25h".toList

def hideCursor : Text := "\x1b[?25l".toList

/-- The cursor's state without whether it can be seen. -/
def withoutVisibility (cursor : Bytes) : Bytes :=
  if (utf8 showCursor).isPrefixOf cursor then cursor.drop (utf8 showCursor).length
  else if (utf8 hideCursor).isPrefixOf cursor then cursor.drop (utf8 hideCursor).length
  else cursor

/-- A usage that is younger than fifteen seconds. -/
def recent (now : Nat) (usage : Option (Nat × Usage)) : Option (Nat × Usage) :=
  usage.filter fun sample => (now - sample.1) / 1000 < 15

section Status
variable {State : Type} (widths : UnicodeWidth) (emulator : Emulator State)

namespace StatusState

def contentRows (state : StatusState State) : Nat := if 3 ≤ state.rows then state.rows - 1 else state.rows

def margins (state : StatusState State) : Bytes :=
  let (row, col) := emulator.cursorPosition state.parser
  utf8 ("\x1b[?6l".toList ++ csi ("1;".toList ++ showNat state.contentRows) 'r' ++
    (if state.filter.originMode then "\x1b[?6h".toList else []) ++
    position (min (row + 1) state.contentRows) (col + 1))

def barText (now : Nat) (state : StatusState State) : Text :=
  let usage := if state.resources then some (resourceLabel ((recent now state.usage).map Prod.snd)) else none
  let suffix := if state.readOnly then "Read-only · Ctrl+C exit".toList else "Ctrl+] detach".toList
  colourResourceBar (fitResourceBar widths state.label suffix usage state.cols) usage state.colour

def bar (now : Nat) (state : StatusState State) : Bytes :=
  if state.rows < 3 then []
  else
    let cursor := withoutVisibility (emulator.cursorStateFormatted state.parser)
    utf8 ("\x1b[?6l".toList ++ csi (showNat state.rows ++ ";1".toList) 'H' ++ ansiReset ++
        state.barText widths now ++ ansiReset) ++
      (if state.filter.originMode then utf8 "\x1b[?6h".toList else []) ++
      (if state.filter.originMode then relativeCursor cursor (max state.filter.top 1) else cursor) ++
      emulator.attributesFormatted state.parser

/-- The loop over the pieces that the filter lets out. -/
def outputPieces (state : StatusState State) : List (Bytes × Bool) → StatusState State × Bytes
  | [] => (state, [])
  | (bytes, resetMargins) :: rest =>
    let state := { state with parser := emulator.process state.parser bytes }
    if resetMargins then
      let state := { state with filter := { state.filter with top := 1 } }
      let margins := state.margins emulator
      let state := { state with parser := emulator.process state.parser margins }
      let (state, later) := outputPieces state rest
      (state, bytes ++ margins ++ later)
    else
      let (state, later) := outputPieces state rest
      (state, bytes ++ later)

def output (now : Nat) (state : StatusState State) (bytes : Bytes) : StatusState State × Bytes :=
  let (filter, pieces) := push state.contentRows state.filter bytes
  let (state, output) := outputPieces emulator { state with filter } pieces
  (state, output ++ if state.filter.canPaint then state.bar widths emulator now else [])

/-- `TerminalStatus::refresh_resources`, with the samples that have come since, the time, and that of painting. -/
def refreshResources (samples : List (Option Usage)) (now painted : Nat) (state : StatusState State) :
    StatusState State × Bytes :=
  let before := resourceLabel (state.usage.map Prod.snd)
  let sample := if state.resources then samples.getLast? else none
  let usage := match sample with
    | some sample => sample.map fun usage => (now, usage)
    | none => state.usage
  let state := { state with usage := recent now usage }
  let after := resourceLabel (state.usage.map Prod.snd)
  (state, if before ≠ after ∧ state.filter.canPaint then state.bar widths emulator painted else [])

/-- `TerminalStatus::resize` -/
def resize (rows cols now : Nat) (state : StatusState State) : StatusState State × Bytes :=
  let rows := max rows 1
  let cols := max cols 1
  let state := { state with
    rows, cols, parser := emulator.setSize state.parser rows cols, filter := { state.filter with top := 1 } }
  let margins := state.margins emulator
  let state := { state with parser := emulator.process state.parser margins }
  (state, margins ++ state.bar widths emulator now)

/-- `TerminalStatus::enter`; without a terminal at both ends, or on a small one, there is no status line. -/
def enter (boxName session : Text) (interactive colour : Bool) (rows cols now : Nat) :
    Option (StatusState State × Bytes) :=
  if interactive = false ∨ rows < 3 ∨ cols < 8 then none
  else
    let state : StatusState State :=
      { parser := emulator.new rows cols, filter := {}, rows, cols, label := boxName ++ ':' :: session,
        finished := false, readOnly := true, colour, resources := false, usage := none }
    let initial := "\r\n\r\n".toList ++ csi ("1;".toList ++ showNat state.contentRows) 'r' ++
      csi (showNat state.contentRows ++ ";1".toList) 'H'
    let state := { state with parser := emulator.process state.parser (utf8 initial) }
    some (state, utf8 initial ++ state.bar widths emulator now)

end StatusState

/-! The viewer. -/

structure SessionViewer (State : Type) where
  status : Option (StatusState State)
  previous : List Text
  previousSize : Nat × Nat

/-- What a call of `render` finds outside: the terminal's size, samples of the resources, the time at its start and
when it paints. -/
structure Outside where
  size : Nat × Nat
  samples : List (Option Usage)
  now : Nat
  painted : Nat

/-- The rows of a line that is cut where a character has no room. -/
def wrapFrom (width : Nat) (part : Text) (used : Nat) : Text → List Text
  | [] => [part]
  | c :: rest =>
    if width < used + widths.cells c ∧ part ≠ [] then part :: wrapFrom width [c] (widths.cells c) rest
    else wrapFrom width (part ++ [c]) (used + widths.cells c) rest

/-- The rows that a text takes on a terminal with so many columns. -/
def wrapped (cols : Nat) (text : Text) : List Text :=
  (Lib.Lines.lines text).flatMap fun line => wrapFrom widths (max (cols - 1) 1) [] 0 (safeTerminalText line)

def up (count : Nat) : Text := csi (showNat count) 'A'

/-- What is written for new rows over those of before, in place where all of them are on the screen. -/
def repaint (inPlace : Bool) (previous lines : List Text) : Text :=
  let count := if inPlace then max previous.length lines.length else lines.length
  (if inPlace ∧ previous ≠ [] then up previous.length else []) ++
    (List.range count).flatMap (fun i =>
      (if inPlace then "\r\x1b[2K".toList else []) ++ lines[i]?.getD [] ++ "\r\n".toList) ++
    (if lines.length < count then up (count - lines.length) else [])

namespace SessionViewer

def new (boxName session : Text) (interactive colour : Bool) (size : Nat × Nat) (now : Nat) :
    SessionViewer State × Bytes :=
  match StatusState.enter widths emulator boxName session interactive colour size.1 size.2 now with
  | some (status, bytes) => (⟨some status, [], size⟩, bytes)
  | none =>
    (⟨none, [], size⟩, utf8 (
      paint colour "\x1b[1;36m".toList ("Watching ".toList ++ boxName ++ ':' :: session ++ " (read-only)".toList) ++
        "\n  ".toList ++
        paint colour ansiDim "Ctrl+C exits the viewer. The session keeps running.".toList ++ ['\n']))

/-- `SessionViewer::monitor_resources` -/
def monitorResources (viewer : SessionViewer State) : SessionViewer State :=
  { viewer with status := viewer.status.map fun status => { status with resources := true } }

/-- What is painted, where the rows have changed. -/
def showLines (outside : Outside) (text : Text) (viewer : SessionViewer State) : SessionViewer State × Bytes :=
  let lines := wrapped widths outside.size.2 text
  if lines = viewer.previous ∧ outside.size = viewer.previousSize then (viewer, [])
  else
    match viewer.status with
    | some status =>
      let available := status.contentRows - 1
      let inPlace := viewer.previousSize == outside.size && viewer.previous.length ≤ available &&
        lines.length ≤ available
      let (status, output) := status.output widths emulator outside.painted (utf8 (repaint inPlace viewer.previous lines))
      (⟨some status, lines, outside.size⟩, output)
    | none => (⟨none, lines, outside.size⟩, utf8 (text ++ "\n\n".toList))

/-- `SessionViewer::render` with everything it writes, in order. -/
def render (outside : Outside) (text : Text) (viewer : SessionViewer State) : SessionViewer State × Bytes :=
  match viewer.status with
  | some status =>
    let (status, refreshed) := status.refreshResources widths emulator outside.samples outside.now outside.painted
    let (status, resized) :=
      if outside.size ≠ viewer.previousSize then
        status.resize widths emulator outside.size.1 outside.size.2 outside.painted
      else (status, [])
    let (viewer, shown) := showLines widths emulator outside text { viewer with status := some status }
    (viewer, refreshed ++ resized ++ shown)
  | none => showLines widths emulator outside text viewer

end SessionViewer

/-- What happens to a viewer. -/
inductive Event where
  | monitorResources
  | render (outside : Outside) (text : Text)

def step (viewer : SessionViewer State) : Event → SessionViewer State × Bytes
  | .monitorResources => (viewer.monitorResources, [])
  | .render outside text => viewer.render widths emulator outside text

end Status

end Pbox.Cli.Viewer
