import Mathlib.Algebra.Group.Nat.Defs
import Pbox.Lib.Strings
import Pbox.Lib.Suffix

/-! `terminal_history`: the lines that have scrolled off the normal screen of a terminal, read through a window of the
height of the screen that is moved from the oldest line to the live screen, and cut to a bounded size. -/

namespace Pbox.Agent.TerminalHistory
open Pbox.Lib.Strings Pbox.Lib.Suffix

/-- A terminal emulator; `process` feeds a text to a screen. -/
structure Vt100 where
  Screen : Type
  /-- Rows and columns. -/
  size : Screen → Nat × Nat
  alternateScreen : Screen → Bool
  process : Text → Screen → Screen
  setScrollback : Nat → Screen → Screen
  scrollback : Screen → Nat
  /-- The texts of the rows that are shown, from a column on and so many columns wide. -/
  rows : Screen → Nat → Nat → List Text

def usizeMax : Nat := 2 ^ 64 - 1

/-- Back from the alternate screen to the normal one. -/
def LEAVE : Text := "\x1b[?1049l".toList

def LIMIT : Nat := 1024 * 1024

def lineCost (line : Text) : Nat := (utf8 line).length + 8

section History
variable (vt : Vt100)

/-- The loop over the windows; without fuel it has not come to an end. -/
def windows (rows cols : Nat) : Nat → vt.Screen → Nat → List Text → Option (List Text)
  | 0, _, _, _ => none
  | fuel + 1, copy, remaining, lines =>
    if 0 < remaining then
      let copy := vt.setScrollback remaining copy
      let take := min remaining rows
      windows rows cols fuel copy (remaining - take) (lines ++ (vt.rows copy 0 cols).take take)
    else some lines

def terminalHistory (fuel : Nat) (screen : vt.Screen) : Option (List Text) :=
  let copy := if vt.alternateScreen screen then vt.process LEAVE screen else screen
  let copy := vt.setScrollback usizeMax copy
  let count := vt.scrollback copy
  (windows vt (vt.size screen).1 (vt.size screen).2 fuel copy count []).map (lastWithin lineCost LIMIT)

end History

/-- What an emulator does with the lines that have scrolled off its normal screen and the ones that are on it: leaving the
alternate screen keeps both; on the normal screen scrolling back shows rows from so many lines before the live screen on,
as far as there are any. -/
structure Vt100.Lawful (vt : Vt100) (history live : vt.Screen → List Text) : Prop where
  leave : ∀ screen, vt.alternateScreen screen = true →
    vt.alternateScreen (vt.process LEAVE screen) = false ∧
      history (vt.process LEAVE screen) = history screen ∧ vt.size (vt.process LEAVE screen) = vt.size screen
  scroll : ∀ screen count, vt.alternateScreen screen = false →
    vt.alternateScreen (vt.setScrollback count screen) = false ∧
      history (vt.setScrollback count screen) = history screen ∧
      vt.size (vt.setScrollback count screen) = vt.size screen
  clamp : ∀ screen count, vt.alternateScreen screen = false →
    vt.scrollback (vt.setScrollback count screen) = min count (history screen).length
  shown : ∀ screen, vt.alternateScreen screen = false →
    vt.rows screen 0 (vt.size screen).2 =
      ((history screen ++ live screen).drop ((history screen).length - vt.scrollback screen)).take (vt.size screen).1
  /-- The lines are in memory. -/
  counted : ∀ screen, (history screen).length ≤ usizeMax

section Laws
variable {vt : Vt100} {history live : vt.Screen → List Text}

/-- A window with enough lines above the live screen holds lines of the history only. -/
theorem window_lines (lawful : vt.Lawful history live) {screen : vt.Screen} {remaining take : Nat}
    (normal : vt.alternateScreen screen = false) (inside : remaining ≤ (history screen).length)
    (short : take ≤ remaining) (fits : take ≤ (vt.size screen).1) :
    (vt.rows (vt.setScrollback remaining screen) 0 (vt.size screen).2).take take =
      ((history screen).drop ((history screen).length - remaining)).take take := by
  obtain ⟨still, same, sized⟩ := lawful.scroll screen remaining normal
  have offset : vt.scrollback (vt.setScrollback remaining screen) = remaining := by
    rw [lawful.clamp screen remaining normal]
    exact Nat.min_eq_left inside
  have shown := lawful.shown (vt.setScrollback remaining screen) still
  rw [sized, same, offset] at shown
  rw [shown, List.take_take, Nat.min_eq_left fits, List.drop_append_of_le_length (Nat.sub_le _ _),
    List.take_append_of_le_length]
  rw [List.length_drop]
  omega

/-- The windows follow each other without a gap: with the lines above the remaining ones read, the loop reads the rest. -/
theorem windows_all (lawful : vt.Lawful history live) {rows cols fuel remaining : Nat} {copy : vt.Screen}
    {lines : List Text} (normal : vt.alternateScreen copy = false) (sized : vt.size copy = (rows, cols))
    (tall : 0 < rows) (inside : remaining ≤ (history copy).length)
    (before : lines = (history copy).take ((history copy).length - remaining)) (enough : remaining < fuel) :
    windows vt rows cols fuel copy remaining lines = some (history copy) := by
  induction fuel generalizing copy remaining lines with
  | zero => exact absurd enough (Nat.not_lt_zero _)
  | succ fuel ih =>
    rw [windows]
    split
    next more =>
      obtain ⟨still, same, kept⟩ := lawful.scroll copy remaining normal
      have window := @window_lines vt history live lawful copy remaining (min remaining rows) normal inside
        (Nat.min_le_left _ _) (by rw [sized]; exact Nat.min_le_right _ _)
      rw [sized] at window
      dsimp only
      rw [← same]
      apply ih still (kept.trans sized)
      · rw [same]
        omega
      · rw [window, before, same, ← List.take_add]
        congr 1
        omega
      · omega
    next =>
      have none_ : remaining = 0 := by omega
      rw [before, none_, Nat.sub_zero, List.take_length]

/-- The screen that is read shows the normal grid and has the same history. -/
theorem leave_normal (lawful : vt.Lawful history live) (screen : vt.Screen) {copy : vt.Screen}
    (left : (if vt.alternateScreen screen then vt.process LEAVE screen else screen) = copy) :
    vt.alternateScreen copy = false ∧ history copy = history screen ∧ vt.size copy = vt.size screen := by
  cases active : vt.alternateScreen screen with
  | true =>
    rw [if_pos active] at left
    rw [← left]
    exact lawful.leave screen active
  | false =>
    rw [if_neg (by rw [active]; nofun)] at left
    rw [← left]
    exact ⟨active, rfl, rfl⟩

theorem terminalHistory_eq (lawful : vt.Lawful history live) {screen : vt.Screen} (tall : 0 < (vt.size screen).1)
    {fuel : Nat} (enough : (history screen).length < fuel) :
    terminalHistory vt fuel screen = some (lastWithin lineCost LIMIT (history screen)) := by
  unfold terminalHistory
  generalize left : (if vt.alternateScreen screen then vt.process LEAVE screen else screen) = copy
  obtain ⟨normal, same, sized⟩ := leave_normal lawful screen left
  obtain ⟨still, kept, unsized⟩ := lawful.scroll copy usizeMax normal
  have count : vt.scrollback (vt.setScrollback usizeMax copy) = (history screen).length := by
    rw [lawful.clamp copy usizeMax normal, same]
    exact Nat.min_eq_right (lawful.counted screen)
  dsimp only
  rw [count, windows_all lawful still (unsized.trans sized) tall _ _ enough]
  · rw [kept, same]
    rfl
  · rw [kept, same]
  · rw [kept, same, Nat.sub_self]
    rfl

theorem terminal_history_longest (lawful : vt.Lawful history live) (screen : vt.Screen)
    (tall : 0 < (vt.size screen).1) {fuel : Nat} (enough : (history screen).length < fuel) :
    (∃ lines, terminalHistory vt fuel screen = some lines ∧
      LongestSuffix lineCost LIMIT (history screen) lines) ∧
    ∀ other, history other = history screen → 0 < (vt.size other).1 →
      terminalHistory vt fuel other = terminalHistory vt fuel screen := by
  constructor
  · exact ⟨_, terminalHistory_eq lawful tall enough, lastWithin_longest (history screen)⟩
  · intro other same high
    rw [terminalHistory_eq lawful tall enough, terminalHistory_eq lawful high (by rw [same]; exact enough), same]

end Laws

/-! An emulator of that kind, with the grids of the two screens. -/

structure Grid where
  scrollback : List Text
  live : List Text
  offset : Nat
  counted : scrollback.length ≤ usizeMax

structure Terminal where
  normal : Grid
  alternate : Option Grid
  height : Nat
  width : Nat

def Grid.shown (grid : Grid) (height : Nat) : List Text :=
  ((grid.scrollback ++ grid.live).drop (grid.scrollback.length - grid.offset)).take height

def Grid.scrolled (grid : Grid) (count : Nat) : Grid := { grid with offset := min count grid.scrollback.length }

def Terminal.active (terminal : Terminal) : Grid := terminal.alternate.getD terminal.normal

def emulator : Vt100 where
  Screen := Terminal
  size terminal := (terminal.height, terminal.width)
  alternateScreen terminal := terminal.alternate.isSome
  process text terminal := if text = LEAVE then { terminal with alternate := none } else terminal
  setScrollback count terminal :=
    match terminal.alternate with
    | some grid => { terminal with alternate := some (grid.scrolled count) }
    | none => { terminal with normal := terminal.normal.scrolled count }
  scrollback terminal := terminal.active.offset
  rows terminal start width := (terminal.active.shown terminal.height).map fun line => (line.drop start).take width

def historyText (terminal : Terminal) : List Text := terminal.normal.scrollback.map (List.take terminal.width)
def liveText (terminal : Terminal) : List Text := terminal.normal.live.map (List.take terminal.width)

theorem emulator_lawful : emulator.Lawful historyText liveText where
  leave terminal _ := ⟨rfl, rfl, rfl⟩
  scroll terminal count normal := by
    obtain ⟨grid, alternate, height, width⟩ := terminal
    cases alternate with
    | some other => cases normal
    | none => exact ⟨rfl, rfl, rfl⟩
  clamp terminal count normal := by
    obtain ⟨grid, alternate, height, width⟩ := terminal
    cases alternate with
    | some other => cases normal
    | none =>
      show min count grid.scrollback.length = min count (historyText ⟨grid, none, height, width⟩).length
      rw [historyText, List.length_map]
  shown terminal normal := by
    obtain ⟨grid, alternate, height, width⟩ := terminal
    cases alternate with
    | some other => cases normal
    | none =>
      show (grid.shown height).map (fun line => (line.drop 0).take width) = _
      unfold Grid.shown historyText liveText
      rw [List.map_take, List.map_drop, List.map_append, List.length_map]
      rfl
  counted terminal := by
    obtain ⟨grid, alternate, height, width⟩ := terminal
    show (grid.scrollback.map (List.take width)).length ≤ usizeMax
    rw [List.length_map]
    exact grid.counted

/-- An editor on the alternate screen, over three lines of history. -/
def editor : Terminal where
  normal := ⟨["one".toList, "two".toList, "three".toList], ["$ vi".toList, []], 0, by decide⟩
  alternate := some ⟨[], ["~".toList, "~".toList], 0, by decide⟩
  height := 2
  width := 80

theorem editor_history :
    (∃ lines, terminalHistory emulator 4 editor = some lines ∧
      LongestSuffix lineCost LIMIT (historyText editor) lines) ∧
    ∀ other, historyText other = historyText editor → 0 < (emulator.size other).1 →
      terminalHistory emulator 4 other = terminalHistory emulator 4 editor :=
  terminal_history_longest emulator_lawful editor (by decide) (by decide)

end Pbox.Agent.TerminalHistory
