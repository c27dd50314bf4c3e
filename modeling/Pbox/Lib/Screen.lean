import Pbox.Lib.Numerals

/-! The screen of a terminal: a cursor, a region that scrolls, and rows that characters are drawn into. What a row
is stays open, and so does how wide a character is. Control sequences without a meaning here have none. -/

namespace Pbox.Lib.Screen
open Pbox.Lib.Strings Pbox.Lib.Numerals

inductive Action where
  | put (character : Char)
  | carriageReturn
  | lineFeed
  | up (count : Nat)
  | eraseRow
  /-- The first rows scroll; zero stands for all of them. -/
  | margins (bottom : Nat)
  /-- Counted from one. -/
  | position (row col : Nat)
  | home
  deriving DecidableEq, Repr

inductive Mode where
  | ground
  | escape
  | csi (body : Text)
  deriving DecidableEq, Repr

def isParameter (c : Char) : Bool := c.isDigit || c == ';'

/-- A parameter of a sequence; one that is left out is zero. -/
def parameter (body : Text) (index : Nat) : Nat := (((body.splitOn ';')[index]?).bind digits).getD 0

/-- The actions of a control sequence. Attributes and whether the cursor can be seen are not part of a screen. -/
def sequenceActions (body : Text) (final : Char) : Option (List Action) :=
  if body.all isParameter then
    if final = 'm' then some []
    else if final = 'A' then some [.up (max 1 (parameter body 0))]
    else if final = 'K' ∧ parameter body 0 = 2 then some [.eraseRow]
    else if final = 'r' ∧ parameter body 0 ≤ 1 then some [.margins (parameter body 1)]
    else if final = 'H' then some [.position (max 1 (parameter body 0)) (max 1 (parameter body 1))]
    else none
  else if body = "?25".toList ∧ (final = 'h' ∨ final = 'l') then some []
  else if body = "?6".toList ∧ final = 'l' then some [.home]
  else none

def isPrinting (c : Char) : Bool := 32 ≤ c.toNat && !(127 ≤ c.toNat && c.toNat < 160)

def readChar (mode : Mode) (c : Char) : Option (Mode × List Action) :=
  match mode with
  | .ground =>
    if c = '\x1b' then some (.escape, [])
    else if c = '\r' then some (.ground, [.carriageReturn])
    else if c = '\n' then some (.ground, [.lineFeed])
    else if isPrinting c then some (.ground, [.put c])
    else none
  | .escape => if c = '[' then some (.csi [], []) else none
  | .csi body =>
    if 0x20 ≤ c.toNat ∧ c.toNat ≤ 0x3f then some (.csi (body ++ [c]), [])
    else (sequenceActions body c).map fun actions => (.ground, actions)

/-- What a text makes a terminal do; nothing is said about a text that holds something else. -/
def actions (mode : Mode) : Text → Option (Mode × List Action)
  | [] => some (mode, [])
  | c :: rest =>
    (readChar mode c).bind fun read => (actions read.1 rest).map fun later => (later.1, read.2 ++ later.2)

theorem actions_append (mode : Mode) (front back : Text) :
    actions mode (front ++ back) = (actions mode front).bind fun read =>
      (actions read.1 back).map fun later => (later.1, read.2 ++ later.2) := by
  induction front generalizing mode with
  | nil =>
    rw [actions, List.nil_append, Option.bind_some]
    exact Option.map_id'.symm
  | cons c rest ih =>
    rw [List.cons_append, actions, actions]
    cases readChar mode c with
    | none => rfl
    | some read =>
      simp only [Option.bind_some, ih]
      cases actions read.1 rest with
      | none => rfl
      | some later =>
        simp only [Option.bind_some, Option.map_some]
        cases actions later.1 back with
        | none => rfl
        | some last => simp only [Option.map_some, List.append_assoc]

/-- The text is read from its first to its last character, as these actions. -/
def Reads (text : Text) (doing : List Action) : Prop := actions .ground text = some (.ground, doing)

section Reading

theorem reads_nil : Reads [] [] := rfl

theorem Reads.append {front back : Text} {first later : List Action} (start : Reads front first)
    (rest : Reads back later) : Reads (front ++ back) (first ++ later) := by
  unfold Reads at *
  rw [actions_append, start, Option.bind_some, rest, Option.map_some]

theorem reads_flatten {α : Type} {items : List α} {text : α → Text} {doing : α → List Action}
    (each : ∀ item ∈ items, Reads (text item) (doing item)) : Reads (items.flatMap text) (items.flatMap doing) := by
  induction items with
  | nil => exact reads_nil
  | cons item rest ih =>
    rw [List.flatMap_cons, List.flatMap_cons]
    have first := each item List.mem_cons_self
    have later := ih fun other member => each other (List.mem_cons_of_mem _ member)
    exact first.append later

theorem reads_return : Reads "\r\n".toList [.carriageReturn, .lineFeed] := rfl

theorem reads_printing {text : Text} (printing : ∀ c ∈ text, isPrinting c = true) : Reads text (text.map .put) := by
  induction text with
  | nil => exact reads_nil
  | cons c rest ih =>
    have own := printing c List.mem_cons_self
    have later := ih fun other member => printing other (List.mem_cons_of_mem _ member)
    have solid : 32 ≤ c.toNat := by
      unfold isPrinting at own
      simp only [Bool.and_eq_true, decide_eq_true_eq] at own
      exact own.1
    have notEscape : c ≠ '\x1b' := by intro same; subst same; exact absurd solid (by decide)
    have notReturn : c ≠ '\r' := by intro same; subst same; exact absurd solid (by decide)
    have notFeed : c ≠ '\n' := by intro same; subst same; exact absurd solid (by decide)
    have first : readChar .ground c = some (.ground, [.put c]) := by
      unfold readChar
      simp only [if_neg notEscape, if_neg notReturn, if_neg notFeed, if_pos own]
    unfold Reads at later ⊢
    rw [actions, first, Option.bind_some, later, Option.map_some]
    rfl

theorem actions_body {inside : Text} (body : Text) (within : ∀ c ∈ inside, 0x20 ≤ c.toNat ∧ c.toNat ≤ 0x3f) :
    actions (.csi body) inside = some (.csi (body ++ inside), []) := by
  induction inside generalizing body with
  | nil =>
    rw [List.append_nil]
    rfl
  | cons c rest ih =>
    have later := ih (body ++ [c]) fun other member => within other (List.mem_cons_of_mem _ member)
    have first : readChar (.csi body) c = some (.csi (body ++ [c]), []) := if_pos (within c List.mem_cons_self)
    rw [actions, first, Option.bind_some, later, List.append_assoc]
    rfl

theorem reads_sequence {body : Text} {final : Char} {doing : List Action}
    (within : ∀ c ∈ body, 0x20 ≤ c.toNat ∧ c.toNat ≤ 0x3f) (ends : 0x40 ≤ final.toNat)
    (meant : sequenceActions body final = some doing) : Reads ('\x1b' :: '[' :: body ++ [final]) doing := by
  have inside := actions_body [] within
  have last : readChar (.csi body) final = some (.ground, doing) := by
    have notInside : ¬(0x20 ≤ final.toNat ∧ final.toNat ≤ 0x3f) := by omega
    unfold readChar
    dsimp only
    rw [if_neg notInside, meant, Option.map_some]
  change actions .ground ("\x1b[".toList ++ (body ++ [final])) = _
  have opened : actions .ground "\x1b[".toList = some (.csi [], []) := rfl
  rw [actions_append, opened, Option.bind_some, actions_append, inside]
  simp only [List.nil_append, Option.bind_some, actions, last, Option.map_some, List.append_nil]

end Reading

/-- The cursor, counted from zero, and the rows that scroll. -/
structure Frame where
  height : Nat
  cols : Nat
  row : Nat
  col : Nat
  top : Nat
  bottom : Nat
  deriving DecidableEq, Repr

def Frame.feed (frame : Frame) : Frame :=
  if frame.row = frame.bottom then frame
  else if frame.row + 1 < frame.height then { frame with row := frame.row + 1 }
  else frame

variable (width : Char → Nat)

/-- A character that has no room left goes to the beginning of the next row. -/
def Frame.act (frame : Frame) : Action → Frame
  | .put c =>
    if frame.cols < frame.col + width c then { frame.feed with col := width c }
    else { frame with col := frame.col + width c }
  | .carriageReturn => { frame with col := 0 }
  | .lineFeed => frame.feed
  | .up count =>
    { frame with row := if frame.top ≤ frame.row then max frame.top (frame.row - count) else frame.row - count }
  | .eraseRow => frame
  | .margins bottom =>
    let bottom := if bottom = 0 then frame.height else min bottom frame.height
    if 1 < bottom then { frame with row := 0, col := 0, top := 0, bottom := bottom - 1 } else frame
  | .position row col => { frame with row := min (row - 1) (frame.height - 1), col := min (col - 1) (frame.cols - 1) }
  | .home => { frame with row := 0, col := 0 }

def Frame.run (frame : Frame) (doing : List Action) : Frame := doing.foldl (Frame.act width) frame

/-- What rows are, and how characters are drawn into them. -/
structure Glyphs (Row : Type) where
  blank : Row
  put : Row → Nat → Char → Row

structure Terminal (Row : Type) where
  frame : Frame
  rows : Nat → Row

section Drawing
variable {Row : Type} (glyphs : Glyphs Row)

/-- A text that is drawn into a row from a column on. -/
def Glyphs.draw (row : Row) (col : Nat) : Text → Row
  | [] => row
  | c :: rest => Glyphs.draw (glyphs.put row col c) (col + width c) rest

/-- A row that shows the text and nothing else. -/
def Glyphs.line (text : Text) : Row := glyphs.draw width glyphs.blank 0 text

def Terminal.feed (terminal : Terminal Row) : Terminal Row where
  frame := terminal.frame.feed
  rows :=
    if terminal.frame.row = terminal.frame.bottom then fun index =>
      if terminal.frame.top ≤ index ∧ index < terminal.frame.bottom then terminal.rows (index + 1)
      else if index = terminal.frame.bottom then glyphs.blank
      else terminal.rows index
    else terminal.rows

def Terminal.act (terminal : Terminal Row) (action : Action) : Terminal Row where
  frame := terminal.frame.act width action
  rows :=
    match action with
    | .put c =>
      if terminal.frame.cols < terminal.frame.col + width c then
        let fed := (terminal.feed glyphs).rows
        Function.update fed terminal.frame.feed.row (glyphs.put (fed terminal.frame.feed.row) 0 c)
      else
        Function.update terminal.rows terminal.frame.row
          (glyphs.put (terminal.rows terminal.frame.row) terminal.frame.col c)
    | .lineFeed => (terminal.feed glyphs).rows
    | .eraseRow => Function.update terminal.rows terminal.frame.row glyphs.blank
    | _ => terminal.rows

def Terminal.run (terminal : Terminal Row) (doing : List Action) : Terminal Row :=
  doing.foldl (Terminal.act width glyphs) terminal

/-- What is on the screen behind a text, where the terminal can read it. -/
def Terminal.write (terminal : Terminal Row) (text : Text) : Option (Terminal Row) :=
  match actions .ground text with
  | some (.ground, doing) => some (terminal.run width glyphs doing)
  | _ => none

theorem Terminal.write_of_reads (terminal : Terminal Row) {text : Text} {doing : List Action} (read : Reads text doing) :
    terminal.write width glyphs text = some (terminal.run width glyphs doing) := by
  unfold Terminal.write
  rw [read]

theorem Terminal.run_append (terminal : Terminal Row) (first later : List Action) :
    terminal.run width glyphs (first ++ later) = (terminal.run width glyphs first).run width glyphs later :=
  List.foldl_append

/-- The frame does not depend on what the rows show. -/
theorem Terminal.run_frame (terminal : Terminal Row) (doing : List Action) :
    (terminal.run width glyphs doing).frame = terminal.frame.run width doing := by
  induction doing generalizing terminal with
  | nil => rfl
  | cons action rest ih => exact ih (terminal.act width glyphs action)

end Drawing

/-- The columns that a text takes. -/
def extent : Text → Nat
  | [] => 0
  | c :: rest => width c + extent rest

/-- A text that has room changes the cursor's row and column only. -/
theorem Terminal.run_text {Row : Type} (glyphs : Glyphs Row) (terminal : Terminal Row) {text : Text}
    (fits : terminal.frame.col + extent width text ≤ terminal.frame.cols) :
    terminal.run width glyphs (text.map .put) =
      ⟨{ terminal.frame with col := terminal.frame.col + extent width text },
        Function.update terminal.rows terminal.frame.row
          (glyphs.draw width (terminal.rows terminal.frame.row) terminal.frame.col text)⟩ := by
  induction text generalizing terminal with
  | nil =>
    unfold Glyphs.draw
    rw [Function.update_eq_self]
    rfl
  | cons c rest ih =>
    unfold extent at fits ⊢
    have room : ¬terminal.frame.cols < terminal.frame.col + width c := by omega
    have put : terminal.act width glyphs (.put c) = ⟨{ terminal.frame with col := terminal.frame.col + width c },
        Function.update terminal.rows terminal.frame.row
          (glyphs.put (terminal.rows terminal.frame.row) terminal.frame.col c)⟩ := by
      unfold Terminal.act Frame.act
      dsimp only
      rw [if_neg room, if_neg room]
    change (terminal.act width glyphs (.put c)).run width glyphs (rest.map .put) = _
    rw [put, ih _ (by dsimp only; omega)]
    simp only [Function.update_self, Function.update_idem, Nat.add_assoc, Glyphs.draw]

theorem extent_append (front back : Text) : extent width (front ++ back) = extent width front + extent width back := by
  induction front with
  | nil => exact (Nat.zero_add _).symm
  | cons c rest ih =>
    rw [List.cons_append, extent, extent, ih, Nat.add_assoc]

/-! Rows that scroll from the top are a window on a tape: it moves on by a row when they scroll. -/

section Scrolling
variable {width} {Row : Type} {glyphs : Glyphs Row} {height cols bottom : Nat} {terminal : Terminal Row}
  {tape : Nat → Row} {moved line col : Nat}

structure Terminal.On (glyphs : Glyphs Row) (height cols bottom : Nat) (terminal : Terminal Row) (tape : Nat → Row)
    (moved line col : Nat) : Prop where
  frame : terminal.frame = ⟨height, cols, line - moved, col, 0, bottom⟩
  above : moved ≤ line
  within : line ≤ moved + bottom
  rows : ∀ index ≤ bottom, terminal.rows index = tape (index + moved)
  below : ∀ index, bottom + moved < index → tape index = glyphs.blank

theorem Terminal.On.row_le (on : terminal.On glyphs height cols bottom tape moved line col) : line - moved ≤ bottom := by
  have within := on.within
  omega

theorem Terminal.On.carriageReturn (on : terminal.On glyphs height cols bottom tape moved line col) :
    (terminal.act width glyphs .carriageReturn).On glyphs height cols bottom tape moved line 0 where
  frame := by
    unfold Terminal.act Frame.act
    rw [on.frame]
  above := on.above
  within := on.within
  rows := on.rows
  below := on.below

theorem Terminal.On.up (on : terminal.On glyphs height cols bottom tape moved line col) {count : Nat}
    (inside : moved + count ≤ line) :
    (terminal.act width glyphs (.up count)).On glyphs height cols bottom tape moved (line - count) col where
  frame := by
    unfold Terminal.act Frame.act
    rw [on.frame]
    have row : max 0 (line - moved - count) = line - count - moved := by omega
    simp only [Nat.zero_le, if_true, row]
  above := by omega
  within := by
    have within := on.within
    omega
  rows := on.rows
  below := on.below

theorem Terminal.On.feed (on : terminal.On glyphs height cols bottom tape moved line col) (lower : bottom < height) :
    (terminal.act width glyphs .lineFeed).On glyphs height cols bottom tape (max moved (line + 1 - bottom)) (line + 1) col := by
  have above := on.above
  have within := on.within
  by_cases last : line - moved = bottom
  · have further : max moved (line + 1 - bottom) = moved + 1 := by omega
    rw [further]
    refine ⟨?_, (by omega), (by omega), ?_, ?_⟩
    · unfold Terminal.act Frame.act Frame.feed
      rw [on.frame]
      simp only [if_pos last]
      congr 1
      omega
    · intro index below
      unfold Terminal.act Terminal.feed
      simp only [on.frame, if_pos last]
      by_cases final : index = bottom
      · rw [if_neg (by omega), if_pos final]
        exact (on.below _ (by omega)).symm
      · rw [if_pos (by omega), on.rows _ (by omega)]
        congr 1
        omega
    · intro index beyond
      exact on.below index (by omega)
  · have still : max moved (line + 1 - bottom) = moved := by omega
    rw [still]
    refine ⟨?_, (by omega), (by omega), ?_, on.below⟩
    · unfold Terminal.act Frame.act Frame.feed
      rw [on.frame]
      simp only [if_neg last]
      rw [if_pos (by omega)]
      congr 1
      omega
    · intro index below
      unfold Terminal.act Terminal.feed
      simp only [on.frame, if_neg last]
      exact on.rows index below

/-- What is done to the cursor's row is done to the tape. -/
theorem Terminal.On.changed (on : terminal.On glyphs height cols bottom tape moved line col) {next : Terminal Row}
    {row : Row} {col' : Nat} (frame : next.frame = { terminal.frame with col := col' })
    (rows : next.rows = Function.update terminal.rows terminal.frame.row row) :
    next.On glyphs height cols bottom (Function.update tape line row) moved line col' where
  frame := by rw [frame, on.frame]
  above := on.above
  within := on.within
  rows := by
    intro index below
    have above := on.above
    have own : terminal.frame.row = line - moved := by rw [on.frame]
    rw [rows, own]
    by_cases same : index = line - moved
    · have there : index + moved = line := by omega
      rw [same, Function.update_self, ← same, there, Function.update_self]
    · have elsewhere : index + moved ≠ line := by omega
      rw [Function.update_of_ne same, Function.update_of_ne elsewhere]
      exact on.rows index below
  below := by
    intro index beyond
    have within := on.within
    rw [Function.update_of_ne (by omega)]
    exact on.below index beyond

theorem Terminal.On.eraseRow (on : terminal.On glyphs height cols bottom tape moved line col) :
    (terminal.act width glyphs .eraseRow).On glyphs height cols bottom (Function.update tape line glyphs.blank) moved
      line col := by
  apply on.changed
  · unfold Terminal.act Frame.act
    rw [on.frame]
  · rfl

theorem Terminal.On.cursorRow (on : terminal.On glyphs height cols bottom tape moved line col) :
    terminal.rows terminal.frame.row = tape line := by
  have above := on.above
  rw [on.frame]
  have row := on.rows (line - moved) on.row_le
  rwa [Nat.sub_add_cancel above] at row

theorem Terminal.On.text {text : Text} (on : terminal.On glyphs height cols bottom tape moved line col)
    (fits : col + extent width text ≤ cols) :
    (terminal.run width glyphs (text.map .put)).On glyphs height cols bottom
      (Function.update tape line (glyphs.draw width (tape line) col text)) moved line (col + extent width text) := by
  have frame : terminal.frame.col = col ∧ terminal.frame.cols = cols := by
    rw [on.frame]
    exact ⟨rfl, rfl⟩
  have room : terminal.frame.col + extent width text ≤ terminal.frame.cols := by
    rw [frame.1, frame.2]
    exact fits
  rw [terminal.run_text width glyphs room]
  apply on.changed
  · rw [frame.1]
  · rw [on.cursorRow, frame.1]

/-- What is done below the region and puts the cursor back is not seen in it. -/
theorem Terminal.On.status {text : Text} (on : terminal.On glyphs height cols bottom tape moved line col)
    (outside : bottom + 1 < height) (room : col < cols) (fits : extent width text ≤ cols) :
    (terminal.run width glyphs (.home :: .position height 1 :: (text.map .put ++
      [.position (line - moved + 1) (col + 1)]))).On glyphs height cols bottom tape moved line col := by
  let there : Terminal Row := ⟨⟨height, cols, height - 1, 0, 0, bottom⟩, terminal.rows⟩
  have moves : terminal.run width glyphs [.home, .position height 1] = there := by
    have left : min (1 - 1) (cols - 1) = 0 := Nat.zero_min _
    have last : min (height - 1) (height - 1) = height - 1 := Nat.min_self _
    unfold Terminal.run
    rw [List.foldl_cons, List.foldl_cons, List.foldl_nil]
    unfold Terminal.act Frame.act
    rw [on.frame]
    dsimp only
    rw [left, last]
  change (terminal.run width glyphs ([.home, .position height 1] ++ (text.map .put ++ _))).On _ _ _ _ _ _ _ _
  rw [Terminal.run_append, moves, Terminal.run_append, there.run_text width glyphs (by simpa [there] using fits)]
  have within := on.row_le
  refine ⟨?_, on.above, on.within, ?_, on.below⟩
  · unfold Terminal.run
    rw [List.foldl_cons, List.foldl_nil]
    unfold Terminal.act Frame.act
    dsimp only [there]
    rw [Nat.add_sub_cancel, Nat.add_sub_cancel]
    have row : min (line - moved) (height - 1) = line - moved := Nat.min_eq_left (by omega)
    have column : min col (cols - 1) = col := Nat.min_eq_left (by omega)
    rw [row, column]
  · intro index inside
    have elsewhere : index ≠ height - 1 := by omega
    exact (Function.update_of_ne elsewhere _ _).trans (on.rows index inside)

/-- A row that is shown in the cursor's place, whatever was there. -/
def paintRow (text : Text) : List Action :=
  .carriageReturn :: .eraseRow :: (text.map .put ++ [.carriageReturn, .lineFeed])

theorem Terminal.On.paintRow {text : Text} (on : terminal.On glyphs height cols bottom tape moved line col)
    (lower : bottom < height) (fits : extent width text ≤ cols) :
    (terminal.run width glyphs (paintRow text)).On glyphs height cols bottom
      (Function.update tape line (glyphs.line width text)) (max moved (line + 1 - bottom)) (line + 1) 0 := by
  have returned : (terminal.act width glyphs .carriageReturn).On glyphs height cols bottom tape moved line 0 :=
    on.carriageReturn
  have erased : ((terminal.act width glyphs .carriageReturn).act width glyphs .eraseRow).On glyphs height cols bottom
      (Function.update tape line glyphs.blank) moved line 0 := returned.eraseRow
  have drawn := erased.text (by rwa [Nat.zero_add])
  rw [Function.update_idem, Function.update_self] at drawn
  unfold Screen.paintRow
  change (Terminal.run width glyphs _ (text.map .put ++ [.carriageReturn, .lineFeed])).On _ _ _ _ _ _ _ _
  rw [Terminal.run_append]
  exact drawn.carriageReturn.feed lower

/-- The tape with these texts from a line on. -/
def painted (width : Char → Nat) (glyphs : Glyphs Row) (tape : Nat → Row) (line : Nat) (texts : List Text) : Nat → Row :=
  fun index => if line ≤ index then (texts[index - line]?).elim (tape index) (glyphs.line width) else tape index

theorem Terminal.On.paint {texts : List Text} (on : terminal.On glyphs height cols bottom tape moved line 0)
    (lower : bottom < height) (fits : ∀ text ∈ texts, extent width text ≤ cols) :
    (terminal.run width glyphs (texts.flatMap Screen.paintRow)).On glyphs height cols bottom
      (painted width glyphs tape line texts) (max moved (line + texts.length - bottom)) (line + texts.length) 0 := by
  induction texts generalizing terminal tape moved line with
  | nil =>
    have within := on.within
    have still : max moved (line + 0 - bottom) = moved := by omega
    have same : painted width glyphs tape line [] = tape := by
      funext index
      unfold painted
      rw [List.getElem?_nil]
      exact ite_self _
    rw [same]
    change terminal.On glyphs height cols bottom tape (max moved (line + 0 - bottom)) line 0
    rw [still]
    exact on
  | cons text rest ih =>
    have first := on.paintRow lower (fits text List.mem_cons_self)
    have later := ih first fun other member => fits other (List.mem_cons_of_mem _ member)
    rw [List.flatMap_cons, Terminal.run_append]
    have further : max (max moved (line + 1 - bottom)) (line + 1 + rest.length - bottom) =
        max moved (line + (rest.length + 1) - bottom) := by omega
    have length : line + 1 + rest.length = line + (rest.length + 1) := by omega
    have same : painted width glyphs (Function.update tape line (glyphs.line width text)) (line + 1) rest =
        painted width glyphs tape line (text :: rest) := by
      funext index
      unfold painted
      by_cases before : index < line
      · rw [if_neg (by omega), if_neg (by omega), Function.update_of_ne (by omega)]
      · obtain ⟨step, rfl⟩ : ∃ step, index = line + step := ⟨index - line, by omega⟩
        rw [if_pos (Nat.le_add_right _ _), Nat.add_sub_cancel_left]
        cases step with
        | zero =>
          rw [if_neg (by omega), List.getElem?_cons_zero]
          exact Function.update_self _ _ _
        | succ step =>
          have there : line + (step + 1) - (line + 1) = step := by omega
          rw [if_pos (by omega), there, List.getElem?_cons_succ, Function.update_of_ne (by omega)]
    rw [further, length, same] at later
    exact later

end Scrolling

end Pbox.Lib.Screen
