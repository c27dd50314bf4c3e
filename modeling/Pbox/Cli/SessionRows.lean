import Pbox.Cli.SessionScreen

/-! Over a whole run the rows above the cursor are those of the last text. -/

namespace Pbox.Cli.Viewer
open Pbox.Lib.Strings Pbox.Lib.Numerals Pbox.Lib.Utf8 Pbox.Lib.Screen
open Pbox.Lib.Ecma48 (Bytes)
open Pbox.Cli.Viewport (ViewportFilter push pushFrom)

/-- The sequence that a cursor snapshot ends with. -/
def moveTo (row col : Nat) : Text := if row = 1 ∧ col = 1 then csi [] 'H' else position row col

/-- What is relied on of the emulator: between texts that it has read whole it has the frame of a terminal that read
the same, and its snapshots put a cursor where its own is. -/
structure Emulator.Lawful {State : Type} (emulator : Emulator State) (width : Char → Nat) (settled : State → Prop)
    (view : State → Frame) : Prop where
  start : ∀ rows cols, 0 < rows → 0 < cols →
    settled (emulator.new rows cols) ∧ view (emulator.new rows cols) = ⟨rows, cols, 0, 0, 0, rows - 1⟩
  process : ∀ state text doing, settled state → Reads text doing →
    settled (emulator.process state (utf8 text)) ∧
      view (emulator.process state (utf8 text)) = (view state).run width doing
  cursor : ∀ state, settled state → (view state).col < (view state).cols →
    ∃ visible : Bool, emulator.cursorStateFormatted state =
      utf8 ((if visible then showCursor else hideCursor) ++ moveTo ((view state).row + 1) ((view state).col + 1))
  attributes : ∀ state, settled state → ∃ text, emulator.attributesFormatted state = utf8 text ∧ Reads text []

theorem reads_moveTo {row col : Nat} (down : 0 < row) (right : 0 < col) :
    Reads (moveTo row col) [.position row col] := by
  unfold moveTo
  split
  next home =>
    rw [home.1, home.2]
    rfl
  next => exact reads_position down right

theorem withoutVisibility_snapshot (visible : Bool) (text : Text) :
    withoutVisibility (utf8 ((if visible then showCursor else hideCursor) ++ text)) = utf8 text := by
  rw [utf8_append]
  cases visible with
  | true => rfl
  | false => rfl

section Status
variable {State : Type} {widths : UnicodeWidth} {emulator : Emulator State} {settled : State → Prop}
  {view : State → Frame} {state : StatusState State} {rows cols now : Nat} {frame : Frame}

/-- The emulator is where the terminal is. -/
structure Follows (settled : State → Prop) (view : State → Frame) (rows cols : Nat) (frame : Frame)
    (state : StatusState State) : Prop where
  calm : Calm state.filter
  rows : state.rows = rows
  cols : state.cols = cols
  settled : settled state.parser
  view : view state.parser = frame

theorem suffix_printing (readOnly : Bool) :
    ∀ c ∈ (if readOnly then "Read-only · Ctrl+C exit".toList else "Ctrl+] detach".toList), isPrinting c = true := by
  cases readOnly with
  | true => exact List.all_eq_true.mp (by decide : "Read-only · Ctrl+C exit".toList.all isPrinting = true)
  | false => exact List.all_eq_true.mp (by decide : "Ctrl+] detach".toList.all isPrinting = true)

theorem bar_reads (law : widths.Lawful) (lawful : emulator.Lawful widths.cells settled view)
    (follows : Follows settled view rows cols frame state) (shown : 3 ≤ rows) (room : frame.col < frame.cols) :
    ∃ text bar, state.bar widths emulator now = utf8 text ∧ extent widths.cells bar = cols ∧
      Reads text (.home :: .position rows 1 :: (bar.map .put ++ [.position (frame.row + 1) (frame.col + 1)])) := by
  have viewed := follows.view
  obtain ⟨visible, cursor⟩ := lawful.cursor state.parser follows.settled (by rw [viewed]; exact room)
  obtain ⟨attributes, formatted, silent⟩ := lawful.attributes state.parser follows.settled
  rw [viewed] at cursor
  have moves : Reads (moveTo (frame.row + 1) (frame.col + 1)) [.position (frame.row + 1) (frame.col + 1)] :=
    reads_moveTo (Nat.succ_pos _) (Nat.succ_pos _)
  generalize label : (if state.resources then some (resourceLabel ((recent now state.usage).map Prod.snd)) else none) =
    usage
  have words : ∀ text ∈ usage, ∀ c ∈ text, IsWord c := by
    intro text given
    rw [← label] at given
    split at given
    next => exact Option.some.inj given ▸ resourceLabel_words _
    next => cases given
  let bar := fitResourceBar widths state.label
    (if state.readOnly then "Read-only · Ctrl+C exit".toList else "Ctrl+] detach".toList) usage state.cols
  have coloured : Reads (state.barText widths now) (bar.map .put) := by
    unfold StatusState.barText
    rw [label]
    exact reads_colourResourceBar (printing_fitResourceBar (suffix_printing state.readOnly) words)
  refine ⟨"\x1b[?6l".toList ++ csi (showNat state.rows ++ ";1".toList) 'H' ++ ansiReset ++ state.barText widths now ++
    ansiReset ++ moveTo (frame.row + 1) (frame.col + 1) ++ attributes, bar, ?_, ?_, ?_⟩
  · unfold StatusState.bar
    have tall : ¬state.rows < 3 := by
      rw [follows.rows]
      omega
    rw [if_neg tall]
    dsimp only
    rw [follows.calm.origin, if_neg (by simp), if_neg (by simp), List.append_nil, cursor, withoutVisibility_snapshot,
      formatted, ← utf8_append, ← utf8_append]
  · rw [← follows.cols]
    exact extent_fitResourceBar law words
  · have lower : 0 < state.rows := by
      rw [follows.rows]
      omega
    have all := (((((reads_home.append (reads_left lower)).append reads_reset).append coloured).append
      reads_reset).append moves).append silent
    rw [follows.rows] at all ⊢
    simpa only [List.append_assoc, List.append_nil, List.singleton_append, List.cons_append, List.nil_append] using all

/-- A text that passes the filter goes to the emulator and the terminal, and the bar behind it. -/
theorem output_spec (lawful : emulator.Lawful widths.cells settled view)
    (follows : Follows settled view rows cols frame state) {text : Text} {doing : List Action} (some_ : text ≠ [])
    (read : Reads text doing) (passes : Passes state.contentRows (utf8 text)) :
    ∃ next, Follows settled view rows cols (frame.run widths.cells doing) next ∧
      state.output widths emulator now (utf8 text) = (next, utf8 text ++ next.bar widths emulator now) := by
  obtain ⟨filter, calm, pushed⟩ := passes state.filter follows.calm
  have bytes : utf8 text ≠ [] := by
    intro none
    exact some_ (utf8_injective none)
  have whole : push state.contentRows state.filter (utf8 text) = (filter, [(utf8 text, false)]) := by
    have alone := pushed [] []
    rw [List.append_nil] at alone
    unfold push
    rw [alone]
    unfold pushFrom
    rw [List.nil_append, if_neg bytes]
  obtain ⟨settled', view'⟩ := lawful.process state.parser text doing follows.settled read
  let next : StatusState State := { state with filter, parser := emulator.process state.parser (utf8 text) }
  have processed : StatusState.outputPieces emulator { state with filter } [(utf8 text, false)] =
      (next, utf8 text ++ []) := rfl
  refine ⟨next, ⟨calm, follows.rows, follows.cols, settled', by rw [view', follows.view]⟩, ?_⟩
  unfold StatusState.output
  rw [whole]
  simp only [processed, List.append_nil]
  exact congrArg (fun bar => (next, utf8 text ++ bar)) (if_pos calm.canPaint)

end Status

/-! What a repaint does. -/

section Wrapping
variable {widths : UnicodeWidth} {width used cols : Nat} {part text : Text}

theorem wrapFrom_spec (law : widths.Lawful) (counted : used = extent widths.cells part) (narrow : used ≤ max width 3) :
    ∀ row ∈ wrapFrom widths width part used text,
      extent widths.cells row ≤ max width 3 ∧ ∀ c ∈ row, c ∈ part ∨ c ∈ text := by
  induction text generalizing part used with
  | nil =>
    intro row listed
    rw [List.mem_singleton.mp listed, ← counted]
    exact ⟨narrow, fun c member => .inl member⟩
  | cons c rest ih =>
    have small := law.narrow c
    have alone : extent widths.cells [c] = widths.cells c := Nat.add_zero _
    intro row listed
    unfold wrapFrom at listed
    split at listed
    next =>
      rcases List.mem_cons.mp listed with rfl | later
      · rw [← counted]
        exact ⟨narrow, fun d member => .inl member⟩
      · obtain ⟨fits, among⟩ := @ih (widths.cells c) [c] alone.symm (by omega) row later
        refine ⟨fits, fun d member => .inr ?_⟩
        rcases among d member with own | later
        · rw [List.mem_singleton.mp own]
          exact List.mem_cons_self
        · exact List.mem_cons_of_mem _ later
    next joins =>
      have total : used + widths.cells c = extent widths.cells (part ++ [c]) := by
        rw [extent_append, counted, alone]
      have room : used + widths.cells c ≤ max width 3 := by
        by_cases some_ : part = []
        · have zero : used = 0 := by
            rw [counted, some_]
            rfl
          omega
        · have below : ¬width < used + widths.cells c := fun over_ => joins ⟨over_, some_⟩
          omega
      obtain ⟨fits, among⟩ := @ih (used + widths.cells c) (part ++ [c]) total room row listed
      refine ⟨fits, fun d member => ?_⟩
      rcases among d member with own | later
      · rcases List.mem_append.mp own with early | last
        · exact .inl early
        · rw [List.mem_singleton.mp last]
          exact .inr List.mem_cons_self
      · exact .inr (List.mem_cons_of_mem _ later)

/-- Every row fits, and holds nothing but printing characters. -/
theorem wrapped_spec (law : widths.Lawful) (wide : 4 ≤ cols) :
    ∀ row ∈ wrapped widths cols text, extent widths.cells row ≤ cols ∧ ∀ c ∈ row, isPrinting c = true := by
  intro row listed
  obtain ⟨line, _, inside⟩ := List.mem_flatMap.mp listed
  obtain ⟨fits, among⟩ := wrapFrom_spec law rfl (Nat.zero_le _) row inside
  refine ⟨by omega, fun c member => ?_⟩
  rcases among c member with none | own
  · exact absurd none List.not_mem_nil
  · exact safeTerminalText_printing line c own

end Wrapping

section Repainting
variable {rows : Nat} {previous lines : List Text} {count : Nat}

/-- The rows of a repaint: the new ones, and empty ones where there were more before. -/
def rowsOf (lines : List Text) (count : Nat) : List Text := (List.range count).map fun i => lines[i]?.getD []

theorem rowsOf_length : (rowsOf lines count).length = count := by
  unfold rowsOf
  rw [List.length_map, List.length_range]

theorem mem_rowsOf {row : Text} (listed : row ∈ rowsOf lines count) : row = [] ∨ row ∈ lines := by
  obtain ⟨index, _, rfl⟩ := List.mem_map.mp listed
  cases there : lines[index]? with
  | none => exact .inl rfl
  | some row => exact .inr (List.mem_of_getElem? there)

/-- What the repaint makes a terminal do. -/
def repainting (previous lines : List Text) : List Action :=
  (if previous ≠ [] then [.up previous.length] else []) ++
    (rowsOf lines (max previous.length lines.length)).flatMap paintRow ++
    (if lines.length < max previous.length lines.length then
      [.up (max previous.length lines.length - lines.length)] else [])

theorem reads_repaint (printing : ∀ row ∈ lines, ∀ c ∈ row, isPrinting c = true) :
    Reads (repaint true previous lines) (repainting previous lines) := by
  have start : Reads (if true = true ∧ previous ≠ [] then up previous.length else [])
      (if previous ≠ [] then [.up previous.length] else []) := by
    by_cases some_ : previous = []
    · rw [if_neg (by simp [some_]), if_neg (by simp [some_])]
      exact reads_nil
    · rw [if_pos ⟨rfl, some_⟩, if_pos some_]
      exact reads_up (List.length_pos_iff.mpr some_)
  have middle : Reads ((List.range (max previous.length lines.length)).flatMap fun i =>
        "\r\x1b[2K".toList ++ lines[i]?.getD [] ++ "\r\n".toList)
      ((List.range (max previous.length lines.length)).flatMap fun i => paintRow (lines[i]?.getD [])) := by
    refine reads_flatten fun i _ => ?_
    have row : ∀ c ∈ lines[i]?.getD [], isPrinting c = true := by
      cases there : lines[i]? with
      | none => exact fun c member => absurd member List.not_mem_nil
      | some row => exact printing row (List.mem_of_getElem? there)
    exact (reads_clear.append (reads_printing row)).append reads_return
  have last : Reads (if lines.length < max previous.length lines.length then
        up (max previous.length lines.length - lines.length) else [])
      (if lines.length < max previous.length lines.length then
        [.up (max previous.length lines.length - lines.length)] else []) := by
    split
    next fewer => exact reads_up (Nat.sub_pos_of_lt fewer)
    next => exact reads_nil
  have whole := (start.append middle).append last
  unfold repainting rowsOf
  rw [List.flatMap_map]
  exact whole

theorem passes_flatMap {α : Type} {items : List α} {text : α → Text}
    (each : ∀ item ∈ items, Passes rows (utf8 (text item))) : Passes rows (utf8 (items.flatMap text)) := by
  induction items with
  | nil => exact passes_nil
  | cons item rest ih =>
    rw [List.flatMap_cons, utf8_append]
    exact (each item List.mem_cons_self).append (ih fun other member => each other (List.mem_cons_of_mem _ member))

theorem passes_up (small : count < 65536) : Passes rows (utf8 (up count)) := by
  refine passes_sequence (numbers_one count) ?_ (.inl rfl)
  have short : (showNat count).length ≤ 5 := (Nat.length_toDigits_le_iff (by decide) (by decide)).mpr (by omega)
  omega

theorem passes_repaint (small : max previous.length lines.length < 65536)
    (printing : ∀ row ∈ lines, ∀ c ∈ row, isPrinting c = true) : Passes rows (utf8 (repaint true previous lines)) := by
  have optional {P : Prop} [Decidable P] {text : Text} (passes : Passes rows (utf8 text)) :
      Passes rows (utf8 (if P then text else [])) := by
    split
    next => exact passes
    next => exact passes_nil
  unfold repaint
  dsimp only
  rw [utf8_append, utf8_append]
  refine ((optional (passes_up (by omega))).append (passes_flatMap fun i _ => ?_)).append
    (optional (passes_up (by rw [if_pos rfl]; omega)))
  have row : '\x1b' ∉ lines[i]?.getD [] := by
    cases there : lines[i]? with
    | none => exact List.not_mem_nil
    | some row => exact fun member => absurd (printing row (List.mem_of_getElem? there) _ member) (by decide)
  have clear : Passes rows (utf8 "\r\x1b[2K".toList) :=
    (passes_char (by decide)).append (passes_sequence (numbers_one 2) (by decide) (.inr rfl))
  rw [if_pos rfl, utf8_append, utf8_append]
  exact (clear.append (passes_text row)).append (passes_text (by decide))

theorem repaint_ne_nil (some_ : 0 < max previous.length lines.length) : repaint true previous lines ≠ [] := by
  intro none
  unfold repaint at none
  dsimp only at none
  obtain ⟨front, _⟩ := List.append_eq_nil_iff.mp none
  obtain ⟨_, painted⟩ := List.append_eq_nil_iff.mp front
  have first := List.flatMap_eq_nil_iff.mp painted 0 (List.mem_range.mpr (by rw [if_pos rfl]; exact some_))
  rw [if_pos rfl] at first
  exact absurd first (by simp)

end Repainting

/-! A viewer and the terminal it writes to. -/

section Painting
variable {State Row : Type} {widths : UnicodeWidth} {emulator : Emulator State} {settled : State → Prop}
  {view : State → Frame} {glyphs : Glyphs Row} {rows cols now : Nat} {first : Nat → Row} {longest : Nat}
  {viewer : SessionViewer State} {terminal : Terminal Row} {status : StatusState State} {tape : Nat → Row}

/-- The bytes are a text that makes a terminal do this. -/
def Writes (bytes : Bytes) (doing : List Action) : Prop := ∃ text, bytes = utf8 text ∧ Reads text doing

theorem writes_nil : Writes [] [] := ⟨[], rfl, reads_nil⟩

theorem Writes.append {front back : Bytes} {before behind : List Action} (start : Writes front before)
    (rest : Writes back behind) : Writes (front ++ back) (before ++ behind) := by
  obtain ⟨text, bytes, read⟩ := start
  obtain ⟨text', bytes', read'⟩ := rest
  exact ⟨text ++ text', by rw [bytes, bytes', utf8_append], read.append read'⟩

/-- What is on the terminal behind the bytes of a write. -/
def display (widths : UnicodeWidth) (glyphs : Glyphs Row) (terminal : Terminal Row) (bytes : Bytes) :
    Option (Terminal Row) :=
  terminal.write widths.cells glyphs (fromUtf8Lossy bytes)

theorem Writes.display {bytes : Bytes} {doing : List Action} (writes : Writes bytes doing) (terminal : Terminal Row) :
    display widths glyphs terminal bytes = some (terminal.run widths.cells glyphs doing) := by
  obtain ⟨text, bytes, read⟩ := writes
  unfold Viewer.display
  rw [bytes, fromUtf8Lossy_utf8]
  exact terminal.write_of_reads widths.cells glyphs read

/-- The tape holds what was above, the rows of the last text, and behind them nothing that an earlier one has left; it has
moved as far as the longest text so far made it. -/
structure Painting (widths : UnicodeWidth) (settled : State → Prop) (view : State → Frame) (glyphs : Glyphs Row)
    (rows cols : Nat) (first : Nat → Row) (longest : Nat) (viewer : SessionViewer State) (terminal : Terminal Row)
    (status : StatusState State) (tape : Nat → Row) : Prop where
  held : viewer.status = some status
  size : viewer.previousSize = (rows, cols)
  follows : Follows settled view rows cols terminal.frame status
  on : terminal.On glyphs rows cols (rows - 2) tape longest (rows - 2 + viewer.previous.length) 0
  short : viewer.previous.length ≤ longest
  within : longest ≤ rows - 2
  above : ∀ index < rows - 2, tape index = first index
  lines : ∀ index (inside : index < viewer.previous.length),
    tape (rows - 2 + index) = glyphs.line widths.cells viewer.previous[index]
  blank : 0 < longest → ∀ index, rows - 2 + viewer.previous.length ≤ index → tape index = glyphs.blank

/-- The bar changes nothing above it. -/
theorem bar_on (law : widths.Lawful) (lawful : emulator.Lawful widths.cells settled view) (tall : 3 ≤ rows)
    (wide : 8 ≤ cols) {moved line : Nat} (on : terminal.On glyphs rows cols (rows - 2) tape moved line 0)
    (follows : Follows settled view rows cols terminal.frame status) :
    ∃ doing, Writes (status.bar widths emulator now) doing ∧
      (terminal.run widths.cells glyphs doing).On glyphs rows cols (rows - 2) tape moved line 0 ∧
      Follows settled view rows cols (terminal.run widths.cells glyphs doing).frame status := by
  have frame := on.frame
  obtain ⟨text, bar, bytes, extent, read⟩ := @bar_reads _ _ _ _ _ _ _ _ now _ law lawful follows tall
    (by rw [frame]; dsimp only; omega)
  rw [frame] at read
  dsimp only at read
  have painted : (terminal.run widths.cells glyphs (.home :: .position rows 1 :: (bar.map .put ++
      [.position (line - moved + 1) (0 + 1)]))).On glyphs rows cols (rows - 2) tape moved line 0 :=
    on.status (by omega) (by omega) (Nat.le_of_eq extent)
  have same := painted.frame
  refine ⟨_, ⟨text, bytes, read⟩, painted, ?_⟩
  have kept := follows
  rw [frame] at kept
  rw [same]
  exact kept

/-- A repaint puts the rows of the text where those of the last one were. -/
theorem repaint_on {previous lines : List Text} (fits : ∀ row ∈ lines, extent widths.cells row ≤ cols)
    (on : terminal.On glyphs rows cols (rows - 2) tape longest (rows - 2 + previous.length) 0)
    (tall : 3 ≤ rows) (short : previous.length ≤ longest) (within : longest ≤ rows - 2) :
    (terminal.run widths.cells glyphs (repainting previous lines)).On glyphs rows cols (rows - 2)
      (painted widths.cells glyphs tape (rows - 2) (rowsOf lines (max previous.length lines.length)))
      (max longest lines.length) (rows - 2 + lines.length) 0 := by
  have start : (terminal.run widths.cells glyphs (if previous ≠ [] then [.up previous.length] else [])).On glyphs rows
      cols (rows - 2) tape longest (rows - 2) 0 := by
    by_cases some_ : previous = []
    · rw [if_neg (by simp [some_])]
      rw [some_, List.length_nil, Nat.add_zero] at on
      exact on
    · rw [if_pos some_]
      have back : (terminal.act widths.cells glyphs (.up previous.length)).On glyphs rows cols (rows - 2) tape longest
          (rows - 2 + previous.length - previous.length) 0 := on.up (by omega)
      rw [Nat.add_sub_cancel] at back
      exact back
  have each : ∀ row ∈ rowsOf lines (max previous.length lines.length), extent widths.cells row ≤ cols := by
    intro row listed
    rcases mem_rowsOf listed with rfl | shown
    · exact Nat.zero_le _
    · exact fits row shown
  have drawn := start.paint (by omega) each
  rw [rowsOf_length] at drawn
  have further : max longest (rows - 2 + max previous.length lines.length - (rows - 2)) =
      max longest lines.length := by omega
  rw [further] at drawn
  unfold repainting
  rw [Terminal.run_append, Terminal.run_append]
  generalize terminal.run widths.cells glyphs (if previous ≠ [] then [.up previous.length] else []) = started at drawn ⊢
  by_cases fewer : lines.length < max previous.length lines.length
  · rw [if_pos fewer]
    have there : rows - 2 + max previous.length lines.length - (max previous.length lines.length - lines.length) =
        rows - 2 + lines.length := by omega
    rw [← there]
    exact drawn.up (by omega)
  · rw [if_neg fewer]
    have there : max previous.length lines.length = lines.length := by omega
    rw [there] at drawn ⊢
    exact drawn

/-- Nothing but the usage changes when the resources are refreshed. -/
theorem refresh_spec (emulator : Emulator State) (samples : List (Option Usage)) (now painted : Nat)
    (follows : Follows settled view rows cols terminal.frame status) :
    Follows settled view rows cols terminal.frame
        (status.refreshResources widths emulator samples now painted).1 ∧
      ((status.refreshResources widths emulator samples now painted).2 = [] ∨
        (status.refreshResources widths emulator samples now painted).2 =
          (status.refreshResources widths emulator samples now painted).1.bar widths emulator painted) := by
  refine ⟨⟨follows.calm, follows.rows, follows.cols, follows.settled, follows.view⟩, ?_⟩
  unfold StatusState.refreshResources
  dsimp only
  exact (ite_eq_or_eq _ _ _).symm

theorem refresh_on (law : widths.Lawful) (lawful : emulator.Lawful widths.cells settled view) (tall : 3 ≤ rows)
    (wide : 8 ≤ cols) {moved line : Nat} (samples : List (Option Usage)) (now painted : Nat)
    (on : terminal.On glyphs rows cols (rows - 2) tape moved line 0)
    (follows : Follows settled view rows cols terminal.frame status) :
    ∃ doing, Writes (status.refreshResources widths emulator samples now painted).2 doing ∧
      (terminal.run widths.cells glyphs doing).On glyphs rows cols (rows - 2) tape moved line 0 ∧
      Follows settled view rows cols (terminal.run widths.cells glyphs doing).frame
        (status.refreshResources widths emulator samples now painted).1 := by
  obtain ⟨kept, silent | bar⟩ := @refresh_spec _ _ widths _ _ _ _ _ _ emulator samples now painted follows
  · rw [silent]
    exact ⟨[], writes_nil, on, kept⟩
  · rw [bar]
    exact bar_on law lawful tall wide on kept

/-- What is on the tape behind a repaint. -/
theorem painted_rows {previous lines : List Text} {base : Nat}
    (blank : 0 < longest → ∀ index, base + previous.length ≤ index → tape index = glyphs.blank)
    (below : ∀ index, base + longest < index → tape index = glyphs.blank)
    (some_ : 0 < max previous.length lines.length) :
    (∀ index < base, painted widths.cells glyphs tape base (rowsOf lines (max previous.length lines.length)) index =
        tape index) ∧
      (∀ index (inside : index < lines.length),
        painted widths.cells glyphs tape base (rowsOf lines (max previous.length lines.length)) (base + index) =
          glyphs.line widths.cells lines[index]) ∧
      ∀ index, base + lines.length ≤ index →
        painted widths.cells glyphs tape base (rowsOf lines (max previous.length lines.length)) index =
          glyphs.blank := by
  have row (index : Nat) (inside : index < max previous.length lines.length) :
      (rowsOf lines (max previous.length lines.length))[index]? = some (lines[index]?.getD []) := by
    unfold rowsOf
    rw [List.getElem?_map, List.getElem?_range inside]
    rfl
  refine ⟨?_, ?_, ?_⟩
  · intro index before
    unfold painted
    exact if_neg (by omega)
  · intro index inside
    unfold painted
    rw [if_pos (Nat.le_add_right _ _), Nat.add_sub_cancel_left, row index (by omega), List.getElem?_eq_getElem inside]
    rfl
  · intro index behind
    unfold painted
    rw [if_pos (by omega)]
    by_cases cleared : index - base < max previous.length lines.length
    · have none : lines[index - base]? = none := List.getElem?_eq_none (by omega)
      rw [row _ cleared, none]
      rfl
    · have none : (rowsOf lines (max previous.length lines.length))[index - base]? = none :=
        List.getElem?_eq_none (by rw [rowsOf_length]; omega)
      rw [none]
      by_cases first : 0 < longest
      · exact blank first index (by omega)
      · exact below index (by omega)

/-- A call of `render` on a terminal of the same size. -/
theorem render_painting (law : widths.Lawful) (lawful : emulator.Lawful widths.cells settled view) (tall : 3 ≤ rows)
    (wide : 8 ≤ cols) (small : rows < 65536)
    (painting : Painting widths settled view glyphs rows cols first longest viewer terminal status tape)
    {outside : Outside} {text : Text} (size : outside.size = (rows, cols))
    (fits : (wrapped widths cols text).length ≤ rows - 2) :
    ∃ doing status tape, Writes (viewer.render widths emulator outside text).2 doing ∧
      (viewer.render widths emulator outside text).1.previous = wrapped widths cols text ∧
      Painting widths settled view glyphs rows cols first (max longest (wrapped widths cols text).length)
        (viewer.render widths emulator outside text).1 (terminal.run widths.cells glyphs doing) status tape := by
  have spec := @wrapped_spec widths cols text law (by omega)
  -- The bar comes first, if the resources have changed.
  obtain ⟨doing, refreshed, on, follows⟩ := refresh_on law lawful tall wide outside.samples outside.now outside.painted
    painting.on painting.follows
  unfold SessionViewer.render
  rw [painting.held]
  dsimp only
  generalize status.refreshResources widths emulator outside.samples outside.now outside.painted = result at *
  obtain ⟨status, bytes⟩ := result
  dsimp only at *
  rw [painting.size, if_neg (by simp [size])]
  dsimp only
  rw [List.append_nil]
  unfold SessionViewer.showLines
  rw [size]
  dsimp only
  generalize wrapped widths cols text = lines at spec fits ⊢
  by_cases same : lines = viewer.previous
  · rw [if_pos ⟨same, rfl⟩]
    dsimp only
    rw [List.append_nil]
    refine ⟨doing, status, tape, refreshed, same.symm, ?_⟩
    have still : max longest lines.length = longest := by
      rw [same]
      exact Nat.max_eq_left painting.short
    rw [still]
    exact ⟨rfl, rfl, follows, on, painting.short, painting.within, painting.above, painting.lines,
      painting.blank⟩
  · rw [if_neg fun both => same both.1]
    have content : status.contentRows = rows - 1 := by
      unfold StatusState.contentRows
      rw [follows.rows, if_pos tall]
    have available : status.contentRows - 1 = rows - 2 := by
      rw [content]
      rfl
    have short := painting.short
    have within := painting.within
    have some_ : 0 < max viewer.previous.length lines.length := by
      rcases Nat.eq_zero_or_pos (max viewer.previous.length lines.length) with none | some_
      · have both : lines = [] ∧ viewer.previous = [] :=
          ⟨List.eq_nil_of_length_eq_zero (by omega), List.eq_nil_of_length_eq_zero (by omega)⟩
        exact absurd (both.1.trans both.2.symm) same
      · exact some_
    have inPlace : ((rows, cols) == (rows, cols) && decide (viewer.previous.length ≤ status.contentRows - 1) &&
        decide (lines.length ≤ status.contentRows - 1)) = true := by
      rw [available]
      simp only [beq_self_eq_true, Bool.true_and, Bool.and_eq_true, decide_eq_true_eq]
      omega
    have printing : ∀ row ∈ lines, ∀ c ∈ row, isPrinting c = true := fun row listed => (spec row listed).2
    have read : Reads (repaint true viewer.previous lines) (repainting viewer.previous lines) := reads_repaint printing
    obtain ⟨next, follows', written⟩ := @output_spec _ widths emulator _ _ _ _ _ outside.painted _ lawful follows _ _
      (repaint_ne_nil some_) read (passes_repaint (by omega) printing)
    dsimp only
    rw [inPlace, written]
    dsimp only
    have drawn := repaint_on (fun row listed => (spec row listed).1) on tall short within
    rw [← Terminal.run_frame] at follows'
    obtain ⟨doing', painted, on', follows'⟩ := @bar_on _ _ _ _ _ _ _ _ _ outside.painted _ _ _ law lawful tall wide _ _
      drawn follows'
    have repainted : Writes (utf8 (repaint true viewer.previous lines)) (repainting viewer.previous lines) :=
      ⟨_, rfl, read⟩
    obtain ⟨above, shown, behind⟩ := @painted_rows _ _ glyphs _ tape viewer.previous lines (rows - 2) painting.blank
      on.below some_
    rw [← Terminal.run_append, ← Terminal.run_append] at on' follows'
    refine ⟨_, next, _, refreshed.append (repainted.append painted), rfl, rfl, rfl, follows', on', ?_, ?_, ?_, shown, ?_⟩
    · exact Nat.le_max_right _ _
    · exact Nat.max_le.mpr ⟨within, fits⟩
    · intro index before
      rw [above index before]
      exact painting.above index before
    · exact fun _ index later => behind index later

/-- What comes of a viewer and its terminal. -/
def run (widths : UnicodeWidth) (emulator : Emulator State) (glyphs : Glyphs Row) (viewer : SessionViewer State)
    (terminal : Terminal Row) : List Event → Option (SessionViewer State × Terminal Row)
  | [] => some (viewer, terminal)
  | event :: rest =>
    (display widths glyphs terminal (step widths emulator viewer event).2).bind fun terminal =>
      run widths emulator glyphs (step widths emulator viewer event).1 terminal rest

theorem run_append (front back : List Event) :
    run widths emulator glyphs viewer terminal (front ++ back) =
      (run widths emulator glyphs viewer terminal front).bind fun reached =>
        run widths emulator glyphs reached.1 reached.2 back := by
  induction front generalizing viewer terminal with
  | nil => rfl
  | cons event rest ih =>
    rw [List.cons_append, run, run]
    cases display widths glyphs terminal (step widths emulator viewer event).2 with
    | none => rfl
    | some terminal => exact ih

/-- The terminal keeps its size, and the rows of the text are fewer than the rows above the status line. -/
def Event.Fits (widths : UnicodeWidth) (rows cols : Nat) : Event → Prop
  | .monitorResources => True
  | .render outside text => outside.size = (rows, cols) ∧ (wrapped widths cols text).length ≤ rows - 2

theorem run_painting (law : widths.Lawful) (lawful : emulator.Lawful widths.cells settled view) (tall : 3 ≤ rows)
    (wide : 8 ≤ cols) (small : rows < 65536)
    (painting : Painting widths settled view glyphs rows cols first longest viewer terminal status tape)
    {events : List Event} (each : ∀ event ∈ events, event.Fits widths rows cols) :
    ∃ reached longest' status' tape', run widths emulator glyphs viewer terminal events = some reached ∧
      Painting widths settled view glyphs rows cols first longest' reached.1 reached.2 status' tape' ∧
      longest ≤ longest' ∧ ∀ outside text, Event.render outside text ∈ events →
        (wrapped widths cols text).length ≤ longest' := by
  induction events generalizing viewer terminal longest status tape with
  | nil => exact ⟨(viewer, terminal), longest, status, tape, rfl, painting, Nat.le_refl _, fun _ _ member => by simp at member⟩
  | cons event rest ih =>
    have later := fun other member => each other (List.mem_cons_of_mem event member)
    cases event with
    | monitorResources =>
      have kept : Painting widths settled view glyphs rows cols first longest viewer.monitorResources terminal
          { status with resources := true } tape := by
        refine ⟨?_, painting.size, ?_, painting.on, painting.short, painting.within, painting.above, painting.lines,
          painting.blank⟩
        · unfold SessionViewer.monitorResources
          rw [painting.held]
          rfl
        · have follows := painting.follows
          exact ⟨follows.calm, follows.rows, follows.cols, follows.settled, follows.view⟩
      obtain ⟨reached, longest', status', tape', ran, held, grown, listed⟩ := ih kept later
      refine ⟨reached, longest', status', tape', ?_, held, grown, ?_⟩
      · rw [run]
        exact ran
      · intro outside text member
        rcases List.mem_cons.mp member with other | member
        · cases other
        · exact listed outside text member
    | render outside text =>
      obtain ⟨size, fits⟩ := each _ List.mem_cons_self
      obtain ⟨doing, status, tape, writes, _, painting⟩ :=
        render_painting law lawful tall wide small painting size fits
      obtain ⟨reached, longest', status', tape', ran, held, grown, listed⟩ := ih painting later
      refine ⟨reached, longest', status', tape', ?_, held, (Nat.le_max_left _ _).trans grown, ?_⟩
      · rw [run]
        change (display widths glyphs terminal (viewer.render widths emulator outside text).2).bind _ = _
        rw [writes.display terminal]
        exact ran
      · intro outside' text' member
        rcases List.mem_cons.mp member with own | member
        · cases own
          exact (Nat.le_max_right _ _).trans grown
        · exact listed outside' text' member

/-- What a terminal does before the first bar. -/
def entering (rows : Nat) : List Action :=
  [.carriageReturn, .lineFeed, .carriageReturn, .lineFeed, .margins (rows - 1), .position (rows - 1) 1]

theorem feed_size (frame : Frame) : frame.feed.height = frame.height ∧ frame.feed.cols = frame.cols := by
  unfold Frame.feed
  split
  next => exact ⟨rfl, rfl⟩
  next => split <;> exact ⟨rfl, rfl⟩

theorem entering_frame {width : Char → Nat} {frame : Frame} (size : frame.height = rows ∧ frame.cols = cols)
    (tall : 3 ≤ rows) : frame.run width (entering rows) = ⟨rows, cols, rows - 2, 0, 0, rows - 2⟩ := by
  have last (before : Frame) (size : before.height = rows ∧ before.cols = cols) :
      before.run width [.margins (rows - 1), .position (rows - 1) 1] = ⟨rows, cols, rows - 2, 0, 0, rows - 2⟩ := by
    have bottom : (if rows - 1 = 0 then before.height else min (rows - 1) before.height) = rows - 1 := by
      rw [if_neg (by omega), size.1, Nat.min_eq_left (Nat.sub_le _ _)]
    unfold Frame.run
    simp only [List.foldl_cons, List.foldl_nil, Frame.act, bottom]
    rw [if_pos (by omega)]
    simp only [size.1, size.2, Nat.sub_self, Nat.zero_min]
    have row : min (rows - 1 - 1) (rows - 1) = rows - 2 := by omega
    rw [row]
    rfl
  refine last _ ?_
  have once := feed_size { frame with col := 0 }
  have twice := feed_size { { frame with col := 0 }.feed with col := 0 }
  exact ⟨(twice.1.trans once.1).trans size.1, (twice.2.trans once.2).trans size.2⟩

/-- A new viewer puts the cursor into the last row above its status line. -/
theorem new_painting (law : widths.Lawful) (lawful : emulator.Lawful widths.cells settled view) (tall : 3 ≤ rows)
    (wide : 8 ≤ cols) (boxName session : Text) (colour : Bool)
    (size : terminal.frame.height = rows ∧ terminal.frame.cols = cols) :
    ∃ entered status tape,
      display widths glyphs terminal (SessionViewer.new widths emulator boxName session true colour (rows, cols) now).2 =
        some entered ∧
      Painting widths settled view glyphs rows cols entered.rows 0
        (SessionViewer.new widths emulator boxName session true colour (rows, cols) now).1 entered status tape := by
  let initial := "\r\n\r\n".toList ++ csi ("1;".toList ++ showNat (rows - 1)) 'r' ++
    csi (showNat (rows - 1) ++ ";1".toList) 'H'
  have read : Reads initial (entering rows) :=
    ((reads_return.append reads_return).append (reads_margins (rows - 1))).append (reads_left (by omega))
  obtain ⟨fresh, framed⟩ := lawful.start rows cols (by omega) (by omega)
  obtain ⟨settled', view'⟩ := lawful.process _ _ _ fresh read
  let status : StatusState State :=
    { parser := emulator.process (emulator.new rows cols) (utf8 initial), filter := {}, rows, cols,
      label := boxName ++ ':' :: session, finished := false, readOnly := true, colour, resources := false, usage := none }
  have opened : SessionViewer.new widths emulator boxName session true colour (rows, cols) now =
      (⟨some status, [], (rows, cols)⟩, utf8 initial ++ status.bar widths emulator now) := by
    have content : (if 3 ≤ rows then rows - 1 else rows) = rows - 1 := if_pos tall
    have shown : ¬(true = false ∨ rows < 3 ∨ cols < 8) := by simp; omega
    unfold SessionViewer.new StatusState.enter
    rw [if_neg shown]
    simp only [StatusState.contentRows, content]
    rfl
  let begun := terminal.run widths.cells glyphs (entering rows)
  have frame : begun.frame = ⟨rows, cols, rows - 2, 0, 0, rows - 2⟩ := by
    rw [Terminal.run_frame]
    exact entering_frame size tall
  have follows : Follows settled view rows cols begun.frame status := by
    refine ⟨calm_start, rfl, rfl, settled', ?_⟩
    rw [frame]
    rw [framed] at view'
    exact view'.trans (entering_frame ⟨rfl, rfl⟩ tall)
  let tape : Nat → Row := fun index => if index ≤ rows - 2 then begun.rows index else glyphs.blank
  have on : begun.On glyphs rows cols (rows - 2) tape 0 (rows - 2 + 0) 0 := by
    refine ⟨frame, Nat.zero_le _, by omega, ?_, ?_⟩
    · intro index inside
      exact (if_pos inside).symm
    · intro index below
      exact if_neg (by omega)
  obtain ⟨doing, bar, entered, follows'⟩ := @bar_on _ _ _ _ _ _ _ _ _ now _ _ _ law lawful tall wide _ _ on follows
  have writes : Writes (utf8 initial ++ status.bar widths emulator now) (entering rows ++ doing) :=
    Writes.append ⟨initial, rfl, read⟩ bar
  rw [opened]
  refine ⟨_, status, tape, writes.display terminal, ?_⟩
  rw [Terminal.run_append]
  refine ⟨rfl, rfl, follows', entered, Nat.le_refl 0, Nat.zero_le _, ?_, ?_, ?_⟩
  · intro index above
    exact (entered.rows index (by omega)).symm
  · intro index inside
    exact absurd inside (Nat.not_lt_zero _)
  · intro none
    exact absurd none (Nat.lt_irrefl 0)

/-- Above the cursor are the rows of the last text, in order; where an earlier text reached further there is nothing; and
the rows above were only moved. -/
structure Shown (widths : UnicodeWidth) (glyphs : Glyphs Row) (entered : Terminal Row) (earlier : List Text)
    (lines : List Text) (cols : Nat) (terminal : Terminal Row) : Prop where
  room : lines.length ≤ terminal.frame.row
  shown : ∀ index (inside : index < lines.length),
    terminal.rows (terminal.frame.row - lines.length + index) = glyphs.line widths.cells lines[index]
  blank : ∀ text ∈ earlier, ∀ index, lines.length ≤ index → index < (wrapped widths cols text).length →
    terminal.rows (terminal.frame.row - lines.length + index) = glyphs.blank
  above : ∃ moved, terminal.frame.row - lines.length + moved = entered.frame.row ∧
    ∀ index < terminal.frame.row - lines.length, terminal.rows index = entered.rows (index + moved)

theorem Painting.shown {entered : Terminal Row} {earlier : List Text}
    (painting : Painting widths settled view glyphs rows cols entered.rows longest viewer terminal status tape)
    (start : entered.frame.row = rows - 2) (longer : ∀ text ∈ earlier, (wrapped widths cols text).length ≤ longest) :
    Shown widths glyphs entered earlier viewer.previous cols terminal := by
  have on := painting.on
  have short := painting.short
  have within := painting.within
  have row : terminal.frame.row = rows - 2 + viewer.previous.length - longest := by rw [on.frame]
  have place (index : Nat) (inside : index ≤ longest) :
      terminal.rows (terminal.frame.row - viewer.previous.length + index) = tape (rows - 2 + index) := by
    have moved : terminal.frame.row - viewer.previous.length + index + longest = rows - 2 + index := by omega
    rw [on.rows _ (by omega), moved]
  refine ⟨by omega, ?_, ?_, ⟨longest, by omega, ?_⟩⟩
  · intro index inside
    rw [place index (by omega)]
    exact painting.lines index inside
  · intro text listed index behind inside
    have below := longer text listed
    rw [place index (by omega)]
    exact painting.blank (by omega) _ (by omega)
  · intro index above
    rw [on.rows _ (by omega)]
    exact painting.above _ (by omega)

def Event.text : Event → Option Text
  | .render _ text => some text
  | .monitorResources => none

theorem session_viewer_rows (widths : UnicodeWidth) (law : widths.Lawful) (emulator : Emulator State)
    (settled : State → Prop) (view : State → Frame) (lawful : emulator.Lawful widths.cells settled view)
    (glyphs : Glyphs Row) (rows cols : Nat) (tall : 3 ≤ rows) (small : rows < 65536) (wide : 8 ≤ cols)
    (terminal : Terminal Row) (size : terminal.frame.height = rows ∧ terminal.frame.cols = cols)
    (boxName session : Text) (colour : Bool) (now : Nat) (events : List Event) (outside : Outside) (text : Text)
    (fits : ∀ event ∈ events ++ [.render outside text], event.Fits widths rows cols) :
    ∃ entered viewer shown,
      display widths glyphs terminal (SessionViewer.new widths emulator boxName session true colour (rows, cols) now).2 =
        some entered ∧
      run widths emulator glyphs (SessionViewer.new widths emulator boxName session true colour (rows, cols) now).1
        entered (events ++ [.render outside text]) = some (viewer, shown) ∧
      Shown widths glyphs entered (events.filterMap Event.text) (wrapped widths cols text) cols shown := by
  obtain ⟨entered, status, tape, displayed, painting⟩ := @new_painting _ _ _ _ _ _ _ _ _ now _ law lawful tall wide
    boxName session colour size
  obtain ⟨reached, longest, status, tape, ran, painting', _, listed'⟩ := run_painting law lawful tall wide small painting
    fun event member => fits event (List.mem_append_left _ member)
  obtain ⟨fixed, short⟩ := fits _ (List.mem_append_right _ List.mem_cons_self)
  obtain ⟨doing, status, tape', writes, previous, final⟩ :=
    render_painting law lawful tall wide small painting' fixed short
  generalize result : reached.1.render widths emulator outside text = last at writes previous final
  refine ⟨entered, last.1, reached.2.run widths.cells glyphs doing, displayed, ?_, ?_⟩
  · rw [run_append, ran, Option.bind_some, run]
    change (display widths glyphs reached.2 (reached.1.render widths emulator outside text).2).bind _ = _
    rw [result, writes.display, Option.bind_some]
    change some ((reached.1.render widths emulator outside text).1, _) = _
    rw [result]
  · rw [← previous]
    refine final.shown ?_ ?_
    · have none := painting.short
      rw [painting.on.frame]
      dsimp only
      omega
    · intro earlier listed
      obtain ⟨event, member, own⟩ := List.mem_filterMap.mp listed
      cases event with
      | monitorResources => cases own
      | render outside text =>
        cases own
        exact (listed' _ _ member).trans (Nat.le_max_left _ _)

end Painting

def sampleWidths : UnicodeWidth where
  char c := some (if c = '🧠' ∨ c = '💾' then 2 else 1)
  str text := extent (fun c => if c = '🧠' ∨ c = '💾' then 2 else 1) text

/-- An emulator that keeps the frame only. -/
def sampleEmulator : Emulator Frame where
  new rows cols := ⟨rows, cols, 0, 0, 0, rows - 1⟩
  process frame bytes :=
    match actions .ground (fromUtf8Lossy bytes) with
    | some read => frame.run sampleWidths.cells read.2
    | none => frame
  setSize frame rows cols := { frame with height := rows, cols }
  cursorPosition frame := (frame.row, frame.col)
  cursorStateFormatted frame := utf8 (showCursor ++ moveTo (frame.row + 1) (frame.col + 1))
  attributesFormatted _ := utf8 "\x1b[m".toList

/-- A row as what has been drawn into it. -/
def sampleGlyphs : Glyphs (List (Nat × Char)) where
  blank := []
  put row col c := row ++ [(col, c)]

theorem sampleWidths_lawful : sampleWidths.Lawful where
  narrow c := by
    change (if c = '🧠' ∨ c = '💾' then 2 else 1) ≤ 3
    split <;> decide
  space := rfl
  words _ _ := rfl

theorem sampleEmulator_lawful : sampleEmulator.Lawful sampleWidths.cells (fun _ => True) id where
  start _ _ _ _ := ⟨trivial, rfl⟩
  process frame text doing _ read := by
    refine ⟨trivial, ?_⟩
    change (match actions .ground (fromUtf8Lossy (utf8 text)) with
      | some read => frame.run sampleWidths.cells read.2
      | none => frame) = _
    rw [fromUtf8Lossy_utf8, read]
    rfl
  cursor _ _ _ := ⟨true, rfl⟩
  attributes _ _ := ⟨_, rfl, rfl⟩

def emptyScreen (rows cols : Nat) : Terminal (List (Nat × Char)) := ⟨⟨rows, cols, 0, 0, 0, rows - 1⟩, fun _ => []⟩

/-- Two lines, then one. -/
theorem shorter_text_rows : ∃ entered viewer shown,
    display sampleWidths sampleGlyphs (emptyScreen 24 80)
      (SessionViewer.new sampleWidths sampleEmulator "work".toList "main".toList true false (24, 80) 0).2 = some entered ∧
    run sampleWidths sampleEmulator sampleGlyphs
      (SessionViewer.new sampleWidths sampleEmulator "work".toList "main".toList true false (24, 80) 0).1 entered
      [.render ⟨(24, 80), [], 0, 0⟩ "a\nb".toList, .render ⟨(24, 80), [], 300, 300⟩ "c".toList] = some (viewer, shown) ∧
    Shown sampleWidths sampleGlyphs entered ["a\nb".toList] (wrapped sampleWidths 80 "c".toList) 80 shown := by
  refine session_viewer_rows sampleWidths sampleWidths_lawful sampleEmulator (fun _ => True) id sampleEmulator_lawful
    sampleGlyphs 24 80 (by decide) (by decide) (by decide) (emptyScreen 24 80) ⟨rfl, rfl⟩ "work".toList "main".toList
    false 0 [.render ⟨(24, 80), [], 0, 0⟩ "a\nb".toList] ⟨(24, 80), [], 300, 300⟩ "c".toList ?_
  intro event listed
  rcases List.mem_cons.mp listed with rfl | listed
  · exact ⟨rfl, by decide⟩
  · rw [List.mem_singleton.mp listed]
    exact ⟨rfl, by decide⟩

set_option maxRecDepth 4000 in
/-- Five columns are too few for a status line: the text is printed with an empty row behind it. -/
theorem narrow_terminal_spaced : ∃ entered viewer shown,
    display sampleWidths sampleGlyphs (emptyScreen 24 5)
      (SessionViewer.new sampleWidths sampleEmulator "b".toList "s".toList true false (24, 5) 0).2 = some entered ∧
    run sampleWidths sampleEmulator sampleGlyphs
      (SessionViewer.new sampleWidths sampleEmulator "b".toList "s".toList true false (24, 5) 0).1 entered
      [.render ⟨(24, 5), [], 0, 0⟩ "a".toList] = some (viewer, shown) ∧
    ¬Shown sampleWidths sampleGlyphs entered [] (wrapped sampleWidths 5 "a".toList) 5 shown := by
  let act (c : Char) : Action := if c = '\n' then .lineFeed else .put c
  let heading : Text := "Watching b:s (read-only)\n  Ctrl+C exits the viewer. The session keeps running.\n".toList
  have headed : Writes (SessionViewer.new sampleWidths sampleEmulator "b".toList "s".toList true false (24, 5) 0).2
      (heading.map act) := ⟨heading, rfl, rfl⟩
  have printed : Writes (utf8 "a\n\n".toList) [.put 'a', .lineFeed, .lineFeed] := ⟨_, rfl, rfl⟩
  let entered := (emptyScreen 24 5).run sampleWidths.cells sampleGlyphs (heading.map act)
  refine ⟨entered, ⟨none, ["a".toList], (24, 5)⟩,
    entered.run sampleWidths.cells sampleGlyphs [.put 'a', .lineFeed, .lineFeed], headed.display _, ?_, ?_⟩
  · rw [run]
    change (display sampleWidths sampleGlyphs _ (utf8 "a\n\n".toList)).bind _ = _
    rw [printed.display]
    rfl
  · intro shown
    have row := shown.shown 0 (by decide)
    exact absurd row (by decide)

end Pbox.Cli.Viewer
