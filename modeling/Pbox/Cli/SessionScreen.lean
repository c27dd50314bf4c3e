import Pbox.Cli.SessionViewer

/-! What a terminal shows that reads what the viewer writes. -/

namespace Pbox.Cli.Viewer
open Pbox.Lib.Strings Pbox.Lib.Numerals Pbox.Lib.Utf8 Pbox.Lib.Screen
open Pbox.Lib.Ecma48 (Bytes ESC)
open Pbox.Cli.Viewport (ViewportFilter push pushFrom pushByte utf8After isFinal)
open Pbox.Cli.RecipeApply (safeTerminalText)

/-! Sequences. -/

section Sequences
variable {row col count : Nat}

theorem showNat_inside {n : Nat} : ∀ c ∈ showNat n, (0x20 ≤ c.toNat ∧ c.toNat ≤ 0x3f) ∧ isParameter c = true := by
  intro c member
  have digit := showNat_isDigit member
  have bounds := digit_bounds digit
  refine ⟨⟨by omega, by omega⟩, ?_⟩
  unfold isParameter
  rw [digit]
  rfl

theorem showNat_free (n : Nat) : ';' ∉ showNat n := by
  intro member
  exact absurd (showNat_isDigit member) (by decide)

theorem splitOn_showNat (n : Nat) : (showNat n).splitOn ';' = [showNat n] :=
  List.splitOn_eq_singleton (showNat_free n)

theorem parameter_alone (n : Nat) : parameter (showNat n) 0 = n := by
  unfold parameter
  rw [splitOn_showNat, List.getElem?_cons_zero, Option.bind_some, digits_showNat, Option.getD_some]

theorem splitOn_two (first second : Nat) :
    (showNat first ++ ';' :: showNat second).splitOn ';' = [showNat first, showNat second] := by
  rw [List.splitOn_append_cons_self, splitOn_showNat, splitOn_showNat]
  rfl

theorem parameter_first (first second : Nat) : parameter (showNat first ++ ';' :: showNat second) 0 = first := by
  unfold parameter
  rw [splitOn_two, List.getElem?_cons_zero, Option.bind_some, digits_showNat, Option.getD_some]

theorem parameter_second (first second : Nat) : parameter (showNat first ++ ';' :: showNat second) 1 = second := by
  unfold parameter
  rw [splitOn_two, List.getElem?_cons_succ, List.getElem?_cons_zero, Option.bind_some, digits_showNat, Option.getD_some]

/-- A body of numbers, and what it is in the reading of a terminal. -/
structure Numbers (body : Text) : Prop where
  inside : ∀ c ∈ body, 0x20 ≤ c.toNat ∧ c.toNat ≤ 0x3f
  every : body.all isParameter = true

theorem numbers_one (n : Nat) : Numbers (showNat n) where
  inside c member := (showNat_inside c member).1
  every := List.all_eq_true.mpr fun c member => (showNat_inside c member).2

theorem numbers_two (first second : Nat) : Numbers (showNat first ++ ';' :: showNat second) where
  inside c member := by
    rcases List.mem_append.mp member with early | late
    · exact (showNat_inside c early).1
    · rcases List.mem_cons.mp late with separator | late
      · subst separator
        exact ⟨by decide, by decide⟩
      · exact (showNat_inside c late).1
  every := by
    rw [List.all_append, List.all_cons, (numbers_one first).every, (numbers_one second).every]
    rfl

theorem reads_up (positive : 0 < count) : Reads (up count) [.up count] := by
  refine reads_sequence (numbers_one count).inside (by decide) ?_
  unfold sequenceActions
  rw [if_pos (numbers_one count).every, if_neg (by decide), if_pos rfl, parameter_alone, Nat.max_eq_right positive]

theorem reads_position (down : 0 < row) (right : 0 < col) : Reads (position row col) [.position row col] := by
  refine reads_sequence (numbers_two row col).inside (by decide) ?_
  unfold sequenceActions
  rw [if_pos (numbers_two row col).every, if_neg (by decide), if_neg (by decide), if_neg (by simp), if_neg (by simp),
    if_pos rfl, parameter_first, parameter_second, Nat.max_eq_right down, Nat.max_eq_right right]

theorem reads_margins (bottom : Nat) : Reads (csi ("1;".toList ++ showNat bottom) 'r') [.margins bottom] := by
  have body : "1;".toList ++ showNat bottom = showNat 1 ++ ';' :: showNat bottom := rfl
  rw [body]
  refine reads_sequence (numbers_two 1 bottom).inside (by decide) ?_
  unfold sequenceActions
  rw [if_pos (numbers_two 1 bottom).every, if_neg (by decide), if_neg (by decide), if_neg (by simp), parameter_first,
    parameter_second, if_pos ⟨rfl, Nat.le_refl 1⟩]

theorem reads_left (down : 0 < row) : Reads (csi (showNat row ++ ";1".toList) 'H') [.position row 1] :=
  reads_position down Nat.one_pos

theorem reads_reset : Reads ansiReset [] := rfl

theorem reads_home : Reads "\x1b[?6l".toList [.home] := rfl

theorem reads_clear : Reads "\r\x1b[2K".toList [.carriageReturn, .eraseRow] := rfl

end Sequences

/-! Texts in colours: what is seen of them is the text. -/

section Colours

theorem safeTerminalText_printing (value : Text) : ∀ c ∈ safeTerminalText value, isPrinting c = true := by
  intro c member
  obtain ⟨original, _, rfl⟩ := List.mem_map.mp member
  split
  · decide
  · unfold isPrinting
    simp only [Bool.and_eq_true, decide_eq_true_eq, Bool.not_eq_true', Bool.and_eq_false_iff, decide_eq_false_iff_not]
    omega

theorem safeTerminalText_of_printing {value : Text} (printing : ∀ c ∈ value, isPrinting c = true) :
    safeTerminalText value = value := by
  unfold safeTerminalText
  refine (List.map_congr_left ?_).trans (List.map_id value)
  intro c member
  have own := printing c member
  unfold isPrinting at own
  simp only [Bool.and_eq_true, decide_eq_true_eq, Bool.not_eq_true', Bool.and_eq_false_iff,
    decide_eq_false_iff_not] at own
  rw [if_neg (by omega)]
  rfl

theorem reads_paint {enabled : Bool} {code value : Text} (colour : Reads code [])
    (printing : ∀ c ∈ value, isPrinting c = true) : Reads (paint enabled code value) (value.map .put) := by
  have plain := reads_printing printing
  unfold paint
  rw [safeTerminalText_of_printing printing]
  split
  · have whole := (colour.append plain).append reads_reset
    rwa [List.nil_append, List.append_nil] at whole
  · exact plain

theorem trimEnd_parts (metric : Text) : metric = trimEnd metric ++ metric.drop (trimEnd metric).length := by
  have front : trimEnd metric <+: metric := List.rdropWhile_prefix isWhitespace metric
  exact (List.prefix_iff_eq_append.mp front).symm

theorem reads_percentColour (share : Option Nat) : Reads (percentColour share) [] := by
  unfold percentColour
  cases share with
  | none => rfl
  | some share =>
    dsimp only
    split
    · rfl
    · split <;> rfl

theorem reads_colourMetric {metric : Text} (printing : ∀ c ∈ metric, isPrinting c = true) :
    Reads (colourMetric metric) (metric.map .put) := by
  have parts := trimEnd_parts metric
  unfold colourMetric
  split
  next => exact reads_printing printing
  next label value found =>
    have halves := (rsplitOnce_some found).1
    generalize metric.drop (trimEnd metric).length = behind at parts ⊢
    rw [halves] at parts
    subst parts
    have whole : label ++ ' ' :: value ++ behind = (label ++ [' ']) ++ (value ++ behind) := by simp
    rw [whole] at printing ⊢
    have front : Reads (paint true ansiDim (label ++ [' '])) ((label ++ [' ']).map .put) :=
      reads_paint rfl fun c member => printing c (List.mem_append_left _ member)
    have middle (share : Option Nat) : Reads (paint true (percentColour share) value) (value.map .put) :=
      reads_paint (reads_percentColour share) fun c member =>
        printing c (List.mem_append_right _ (List.mem_append_left behind member))
    have back := reads_printing fun c member =>
      printing c (List.mem_append_right _ (List.mem_append_right value member))
    have all := (front.append (middle ((stripSuffix ['%'] value).bind (parseUnsigned 4294967295)))).append back
    rwa [← List.map_append, ← List.map_append, List.append_assoc (label ++ [' '])] at all

theorem reads_colourLeft {left : Text} (printing : ∀ c ∈ left, isPrinting c = true) :
    Reads (colourLeft left) (left.map .put) := by
  have both : Reads (ansiDim ++ ansiCyan) [] := rfl
  unfold colourLeft
  split
  next name controls found =>
    have whole := Lib.Split.splitOnce_some found
    subst whole
    have front : Reads (paint true (ansiDim ++ ansiCyan) name) (name.map .put) :=
      reads_paint both fun c member => printing c (List.mem_append_left _ member)
    have back : Reads (paint true ansiDim ("  |  ".toList ++ controls)) (("  |  ".toList ++ controls).map .put) :=
      reads_paint rfl fun c member => printing c (List.mem_append_right name member)
    have all := front.append back
    rwa [← List.map_append] at all
  next => exact reads_paint both printing

theorem reads_intercalate {separator : Text} {pieces : List Text} {coloured : Text → Text}
    (between : ∀ c ∈ separator, isPrinting c = true)
    (each : ∀ piece ∈ pieces, Reads (coloured piece) (piece.map .put)) :
    Reads (separator.intercalate (pieces.map coloured)) ((separator.intercalate pieces).map .put) := by
  induction pieces with
  | nil => exact reads_nil
  | cons first rest ih =>
    have own := each first List.mem_cons_self
    have later := ih fun piece member => each piece (List.mem_cons_of_mem _ member)
    cases rest with
    | nil =>
      rw [List.map_singleton, List.intercalate_singleton, List.intercalate_singleton]
      exact own
    | cons next rest =>
      rw [List.map_cons, List.map_cons, List.intercalate_cons_cons, List.intercalate_cons_cons, List.map_append,
        List.map_append]
      exact (own.append (reads_printing between)).append later

/-- Colours do not change what the bar says. -/
theorem reads_colourResourceBar {bar : Text} {usage : Option Text} {enabled : Bool}
    (printing : ∀ c ∈ bar, isPrinting c = true) : Reads (colourResourceBar bar usage enabled) (bar.map .put) := by
  unfold colourResourceBar
  split
  · dsimp only
    generalize (usage.bind fun usage => Lib.Split.rfind usage bar).getD bar.length = start
    have left : Reads (colourLeft (bar.take start)) ((bar.take start).map .put) :=
      reads_colourLeft fun c member => printing c (List.mem_of_mem_take member)
    have pieces : "  ".toList.intercalate (Lib.Split.split "  ".toList (bar.drop start)) = bar.drop start :=
      Lib.Split.intercalate_split (by simp)
    have metrics : ∀ piece ∈ Lib.Split.split "  ".toList (bar.drop start),
        Reads (colourMetric piece) (piece.map .put) := by
      intro piece listed
      refine reads_colourMetric fun c member => printing c ?_
      have inside : c ∈ bar.drop start := by
        rw [← pieces]
        exact Lib.Split.subset_intercalate listed member
      exact List.mem_of_mem_drop inside
    have right : Reads _ (("  ".toList.intercalate (Lib.Split.split "  ".toList (bar.drop start))).map .put) :=
      reads_intercalate (List.all_eq_true.mp rfl) metrics
    rw [pieces] at right
    have all := left.append right
    rwa [← List.map_append, List.take_append_drop] at all
  · exact reads_printing printing

end Colours

/-! The bar has room in its row. -/

section Fitting
variable {widths : UnicodeWidth} {room used : Nat} {text : Text}

theorem fitting_spec (start : used ≤ room) :
    (fitting widths room used text).2 = used + extent widths.cells (fitting widths room used text).1 ∧
      (fitting widths room used text).2 ≤ room ∧ (fitting widths room used text).1 <+: text := by
  induction text generalizing used with
  | nil => exact ⟨rfl, start, List.prefix_rfl⟩
  | cons c rest ih =>
    unfold fitting
    split
    · exact ⟨rfl, start, List.nil_prefix⟩
    · obtain ⟨total, within, front⟩ := @ih (used + widths.cells c) (by omega)
      refine ⟨?_, within, ?_⟩
      · dsimp only
        rw [total, extent, Nat.add_assoc]
      · exact List.cons_prefix_cons.mpr ⟨rfl, front⟩

/-- The characters of the bar's own words. -/
def IsWord (c : Char) : Prop := (32 ≤ c.toNat ∧ c.toNat < 127) ∨ c ∈ "⚙🧠💾—·".toList

/-- What is relied on of the widths: no character is wider than three columns, a blank takes one, and the characters of
the bar's own words are taken one by one. -/
structure UnicodeWidth.Lawful (widths : UnicodeWidth) : Prop where
  narrow : ∀ c, widths.cells c ≤ 3
  space : widths.char ' ' = some 1
  words : ∀ text : Text, (∀ c ∈ text, IsWord c) → widths.str text = extent widths.cells text

theorem extent_blanks (law : widths.Lawful) (count : Nat) :
    extent widths.cells (List.replicate count ' ') = count := by
  induction count with
  | zero => rfl
  | succ count ih =>
    have one : widths.cells ' ' = 1 := by
      unfold UnicodeWidth.cells
      rw [law.space]
      rfl
    rw [List.replicate_succ, extent, ih, one, Nat.add_comm]

theorem extent_fitViewLabel (law : widths.Lawful) (label suffix : Text) (width : Nat) :
    extent widths.cells (fitViewLabel widths label suffix width) = width := by
  unfold fitViewLabel
  dsimp only
  generalize ' ' :: (fitting widths (width - (widths.str suffix + 6)) 0 (safeTerminalText label)).1 ++
    "  |  ".toList ++ suffix = whole
  obtain ⟨total, within, _⟩ := @fitting_spec widths width 0 whole (Nat.zero_le _)
  rw [extent_append, extent_blanks law]
  omega

theorem printing_fitViewLabel {label suffix : Text} {width : Nat} (words : ∀ c ∈ suffix, isPrinting c = true) :
    ∀ c ∈ fitViewLabel widths label suffix width, isPrinting c = true := by
  intro c member
  unfold fitViewLabel at member
  dsimp only at member
  rcases List.mem_append.mp member with shown | blank
  · have front := (@fitting_spec widths width 0 (' ' :: (fitting widths (width - (widths.str suffix + 6)) 0
      (safeTerminalText label)).1 ++ "  |  ".toList ++ suffix) (Nat.zero_le _)).2.2
    rcases List.mem_append.mp (front.subset shown) with early | own
    · rcases List.mem_append.mp early with name | bar
      · rcases List.mem_cons.mp name with space | name
        · rw [space]
          decide
        · have inside := (@fitting_spec widths (width - (widths.str suffix + 6)) 0 (safeTerminalText label)
            (Nat.zero_le _)).2.2
          exact safeTerminalText_printing label c (inside.subset name)
      · exact List.all_eq_true.mp (by decide : "  |  ".toList.all isPrinting = true) c bar
    · exact words c own
  · rw [List.eq_of_mem_replicate blank]
    decide

theorem percent_words (share : Option Nat) : ∀ c ∈ percent share, IsWord c := by
  intro c member
  cases share with
  | none => exact .inr ((by decide : "—".toList ⊆ "⚙🧠💾—·".toList) member)
  | some share =>
    left
    rcases List.mem_append.mp member with digit | sign
    · have bounds := digit_bounds (showNat_isDigit digit)
      omega
    · rw [List.mem_singleton.mp sign]
      decide

theorem IsWord.printing {c : Char} (word : IsWord c) : isPrinting c = true := by
  rcases word with ascii | sign
  · unfold isPrinting
    simp only [Bool.and_eq_true, decide_eq_true_eq, Bool.not_eq_true', Bool.and_eq_false_iff, decide_eq_false_iff_not]
    omega
  · exact List.all_eq_true.mp (by decide : "⚙🧠💾—·".toList.all isPrinting = true) c sign

theorem resourceLabel_words (usage : Option Usage) : ∀ c ∈ resourceLabel usage, IsWord c := by
  have fixed {words : Text} (every : words.all fun c => (32 ≤ c.toNat && c.toNat < 127) || "⚙🧠💾—·".toList.any fun d => d = c) :
      ∀ c ∈ words, IsWord c := by
    intro c member
    have own := List.all_eq_true.mp every c member
    simp only [Bool.or_eq_true, Bool.and_eq_true, decide_eq_true_eq, List.any_eq_true] at own
    rcases own with ascii | ⟨d, listed, same⟩
    · exact .inl ascii
    · exact .inr (same ▸ listed)
  cases usage with
  | none => exact fixed (by decide)
  | some usage =>
    intro c member
    unfold resourceLabel at member
    simp only [List.mem_append] at member
    rcases member with ((((cpu | share) | mem) | share) | disk) | share
    · exact fixed (by decide) c cpu
    · exact percent_words _ c share
    · exact fixed (by decide) c mem
    · exact percent_words _ c share
    · exact fixed (by decide) c disk
    · exact percent_words _ c share

variable {label suffix : Text} {usage : Option Text} {width : Nat}

theorem extent_fitResourceBar (law : widths.Lawful) (words : ∀ text ∈ usage, ∀ c ∈ text, IsWord c) :
    extent widths.cells (fitResourceBar widths label suffix usage width) = width := by
  unfold fitResourceBar
  split
  next text kept =>
    obtain ⟨given, room⟩ := Option.filter_eq_some_iff.mp kept
    have wide := law.words text (words text given)
    have space := extent_blanks law 1
    rw [List.replicate_one] at space
    have room := of_decide_eq_true room
    have last : ' ' :: text ++ [' '] = [' '] ++ (text ++ [' ']) := rfl
    rw [List.append_assoc, last, extent_append, extent_append, extent_append, extent_fitViewLabel law, space]
    omega
  next => exact extent_fitViewLabel law _ _ _

theorem printing_fitResourceBar (own : ∀ c ∈ suffix, isPrinting c = true)
    (words : ∀ text ∈ usage, ∀ c ∈ text, IsWord c) :
    ∀ c ∈ fitResourceBar widths label suffix usage width, isPrinting c = true := by
  have blank : isPrinting ' ' = true := by decide
  unfold fitResourceBar
  split
  next text kept =>
    intro c member
    rcases List.mem_append.mp member with early | last
    · rcases List.mem_append.mp early with left | right
      · exact printing_fitViewLabel own c left
      · rcases List.mem_cons.mp right with space | word
        · exact space ▸ blank
        · exact (words text (Option.filter_eq_some_iff.mp kept).1 c word).printing
    · exact List.mem_singleton.mp last ▸ blank
  next => exact printing_fitViewLabel own

end Fitting

/-! What the viewer writes passes the filter as it is. -/

section Passing
variable {rows : Nat} {filter : ViewportFilter} {text front back rest output : Text}

/-- Nothing is held back, and no mode that the viewer does not know of is set. -/
structure Calm (filter : ViewportFilter) : Prop where
  ground : filter.state = .ground
  pending : filter.pending = []
  origin : filter.originMode = false
  whole : filter.utf8Remaining = 0

theorem calm_start : Calm {} := ⟨rfl, rfl, rfl, rfl⟩

theorem Calm.canPaint (calm : Calm filter) : filter.canPaint = true := by
  unfold ViewportFilter.canPaint
  rw [calm.ground, calm.whole]
  rfl

/-- The text leaves a calm filter calm and goes out at once. -/
def Passes (rows : Nat) (bytes : Bytes) : Prop :=
  ∀ filter, Calm filter → ∃ filter', Calm filter' ∧ ∀ rest output,
    pushFrom rows (bytes ++ rest) filter output = pushFrom rows rest filter' (output ++ bytes)

theorem passes_nil : Passes rows [] := by
  intro filter calm
  refine ⟨filter, calm, fun rest output => ?_⟩
  rw [List.append_nil]
  rfl

theorem Passes.append {first later : Bytes} (start : Passes rows first) (rest : Passes rows later) :
    Passes rows (first ++ later) := by
  intro filter calm
  obtain ⟨middle, calm, pushed⟩ := start filter calm
  obtain ⟨last, calm, pushed'⟩ := rest middle calm
  refine ⟨last, calm, fun behind output => ?_⟩
  rw [List.append_assoc, pushed, pushed', List.append_assoc]

/-- On the ground a byte goes out, whatever is still to come of a character. -/
theorem pushFrom_ground (ground : filter.state = .ground) {byte : UInt8} (plain : byte ≠ ESC) (rest output : Bytes) :
    pushFrom rows (byte :: rest) filter output =
      pushFrom rows rest { filter with utf8Remaining := utf8After filter.utf8Remaining byte } (output ++ [byte]) := by
  have step : pushByte rows filter byte =
      ({ filter with utf8Remaining := utf8After filter.utf8Remaining byte }, [byte], false) := by
    unfold pushByte
    rw [ground]
    exact if_neg plain
  rw [pushFrom, step]
  rfl

theorem utf8After_continues {byte : UInt8} (continues : Continues byte) (remaining : Nat) :
    utf8After remaining byte = remaining - 1 := by
  unfold Continues at continues
  unfold utf8After
  grind

theorem utf8After_leads {byte : UInt8} (remaining : Nat) :
    (0xc2 ≤ byte ∧ byte ≤ 0xdf → utf8After remaining byte = 1) ∧
      (0xe0 ≤ byte ∧ byte ≤ 0xef → utf8After remaining byte = 2) ∧
      (0xf0 ≤ byte ∧ byte ≤ 0xf4 → utf8After remaining byte = 3) ∧
      (byte < 0x80 → utf8After remaining byte = 0) := by
  unfold utf8After
  grind

theorem continues_plain {byte : UInt8} (continues : Continues byte) : byte ≠ ESC := by
  unfold Continues at continues
  unfold ESC
  grind

/-- The bytes that a character still needs. -/
theorem pushFrom_continues {more : Bytes} (ground : filter.state = .ground) (needed : filter.utf8Remaining = more.length)
    (each : ∀ byte ∈ more, Continues byte) (rest output : Bytes) :
    pushFrom rows (more ++ rest) filter output =
      pushFrom rows rest { filter with utf8Remaining := 0 } (output ++ more) := by
  induction more generalizing filter output with
  | nil =>
    have same : { filter with utf8Remaining := 0 } = filter := by rw [← List.length_nil (α := UInt8), ← needed]
    rw [same, List.append_nil]
    rfl
  | cons byte more ih =>
    have own := each byte List.mem_cons_self
    have fewer : filter.utf8Remaining - 1 = more.length := by rw [needed, List.length_cons, Nat.add_sub_cancel]
    have later := @ih { filter with utf8Remaining := filter.utf8Remaining - 1 } ground fewer
      (fun other member => each other (List.mem_cons_of_mem _ member)) (output ++ [byte])
    rw [List.cons_append, pushFrom_ground ground (continues_plain own), utf8After_continues own, later,
      List.append_assoc, List.singleton_append]

theorem passes_char {c : Char} (plain : c ≠ '\x1b') : Passes rows (String.utf8EncodeChar c) := by
  intro filter calm
  refine ⟨filter, calm, fun rest output => ?_⟩
  have same : { filter with utf8Remaining := 0 } = filter := by rw [← calm.whole]
  -- The first byte says how many go on.
  have led {lead : UInt8} {more : Bytes} (large : 0xc2 ≤ lead)
      (needed : utf8After filter.utf8Remaining lead = more.length) (each : ∀ byte ∈ more, Continues byte) :
      pushFrom rows ((lead :: more) ++ rest) filter output = pushFrom rows rest filter (output ++ (lead :: more)) := by
    have notEscape : lead ≠ ESC := by
      unfold ESC
      grind
    have later := @pushFrom_continues rows { filter with utf8Remaining := utf8After filter.utf8Remaining lead } more
      calm.ground needed each rest (output ++ [lead])
    rw [List.cons_append, pushFrom_ground calm.ground notEscape, later, List.append_assoc, List.singleton_append]
    exact congrArg (fun filter => pushFrom rows rest filter _) same
  rcases encode_cases c with ⟨ascii, bytes⟩ | ⟨lead, a, bytes, range, first⟩ |
    ⟨lead, a, b, bytes, range, first, second⟩ | ⟨lead, a, b, d, bytes, range, first, second, third⟩
  · have small : c.toNat.toUInt8 < 0x80 := by
      rw [UInt8.lt_iff_toNat_lt]
      change c.toNat % 256 < 128
      omega
    have notEscape : c.toNat.toUInt8 ≠ ESC := by
      intro same
      have value := congrArg UInt8.toNat same
      change c.toNat % 256 = 27 at value
      have code : c.toNat = 27 := by omega
      exact plain (Char.toNat_inj.mp code)
    rw [bytes, List.singleton_append, pushFrom_ground calm.ground notEscape, (utf8After_leads _).2.2.2 small, same]
  · rw [bytes]
    exact led range.1 ((utf8After_leads _).1 range) (by simpa using first)
  · rw [bytes]
    exact led (by grind) ((utf8After_leads _).2.1 range) (by simpa using ⟨first, second⟩)
  · rw [bytes]
    exact led (by grind) ((utf8After_leads _).2.2.1 range) (by simpa using ⟨first, second, third⟩)

theorem passes_text {text : Text} (plain : '\x1b' ∉ text) : Passes rows (utf8 text) := by
  induction text with
  | nil => exact passes_nil
  | cons c rest ih =>
    have own : c ≠ '\x1b' := fun same => plain (same ▸ List.mem_cons_self)
    exact (passes_char own).append (ih fun member => plain (List.mem_cons_of_mem _ member))

theorem pushFrom_inside {inside : Bytes} (csi : filter.state = .csi) (each : ∀ byte ∈ inside, isFinal byte = false)
    (short : filter.pending.length + inside.length < 256) (rest output : Bytes) :
    pushFrom rows (inside ++ rest) filter output =
      pushFrom rows rest { filter with pending := filter.pending ++ inside } output := by
  induction inside generalizing filter with
  | nil =>
    rw [List.append_nil]
    rfl
  | cons byte inside ih =>
    rw [List.length_cons] at short
    have step : pushByte rows filter byte = ({ filter with pending := filter.pending ++ [byte] }, [], false) := by
      unfold pushByte
      rw [csi]
      dsimp only
      rw [if_neg (by rw [each byte List.mem_cons_self]; simp), if_neg (by omega)]
    have later := @ih { filter with pending := filter.pending ++ [byte] } csi
      (fun other member => each other (List.mem_cons_of_mem _ member))
      (by rw [List.length_append, List.length_singleton]; omega)
    rw [List.cons_append, pushFrom, step]
    dsimp only
    rw [List.append_nil, if_neg (by simp), later, List.append_assoc, List.singleton_append]

/-- A control sequence of numbers that sets neither margins nor modes. -/
theorem passes_sequence {body : Text} {final : Char} (numbers : Numbers body) (short : body.length < 200)
    (plain : final = 'A' ∨ final = 'K') : Passes rows (utf8 (csi body final)) := by
  intro filter calm
  refine ⟨filter, calm, fun rest output => ?_⟩
  have bytes : utf8 (csi body final) = ESC :: 0x5b :: (utf8 body ++ [Lib.Ascii.byteOf final]) := by
    rw [csi, utf8_append]
    rcases plain with rfl | rfl <;> rfl
  have ascii : Lib.Ascii.IsAscii body := by
    intro c member
    have inside := numbers.inside c member
    omega
  have inside : ∀ byte ∈ utf8 body, isFinal byte = false := by
    intro byte member
    rw [Lib.Ascii.utf8_ascii ascii] at member
    obtain ⟨c, listed, rfl⟩ := List.mem_map.mp member
    have range := numbers.inside c listed
    have value := Lib.Ascii.byteOf_toNat (ascii c listed)
    unfold isFinal
    rw [Bool.and_eq_false_iff]
    left
    rw [decide_eq_false_iff_not, UInt8.le_iff_toNat_le, value]
    change ¬64 ≤ c.toNat
    omega
  have length : (utf8 body).length = body.length := by rw [Lib.Ascii.utf8_ascii ascii, List.length_map]
  let opened : ViewportFilter := { filter with pending := [ESC, 0x5b], state := .csi }
  have opens (rest : Bytes) : pushFrom rows (ESC :: 0x5b :: rest) filter output = pushFrom rows rest opened output := by
    have escape : pushByte rows filter ESC = ({ filter with pending := [ESC], state := .escape }, [], false) := by
      unfold pushByte
      rw [calm.ground, calm.pending]
      rfl
    have bracket : pushByte rows { filter with pending := [ESC], state := .escape } 0x5b = (opened, [], false) := rfl
    rw [pushFrom, escape]
    change pushFrom rows (0x5b :: rest) { filter with pending := [ESC], state := .escape } (output ++ []) = _
    rw [pushFrom, bracket]
    change pushFrom rows rest opened (output ++ [] ++ []) = _
    rw [List.append_nil, List.append_nil]
  let held : ViewportFilter := { filter with pending := ESC :: 0x5b :: utf8 body, state := .csi }
  have closes : pushByte rows held (Lib.Ascii.byteOf final) =
      (filter, held.pending ++ [Lib.Ascii.byteOf final], false) := by
    have same : { held with pending := [], state := .ground } = filter := by
      change { filter with pending := [], state := .ground } = filter
      rw [← calm.pending, ← calm.ground]
    unfold pushByte
    rcases plain with rfl | rfl
    · exact Prod.ext same rfl
    · exact Prod.ext same rfl
  have whole : ESC :: 0x5b :: (utf8 body ++ [Lib.Ascii.byteOf final]) ++ rest =
      ESC :: 0x5b :: (utf8 body ++ (Lib.Ascii.byteOf final :: rest)) := by simp
  have kept := @pushFrom_inside rows opened (utf8 body) rfl inside
    (by change 2 + _ < 256; omega) (Lib.Ascii.byteOf final :: rest) output
  rw [bytes, whole, opens, kept]
  change pushFrom rows (Lib.Ascii.byteOf final :: rest) held output = _
  rw [pushFrom, closes]
  rfl

end Passing

end Pbox.Cli.Viewer
