import Pbox.Lib.Filter
import Pbox.Lib.Osc
import Pbox.Cli.RecipeApply

/-! `TitlePrefix`: the name of the box is put before the titles that a remote program gives its window. -/

namespace Pbox.Cli.Titles
open Pbox.Lib.Strings Pbox.Lib.Filter Pbox.Lib.Osc
open Pbox.Cli.RecipeApply (safeTerminalText)

structure TitlePrefix where
  title : Option Bytes
  pending : Bytes
  inOsc : Bool
  escaped : Bool
  deriving DecidableEq

def TitlePrefix.new (name : Option Text) : TitlePrefix where
  title := name.map fun name => utf8 (safeTerminalText name ++ " · ".toList)
  pending := []
  inOsc := false
  escaped := false

def SEMICOLON : UInt8 := 59

/-- `0`, `1` and `2`: the commands that set the icon's name, the title or both. -/
def titleDigits : Bytes := [48, 49, 50]

/-- What may still become a header. -/
def partialHeader (pending : Bytes) : Bool :=
  pending == [ESC] || pending == [ESC, BRACKET] || titleDigits.any fun digit => pending == [ESC, BRACKET, digit]

def header (pending : Bytes) : Bool := titleDigits.any fun digit => pending == [ESC, BRACKET, digit, SEMICOLON]

/-- One pass of the loop of `push`, and the bytes that it puts out. -/
def pushByte (title : Bytes) (filter : TitlePrefix) (byte : UInt8) : TitlePrefix × Bytes :=
  if filter.inOsc then
    ({ filter with inOsc := !(byte == 7 || filter.escaped && byte == BACKSLASH), escaped := byte == 27 }, [byte])
  else
    let pending := filter.pending ++ [byte]
    if partialHeader pending then ({ filter with pending }, [])
    else if header pending then ({ filter with pending := [], inOsc := true, escaped := false }, pending ++ title)
    else
      let opened := [ESC, BRACKET].isPrefixOf pending
      let inOsc := if opened then byte != 7 else filter.inOsc
      let escaped := if opened then byte == 27 else filter.escaped
      if !inOsc && 1 < pending.length && byte == 27 then
        ({ filter with pending := [27], inOsc, escaped }, pending.dropLast)
      else ({ filter with pending := [], inOsc, escaped }, pending)

def push (filter : TitlePrefix) (data : Bytes) : TitlePrefix × Bytes :=
  match filter.title with
  | none => (filter, data)
  | some title => feed (pushByte title) filter data

def finish (filter : TitlePrefix) : Bytes := filter.pending

/-- The bytes that come out of the filter when the data comes in chunks. -/
def filtered (filter : TitlePrefix) : List Bytes → Bytes
  | [] => finish filter
  | chunk :: rest => (push filter chunk).2 ++ filtered (push filter chunk).1 rest

/-- A piece of the stream with the title put behind the header, if it has one. -/
def titled (title : Bytes) : Piece → Bytes
  | .osc (digit :: semicolon :: text) =>
    if digit ∈ titleDigits ∧ semicolon = SEMICOLON then ESC :: BRACKET :: digit :: semicolon :: (title ++ text)
    else ESC :: BRACKET :: digit :: semicolon :: text
  | piece => piece.bytes

theorem titled_nil (piece : Piece) : titled [] piece = piece.bytes := by
  unfold titled
  split
  · split
    · rfl
    · rfl
  · rfl

/-- A stream with its titles put in. -/
def retitled (title input : Bytes) : Bytes := (pieces input).flatMap (titled title)

/-! What the filter makes of the rest of the stream, from every state that it can be in. -/

section Meaning

variable {title : Bytes}

def retitledFrom (title : Bytes) (filter : TitlePrefix) (rest : Bytes) : Bytes :=
  if filter.inOsc then content filter.escaped rest ++ retitled title (behind filter.escaped rest)
  else retitled title (filter.pending ++ rest)

/-- What is held back: nothing inside of a string, and outside nothing or a beginning of a header. -/
def Holds (filter : TitlePrefix) : Prop :=
  if filter.inOsc then filter.pending = [] else filter.pending = [] ∨ partialHeader filter.pending = true

theorem retitled_other {byte : UInt8} {rest : Bytes} (other : opens byte rest = false) :
    retitled title (byte :: rest) = byte :: retitled title rest := by
  unfold retitled
  rw [pieces_other other]
  rfl

theorem retitled_plain {byte : UInt8} (plain : byte ≠ ESC) (rest : Bytes) :
    retitled title (byte :: rest) = byte :: retitled title rest :=
  retitled_other (by unfold opens; rw [beq_false_of_ne plain]; rfl)

theorem retitled_osc (rest : Bytes) : retitled title (ESC :: BRACKET :: rest) =
    titled title (.osc (content false rest)) ++ retitled title (behind false rest) := by
  unfold retitled
  rw [pieces_osc]
  rfl

/-- Everything that may be held back outside of a string. -/
theorem partialHeader_iff (pending : Bytes) : partialHeader pending = true ↔
    pending = [ESC] ∨ pending = [ESC, BRACKET] ∨ ∃ digit ∈ titleDigits, pending = [ESC, BRACKET, digit] := by
  unfold partialHeader
  rw [Bool.or_eq_true, Bool.or_eq_true, beq_iff_eq, beq_iff_eq, List.any_eq_true, or_assoc]
  simp only [beq_iff_eq]

section Steps

variable {known : Option Bytes} {escaped : Bool} {byte : UInt8}

/-- Inside of a string. -/
theorem push_inside (pending : Bytes) : pushByte title ⟨known, pending, true, escaped⟩ byte =
    (⟨known, pending, !closes escaped byte, byte == ESC⟩, [byte]) := rfl

theorem partial_second : partialHeader [ESC, byte] = (byte == BRACKET) := by
  simp [partialHeader, titleDigits]

theorem partial_third : partialHeader [ESC, BRACKET, byte] = decide (byte ∈ titleDigits) := by
  simp [partialHeader, titleDigits, Bool.beq_eq_decide_eq]

theorem partial_fourth (digit : UInt8) : partialHeader [ESC, BRACKET, digit, byte] = false := by
  simp [partialHeader, titleDigits]

theorem header_second : header [ESC, byte] = false := by simp [header, titleDigits]

theorem header_third : header [ESC, BRACKET, byte] = false := by simp [header, titleDigits]

theorem header_fourth {digit : UInt8} (listed : digit ∈ titleDigits) :
    header [ESC, BRACKET, digit, byte] = (byte == SEMICOLON) := by
  have chosen : ∀ other, ([ESC, BRACKET, digit, byte] == [ESC, BRACKET, other, SEMICOLON]) =
      (digit == other && byte == SEMICOLON) := by
    intro other
    simp [Bool.beq_eq_decide_eq]
  unfold header
  simp only [chosen]
  rw [Bool.eq_iff_iff, List.any_eq_true]
  constructor
  · intro any
    obtain ⟨other, _, same⟩ := any
    exact (Bool.and_eq_true_iff.mp same).2
  · intro same
    exact ⟨digit, listed, Bool.and_eq_true_iff.mpr ⟨beq_self_eq_true _, same⟩⟩

/-- A byte does not end a string and begin an escape at once. -/
theorem no_trailing (long : Bool) : (!(byte != 7) && long && byte == 27) = false := by
  by_cases bell : byte = 7
  · rw [bell, beq_false_of_ne (show (7 : UInt8) ≠ 27 by decide), Bool.and_false]
  · rw [bne, beq_false_of_ne bell]
    rfl

/-- Where a title may begin, with nothing held back. -/
theorem push_first : pushByte title ⟨known, [], false, escaped⟩ byte =
    if byte = ESC then (⟨known, [ESC], false, escaped⟩, []) else (⟨known, [], false, escaped⟩, [byte]) := by
  by_cases escape : byte = ESC
  · rw [if_pos escape, escape]
    rfl
  · rw [if_neg escape]
    have plain : partialHeader [byte] = false := by simp [partialHeader, titleDigits, escape]
    unfold pushByte
    simp only [List.nil_append, plain, Bool.false_eq_true, ite_false]
    have other : header [byte] = false := by simp [header, titleDigits]
    have opened : [ESC, BRACKET].isPrefixOf [byte] = false := by simp [List.isPrefixOf]
    rw [other, opened]
    rfl

/-- Behind an escape. -/
theorem push_second : pushByte title ⟨known, [ESC], false, escaped⟩ byte =
    if byte = BRACKET then (⟨known, [ESC, BRACKET], false, escaped⟩, [])
    else if byte = ESC then (⟨known, [ESC], false, escaped⟩, [ESC])
    else (⟨known, [], false, escaped⟩, [ESC, byte]) := by
  unfold pushByte
  simp only [List.cons_append, List.nil_append, partial_second, header_second, Bool.false_eq_true, ite_false, beq_iff_eq]
  by_cases bracket : byte = BRACKET
  · rw [if_pos bracket, if_pos bracket, bracket]
  · rw [if_neg bracket, if_neg bracket]
    have opened : [ESC, BRACKET].isPrefixOf [ESC, byte] = false := by
      simpa [List.isPrefixOf] using fun same => bracket same.symm
    rw [opened]
    by_cases escape : byte = ESC
    · rw [if_pos escape, escape]
      rfl
    · rw [if_neg escape, beq_false_of_ne (b := (27 : UInt8)) escape]
      rfl

/-- Behind the opening of a string. -/
theorem push_third : pushByte title ⟨known, [ESC, BRACKET], false, escaped⟩ byte =
    if byte ∈ titleDigits then (⟨known, [ESC, BRACKET, byte], false, escaped⟩, [])
    else (⟨known, [], byte != BEL, byte == ESC⟩, [ESC, BRACKET, byte]) := by
  unfold pushByte
  simp only [List.cons_append, List.nil_append, partial_third, header_third, Bool.false_eq_true, ite_false,
    decide_eq_true_eq]
  by_cases digit : byte ∈ titleDigits
  · rw [if_pos digit, if_pos digit]
  · rw [if_neg digit, if_neg digit]
    have opened : [ESC, BRACKET].isPrefixOf [ESC, BRACKET, byte] = true := rfl
    rw [opened, if_pos rfl, if_pos rfl, no_trailing]
    rfl

/-- Behind the opening and a digit. -/
theorem push_fourth {digit : UInt8} (listed : digit ∈ titleDigits) :
    pushByte title ⟨known, [ESC, BRACKET, digit], false, escaped⟩ byte =
      if byte = SEMICOLON then (⟨known, [], true, false⟩, [ESC, BRACKET, digit, SEMICOLON] ++ title)
      else (⟨known, [], byte != BEL, byte == ESC⟩, [ESC, BRACKET, digit, byte]) := by
  unfold pushByte
  simp only [List.cons_append, List.nil_append, partial_fourth, header_fourth listed, Bool.false_eq_true, ite_false,
    beq_iff_eq]
  by_cases semicolon : byte = SEMICOLON
  · rw [if_pos semicolon, if_pos semicolon, semicolon]
  · rw [if_neg semicolon, if_neg semicolon]
    have opened : [ESC, BRACKET].isPrefixOf [ESC, BRACKET, digit, byte] = true := rfl
    rw [opened, if_pos rfl, if_pos rfl, no_trailing]
    rfl

end Steps

theorem titled_plain {first : UInt8} (other : first ∉ titleDigits) (text : Bytes) :
    titled title (.osc (first :: text)) = ESC :: BRACKET :: first :: text := by
  cases text with
  | nil => rfl
  | cons second text =>
    exact if_neg fun both => other both.1

theorem titled_digit {second : UInt8} (other : second ≠ SEMICOLON) (digit : UInt8) (text : Bytes) :
    titled title (.osc (digit :: second :: text)) = ESC :: BRACKET :: digit :: second :: text := by
  exact if_neg fun both => other both.2

theorem titled_header {digit : UInt8} (listed : digit ∈ titleDigits) (text : Bytes) :
    titled title (.osc (digit :: SEMICOLON :: text)) = ESC :: BRACKET :: digit :: SEMICOLON :: (title ++ text) := by
  exact if_pos ⟨listed, rfl⟩

/-- The first byte of a string ends it only if it is a bell. -/
theorem content_bell (rest : Bytes) : content false (BEL :: rest) = [BEL] ∧ behind false (BEL :: rest) = rest :=
  ⟨rfl, rfl⟩

theorem content_cons {byte : UInt8} (other : byte ≠ BEL) (rest : Bytes) :
    content false (byte :: rest) = byte :: content (byte == ESC) rest ∧
      behind false (byte :: rest) = behind (byte == ESC) rest := by
  have goes_on : ¬closes false byte = true := by
    unfold closes
    rw [beq_false_of_ne other]
    exact Bool.false_ne_true
  exact ⟨if_neg goes_on, if_neg goes_on⟩

theorem content_starts (byte : UInt8) (rest : Bytes) : ∃ text, content false (byte :: rest) = byte :: text := by
  unfold content
  split
  · exact ⟨[], rfl⟩
  · exact ⟨_, rfl⟩

/-- The rest of a stream behind the first byte of a string. -/
theorem retitledFrom_opened {known : Option Bytes} (byte : UInt8) (rest : Bytes) :
    content false (byte :: rest) ++ retitled title (behind false (byte :: rest)) =
      byte :: retitledFrom title ⟨known, [], byte != BEL, byte == ESC⟩ rest := by
  unfold retitledFrom
  by_cases bell : byte = BEL
  · rw [bell]
    rfl
  · rw [(content_cons bell rest).1, (content_cons bell rest).2, bne, beq_false_of_ne bell]
    rfl

theorem content_digit {digit : UInt8} (listed : digit ∈ titleDigits) (rest : Bytes) :
    content false (digit :: rest) = digit :: content false rest ∧ behind false (digit :: rest) = behind false rest := by
  have other : digit ≠ BEL ∧ digit ≠ ESC := by
    have all := List.all_eq_true.mp (show titleDigits.all (fun digit => digit != BEL && digit != ESC) = true from rfl)
    have both := Bool.and_eq_true_iff.mp (all digit listed)
    exact ⟨bne_iff_ne.mp both.1, bne_iff_ne.mp both.2⟩
  have split := content_cons other.1 rest
  rwa [beq_false_of_ne other.2] at split

theorem holds_outside {known : Option Bytes} {pending : Bytes} {escaped : Bool} :
    Holds ⟨known, pending, false, escaped⟩ ↔ pending = [] ∨ pending = [ESC] ∨ pending = [ESC, BRACKET] ∨
      ∃ digit ∈ titleDigits, pending = [ESC, BRACKET, digit] :=
  or_congr_right (partialHeader_iff pending)

/-- With nothing held back the filter is in order, inside of a string or outside. -/
theorem holds_nothing (known : Option Bytes) (inOsc escaped : Bool) : Holds ⟨known, [], inOsc, escaped⟩ := by
  cases inOsc with
  | true => rfl
  | false => exact .inl rfl

/-- Each byte adds to what comes out what the whole stream asks for. -/
theorem push_meaning (title : Bytes) : Meaning (pushByte title) Holds (retitledFrom title) where
  keeps filter byte holds := by
    obtain ⟨known, pending, inOsc, escaped⟩ := filter
    cases inOsc with
    | true =>
      have nothing : pending = [] := holds
      rw [push_inside, nothing]
      exact holds_nothing _ _ _
    | false =>
      rcases holds_outside.mp holds with rfl | rfl | rfl | ⟨digit, listed, rfl⟩
      · rw [push_first]
        split
        · exact holds_outside.mpr (.inr (.inl rfl))
        · exact holds_nothing _ _ _
      · rw [push_second]
        split
        · exact holds_outside.mpr (.inr (.inr (.inl rfl)))
        · split
          · exact holds_outside.mpr (.inr (.inl rfl))
          · exact holds_nothing _ _ _
      · rw [push_third]
        split
        next digit => exact holds_outside.mpr (.inr (.inr (.inr ⟨byte, digit, rfl⟩)))
        next => exact holds_nothing _ _ _
      · rw [push_fourth listed]
        split
        · exact holds_nothing _ _ _
        · exact holds_nothing _ _ _
  step filter byte rest holds := by
    obtain ⟨known, pending, inOsc, escaped⟩ := filter
    cases inOsc with
    | true =>
      have nothing : pending = [] := holds
      rw [push_inside, nothing]
      change content escaped (byte :: rest) ++ retitled title (behind escaped (byte :: rest)) = byte :: retitledFrom _ _ _
      unfold content behind retitledFrom
      cases closes escaped byte with
      | true => rfl
      | false => rfl
    | false =>
      rcases holds_outside.mp holds with rfl | rfl | rfl | ⟨digit, listed, rfl⟩
      · rw [push_first]
        change retitled title (byte :: rest) = _
        split
        next escape => rw [escape]; rfl
        next plain => exact retitled_plain plain rest
      · rw [push_second]
        change retitled title (ESC :: byte :: rest) = _
        split
        next bracket => rw [bracket]; rfl
        next other =>
          have apart : opens ESC (byte :: rest) = false := by
            unfold opens
            simpa using other
          rw [retitled_other apart]
          split
          next escape => rw [escape]; rfl
          next plain => exact congrArg (ESC :: ·) (retitled_plain plain rest)
      · rw [push_third]
        change retitled title (ESC :: BRACKET :: byte :: rest) = _
        split
        next => rfl
        next other =>
          obtain ⟨text, starts⟩ := content_starts byte rest
          have opened := @retitledFrom_opened title known byte rest
          rw [starts] at opened
          rw [retitled_osc, starts, titled_plain other]
          exact congrArg (fun text => ESC :: BRACKET :: text) opened
      · rw [push_fourth listed]
        change retitled title (ESC :: BRACKET :: digit :: byte :: rest) = _
        have digits := content_digit listed (byte :: rest)
        rw [retitled_osc, digits.1, digits.2]
        split
        next semicolon =>
          have split := content_cons (show SEMICOLON ≠ BEL by decide) rest
          rw [semicolon, split.1, split.2, titled_header listed]
          exact congrArg (fun text => ESC :: BRACKET :: digit :: SEMICOLON :: text) (List.append_assoc _ _ _)
        next other =>
          obtain ⟨text, starts⟩ := content_starts byte rest
          have opened := @retitledFrom_opened title known byte rest
          rw [starts] at opened
          rw [starts, titled_digit other]
          exact congrArg (fun text => ESC :: BRACKET :: digit :: text) opened

theorem meaning_end {filter : TitlePrefix} (holds : Holds filter) : retitledFrom title filter [] = finish filter := by
  obtain ⟨known, pending, inOsc, escaped⟩ := filter
  cases inOsc with
  | true =>
    have nothing : pending = [] := holds
    rw [nothing]
    unfold retitledFrom retitled
    rw [if_pos rfl, behind, pieces]
    rfl
  | false =>
    unfold retitledFrom retitled
    rw [if_neg Bool.false_ne_true, List.append_nil]
    rcases holds_outside.mp holds with rfl | rfl | rfl | ⟨digit, listed, rfl⟩
    · rw [pieces]
      rfl
    · rw [pieces_other rfl, pieces]
      rfl
    · rw [pieces_osc, behind, pieces]
      rfl
    · rw [pieces_osc, (content_digit listed []).1, (content_digit listed []).2, behind, pieces]
      rfl

theorem pushByte_title (filter : TitlePrefix) (byte : UInt8) :
    (pushByte title filter byte).1.title = filter.title := by
  unfold pushByte
  dsimp only
  repeat' split
  all_goals rfl

theorem feed_title (filter : TitlePrefix) (data : Bytes) :
    (feed (pushByte title) filter data).1.title = filter.title := by
  induction data generalizing filter with
  | nil => rfl
  | cons byte rest ih => exact (ih _).trans (pushByte_title filter byte)

theorem filtered_feed {filter : TitlePrefix} (known : filter.title = some title) (chunks : List Bytes) :
    filtered filter chunks = (feed (pushByte title) filter chunks.flatten).2 ++
      finish (feed (pushByte title) filter chunks.flatten).1 := by
  induction chunks generalizing filter with
  | nil => rfl
  | cons chunk rest ih =>
    have pushed : push filter chunk = feed (pushByte title) filter chunk := by
      unfold push
      rw [known]
    rw [List.flatten_cons, feed_append]
    unfold filtered
    rw [pushed, ih ((feed_title filter chunk).trans known)]
    exact (List.append_assoc _ _ _).symm

end Meaning

theorem filtered_plain {filter : TitlePrefix} (none : filter.title = none) (chunks : List Bytes) :
    filtered filter chunks = chunks.flatten ++ filter.pending := by
  induction chunks with
  | nil => rfl
  | cons chunk rest ih =>
    have pushed : push filter chunk = (filter, chunk) := by
      unfold push
      rw [none]
    unfold filtered
    rw [pushed, ih]
    exact (List.append_assoc _ _ _).symm

theorem filtered_eq (name : Option Text) (chunks : List Bytes) :
    filtered (TitlePrefix.new name) chunks = retitled ((TitlePrefix.new name).title.getD []) chunks.flatten := by
  cases name with
  | none =>
    rw [filtered_plain rfl]
    change chunks.flatten ++ [] = (pieces chunks.flatten).flatMap (titled [])
    rw [List.append_nil, funext titled_nil, (pieces_stream _).bytes]
  | some name =>
    let title := utf8 (safeTerminalText name ++ " · ".toList)
    have start : Holds (TitlePrefix.new (some name)) := holds_nothing _ _ _
    have whole := (push_meaning title).feed start chunks.flatten []
    rw [meaning_end ((push_meaning title).feed_valid start _), List.append_nil] at whole
    rw [@filtered_feed title _ rfl, ← whole]
    rfl

/-- The stream is put out with the title behind each header of a string that begins outside of another, wherever it was
cut; without what was put in it is the stream that came in. -/
theorem titles_inserted (name : Option Text) (chunks : List Bytes) :
    Stream chunks.flatten (pieces chunks.flatten) ∧
    filtered (TitlePrefix.new name) chunks =
      (pieces chunks.flatten).flatMap (titled ((TitlePrefix.new name).title.getD [])) ∧
    (pieces chunks.flatten).flatMap (titled []) = chunks.flatten ∧
    ∀ others : List Bytes, others.flatten = chunks.flatten →
      filtered (TitlePrefix.new name) others = filtered (TitlePrefix.new name) chunks := by
  refine ⟨pieces_stream _, filtered_eq name chunks, ?_, fun others same => ?_⟩
  · rw [funext titled_nil, (pieces_stream _).bytes]
  · rw [filtered_eq, filtered_eq, same]

end Pbox.Cli.Titles
