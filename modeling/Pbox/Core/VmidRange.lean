import Pbox.Core.Vmid
import Pbox.Lib.Ascii

/-! What a VMID pattern is and what it stands for: the numbers that its digits and any digits in the place of its
wildcards spell. Allocation takes the least of them that is free, and never counts past the last. -/

namespace Pbox.Core.Vmid
open Pbox.Lib.Strings Pbox.Lib.Numerals Pbox.Lib.Ascii Pbox.Lib.Checks

/-- A pattern as it is written: digits of which the first is not zero, and one wildcard at least. -/
structure Spelled (text leading : Text) (wildcards : Nat) : Prop where
  text : text = leading ++ List.replicate wildcards 'x'
  digits : ∀ c ∈ leading, c.isDigit = true
  first : ∃ c rest, leading = c :: rest ∧ c ≠ '0'
  wildcards : 0 < wildcards

def value (digits : Text) : Nat := Nat.ofDigitChars 10 digits 0

/-- The largest number that the pattern stands for. -/
def top (leading : Text) (wildcards : Nat) : Nat := value leading * 10 ^ wildcards + 10 ^ wildcards - 1

def range (leading : Text) (wildcards : Nat) : VmidPattern :=
  ⟨value leading, wildcards, value leading * 10 ^ wildcards, top leading wildcards⟩

section Scan
variable {text leading : Text} {wildcards : Nat} {pattern : VmidPattern}

theorem spelled_ascii (spelled : Spelled text leading wildcards) : IsAscii text := by
  intro c member
  rw [spelled.text] at member
  rcases List.mem_append.mp member with digit | wildcard
  · have bounds := digit_bounds (spelled.digits c digit)
    omega
  · rw [List.eq_of_mem_replicate wildcard]
    decide

theorem digitByte_iff {b : UInt8} : isAsciiDigitByte b = true ↔ 48 ≤ b.toNat ∧ b.toNat ≤ 57 := by
  rw [isAsciiDigitByte, Bool.and_eq_true, decide_eq_true_iff, decide_eq_true_iff]
  exact Iff.rfl

theorem isDigit_charOf {b : UInt8} (digit : isAsciiDigitByte b = true) : (charOf b).isDigit = true := by
  obtain ⟨low, high⟩ := digitByte_iff.mp digit
  have same := charOf_toNat (show b.toNat < 128 by omega)
  rw [Char.isDigit, Bool.and_eq_true, decide_eq_true_iff, decide_eq_true_iff]
  exact ⟨show 48 ≤ (charOf b).toNat by omega, show (charOf b).toNat ≤ 57 by omega⟩

/-- Bytes that are digits up to a place and wildcards from there on are those of a pattern. -/
theorem spelled_of_bytes {start : Nat} (inside : start < (utf8 text).length)
    (first : (utf8 text).head?.any isAsciiDigitByte = true) (positive : (utf8 text).head? ≠ some 48) (after : start ≠ 0)
    (digits : ∀ b ∈ (utf8 text).take start, isAsciiDigitByte b = true) (wild : ∀ b ∈ (utf8 text).drop start, b = 120) :
    Spelled text (text.take start) ((utf8 text).length - start) := by
  have ascii : ∀ b ∈ utf8 text, b.toNat < 128 := by
    intro b member
    rw [← List.take_append_drop start (utf8 text)] at member
    rcases List.mem_append.mp member with digit | wildcard
    · have bounds := digitByte_iff.mp (digits b digit)
      omega
    · rw [wild b wildcard]
      decide
  obtain ⟨_, same⟩ := eq_of_utf8 ascii
  have front : text.take start = ((utf8 text).take start).map charOf := by
    rw [List.map_take, ← same]
  have back : text.drop start = List.replicate ((utf8 text).length - start) 'x' := by
    have shape : text.drop start = ((utf8 text).drop start).map charOf := by
      rw [List.map_drop, ← same]
    rw [shape, List.eq_replicate_iff]
    refine ⟨by rw [List.length_map, List.length_drop], fun c member => ?_⟩
    obtain ⟨b, there, rfl⟩ := List.mem_map.mp member
    rw [wild b there]
    rfl
  refine ⟨?_, fun c member => ?_, ?_, Nat.sub_pos_of_lt inside⟩
  · rw [← back, List.take_append_drop]
  · rw [front] at member
    obtain ⟨b, there, rfl⟩ := List.mem_map.mp member
    exact isDigit_charOf (digits b there)
  · cases bytes : utf8 text with
    | nil => rw [bytes] at first; cases first
    | cons b rest =>
      obtain ⟨before, rfl⟩ := Nat.exists_eq_succ_of_ne_zero after
      rw [bytes] at positive front first
      refine ⟨charOf b, (rest.take before).map charOf, front, fun zero => positive ?_⟩
      have bounds := digitByte_iff.mp (show isAsciiDigitByte b = true from first)
      have value := charOf_toNat (show b.toNat < 128 by omega)
      rw [zero] at value
      exact congrArg some (UInt8.toNat_inj.mp value.symm)

theorem parseUnsigned_some {largest n : Nat} {digits : Text} (every : ∀ c ∈ digits, c.isDigit = true)
    (nonempty : digits ≠ []) : parseUnsigned largest digits = some n ↔ n = value digits ∧ n ≤ largest := by
  have plain : afterPlus digits = digits := by
    unfold afterPlus
    split
    next => exact absurd (every '+' List.mem_cons_self) (by decide)
    next => rfl
  rw [parseUnsigned, plain, digits_eq nonempty every, Option.filter_eq_some_iff, Option.some.injEq, decide_eq_true_iff]
  exact and_congr_left fun _ => eq_comm

theorem top_eq (leading : Text) (wildcards : Nat) :
    top leading wildcards = value leading * 10 ^ wildcards + (10 ^ wildcards - 1) := by
  have positive : 0 < 10 ^ wildcards := Nat.pow_pos (by decide)
  exact Nat.add_sub_assoc positive _

theorem parse_spelled (ok : VmidPattern.parse text = .ok pattern) :
    ∃ leading wildcards, Spelled text leading wildcards ∧ top leading wildcards ≤ u64Max ∧
      pattern = range leading wildcards := by
  unfold VmidPattern.parse at ok
  simp only [pure_bind] at ok
  split at ok
  next => cases ok
  next head =>
    split at ok
    next start found =>
      split at ok
      next => cases ok
      next scanned =>
        split at ok
        next => cases ok
        next =>
          split at ok
          next number read =>
            split at ok
            next => cases ok
            next =>
              simp only [Bool.or_eq_true, not_or, Bool.not_eq_true, Bool.not_eq_false'] at head scanned
              obtain ⟨inside, _⟩ := List.findIdx?_eq_some_iff_getElem.mp found
              have spelled : Spelled text (text.take start) ((utf8 text).length - start) := by
                apply spelled_of_bytes inside head.1.2
                · exact ne_of_beq_false head.2
                · exact ne_of_beq_false scanned.1.1
                · intro b member
                  simpa using List.any_eq_false.mp scanned.2 b member
                · intro b member
                  simpa using List.any_eq_false.mp scanned.1.2 b member
              have nonempty : text.take start ≠ [] := by
                obtain ⟨c, rest, shape, _⟩ := spelled.first
                exact shape ▸ List.cons_ne_nil c rest
              obtain ⟨rfl, _⟩ := (parseUnsigned_some spelled.digits nonempty).mp read
              obtain ⟨factor, factorIs, ok⟩ := bind_ok ok
              obtain ⟨first, firstIs, ok⟩ := bind_ok ok
              obtain ⟨last, lastIs, ok⟩ := bind_ok ok
              cases ok
              obtain ⟨rfl, _⟩ := checkedU64_ok factorIs
              obtain ⟨rfl, _⟩ := checkedU64_ok firstIs
              obtain ⟨rfl, fits⟩ := checkedU64_ok lastIs
              have same := top_eq (text.take start) ((utf8 text).length - start)
              exact ⟨_, _, spelled, same ▸ fits, by rw [range, same]⟩
          next => cases ok
    next => cases ok

theorem checkedU64_bind {α : Type} {n : Nat} {f : Nat → Except VmidError α} (fits : n ≤ u64Max) :
    (checkedU64 n >>= f) = f n := by
  rw [show checkedU64 n = .ok n from if_pos fits]
  rfl

theorem spelled_bytes (spelled : Spelled text leading wildcards) :
    utf8 text = leading.map byteOf ++ List.replicate wildcards 120 := by
  rw [utf8_ascii (spelled_ascii spelled), spelled.text, List.map_append, List.map_replicate]
  rfl

theorem digitByte_byteOf {c : Char} (digit : c.isDigit = true) : isAsciiDigitByte (byteOf c) = true := by
  have bounds := digit_bounds digit
  rw [digitByte_iff, byteOf_toNat (by omega)]
  exact bounds

/-- The scan finds the wildcards where the digits end. -/
theorem spelled_scan (spelled : Spelled text leading wildcards) :
    (utf8 text).findIdx? (· == 120) = some leading.length := by
  obtain ⟨before, rfl⟩ := Nat.exists_eq_succ_of_ne_zero (Nat.pos_iff_ne_zero.mp spelled.wildcards)
  rw [spelled_bytes spelled, List.findIdx?_eq_some_iff_getElem]
  have inside : leading.length < (leading.map byteOf ++ List.replicate (before + 1) 120).length := by
    rw [List.length_append, List.length_map, List.length_replicate]
    omega
  refine ⟨inside, ?_, fun i small => ?_⟩
  · rw [List.getElem_append_right (by rw [List.length_map]), List.getElem_replicate]
    rfl
  · have here : i < (leading.map byteOf).length := by rwa [List.length_map]
    rw [List.getElem_append_left here, List.getElem_map]
    have digit := digitByte_iff.mp (digitByte_byteOf (spelled.digits leading[i] (List.getElem_mem small)))
    intro same
    rw [beq_iff_eq.mp same] at digit
    exact absurd digit (by decide)

theorem showNat_value (spelled : Spelled text leading wildcards) : showNat (value leading) = leading := by
  obtain ⟨c, rest, rfl, positive⟩ := spelled.first
  exact showNat_ofDigitChars spelled.digits positive

theorem value_positive (spelled : Spelled text leading wildcards) : 0 < value leading := by
  obtain ⟨c, rest, shape, positive⟩ := spelled.first
  have shown := showNat_value spelled
  rw [Nat.pos_iff_ne_zero]
  intro zero
  rw [zero, shape] at shown
  exact positive (List.cons.inj shown).1.symm

theorem parse_ok (spelled : Spelled text leading wildcards) (fits : top leading wildcards ≤ u64Max) :
    VmidPattern.parse text = .ok (range leading wildcards) := by
  obtain ⟨c, rest, shape, positive⟩ := spelled.first
  have bytes := spelled_bytes spelled
  have length : (utf8 text).length = leading.length + wildcards := by
    rw [bytes, List.length_append, List.length_map, List.length_replicate]
  have someDigits : 0 < leading.length := by
    rw [shape]
    exact Nat.succ_pos _
  have someWild := spelled.wildcards
  have head : (utf8 text).head? = some (byteOf c) := by
    rw [bytes, shape]
    rfl
  have own : c.isDigit = true := spelled.digits c (shape ▸ List.mem_cons_self)
  have notZero : byteOf c ≠ 48 := by
    intro zero
    have back := charOf_byteOf (show c.toNat < 128 by have := digit_bounds own; omega)
    rw [zero] at back
    exact positive back.symm
  have front : (utf8 text).take leading.length = leading.map byteOf := by
    rw [bytes, List.take_left' (List.length_map _)]
  have back : (utf8 text).drop leading.length = List.replicate wildcards 120 := by
    rw [bytes, List.drop_left' (List.length_map _)]
  have digits : text.take leading.length = leading := by
    rw [spelled.text, List.take_left]
  have power : 0 < 10 ^ wildcards := Nat.pow_pos (by decide)
  have leadingPositive := value_positive spelled
  have single : 10 ^ wildcards ≤ value leading * 10 ^ wildcards := Nat.le_mul_of_pos_left _ leadingPositive
  have narrow : wildcards < 20 := by
    rw [top_eq] at fits
    apply (Nat.pow_lt_pow_iff_right (show 1 < 10 by decide)).mp
    exact Nat.lt_of_le_of_lt (by omega) (show u64Max < 10 ^ 20 by decide)
  have begins : ¬(decide ((utf8 text).length < 2) || !(utf8 text).head?.any isAsciiDigitByte ||
      (utf8 text).head? == some 48) = true := by
    rw [head, length, Bool.or_eq_true, Bool.or_eq_true, decide_eq_true_iff, Option.any_some, digitByte_byteOf own]
    rintro ((short | wrong) | zero)
    · omega
    · cases wrong
    · exact notZero (Option.some.inj (beq_iff_eq.mp zero))
  have clean : ¬(leading.length == 0 || (List.replicate wildcards (120 : UInt8)).any (· != 120) ||
      (leading.map byteOf).any (!isAsciiDigitByte ·)) = true := by
    rw [Bool.or_eq_true, Bool.or_eq_true, beq_iff_eq, List.any_eq_true, List.any_eq_true]
    rintro ((same | ⟨b, member, other⟩) | ⟨b, member, other⟩)
    · omega
    · rw [List.eq_of_mem_replicate member] at other
      cases other
    · obtain ⟨d, there, rfl⟩ := List.mem_map.mp member
      rw [digitByte_byteOf (spelled.digits d there)] at other
      cases other
  have noZero : ¬(decide (1 < leading.length) && leading.head? == some '0') = true := by
    rw [shape, List.head?_cons, Bool.and_eq_true, beq_iff_eq]
    exact fun zero => positive (Option.some.inj zero.2)
  have few : ¬u32Max < wildcards := by
    have wide : 20 ≤ u32Max := by decide
    omega
  have sum := top_eq leading wildcards
  have wide : value leading ≤ value leading * 10 ^ wildcards := Nat.le_mul_of_pos_right _ power
  have read := (parseUnsigned_some spelled.digits (shape ▸ List.cons_ne_nil c rest)).mpr
    ⟨rfl, show value leading ≤ u64Max by omega⟩
  unfold VmidPattern.parse
  simp only [pure_bind]
  rw [if_neg begins, spelled_scan spelled]
  simp only [front, back, digits, length, Nat.add_sub_cancel_left]
  rw [if_neg clean, if_neg noZero, read]
  simp only [if_neg few]
  rw [checkedU64_bind (by omega), checkedU64_bind (by omega), checkedU64_bind (by omega), range, sum]
  rfl

theorem spelled_unique {other : Text} {count : Nat} (spelled : Spelled text leading wildcards)
    (again : Spelled text other count) : leading = other ∧ wildcards = count := by
  have scan := Option.some.inj ((spelled_scan spelled).symm.trans (spelled_scan again))
  have whole := spelled.text.symm.trans again.text
  obtain ⟨same, rest⟩ := List.append_inj whole scan
  have count := congrArg List.length rest
  rw [List.length_replicate, List.length_replicate] at count
  exact ⟨same, count⟩

/-- A pattern that was read is displayed as it was written. -/
theorem range_text (spelled : Spelled text leading wildcards) : (range leading wildcards).text = text := by
  rw [spelled.text, VmidPattern.text, range, showNat_value spelled]

theorem value_append (leading fill : Text) : value (leading ++ fill) = value leading * 10 ^ fill.length + value fill := by
  rw [value, value, value, Nat.ofDigitChars_append, Nat.ofDigitChars_eq_ofDigitChars_zero]
  rw [Nat.mul_comm]

/-- The range of a pattern is what its wildcards can be replaced by digits to. -/
theorem range_contains (leading : Text) (wildcards vmid : Nat) : (range leading wildcards).contains vmid = true ↔
    ∃ fill : Text, fill.length = wildcards ∧ (∀ c ∈ fill, c.isDigit = true) ∧ value (leading ++ fill) = vmid := by
  have sum := top_eq leading wildcards
  have power : 0 < 10 ^ wildcards := Nat.pow_pos (by decide)
  rw [VmidPattern.contains, Bool.and_eq_true, decide_eq_true_iff, decide_eq_true_iff]
  constructor
  · intro given
    obtain ⟨low, high⟩ := given
    have low : value leading * 10 ^ wildcards ≤ vmid := low
    have high : vmid ≤ top leading wildcards := high
    obtain ⟨fill, length, every, own⟩ := exists_digits (show vmid - value leading * 10 ^ wildcards < 10 ^ wildcards by omega)
    refine ⟨fill, length, every, ?_⟩
    rw [value_append, length, value, value, own]
    exact Nat.add_sub_cancel' low
  · intro given
    obtain ⟨fill, rfl, every, rfl⟩ := given
    have small : value fill < 10 ^ fill.length := ofDigitChars_lt every
    rw [value_append]
    exact ⟨Nat.le_add_right _ _, show _ ≤ top leading fill.length by omega⟩

end Scan

section Search
variable {pattern : VmidPattern} {used : List Nat} {vmid : Nat}

theorem contains_iff : pattern.contains vmid = true ↔ pattern.first ≤ vmid ∧ vmid ≤ pattern.last := by
  rw [VmidPattern.contains, Bool.and_eq_true, decide_eq_true_iff, decide_eq_true_iff]

/-- What one turn of the loop of `allocate_lowest` comes to; its increment is that of a 64-bit number. -/
inductive Turn where
  | found (vmid : Nat)
  | exhausted
  | overflow
  | next (candidate : Nat)
  deriving DecidableEq

def VmidPattern.turn (pattern : VmidPattern) (used : List Nat) (candidate : Nat) : Turn :=
  if candidate ∉ used then .found candidate
  else if candidate = pattern.last then .exhausted
  else if candidate < u64Max then .next (candidate + 1)
  else .overflow

/-- So many turns from a candidate on, or as many as it takes. -/
def VmidPattern.search (pattern : VmidPattern) (used : List Nat) : Nat → Nat → Turn
  | 0, candidate => .next candidate
  | turns + 1, candidate =>
    match pattern.turn used candidate with
    | .next candidate => pattern.search used turns candidate
    | done => done

/-- An answer of `allocate_lowest` as the turn that gave it. -/
def Turn.last : Except Text Nat → Turn
  | .ok vmid => .found vmid
  | .error _ => .exhausted

/-- The increment is reached below the last number of the range only. -/
theorem turn_cases {candidate : Nat} (inside : candidate ≤ pattern.last) (fits : pattern.last ≤ u64Max) :
    (candidate ∉ used ∧ pattern.turn used candidate = .found candidate) ∨
      (candidate ∈ used ∧ candidate = pattern.last ∧ pattern.turn used candidate = .exhausted) ∨
      (candidate ∈ used ∧ candidate < pattern.last ∧ pattern.turn used candidate = .next (candidate + 1)) := by
  unfold VmidPattern.turn
  by_cases free : candidate ∉ used
  · exact .inl ⟨free, if_pos free⟩
  · have taken : candidate ∈ used := Decidable.not_not.mp free
    by_cases last : candidate = pattern.last
    · exact .inr (.inl ⟨taken, last, by rw [if_neg free, if_pos last]⟩)
    · have below : candidate < pattern.last := by omega
      exact .inr (.inr ⟨taken, below, by rw [if_neg free, if_neg last, if_pos (by omega)]⟩)

theorem search_overflow {turns candidate : Nat} (inside : candidate ≤ pattern.last) (fits : pattern.last ≤ u64Max) :
    pattern.search used turns candidate ≠ .overflow := by
  induction turns generalizing candidate with
  | zero => exact Turn.noConfusion
  | succ turns ih =>
    unfold VmidPattern.search
    rcases @turn_cases _ used _ inside fits with ⟨_, same⟩ | ⟨_, _, same⟩ | ⟨_, below, same⟩ <;> rw [same]
    · exact Turn.noConfusion
    · exact Turn.noConfusion
    · exact ih below

theorem search_outcome {turns candidate : Nat} (inside : candidate ≤ pattern.last) (fits : pattern.last ≤ u64Max)
    (enough : pattern.last - candidate < turns) :
    pattern.search used turns candidate =
      (allocateFrom used (pattern.last - candidate) candidate).elim .exhausted .found := by
  induction turns generalizing candidate with
  | zero => omega
  | succ turns ih =>
    unfold VmidPattern.search
    rcases @turn_cases _ used _ inside fits with ⟨free, same⟩ | ⟨taken, last, same⟩ | ⟨taken, below, same⟩ <;> rw [same]
    · have here : ∀ left, allocateFrom used left candidate = some candidate := by
        intro left
        cases left <;> exact if_pos free
      rw [here]
      rfl
    · rw [last, Nat.sub_self, allocateFrom, if_neg (not_not_intro (last ▸ taken))]
      rfl
    · obtain ⟨left, span⟩ : ∃ left, pattern.last - candidate = left + 1 := ⟨pattern.last - candidate - 1, by omega⟩
      have later := ih below (by omega)
      rw [show pattern.last - (candidate + 1) = left by omega] at later
      rw [span, allocateFrom, if_neg (not_not_intro taken)]
      exact later

/-- The loop passes over used numbers only. -/
theorem allocateFrom_least {left candidate vmid : Nat} (found : allocateFrom used left candidate = some vmid) :
    ∀ n, candidate ≤ n → n < vmid → n ∈ used := by
  induction left generalizing candidate with
  | zero =>
    intro n low high
    obtain ⟨_, bound, _⟩ := allocateFrom_some found
    omega
  | succ left ih =>
    intro n low high
    unfold allocateFrom at found
    by_cases free : candidate ∉ used
    · rw [if_pos free, Option.some.injEq] at found
      omega
    · rw [if_neg free] at found
      rcases Nat.eq_or_lt_of_le low with rfl | later
      · exact Decidable.not_not.mp free
      · exact ih found n later high

theorem allocateFrom_none {left candidate : Nat} (none : allocateFrom used left candidate = none) :
    ∀ n, candidate ≤ n → n ≤ candidate + left → n ∈ used := by
  induction left generalizing candidate with
  | zero =>
    intro n low high
    unfold allocateFrom at none
    split_ifs at none with taken
    rw [show n = candidate by omega]
    exact taken
  | succ left ih =>
    intro n low high
    unfold allocateFrom at none
    split_ifs at none with taken
    rcases Nat.eq_or_lt_of_le low with rfl | later
    · exact taken
    · exact ih none n later (by omega)

/-- The least free number of a range, if the range has a free one. -/
theorem allocate_least (ordered : pattern.first ≤ pattern.last) : pattern.allocateLowest used = .ok vmid ↔
    pattern.contains vmid = true ∧ vmid ∉ used ∧ ∀ n, pattern.contains n = true → n ∉ used → vmid ≤ n := by
  constructor
  · intro ok
    obtain ⟨inside, free⟩ := allocateLowest_ok ordered ok
    refine ⟨inside, free, fun n contained unused => ?_⟩
    unfold VmidPattern.allocateLowest at ok
    split at ok
    next found =>
      cases ok
      by_contra less
      exact unused (allocateFrom_least found n (contains_iff.mp contained).1 (by omega))
    next => cases ok
  · intro given
    obtain ⟨inside, free, least⟩ := given
    have bounds := contains_iff.mp inside
    unfold VmidPattern.allocateLowest
    split
    next other found =>
      have here := allocateFrom_some found
      have no_later := least other (contains_iff.mpr ⟨here.1, by omega⟩) here.2.2
      by_cases same : vmid = other
      · rw [same]
      · exact absurd (allocateFrom_least found vmid bounds.1 (by omega)) free
    next none => exact absurd (allocateFrom_none none vmid bounds.1 (by omega)) free

theorem allocate_fails (ordered : pattern.first ≤ pattern.last) :
    pattern.allocateLowest used = .error pattern.exhausted ↔ ∀ n, pattern.contains n = true → n ∈ used := by
  constructor
  · intro fails n contained
    have bounds := contains_iff.mp contained
    unfold VmidPattern.allocateLowest at fails
    split at fails
    next => cases fails
    next none => exact allocateFrom_none none n bounds.1 (by omega)
  · intro full
    unfold VmidPattern.allocateLowest
    split
    next vmid found =>
      have here := allocateFrom_some found
      exact absurd (full vmid (contains_iff.mpr ⟨here.1, by omega⟩)) here.2.2
    next => rfl

/-- A pattern is read if and only if it is digits and wildcards whose last number fits 64 bits, and stands for what
its wildcards can be replaced by; allocation finds the least free number in its range and never counts past it. -/
theorem vmid_pattern_exact (text : Text) :
    ((∃ pattern, VmidPattern.parse text = .ok pattern) ↔
      ∃ leading wildcards, Spelled text leading wildcards ∧ top leading wildcards ≤ u64Max) ∧
    ∀ pattern leading wildcards, VmidPattern.parse text = .ok pattern → Spelled text leading wildcards →
      pattern.text = text ∧ pattern.leading = value leading ∧ pattern.wildcardDigits = wildcards ∧
      pattern.first = value leading * 10 ^ wildcards ∧
      pattern.last = value leading * 10 ^ wildcards + 10 ^ wildcards - 1 ∧
      (∀ vmid, pattern.contains vmid = true ↔
        ∃ fill : Text, fill.length = wildcards ∧ (∀ c ∈ fill, c.isDigit = true) ∧ value (leading ++ fill) = vmid) ∧
      ∀ used,
        (∀ vmid, pattern.allocateLowest used = .ok vmid ↔ pattern.contains vmid = true ∧ vmid ∉ used ∧
          ∀ n, pattern.contains n = true → n ∉ used → vmid ≤ n) ∧
        (pattern.allocateLowest used = .error pattern.exhausted ↔ ∀ n, pattern.contains n = true → n ∈ used) ∧
        (∀ turns, pattern.search used turns pattern.first ≠ .overflow) ∧
        ∀ turns, pattern.last - pattern.first < turns →
          pattern.search used turns pattern.first = .last (pattern.allocateLowest used) := by
  refine ⟨⟨?_, ?_⟩, ?_⟩
  · intro given
    obtain ⟨pattern, ok⟩ := given
    obtain ⟨leading, wildcards, spelled, fits, _⟩ := parse_spelled ok
    exact ⟨leading, wildcards, spelled, fits⟩
  · intro given
    obtain ⟨leading, wildcards, spelled, fits⟩ := given
    exact ⟨range leading wildcards, parse_ok spelled fits⟩
  · intro pattern leading wildcards ok spelled
    obtain ⟨ordered, fits⟩ := parse_range ok
    obtain ⟨other, count, again, _, rfl⟩ := parse_spelled ok
    obtain ⟨rfl, rfl⟩ := spelled_unique spelled again
    refine ⟨range_text spelled, rfl, rfl, rfl, rfl, range_contains leading wildcards, fun used => ?_⟩
    refine ⟨fun vmid => allocate_least ordered, allocate_fails ordered, ?_, ?_⟩
    · exact fun turns => search_overflow ordered fits
    · intro turns enough
      rw [search_outcome ordered fits enough]
      unfold VmidPattern.allocateLowest
      split
      next found =>
        rw [found]
        rfl
      next none =>
        rw [none]
        rfl

/-- The pattern `90xx`, all of whose numbers but one are used. -/
theorem vmid_pattern_exact_sample : ∃ pattern, VmidPattern.parse "90xx".toList = .ok pattern ∧
    pattern.text = "90xx".toList ∧ pattern.contains 9042 = true ∧
    (pattern.allocateLowest [9000] = .ok 9001 ↔ pattern.contains 9001 = true ∧ 9001 ∉ [9000] ∧
      ∀ n, pattern.contains n = true → n ∉ [9000] → 9001 ≤ n) := by
  have spelled : Spelled "90xx".toList ['9', '0'] 2 := ⟨rfl, List.all_eq_true.mp rfl, ⟨'9', ['0'], rfl, by decide⟩, by decide⟩
  obtain ⟨pattern, ok⟩ := (vmid_pattern_exact "90xx".toList).1.mpr ⟨['9', '0'], 2, spelled, by decide⟩
  obtain ⟨shown, _, _, _, _, fills, allocated⟩ := (vmid_pattern_exact "90xx".toList).2 pattern _ _ ok spelled
  exact ⟨pattern, ok, shown, (fills 9042).mpr ⟨['4', '2'], rfl, List.all_eq_true.mp rfl, rfl⟩, (allocated [9000]).1 9001⟩

end Search

end Pbox.Core.Vmid
