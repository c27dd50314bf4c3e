import Mathlib.Data.List.Basic
import Mathlib.Data.List.Infix
import Mathlib.Data.List.TakeDrop

/-! Strings as lists of Unicode scalar values, with the string functions of Rust's standard
library that look at them. Positions count characters; a byte length is taken from the UTF-8
encoding. Search returns the first occurrence, and the lemmas below say when text put around
an occurrence cannot hold an earlier one. -/

namespace Pbox.Lib.Strings

abbrev Text := List Char

def utf8 (value : Text) : List UInt8 := value.flatMap String.utf8EncodeChar

/-- The property White_Space of the Unicode character database. -/
def isWhitespace (c : Char) : Bool :=
  (9 ≤ c.toNat && c.toNat ≤ 13) || c.toNat == 0x20 || c.toNat == 0x85 || c.toNat == 0xA0 ||
    c.toNat == 0x1680 || (0x2000 ≤ c.toNat && c.toNat ≤ 0x200A) || c.toNat == 0x2028 ||
    c.toNat == 0x2029 || c.toNat == 0x202F || c.toNat == 0x205F || c.toNat == 0x3000

def trim (value : Text) : Text :=
  ((value.dropWhile isWhitespace).reverse.dropWhile isWhitespace).reverse

def stripPrefix (pattern value : Text) : Option Text :=
  if pattern.isPrefixOf value then some (value.drop pattern.length) else none

def stripSuffix (pattern value : Text) : Option Text :=
  if pattern.isSuffixOf value then some (value.take (value.length - pattern.length)) else none

/-- The order of texts by code points, which is that of their bytes. -/
@[grind =] def textLe : Text → Text → Bool
  | [], _ => true
  | _ :: _, [] => false
  | c :: rest, d :: other => decide (c.toNat < d.toNat) || c == d && textLe rest other

theorem textLe_total (left right : Text) : textLe left right = true ∨ textLe right left = true := by
  induction left generalizing right with
  | nil => exact .inl rfl
  | cons c rest ih =>
    cases right with
    | nil => exact .inr rfl
    | cons d other =>
      rcases Nat.lt_trichotomy c.toNat d.toNat with less | same | more
      · simp [textLe, less]
      · obtain rfl : c = d := Char.toNat_inj.mp same
        simpa [textLe] using ih other
      · simp [textLe, more]

theorem textLe_cons {c d : Char} {rest other : Text} :
    textLe (c :: rest) (d :: other) = true ↔ c.toNat < d.toNat ∨ c = d ∧ textLe rest other = true := by
  simp [textLe]

theorem textLe_trans {first second third : Text} (low : textLe first second = true)
    (high : textLe second third = true) : textLe first third = true := by
  induction first generalizing second third with
  | nil => rfl
  | cons c rest ih =>
    cases second with
    | nil => cases low
    | cons d other =>
      cases third with
      | nil => cases high
      | cons e last =>
        rw [textLe_cons] at low high ⊢
        rcases low with low | ⟨rfl, low⟩
        · rcases high with high | ⟨rfl, high⟩
          · exact .inl (low.trans high)
          · exact .inl low
        · rcases high with high | ⟨rfl, high⟩
          · exact .inl high
          · exact .inr ⟨rfl, ih low high⟩

theorem textLe_antisymm {left right : Text} (low : textLe left right = true)
    (high : textLe right left = true) : left = right := by
  induction left generalizing right with
  | nil =>
    cases right with
    | nil => rfl
    | cons d other => cases high
  | cons c rest ih =>
    cases right with
    | nil => cases low
    | cons d other =>
      rw [textLe_cons] at low high
      rcases low with low | ⟨rfl, low⟩
      · rcases high with high | ⟨rfl, high⟩
        · exact absurd low (Nat.not_lt_of_lt high)
        · exact absurd low (Nat.lt_irrefl _)
      · rcases high with high | ⟨_, high⟩
        · exact absurd high (Nat.lt_irrefl _)
        · rw [ih low high]

/-- `trim_end_matches` with a character. -/
def trimEndMatches (c : Char) (value : Text) : Text := (value.reverse.dropWhile (· == c)).reverse

@[grind =] def splitOnce (separator : Char) : Text → Option (Text × Text)
  | [] => none
  | c :: rest =>
    if c = separator then some ([], rest)
    else (splitOnce separator rest).map fun parts => (c :: parts.1, parts.2)

/-- The position of the last occurrence of a character. -/
@[grind =] def rfind (c : Char) : Text → Option Nat
  | [] => none
  | d :: rest =>
    match rfind c rest with
    | some i => some (i + 1)
    | none => if d = c then some 0 else none

/-- `rsplit_once` with a character. -/
def rsplitOnce (separator : Char) (value : Text) : Option (Text × Text) :=
  (rfind separator value).map fun i => (value.take i, value.drop (i + 1))

/-- The part of the text from one position up to another. -/
def slice (value : Text) (start stop : Nat) : Text := (value.take stop).drop start

section Search
variable {α : Type*} [DecidableEq α]

/-- The position of the first occurrence of a pattern. -/
@[grind =] def find (pattern : List α) : List α → Option Nat
  | [] => if pattern = [] then some 0 else none
  | x :: rest =>
    if pattern.isPrefixOf (x :: rest) then some 0 else (find pattern rest).map (· + 1)

/-- No position below the bound starts an occurrence. -/
def FreshBelow (pattern text : List α) (bound : Nat) : Prop :=
  ∀ i < bound, ¬pattern <+: text.drop i

theorem find_eq_some {pattern text : List α} {i : Nat} :
    find pattern text = some i ↔ pattern <+: text.drop i ∧ FreshBelow pattern text i := by
  induction text generalizing i with
  | nil =>
    by_cases empty : pattern = []
    · subst empty
      simp only [find, if_true, Option.some.injEq, List.drop_nil, FreshBelow]
      constructor
      · intro zero
        subst zero
        exact ⟨List.nil_prefix, by simp⟩
      · intro ⟨_, fresh⟩
        by_contra positive
        exact fresh 0 (by omega) List.nil_prefix
    · simp [find, empty]
  | cons x rest ih =>
    by_cases here : pattern.isPrefixOf (x :: rest) = true
    · have occurs : pattern <+: x :: rest := List.isPrefixOf_iff_prefix.mp here
      simp only [find, here, if_true, Option.some.injEq]
      constructor
      · intro zero
        subst zero
        exact ⟨occurs, by simp [FreshBelow]⟩
      · intro ⟨_, fresh⟩
        by_contra positive
        exact fresh 0 (by omega) occurs
    · have absent : ¬pattern <+: x :: rest := fun occurs => here (List.isPrefixOf_iff_prefix.mpr occurs)
      simp only [find, if_neg here, Option.map_eq_some_iff]
      constructor
      · rintro ⟨j, found, rfl⟩
        obtain ⟨occurs, fresh⟩ := ih.mp found
        refine ⟨occurs, fun k below => ?_⟩
        cases k with
        | zero => exact absent
        | succ k => exact fresh k (by omega)
      · intro ⟨occurs, fresh⟩
        cases i with
        | zero => exact absurd occurs absent
        | succ i =>
          exact ⟨i, ih.mpr ⟨occurs, fun k below => fresh (k + 1) (by omega)⟩, rfl⟩

theorem find_eq_none {pattern text : List α} :
    find pattern text = none ↔ ¬pattern <:+: text := by
  constructor
  · intro missing
    induction text with
    | nil =>
      intro occurs
      have empty : pattern = [] := List.infix_nil.mp occurs
      simp [find, empty] at missing
    | cons x rest ih =>
      by_cases here : pattern.isPrefixOf (x :: rest) = true
      · simp [find, here] at missing
      · simp only [find, if_neg here, Option.map_eq_none_iff] at missing
        intro occurs
        rcases List.infix_cons_iff.mp occurs with first | later
        · exact here (List.isPrefixOf_iff_prefix.mpr first)
        · exact ih missing later
  · intro absent
    cases found : find pattern text with
    | none => rfl
    | some i =>
      obtain ⟨after, equal⟩ := (find_eq_some.1 found).1
      exact absurd ⟨text.take i, after, by
        rw [List.append_assoc, equal, List.take_append_drop]⟩ absent

theorem find_le {pattern text : List α} {i : Nat} (found : find pattern text = some i) :
    i + pattern.length ≤ text.length ∨ pattern = [] := by
  have occurs := (find_eq_some.1 found).1.length_le
  rw [List.length_drop] at occurs
  by_cases empty : pattern = []
  · exact Or.inr empty
  · have positive := List.length_pos_iff.mpr empty
    omega

omit [DecidableEq α] in
/-- An occurrence that starts before a given occurrence and reaches into it holds its first
character again, so a pattern whose first character is unique is found where it stands. -/
theorem freshBelow_of_head {head : α} {tail before after : List α} (unique : head ∉ tail)
    (clean : ¬(head :: tail) <:+: before) :
    FreshBelow (head :: tail) (before ++ (head :: tail ++ after)) before.length := by
  intro i below occurs
  rw [List.drop_append_of_le_length (by omega)] at occurs
  by_cases inside : (head :: tail).length ≤ (before.drop i).length
  · have contained := List.prefix_of_prefix_length_le occurs (List.prefix_append _ _) inside
    exact clean (contained.isInfix.trans (List.drop_suffix _ _).isInfix)
  · obtain ⟨rest, equal⟩ := occurs
    have position : (before.drop i).length < (head :: tail).length := by omega
    have positive : 0 < (before.drop i).length := by rw [List.length_drop]; omega
    have here := congrArg (fun text => text[(before.drop i).length]?) equal
    simp only [List.getElem?_append_right (Nat.le_refl _), Nat.sub_self,
      List.cons_append, List.getElem?_cons_zero] at here
    obtain ⟨k, shift⟩ : ∃ k, (before.drop i).length = k + 1 := ⟨_, (Nat.succ_pred_eq_of_pos positive).symm⟩
    rw [shift, List.length_cons] at position
    rw [shift, List.getElem?_cons_succ, List.getElem?_append_left (by omega)] at here
    exact unique (List.mem_of_getElem? here)

theorem find_of_head {head : α} {tail before after : List α} (unique : head ∉ tail)
    (clean : ¬(head :: tail) <:+: before) :
    find (head :: tail) (before ++ (head :: tail ++ after)) = some before.length :=
  find_eq_some.2 ⟨by rw [List.drop_left]; exact List.prefix_append _ _,
    freshBelow_of_head unique clean⟩

/-- A pattern whose last character occurs nowhere earlier is found where it stands. -/
theorem find_of_last {last : α} {front before after : List α} (unique : last ∉ front)
    (clean : last ∉ before) :
    find (front ++ [last]) (before ++ (front ++ [last] ++ after)) = some before.length := by
  refine find_eq_some.2 ⟨by rw [List.drop_left]; exact List.prefix_append _ _, ?_⟩
  intro i below occurs
  obtain ⟨rest, equal⟩ := occurs
  have here := congrArg (fun text => text[front.length]?) equal
  simp only [List.append_assoc, List.getElem?_append_right (Nat.le_refl _), Nat.sub_self,
    List.singleton_append, List.getElem?_cons_zero, List.getElem?_drop] at here
  have present : last ∈ before ++ front := by
    refine List.mem_of_getElem? (i := i + front.length) ?_
    rw [here, ← List.append_assoc]
    exact (List.getElem?_append_left (by rw [List.length_append]; omega)).symm
  rcases List.mem_append.mp present with early | late
  · exact clean early
  · exact unique late

omit [DecidableEq α] in
/-- Characters that the pattern does not hold cannot complete an occurrence. -/
theorem infix_append_of_disjoint {pattern text extra : List α} (nonempty : pattern ≠ [])
    (apart : ∀ x ∈ extra, x ∉ pattern) (occurs : pattern <:+: text ++ extra) :
    pattern <:+: text := by
  rcases List.infix_append_iff.mp occurs with left | right | ⟨front, back, split, first, second⟩
  · exact left
  · obtain ⟨x, member⟩ := List.exists_mem_of_ne_nil _ nonempty
    exact absurd member (apart x (right.subset member))
  · cases back with
    | nil =>
      rw [List.append_nil] at split
      exact split ▸ first.isInfix
    | cons x back =>
      have inExtra : x ∈ extra := second.subset (by simp)
      exact absurd (by rw [split]; simp) (apart x inExtra)

omit [DecidableEq α] in
/-- An occurrence does not begin in a text without its first character. -/
theorem infix_behind {head : α} {tail front rest : List α} (absent : head ∉ front) :
    head :: tail <:+: front ++ rest ↔ head :: tail <:+: rest := by
  induction front with
  | nil => exact Iff.rfl
  | cons x front ih =>
    have later := ih fun member => absent (List.mem_cons_of_mem x member)
    rw [List.cons_append, List.infix_cons_iff, later, List.cons_prefix_cons]
    exact or_iff_right fun here => absent (here.1 ▸ List.mem_cons_self)

end Search

theorem stripPrefix_append (pattern rest : Text) : stripPrefix pattern (pattern ++ rest) = some rest := by
  simp [stripPrefix]

theorem stripPrefix_some {pattern value rest : Text} (stripped : stripPrefix pattern value = some rest) :
    value = pattern ++ rest := by
  unfold stripPrefix at stripped
  split at stripped
  next begins =>
    cases stripped
    exact (List.prefix_iff_eq_append.mp (List.isPrefixOf_iff_prefix.mp begins)).symm
  next => cases stripped

theorem stripSuffix_append (pattern rest : Text) : stripSuffix pattern (rest ++ pattern) = some rest := by
  simp [stripSuffix]

/-- Trimming takes only white space away. -/
theorem mem_trim {value : Text} {c : Char} (member : c ∈ value) (solid : isWhitespace c = false) :
    c ∈ trim value := by
  have keeps {text : Text} (inside : c ∈ text) : c ∈ text.dropWhile isWhitespace := by
    rw [← List.takeWhile_append_dropWhile (p := isWhitespace) (l := text)] at inside
    rcases List.mem_append.mp inside with early | late
    · rw [List.all_eq_true.mp List.all_takeWhile c early] at solid
      cases solid
    · exact late
  unfold trim
  exact List.mem_reverse.mpr (keeps (List.mem_reverse.mpr (keeps member)))

/-- What trimming takes away stands before and behind what it leaves. -/
theorem trim_parts (value : Text) : ∃ before after, value = before ++ (trim value ++ after) ∧
    (∀ c ∈ before, isWhitespace c = true) ∧ ∀ c ∈ after, isWhitespace c = true := by
  have left := List.takeWhile_append_dropWhile (p := isWhitespace) (l := value)
  have right := List.takeWhile_append_dropWhile (p := isWhitespace) (l := (value.dropWhile isWhitespace).reverse)
  refine ⟨value.takeWhile isWhitespace,
    ((value.dropWhile isWhitespace).reverse.takeWhile isWhitespace).reverse, ?_, ?_, ?_⟩
  · rw [trim, ← List.reverse_append, right, List.reverse_reverse, left]
  · exact List.all_eq_true.mp List.all_takeWhile
  · exact fun c member => List.all_eq_true.mp List.all_takeWhile c (List.mem_reverse.mp member)

theorem trim_ne_nil_iff {value : Text} : trim value ≠ [] ↔ ∃ c ∈ value, isWhitespace c = false := by
  constructor
  · intro nonempty
    have left : value.dropWhile isWhitespace ≠ [] := by
      intro empty
      exact nonempty (by simp [trim, empty])
    refine ⟨_, (List.dropWhile_suffix isWhitespace).subset (List.head_mem left), ?_⟩
    exact List.head_dropWhile_not isWhitespace left
  · rintro ⟨c, member, solid⟩
    exact List.ne_nil_of_mem (mem_trim member solid)

theorem trim_trim_ne_nil {value : Text} (nonempty : trim value ≠ []) : trim (trim value) ≠ [] := by
  obtain ⟨c, member, solid⟩ := trim_ne_nil_iff.mp nonempty
  exact trim_ne_nil_iff.mpr ⟨c, mem_trim member solid, solid⟩

theorem ne_nil_of_trim {value : Text} (nonempty : trim value ≠ []) : value ≠ [] := by
  obtain ⟨c, member, _⟩ := trim_ne_nil_iff.mp nonempty
  exact List.ne_nil_of_mem member

/-- Nothing is dropped from the front of a text without white space. -/
theorem dropWhile_solid {value : Text} (solid : ∀ c ∈ value, isWhitespace c = false) :
    value.dropWhile isWhitespace = value := by
  cases value with
  | nil => rfl
  | cons c rest => rw [List.dropWhile_cons_of_neg (by rw [solid c List.mem_cons_self]; exact Bool.false_ne_true)]

theorem reverse_solid {value : Text} (solid : ∀ c ∈ value, isWhitespace c = false) :
    value.reverse.dropWhile isWhitespace = value.reverse :=
  dropWhile_solid fun c member => solid c (List.mem_reverse.mp member)

theorem trim_solid {value : Text} (solid : ∀ c ∈ value, isWhitespace c = false) : trim value = value := by
  rw [trim, dropWhile_solid solid, reverse_solid solid, List.reverse_reverse]

/-- Spaces put around text that begins and ends in another kind of character are trimmed off. -/
theorem trim_spaces {value : Text} (solid : ∀ c ∈ value, isWhitespace c = false) :
    trim (' ' :: value ++ [' ']) = value := by
  have space : isWhitespace ' ' = true := by decide
  cases value with
  | nil => decide
  | cons first rest =>
    have front : (' ' :: (first :: rest) ++ [' ']).dropWhile isWhitespace = first :: rest ++ [' '] := by
      have own : ¬ isWhitespace first = true := by rw [solid first List.mem_cons_self]; exact Bool.false_ne_true
      rw [List.cons_append, List.dropWhile_cons_of_pos space, List.cons_append, List.dropWhile_cons_of_neg own]
    have back : (first :: rest ++ [' ']).reverse.dropWhile isWhitespace = (first :: rest).reverse := by
      rw [List.reverse_append, List.reverse_singleton, List.singleton_append, List.dropWhile_cons_of_pos space,
        reverse_solid solid]
    rw [trim, front, back, List.reverse_reverse]

/-- The end of a line is trimmed off. -/
theorem trim_line {value : Text} (solid : ∀ c ∈ value, isWhitespace c = false) : trim (value ++ ['\n']) = value := by
  have feed : isWhitespace '\n' = true := by decide
  cases value with
  | nil => decide
  | cons first rest =>
    have own : ¬isWhitespace first = true := by rw [solid first List.mem_cons_self]; exact Bool.false_ne_true
    have back : (first :: rest ++ ['\n']).reverse.dropWhile isWhitespace = (first :: rest).reverse := by
      rw [List.reverse_append, List.reverse_singleton, List.singleton_append, List.dropWhile_cons_of_pos feed,
        reverse_solid solid]
    rw [trim, List.cons_append, List.dropWhile_cons_of_neg own, ← List.cons_append, back, List.reverse_reverse]

theorem utf8_append (first second : Text) : utf8 (first ++ second) = utf8 first ++ utf8 second := by
  simp [utf8]

theorem splitOnce_none {separator : Char} {value : Text} (absent : separator ∉ value) :
    splitOnce separator value = none := by
  induction value with
  | nil => rfl
  | cons c rest ih =>
    have different : c ≠ separator := fun same => absent (by simp [same])
    simp [splitOnce, different, ih (fun member => absent (List.mem_cons_of_mem _ member))]

theorem splitOnce_some {separator : Char} {value front back : Text}
    (split : splitOnce separator value = some (front, back)) :
    value = front ++ separator :: back ∧ separator ∉ front := by
  induction value generalizing front with
  | nil => cases split
  | cons c rest ih =>
    unfold splitOnce at split
    split at split
    next same =>
      cases split
      exact ⟨by rw [same, List.nil_append], List.not_mem_nil⟩
    next different =>
      obtain ⟨⟨earlier, later⟩, found, equal⟩ := Option.map_eq_some_iff.mp split
      cases equal
      obtain ⟨whole, absent⟩ := ih found
      refine ⟨by rw [whole, List.cons_append], fun member => ?_⟩
      rcases List.mem_cons.mp member with same | member
      · exact different same.symm
      · exact absent member

theorem splitOnce_append {separator : Char} {front back : Text} (absent : separator ∉ front) :
    splitOnce separator (front ++ separator :: back) = some (front, back) := by
  induction front with
  | nil => simp [splitOnce]
  | cons c rest ih =>
    have different : c ≠ separator := fun same => absent (by simp [same])
    have later := ih fun member => absent (List.mem_cons_of_mem _ member)
    simp [splitOnce, different, later]

theorem rfind_bound {c : Char} {value : Text} {i : Nat} (found : rfind c value = some i) : i < value.length := by
  induction value generalizing i with
  | nil => cases found
  | cons d rest ih =>
    rw [List.length_cons]
    rw [rfind] at found
    split at found
    next j later =>
      cases found
      exact Nat.succ_lt_succ (ih later)
    next =>
      split at found
      · cases found
        exact Nat.succ_pos _
      · cases found

theorem rfind_none {c : Char} {value : Text} (absent : c ∉ value) : rfind c value = none := by
  induction value with
  | nil => rfl
  | cons d rest ih =>
    have different : d ≠ c := fun same => absent (same ▸ List.mem_cons_self)
    rw [rfind, ih fun member => absent (List.mem_cons_of_mem d member)]
    exact if_neg different

theorem rfind_eq_none {c : Char} {value : Text} : rfind c value = none ↔ c ∉ value := by
  refine ⟨fun none => ?_, rfind_none⟩
  induction value with
  | nil => exact List.not_mem_nil
  | cons d rest ih =>
    rw [rfind] at none
    split at none
    next => cases none
    next later =>
      split at none
      next => cases none
      next different =>
        rw [List.mem_cons, not_or]
        exact ⟨fun same => different same.symm, ih later⟩

/-- A text without the character moves no occurrence in front of it. -/
theorem rfind_append {c : Char} {front back : Text} (absent : c ∉ back) : rfind c (front ++ back) = rfind c front := by
  induction front with
  | nil => exact rfind_none absent
  | cons d rest ih =>
    rw [List.cons_append, rfind, rfind, ih]

theorem rfind_append_cons {c : Char} {front back : Text} (absent : c ∉ back) :
    rfind c (front ++ c :: back) = some front.length := by
  induction front with
  | nil =>
    rw [List.nil_append, rfind, rfind_none absent]
    exact if_pos rfl
  | cons d rest ih =>
    rw [List.cons_append, rfind, ih]
    rfl

/-- The last occurrence is not before any other. -/
theorem rfind_from (c : Char) (front back : Text) : ∃ i, rfind c (front ++ c :: back) = some i ∧ front.length ≤ i := by
  induction front with
  | nil =>
    rw [List.nil_append, rfind]
    split
    next i _ => exact ⟨i + 1, rfl, Nat.zero_le _⟩
    next => exact ⟨0, if_pos rfl, Nat.le_refl 0⟩
  | cons d rest ih =>
    obtain ⟨i, found, later⟩ := ih
    rw [List.cons_append, rfind, found]
    exact ⟨i + 1, rfl, Nat.succ_le_succ later⟩

theorem rfind_some {c : Char} {value : Text} {i : Nat} (found : rfind c value = some i) :
    value = value.take i ++ c :: value.drop (i + 1) ∧ c ∉ value.drop (i + 1) := by
  induction value generalizing i with
  | nil => cases found
  | cons d rest ih =>
    rw [rfind] at found
    split at found
    next j later =>
      cases found
      obtain ⟨whole, absent⟩ := ih later
      exact ⟨congrArg (d :: ·) whole, absent⟩
    next none =>
      split at found
      next same =>
        cases found
        exact ⟨by rw [same]; rfl, rfind_eq_none.mp none⟩
      next => cases found

theorem rsplitOnce_some {separator : Char} {value front back : Text}
    (split : rsplitOnce separator value = some (front, back)) :
    value = front ++ separator :: back ∧ separator ∉ back := by
  obtain ⟨i, found, same⟩ := Option.map_eq_some_iff.mp split
  cases same
  exact rfind_some found

theorem rsplitOnce_append {separator : Char} {front back : Text} (absent : separator ∉ back) :
    rsplitOnce separator (front ++ separator :: back) = some (front, back) := by
  have length : (front ++ [separator]).length = front.length + 1 := List.length_append
  rw [rsplitOnce, rfind_append_cons absent, Option.map_some, List.take_left, List.append_cons, List.drop_left' length]

theorem rsplitOnce_none {separator : Char} {value : Text} (absent : separator ∉ value) :
    rsplitOnce separator value = none := by
  rw [rsplitOnce, rfind_none absent]
  rfl

/-- Characters may be changed before a text is split, if separators stay what they are. -/
theorem splitOn_map {f : Char → Char} {separator : Char} (keeps : ∀ c, f c = separator ↔ c = separator) (value : Text) :
    (value.map f).splitOn separator = (value.splitOn separator).map (List.map f) := by
  induction value with
  | nil => rfl
  | cons c rest ih =>
    have same : (f c == separator) = (c == separator) := by rw [Bool.eq_iff_iff, beq_iff_eq, beq_iff_eq, keeps]
    rw [List.map_cons, List.splitOn_cons_eq_if_modifyHead, List.splitOn_cons_eq_if_modifyHead, same, ih]
    split
    · rfl
    · obtain ⟨first, others, shape⟩ := List.exists_cons_of_ne_nil (List.splitOn_ne_nil separator rest)
      rw [shape]
      rfl

/-- A character of a text is a separator or in one of the parts between them. -/
theorem mem_splitOn {separator c : Char} {value : Text} (member : c ∈ value) :
    c = separator ∨ ∃ part ∈ value.splitOn separator, c ∈ part := by
  induction value with
  | nil => cases member
  | cons d rest ih =>
    rw [List.splitOn_cons_eq_if_modifyHead]
    split
    next same =>
      rcases List.mem_cons.mp member with rfl | later
      · exact .inl (beq_iff_eq.mp same)
      · rcases ih later with sep | ⟨part, listed, inside⟩
        · exact .inl sep
        · exact .inr ⟨part, List.mem_cons_of_mem _ listed, inside⟩
    next =>
      obtain ⟨first, others, shape⟩ := List.exists_cons_of_ne_nil (List.splitOn_ne_nil separator rest)
      rw [shape, List.modifyHead_cons]
      rw [shape] at ih
      rcases List.mem_cons.mp member with rfl | later
      · exact .inr ⟨_, List.mem_cons_self, List.mem_cons_self⟩
      · rcases ih later with sep | ⟨part, listed, inside⟩
        · exact .inl sep
        · rcases List.mem_cons.mp listed with rfl | other
          · exact .inr ⟨_, List.mem_cons_self, List.mem_cons_of_mem d inside⟩
          · exact .inr ⟨part, List.mem_cons_of_mem _ other, inside⟩

theorem splitOn_subset {separator : Char} {value part : Text} (listed : part ∈ value.splitOn separator) :
    part ⊆ value := by
  induction value generalizing part with
  | nil =>
    rw [List.mem_singleton.mp (show part ∈ [[]] from listed)]
    exact List.Subset.refl []
  | cons d rest ih =>
    rw [List.splitOn_cons_eq_if_modifyHead] at listed
    split at listed
    next =>
      rcases List.mem_cons.mp listed with rfl | later
      · exact List.nil_subset _
      · exact List.subset_cons_of_subset d (ih later)
    next =>
      obtain ⟨first, others, shape⟩ := List.exists_cons_of_ne_nil (List.splitOn_ne_nil separator rest)
      rw [shape, List.modifyHead_cons] at listed
      rw [shape] at ih
      rcases List.mem_cons.mp listed with rfl | later
      · exact List.cons_subset_cons d (ih List.mem_cons_self)
      · exact List.subset_cons_of_subset d (ih (List.mem_cons_of_mem first later))

/-- No part between separators has one in it. -/
theorem separator_notMem {separator : Char} {value part : Text} (listed : part ∈ value.splitOn separator) :
    separator ∉ part := by
  induction value generalizing part with
  | nil =>
    rw [List.mem_singleton.mp (show part ∈ [[]] from listed)]
    exact List.not_mem_nil
  | cons d rest ih =>
    rw [List.splitOn_cons_eq_if_modifyHead] at listed
    split at listed
    next =>
      rcases List.mem_cons.mp listed with rfl | later
      · exact List.not_mem_nil
      · exact ih later
    next other =>
      obtain ⟨first, others, shape⟩ := List.exists_cons_of_ne_nil (List.splitOn_ne_nil separator rest)
      rw [shape, List.modifyHead_cons] at listed
      rw [shape] at ih
      rcases List.mem_cons.mp listed with rfl | later
      · intro member
        rcases List.mem_cons.mp member with rfl | inside
        · simp at other
        · exact ih List.mem_cons_self inside
      · exact ih (List.mem_cons_of_mem first later)

/-- The last separator of a text splits it in one way. -/
theorem append_separator_inj {separator : Char} {front front' back back' : Text}
    (absent : separator ∉ back) (absent' : separator ∉ back')
    (same : front ++ separator :: back = front' ++ separator :: back') :
    front = front' ∧ back = back' := by
  rcases List.append_eq_append_iff.mp same with ⟨extra, longer, rest⟩ | ⟨extra, longer, rest⟩
  · cases extra with
    | nil =>
      rw [List.append_nil] at longer
      exact ⟨longer.symm, (List.cons.inj rest).2⟩
    | cons c extra =>
      obtain ⟨_, equal⟩ := List.cons.inj rest
      exact absurd (by rw [equal]; simp) absent
  · cases extra with
    | nil =>
      rw [List.append_nil] at longer
      exact ⟨longer, (List.cons.inj rest).2.symm⟩
    | cons c extra =>
      obtain ⟨_, equal⟩ := List.cons.inj rest
      exact absurd (by rw [equal]; simp) absent'

theorem utf8_injective : Function.Injective utf8 := by
  intro first second same
  have bytes : first.utf8Encode = second.utf8Encode := congrArg List.toByteArray same
  rw [← String.toByteArray_ofList, ← String.toByteArray_ofList] at bytes
  exact String.ofList_injective (String.toByteArray_inj.mp bytes)

/-- An ASCII character stands for its own byte in the encoding. -/
theorem mem_utf8_of_mem {c : Char} {value : Text} {b : UInt8}
    (single : String.utf8EncodeChar c = [b]) (member : c ∈ value) : b ∈ utf8 value := by
  refine List.mem_flatMap.mpr ⟨c, member, ?_⟩
  rw [single]
  exact List.mem_singleton_self b

end Pbox.Lib.Strings
