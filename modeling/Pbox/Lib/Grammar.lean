import Mathlib.Computability.Language

/-! Grammars as Mathlib's languages: words over character classes, repeated and separated, and what a hand-written
scanner can be compared with. -/

namespace Pbox.Lib.Grammar
open Computability

section Words
variable {α : Type*} {p q : α → Prop} {l m : Language α} {w v : List α} {n : Nat}

/-- The words of one character of a class. -/
def letter (p : α → Prop) : Language α := {w | ∃ a, p a ∧ w = [a]}

def word (w : List α) : Language α := {w}

def many1 (l : Language α) : Language α := l * l∗

/-- Words of one language with words of another between them. -/
def separated (between part : Language α) : Language α := part * (between * part)∗

theorem mem_word : v ∈ word w ↔ v = w := Iff.rfl

theorem mem_letter : w ∈ letter p ↔ ∃ a, p a ∧ w = [a] := Iff.rfl

theorem letter_mem {a : α} (own : p a) : [a] ∈ letter p := ⟨a, own, rfl⟩

theorem append_kstar (first : v ∈ l) (rest : w ∈ l∗) : v ++ w ∈ l∗ := by
  rw [← Language.one_add_self_mul_kstar_eq_kstar]
  exact .inr (Language.append_mem_mul first rest)

/-- A repetition that is not empty begins with a piece that is not. -/
theorem kstar_cons {a : α} (repeated : a :: w ∈ l∗) : ∃ u v, a :: u ∈ l ∧ v ∈ l∗ ∧ w = u ++ v := by
  obtain ⟨pieces, whole, every⟩ := Language.mem_kstar.mp repeated
  induction pieces with
  | nil => cases whole
  | cons piece rest ih =>
    obtain ⟨own, later⟩ := List.forall_mem_cons.mp every
    cases piece with
    | nil => exact ih whole later
    | cons b u =>
      obtain ⟨rfl, rfl⟩ := List.cons.inj whole
      exact ⟨u, rest.flatten, own, Language.join_mem_kstar later, rfl⟩

theorem mem_kstar_letter : w ∈ (letter p)∗ ↔ ∀ a ∈ w, p a := by
  constructor
  · intro repeated a member
    obtain ⟨pieces, rfl, every⟩ := Language.mem_kstar.mp repeated
    obtain ⟨piece, listed, inside⟩ := List.mem_flatten.mp member
    obtain ⟨b, own, rfl⟩ := mem_letter.mp (every piece listed)
    rwa [List.mem_singleton.mp inside]
  · intro every
    induction w with
    | nil => exact Language.nil_mem_kstar _
    | cons a rest ih =>
      have first : [a] ∈ letter p := letter_mem (every a List.mem_cons_self)
      exact append_kstar first (ih fun b member => every b (List.mem_cons_of_mem a member))

theorem mem_many1_letter : w ∈ many1 (letter p) ↔ w ≠ [] ∧ ∀ a ∈ w, p a := by
  constructor
  · intro repeated
    obtain ⟨first, ⟨a, own, rfl⟩, rest, later, rfl⟩ := Language.mem_mul.mp repeated
    exact ⟨List.cons_ne_nil a rest, List.forall_mem_cons.mpr ⟨own, mem_kstar_letter.mp later⟩⟩
  · intro given
    obtain ⟨nonempty, every⟩ := given
    obtain ⟨a, rest, rfl⟩ := List.exists_cons_of_ne_nil nonempty
    obtain ⟨own, later⟩ := List.forall_mem_cons.mp every
    exact Language.append_mem_mul (letter_mem own) (mem_kstar_letter.mpr later)

theorem mem_letter_pow : w ∈ letter p ^ n ↔ w.length = n ∧ ∀ a ∈ w, p a := by
  induction n generalizing w with
  | zero =>
    rw [pow_zero, Language.mem_one, List.length_eq_zero_iff]
    exact ⟨fun empty => ⟨empty, empty ▸ List.forall_mem_nil _⟩, And.left⟩
  | succ n ih =>
    rw [pow_succ', Language.mem_mul]
    constructor
    · intro given
      obtain ⟨first, ⟨a, own, rfl⟩, rest, later, rfl⟩ := given
      obtain ⟨length, every⟩ := ih.mp later
      exact ⟨congrArg (· + 1) length, List.forall_mem_cons.mpr ⟨own, every⟩⟩
    · intro given
      obtain ⟨length, every⟩ := given
      obtain ⟨a, rest, rfl⟩ := List.exists_cons_of_length_eq_add_one length
      obtain ⟨own, later⟩ := List.forall_mem_cons.mp every
      exact ⟨[a], letter_mem own, rest, ih.mpr ⟨Nat.succ.inj length, later⟩, rfl⟩

/-- At most so many. -/
theorem mem_optional_pow : w ∈ (1 + letter p) ^ n ↔ w.length ≤ n ∧ ∀ a ∈ w, p a := by
  induction n generalizing w with
  | zero =>
    rw [pow_zero, Language.mem_one, Nat.le_zero, List.length_eq_zero_iff]
    exact ⟨fun empty => ⟨empty, empty ▸ List.forall_mem_nil _⟩, And.left⟩
  | succ n ih =>
    rw [pow_succ', Language.mem_mul]
    constructor
    · intro given
      obtain ⟨first, none | ⟨a, own, rfl⟩, rest, later, rfl⟩ := given
      · obtain rfl : first = [] := none
        obtain ⟨length, every⟩ := ih.mp later
        exact ⟨Nat.le_succ_of_le length, every⟩
      · obtain ⟨length, every⟩ := ih.mp later
        exact ⟨Nat.succ_le_succ length, List.forall_mem_cons.mpr ⟨own, every⟩⟩
    · intro given
      obtain ⟨length, every⟩ := given
      cases w with
      | nil => exact ⟨[], .inl rfl, [], ih.mpr ⟨Nat.zero_le n, every⟩, rfl⟩
      | cons a rest =>
        obtain ⟨own, later⟩ := List.forall_mem_cons.mp every
        exact ⟨[a], .inr (letter_mem own), rest, ih.mpr ⟨Nat.le_of_succ_le_succ length, later⟩, rfl⟩

end Words

section Kleene
variable {α : Type*} [KleeneAlgebra α]

/-- A repeated choice is one alternative repeated, and then the other with the first repeated behind it. -/
theorem denest (a b : α) : (a + b)∗ = a∗ * (b * a∗)∗ := by
  apply le_antisymm
  · apply kstar_le_of_mul_le_right
    · exact le_mul_of_one_le_of_le one_le_kstar one_le_kstar
    · rw [add_mul]
      apply add_le
      · rw [← mul_assoc]
        exact mul_le_mul_left mul_kstar_le_kstar _
      · rw [← mul_assoc]
        exact mul_kstar_le_kstar.trans (le_mul_of_one_le_left' one_le_kstar)
  · have first : a∗ ≤ (a + b)∗ := kstar_mono (le_add_of_nonneg_right zero_le)
    have second : b ≤ (a + b)∗ := (le_add_of_nonneg_left zero_le).trans le_kstar
    have both : b * a∗ ≤ (a + b)∗ := (mul_le_mul' second first).trans (kstar_mul_kstar _).le
    have again : (b * a∗)∗ ≤ (a + b)∗ := (kstar_mono both).trans (kstar_idem _).le
    exact (mul_le_mul' first again).trans (kstar_mul_kstar _).le

end Kleene

section Separated
variable {α : Type*} {between part : Language α} {w : List α} {p q : α → Prop}

/-- Runs of one class with separators between them, read one step at a time. -/
theorem separated_many1 (between part : Language α) :
    separated between (many1 part) = part * (part + between * part)∗ := by
  rw [separated, many1, denest, mul_assoc, ← mul_assoc between]

theorem mem_separated_cons {first : List α} (own : first ∈ part) (rest : w ∈ (between * part)∗) :
    first ++ w ∈ separated between part := Language.append_mem_mul own rest

theorem intercalate_cons (mark : α) (first : List α) (others : List (List α)) :
    [mark].intercalate (first :: others) = first ++ (others.map (mark :: ·)).flatten := by
  induction others generalizing first with
  | nil => simp [List.intercalate]
  | cons second rest ih =>
    have later := ih second
    rw [List.intercalate, List.intersperse_cons_cons, List.flatten_cons, List.flatten_cons, ← List.intercalate, later]
    rfl

/-- The parts between single separators are those of the text split at them. -/
theorem mem_separated_splitOn [DecidableEq α] {mark : α} (apart : ∀ v ∈ part, mark ∉ v) :
    w ∈ separated (word [mark]) part ↔ ∀ v ∈ w.splitOn mark, v ∈ part := by
  constructor
  · intro inside
    obtain ⟨first, firstIn, rest, restIn, rfl⟩ := Language.mem_mul.mp inside
    obtain ⟨others, every, rfl⟩ : ∃ others : List (List α), (∀ v ∈ others, v ∈ part) ∧
        rest = (others.map (mark :: ·)).flatten := by
      obtain ⟨pieces, rfl, every⟩ := Language.mem_kstar.mp restIn
      refine ⟨pieces.map List.tail, fun v listed => ?_, ?_⟩
      · obtain ⟨piece, there, rfl⟩ := List.mem_map.mp listed
        obtain ⟨_, rfl, own, ownIn, rfl⟩ := Language.mem_mul.mp (every piece there)
        exact ownIn
      · rw [List.map_map]
        apply congrArg
        conv => lhs; rw [← List.map_id pieces]
        apply List.map_congr_left
        intro piece there
        obtain ⟨_, rfl, own, _, rfl⟩ := Language.mem_mul.mp (every piece there)
        rfl
    have all : ∀ v ∈ first :: others, v ∈ part := List.forall_mem_cons.mpr ⟨firstIn, every⟩
    rw [← intercalate_cons, List.splitOn_intercalate mark (fun v listed => apart v (all v listed)) (List.cons_ne_nil _ _)]
    exact all
  · intro every
    obtain ⟨first, others, shape⟩ := List.exists_cons_of_ne_nil (List.splitOn_ne_nil mark w)
    rw [shape] at every
    obtain ⟨firstIn, othersIn⟩ := List.forall_mem_cons.mp every
    have whole : [mark].intercalate (w.splitOn mark) = w := List.intercalate_splitOn mark
    rw [shape, intercalate_cons] at whole
    rw [← whole]
    refine mem_separated_cons firstIn (Language.join_mem_kstar fun piece listed => ?_)
    obtain ⟨v, there, rfl⟩ := List.mem_map.mp listed
    exact Language.append_mem_mul (mem_word.mpr rfl) (othersIn v there)

/-- A word may be read with a narrower class if its characters allow it. -/
theorem separated_narrow (narrower : ∀ a ∈ w, p a → q a) (own : w ∈ separated between (many1 (letter p))) :
    w ∈ separated between (many1 (letter q)) := by
  have run {v : List α} (within : v ⊆ w) (repeated : v ∈ many1 (letter p)) : v ∈ many1 (letter q) := by
    obtain ⟨nonempty, every⟩ := mem_many1_letter.mp repeated
    exact mem_many1_letter.mpr ⟨nonempty, fun a member => narrower a (within member) (every a member)⟩
  obtain ⟨first, firstIn, rest, restIn, rfl⟩ := Language.mem_mul.mp own
  obtain ⟨pieces, rfl, every⟩ := Language.mem_kstar.mp restIn
  refine mem_separated_cons (run (List.subset_append_left _ _) firstIn) (Language.join_mem_kstar fun piece listed => ?_)
  obtain ⟨mark, markIn, repeated, repeatedIn, rfl⟩ := Language.mem_mul.mp (every piece listed)
  refine Language.append_mem_mul markIn (run (fun a member => ?_) repeatedIn)
  exact List.mem_append_right first (List.mem_flatten.mpr ⟨_, listed, List.mem_append_right mark member⟩)

end Separated

section Characters
variable {α : Type*} {p q : α → Prop} {l m : Language α} {n : Nat}

/-- Every word of the language is of such characters. -/
def Over (p : α → Prop) (l : Language α) : Prop := ∀ w ∈ l, ∀ a ∈ w, p a

theorem over_word {w : List α} (every : ∀ a ∈ w, p a) : Over p (word w) := by
  rintro v rfl
  exact every

theorem over_letter (narrower : ∀ a, q a → p a) : Over p (letter q) := by
  rintro w ⟨a, own, rfl⟩ b member
  rw [List.mem_singleton.mp member]
  exact narrower a own

theorem over_add (first : Over p l) (second : Over p m) : Over p (l + m) := by
  rintro w (inside | inside)
  · exact first w inside
  · exact second w inside

theorem over_one : Over p (1 : Language α) := by
  rintro w rfl
  exact List.forall_mem_nil p

theorem over_mul (first : Over p l) (second : Over p m) : Over p (l * m) := by
  rintro w inside a member
  obtain ⟨front, frontIn, back, backIn, rfl⟩ := Language.mem_mul.mp inside
  rcases List.mem_append.mp member with early | late
  · exact first front frontIn a early
  · exact second back backIn a late

theorem over_kstar (own : Over p l) : Over p l∗ := by
  intro w inside a member
  obtain ⟨pieces, rfl, every⟩ := Language.mem_kstar.mp inside
  obtain ⟨piece, listed, here⟩ := List.mem_flatten.mp member
  exact own piece (every piece listed) a here

theorem over_pow (own : Over p l) : Over p (l ^ n) := by
  induction n with
  | zero =>
    rw [pow_zero]
    exact over_one
  | succ n ih =>
    rw [pow_succ]
    exact over_mul ih own

theorem over_many1 (own : Over p l) : Over p (many1 l) := over_mul own (over_kstar own)

theorem over_separated (between : Over p m) (own : Over p l) : Over p (separated m l) :=
  over_mul own (over_kstar (over_mul between own))

end Characters

end Pbox.Lib.Grammar
