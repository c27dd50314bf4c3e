import Pbox.Lib.Checks
import Pbox.Lib.Numerals

/-! VMID patterns: a decimal prefix and wildcard digits, as `VmidPattern::parse` reads them. -/

namespace Pbox.Core.Vmid
open Pbox.Lib.Strings Pbox.Lib.Numerals Pbox.Lib.Checks

structure VmidPattern where
  leading : Nat
  wildcardDigits : Nat
  first : Nat
  last : Nat
  deriving DecidableEq

inductive VmidError where
  | invalidPattern
  | overflow
  deriving DecidableEq

def VmidError.text : VmidError → String
  | .invalidPattern => "VMID pattern must match ^[1-9][0-9]*x+$"
  | .overflow => "VMID pattern is too large for a 64-bit VMID"

def u64Max : Nat := 2 ^ 64 - 1
def u32Max : Nat := 2 ^ 32 - 1

/-- The result of an unsigned operation that has to fit, or the overflow. -/
def checkedU64 (n : Nat) : Except VmidError Nat := if n ≤ u64Max then .ok n else .error .overflow

def isAsciiDigitByte (b : UInt8) : Bool := 48 ≤ b && b ≤ 57

def VmidPattern.parse (pattern : Text) : Except VmidError VmidPattern := do
  let bytes := utf8 pattern
  if bytes.length < 2 || !(bytes.head?.any isAsciiDigitByte) || bytes.head? == some 48 then
    throw .invalidPattern
  let wildcardStart ←
    match bytes.findIdx? (· == 120) with
    | some index => pure index
    | none => throw .invalidPattern
  if wildcardStart == 0 || (bytes.drop wildcardStart).any (· != 120) ||
      (bytes.take wildcardStart).any (!isAsciiDigitByte ·) then
    throw .invalidPattern
  -- the bytes before the wildcards are digits, so this many characters are this many bytes
  let prefixText := pattern.take wildcardStart
  if 1 < prefixText.length && prefixText.head? == some '0' then
    throw .invalidPattern
  let leading ←
    match parseUnsigned u64Max prefixText with
    | some value => pure value
    | none => throw .overflow
  let wildcardDigits := bytes.length - wildcardStart
  if u32Max < wildcardDigits then
    throw .overflow
  let factor ← checkedU64 (10 ^ wildcardDigits)
  let first ← checkedU64 (leading * factor)
  let last ← checkedU64 (first + (factor - 1))
  return { leading, wildcardDigits, first, last }

def VmidPattern.contains (pattern : VmidPattern) (vmid : Nat) : Bool :=
  pattern.first ≤ vmid && vmid ≤ pattern.last

/-- The pattern as it is displayed. -/
def VmidPattern.text (pattern : VmidPattern) : Text :=
  showNat pattern.leading ++ List.replicate pattern.wildcardDigits 'x'

/-- `VmidError::Exhausted`, as it is displayed. -/
def VmidPattern.exhausted (pattern : VmidPattern) : Text :=
  "all VMIDs in pattern ".toList ++ pattern.text ++ " are already in use".toList

/-- The loop of `allocate_lowest` from a candidate on, with the number of candidates behind it. -/
def allocateFrom (used : List Nat) : Nat → Nat → Option Nat
  | 0, candidate => if candidate ∉ used then some candidate else none
  | left + 1, candidate => if candidate ∉ used then some candidate else allocateFrom used left (candidate + 1)

def VmidPattern.allocateLowest (pattern : VmidPattern) (used : List Nat) : Except Text Nat :=
  match allocateFrom used (pattern.last - pattern.first) pattern.first with
  | some vmid => .ok vmid
  | none => .error pattern.exhausted

section Allocation
variable {pattern : VmidPattern} {used : List Nat} {vmid : Nat}

theorem checkedU64_ok {n m : Nat} (ok : checkedU64 n = .ok m) : m = n ∧ n ≤ u64Max := by
  unfold checkedU64 at ok
  split_ifs at ok with fits
  cases ok
  exact ⟨rfl, fits⟩

/-- The end of `parse`. -/
theorem range_of_checked {leading wildcardDigits : Nat} (ok : (do
      let factor ← checkedU64 (10 ^ wildcardDigits)
      let first ← checkedU64 (leading * factor)
      let last ← checkedU64 (first + (factor - 1))
      return (⟨leading, wildcardDigits, first, last⟩ : VmidPattern)) = .ok pattern) :
    pattern.first ≤ pattern.last ∧ pattern.last ≤ u64Max := by
  obtain ⟨factor, _, ok⟩ := bind_ok ok
  obtain ⟨first, _, ok⟩ := bind_ok ok
  obtain ⟨last, lastIs, ok⟩ := bind_ok ok
  cases ok
  obtain ⟨rfl, fits⟩ := checkedU64_ok lastIs
  exact ⟨Nat.le_add_right _ _, fits⟩

/-- A pattern that was read is a range of 64-bit numbers. -/
theorem parse_range {text : Text} (ok : VmidPattern.parse text = .ok pattern) :
    pattern.first ≤ pattern.last ∧ pattern.last ≤ u64Max := by
  unfold VmidPattern.parse at ok
  simp only [pure_bind] at ok
  repeat' split at ok
  all_goals first | exact range_of_checked ok | cases ok

theorem allocateFrom_some {left candidate : Nat} (found : allocateFrom used left candidate = some vmid) :
    candidate ≤ vmid ∧ vmid ≤ candidate + left ∧ vmid ∉ used := by
  induction left generalizing candidate with
  | zero =>
    unfold allocateFrom at found
    split_ifs at found with free
    cases found
    exact ⟨Nat.le_refl _, Nat.le_refl _, free⟩
  | succ left ih =>
    unfold allocateFrom at found
    by_cases free : candidate ∉ used
    · rw [if_pos free, Option.some.injEq] at found
      subst found
      exact ⟨Nat.le_refl _, Nat.le_add_right _ _, free⟩
    · rw [if_neg free] at found
      obtain ⟨low, high, free⟩ := ih found
      exact ⟨by omega, by omega, free⟩

theorem allocateLowest_ok (range : pattern.first ≤ pattern.last) (ok : pattern.allocateLowest used = .ok vmid) :
    pattern.contains vmid = true ∧ vmid ∉ used := by
  unfold VmidPattern.allocateLowest at ok
  split at ok
  next found =>
    cases ok
    obtain ⟨low, high, free⟩ := allocateFrom_some found
    refine ⟨?_, free⟩
    rw [VmidPattern.contains, Bool.and_eq_true, decide_eq_true_iff, decide_eq_true_iff]
    omega
  next => cases ok

end Allocation

end Pbox.Core.Vmid
