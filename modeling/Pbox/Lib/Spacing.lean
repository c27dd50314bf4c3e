import Mathlib.Data.List.Chain
import Mathlib.Data.List.Basic

/-! Times that keep a distance from each other, the latest first, and how many of them an interval can hold. -/

namespace Pbox.Lib.Spacing

variable {gap low high : Nat} {times : List Nat}

def Spaced (gap : Nat) (times : List Nat) : Prop := times.Pairwise fun later earlier => earlier + gap ≤ later

theorem Spaced.cons {time : Nat} (spaced : Spaced gap times) (first : ∀ earlier ∈ times.head?, earlier + gap ≤ time) :
    Spaced gap (time :: times) := by
  refine List.Pairwise.cons (fun earlier member => ?_) spaced
  cases times with
  | nil => cases member
  | cons head rest =>
    have near : head + gap ≤ time := first head rfl
    rcases List.mem_cons.mp member with rfl | older
    · exact near
    · have far : earlier + gap ≤ head := List.rel_of_pairwise_cons spaced older
      omega

theorem Spaced.span (spaced : Spaced gap times) (lower : ∀ time ∈ times, low ≤ time)
    (upper : ∀ time ∈ times, time ≤ high) : (times.length - 1) * gap ≤ high - low := by
  induction times generalizing high with
  | nil => simp
  | cons time rest ih =>
    cases rest with
    | nil => simp
    | cons earlier rest =>
      have near : earlier + gap ≤ time := List.rel_of_pairwise_cons spaced List.mem_cons_self
      have bound := upper time List.mem_cons_self
      have start := lower earlier (List.mem_cons_of_mem _ List.mem_cons_self)
      have older : ∀ other ∈ earlier :: rest, other ≤ time - gap := by
        intro other member
        have far : other + gap ≤ time := List.rel_of_pairwise_cons spaced member
        omega
      have tail := ih (List.Pairwise.of_cons spaced) (fun other member => lower other (List.mem_cons_of_mem _ member)) older
      simp only [List.length_cons, Nat.add_sub_cancel, Nat.succ_mul] at tail ⊢
      omega

/-- An interval holds at most one time more than it holds whole gaps. -/
theorem Spaced.count (spaced : Spaced gap times) (positive : 0 < gap) (low high : Nat) :
    (times.filter fun time => low ≤ time && time ≤ high).length ≤ (high - low) / gap + 1 := by
  have within : ∀ time ∈ times.filter fun time => low ≤ time && time ≤ high, low ≤ time ∧ time ≤ high := by
    intro time member
    have inside := (List.mem_filter.mp member).2
    simp only [Bool.and_eq_true, decide_eq_true_eq] at inside
    exact inside
  have part : Spaced gap (times.filter fun time => low ≤ time && time ≤ high) := List.Pairwise.filter _ spaced
  have span := part.span (fun time member => (within time member).1) (fun time member => (within time member).2)
  have fits := (Nat.le_div_iff_mul_le positive).mpr span
  omega

end Pbox.Lib.Spacing
