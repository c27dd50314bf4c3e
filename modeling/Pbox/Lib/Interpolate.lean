import Mathlib.Algebra.Order.Group.Unbundled.Int
import Mathlib.Algebra.Order.Ring.Int

/-! Steps from one integer to another: the part of a distance that has been covered after some of so many equal steps,
by a division that truncates. -/

namespace Pbox.Lib.Interpolate

/-- The part of a distance after `step` of `steps` steps. -/
def part (distance : Int) (step steps : Nat) : Int := (distance * step).tdiv steps

def position (start finish : Int) (step steps : Nat) : Int := start + part (finish - start) step steps

variable {distance : Int} {step steps : Nat}

theorem part_neg (distance : Int) (step steps : Nat) : part (-distance) step steps = -part distance step steps := by
  unfold part
  rw [Int.neg_mul, Int.neg_tdiv]

theorem part_of_nonneg (ahead : 0 ≤ distance) (step steps : Nat) : part distance step steps = distance * step / steps :=
  Int.tdiv_eq_ediv_of_nonneg (Int.mul_nonneg ahead (Int.natCast_nonneg step))

theorem part_all (distance : Int) (some_ : 0 < steps) : part distance steps steps = distance := by
  unfold part
  apply Int.mul_tdiv_cancel
  omega

/-- A part of a distance ahead grows with the steps. -/
theorem part_mono {earlier later : Nat} (ahead : 0 ≤ distance) (some_ : 0 < steps) (order : earlier ≤ later) :
    part distance earlier steps ≤ part distance later steps := by
  rw [part_of_nonneg ahead, part_of_nonneg ahead]
  apply Int.ediv_le_ediv
  · omega
  · apply Int.mul_le_mul_of_nonneg_left
    · omega
    · exact ahead

theorem part_between (ahead : 0 ≤ distance) (some_ : 0 < steps) (enough : step ≤ steps) :
    0 ≤ part distance step steps ∧ part distance step steps ≤ distance := by
  constructor
  · rw [part_of_nonneg ahead]
    apply Int.ediv_nonneg
    · exact Int.mul_nonneg ahead (Int.natCast_nonneg step)
    · exact Int.natCast_nonneg steps
  · calc part distance step steps ≤ part distance steps steps := part_mono ahead some_ enough
      _ = distance := part_all distance some_

theorem position_last (start finish : Int) (some_ : 0 < steps) : position start finish steps steps = finish := by
  unfold position
  rw [part_all _ some_]
  omega

/-- Every position lies between the ends. -/
theorem position_between (start finish : Int) (some_ : 0 < steps) (enough : step ≤ steps) :
    min start finish ≤ position start finish step steps ∧ position start finish step steps ≤ max start finish := by
  unfold position
  by_cases ahead : start ≤ finish
  · have part := part_between (show 0 ≤ finish - start by omega) some_ enough
    omega
  · have part := part_between (show 0 ≤ start - finish by omega) some_ enough
    have mirrored := part_neg (start - finish) step steps
    rw [Int.neg_sub] at mirrored
    omega

/-- The positions move towards the finish and never back. -/
theorem position_mono {earlier later : Nat} (start finish : Int) (some_ : 0 < steps) (order : earlier ≤ later) :
    (start ≤ finish → position start finish earlier steps ≤ position start finish later steps) ∧
      (finish ≤ start → position start finish later steps ≤ position start finish earlier steps) := by
  unfold position
  constructor
  · intro ahead
    have grows := part_mono (show 0 ≤ finish - start by omega) some_ order
    omega
  · intro behind
    have grows := part_mono (show 0 ≤ start - finish by omega) some_ order
    have first := part_neg (start - finish) earlier steps
    have second := part_neg (start - finish) later steps
    rw [Int.neg_sub] at first second
    omega

end Pbox.Lib.Interpolate
