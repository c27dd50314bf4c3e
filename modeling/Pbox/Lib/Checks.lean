import Mathlib.Data.List.Defs
import Mathlib.Tactic.Basic

/-! Programs that check and fail: what a result says about the steps before it. -/

namespace Pbox.Lib.Checks

variable {ε δ α β : Type}

theorem bind_ok {x : Except ε α} {f : α → Except ε β} {b : β} (ok : (x >>= f) = .ok b) :
    ∃ a, x = .ok a ∧ f a = .ok b := by
  cases x with
  | error => cases ok
  | ok a => exact ⟨a, rfl, ok⟩

theorem bind_ok_iff (first : Except ε Unit) (rest : Except ε α) (result : α) :
    (first >>= fun _ => rest) = .ok result ↔ first = .ok () ∧ rest = .ok result := by
  cases first with
  | error => simp [bind, Except.bind]
  | ok => simp [bind, Except.bind]

theorem mapError_ok {x : Except ε α} {f : ε → δ} {a : α} (ok : x.mapError f = .ok a) : x = .ok a := by
  cases x with
  | error => cases ok
  | ok => exact congrArg Except.ok (Except.ok.inj ok)

/-- A check that throws was passed by what succeeds. -/
theorem throw_iff {condition : Prop} [Decidable condition] {error : ε} {rest : PUnit → Except ε α} {result : α} :
    (if condition then throw error >>= rest else rest ⟨⟩) = .ok result ↔ ¬condition ∧ rest ⟨⟩ = .ok result := by
  split
  next fails => exact iff_of_false (fun wrong => nomatch wrong) fun both => both.1 fails
  next passes => exact (and_iff_right passes).symm

/-- What a check makes of a list it makes of each element. -/
theorem mapM_ok {f : α → Except ε β} {list : List α} {out : List β} (ok : list.mapM f = .ok out) :
    List.Forall₂ (fun a b => f a = .ok b) list out := by
  induction list generalizing out with
  | nil =>
    cases ok
    exact .nil
  | cons a rest ih =>
    rw [List.mapM_cons] at ok
    obtain ⟨b, first, ok⟩ := bind_ok ok
    obtain ⟨others, later, ok⟩ := bind_ok ok
    cases ok
    exact .cons first (ih later)

end Pbox.Lib.Checks
