import Mathlib.Tactic.Basic

/-! Computations that change a state and may fail, where a failure keeps the changes made before
it. A specification gives one condition for each kind of end; the rules below take it through the
constructs of a program, the last of which is a guard that cleans up after a failure. -/

namespace Pbox.Lib.Effects

abbrev Effect (State Error : Type) := ExceptT Error (StateM State)

variable {State Error Value Result : Type}

/-- The outcome of a computation and the state it leaves. -/
def Effect.from (x : Effect State Error Value) (s : State) : Except Error Value × State :=
  StateT.run (ExceptT.run x) s

/-- A check that throws. -/
def throwIf (condition : Prop) [Decidable condition] (error : Error) : Effect State Error Unit :=
  if condition then throw error else pure ()

/-- The body, and on its failure the cleanup before the error goes on. -/
def guarded (cleanup : State → State) (body : Effect State Error Value) : Effect State Error Value :=
  tryCatch body fun error => do
    modify cleanup
    throw error

/-- Every end of the computation from this state meets the condition of its kind. -/
def Ends (x : Effect State Error Value) (s : State) (ok : Value → State → Prop)
    (failed : Error → State → Prop) : Prop :=
  match x.from s with
  | (.ok value, t) => ok value t
  | (.error error, t) => failed error t

section Rules
variable {x : Effect State Error Value} {next : Value → Effect State Error Result} {s : State}
  {ok : Value → State → Prop} {done : Result → State → Prop} {failed : Error → State → Prop}

@[simp] theorem ends_pure (value : Value) :
    Ends (pure value : Effect State Error Value) s ok failed ↔ ok value s := Iff.rfl

@[simp] theorem ends_throw (error : Error) :
    Ends (throw error : Effect State Error Value) s ok failed ↔ failed error s := Iff.rfl

@[simp] theorem ends_modify {done : Unit → State → Prop} (update : State → State) :
    Ends (modify update : Effect State Error Unit) s done failed ↔ done () (update s) := Iff.rfl

@[simp] theorem ends_get {done : State → State → Prop} :
    Ends (get : Effect State Error State) s done failed ↔ done s s := Iff.rfl

@[simp] theorem ends_set {done : PUnit → State → Prop} (t : State) :
    Ends (set t : Effect State Error PUnit) s done failed ↔ done () t := Iff.rfl

theorem from_bind : (x >>= next).from s = match x.from s with
    | (.ok value, t) => (next value).from t
    | (.error error, t) => (.error error, t) := by
  show StateT.run (ExceptT.run (x >>= next)) s = _
  rw [ExceptT.run_bind, StateT.run_bind]
  show (match StateT.run (ExceptT.run x) s with | (result, t) => _) = _
  unfold Effect.from
  rcases StateT.run (ExceptT.run x) s with ⟨_ | _, _⟩ <;> rfl

/-- A result of two computations is one of the second from where the first had its own. -/
theorem from_bind_ok {result : Result} {t : State} (run : (x >>= next).from s = (.ok result, t)) :
    ∃ value u, x.from s = (.ok value, u) ∧ (next value).from u = (.ok result, t) := by
  rw [from_bind] at run
  rcases first : x.from s with ⟨error | value, u⟩
  · rw [first] at run
    cases run
  · rw [first] at run
    exact ⟨value, u, rfl, run⟩

@[simp] theorem ends_bind :
    Ends (x >>= next) s done failed ↔ Ends x s (fun value t => Ends (next value) t done failed) failed := by
  unfold Ends
  rw [from_bind]
  rcases x.from s with ⟨_ | _, _⟩ <;> rfl

@[simp] theorem ends_guarded {cleanup : State → State} :
    Ends (guarded cleanup x) s ok failed ↔ Ends x s ok (fun error t => failed error (cleanup t)) := by
  have run : (guarded cleanup x).from s = match x.from s with
      | (.ok value, t) => (.ok value, t)
      | (.error error, t) => (.error error, cleanup t) := by
    unfold guarded Effect.from
    rw [ExceptT.run_tryCatch, StateT.run_bind]
    rcases StateT.run (ExceptT.run x) s with ⟨_ | _, _⟩ <;> rfl
  unfold Ends
  rw [run]
  rcases x.from s with ⟨_ | _, _⟩ <;> rfl

@[simp] theorem ends_throwIf {condition : Prop} [Decidable condition] {done : Unit → State → Prop} (error : Error) :
    Ends (throwIf condition error) s done failed ↔
      (condition → failed error s) ∧ (¬condition → done () s) := by
  unfold throwIf
  by_cases holds : condition <;> simp [holds]

theorem Ends.mono {ok' : Value → State → Prop} {failed' : Error → State → Prop}
    (ends : Ends x s ok failed) (oks : ∀ value t, ok value t → ok' value t)
    (faileds : ∀ error t, failed error t → failed' error t) : Ends x s ok' failed' := by
  unfold Ends at ends ⊢
  rcases run : x.from s with ⟨error | value, t⟩
  · rw [run] at ends
    exact faileds error t ends
  · rw [run] at ends
    exact oks value t ends

/-- One computation after another: the second starts in every state in which the first may end well. -/
theorem Ends.andThen (ends : Ends x s ok failed) (later : ∀ value t, ok value t → Ends (next value) t done failed) :
    Ends (x >>= next) s done failed :=
  ends_bind.mpr (ends.mono later fun _ _ failed => failed)

/-- What holds of every result holds at every end, when nothing is asked of failures. -/
theorem Ends.of_results (oks : ∀ value t, ok value t) : Ends x s ok fun _ _ => True := by
  unfold Ends
  split
  next value t _ => exact oks value t
  next => trivial

/-- What a specification says of an end that is a result. -/
theorem Ends.ok_of {value : Value} {t : State} (ends : Ends x s ok failed) (run : x.from s = (.ok value, t)) :
    ok value t := by
  unfold Ends at ends
  rw [run] at ends
  exact ends

theorem Ends.failed_of {error : Error} {t : State} (ends : Ends x s ok failed)
    (run : x.from s = (.error error, t)) : failed error t := by
  unfold Ends at ends
  rw [run] at ends
  exact ends

/-- A computation that cannot fail has a result. -/
theorem Ends.exists_ok (ends : Ends x s ok fun _ _ => False) :
    ∃ value t, x.from s = (.ok value, t) ∧ ok value t := by
  unfold Ends at ends
  rcases run : x.from s with ⟨error | value, t⟩
  · rw [run] at ends
    exact ends.elim
  · rw [run] at ends
    exact ⟨value, t, rfl, ends⟩

end Rules

/-! Computations that only change a state, applied to it. -/

section Applied
variable {s : State}

theorem applied_bind (x : StateM State Value) (next : Value → StateM State Result) :
    (x >>= next) s = next (x s).1 (x s).2 := rfl

theorem applied_pure (value : Value) : (pure value : StateM State Value) s = (value, s) := rfl

theorem applied_modify (update : State → State) : (modify update : StateM State Unit) s = ((), update s) := rfl

end Applied

end Pbox.Lib.Effects
