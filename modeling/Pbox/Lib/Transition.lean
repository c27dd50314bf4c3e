import Mathlib.Data.Option.Basic

/-! Labelled systems whose steps are partial functions. An action is one atomic step of one
party, so a list of actions is one interleaving and a reachable state is the end of one.
Runs may be restricted to steps that meet a condition in the state before them. -/

namespace Pbox.Lib.Transition

structure System (State Action : Type*) where
  init : State → Prop
  step : State → Action → Option State

variable {State Action : Type*}

/-- The ends of the runs each of whose steps is allowed in the state before it. -/
inductive System.ReachableBy (sys : System State Action) (allowed : State → Action → Prop) :
    State → Prop
  | start {s : State} (initial : sys.init s) : ReachableBy sys allowed s
  | next {s t : State} {a : Action} (before : ReachableBy sys allowed s) (meets : allowed s a)
      (taken : sys.step s a = some t) : ReachableBy sys allowed t

def System.Reachable (sys : System State Action) : State → Prop :=
  sys.ReachableBy (fun _ _ => True)

variable {sys : System State Action} {allowed : State → Action → Prop}

/-- The induction of every safety theorem: a property that holds at the start and that each
allowed step keeps holds at the end of every allowed run. -/
theorem System.ReachableBy.invariant {inv : State → Prop} {s : State}
    (reached : sys.ReachableBy allowed s)
    (initial : ∀ s, sys.init s → inv s)
    (kept : ∀ s a t, inv s → allowed s a → sys.step s a = some t → inv t) : inv s := by
  induction reached with
  | start start => exact initial _ start
  | next _ meets taken ih => exact kept _ _ _ ih meets taken

theorem System.Reachable.invariant {inv : State → Prop} {s : State} (reached : sys.Reachable s)
    (initial : ∀ s, sys.init s → inv s)
    (kept : ∀ s a t, inv s → sys.step s a = some t → inv t) : inv s :=
  System.ReachableBy.invariant reached initial (fun s a t holds _ taken => kept s a t holds taken)

/-- A restricted run is a run. -/
theorem System.ReachableBy.reachable {s : State} (reached : sys.ReachableBy allowed s) :
    sys.Reachable s := by
  induction reached with
  | start initial => exact .start initial
  | next _ _ taken ih => exact .next ih trivial taken

theorem System.Reachable.next {s t : State} {a : Action} (before : sys.Reachable s)
    (taken : sys.step s a = some t) : sys.Reachable t :=
  System.ReachableBy.next before trivial taken

/-- The state after a given interleaving, when every action of it is enabled in its turn. -/
def System.run (sys : System State Action) : State → List Action → Option State
  | s, [] => some s
  | s, a :: rest => (sys.step s a).bind (sys.run · rest)

theorem System.reachable_of_run {s t : State} {actions : List Action} (before : sys.Reachable s)
    (runs : sys.run s actions = some t) : sys.Reachable t := by
  induction actions generalizing s with
  | nil =>
    simp only [System.run, Option.some.injEq] at runs
    exact runs ▸ before
  | cons a rest ih =>
    obtain ⟨mid, taken, later⟩ := Option.bind_eq_some_iff.mp runs
    exact ih (before.next taken) later

/-- The same, with every step checked against the condition on the way. -/
def System.runBy (sys : System State Action) (allowed : State → Action → Bool) :
    State → List Action → Option State
  | s, [] => some s
  | s, a :: rest =>
    if allowed s a then (sys.step s a).bind (sys.runBy allowed · rest) else none

theorem System.reachableBy_of_runBy {check : State → Action → Bool} {s t : State}
    {actions : List Action} (sound : ∀ s a, check s a = true → allowed s a)
    (before : sys.ReachableBy allowed s) (runs : sys.runBy check s actions = some t) :
    sys.ReachableBy allowed t := by
  induction actions generalizing s with
  | nil =>
    simp only [System.runBy, Option.some.injEq] at runs
    exact runs ▸ before
  | cons a rest ih =>
    by_cases meets : check s a = true
    · simp only [System.runBy, if_pos meets] at runs
      obtain ⟨mid, taken, later⟩ := Option.bind_eq_some_iff.mp runs
      exact ih (before.next (sound s a meets) taken) later
    · simp [System.runBy, meets] at runs

/-! Along a run: a property of each of its states, and a condition on each of its steps. -/

section Runs

def System.Throughout (sys : System State Action) (property : State → Prop) : State → List Action → Prop
  | s, [] => property s
  | s, a :: rest => property s ∧ ∀ t, sys.step s a = some t → sys.Throughout property t rest

def System.Stepwise (sys : System State Action) (allowed : State → Action → Prop) : State → List Action → Prop
  | _, [] => True
  | s, a :: rest => allowed s a ∧ ∀ t, sys.step s a = some t → sys.Stepwise allowed t rest

/-- Where a step keeps a property exactly when it meets the condition, the property lasts through exactly the runs
whose steps meet it. -/
theorem System.throughout_iff {inv property : State → Prop}
    (kept : ∀ s a t, inv s → sys.step s a = some t → inv t)
    (exact : ∀ s a t, inv s → property s → sys.step s a = some t → (property t ↔ allowed s a))
    {s t : State} (start : inv s) (holds : property s) {actions : List Action} (runs : sys.run s actions = some t) :
    sys.Throughout property s actions ↔ sys.Stepwise allowed s actions := by
  induction actions generalizing s with
  | nil => exact ⟨fun _ => trivial, fun _ => holds⟩
  | cons a rest ih =>
    obtain ⟨mid, taken, later⟩ := Option.bind_eq_some_iff.mp runs
    have next : property mid ↔ allowed s a := exact s a mid start holds taken
    constructor
    · rintro ⟨_, through⟩
      have held : property mid := by
        have along := through mid taken
        cases rest with
        | nil => exact along
        | cons => exact along.1
      refine ⟨next.mp held, fun other taken' => ?_⟩
      rw [taken, Option.some.injEq] at taken'
      subst taken'
      exact (ih (kept s a mid start taken) held later).mp (through mid taken)
    · rintro ⟨meets, through⟩
      refine ⟨holds, fun other taken' => ?_⟩
      rw [taken, Option.some.injEq] at taken'
      subst taken'
      exact (ih (kept s a mid start taken) (next.mpr meets) later).mpr (through mid taken)

theorem System.Stepwise.invariant {inv : State → Prop} {s t : State} {actions : List Action}
    (stepwise : sys.Stepwise allowed s actions) (start : inv s) (runs : sys.run s actions = some t)
    (kept : ∀ s a t, inv s → allowed s a → sys.step s a = some t → inv t) : inv t := by
  induction actions generalizing s with
  | nil =>
    simp only [System.run, Option.some.injEq] at runs
    exact runs ▸ start
  | cons a rest ih =>
    obtain ⟨mid, taken, later⟩ := Option.bind_eq_some_iff.mp runs
    exact ih (stepwise.2 mid taken) (kept s a mid start stepwise.1 taken) later

theorem System.throughout_last {property : State → Prop} {s t : State} {actions : List Action}
    (through : sys.Throughout property s actions) (runs : sys.run s actions = some t) : property t := by
  induction actions generalizing s with
  | nil =>
    simp only [System.run, Option.some.injEq] at runs
    exact runs ▸ through
  | cons a rest ih =>
    obtain ⟨mid, taken, later⟩ := Option.bind_eq_some_iff.mp runs
    exact ih (through.2 mid taken) later

theorem System.stepwise_of_runBy {check : State → Action → Bool} (sound : ∀ s a, check s a = true → allowed s a)
    {s : State} {actions : List Action} (runs : (sys.runBy check s actions).isSome = true) :
    sys.Stepwise allowed s actions := by
  induction actions generalizing s with
  | nil => trivial
  | cons a rest ih =>
    by_cases meets : check s a = true
    · refine ⟨sound s a meets, fun t taken => ih ?_⟩
      simpa [System.runBy, meets, taken] using runs
    · simp [System.runBy, meets] at runs

end Runs

/-! Loops: every input is taken, one pass each. -/

section Loop
variable {State Input : Type*} (next : State → Input → State)

/-- A property of each pass and of the state before it, along a whole run of a loop. -/
def Along (property : State → Input → Prop) : State → List Input → Prop
  | _, [] => True
  | s, input :: rest => property s input ∧ Along property (next s input) rest

variable {next} {property other : State → Input → Prop}

/-- Properties that agree under an invariant of the loop agree along its runs. -/
theorem along_congr {inv : State → Prop} (kept : ∀ s input, inv s → inv (next s input))
    (same : ∀ s input, inv s → (property s input ↔ other s input)) {s : State} (start : inv s)
    (inputs : List Input) : Along next property s inputs ↔ Along next other s inputs := by
  induction inputs generalizing s with
  | nil => exact Iff.rfl
  | cons input rest ih =>
    exact and_congr (same s input start) (ih (kept s input start))

theorem along_last {s : State} {inputs : List Input} {input : Input}
    (along : Along next property s (inputs ++ [input])) : property (inputs.foldl next s) input := by
  induction inputs generalizing s with
  | nil => exact along.1
  | cons first rest ih => exact ih along.2

end Loop

end Pbox.Lib.Transition
