import Mathlib.Data.List.Basic

/-! Machines that turn a stream into another one item by item, and may hold something back until more has come. -/

namespace Pbox.Lib.Filter

variable {State In Out : Type} (step : State → In → State × List Out)

def feed (state : State) : List In → State × List Out
  | [] => (state, [])
  | item :: rest => ((feed (step state item).1 rest).1, (step state item).2 ++ (feed (step state item).1 rest).2)

/-- The stream comes in chunks. -/
def feedAll (state : State) : List (List In) → State × List Out
  | [] => (state, [])
  | chunk :: rest =>
    ((feedAll (feed step state chunk).1 rest).1, (feed step state chunk).2 ++ (feedAll (feed step state chunk).1 rest).2)

theorem feed_append (state : State) (front back : List In) :
    feed step state (front ++ back) =
      ((feed step (feed step state front).1 back).1,
        (feed step state front).2 ++ (feed step (feed step state front).1 back).2) := by
  induction front generalizing state with
  | nil => rfl
  | cons item rest ih =>
    change (_, _) = (_, _)
    rw [List.append_eq, ih]
    exact Prod.ext rfl (List.append_assoc _ _ _).symm

/-- How the stream is cut into chunks makes no difference. -/
theorem feedAll_flatten (state : State) (chunks : List (List In)) :
    feedAll step state chunks = feed step state chunks.flatten := by
  induction chunks generalizing state with
  | nil => rfl
  | cons chunk rest ih =>
    rw [List.flatten_cons, feed_append, ← ih]
    rfl

/-- What a machine makes of the rest of a stream, for every state it can be in. -/
structure Meaning (valid : State → Prop) (meaning : State → List In → List Out) : Prop where
  keeps : ∀ state item, valid state → valid (step state item).1
  step : ∀ state item rest, valid state →
    meaning state (item :: rest) = (step state item).2 ++ meaning (step state item).1 rest

variable {step} {valid : State → Prop} {meaning : State → List In → List Out}

theorem Meaning.feed (law : Meaning step valid meaning) {state : State} (start : valid state) (front back : List In) :
    meaning state (front ++ back) = (feed step state front).2 ++ meaning (feed step state front).1 back := by
  induction front generalizing state with
  | nil => rfl
  | cons item rest ih =>
    rw [List.cons_append, law.step state item _ start, ih (law.keeps state item start)]
    exact (List.append_assoc _ _ _).symm

theorem Meaning.feed_valid (law : Meaning step valid meaning) {state : State} (start : valid state) (data : List In) :
    valid (Filter.feed step state data).1 := by
  induction data generalizing state with
  | nil => exact start
  | cons item rest ih => exact ih (law.keeps state item start)

end Pbox.Lib.Filter
