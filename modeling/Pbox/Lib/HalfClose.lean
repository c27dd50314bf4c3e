import Mathlib.Data.List.Basic

/-! Streams of frames that end in two stages: the sender closes its half with one frame after
its last data, and either side may later close the whole stream. `Shape` says what a queue of
such frames can look like, from whether the half close has been put in and taken out. -/

namespace Pbox.Lib.HalfClose

inductive Frame (α : Type*) where
  | data (chunk : List α)
  | close (code : Nat) (half : Bool)
  | invalid
  deriving DecidableEq, Repr

variable {α : Type*}

def Frame.chunk : Frame α → List α
  | .data chunk => chunk
  | _ => []

@[simp] theorem chunk_data (chunk : List α) : (Frame.data chunk).chunk = chunk := rfl
@[simp] theorem chunk_close (code : Nat) (half : Bool) :
    (Frame.close code half : Frame α).chunk = [] := rfl

/-- The bytes that a queue carries, in order. -/
def payload (queue : List (Frame α)) : List α := queue.flatMap Frame.chunk

/-- What may stand in a queue before the half close: data, or the close of a failed sender. -/
def Frame.Opening : Frame α → Prop
  | .data _ => True
  | .close code half => code ≠ 0 ∧ half = false
  | .invalid => False

inductive Shape : Bool → Bool → List (Frame α) → Prop
  | flowing {queue : List (Frame α)} (opening : ∀ frame ∈ queue, frame.Opening) :
      Shape false false queue
  | closing {before after : List (Frame α)} (opening : ∀ frame ∈ before, frame.Opening)
      (silent : payload after = []) : Shape true false (before ++ .close 0 true :: after)
  | closed {queue : List (Frame α)} (silent : payload queue = []) : Shape true true queue

variable {queue rest : List (Frame α)} {frame : Frame α} {sent taken : Bool}

@[simp] theorem payload_nil : payload ([] : List (Frame α)) = [] := rfl

@[simp] theorem payload_cons : payload (frame :: queue) = frame.chunk ++ payload queue := rfl

@[simp] theorem payload_append (other : List (Frame α)) :
    payload (queue ++ other) = payload queue ++ payload other := List.flatMap_append

theorem Shape.empty : Shape false false ([] : List (Frame α)) :=
  .flowing fun _ member => absurd member List.not_mem_nil

/-- Only what has been sent can have been taken. -/
theorem Shape.sent_of_taken (shape : Shape sent true queue) : sent = true ∧ payload queue = [] := by
  cases shape with
  | closed silent => exact ⟨rfl, silent⟩

theorem Shape.untaken (shape : Shape false taken queue) :
    taken = false ∧ ∀ frame ∈ queue, frame.Opening := by
  cases shape with
  | flowing opening => exact ⟨rfl, opening⟩

theorem Shape.push_opening (shape : Shape false taken queue) (fits : frame.Opening) :
    Shape false taken (queue ++ [frame]) := by
  obtain ⟨rfl, opening⟩ := shape.untaken
  refine .flowing fun other member => ?_
  rcases List.mem_append.mp member with earlier | last
  · exact opening other earlier
  · rw [List.mem_singleton.mp last]
    exact fits

theorem Shape.push_half (shape : Shape false taken queue) :
    Shape true taken (queue ++ [.close 0 true]) := by
  obtain ⟨rfl, opening⟩ := shape.untaken
  exact .closing opening rfl

/-- After the half close only frames without bytes follow. -/
theorem Shape.push_silent (shape : Shape true taken queue) (silent : frame.chunk = []) :
    Shape true taken (queue ++ [frame]) := by
  cases shape with
  | closing opening quiet =>
    rw [List.append_assoc, List.cons_append]
    exact .closing opening (by simp [quiet, silent])
  | closed quiet => exact .closed (by simp [quiet, silent])

/-- The head of a queue whose half close has not been taken is an opening frame, or the half
close itself and then all data has been taken. -/
theorem Shape.take (shape : Shape sent false (frame :: rest)) :
    (frame.Opening ∧ Shape sent false rest) ∨
      (frame = .close 0 true ∧ sent = true ∧ Shape true true rest) := by
  generalize whole : frame :: rest = queue at shape
  cases shape with
  | flowing opening =>
    subst whole
    exact .inl ⟨opening frame List.mem_cons_self,
      .flowing fun other member => opening other (List.mem_cons_of_mem _ member)⟩
  | @closing before after opening silent =>
    cases before with
    | nil =>
      cases whole
      exact .inr ⟨rfl, rfl, .closed silent⟩
    | cons first later =>
      cases whole
      exact .inl ⟨opening frame List.mem_cons_self,
        .closing (fun other member => opening other (List.mem_cons_of_mem _ member)) silent⟩

/-- A dropped receiver that had taken the half close misses nothing. -/
theorem Shape.dropped (shape : Shape sent true queue) : Shape sent true ([] : List (Frame α)) := by
  obtain ⟨rfl, _⟩ := shape.sent_of_taken
  exact .closed rfl

end Pbox.Lib.HalfClose
