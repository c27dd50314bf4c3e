import Pbox.Lib.Multiplex
import Pbox.Reverse.Model

/-! One direction of a reverse forward. For every connection the events that the bridge at one end
has sent are those that the bridge at the other end has taken, those in its queue, the one in the
hand of its loop and those of its number in the stream, in this order. -/

namespace Pbox.Reverse
open Pbox.Lib.Multiplex

section Lane

/-- What a message carries for a connection. -/
def ReverseForwardEvent.item (message : ReverseForwardEvent) : Option (Nat × Event) :=
  match message.event with
  | some (.data bytes) => some (message.connectionId, .data bytes)
  | some (.close code halfClose) => some (message.connectionId, .close code halfClose)
  | _ => none

def onWay (index : Nat) (messages : List ReverseForwardEvent) : List Event :=
  forKey ReverseForwardEvent.item index messages

section Way
variable {message : ReverseForwardEvent} {messages : List ReverseForwardEvent} {index other : Nat} {event : Event}

theorem onWay_append (back : List ReverseForwardEvent) :
    onWay index (messages ++ back) = onWay index messages ++ onWay index back := forKey_append back

theorem onWay_own (owned : message.item = some (index, event)) :
    onWay index (message :: messages) = event :: onWay index messages := forKey_own owned

theorem onWay_foreign (owned : message.item = some (other, event)) (different : other ≠ index) :
    onWay index (message :: messages) = onWay index messages := forKey_foreign owned different

theorem onWay_none (none : message.item = none) :
    onWay index (message :: messages) = onWay index messages := forKey_none none

end Way

namespace Endpoint

/-- The messages that have not reached the other end. -/
def messages (e : Endpoint) : List ReverseForwardEvent := e.net ++ e.buffer

/-- The event that the loop is about to put into the queue of a bridge. -/
def hand (e : Endpoint) (index : Nat) : List Event :=
  match e.pc with
  | .delivering _ target event => if target = index then [event] else []
  | _ => []

/-- The queue of a bridge has its receiver. -/
def Open (e : Endpoint) (index : Nat) : Prop := (e.bridge index).pc ≠ .ended

end Endpoint

/-- The direction from one end to the other. A bridge whose queue is open is found by its number, or
it has been given its full close. -/
structure Lane (x y : Endpoint) : Prop where
  carried : ∀ index, y.Open index → (x.bridge index).emitted =
    (y.bridge index).taken ++ (y.bridge index).input ++ y.hand index ++ onWay index x.messages
  begun : ∀ index, ¬y.Open index → (y.bridge index).taken <+: (x.bridge index).emitted
  entered : y.pc ≠ .ended → ∀ index, 1 ≤ index → index ≤ y.spawned → y.Open index →
    y.connections index = some index ∨
      ∃ event ∈ (y.bridge index).taken ++ (y.bridge index).input, event.full = true

variable {x x' y y' : Endpoint}

/-- In any case the receiver has taken a beginning of what was sent. -/
theorem Lane.prefix_taken (lane : Lane x y) (index : Nat) :
    (y.bridge index).taken <+: (x.bridge index).emitted := by
  by_cases opens : y.Open index
  · rw [lane.carried index opens, List.append_assoc, List.append_assoc]
    exact List.prefix_append _ _
  · exact lane.begun index opens

/-- Steps of the sending end that send nothing. -/
theorem Lane.sender (lane : Lane x y) (emitted : ∀ index, (x'.bridge index).emitted = (x.bridge index).emitted)
    (way : ∀ index, onWay index x'.messages = onWay index x.messages) : Lane x' y where
  carried index opens := by rw [emitted, way, lane.carried index opens]
  begun index gone := by
    rw [emitted]
    exact lane.begun index gone
  entered := lane.entered

/-- Steps of the receiving end that take nothing from the stream. -/
theorem Lane.receiver (lane : Lane x y) (hand : ∀ index, y'.Open index → y'.hand index = y.hand index)
    (queued : ∀ index, (y'.bridge index).taken ++ (y'.bridge index).input =
      (y.bridge index).taken ++ (y.bridge index).input)
    (opens : ∀ index, y'.Open index → y.Open index)
    (gone : ∀ index, ¬y'.Open index → (y'.bridge index).taken = (y.bridge index).taken)
    (entries : y'.pc ≠ .ended → y.pc ≠ .ended ∧ ∀ index, 1 ≤ index → index ≤ y'.spawned → y'.Open index →
      y'.connections index = some index ∨ index ≤ y.spawned ∧ y.connections index ≠ some index) :
    Lane x y' where
  carried index opened := by rw [hand index opened, queued, lane.carried index (opens index opened)]
  begun index ended := by
    rw [gone index ended]
    exact lane.prefix_taken index
  entered running index low high opened := by
    obtain ⟨before, kept⟩ := entries running
    rcases kept index low high opened with entry | ⟨old, absent⟩
    · exact .inl entry
    · rw [queued]
      exact .inr ((lane.entered before index low old (opens index opened)).resolve_left absent)

end Lane

end Pbox.Reverse
