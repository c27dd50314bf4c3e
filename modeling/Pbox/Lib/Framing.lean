import Mathlib.Data.List.Infix

/-! Contents sent in frames of which the last one is marked. The mark makes a cut visible: no proper
beginning of a framed stream is one, so a receiver that insists on the mark, and on nothing behind
it, has the contents or an error. -/

namespace Pbox.Lib.Framing

section Frames
variable {Frame Item : Type*} (payload : Frame → List Item) (final : Frame → Bool)

/-- Frames that carry these contents, the last one marked and no other. -/
inductive Framed : List Frame → List Item → Prop
  | last (frame : Frame) (marked : final frame = true) : Framed [frame] (payload frame)
  | more (frame : Frame) (frames : List Frame) (contents : List Item) (unmarked : final frame = false)
      (rest : Framed frames contents) : Framed (frame :: frames) (payload frame ++ contents)

variable {payload final} {frames others : List Frame} {contents : List Item}

theorem Framed.contents_eq (framed : Framed payload final frames contents) :
    contents = frames.flatMap payload := by
  induction framed with
  | last frame => simp
  | more frame frames contents unmarked rest ih => rw [List.flatMap_cons, ih]

/-- Unmarked frames put before a framed stream. -/
theorem Framed.prepend {front : List Frame} (unmarked : ∀ frame ∈ front, final frame = false)
    (framed : Framed payload final frames contents) :
    Framed payload final (front ++ frames) (front.flatMap payload ++ contents) := by
  induction front with
  | nil => exact framed
  | cons frame front ih =>
    rw [List.flatMap_cons, List.append_assoc]
    exact .more _ _ _ (unmarked frame List.mem_cons_self)
      (ih fun later member => unmarked later (List.mem_cons_of_mem _ member))

/-- A framed stream that begins another one is the whole of it. -/
theorem Framed.eq_of_prefix {more : List Item} (framed : Framed payload final frames contents)
    (longer : Framed payload final others more) (begins : frames <+: others) : frames = others := by
  induction framed generalizing others more with
  | last frame marked =>
    cases longer with
    | last => exact List.IsPrefix.eq_of_length begins rfl
    | more other rest contents unmarked =>
      obtain ⟨rfl, _⟩ := List.cons_prefix_cons.mp begins
      rw [marked] at unmarked
      cases unmarked
  | more frame frames contents unmarked rest ih =>
    cases longer with
    | last other marked =>
      obtain ⟨rfl, _⟩ := List.cons_prefix_cons.mp begins
      rw [unmarked] at marked
      cases marked
    | more other others more unmarked' rest' =>
      obtain ⟨rfl, tails⟩ := List.cons_prefix_cons.mp begins
      rw [ih rest' tails]

theorem Framed.marked (framed : Framed payload final frames contents) :
    ∃ frame ∈ frames, final frame = true := by
  induction framed with
  | last frame marked => exact ⟨frame, List.mem_cons_self, marked⟩
  | more frame frames contents unmarked rest ih =>
    obtain ⟨later, member, marked⟩ := ih
    exact ⟨later, List.mem_cons_of_mem _ member, marked⟩

end Frames

section Transport
variable {Frame Item Failure : Type*}

/-- What a receiver gets from a stream: a message, a failure, or nothing for too long. The end of
the list is the end of the stream. -/
inductive Event (Frame Failure : Type*) where
  | message (frame : Frame)
  | failed (failure : Failure)
  | idle

/-- A stream that carries these events in order: some of them and then no message, or all of them
and then anything. -/
def Carries (sent events : List (Event Frame Failure)) : Prop :=
  ∃ got rest, events = got ++ rest ∧ got <+: sent ∧
    (got = sent ∨ ∀ frame later, rest ≠ .message frame :: later)

variable {sent : List (Event Frame Failure)} {frames others front : List Frame} {payload : Frame → List Item}
  {final : Frame → Bool} {contents received : List Item} {failure : Failure}

theorem carries_self (sent : List (Event Frame Failure)) : Carries sent sent :=
  ⟨sent, [], (List.append_nil _).symm, List.prefix_refl sent, .inl rfl⟩

theorem message_injective : Function.Injective (Event.message : Frame → Event Frame Failure) :=
  fun _ _ same => by injection same

/-- A stream of messages alone is a beginning of what was sent, or has all of it at its beginning. -/
theorem carries_messages (carries : Carries sent (frames.map .message)) :
    frames.map .message <+: sent ∨ sent <+: frames.map .message := by
  obtain ⟨got, rest, shape, begins, whole⟩ := carries
  rcases whole with rfl | silent
  · exact .inr ⟨rest, shape.symm⟩
  · obtain ⟨front, back, rfl, rfl, backs⟩ := List.map_eq_append_iff.mp shape
    cases back with
    | nil =>
      rw [List.append_nil]
      exact .inl begins
    | cons frame later => exact absurd backs.symm (silent frame _)

/-- A receiver that got a framed stream and its end got the frames that were sent. -/
theorem received_frames (framed : Framed payload final others contents)
    (carries : Carries (others.map .message : List (Event Frame Failure)) (frames.map .message))
    (complete : Framed payload final frames received) : frames = others := by
  rcases carries_messages carries with short | long
  · exact complete.eq_of_prefix framed ((List.prefix_map_iff_of_injective message_injective).mp short)
  · exact (framed.eq_of_prefix complete ((List.prefix_map_iff_of_injective message_injective).mp long)).symm

theorem received_eq (framed : Framed payload final others contents)
    (carries : Carries (others.map .message : List (Event Frame Failure)) (frames.map .message))
    (complete : Framed payload final frames received) : received = contents := by
  rw [complete.contents_eq, framed.contents_eq, received_frames framed carries complete]

/-- Nobody receives a framed stream when the sender gave up before the mark. -/
theorem not_received (unmarked : ∀ frame ∈ front, final frame = false)
    (carries : Carries (front.map .message ++ [.failed failure]) (frames.map .message)) :
    ¬Framed payload final frames received := by
  intro complete
  have silent : Event.failed failure ∉ (frames.map .message : List (Event Frame Failure)) := by simp
  rcases carries_messages carries with short | long
  · obtain ⟨frame, member, marked⟩ := complete.marked
    have sent := short.subset (List.mem_map_of_mem member)
    have among : frame ∈ front := by simpa using sent
    rw [unmarked frame among] at marked
    cases marked
  · exact silent (long.subset (by simp))

end Transport

section Pieces
variable {Item : Type*} {size : Nat} {items : List Item}

/-- The list cut into pieces of this size, the last one what is left. -/
def pieces (size : Nat) (items : List Item) : List (List Item) :=
  (List.range ((items.length + size - 1) / size)).map fun index => (items.drop (size * index)).take size

theorem range_pieces (size count : Nat) (items : List Item) :
    ((List.range count).map fun index => (items.drop (size * index)).take size).flatten =
      items.take (size * count) := by
  induction count with
  | zero => simp
  | succ count ih =>
    rw [List.range_succ, List.map_append, List.flatten_append, ih, Nat.mul_succ, List.take_add]
    simp

theorem pieces_flatten (positive : 0 < size) : (pieces size items).flatten = items := by
  unfold pieces
  rw [range_pieces]
  apply List.take_of_length_le
  have parts := Nat.div_add_mod (items.length + size - 1) size
  have small := Nat.mod_lt (items.length + size - 1) positive
  omega

theorem pieces_ne_nil (positive : 0 < size) (some : items ≠ []) : pieces size items ≠ [] := by
  intro none
  have whole : (pieces size items).flatten = items := pieces_flatten positive
  rw [none] at whole
  exact some whole.symm

end Pieces

end Pbox.Lib.Framing
