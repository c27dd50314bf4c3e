import Mathlib.Data.List.Nodup

/-! Descents in a tree given by what each path lists: the paths below one, the tour that lists each
path before what is below it, and the depth within which a tour is complete. -/

namespace Pbox.Lib.Descent

variable {Name : Type} (children : List Name → Option (List Name))

/-- The paths reached by listing; a path that lists nothing has none below it. -/
inductive Below : List Name → List Name → Prop where
  | entry {here : List Name} {names : List Name} {name : Name} (lists : children here = some names)
      (member : name ∈ names) : Below here (here ++ [name])
  | deeper {here place : List Name} {names : List Name} {name : Name} (lists : children here = some names)
      (member : name ∈ names) (below : Below (here ++ [name]) place) : Below here place

/-- Depth first, in the order of the lists. -/
@[grind =] def tour : Nat → List Name → List (List Name)
  | 0, _ => []
  | depth + 1, here =>
    match children here with
    | none => []
    | some names => names.flatMap fun name => (here ++ [name]) :: tour depth (here ++ [name])

def Within : Nat → List Name → Prop
  | 0, here => children here = none
  | depth + 1, here => ∀ names, children here = some names → ∀ name ∈ names, Within depth (here ++ [name])

variable {children} {here place : List Name} {depth : Nat}

theorem Below.longer (below : Below children here place) : ∃ name, here ++ [name] <+: place := by
  induction below with
  | entry lists member => exact ⟨_, List.prefix_rfl⟩
  | deeper lists member below ih =>
    obtain ⟨next, longer⟩ := ih
    exact ⟨_, (List.prefix_append _ _).trans longer⟩

theorem Below.snoc {names : List Name} {name : Name} (below : Below children here place)
    (lists : children place = some names) (member : name ∈ names) : Below children here (place ++ [name]) := by
  induction below with
  | entry above among => exact .deeper above among (.entry lists member)
  | deeper above among _ ih => exact .deeper above among (ih lists)

/-- What is between a path and one below it lists something. -/
theorem Below.between {above : List Name} (below : Below children here place) (inside : here <+: above)
    (prior : above <+: place) (apart : above ≠ place) : children above ≠ none := by
  induction below with
  | entry lists member =>
    rcases List.prefix_concat_iff.mp prior with same | prior
    · exact absurd same apart
    · rw [prior.eq_of_length (Nat.le_antisymm prior.length_le inside.length_le), lists]
      simp
  | @deeper here place names name lists member below ih =>
    by_cases same : above = here
    · rw [same, lists]
      simp
    · have longer : here.length < above.length :=
        Nat.lt_of_le_of_ne inside.length_le fun length => same (inside.eq_of_length length).symm
      obtain ⟨next, reaches⟩ := below.longer
      have inner : here ++ [name] <+: place := (List.prefix_append _ _).trans reaches
      apply ih _ prior apart
      apply List.prefix_of_prefix_length_le inner prior
      rw [List.length_append, List.length_singleton]
      omega

/-- What holds of every listed name holds of the names of a path below. -/
theorem Below.names {P : Name → Prop} (below : Below children here place)
    (listed : ∀ here names, children here = some names → ∀ name ∈ names, P name) (front : ∀ name ∈ here, P name) :
    ∀ name ∈ place, P name := by
  induction below with
  | @entry here names name lists member =>
    intro other among
    rcases List.mem_append.mp among with among | among
    · exact front other among
    · rw [List.mem_singleton.mp among]
      exact listed here names lists name member
  | @deeper here place names name lists member below ih =>
    apply ih
    intro other among
    rcases List.mem_append.mp among with among | among
    · exact front other among
    · rw [List.mem_singleton.mp among]
      exact listed here names lists name member

theorem below_iff {names : List Name} (lists : children here = some names) :
    Below children here place ↔
      ∃ name ∈ names, place = here ++ [name] ∨ Below children (here ++ [name]) place := by
  constructor
  · intro below
    cases below with
    | entry lists' member =>
      rw [lists] at lists'
      cases lists'
      exact ⟨_, member, Or.inl rfl⟩
    | deeper lists' member below =>
      rw [lists] at lists'
      cases lists'
      exact ⟨_, member, Or.inr below⟩
  · rintro ⟨name, member, rfl | below⟩
    · exact .entry lists member
    · exact .deeper lists member below

theorem not_below (barren : children here = none) : ¬Below children here place := by
  intro below
  cases below with
  | entry lists member => rw [barren] at lists; cases lists
  | deeper lists member below => rw [barren] at lists; cases lists

theorem within_barren (barren : children here = none) : Within children depth here := by
  cases depth with
  | zero => exact barren
  | succ depth =>
    intro names lists
    rw [barren] at lists
    cases lists

theorem tour_barren (barren : children here = none) : tour children depth here = [] := by
  cases depth with
  | zero => rfl
  | succ depth => simp only [tour, barren]

theorem tour_listed {names : List Name} (lists : children here = some names) :
    tour children (depth + 1) here =
      names.flatMap fun name => (here ++ [name]) :: tour children depth (here ++ [name]) := by
  simp only [tour, lists]

theorem mem_tour (within : Within children depth here) :
    place ∈ tour children depth here ↔ Below children here place := by
  induction depth generalizing here with
  | zero => simp [tour, not_below within]
  | succ depth ih =>
    cases lists : children here with
    | none => simp [tour_barren lists, not_below lists]
    | some names =>
      rw [tour_listed lists, below_iff lists, List.mem_flatMap]
      apply exists_congr
      intro name
      apply and_congr_right
      intro member
      rw [List.mem_cons, ih (within names lists name member)]

theorem below_of_mem_tour (member : place ∈ tour children depth here) : Below children here place := by
  induction depth generalizing here with
  | zero => cases member
  | succ depth ih =>
    cases lists : children here with
    | none =>
      rw [tour_barren lists] at member
      cases member
    | some names =>
      rw [tour_listed lists, List.mem_flatMap] at member
      obtain ⟨name, among, member⟩ := member
      refine (below_iff lists).mpr ⟨name, among, ?_⟩
      rcases List.mem_cons.mp member with same | deeper
      · exact Or.inl same
      · exact Or.inr (ih deeper)

/-- What the tour lists under one name starts with that name. -/
theorem prefix_of_mem {name : Name}
    (member : place ∈ (here ++ [name]) :: tour children depth (here ++ [name])) : here ++ [name] <+: place := by
  rcases List.mem_cons.mp member with rfl | member
  · exact List.prefix_rfl
  · obtain ⟨next, longer⟩ := (below_of_mem_tour member).longer
    exact (List.prefix_append _ _).trans longer

theorem names_eq {first second : Name} (left : here ++ [first] <+: place) (right : here ++ [second] <+: place) :
    first = second := by
  have same : here ++ [first] = here ++ [second] :=
    (List.prefix_of_prefix_length_le left right (by simp)).eq_of_length (by simp)
  simpa using same

/-- Where no list repeats a name, the tour repeats no path. -/
theorem nodup_tour (distinct : ∀ here names, children here = some names → names.Nodup) (here : List Name) :
    (tour children depth here).Nodup := by
  induction depth generalizing here with
  | zero => exact List.nodup_nil
  | succ depth ih =>
    cases lists : children here with
    | none =>
      rw [tour_barren lists]
      exact List.nodup_nil
    | some names =>
      rw [tour_listed lists, List.nodup_flatMap]
      constructor
      · intro name _
        refine List.nodup_cons.mpr ⟨?_, ih _⟩
        intro member
        obtain ⟨next, longer⟩ := (below_of_mem_tour member).longer
        have length := longer.length_le
        simp only [List.length_append, List.length_cons, List.length_nil] at length
        omega
      · refine (distinct here names lists).imp ?_
        intro first second different place left right
        exact different (names_eq (prefix_of_mem left) (prefix_of_mem right))

end Pbox.Lib.Descent
