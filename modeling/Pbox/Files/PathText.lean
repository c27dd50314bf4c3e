import Mathlib.Data.List.ReduceOption
import Pbox.Files.Path
import Pbox.Lib.FileTree
import Pbox.Lib.Grammar

/-! Texts of paths: what a text of names between slashes is taken for, and what it is to the system. -/

namespace Pbox.Files
open Pbox.Lib.Strings Pbox.Lib.FileTree

section Parts
variable {names : List Text}

/-- The path that these names make below another. -/
def below (path : Path) (names : List Text) : Path :=
  { path with components := path.components ++ names.map .normal }

/-- A text that is a component of its own in a path. -/
structure IsPart (name : Text) : Prop where
  nonempty : name ≠ []
  noSlash : '/' ∉ name
  notCurrent : name ≠ ".".toList
  notParent : name ≠ "..".toList

theorem isPart_of_isName {name : Text} (valid : IsName (utf8 name)) : IsPart name where
  nonempty := by
    rintro rfl
    exact valid.nonempty rfl
  noSlash := fun member => valid.noSlash (mem_utf8_of_mem rfl member)
  notCurrent := by
    rintro rfl
    exact valid.notCurrent rfl
  notParent := by
    rintro rfl
    exact valid.notParent rfl

theorem component_part {absolute : Bool} {index : Nat} {name : Text} (part : IsPart name) :
    component absolute index name = some (.normal name) := by
  unfold component
  rw [if_neg part.nonempty, if_neg part.notParent, if_neg part.notCurrent]

theorem mapIdx_parts {absolute : Bool} {start : Nat} (parts : ∀ name ∈ names, IsPart name) :
    (names.mapIdx fun index => component absolute (index + start)).reduceOption = names.map .normal := by
  induction names generalizing start with
  | nil => rfl
  | cons name rest ih =>
    have later := @ih (start + 1) fun other member => parts other (List.mem_cons_of_mem _ member)
    rw [List.mapIdx_cons, component_part (parts name List.mem_cons_self), List.reduceOption_cons_of_some,
      List.map_cons, ← later]
    simp only [Nat.add_right_comm, Nat.add_assoc]

theorem splitOn_joined (parts : ∀ name ∈ names, IsPart name) (some_ : names ≠ []) :
    (['/'].intercalate names).splitOn '/' = names :=
  List.splitOn_intercalate '/' (fun name member => (parts name member).noSlash) some_

/-- Behind a separator the parts are those before it and those behind it. -/
theorem parse_joined {front rest : Text} (parts : ∀ name ∈ names, IsPart name) (split : rest.splitOn '/' = names) :
    Path.parse (front ++ '/' :: rest) = below (Path.parse (front ++ ['/'])) names := by
  have absolute : (decide ((front ++ '/' :: rest).head? = some '/')) = decide ((front ++ ['/']).head? = some '/') := by
    cases front <;> rfl
  have closed : (front ++ ['/']).splitOn '/' = front.splitOn '/' ++ [[]] := List.splitOn_append_cons_self front []
  unfold Path.parse below
  simp only [absolute, closed, List.splitOn_append_cons_self, split, List.mapIdx_append, List.reduceOption_append,
    mapIdx_parts parts]
  simp [component]

/-- A trailing separator makes no other path. -/
theorem parse_closed {front : Text} (some_ : front ≠ []) :
    Path.parse (front ++ ['/']) = Path.parse front := by
  have absolute : decide ((front ++ ['/']).head? = some '/') = decide (front.head? = some '/') := by
    cases front with
    | nil => exact absurd rfl some_
    | cons c rest => rfl
  have closed : (front ++ ['/']).splitOn '/' = front.splitOn '/' ++ [[]] := List.splitOn_append_cons_self front []
  unfold Path.parse
  simp only [absolute, closed, List.mapIdx_append, List.reduceOption_append]
  simp [component]

theorem parse_parts {rest : Text} (parts : ∀ name ∈ names, IsPart name) (split : rest.splitOn '/' = names) :
    Path.parse rest = below (Path.parse []) names := by
  have relative : rest.head? ≠ some '/' := by
    intro starts
    obtain ⟨behind, rfl⟩ := List.head?_eq_some_iff.mp starts
    have pieces : ('/' :: behind).splitOn '/' = [[]] ++ behind.splitOn '/' := List.splitOn_append_cons_self [] behind
    have first : [] ∈ names := by
      rw [← split, pieces]
      exact List.mem_append_left _ List.mem_cons_self
    exact (parts [] first).nonempty rfl
  have components := @mapIdx_parts names false 0 parts
  unfold Path.parse below
  simp only [split, relative, decide_false]
  exact congrArg (Path.mk false) components

end Parts

/-! Relative paths: what a text is parsed to, what it is joined from again, and what the system follows
for it. -/

section Relative

def Component.system : Component → Lib.FileTree.Component
  | .normal name => .normal (utf8 name)
  | .parentDir => .parent
  | .curDir => .current

/-- `as_os_str`. -/
def Component.asOsStr : Component → Text
  | .normal name => name
  | .parentDir => "..".toList
  | .curDir => ".".toList

def Path.osStrs (path : Path) : List Text :=
  (if path.absolute then [['/']] else []) ++ path.components.map Component.asOsStr

/-- The component that the system finds in a part between slashes. -/
def systemComponent (part : Text) : Option Lib.FileTree.Component :=
  if part = [] then none
  else if part = "..".toList then some .parent
  else if part = ".".toList then some .current
  else some (.normal (utf8 part))

/-- What the system follows for a text; one that ends in a slash goes into the directory. -/
def systemComponents (text : Text) : List Lib.FileTree.Component :=
  (text.splitOn '/').filterMap systemComponent ++ if (text.splitOn '/').getLast? = some [] then [.current] else []

/-- Names behind at most one current directory: the relative paths that go to no parent. -/
def plain (led : Bool) (names : List Text) : Path where
  absolute := false
  components := (if led then [.curDir] else []) ++ names.map .normal

variable {led : Bool} {names : List Text} {text part : Text}

theorem osStrs_plain : (plain led names).osStrs = (if led then [".".toList] else []) ++ names := by
  have each : Component.asOsStr ∘ Component.normal = id := rfl
  cases led <;> simp [Path.osStrs, plain, Component.asOsStr, each]

theorem component_later {absolute : Bool} (index : Nat) :
    component absolute (index + 1) part = component absolute 1 part := by
  simp [component]

theorem mapIdx_later {absolute : Bool} (parts : List Text) (start : Nat) :
    (parts.mapIdx fun index => component absolute (index + (start + 1))).reduceOption =
      parts.filterMap (component absolute 1) := by
  induction parts generalizing start with
  | nil => rfl
  | cons part rest ih =>
    have later := ih (start + 1)
    rw [List.mapIdx_cons, List.filterMap_cons, Nat.zero_add, component_later, ← later]
    have shift : (fun index => component absolute (index + (start + 1 + 1))) =
        fun index => component absolute (index + 1 + (start + 1)) := by
      funext index
      rw [Nat.add_right_comm index 1, ← Nat.add_assoc]
    rw [shift]
    cases component absolute 1 part with
    | none => exact List.reduceOption_cons_of_none _
    | some found => exact List.reduceOption_cons_of_some _ _

/-- The first part counts as a current directory where it is one, the others do not. -/
theorem parse_split {first : Text} {rest : List Text} (split : text.splitOn '/' = first :: rest)
    (relative : (Path.parse text).absolute = false) :
    (Path.parse text).components = (component false 0 first).toList ++ rest.filterMap (component false 1) := by
  have absolute : decide (text.head? = some '/') = false := relative
  unfold Path.parse
  simp only [absolute, split, List.mapIdx_cons]
  have later := @mapIdx_later false rest 0
  rw [Nat.zero_add] at later
  rw [← later]
  cases component false 0 first with
  | none => exact List.reduceOption_cons_of_none _
  | some found => exact List.reduceOption_cons_of_some _ _

theorem component_normal {index : Nat} {name : Text} (found : component false index part = some (.normal name))
    (noSlash : '/' ∉ part) : IsPart name := by
  unfold component at found
  split at found
  next => cases found
  next nonempty =>
    split at found
    next => cases found
    next notParent =>
      split at found
      next =>
        split at found
        next => cases found
        next => cases found
      next notCurrent =>
        cases found
        exact ⟨nonempty, noSlash, notCurrent, notParent⟩

theorem component_one (found : component false 1 part ≠ some .parentDir) :
    component false 1 part = none ∨ component false 1 part = some (.normal part) := by
  unfold component at *
  split at found
  next empty => exact Or.inl (if_pos empty)
  next nonempty =>
    split at found
    next => exact absurd rfl found
    next notParent =>
      rw [if_neg nonempty, if_neg notParent]
      split
      next => exact Or.inl rfl
      next => exact Or.inr rfl

/-- What follows the first part is names, unless it goes to a parent. -/
theorem later_names (rest : List Text) (noSlash : ∀ part ∈ rest, '/' ∉ part)
    (noParent : Component.parentDir ∉ rest.filterMap (component false 1)) :
    ∃ names : List Text, (∀ name ∈ names, IsPart name) ∧ rest.filterMap (component false 1) = names.map .normal := by
  induction rest with
  | nil => exact ⟨[], by simp, rfl⟩
  | cons part rest ih =>
    have here : component false 1 part ≠ some .parentDir := by
      intro found
      apply noParent
      rw [List.filterMap_cons_some found]
      exact List.mem_cons_self
    rcases component_one here with skipped | found
    · rw [List.filterMap_cons_none skipped] at noParent ⊢
      exact ih (fun other member => noSlash other (List.mem_cons_of_mem _ member)) noParent
    · rw [List.filterMap_cons_some found] at noParent ⊢
      obtain ⟨names, parts, same⟩ := ih (fun other member => noSlash other (List.mem_cons_of_mem _ member))
        fun member => noParent (List.mem_cons_of_mem _ member)
      refine ⟨part :: names, ?_, by rw [same, List.map_cons]⟩
      intro name member
      rcases List.mem_cons.mp member with rfl | member
      · exact component_normal found (noSlash name List.mem_cons_self)
      · exact parts name member

/-- A relative path that goes to no parent is names behind at most one current directory. -/
theorem parse_plain (relative : (Path.parse text).absolute = false)
    (noParent : "..".toList ∉ (Path.parse text).osStrs) :
    ∃ (led : Bool) (names : List Text), (∀ name ∈ names, IsPart name) ∧ Path.parse text = plain led names := by
  obtain ⟨first, rest, split⟩ := List.exists_cons_of_ne_nil (List.splitOn_ne_nil '/' text)
  have components := parse_split split relative
  have noSlash (part : Text) (member : part ∈ first :: rest) : '/' ∉ part := separator_notMem (split ▸ member)
  have stays : Component.parentDir ∉ (Path.parse text).components := by
    intro member
    apply noParent
    exact List.mem_append_right _ (List.mem_map.mpr ⟨_, member, rfl⟩)
  rw [components, List.mem_append, not_or] at stays
  obtain ⟨names, parts, same⟩ := later_names rest (fun part member => noSlash part (List.mem_cons_of_mem _ member)) stays.2
  have path {led : Bool} {names : List Text} (whole : (Path.parse text).components = (plain led names).components) :
      Path.parse text = plain led names := by
    cases parsed : Path.parse text with
    | mk absolute components =>
      rw [parsed] at relative whole
      cases relative
      cases whole
      rfl
  rw [same] at components
  cases found : component false 0 first with
  | none =>
    rw [found] at components
    exact ⟨false, names, parts, path components⟩
  | some component =>
    rw [found] at components stays
    cases component with
    | parentDir => exact absurd (List.mem_singleton_self _) stays.1
    | curDir => exact ⟨true, names, parts, path components⟩
    | normal name =>
      refine ⟨false, name :: names, ?_, path components⟩
      intro other member
      rcases List.mem_cons.mp member with rfl | member
      · exact component_normal found (noSlash first List.mem_cons_self)
      · exact parts other member

/-- For a part the system follows what it stands for in the path, or a current directory. -/
theorem drops_part (index : Nat) {followed shorter : List Lib.FileTree.Component} (later : Drops followed shorter) :
    Drops ((systemComponent part).toList ++ followed)
      ((component false index part).toList.map Component.system ++ shorter) := by
  unfold systemComponent component
  split
  next => exact later
  next =>
    split
    next => exact .keep _ later
    next =>
      split
      next =>
        split
        next => exact .keep _ later
        next => exact .drop later
      next => exact .keep _ later

theorem filterMap_toList {α β : Type} (f : α → Option β) (head : α) (tail : List α) :
    (head :: tail).filterMap f = (f head).toList ++ tail.filterMap f := by
  rw [List.filterMap_cons]
  cases f head <;> rfl

theorem drops_filterMap (rest : List Text) :
    Drops (rest.filterMap systemComponent) ((rest.filterMap (component false 1)).map Component.system) := by
  induction rest with
  | nil => exact .nil
  | cons part rest ih =>
    rw [filterMap_toList, filterMap_toList, List.map_append]
    exact drops_part 1 ih

/-- The system follows the components of the path, and current directories besides. -/
theorem drops_system (relative : (Path.parse text).absolute = false) :
    Drops (systemComponents text) ((Path.parse text).components.map Component.system) := by
  obtain ⟨first, rest, split⟩ := List.exists_cons_of_ne_nil (List.splitOn_ne_nil '/' text)
  have whole : Drops ((text.splitOn '/').filterMap systemComponent)
      ((Path.parse text).components.map Component.system) := by
    rw [parse_split split relative, split, List.map_append, filterMap_toList]
    exact drops_part 0 (drops_filterMap rest)
  unfold systemComponents
  split
  next => exact whole.closed
  next => rwa [List.append_nil]

theorem join_noSlash (parts : ∀ name ∈ names, IsPart name) : ∀ name ∈ (plain led names).osStrs, '/' ∉ name := by
  intro name member
  rw [osStrs_plain, List.mem_append] at member
  rcases member with lead | member
  · cases led with
    | false => cases lead
    | true =>
      rw [List.mem_singleton.mp lead]
      decide
  · exact (parts name member).noSlash

theorem splitOn_plain (parts : ∀ name ∈ names, IsPart name) (nonempty : (plain led names).osStrs ≠ []) :
    (['/'].intercalate (plain led names).osStrs).splitOn '/' = (plain led names).osStrs :=
  List.splitOn_intercalate '/' (join_noSlash parts) nonempty

/-- Joined again, the components of such a path are the path. -/
theorem parse_join (parts : ∀ name ∈ names, IsPart name) (nonempty : (plain led names).osStrs ≠ []) :
    Path.parse (['/'].intercalate (plain led names).osStrs) = plain led names := by
  have split := splitOn_plain parts nonempty
  cases led with
  | false =>
    rw [osStrs_plain] at split ⊢
    exact parse_parts parts split
  | true =>
    rw [osStrs_plain] at split ⊢
    cases names with
    | nil => decide
    | cons name rest =>
      have text : ['/'].intercalate (".".toList :: name :: rest) = ".".toList ++ '/' :: ['/'].intercalate (name :: rest) := by
        rw [Lib.Grammar.intercalate_cons, Lib.Grammar.intercalate_cons]
        simp
      rw [if_pos rfl, List.singleton_append, text, parse_joined parts (splitOn_joined parts (List.cons_ne_nil _ _))]
      rfl

/-- The system follows no more for it than its components. -/
theorem system_join (parts : ∀ name ∈ names, IsPart name) (nonempty : (plain led names).osStrs ≠ []) :
    systemComponents (['/'].intercalate (plain led names).osStrs) =
      (plain led names).components.map Component.system := by
  have each (names : List Text) (parts : ∀ name ∈ names, IsPart name) :
      names.filterMap systemComponent = names.map fun name => .normal (utf8 name) := by
    induction names with
    | nil => rfl
    | cons name rest ih =>
      have part := parts name List.mem_cons_self
      have found : systemComponent name = some (.normal (utf8 name)) := by
        unfold systemComponent
        rw [if_neg part.nonempty, if_neg part.notParent, if_neg part.notCurrent]
      rw [List.filterMap_cons_some found, List.map_cons, ih fun other member => parts other (List.mem_cons_of_mem _ member)]
  have open_ : (plain led names).osStrs.getLast? ≠ some [] := by
    intro last
    have member := List.mem_of_getLast? last
    rw [osStrs_plain, List.mem_append] at member
    rcases member with lead | member
    · cases led with
      | false => cases lead
      | true => simp at lead
    · exact (parts [] member).nonempty rfl
  unfold systemComponents
  rw [splitOn_plain parts nonempty, if_neg open_, List.append_nil, osStrs_plain, List.filterMap_append, each names parts]
  cases led with
  | false => simp [plain, Component.system]
  | true => simp [plain, Component.system, systemComponent]

end Relative

end Pbox.Files
