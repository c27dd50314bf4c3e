import Pbox.Cli.RecipeTree
import Pbox.Lib.Checks

/-! What a catalog holds: ids that ascend, and paths that stay below the root, lead through no link and
pass the checks of an application, exactly if the names are texts and no task of a role is a link. -/

namespace Pbox.Cli.RecipeTree
open Pbox.Lib.Strings Pbox.Lib.FileTree Pbox.Lib.Utf8 Pbox.Lib.Descent Pbox.Lib.Checks
open Pbox.Cli.RecipeSource (joinPath)
open Pbox.Files (Path systemComponents IsPart isPart_of_isName plain osStrs_plain parse_plain drops_system parse_join
  system_join)

variable (checkout : Checkout) (base : Place)

def GIT : Name := utf8 ".git".toList

def Checkout.at (place : Place) : Option (Object (List UInt8)) := checkout.volume.lookup (base ++ place)

/-- What the walk goes on to below a directory. -/
def Checkout.children (place : Place) : Option (List Name) :=
  if checkout.at base place = some .directory ∧ place.getLast? ≠ some GIT then
    some ((checkout.volume.listing (base ++ place)).insertionSort (· ≤ ·))
  else none

/-- What the walk finds at a path. -/
def Checkout.found (place : Place) : Option Candidate :=
  match checkout.at base place with
  | some (.file _) =>
    if place.getLast? = some GIT then none
    else
      match candidateAt place with
      | .ok candidate => candidate
      | .error _ => none
  | _ => none

/-- The root is a directory. -/
structure Checkout.Rooted : Prop where
  resolved : checkout.volume.resolve checkout.links [] checkout.root = .ok base
  directory : checkout.volume.lookup base = some .directory

variable {checkout base} {place : Place} {candidates out : List Candidate} {fuel : Nat}

/-! The walk: it finds what is below the root, in order, and comes to an end. -/

section Walk

theorem rooted_of_isDir (isDir : checkout.isDir = true) : ∃ base, checkout.Rooted base := by
  unfold Checkout.isDir Checkout.stat Volume.stat at isDir
  cases resolved : checkout.volume.resolve checkout.links [] checkout.root with
  | error fault => simp [resolved] at isDir
  | ok base =>
    refine ⟨base, resolved, ?_⟩
    cases found : checkout.volume.lookup base with
    | none => simp [resolved, found] at isDir
    | some object =>
      cases object with
      | directory => rfl
      | file _ | link _ | special => simp [resolved, found] at isDir

theorem at_directory {name : Name} {object : Object (List UInt8)} (found : checkout.at base (place ++ [name]) = some object) :
    checkout.at base place = some .directory := by
  unfold Checkout.at at found ⊢
  rw [← List.append_assoc] at found
  apply lookup_above
  rw [found]
  rfl

theorem lstat_join (rooted : checkout.Rooted base) {name : Name} {object : Object (List UInt8)}
    (found : checkout.at base (place ++ [name]) = some object) :
    checkout.lstat (checkout.join (place ++ [name])) = .ok object := lstat_names rooted.resolved found

theorem readDir_join (rooted : checkout.Rooted base) (directory : checkout.at base place = some .directory) :
    checkout.volume.readDir checkout.links [] (checkout.join place) = .ok (checkout.volume.listing (base ++ place)) := by
  have resolved := resolve_names rooted.resolved directory (by simp)
  unfold Volume.readDir Checkout.join
  unfold Checkout.at at directory
  simp only [resolved, directory]

theorem children_none (directory : checkout.at base place ≠ some .directory) : checkout.children base place = none :=
  if_neg fun both => directory both.1

theorem children_git (last : place.getLast? = some GIT) : checkout.children base place = none :=
  if_neg fun both => both.2 last

theorem found_none (file : ∀ bytes, checkout.at base place ≠ some (.file bytes)) : checkout.found base place = none := by
  unfold Checkout.found
  split
  next bytes found => exact absurd found (file bytes)
  next => rfl

/-- What one entry adds to the candidates: what the walk finds there and below. -/
theorem visit_ok (rooted : checkout.Rooted base) {name : Name}
    {descend : Place → List Candidate → Except Stop (List Candidate)}
    (present : (checkout.at base (place ++ [name])).isSome)
    (descends : checkout.at base (place ++ [name]) = some .directory → name ≠ GIT →
      descend (place ++ [name]) candidates = .ok out →
      Within (checkout.children base) fuel (place ++ [name]) ∧
        out = candidates ++ (tour (checkout.children base) fuel (place ++ [name])).filterMap (checkout.found base))
    (ok : checkout.visit descend (place ++ [name]) candidates = .ok out) :
    Within (checkout.children base) fuel (place ++ [name]) ∧
      out = candidates ++ ((place ++ [name]) :: tour (checkout.children base) fuel (place ++ [name])).filterMap
        (checkout.found base) := by
  obtain ⟨object, here⟩ := Option.isSome_iff_exists.mp present
  have barren (outer : checkout.children base (place ++ [name]) = none)
      (same : out = candidates ++ (checkout.found base (place ++ [name])).toList) :
      Within (checkout.children base) fuel (place ++ [name]) ∧
        out = candidates ++ ((place ++ [name]) :: tour (checkout.children base) fuel (place ++ [name])).filterMap
          (checkout.found base) := by
    refine ⟨within_barren outer, ?_⟩
    rw [tour_barren outer, same, Files.filterMap_toList, List.filterMap_nil, List.append_nil]
  unfold Checkout.visit at ok
  rw [lstat_join rooted here] at ok
  by_cases git : (place ++ [name]).getLast? = some (utf8 ".git".toList)
  · apply barren (children_git git)
    have nothing : checkout.found base (place ++ [name]) = none := by
      unfold Checkout.found
      split
      next => exact if_pos git
      next => rfl
    rw [nothing, Option.toList_none, List.append_nil]
    cases object <;> simp only [if_pos git] at ok <;> cases ok <;> rfl
  · have other : name ≠ GIT := by
      rintro rfl
      exact git (List.getLast?_concat)
    simp only [if_neg git] at ok
    cases object with
    | directory =>
      obtain ⟨within, same⟩ := descends here other ok
      refine ⟨within, ?_⟩
      have nothing : checkout.found base (place ++ [name]) = none := found_none (by simp [here])
      rw [Files.filterMap_toList, nothing]
      exact same
    | link target =>
      cases ok
      apply barren (children_none (by simp [here]))
      rw [found_none (by simp [here]), Option.toList_none, List.append_nil]
    | special =>
      cases ok
      apply barren (children_none (by simp [here]))
      rw [found_none (by simp [here]), Option.toList_none, List.append_nil]
    | file bytes =>
      apply barren (children_none (by simp [here]))
      have finds : checkout.found base (place ++ [name]) = match candidateAt (place ++ [name]) with
          | .ok candidate => candidate
          | .error _ => none := by
        unfold Checkout.found
        rw [here]
        exact if_neg git
      rw [finds]
      dsimp only at ok
      split at ok
      next => cases ok
      next none_ =>
        cases ok
        rw [none_]
        simp
      next candidate one =>
        cases ok
        rw [one]
        rfl

theorem listed_present {name : Name}
    (member : name ∈ (checkout.volume.listing (base ++ place)).insertionSort (· ≤ ·)) :
    (checkout.at base (place ++ [name])).isSome := by
  unfold Checkout.at
  rw [← List.append_assoc]
  exact mem_listing.mp ((List.mem_insertionSort _).mp member)

theorem collect_entries (rooted : checkout.Rooted base) {names : List Name}
    {descend : Place → List Candidate → Except Stop (List Candidate)}
    (present : ∀ name ∈ names, (checkout.at base (place ++ [name])).isSome)
    (descends : ∀ name candidates out, checkout.at base (place ++ [name]) = some .directory → name ≠ GIT →
      descend (place ++ [name]) candidates = .ok out →
      Within (checkout.children base) fuel (place ++ [name]) ∧
        out = candidates ++ (tour (checkout.children base) fuel (place ++ [name])).filterMap (checkout.found base))
    (ok : names.foldlM (fun candidates name => checkout.visit descend (place ++ [name]) candidates) candidates = .ok out) :
    (∀ name ∈ names, Within (checkout.children base) fuel (place ++ [name])) ∧
      out = candidates ++ (names.flatMap fun name =>
        (place ++ [name]) :: tour (checkout.children base) fuel (place ++ [name])).filterMap (checkout.found base) := by
  induction names generalizing candidates with
  | nil =>
    cases ok
    exact ⟨by simp, by simp⟩
  | cons name rest ih =>
    rw [List.foldlM_cons] at ok
    obtain ⟨middle, first, ok⟩ := bind_ok ok
    obtain ⟨within, same⟩ := visit_ok rooted (present name List.mem_cons_self) (descends name candidates middle) first
    obtain ⟨later, whole⟩ := ih (fun other member => present other (List.mem_cons_of_mem _ member)) ok
    constructor
    · intro other member
      rcases List.mem_cons.mp member with rfl | member
      · exact within
      · exact later other member
    · rw [whole, same, List.flatMap_cons, List.filterMap_append, List.append_assoc]

/-- Where the walk succeeds, the candidates are what the tour of the directory finds. -/
theorem collectCandidates_ok (rooted : checkout.Rooted base) (directory : checkout.at base place = some .directory)
    (other : place.getLast? ≠ some GIT) (ok : checkout.collectCandidates fuel place candidates = .ok out) :
    Within (checkout.children base) fuel place ∧
      out = candidates ++ (tour (checkout.children base) fuel place).filterMap (checkout.found base) := by
  induction fuel generalizing place candidates out with
  | zero => cases ok
  | succ fuel ih =>
    have lists : checkout.children base place =
        some ((checkout.volume.listing (base ++ place)).insertionSort (· ≤ ·)) := if_pos ⟨directory, other⟩
    unfold Checkout.collectCandidates at ok
    rw [readDir_join rooted directory] at ok
    have descends (name : Name) (candidates out : List Candidate)
        (inner : checkout.at base (place ++ [name]) = some .directory) (apart : name ≠ GIT)
        (ok : checkout.collectCandidates fuel (place ++ [name]) candidates = .ok out) :=
      ih inner (by simpa using apart) ok
    obtain ⟨within, same⟩ := collect_entries rooted (fun name member => listed_present member) descends ok
    constructor
    · intro names listed name member
      rw [lists] at listed
      cases listed
      exact within name member
    · rw [tour_listed lists, same]

/-- A visit runs out of fuel only below. -/
theorem visit_ends (rooted : checkout.Rooted base) {name : Name}
    {descend : Place → List Candidate → Except Stop (List Candidate)}
    (present : (checkout.at base (place ++ [name])).isSome)
    (ends : checkout.at base (place ++ [name]) = some .directory → descend (place ++ [name]) candidates ≠ .error .outOfFuel) :
    checkout.visit descend (place ++ [name]) candidates ≠ .error .outOfFuel := by
  obtain ⟨object, here⟩ := Option.isSome_iff_exists.mp present
  unfold Checkout.visit
  rw [lstat_join rooted here]
  cases object with
  | link target => simp
  | directory =>
    dsimp only
    split
    next => simp
    next => exact ends here
  | file bytes =>
    dsimp only
    split
    next => simp
    next => split <;> simp
  | special =>
    dsimp only
    split <;> simp

theorem entries_end (rooted : checkout.Rooted base) {names : List Name}
    {descend : Place → List Candidate → Except Stop (List Candidate)}
    (present : ∀ name ∈ names, (checkout.at base (place ++ [name])).isSome)
    (ends : ∀ name candidates, checkout.at base (place ++ [name]) = some .directory →
      descend (place ++ [name]) candidates ≠ .error .outOfFuel) :
    names.foldlM (fun candidates name => checkout.visit descend (place ++ [name]) candidates) candidates ≠
      .error .outOfFuel := by
  induction names generalizing candidates with
  | nil => simp [pure, Except.pure]
  | cons name rest ih =>
    rw [List.foldlM_cons]
    cases first : checkout.visit descend (place ++ [name]) candidates with
    | ok middle => exact ih fun other member => present other (List.mem_cons_of_mem _ member)
    | error stop =>
      intro stopped
      have same : stop = .outOfFuel := by
        cases stopped
        rfl
      exact visit_ends rooted (present name List.mem_cons_self) (ends name candidates) (same ▸ first)

/-- The walk comes to an end: it goes no deeper than there are entries. -/
theorem collectCandidates_ends (rooted : checkout.Rooted base) (directory : checkout.at base place = some .directory)
    (enough : checkout.volume.entries.length < fuel + (base ++ place).length) :
    checkout.collectCandidates fuel place candidates ≠ .error .outOfFuel := by
  induction fuel generalizing place candidates with
  | zero =>
    have isSome : (checkout.volume.lookup (base ++ place)).isSome := by
      rw [show checkout.volume.lookup (base ++ place) = some .directory from directory]
      rfl
    have length := length_le_entries isSome
    omega
  | succ fuel ih =>
    unfold Checkout.collectCandidates
    rw [readDir_join rooted directory]
    apply entries_end rooted fun name member => listed_present member
    intro name candidates deeper
    apply ih deeper
    simp only [List.length_append, List.length_cons, List.length_nil] at enough ⊢
    omega

end Walk

/-! The checks of a path: what each of them says where it passes, and when it does. -/

section Checks
variable {led : Bool} {names : List Text} {walked : List Files.Component} {here : Place}

/-- The path so far leads to a place. -/
def Checkout.Walked (checkout : Checkout) (walked : List Files.Component) (here : Place) : Prop :=
  checkout.volume.resolve checkout.links [] (checkout.root ++ walked.map Files.Component.system) = .ok here

theorem walked_lead (rooted : checkout.Rooted base) (led : Bool) : checkout.Walked (if led then [.curDir] else []) base := by
  unfold Checkout.Walked
  cases led with
  | false => simpa using rooted.resolved
  | true =>
    refine resolve_enter rooted.resolved ?_ (by simp [rooted.directory])
    simp only [Volume.enter, Files.Component.system, rooted.directory]

theorem walked_normal (walks : checkout.Walked walked here) {name : Text} {object : Object (List UInt8)}
    (found : checkout.volume.lookup (here ++ [utf8 name]) = some object) (noLink : ∀ target, object ≠ .link target) :
    checkout.Walked (walked ++ [.normal name]) (here ++ [utf8 name]) := by
  have isSome : (checkout.volume.lookup (here ++ [utf8 name])).isSome := by
    rw [found]
    rfl
  unfold Checkout.Walked at walks ⊢
  rw [List.map_append, ← List.append_assoc]
  apply resolve_enter walks (enter_normal (lookup_above isSome) isSome)
  intro target link
  rw [found] at link
  exact noLink target (Option.some.inj link)

theorem walked_names (walks : checkout.Walked walked here) {object : Object (List UInt8)}
    (found : checkout.volume.lookup (here ++ names.map utf8) = some object) (noLink : ∀ target, object ≠ .link target) :
    checkout.Walked (walked ++ names.map .normal) (here ++ names.map utf8) := by
  have names_ : (names.map Files.Component.normal).map Files.Component.system = (names.map utf8).map .normal := by
    rw [List.map_map, List.map_map]
    rfl
  unfold Checkout.Walked at walks ⊢
  rw [List.map_append, ← List.append_assoc, names_]
  exact resolve_names walks found noLink

theorem lstat_normal (walks : checkout.Walked walked here) {name : Text} {object : Object (List UInt8)}
    (found : checkout.volume.lookup (here ++ [utf8 name]) = some object) :
    checkout.lstat (checkout.root ++ (walked ++ [Files.Component.normal name]).map Files.Component.system) = .ok object := by
  have isSome : (checkout.volume.lookup (here ++ [utf8 name])).isSome := by
    rw [found]
    rfl
  rw [List.map_append, ← List.append_assoc]
  exact lstat_snoc walks (enter_normal (lookup_above isSome) isSome) found

theorem lstat_absent (walks : checkout.Walked walked here) (directory : checkout.volume.lookup here = some .directory)
    {name : Text} (absent : checkout.volume.lookup (here ++ [utf8 name]) = none) :
    checkout.lstat (checkout.root ++ (walked ++ [Files.Component.normal name]).map Files.Component.system) = .error .notFound := by
  unfold Checkout.Walked at walks
  have enter : checkout.volume.enter here (.normal (utf8 name)) = .error .notFound := by
    simp [Volume.enter, directory, absent]
  rw [List.map_append, ← List.append_assoc]
  simp only [Checkout.lstat, Volume.lstat, List.map_cons, List.map_nil, List.getLast?_concat, List.dropLast_concat,
    walks, Files.Component.system, enter]

/-- One component that is there: the check goes on behind it, unless it is a link. -/
theorem rejectFrom_present (walks : checkout.Walked walked here) {name : Text} {rest : List Files.Component}
    {object : Object (List UInt8)} (found : checkout.volume.lookup (here ++ [utf8 name]) = some object)
    (noLink : ∀ target, object ≠ .link target) :
    checkout.rejectFrom walked (.normal name :: rest) = checkout.rejectFrom (walked ++ [.normal name]) rest := by
  rw [Checkout.rejectFrom, lstat_normal walks found]
  cases object with
  | link target => exact absurd rfl (noLink target)
  | directory | file _ | special => rfl

theorem rejectFrom_link (walks : checkout.Walked walked here) {name : Text} {rest : List Files.Component}
    {target : Target} (found : checkout.volume.lookup (here ++ [utf8 name]) = some (.link target)) :
    checkout.rejectFrom walked (.normal name :: rest) ≠ .ok () := by
  rw [Checkout.rejectFrom, lstat_normal walks found]
  simp

/-- The check of a path starts behind its current directory. -/
theorem reject_lead (rooted : checkout.Rooted base) :
    checkout.rejectSymlinkAncestors (plain led names) =
      checkout.rejectFrom (if led then [.curDir] else []) (names.map .normal) := by
  cases led with
  | false => rfl
  | true =>
    have current : checkout.lstat (checkout.root ++ [.current]) = .ok .directory := by
      refine lstat_snoc rooted.resolved ?_ rooted.directory
      simp only [Volume.enter, rooted.directory]
    show checkout.rejectFrom [] (.curDir :: names.map .normal) = _
    rw [Checkout.rejectFrom]
    simp only [List.nil_append, List.map_cons, List.map_nil, Files.Component.system, current]
    rfl

/-- Where the check passes and the path leads somewhere, it leads through its names. -/
theorem rejectFrom_walks (walks : checkout.Walked walked here) {reached : Place}
    (whole : checkout.Walked (walked ++ names.map .normal) reached)
    (ok : checkout.rejectFrom walked (names.map .normal) = .ok ()) : reached = here ++ names.map utf8 := by
  induction names generalizing walked here with
  | nil =>
    unfold Checkout.Walked at walks whole
    rw [List.map_nil, List.append_nil, walks] at whole
    cases whole
    simp
  | cons name rest ih =>
    have front := whole
    unfold Checkout.Walked at front
    obtain ⟨left, same⟩ := resolve_append walks ((Files.Component.normal name :: rest.map .normal).map Files.Component.system)
    rw [List.map_cons, List.map_append, ← List.append_assoc, same, List.map_cons] at front
    cases entered : checkout.volume.enter here (.normal (utf8 name)) with
    | error fault =>
      rw [Files.Component.system, resolve_cons_error entered] at front
      cases front
    | ok next =>
      obtain ⟨_, rfl, isSome⟩ := enter_normal_eq entered
      obtain ⟨object, found⟩ := Option.isSome_iff_exists.mp isSome
      have noLink (target : Target) : object ≠ .link target := by
        rintro rfl
        exact rejectFrom_link walks found ok
      rw [List.map_cons, rejectFrom_present walks found noLink] at ok
      have further := walked_normal walks found noLink
      rw [List.map_cons, List.append_cons] at whole
      rw [ih further whole ok, List.append_assoc]
      rfl

/-- In a directory the check passes exactly if the last component is no link. -/
theorem rejectFrom_last (walks : checkout.Walked walked here) {name : Text}
    (directory : checkout.volume.lookup (here ++ names.map utf8) = some .directory) :
    checkout.rejectFrom walked ((names ++ [name]).map .normal) = .ok () ↔
      ∀ target, checkout.volume.lookup (here ++ (names ++ [name]).map utf8) ≠ some (.link target) := by
  induction names generalizing walked here with
  | nil =>
    have inside : checkout.volume.lookup here = some .directory := by simpa using directory
    simp only [List.nil_append, List.map_cons, List.map_nil]
    cases found : checkout.volume.lookup (here ++ [utf8 name]) with
    | none =>
      rw [Checkout.rejectFrom, lstat_absent walks inside found]
      simp
    | some object =>
      by_cases link : ∃ target, object = .link target
      · obtain ⟨target, rfl⟩ := link
        exact iff_of_false (rejectFrom_link walks found) fun none_ => none_ target rfl
      · have noLink := not_exists.mp link
        rw [rejectFrom_present walks found noLink]
        exact iff_of_true rfl fun target same => noLink target (Option.some.inj same)
  | cons first rest ih =>
    have inner : checkout.volume.lookup (here ++ [utf8 first]) = some .directory := by
      rw [List.map_cons, List.append_cons] at directory
      cases rest with
      | nil => simpa using directory
      | cons second rest =>
        refine @lookup_inner _ _ _ ((second :: rest).map utf8) ?_ (by simp)
        rw [directory]
        rfl
    rw [List.cons_append, List.map_cons, rejectFrom_present walks inner (by simp), List.map_cons,
      List.append_cons here]
    rw [List.map_cons, List.append_cons] at directory
    exact ih (walked_normal walks inner (by simp)) directory

/-- A check for confinement passes where the path leads below the root. -/
theorem confine_ok (rooted : checkout.Rooted base) {absolute escapes resolving path relative : Text}
    (ok : checkout.confine absolute escapes resolving path relative = .ok ()) :
    (Path.parse relative).absolute = false ∧
      ∃ reached, checkout.volume.resolve checkout.links [] (checkout.root ++ systemComponents relative) = .ok reached := by
  unfold Checkout.confine at ok
  split at ok
  next => cases ok
  next relative_ =>
    cases canonical : checkout.canonicalize relative with
    | error cause => simp [rooted.resolved, canonical] at ok
    | ok reached =>
      unfold Checkout.canonicalize at canonical
      split at canonical
      next => cases canonical
      next => exact ⟨by simpa using relative_, reached, mapError_ok canonical⟩

end Checks

/-! Roles: their tasks, and the directory that an application takes them from. -/

section Roles
variable {led : Bool} {names : List Text} {path role main : Text}

def taskNames (role main : Text) : List Text := ["roles".toList, role, "tasks".toList, main]

def IsMain (main : Text) : Prop := main = MAIN_YML ∨ main = MAIN_YAML

variable (checkout base) in
/-- A main task of the role is a regular file. -/
def Checkout.HasTask (role : Text) : Prop :=
  ∃ main, IsMain main ∧ ∃ bytes, checkout.at base ((taskNames role main).map utf8) = some (.file bytes)

variable (checkout base) in
/-- No main task of the role is a link. -/
def Checkout.NoTaskLink (role : Text) : Prop :=
  ∀ main, IsMain main → ∀ target, checkout.at base ((taskNames role main).map utf8) ≠ some (.link target)

theorem isPart_main (is : IsMain main) : IsPart main := by
  rcases is with rfl | rfl
  · exact ⟨by decide, by decide, by decide, by decide⟩
  · exact ⟨by decide, by decide, by decide, by decide⟩

theorem isPart_tasks : IsPart "tasks".toList := ⟨by decide, by decide, by decide, by decide⟩

/-- Names that are looked up are components of their own. -/
theorem parts_of_at {object : Object (List UInt8)} (found : checkout.at base (names.map utf8) = some object) :
    ∀ name ∈ names, IsName (utf8 name) := by
  intro name member
  unfold Checkout.at at found
  have isSome : (checkout.volume.lookup (base ++ names.map utf8)).isSome := by
    rw [found]
    rfl
  exact isName_of_lookup isSome _ (List.mem_map.mpr ⟨name, member, rfl⟩)

/-- A path that is looked up without a link is accepted. -/
theorem confine_plain (rooted : checkout.Rooted base) {absolute escapes resolving shown : Text}
    {object : Object (List UInt8)} (some_ : names ≠ []) (found : checkout.at base (names.map utf8) = some object)
    (noLink : ∀ target, object ≠ .link target) :
    checkout.confine absolute escapes resolving shown (pathString (plain led names).osStrs) = .ok () := by
  have valid := parts_of_at found
  have parts (name : Text) (member : name ∈ names) : IsPart name := isPart_of_isName (valid name member)
  have nonempty : (plain led names).osStrs ≠ [] := by
    rw [osStrs_plain]
    simp [some_]
  have noNul : Char.ofNat 0 ∉ pathString (plain led names).osStrs := by
    intro member
    rcases @mem_splitOn '/' _ _ member with slash | ⟨part, listed, inside⟩
    · simp at slash
    · unfold pathString at listed
      rw [Files.splitOn_plain parts nonempty, osStrs_plain, List.mem_append] at listed
      rcases listed with lead | listed
      · cases led with
        | false => cases lead
        | true =>
          rw [List.mem_singleton.mp lead] at inside
          simp at inside
      · exact (valid part listed).noNul (mem_utf8_of_mem rfl inside)
  have walks := walked_names (walked_lead rooted led) found noLink
  have resolved : checkout.volume.resolve checkout.links []
      (checkout.root ++ systemComponents (pathString (plain led names).osStrs)) = .ok (base ++ names.map utf8) := by
    unfold pathString
    rw [system_join parts nonempty]
    exact walks
  have relative : (Path.parse (pathString (plain led names).osStrs)).absolute = false := by
    unfold pathString
    rw [parse_join parts nonempty]
    rfl
  unfold Checkout.confine Checkout.canonicalize
  simp [relative, rooted.resolved, noNul, resolved, Except.mapError]

theorem joinPath_open {directory name : Text} (some_ : directory ≠ []) (open_ : directory.getLast? ≠ some '/') :
    joinPath directory name = directory ++ '/' :: name := by
  unfold joinPath
  simp [some_, open_]

theorem joinPath_tasks (front name : Text) :
    joinPath (front ++ '/' :: "tasks".toList) name = front ++ '/' :: ("tasks".toList ++ '/' :: name) := by
  rw [joinPath_open (List.append_ne_nil_of_right_ne_nil _ (List.cons_ne_nil _ _)) (by simp), List.append_assoc,
    List.cons_append]

theorem parse_task (some_ : path ≠ []) (is : IsMain main) :
    Path.parse (joinPath (joinPath path "tasks".toList) main) = Files.below (Path.parse path) ["tasks".toList, main] := by
  have parts : ∀ name ∈ ["tasks".toList, main], IsPart name := by
    intro name member
    rcases List.mem_cons.mp member with rfl | member
    · exact isPart_tasks
    · rw [List.mem_singleton.mp member]
      exact isPart_main is
  have joined : ['/'].intercalate ["tasks".toList, main] = "tasks".toList ++ '/' :: main := by
    simp [List.intercalate, List.intersperse]
  have split : ("tasks".toList ++ '/' :: main).splitOn '/' = ["tasks".toList, main] := by
    rw [← joined]
    exact Files.splitOn_joined parts (List.cons_ne_nil _ _)
  by_cases closed : path.getLast? = some '/'
  · obtain ⟨front, rfl⟩ := List.getLast?_eq_some_iff.mp closed
    have inner : joinPath (front ++ ['/']) "tasks".toList = front ++ '/' :: "tasks".toList := by
      unfold joinPath
      simp
    rw [inner, joinPath_tasks, Files.parse_joined parts split]
  · rw [joinPath_open some_ closed, joinPath_tasks, Files.parse_joined parts split, Files.parse_closed some_]

theorem joinPath_task (part : IsPart role) :
    joinPath (joinPath ("roles/".toList ++ role) "tasks".toList) main = pathString (taskNames role main) := by
  have open_ : ("roles/".toList ++ role).getLast? ≠ some '/' := by
    rw [List.getLast?_append_of_ne_nil _ part.nonempty]
    exact fun last => part.noSlash (List.mem_of_getLast? last)
  have nonempty : "roles/".toList ++ role ≠ [] := List.append_ne_nil_of_right_ne_nil _ part.nonempty
  have roles : "roles/".toList = "roles".toList ++ ['/'] := by decide
  rw [joinPath_open nonempty open_, joinPath_tasks]
  unfold pathString taskNames
  rw [Lib.Grammar.intercalate_cons, roles]
  simp only [List.map_cons, List.map_nil, List.flatten_cons, List.flatten_nil, List.append_nil, List.append_assoc,
    List.cons_append, List.nil_append]

theorem parts_task (part : IsPart role) (is : IsMain main) : ∀ name ∈ taskNames role main, IsPart name := by
  intro name member
  simp only [taskNames, List.mem_cons, List.not_mem_nil, or_false] at member
  rcases member with rfl | rfl | rfl | rfl
  · exact ⟨by decide, by decide, by decide, by decide⟩
  · exact part
  · exact isPart_tasks
  · exact isPart_main is

variable (checkout base) in
/-- The tasks of the role are in a directory that is reached through no link. -/
def Checkout.HasTasks (role : Text) : Prop :=
  checkout.at base (["roles".toList, role, "tasks".toList].map utf8) = some .directory

theorem hasTasks_of_at {object : Object (List UInt8)}
    (found : checkout.at base ((taskNames role main).map utf8) = some object) : checkout.HasTasks base role :=
  @at_directory _ _ (["roles".toList, role, "tasks".toList].map utf8) (utf8 main) _ found

theorem role_of_at {object : Object (List UInt8)} (found : checkout.at base ((taskNames role main).map utf8) = some object) :
    IsPart role :=
  isPart_of_isName (parts_of_at found role (by simp [taskNames]))

/-- The check of a task passes exactly if the task is no link. -/
theorem reject_task (rooted : checkout.Rooted base) (tasks : checkout.HasTasks base role) :
    checkout.rejectSymlinkAncestors (plain false (taskNames role main)) = .ok () ↔
      ∀ target, checkout.at base ((taskNames role main).map utf8) ≠ some (.link target) := by
  rw [reject_lead rooted]
  exact @rejectFrom_last _ ["roles".toList, role, "tasks".toList] _ _ (walked_lead rooted false) _ tasks

theorem lstat_task (rooted : checkout.Rooted base) {object : Object (List UInt8)}
    (found : checkout.at base ((taskNames role main).map utf8) = some object) :
    checkout.lstat (checkout.root ++ (plain false (taskNames role main)).components.map Files.Component.system) =
      .ok object := by
  have walks := walked_names (walked_lead rooted false) (hasTasks_of_at found) (by simp)
  have split : base ++ (taskNames role main).map utf8 =
      base ++ ["roles".toList, role, "tasks".toList].map utf8 ++ [utf8 main] := by
    rw [List.append_assoc]
    rfl
  unfold Checkout.at at found
  rw [split] at found
  exact lstat_normal walks found

theorem lstat_noTask (rooted : checkout.Rooted base) (tasks : checkout.HasTasks base role)
    (absent : checkout.at base ((taskNames role main).map utf8) = none) :
    checkout.lstat (checkout.root ++ (plain false (taskNames role main)).components.map Files.Component.system) =
      .error .notFound := by
  have walks := walked_names (walked_lead rooted false) tasks (by simp)
  have split : base ++ (taskNames role main).map utf8 =
      base ++ ["roles".toList, role, "tasks".toList].map utf8 ++ [utf8 main] := by
    rw [List.append_assoc]
    rfl
  unfold Checkout.at at absent
  rw [split] at absent
  exact lstat_absent walks tasks absent

theorem parse_taskNames (part : IsPart role) (is : IsMain main) :
    Path.parse (pathString (taskNames role main)) = plain false (taskNames role main) := by
  have path : (plain false (taskNames role main)).osStrs = taskNames role main := osStrs_plain
  have whole := @parse_join false _ (parts_task part is) (by rw [path]; exact List.cons_ne_nil _ _)
  rwa [path] at whole

theorem system_taskNames (part : IsPart role) (is : IsMain main) :
    systemComponents (pathString (taskNames role main)) =
      (plain false (taskNames role main)).components.map Files.Component.system := by
  have path : (plain false (taskNames role main)).osStrs = taskNames role main := osStrs_plain
  have whole := @system_join false _ (parts_task part is) (by rw [path]; exact List.cons_ne_nil _ _)
  rwa [path] at whole

section Task
variable (rooted : checkout.Rooted base) (tasks : checkout.HasTasks base role) (part : IsPart role) (is : IsMain main)
include rooted tasks part is

/-- A task of a role is found as it is; a link is refused. -/
theorem roleTask_regular {bytes : List UInt8}
    (found : checkout.at base ((taskNames role main).map utf8) = some (.file bytes)) :
    checkout.roleTask ("roles/".toList ++ role) main = .ok .regular := by
  have passes := (@reject_task _ _ _ main rooted tasks).mpr (by simp [found])
  unfold Checkout.roleTask
  rw [joinPath_task part]
  simp only [parse_taskNames part is, system_taskNames part is, passes, lstat_task rooted found]

theorem roleTask_ok_iff :
    (∃ task, checkout.roleTask ("roles/".toList ++ role) main = .ok task) ↔
      ∀ target, checkout.at base ((taskNames role main).map utf8) ≠ some (.link target) := by
  rw [← reject_task rooted tasks]
  unfold Checkout.roleTask
  rw [joinPath_task part]
  simp only [parse_taskNames part is, system_taskNames part is]
  cases passes : checkout.rejectSymlinkAncestors (plain false (taskNames role main)) with
  | error failure => simp
  | ok =>
    have noLink := (reject_task rooted tasks).mp passes
    simp only [iff_true]
    cases found : checkout.at base ((taskNames role main).map utf8) with
    | none => exact ⟨.absent, by simp only [lstat_noTask rooted tasks found]⟩
    | some object =>
      have stat := lstat_task rooted found
      cases object with
      | link target => exact absurd found (noLink target)
      | file bytes => exact ⟨.regular, by simp only [stat]⟩
      | directory | special => exact ⟨.absent, by simp only [stat]⟩

end Task

/-- An application takes a role with a task from its directory exactly if none of its tasks is a link. -/
theorem roleDirectory_iff (rooted : checkout.Rooted base) (shape : roleOf (Path.parse path).osStrs = some role)
    (task : checkout.HasTask base role) :
    (∃ directory, checkout.roleDirectory path = .ok directory) ↔ checkout.NoTaskLink base role := by
  obtain ⟨regular, is, bytes, file⟩ := task
  have tasks := hasTasks_of_at file
  have part := role_of_at file
  have inner : checkout.at base (["roles".toList, role].map utf8) = some .directory :=
    @at_directory _ _ (["roles".toList, role].map utf8) (utf8 "tasks".toList) _ tasks
  have text : pathString (plain false ["roles".toList, role]).osStrs = "roles/".toList ++ role := by
    rw [osStrs_plain]
    simp [pathString, List.intercalate, List.intersperse]
  have confined : checkout.repositoryPath ("roles/".toList ++ role) = .ok () := by
    rw [← text]
    exact confine_plain rooted (by simp) inner (by simp)
  have task_ (main : Text) (is : IsMain main) := roleTask_ok_iff rooted tasks part is
  have unfolded : checkout.roleDirectory path = (do
      let yml ← checkout.roleTask ("roles/".toList ++ role) MAIN_YML
      let yaml ← checkout.roleTask ("roles/".toList ++ role) MAIN_YAML
      if yml = RoleTask.regular ∨ yaml = RoleTask.regular then return "roles/".toList ++ role
      else throw ({ message := "recipe role has no tasks/main.yml: ".toList ++ path } : Failure)) := by
    unfold Checkout.roleDirectory
    simp only [shape, confined]
    rfl
  rw [unfolded]
  constructor
  · rintro ⟨directory, ok⟩
    obtain ⟨yml, first, ok⟩ := bind_ok ok
    obtain ⟨yaml, second, _⟩ := bind_ok ok
    rintro main (rfl | rfl)
    · exact (task_ MAIN_YML (Or.inl rfl)).mp ⟨yml, first⟩
    · exact (task_ MAIN_YAML (Or.inr rfl)).mp ⟨yaml, second⟩
  · intro noLink
    obtain ⟨yml, first⟩ := (task_ MAIN_YML (Or.inl rfl)).mpr (noLink MAIN_YML (Or.inl rfl))
    obtain ⟨yaml, second⟩ := (task_ MAIN_YAML (Or.inr rfl)).mpr (noLink MAIN_YAML (Or.inr rfl))
    have found := roleTask_regular rooted tasks part is file
    have either : yml = .regular ∨ yaml = .regular := by
      rcases is with rfl | rfl
      · rw [first] at found
        exact Or.inl (Except.ok.inj found)
      · rw [second] at found
        exact Or.inr (Except.ok.inj found)
    refine ⟨"roles/".toList ++ role, ?_⟩
    rw [first, second]
    exact if_pos either

end Roles

/-! What the manifest may call a recipe, read off the checks that its path passes. -/

section Manifest
variable {led : Bool} {names : List Text} {text path id role main : Text} {kind : RecipeKind} {components : List Text}

variable (checkout base) in
/-- A YAML file, or the directory of a role with a main task. -/
def Checkout.IsRecipe (names : List Text) : Prop :=
  (∃ bytes, checkout.at base (names.map utf8) = some (.file bytes)) ∧ isYamlFile (utf8 (names.getLast?.getD [])) = true ∨
    ∃ role, names = ["roles".toList, role] ∧ checkout.at base (names.map utf8) = some .directory ∧
      checkout.HasTask base role

theorem roleOfDirectory_some (shape : roleOfDirectory components = some role) : components = ["roles".toList, role] := by
  unfold roleOfDirectory at shape
  split at shape
  next =>
    split at shape
    next both =>
      cases shape
      rw [both.1]
    next => cases shape
  next => cases shape

theorem roleOfMain_some (shape : roleOfMain components = some role) :
    ∃ main, IsMain main ∧ components = taskNames role main := by
  unfold roleOfMain at shape
  split at shape
  next main =>
    split at shape
    next both =>
      cases shape
      exact ⟨main, both.2.2, by rw [both.1, both.2.1]; rfl⟩
    next => cases shape
  next => cases shape

/-- A path that starts at the roles starts at no current directory. -/
theorem plain_roles {rest : List Text} (same : (plain led names).osStrs = "roles".toList :: rest) :
    led = false ∧ names = "roles".toList :: rest := by
  rw [osStrs_plain] at same
  cases led with
  | false => exact ⟨rfl, same⟩
  | true =>
    have first := (List.cons.inj same).1
    exact absurd first (by decide)

theorem below_plain (more : List Text) : Files.below (plain led names) more = plain led (names ++ more) := by
  simp [Files.below, plain]

theorem fileName_plain : (plain led names).fileName.getD [] = names.getLast?.getD [] := by
  rcases List.eq_nil_or_concat' names with rfl | ⟨front, last, rfl⟩
  · cases led <;> rfl
  · have final : (plain led (front ++ [last])).components.getLast? = some (.normal last) := by
      simp [plain]
    simp [Path.fileName, final]

theorem walks_of_text (rooted : checkout.Rooted base) (parsed : Path.parse text = plain led names) {reached : Place}
    (resolved : checkout.volume.resolve checkout.links [] (checkout.root ++ systemComponents text) = .ok reached)
    (ok : checkout.rejectSymlinkAncestors (Path.parse text) = .ok ()) : reached = base ++ names.map utf8 := by
  have drops := (@drops_system text (by rw [parsed]; rfl)).append checkout.root
  have whole := resolve_drops drops resolved
  rw [parsed] at whole ok
  rw [reject_lead rooted] at ok
  exact rejectFrom_walks (walked_lead rooted led) whole ok

theorem at_of_file (rooted : checkout.Rooted base) (parsed : Path.parse text = plain led names)
    (ok : checkout.rejectSymlinkAncestors (Path.parse text) = .ok ()) (file : checkout.isFile text = true) :
    ∃ bytes, checkout.at base (names.map utf8) = some (.file bytes) := by
  unfold Checkout.isFile at file
  split at file
  next bytes stat =>
    obtain ⟨reached, resolved, found⟩ := resolve_of_stat stat
    rw [walks_of_text rooted parsed resolved ok] at found
    exact ⟨bytes, found⟩
  next => cases file

theorem at_of_task (rooted : checkout.Rooted base) (some_ : text ≠ []) (is : IsMain main)
    (parsed : Path.parse text = plain led names) (ok : checkout.roleTask text main = .ok .regular) :
    ∃ bytes, checkout.at base ((names ++ ["tasks".toList, main]).map utf8) = some (.file bytes) := by
  have task : Path.parse (joinPath (joinPath text "tasks".toList) main) =
      plain led (names ++ ["tasks".toList, main]) := by
    rw [parse_task some_ is, parsed, below_plain]
  unfold Checkout.roleTask at ok
  dsimp only at ok
  split at ok
  next => cases ok
  next passes =>
    split at ok
    next => cases ok
    next bytes stat =>
      obtain ⟨reached, resolved, found⟩ := resolve_of_lstat stat (by simp)
      rw [walks_of_text rooted task resolved passes] at found
      exact ⟨bytes, found⟩
    next => cases ok
    next => cases ok
    next => cases ok

/-- What is taken for a role has a main task. -/
theorem rolePath_true (rooted : checkout.Rooted base) (some_ : text ≠ []) (parsed : Path.parse text = plain led names)
    (ok : checkout.rolePath text = .ok true) :
    ∃ role, roleOf (plain led names).osStrs = some role ∧ checkout.HasTask base role ∧ checkout.IsRecipe base names := by
  unfold Checkout.rolePath at ok
  rw [parsed] at ok
  dsimp only at ok
  split at ok
  next shape =>
    obtain ⟨role, shape⟩ := Option.isSome_iff_exists.mp shape
    obtain ⟨rfl, names_⟩ := plain_roles (roleOfDirectory_some shape)
    have task (main : Text) (is : IsMain main) (found : checkout.roleTask text main = .ok .regular) :
        ∃ role, roleOf (plain false names).osStrs = some role ∧ checkout.HasTask base role ∧
          checkout.IsRecipe base names := by
      obtain ⟨bytes, file⟩ := at_of_task rooted some_ is parsed found
      rw [names_] at file
      have has : checkout.HasTask base role := ⟨main, is, bytes, file⟩
      refine ⟨role, by simp [roleOf, shape], has, Or.inr ⟨role, names_, ?_, has⟩⟩
      rw [names_]
      exact @at_directory _ _ (["roles".toList, role].map utf8) (utf8 "tasks".toList) _ (hasTasks_of_at file)
    obtain ⟨yml, first, ok⟩ := bind_ok ok
    cases yml with
    | regular => exact task MAIN_YML (Or.inl rfl) first
    | absent =>
      obtain ⟨yaml, second, ok⟩ := bind_ok ok
      cases yaml with
      | regular => exact task MAIN_YAML (Or.inr rfl) second
      | absent => cases ok
  next noDirectory =>
    split at ok
    next shape =>
      obtain ⟨role, shape⟩ := Option.isSome_iff_exists.mp shape
      obtain ⟨main, is, whole⟩ := roleOfMain_some shape
      obtain ⟨rfl, names_⟩ := plain_roles whole
      obtain ⟨_, passes, ok⟩ := bind_ok ok
      have file : checkout.isFile text = true := Except.ok.inj ok
      rw [← parsed] at passes
      obtain ⟨bytes, found⟩ := at_of_file rooted parsed passes file
      have isTask : names = taskNames role main := names_
      refine ⟨role, ?_, ⟨main, is, bytes, isTask ▸ found⟩, Or.inl ⟨⟨bytes, found⟩, ?_⟩⟩
      · rw [Option.not_isSome_iff_eq_none] at noDirectory
        simp [roleOf, noDirectory, shape]
      · rw [isTask]
        rcases is with rfl | rfl
        · show isYamlFile (utf8 MAIN_YML) = true
          decide
        · show isYamlFile (utf8 MAIN_YAML) = true
          decide
    next => cases ok

/-- A main task that is a file is a role. -/
theorem rolePath_false (ok : checkout.rolePath text = .ok false) (file : checkout.isFile text = true) :
    roleOfMain (Path.parse text).osStrs = none := by
  unfold Checkout.rolePath at ok
  dsimp only at ok
  split at ok
  next shape =>
    obtain ⟨role, shape⟩ := Option.isSome_iff_exists.mp shape
    rw [roleOfDirectory_some shape]
    rfl
  next =>
    split at ok
    next =>
      obtain ⟨_, _, ok⟩ := bind_ok ok
      have none_ : checkout.isFile text = false := Except.ok.inj ok
      rw [file] at none_
      cases none_
    next noMain => simpa using noMain

variable (checkout base) in
/-- What a path that the manifest gives comes to: its kind, and the path in the catalog. -/
structure Checkout.Given (text : Text) (kind : RecipeKind) (path : Text) (led : Bool) (names : List Text) : Prop where
  parsed : Path.parse text = plain led names
  joined : path = pathString (plain led names).osStrs
  recipe : checkout.IsRecipe base names
  role : kind = .role → ∃ role, roleOf (plain led names).osStrs = some role ∧ checkout.HasTask base role
  playbook : kind = .playbook → (∃ bytes, checkout.at base (names.map utf8) = some (.file bytes)) ∧
    roleOfMain (plain led names).osStrs = none

theorem recipeKind_ok (rooted : checkout.Rooted base) (some_ : text ≠ []) (parsed : Path.parse text = plain led names)
    (ok : checkout.recipeKind text = .ok kind) :
    checkout.Given base text kind (pathString (plain led names).osStrs) led names := by
  unfold Checkout.recipeKind at ok
  obtain ⟨_, confined, ok⟩ := bind_ok ok
  obtain ⟨_, passes, ok⟩ := bind_ok ok
  obtain ⟨isRole, shape, ok⟩ := bind_ok ok
  split at ok
  next true_ =>
    cases ok
    rw [true_] at shape
    obtain ⟨role, of_, task, recipe⟩ := rolePath_true rooted some_ parsed shape
    exact ⟨parsed, rfl, recipe, fun _ => ⟨role, of_, task⟩, (by simp)⟩
  next false_ =>
    rw [Bool.eq_false_iff.mpr false_] at shape
    split at ok
    next file =>
      split at ok
      next yaml =>
        cases ok
        have found := at_of_file rooted parsed passes file
        have noMain := rolePath_false shape file
        rw [parsed] at noMain
        rw [parsed, fileName_plain] at yaml
        exact ⟨parsed, rfl, Or.inl ⟨found, yaml⟩, (by simp), fun _ => ⟨found, noMain⟩⟩
      next => cases ok
    next => cases ok

theorem normaliseRelativePath_ok {value : Text} (ok : normaliseRelativePath value = .ok text) :
    text = value ∧ text ≠ [] ∧ ∃ (led : Bool) (names : List Text), Path.parse text = plain led names := by
  unfold normaliseRelativePath at ok
  split at ok
  next => cases ok
  next inside =>
    split at ok
    next => cases ok
    next nonempty =>
      cases ok
      rw [Bool.or_eq_true, not_or] at inside
      have noParent : "..".toList ∉ (Path.parse text).osStrs := by
        intro member
        exact inside.2 (List.any_eq_true.mpr ⟨_, member, decide_eq_true rfl⟩)
      obtain ⟨led, names, _, parsed⟩ := parse_plain (by simpa using inside.1) noParent
      exact ⟨rfl, ne_nil_of_trim nonempty, led, names, parsed⟩

theorem manifestRecipePath_ok (rooted : checkout.Rooted base) {entry : RecipeManifestEntry}
    (ok : checkout.manifestRecipePath id entry = .ok (kind, path)) :
    ∃ text led names, entry.path = some text ∧ checkout.Given base text kind path led names := by
  unfold Checkout.manifestRecipePath at ok
  split at ok
  next => cases ok
  next value given =>
    obtain ⟨text, normal, checked⟩ := bind_ok ok
    obtain ⟨same, some_, led, names, parsed⟩ := normaliseRelativePath_ok normal
    obtain ⟨_, _, checked⟩ := bind_ok checked
    split at checked
    next =>
      obtain ⟨kind', shape, checked⟩ := bind_ok checked
      cases checked
      rw [parsed]
      exact ⟨text, led, names, same ▸ given, recipeKind_ok rooted some_ parsed shape⟩
    next => cases checked

end Manifest

end Pbox.Cli.RecipeTree
