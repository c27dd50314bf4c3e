import Mathlib.Data.List.Induction
import Mathlib.Data.List.Nodup
import Mathlib.Data.List.Perm.Subperm
import Mathlib.Data.List.Range

/-! Trees of named files with symbolic links, and the resolution of paths in them. A place is a path
from the top without links; a path is followed from a place, link by link up to a limit. -/

namespace Pbox.Lib.FileTree

abbrev Name := List UInt8
abbrev Place := List Name

inductive Component where
  | current
  | parent
  | normal (name : Name)
  deriving DecidableEq, Repr

structure Target where
  absolute : Bool
  components : List Component
  deriving DecidableEq, Repr

inductive Object (File : Type) where
  | directory
  | file (file : File)
  | link (target : Target)
  | special
  deriving DecidableEq, Repr

/-- What a directory can list. -/
structure IsName (name : Name) : Prop where
  nonempty : name ≠ []
  noSlash : 47 ∉ name
  noNul : 0 ∉ name
  notCurrent : name ≠ [46]
  notParent : name ≠ [46, 46]

theorem isName_single {byte : UInt8} (text : byte ≠ 0) (dot : byte ≠ 46) (slash : byte ≠ 47) : IsName [byte] where
  nonempty := List.cons_ne_nil _ _
  noSlash := by simpa using slash.symm
  noNul := by simpa using text.symm
  notCurrent := by simpa using dot
  notParent := by simp

/-- Every place has one object, and every object but the top is in a directory. -/
structure Volume (File : Type) where
  entries : List (Place × Object File)
  named : ∀ entry ∈ entries, ∀ name ∈ entry.1, IsName name
  distinct : (entries.map Prod.fst).Nodup
  nested : ∀ entry ∈ entries, ∃ above name, entry.1 = above ++ [name] ∧
    (above = [] ∨ (above, Object.directory) ∈ entries)

inductive Fault where
  | notFound
  | notDirectory
  | tooManyLinks
  deriving DecidableEq, Repr

variable {File : Type}

def Volume.lookup (volume : Volume File) (place : Place) : Option (Object File) :=
  if place = [] then some .directory else (volume.entries.find? fun entry => entry.1 = place).map Prod.snd

def Volume.listing (volume : Volume File) (place : Place) : List Name :=
  volume.entries.filterMap fun entry => if entry.1.dropLast = place then entry.1.getLast? else none

def Volume.places (volume : Volume File) : List Place := [] :: volume.entries.map Prod.fst

/-- One component, its own link not followed. -/
def Volume.enter (volume : Volume File) (here : Place) (component : Component) : Except Fault Place :=
  match volume.lookup here with
  | none => .error .notFound
  | some .directory =>
    match component with
    | .current => .ok here
    | .parent => .ok here.dropLast
    | .normal name => if (volume.lookup (here ++ [name])).isSome then .ok (here ++ [name]) else .error .notFound
  | some _ => .error .notDirectory

def Volume.resolveWith (volume : Volume File) (again : Place → List Component → Except Fault Place) :
    Place → List Component → Except Fault Place
  | here, [] => .ok here
  | here, component :: rest =>
    match volume.enter here component with
    | .error fault => .error fault
    | .ok next =>
      match volume.lookup next with
      | some (.link target) => again (if target.absolute then [] else here) (target.components ++ rest)
      | _ => volume.resolveWith again next rest

/-- The place of a path, every link on it followed; the number bounds the links. -/
def Volume.resolve (volume : Volume File) : Nat → Place → List Component → Except Fault Place
  | 0 => volume.resolveWith fun _ _ => .error .tooManyLinks
  | links + 1 => volume.resolveWith (volume.resolve links)

/-- `stat`. -/
def Volume.stat (volume : Volume File) (links : Nat) (here : Place) (path : List Component) : Except Fault (Object File) :=
  match volume.resolve links here path with
  | .error fault => .error fault
  | .ok place =>
    match volume.lookup place with
    | none => .error .notFound
    | some object => .ok object

/-- `lstat`: the last component's own link is not followed. -/
def Volume.lstat (volume : Volume File) (links : Nat) (here : Place) (path : List Component) : Except Fault (Object File) :=
  match path.getLast? with
  | none => volume.stat links here []
  | some last =>
    match volume.resolve links here path.dropLast with
    | .error fault => .error fault
    | .ok above =>
      match volume.enter above last with
      | .error fault => .error fault
      | .ok place =>
        match volume.lookup place with
        | none => .error .notFound
        | some object => .ok object

def Volume.readDir (volume : Volume File) (links : Nat) (here : Place) (path : List Component) : Except Fault (List Name) :=
  match volume.resolve links here path with
  | .error fault => .error fault
  | .ok place =>
    match volume.lookup place with
    | some .directory => .ok (volume.listing place)
    | _ => .error .notDirectory

variable {volume : Volume File} {here place : Place} {links : Nat} {path : List Component}

theorem lookup_eq_some {object : Object File} (found : volume.lookup place = some object) :
    place = [] ∧ object = .directory ∨ (place, object) ∈ volume.entries := by
  unfold Volume.lookup at found
  split at found
  next top =>
    cases found
    exact Or.inl ⟨top, rfl⟩
  next =>
    obtain ⟨entry, among, rfl⟩ := Option.map_eq_some_iff.mp found
    have same := List.find?_some among
    simp only [decide_eq_true_eq] at same
    have member := List.mem_of_find?_eq_some among
    exact Or.inr (same ▸ member)

theorem mem_places {object : Object File} (found : volume.lookup place = some object) : place ∈ volume.places := by
  rcases lookup_eq_some found with ⟨rfl, _⟩ | member
  · exact List.mem_cons_self
  · exact List.mem_cons_of_mem _ (List.mem_map.mpr ⟨_, member, rfl⟩)

theorem entries_nonempty {entry : Place × Object File} (member : entry ∈ volume.entries) : entry.1 ≠ [] := by
  obtain ⟨above, name, same, _⟩ := volume.nested entry member
  rw [same]
  simp

theorem lookup_of_mem {object : Object File} (member : (place, object) ∈ volume.entries) :
    volume.lookup place = some object := by
  unfold Volume.lookup
  rw [if_neg (entries_nonempty member)]
  cases found : volume.entries.find? fun entry => entry.1 = place with
  | none =>
    have other := List.find?_eq_none.mp found _ member
    simp at other
  | some entry =>
    have same := List.find?_some found
    simp only [decide_eq_true_eq] at same
    have among := List.mem_of_find?_eq_some found
    have unique := List.inj_on_of_nodup_map volume.distinct among member same
    rw [unique]
    rfl

/-- What a directory lists is what it has an object for. -/
theorem mem_listing {name : Name} : name ∈ volume.listing place ↔ (volume.lookup (place ++ [name])).isSome := by
  unfold Volume.listing
  rw [List.mem_filterMap]
  constructor
  · rintro ⟨entry, member, last⟩
    split at last
    next above =>
      have whole := List.dropLast_append_getLast? name last
      rw [above] at whole
      have found : volume.lookup entry.1 = some entry.2 := lookup_of_mem member
      rw [whole, found]
      rfl
    next => cases last
  · intro found
    obtain ⟨object, found⟩ := Option.isSome_iff_exists.mp found
    rcases lookup_eq_some found with ⟨top, _⟩ | member
    · simp at top
    · exact ⟨_, member, by simp⟩

theorem listing_isName {name : Name} (listed : name ∈ volume.listing place) : IsName name := by
  obtain ⟨object, found⟩ := Option.isSome_iff_exists.mp (mem_listing.mp listed)
  rcases lookup_eq_some found with ⟨top, _⟩ | member
  · simp at top
  · exact volume.named _ member name (by simp)

theorem listing_nodup (volume : Volume File) (place : Place) : (volume.listing place).Nodup := by
  unfold Volume.listing
  have distinct := volume.distinct
  rw [List.Nodup, List.pairwise_map] at distinct
  refine List.Pairwise.filterMap _ ?_ distinct
  intro first second different name left name' right same
  subst same
  apply different
  split at left
  next above =>
    split at right
    next above' =>
      rw [← List.dropLast_append_getLast? _ left, ← List.dropLast_append_getLast? _ right, above, above']
    next => cases right
  next => cases left

/-- The directory an object is in. -/
theorem lookup_above {name : Name} (found : (volume.lookup (place ++ [name])).isSome) :
    volume.lookup place = some .directory := by
  obtain ⟨object, found⟩ := Option.isSome_iff_exists.mp found
  rcases lookup_eq_some found with ⟨top, _⟩ | member
  · simp at top
  · obtain ⟨above, last, same, inside⟩ := volume.nested _ member
    obtain ⟨rfl, _⟩ := List.append_inj' same rfl
    rcases inside with rfl | inside
    · rfl
    · exact lookup_of_mem inside

theorem lookup_dropLast (found : (volume.lookup place).isSome) : (volume.lookup place.dropLast).isSome := by
  rcases List.eq_nil_or_concat' place with rfl | ⟨above, name, rfl⟩
  · rfl
  · rw [List.dropLast_concat, lookup_above found]
    rfl

theorem enter_isSome {component : Component} {next : Place} (entered : volume.enter here component = .ok next) :
    (volume.lookup next).isSome := by
  unfold Volume.enter at entered
  split at entered
  next => cases entered
  next found =>
    cases component with
    | current =>
      cases entered
      rw [found]
      rfl
    | parent =>
      cases entered
      apply lookup_dropLast
      rw [found]
      rfl
    | normal name =>
      dsimp only at entered
      split at entered
      next found => cases entered; exact found
      next => cases entered
  next => cases entered

theorem resolveWith_isSome {again : Place → List Component → Except Fault Place}
    (later : ∀ here path, (volume.lookup here).isSome → again here path = .ok place → (volume.lookup place).isSome)
    (exist : (volume.lookup here).isSome) (resolved : volume.resolveWith again here path = .ok place) :
    (volume.lookup place).isSome := by
  induction path generalizing here with
  | nil =>
    cases resolved
    exact exist
  | cons component rest ih =>
    unfold Volume.resolveWith at resolved
    split at resolved
    next => cases resolved
    next next entered =>
      split at resolved
      next target _ =>
        refine later _ _ ?_ resolved
        split
        · rfl
        · exact exist
      next => exact ih (enter_isSome entered) resolved

/-- A path that resolves leads to an object. -/
theorem resolve_isSome (exist : (volume.lookup here).isSome) (resolved : volume.resolve links here path = .ok place) :
    (volume.lookup place).isSome := by
  induction links generalizing here path with
  | zero => exact resolveWith_isSome (fun _ _ _ failed => by cases failed) exist resolved
  | succ links ih => exact resolveWith_isSome (fun _ _ => ih) exist resolved

theorem resolve_mem_places (exist : (volume.lookup here).isSome)
    (resolved : volume.resolve links here path = .ok place) : place ∈ volume.places := by
  obtain ⟨object, found⟩ := Option.isSome_iff_exists.mp (resolve_isSome exist resolved)
  exact mem_places found

/-! Paths in parts, and paths without links. -/

section Paths
variable {root rest : List Component} {component : Component} {above next : Place} {name : Name}

theorem enter_normal (directory : volume.lookup here = some .directory)
    (found : (volume.lookup (here ++ [name])).isSome) : volume.enter here (.normal name) = .ok (here ++ [name]) := by
  unfold Volume.enter
  rw [directory]
  exact if_pos found

theorem enter_normal_eq (entered : volume.enter here (.normal name) = .ok next) :
    volume.lookup here = some .directory ∧ next = here ++ [name] ∧ (volume.lookup (here ++ [name])).isSome := by
  unfold Volume.enter at entered
  split at entered
  next => cases entered
  next directory =>
    dsimp only at entered
    split at entered
    next found => cases entered; exact ⟨directory, rfl, found⟩
    next => cases entered
  next => cases entered

/-- What a component leads to is gone on from, where it is no link. -/
theorem resolve_cons (entered : volume.enter here component = .ok next)
    (plain : ∀ target, volume.lookup next ≠ some (.link target)) :
    volume.resolve links here (component :: rest) = volume.resolve links next rest := by
  cases links with
  | zero =>
    simp only [Volume.resolve, Volume.resolveWith, entered]
  | succ links =>
    simp only [Volume.resolve, Volume.resolveWith, entered]

theorem resolve_cons_error {fault : Fault} (entered : volume.enter here component = .error fault) :
    volume.resolve links here (component :: rest) = .error fault := by
  cases links <;> simp only [Volume.resolve, Volume.resolveWith, entered]

theorem resolve_cons_link {target : Target} (entered : volume.enter here component = .ok next)
    (found : volume.lookup next = some (.link target)) :
    volume.resolve (links + 1) here (component :: rest) =
      volume.resolve links (if target.absolute then [] else here) (target.components ++ rest) := by
  simp only [Volume.resolve, Volume.resolveWith, entered, found]

theorem resolve_cons_last {target : Target} (entered : volume.enter here component = .ok next)
    (found : volume.lookup next = some (.link target)) :
    volume.resolve 0 here (component :: rest) = .error .tooManyLinks := by
  simp only [Volume.resolve, Volume.resolveWith, entered, found]

theorem resolve_nil : volume.resolve links here [] = .ok here := by
  cases links <;> rfl

/-- A path goes on from the place of its front, with the links that are left. -/
theorem resolve_append (resolved : volume.resolve links here path = .ok place) (rest : List Component) :
    ∃ left, volume.resolve links here (path ++ rest) = volume.resolve left place rest := by
  induction links generalizing here path with
  | zero =>
    induction path generalizing here with
    | nil =>
      rw [resolve_nil] at resolved
      cases resolved
      exact ⟨0, rfl⟩
    | cons component path ih =>
      cases entered : volume.enter here component with
      | error fault => rw [resolve_cons_error entered] at resolved; cases resolved
      | ok next =>
        by_cases link : ∃ target, volume.lookup next = some (.link target)
        · obtain ⟨target, found⟩ := link
          rw [resolve_cons_last entered found] at resolved
          cases resolved
        · have plain := not_exists.mp link
          rw [resolve_cons entered plain] at resolved
          rw [List.cons_append, resolve_cons entered plain]
          exact ih resolved
  | succ links outer =>
    induction path generalizing here with
    | nil =>
      rw [resolve_nil] at resolved
      cases resolved
      exact ⟨links + 1, rfl⟩
    | cons component path ih =>
      cases entered : volume.enter here component with
      | error fault => rw [resolve_cons_error entered] at resolved; cases resolved
      | ok next =>
        by_cases link : ∃ target, volume.lookup next = some (.link target)
        · obtain ⟨target, found⟩ := link
          rw [resolve_cons_link entered found] at resolved
          rw [List.cons_append, resolve_cons_link entered found, ← List.append_assoc]
          exact outer resolved
        · have plain := not_exists.mp link
          rw [resolve_cons entered plain] at resolved
          rw [List.cons_append, resolve_cons entered plain]
          exact ih resolved

theorem resolve_enter (resolved : volume.resolve links here path = .ok above)
    (entered : volume.enter above component = .ok next)
    (plain : ∀ target, volume.lookup next ≠ some (.link target)) :
    volume.resolve links here (path ++ [component]) = .ok next := by
  obtain ⟨left, same⟩ := resolve_append resolved [component]
  rw [same, resolve_cons entered plain, resolve_nil]

theorem lstat_snoc (resolved : volume.resolve links here path = .ok above)
    (entered : volume.enter above component = .ok next) {object : Object File}
    (found : volume.lookup next = some object) :
    volume.lstat links here (path ++ [component]) = .ok object := by
  simp only [Volume.lstat, List.getLast?_concat, List.dropLast_concat, resolved, entered, found]

/-- What is no link itself is where its path leads. -/
theorem resolve_of_lstat {object : Object File} (stat : volume.lstat links here path = .ok object)
    (plain : ∀ target, object ≠ .link target) :
    ∃ reached, volume.resolve links here path = .ok reached ∧ volume.lookup reached = some object := by
  rcases List.eq_nil_or_concat' path with rfl | ⟨front, last, rfl⟩
  · simp only [Volume.lstat, Volume.stat, List.getLast?_nil, resolve_nil] at stat
    refine ⟨here, resolve_nil, ?_⟩
    cases found : volume.lookup here with
    | none => simp [found] at stat
    | some other =>
      simp only [found] at stat
      cases stat
      rfl
  · simp only [Volume.lstat, List.getLast?_concat, List.dropLast_concat] at stat
    cases resolved : volume.resolve links here front with
    | error fault => simp [resolved] at stat
    | ok above =>
      cases entered : volume.enter above last with
      | error fault => simp [resolved, entered] at stat
      | ok next =>
        cases found : volume.lookup next with
        | none => simp [resolved, entered, found] at stat
        | some other =>
          simp only [resolved, entered, found] at stat
          cases stat
          refine ⟨next, resolve_enter resolved entered ?_, found⟩
          intro target link
          rw [found] at link
          exact plain target (Option.some.inj link)

theorem resolve_of_stat {object : Object File} (stat : volume.stat links here path = .ok object) :
    ∃ reached, volume.resolve links here path = .ok reached ∧ volume.lookup reached = some object := by
  unfold Volume.stat at stat
  split at stat
  next => cases stat
  next reached resolved =>
    split at stat
    next => cases stat
    next found =>
      cases stat
      exact ⟨reached, resolved, found⟩

/-- The names of a place that has an object. -/
theorem isName_of_lookup {behind : List Name} (found : (volume.lookup (place ++ behind)).isSome) :
    ∀ name ∈ behind, IsName name := by
  intro name member
  obtain ⟨object, lookup⟩ := Option.isSome_iff_exists.mp found
  rcases lookup_eq_some lookup with ⟨top, _⟩ | entry
  · rw [(List.append_eq_nil_iff.mp top).2] at member
    cases member
  · exact volume.named _ entry name (List.mem_append_right _ member)

/-- Names that are looked up without a link are where a path of them leads. -/
theorem resolve_names {names : List Name} {object : Object File}
    (resolved : volume.resolve links here root = .ok place) (found : volume.lookup (place ++ names) = some object)
    (plain : ∀ target, object ≠ .link target) :
    volume.resolve links here (root ++ names.map .normal) = .ok (place ++ names) := by
  induction names using List.reverseRecOn generalizing object with
  | nil => simpa using resolved
  | append_singleton front name ih =>
    rw [← List.append_assoc] at found
    have isSome : (volume.lookup (place ++ front ++ [name])).isSome := by rw [found]; rfl
    have inside := lookup_above isSome
    have earlier := ih inside (by simp)
    rw [List.map_append, ← List.append_assoc, ← List.append_assoc]
    apply resolve_enter earlier (enter_normal inside isSome)
    intro target link
    rw [found] at link
    exact plain target (Option.some.inj link)

theorem lstat_names {front : List Name} {object : Object File}
    (resolved : volume.resolve links here root = .ok place)
    (found : volume.lookup (place ++ (front ++ [name])) = some object) :
    volume.lstat links here (root ++ (front ++ [name]).map .normal) = .ok object := by
  rw [← List.append_assoc] at found
  have isSome : (volume.lookup (place ++ front ++ [name])).isSome := by rw [found]; rfl
  have inside := lookup_above isSome
  have earlier := resolve_names resolved inside (by simp)
  rw [List.map_append, ← List.append_assoc]
  exact lstat_snoc earlier (enter_normal inside isSome) found

/-- What is above an object is directories. -/
theorem lookup_inner {behind : List Name} (found : (volume.lookup (place ++ behind)).isSome) (inner : behind ≠ []) :
    volume.lookup place = some .directory := by
  induction behind using List.reverseRecOn with
  | nil => exact absurd rfl inner
  | append_singleton front name ih =>
    rw [← List.append_assoc] at found
    have directory := lookup_above found
    cases front with
    | nil => simpa using directory
    | cons first rest =>
      apply ih _ (List.cons_ne_nil _ _)
      rw [directory]
      rfl

/-- Each front of a place has an object of its own. -/
theorem length_le_entries (found : (volume.lookup place).isSome) : place.length ≤ volume.entries.length := by
  have once : ((List.range place.length).map fun i => place.take (i + 1)).Nodup := by
    refine List.Nodup.map_on ?_ List.nodup_range
    intro i low j high same
    rw [List.mem_range] at low high
    have lengths := congrArg List.length same
    rw [List.length_take, List.length_take] at lengths
    omega
  have known : ((List.range place.length).map fun i => place.take (i + 1)) ⊆ volume.entries.map Prod.fst := by
    intro front member
    obtain ⟨i, low, rfl⟩ := List.mem_map.mp member
    rw [List.mem_range] at low
    have nonempty : place.take (i + 1) ≠ [] := by
      apply List.ne_nil_of_length_pos
      rw [List.length_take]
      omega
    have isSome : (volume.lookup (place.take (i + 1))).isSome := by
      rw [← List.take_append_drop (i + 1) place] at found
      by_cases last : place.drop (i + 1) = []
      · rwa [last, List.append_nil] at found
      · rw [lookup_inner found last]
        rfl
    obtain ⟨object, lookup⟩ := Option.isSome_iff_exists.mp isSome
    rcases lookup_eq_some lookup with ⟨top, _⟩ | entry
    · exact absurd top nonempty
    · exact List.mem_map.mpr ⟨_, entry, rfl⟩
  have length := (List.subperm_of_subset once known).length_le
  simpa using length

/-- The same path with some of its current directories left out. -/
inductive Drops : List Component → List Component → Prop where
  | nil : Drops [] []
  | keep (component : Component) {path shorter : List Component} (later : Drops path shorter) :
      Drops (component :: path) (component :: shorter)
  | drop {path shorter : List Component} (later : Drops path shorter) : Drops (.current :: path) shorter

theorem Drops.refl (path : List Component) : Drops path path := by
  induction path with
  | nil => exact .nil
  | cons component rest ih => exact .keep component ih

theorem Drops.append {shorter : List Component} (front : List Component) (drops : Drops path shorter) :
    Drops (front ++ path) (front ++ shorter) := by
  induction front with
  | nil => exact drops
  | cons component rest ih => exact .keep component ih

theorem Drops.closed {shorter : List Component} (drops : Drops path shorter) :
    Drops (path ++ [.current]) shorter := by
  induction drops with
  | nil => exact .drop .nil
  | keep component _ ih => exact .keep component ih
  | drop _ ih => exact .drop ih

theorem resolve_current (resolved : volume.resolve links here (.current :: rest) = .ok place) :
    volume.resolve links here rest = .ok place := by
  cases found : volume.lookup here with
  | none =>
    have entered : volume.enter here .current = .error .notFound := by simp only [Volume.enter, found]
    rw [resolve_cons_error entered] at resolved
    cases resolved
  | some object =>
    cases object with
    | directory =>
      have entered : volume.enter here .current = .ok here := by simp only [Volume.enter, found]
      rw [resolve_cons entered (by simp [found])] at resolved
      exact resolved
    | file _ | link _ | special =>
      have entered : volume.enter here .current = .error .notDirectory := by simp only [Volume.enter, found]
      rw [resolve_cons_error entered] at resolved
      cases resolved

theorem resolve_drops {shorter : List Component} (drops : Drops path shorter)
    (resolved : volume.resolve links here path = .ok place) : volume.resolve links here shorter = .ok place := by
  induction links generalizing here path shorter with
  | zero =>
    induction drops generalizing here with
    | nil => exact resolved
    | @keep component path shorter later ih =>
      cases entered : volume.enter here component with
      | error fault => rw [resolve_cons_error entered] at resolved; cases resolved
      | ok next =>
        by_cases link : ∃ target, volume.lookup next = some (.link target)
        · obtain ⟨target, found⟩ := link
          rw [resolve_cons_last entered found] at resolved
          cases resolved
        · have plain := not_exists.mp link
          rw [resolve_cons entered plain] at resolved ⊢
          exact ih resolved
    | drop later ih => exact ih (resolve_current resolved)
  | succ links outer =>
    induction drops generalizing here with
    | nil => exact resolved
    | @keep component path shorter later ih =>
      cases entered : volume.enter here component with
      | error fault => rw [resolve_cons_error entered] at resolved; cases resolved
      | ok next =>
        by_cases link : ∃ target, volume.lookup next = some (.link target)
        · obtain ⟨target, found⟩ := link
          rw [resolve_cons_link entered found] at resolved ⊢
          exact outer (later.append target.components) resolved
        · have plain := not_exists.mp link
          rw [resolve_cons entered plain] at resolved ⊢
          exact ih resolved
    | drop later ih => exact ih (resolve_current resolved)

end Paths

end Pbox.Lib.FileTree
