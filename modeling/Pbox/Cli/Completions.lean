import Pbox.Lib.Dedup
import Pbox.Cli.Discovery
import Pbox.Cli.RecipeApply
import Pbox.Cli.RecipeSource

/-! What the shell completion offers for a box (`candidates`), beside what `select_box_reference` makes of it. -/

namespace Pbox.Cli.Completions
open Pbox.Lib.Strings Pbox.Lib.Dedup Pbox.Core.Id Pbox.Cli.Discovery
open Pbox.Cli.RecipeApply (safeTerminalText)
open Pbox.Cli.RecipeSource (isControl)

/-- A reference and what is known of the box beside it. -/
abbrev Offer := Text × Text

structure CompletionCandidate where
  value : Text
  help : Text
  deriving DecidableEq

def cachedRecords (boxes : List BoxRecord) : List (Text × Text) :=
  boxes.map fun box => (box.id.value, box.name.getD [])

def named (records : List (Text × Text)) (name : Text) : Nat := records.countP fun record => record.2 == name

/-- What is pushed for one record. -/
def pushed (records : List (Text × Text)) (record : Text × Text) : List Offer :=
  (record.1, record.2) :: if record.2 ≠ [] ∧ named records record.2 = 1 then [(record.2, record.1)] else []

def values (records : List (Text × Text)) (allowCurrent : Bool) : List Offer :=
  (match records with
    | [record] => if allowCurrent then [(CURRENT, record.1)] else []
    | _ => []) ++ records.flatMap (pushed records)

/-- The order of pairs of texts. -/
def offerLe (first second : Offer) : Bool :=
  if first.1 = second.1 then textLe first.2 second.2 else textLe first.1 second.1

def offers (records : List (Text × Text)) (start : Text) (allowCurrent : Bool) : List Offer :=
  (dedup Prod.fst ((values records allowCurrent).insertionSort fun first second => offerLe first second)).filter
    fun offer => start.isPrefixOf offer.1 && !offer.1.any isControl

def candidates (records : List (Text × Text)) (start : Text) (allowCurrent : Bool) : List CompletionCandidate :=
  (offers records start allowCurrent).map fun offer => ⟨offer.1, safeTerminalText offer.2⟩

/-! Which offers there are. -/

theorem offerLe_total (first second : Offer) : offerLe first second = true ∨ offerLe second first = true := by
  unfold offerLe
  by_cases same : first.1 = second.1
  · rw [if_pos same, if_pos same.symm]
    exact textLe_total _ _
  · rw [if_neg same, if_neg fun equal => same equal.symm]
    exact textLe_total _ _

theorem offerLe_key {first second : Offer} (low : offerLe first second = true) : textLe first.1 second.1 = true := by
  unfold offerLe at low
  split at low
  next same =>
    rw [same]
    exact or_self_iff.mp (textLe_total _ _)
  next => exact low

theorem offerLe_value {first second : Offer} (same : first.1 = second.1) :
    offerLe first second = textLe first.2 second.2 := if_pos same

theorem offerLe_trans {first second third : Offer} (low : offerLe first second = true)
    (high : offerLe second third = true) : offerLe first third = true := by
  have keys := textLe_trans (offerLe_key low) (offerLe_key high)
  by_cases ends : first.1 = third.1
  · have middle : first.1 = second.1 := textLe_antisymm (offerLe_key low) (ends ▸ offerLe_key high)
    rw [offerLe_value middle] at low
    rw [offerLe_value (middle.symm.trans ends)] at high
    rw [offerLe_value ends]
    exact textLe_trans low high
  · unfold offerLe
    rw [if_neg ends]
    exact keys

theorem offers_gathered : Gathers (Prod.fst : Offer → Text) (fun first second => offerLe first second = true) where
  refl offer := or_self_iff.mp (offerLe_total offer offer)
  antisymm first second low high := by
    have same := textLe_antisymm (offerLe_key low) (offerLe_key high)
    rw [offerLe_value same] at low
    rw [offerLe_value same.symm] at high
    exact Prod.ext same (textLe_antisymm low high)
  between first second third low high ends :=
    textLe_antisymm (ends ▸ offerLe_key high) (offerLe_key low)

/-- Whether a reference is offered at all: it goes on from what is typed and cannot move the cursor. -/
def Typed (start value : Text) : Prop := start.isPrefixOf value = true ∧ value.any isControl = false

theorem mem_offers {records : List (Text × Text)} {start : Text} {allowCurrent : Bool} {offer : Offer} :
    offer ∈ offers records start allowCurrent ↔ Typed start offer.1 ∧ offer ∈ values records allowCurrent ∧
      ∀ other ∈ values records allowCurrent, other.1 = offer.1 → textLe offer.2 other.2 = true := by
  unfold offers Typed
  rw [List.mem_filter, mem_dedup_sort offers_gathered offerLe_total fun _ _ _ => offerLe_trans]
  rw [Bool.and_eq_true, Bool.not_eq_true', and_comm]
  unfold Least
  refine and_congr_right fun _ => and_congr_right fun _ => ?_
  constructor
  · intro least other listed same
    rw [← offerLe_value same.symm]
    exact least other listed same
  · intro least other listed same
    rw [offerLe_value same.symm]
    exact least other listed same

/-! What the resolver does with a reference. -/

section Boxes

variable {boxes : List BoxRecord} {box : BoxRecord}

theorem filter_single {Entry : Type} {entries : List Entry} (distinct : entries.Nodup) (keep : Entry → Bool)
    (entry : Entry) :
    entries.filter keep = [entry] ↔ entry ∈ entries ∧ keep entry = true ∧
      ∀ other ∈ entries, keep other = true → other = entry := by
  constructor
  · intro one
    have member : entry ∈ entries.filter keep := by
      rw [one]
      exact List.mem_singleton_self _
    refine ⟨(List.mem_filter.mp member).1, (List.mem_filter.mp member).2, fun other listed matched => ?_⟩
    have found := List.mem_filter.mpr ⟨listed, matched⟩
    rw [one] at found
    exact List.mem_singleton.mp found
  · intro exact
    obtain ⟨member, matched, only⟩ := exact
    apply List.perm_singleton.mp
    rw [List.perm_ext_iff_of_nodup (distinct.filter _) (List.nodup_singleton entry)]
    intro other
    rw [List.mem_filter, List.mem_singleton]
    constructor
    · exact fun found => only other found.1 found.2
    · intro same
      subst same
      exact ⟨member, matched⟩

theorem select_iff (distinct : boxes.Nodup) (reference : Text) :
    selectBoxReference boxes reference = .ok box ↔
      box ∈ boxes ∧ matching reference box = true ∧
        ∀ other ∈ boxes, matching reference other = true → other = box := by
  rw [← filter_single distinct]
  unfold selectBoxReference
  split
  next none => simp [none]
  next found one => simp [one]
  next found _ many =>
    constructor
    · intro ok
      cases ok
    · exact fun one => absurd one (many box)

/-- No identifier is the keyword. -/
theorem id_not_current (id : PboxId) : isCurrentBoxReference id.value = false := by
  obtain ⟨suffix, same⟩ := List.isPrefixOf_iff_prefix.mp id.accepted.starts
  rw [← same]
  rfl

theorem parse_id (id : PboxId) : PboxId.parse id.value = .ok id := (parse_ok_iff _ _).mpr rfl

theorem matching_id (id : PboxId) (other : BoxRecord) : matching id.value other = (other.id == id) := by
  unfold matching
  rw [id_not_current, parse_id]
  rfl

theorem matching_current {reference : Text} (current : isCurrentBoxReference reference = true) (other : BoxRecord) :
    matching reference other = true := by
  unfold matching
  rw [current]
  rfl

theorem matching_name {reference : Text} (current : isCurrentBoxReference reference = false)
    (refused : ∀ id, PboxId.parse reference ≠ .ok id) (other : BoxRecord) :
    matching reference other = (other.name == some reference) := by
  unfold matching
  rw [current]
  cases parsed : PboxId.parse reference with
  | ok id => exact absurd parsed (refused id)
  | error e => rfl

/-- Whether one of the offers is made for the box. -/
def Describes (boxes : List BoxRecord) (offer : Offer) (box : BoxRecord) : Prop :=
  box ∈ boxes ∧ (offer ∈ pushed (cachedRecords boxes) (box.id.value, box.name.getD []) ∨
    boxes = [box] ∧ offer = (CURRENT, box.id.value))

theorem values_described (boxes : List BoxRecord) (offer : Offer) :
    offer ∈ values (cachedRecords boxes) true ↔ ∃ box, Describes boxes offer box := by
  unfold values cachedRecords
  rw [List.mem_append, List.mem_flatMap]
  constructor
  · intro listed
    rcases listed with current | ⟨record, member, listed⟩
    · match boxes, current with
      | [box], current => exact ⟨box, List.mem_singleton_self _, .inr ⟨rfl, List.mem_singleton.mp current⟩⟩
    · obtain ⟨box, found, same⟩ := List.mem_map.mp member
      exact ⟨box, found, .inl (same ▸ listed)⟩
  · intro described
    obtain ⟨box, member, listed | ⟨single, current⟩⟩ := described
    · exact .inr ⟨_, List.mem_map.mpr ⟨box, member, rfl⟩, listed⟩
    · subst single current
      exact .inl (List.mem_singleton_self _)

/-- A name that belongs to one box only. -/
def Sole (boxes : List BoxRecord) (name : Text) : Prop := named (cachedRecords boxes) name = 1

theorem sole_iff (distinct : boxes.Nodup) {name : Text} (nonempty : name ≠ []) (member : box ∈ boxes)
    (own : box.name = some name) : Sole boxes name ↔ ∀ other ∈ boxes, other.name = some name → other = box := by
  have called : ∀ other : BoxRecord, (other.name.getD [] == name) = true ↔ other.name = some name := by
    intro other
    rw [beq_iff_eq]
    cases other.name with
    | none => exact iff_of_false (fun empty => nonempty empty.symm) (fun some => nomatch some)
    | some given => exact (Option.some_inj).symm
  have count : named (cachedRecords boxes) name = (boxes.filter fun other => other.name.getD [] == name).length := by
    unfold named cachedRecords
    rw [List.countP_map, List.countP_eq_length_filter]
    rfl
  have single := filter_single distinct (fun other => other.name.getD [] == name)
  unfold Sole
  rw [count, List.length_eq_one_iff]
  constructor
  · intro one other listed same
    obtain ⟨kept, one⟩ := one
    obtain ⟨_, _, only⟩ := (single kept).mp one
    rw [only other listed ((called other).mpr same), only box member ((called box).mpr own)]
  · intro only
    exact ⟨box, (single box).mpr ⟨member, (called box).mpr own, fun other listed same => only other listed
      ((called other).mp same)⟩⟩

/-- When a completed name is taken for something else: for the keyword, where there are several boxes, or for an
identifier that is not the box's own and is not offered for another box first. -/
def Misread (boxes : List BoxRecord) (start : Text) (box : BoxRecord) : Prop :=
  ∃ name, box.name = some name ∧ name ≠ [] ∧ Sole boxes name ∧ Typed start name ∧
    ((isCurrentBoxReference name = true ∧ 2 ≤ boxes.length) ∨
      ∃ id, PboxId.parse name = .ok id ∧ id ≠ box.id ∧
        ∀ other ∈ boxes, other.id = id → textLe box.id.value (other.name.getD []) = true)

theorem mem_pushed {records : List (Text × Text)} {record : Text × Text} {offer : Offer} :
    offer ∈ pushed records record ↔
      offer = record ∨ (record.2 ≠ [] ∧ named records record.2 = 1) ∧ offer = (record.2, record.1) := by
  unfold pushed
  rw [List.mem_cons]
  refine or_congr_right ?_
  split
  next sole => exact List.mem_singleton.trans ⟨fun same => ⟨sole, same⟩, fun same => same.2⟩
  next not => exact iff_of_false (fun member => nomatch member) (fun sole => not sole.1)

theorem eq_of_id (distinct : (boxes.map BoxRecord.id).Nodup) {other : BoxRecord} (member : box ∈ boxes)
    (listed : other ∈ boxes) (same : other.id = box.id) : other = box :=
  List.inj_on_of_nodup_map distinct listed member same

theorem select_id (distinct : (boxes.map BoxRecord.id).Nodup) (member : box ∈ boxes) :
    selectBoxReference boxes box.id.value = .ok box := by
  rw [select_iff (List.Nodup.of_map _ distinct)]
  refine ⟨member, ?_, fun other listed matched => ?_⟩
  · rw [matching_id, beq_self_eq_true]
  · rw [matching_id, beq_iff_eq] at matched
    exact eq_of_id distinct member listed matched

theorem select_current {reference : Text} (current : isCurrentBoxReference reference = true) (member : box ∈ boxes)
    (distinct : boxes.Nodup) : selectBoxReference boxes reference = .ok box ↔ boxes.length < 2 := by
  rw [select_iff distinct]
  constructor
  · intro selected
    obtain ⟨_, _, only⟩ := selected
    match boxes, distinct, only with
    | [], _, _ => exact Nat.zero_lt_succ _
    | [_], _, _ => exact Nat.lt_succ_self _
    | first :: second :: rest, distinct, only =>
      have left := only first List.mem_cons_self (matching_current current first)
      have right := only second (List.mem_cons_of_mem _ List.mem_cons_self) (matching_current current second)
      obtain ⟨apart, _⟩ := List.nodup_cons.mp distinct
      exact absurd (left.trans right.symm ▸ List.mem_cons_self) apart
  · intro few
    refine ⟨member, matching_current current box, fun other listed _ => ?_⟩
    match boxes, few, member, listed with
    | [_], _, member, listed => rw [List.mem_singleton.mp member, List.mem_singleton.mp listed]

/-- A name that is nobody else's is taken for the box, unless the keyword or an identifier comes before. -/
theorem select_name (distinct : (boxes.map BoxRecord.id).Nodup) {name : Text} (member : box ∈ boxes)
    (own : box.name = some name) (nonempty : name ≠ []) (sole : Sole boxes name) :
    selectBoxReference boxes name = .ok box ↔
      ¬(isCurrentBoxReference name = true ∧ 2 ≤ boxes.length) ∧
        ∀ id, PboxId.parse name = .ok id → id = box.id := by
  have apart := List.Nodup.of_map _ distinct
  cases current : isCurrentBoxReference name with
  | true =>
    rw [select_current current member apart]
    constructor
    · refine fun few => ⟨fun many => ?_, fun id parsed => ?_⟩
      · omega
      · rw [← (parse_ok_iff _ _).mp parsed, id_not_current] at current
        cases current
    · intro few
      by_contra many
      exact few.1 ⟨rfl, by omega⟩
  | false =>
    have keyword : ¬(false = true ∧ 2 ≤ boxes.length) := fun many => nomatch many.1
    rw [select_iff apart, and_iff_right keyword]
    by_cases refused : ∀ id, PboxId.parse name ≠ .ok id
    · refine iff_of_true ⟨member, ?_, fun other listed matched => ?_⟩ fun id parsed => absurd parsed (refused id)
      · rw [matching_name current refused, own, beq_self_eq_true]
      · rw [matching_name current refused, beq_iff_eq] at matched
        exact (sole_iff apart nonempty member own).mp sole other listed matched
    · obtain ⟨id, parsed⟩ := not_forall_not.mp refused
      have value := (parse_ok_iff _ _).mp parsed
      subst value
      constructor
      · intro selected other again
        cases again.symm.trans parsed
        exact (beq_iff_eq.mp ((matching_id _ _).symm.trans selected.2.1)).symm
      · intro same
        have equal := same id parsed
        subst equal
        exact (select_iff apart _).mp (select_id distinct member)

/-- The completion offers a box under a reference that the resolver takes for that box, for every box that the offer is
made for, exactly if no name is misread. -/
theorem candidates_resolve_iff (distinct : (boxes.map BoxRecord.id).Nodup) (start : Text) :
    (∀ offer ∈ offers (cachedRecords boxes) start true, ∀ box, Describes boxes offer box →
      selectBoxReference boxes offer.1 = .ok box) ↔
    ∀ box ∈ boxes, ¬Misread boxes start box := by
  have apart := List.Nodup.of_map _ distinct
  constructor
  · intro resolves box member misread
    obtain ⟨name, own, nonempty, sole, typed, wrong⟩ := misread
    have described : Describes boxes (name, box.id.value) box := by
      refine ⟨member, .inl (mem_pushed.mpr (.inr ?_))⟩
      rw [own]
      exact ⟨⟨nonempty, sole⟩, rfl⟩
    have offered : (name, box.id.value) ∈ offers (cachedRecords boxes) start true := by
      refine mem_offers.mpr ⟨typed, (values_described _ _).mpr ⟨box, described⟩, fun other listed same => ?_⟩
      obtain ⟨found, present, made⟩ := (values_described _ _).mp listed
      have own_least := or_self_iff.mp (textLe_total box.id.value box.id.value)
      rcases made with made | ⟨single, made⟩
      · rcases mem_pushed.mp made with rfl | ⟨⟨filled, _⟩, rfl⟩
        · rcases wrong with ⟨current, _⟩ | ⟨id, parsed, _, least⟩
          · rw [← show found.id.value = name from same, id_not_current] at current
            cases current
          · rw [← show found.id.value = name from same, parse_id] at parsed
            exact least found present (Except.ok.inj parsed)
        · have called : found.name = some name := by
            change found.name.getD [] = name at same
            cases given : found.name with
            | none => exact absurd (by rw [given]; rfl) filled
            | some value => rw [given] at same; exact congrArg _ same
          rw [(sole_iff apart nonempty member own).mp sole found present called]
          exact own_least
      · subst single made
        rw [List.mem_singleton.mp member] at own_least ⊢
        exact own_least
    have selected := (select_name distinct member own nonempty sole).mp (resolves _ offered box described)
    rcases wrong with keyword | ⟨id, parsed, other, _⟩
    · exact selected.1 keyword
    · exact other (selected.2 id parsed)
  · intro fine offer offered box described
    obtain ⟨typed, _, least⟩ := mem_offers.mp offered
    obtain ⟨member, made⟩ := described
    rcases made with made | ⟨single, rfl⟩
    · rcases mem_pushed.mp made with rfl | ⟨⟨nonempty, sole⟩, rfl⟩
      · exact select_id distinct member
      · cases own : box.name with
        | none => exact absurd (by rw [own]; rfl) nonempty
        | some name =>
          rw [own] at nonempty sole typed least
          apply (select_name distinct member own nonempty sole).mpr
          have misread := fun wrong => fine box member ⟨name, own, nonempty, sole, typed, wrong⟩
          refine ⟨fun keyword => misread (.inl keyword), fun id parsed => ?_⟩
          by_contra other
          refine misread (.inr ⟨id, parsed, other, fun found present same => ?_⟩)
          refine least (found.id.value, found.name.getD []) ?_ ?_
          · exact (values_described _ _).mpr ⟨found, present, .inl (mem_pushed.mpr (.inl rfl))⟩
          · exact same ▸ (parse_ok_iff _ _).mp parsed
    · subst single
      exact (select_current rfl (List.mem_singleton_self _) (List.nodup_singleton _)).mpr (Nat.lt_succ_self _)

end Boxes

def firstId : PboxId := ⟨"pbx_12345678".toList, by decide, by decide, List.all_eq_true.mp (by decide)⟩
def secondId : PboxId := ⟨"pbx_abcdefgh".toList, by decide, by decide, List.all_eq_true.mp (by decide)⟩

def boxNamed (id : PboxId) (name : Text) : BoxRecord :=
  ⟨id, none, 9000, "running".toList, "pve".toList, none, none, some name, [], []⟩

/-- Two boxes, of which one is called by the keyword. -/
def keywordBoxes : List BoxRecord := [boxNamed firstId "Current".toList, boxNamed secondId "work".toList]

theorem keyword_name_offered :
    ∃ boxes : List BoxRecord, (boxes.map BoxRecord.id).Nodup ∧
      ∃ offer ∈ offers (cachedRecords boxes) [] true, ∃ box, Describes boxes offer box ∧
        selectBoxReference boxes offer.1 ≠ .ok box := by
  refine ⟨keywordBoxes, by decide, ("Current".toList, firstId.value), by decide, boxNamed firstId "Current".toList,
    ?_, ?_⟩
  · exact ⟨List.mem_cons_self, .inl (by decide)⟩
  · intro selected
    cases selected

/-- Two boxes with names of their own. -/
def plainBoxes : List BoxRecord := [boxNamed firstId "editor".toList, boxNamed secondId "work".toList]

theorem plain_boxes_resolve :
    (∀ offer ∈ offers (cachedRecords plainBoxes) [] true, ∀ box, Describes plainBoxes offer box →
      selectBoxReference plainBoxes offer.1 = .ok box) ↔
    ∀ box ∈ plainBoxes, ¬Misread plainBoxes [] box :=
  candidates_resolve_iff (by decide) []

end Pbox.Cli.Completions
