import Pbox.Lib.Lines
import Pbox.Lib.Transition
import Pbox.Cli.Provenance

/-! Several clients that record provenance, and the end of a clone, writing to the notes of one
container. Every update goes under the digest of the configuration it was made from, so that an
update that PVE accepts is a change of the notes as they are. -/

namespace Pbox.Cli.ProvenanceRace
open Pbox.Lib.Strings Pbox.Lib.Lines Pbox.Lib.Upsert Pbox.Lib.ErrorChain Pbox.Lib.Transition
open Pbox.Core.Metadata Pbox.Core.MetadataRoundTrip Pbox.Cli.RecipeApply Pbox.Cli.Provenance

def CLONE_MARKER : Text := "pbox-clone-v1 ".toList

def isClone (line : Text) : Bool := CLONE_MARKER.isPrefixOf line

/-- The notes that `finalize` writes over those it has read: without the lines of the clone. -/
def withoutClone (description : Option Text) : Text :=
  join ((lines (description.getD [])).filter fun line => !isClone line)

/-- Lines up to their endings, without clone lines. -/
def plain (pieces : List Text) : List Text := (pieces.map bare).filter fun line => !isClone line

/-- The same without blank lines at the end. -/
def tidy (pieces : List Text) : List Text := (plain pieces).rdropWhile (· = [])

/-- The user's text: what stands outside the markers, line endings aside. -/
def userLines (markdown : Text) : List Text :=
  match markerSpans markdown with
  | .ok spans => tidy (segments (outside markdown spans))
  | .error _ => []

section Notes
variable {codec : Codec}

/-- A piece of a line that no marker begins in. -/
def Clear (piece : Text) : Prop := '\n' ∉ piece ∧ ¬MARKER_PREFIX <:+: piece

/-- Notes with one marker, as it is written, on a line that is not one of the clone's. -/
structure Noted (codec : Codec) (markdown : Text) (metadata : PboxMetadata) (above : List Text)
    (left right : Text) (below : List Text) : Prop where
  shape : ∃ bytes, codec.toVec metadata = .ok bytes ∧
    markdown = join (above ++ (left ++ (markerOf (codec.encode bytes) ++ right)) :: below)
  clearAbove : ∀ piece ∈ above, Clear piece
  clearLeft : Clear left
  clearRight : Clear right
  clearBelow : ∀ piece ∈ below, Clear piece
  own : isClone left = false

theorem prefix_free : '\n' ∉ MARKER_PREFIX := by decide

theorem join_clear {pieces : List Text} (clear : ∀ piece ∈ pieces, Clear piece) : ¬MARKER_PREFIX <:+: join pieces := by
  intro occurs
  obtain ⟨piece, member, inside⟩ := infix_join (by decide) prefix_free occurs
  exact (clear piece member).2 inside

theorem marker_free (lawful : codec.Lawful) (bytes : List UInt8) : '\n' ∉ markerOf (codec.encode bytes) := by
  intro member
  rcases List.mem_append.mp member with body | suffix
  · rcases List.mem_append.mp body with front | back
    · rcases List.mem_append.mp front with start | rest
      · exact prefix_free start
      · rcases List.mem_cons.mp rest with space | inside
        · exact absurd space (by decide)
        · have plain := (urlSafe_plain (lawful.alphabet bytes _ inside)).2
          revert plain
          decide
    · revert back
      decide
  · revert suffix
    decide

variable {markdown : Text} {metadata : PboxMetadata} {above below : List Text} {left right : Text}

theorem join_around (above : List Text) (left middle right : Text) (below : List Text) :
    join (above ++ (left ++ (middle ++ right)) :: below) =
      join (above ++ [left]) ++ (middle ++ join (right :: below)) := by
  rw [join_middle]
  congr 1
  cases below <;> simp [join]

/-- The text before the marker, the marker and the text after it. -/
theorem Noted.split (noted : Noted codec markdown metadata above left right below) :
    ∃ bytes, codec.toVec metadata = .ok bytes ∧
      markdown = join (above ++ [left]) ++ (markerOf (codec.encode bytes) ++ join (right :: below)) := by
  obtain ⟨bytes, serialised, rfl⟩ := noted.shape
  exact ⟨bytes, serialised, join_around ..⟩

theorem Noted.clear_before (noted : Noted codec markdown metadata above left right below) :
    ¬MARKER_PREFIX <:+: join (above ++ [left]) := by
  refine join_clear fun piece member => ?_
  rcases List.mem_append.mp member with inside | same
  · exact noted.clearAbove piece inside
  · rw [List.mem_singleton.mp same]
    exact noted.clearLeft

theorem Noted.clear_after (noted : Noted codec markdown metadata above left right below) :
    ¬MARKER_PREFIX <:+: join (right :: below) := by
  refine join_clear fun piece member => ?_
  rcases List.mem_cons.mp member with rfl | inside
  · exact noted.clearRight
  · exact noted.clearBelow piece inside

theorem Noted.parse (lawful : codec.Lawful) (noted : Noted codec markdown metadata above left right below) :
    parseMetadata codec markdown = .ok (some metadata) := by
  obtain ⟨bytes, serialised, rfl⟩ := noted.split
  exact (parse_marker_iff (lawful.alphabet bytes) _ noted.clear_before (lawful.base64 _ _ serialised)
    (lawful.json _ _ serialised)).mpr noted.clear_after

/-- The one span of such notes, with what is outside it. -/
theorem Noted.spans (lawful : codec.Lawful) (noted : Noted codec markdown metadata above left right below) :
    ∃ span, markerSpans markdown = .ok [span] ∧ markdown.take span.1 = join (above ++ [left]) ∧
      markdown.drop span.2 = join (right :: below) ∧
      outside markdown [span] = join (above ++ [left]) ++ join (right :: below) := by
  obtain ⟨bytes, serialised, rfl⟩ := noted.split
  let before := join (above ++ [left])
  let marker := markerOf (codec.encode bytes)
  refine ⟨(before.length, (before ++ marker).length), ?_, List.take_left, ?_, outside_marker _ _⟩
  · rw [spans_of_marker (lawful.alphabet bytes) noted.clear_before]
    have rest := (spans_nil_iff (before ++ (marker ++ join (right :: below))) (before ++ marker).length).mpr (by
      rw [← List.append_assoc, List.drop_left]
      exact noted.clear_after)
    rw [rest]
    rfl
  · rw [← List.append_assoc, List.drop_left]

theorem Noted.userLines_eq (lawful : codec.Lawful) (noted : Noted codec markdown metadata above left right below) :
    userLines markdown = tidy (above ++ (left ++ right) :: below) := by
  obtain ⟨span, located, _, _, out⟩ := noted.spans lawful
  unfold userLines
  rw [located]
  simp only [out, ← join_middle]
  rw [segments_join (by simp)]
  intro piece member
  rcases List.mem_append.mp member with inside | rest
  · exact (noted.clearAbove piece inside).1
  · rcases List.mem_cons.mp rest with rfl | inside
    · rintro feed
      rcases List.mem_append.mp feed with early | late
      · exact noted.clearLeft.1 early
      · exact noted.clearRight.1 late
    · exact (noted.clearBelow piece inside).1

/-- A record changes the marker and nothing around it. -/
theorem Noted.recorded (lawful : codec.Lawful) (noted : Noted codec markdown metadata above left right below)
    {box : BoxRecord} {provenance : PboxRecipeProvenance} {capabilities : List Text} {result output : Text}
    (updated : updatedDescription codec box provenance capabilities result (some markdown) = .ok output) :
    Noted codec output (recorded metadata provenance capabilities result) above left right below := by
  unfold updatedDescription at updated
  simp only [Option.getD_some, noted.parse lawful] at updated
  split at updated
  · cases updated
  cases written : preserveMetadata codec markdown (Provenance.recorded metadata provenance capabilities result) with
  | error error =>
    rw [written] at updated
    cases updated
  | ok text =>
    rw [written] at updated
    cases updated
    unfold preserveMetadata at written
    cases serialised : codec.toVec (Provenance.recorded metadata provenance capabilities result) with
    | error error =>
      rw [encodeMetadata, serialised] at written
      cases written
    | ok bytes =>
      obtain ⟨span, located, taken, dropped, _⟩ := noted.spans lawful
      rw [encodeMetadata_ok serialised, located] at written
      simp only [replaceSpans_true, Except.ok.injEq] at written
      refine ⟨⟨bytes, serialised, ?_⟩, noted.clearAbove, noted.clearLeft, noted.clearRight, noted.clearBelow,
        noted.own⟩
      rw [join_around, ← taken, ← dropped, ← written]
      simp [outsideFrom]

theorem Clear.of_starts {piece line : Text} (clear : Clear piece) (starts : line <+: piece) : Clear line :=
  ⟨fun feed => clear.1 (starts.subset feed), fun occurs => clear.2 (occurs.trans starts.isInfix)⟩

theorem isClone_iff (line : Text) : isClone line = true ↔ CLONE_MARKER <+: line := List.isPrefixOf_iff_prefix

/-- Whether a line is one of the clone's is seen before its ending. -/
theorem isClone_bare (line : Text) : isClone (bare line) = isClone line := by
  induction line using List.reverseRecOn with
  | nil => rfl
  | append_singleton front c ih =>
    by_cases returned : c = '\r'
    · have shorter : bare (front ++ [c]) = bare front := List.rdropWhile_concat_pos _ _ _ (by simpa using returned)
      rw [shorter, ih, Bool.eq_iff_iff, isClone_iff, isClone_iff, List.prefix_concat_iff]
      refine ⟨Or.inr, fun starts => starts.resolve_left fun same => ?_⟩
      have inside : '\r' ∈ CLONE_MARKER := same ▸ returned ▸ List.mem_append_right _ (List.mem_singleton_self c)
      revert inside
      decide
    · have same : bare (front ++ [c]) = front ++ [c] := List.rdropWhile_concat_neg _ _ _ (by simpa using returned)
      rw [same]

/-- A line is not made one of the clone's by what follows its beginning. -/
theorem isClone_append {left : Text} (own : isClone left = false) (rest : Text) :
    isClone (left ++ '<' :: rest) = false := by
  rw [Bool.eq_false_iff, ne_eq, isClone_iff] at own ⊢
  intro starts
  rcases List.prefix_or_prefix_of_prefix starts (List.prefix_append left _) with inside | ⟨more, same⟩
  · exact own inside
  · cases more with
    | nil =>
      rw [List.append_nil] at same
      exact own (same ▸ List.prefix_refl _)
    | cons c more =>
      rw [← same] at starts
      have angle : c = '<' := (List.cons_prefix_cons.mp ((List.prefix_append_right_inj left).mp starts)).1
      have inside : '<' ∈ CLONE_MARKER := same ▸ angle ▸ List.mem_append_right _ List.mem_cons_self
      revert inside
      decide

/-- What the reader of lines makes of the notes around the marker. -/
theorem readLines_around {middle : Text} {last : Char} (ends : middle.getLast? = some last) (solid : last ≠ '\r')
    (above : List Text) (left right : Text) (below : List Text) :
    ∃ rightRead, rightRead <+: right ∧ bare (left ++ rightRead) = bare (left ++ right) ∧
      readLines (above ++ (left ++ (middle ++ right)) :: below) =
        above.map stripReturn ++ (left ++ (middle ++ rightRead)) :: readLines below := by
  rw [readLines_append (List.cons_ne_nil _ _)]
  have nonempty : middle ≠ [] := by
    rintro rfl
    cases ends
  cases below with
  | nil =>
    exact ⟨right, List.prefix_refl _, rfl, by simp [readLines, nonempty]⟩
  | cons next rest =>
    refine ⟨stripReturn right, stripReturn_starts right, ?_, ?_⟩
    · by_cases empty : right = []
      · rw [empty]
        rfl
      · rw [← stripReturn_append left empty, bare_stripReturn]
    · rw [readLines]
      congr 2
      by_cases empty : right = []
      · rw [empty, List.append_nil, stripReturn_append left nonempty]
        simp [stripReturn, ends, solid]
      · rw [stripReturn_append left (by simp [nonempty]), stripReturn_append middle empty]

theorem plain_append (first second : List Text) : plain (first ++ second) = plain first ++ plain second := by
  simp [plain]

theorem plain_cons (line : Text) (rest : List Text) : plain (line :: rest) = plain [line] ++ plain rest :=
  plain_append [line] rest

theorem plain_filter (pieces : List Text) : plain (pieces.filter fun line => !isClone line) = plain pieces := by
  unfold plain
  induction pieces with
  | nil => rfl
  | cons line rest ih =>
    by_cases clone : isClone line = true
    · simpa [clone, isClone_bare] using ih
    · simpa [clone, isClone_bare] using ih

theorem plain_stripReturn (pieces : List Text) : plain (pieces.map stripReturn) = plain pieces := by
  simp [plain, List.map_map, Function.comp_def, bare_stripReturn]

theorem plain_readLines (pieces : List Text) :
    plain pieces = plain (readLines pieces) ∨ plain pieces = plain (readLines pieces) ++ [[]] := by
  obtain ⟨blank, rfl | rfl, same⟩ := bare_readLines pieces
  · exact Or.inl (by simp [plain, same])
  · refine Or.inr ?_
    rw [plain, same, List.filter_append]
    rfl

/-- The line of the marker is not one of the clone's. -/
theorem isClone_marker {left : Text} (own : isClone left = false) (payload right : Text) :
    isClone (left ++ (markerOf payload ++ right)) = false :=
  isClone_append own _

/-- Dropping the clone's lines keeps the marker, its line and the user's text. -/
theorem Noted.withoutClone (lawful : codec.Lawful) (noted : Noted codec markdown metadata above left right below) :
    ∃ above' right' below',
      Noted codec (withoutClone (some markdown)) metadata above' left right' below' ∧
        userLines (ProvenanceRace.withoutClone (some markdown)) = userLines markdown := by
  obtain ⟨bytes, serialised, shape⟩ := noted.shape
  obtain ⟨right', shorter, sameLine, read⟩ := readLines_around
    (show (markerOf (codec.encode bytes)).getLast? = some '>' by simp [markerOf, suffix_shape.1]) (by decide)
    above left right below
  have free : ∀ piece ∈ above ++ (left ++ (markerOf (codec.encode bytes) ++ right)) :: below, '\n' ∉ piece := by
    intro piece member
    rcases List.mem_append.mp member with inside | rest
    · exact (noted.clearAbove piece inside).1
    · rcases List.mem_cons.mp rest with rfl | inside
      · simp only [List.mem_append, not_or]
        exact ⟨noted.clearLeft.1, marker_free lawful bytes, noted.clearRight.1⟩
      · exact (noted.clearBelow piece inside).1
  let above' := (above.map stripReturn).filter fun line => !isClone line
  let below' := (readLines below).filter fun line => !isClone line
  have written : ProvenanceRace.withoutClone (some markdown) =
      join (above' ++ (left ++ (markerOf (codec.encode bytes) ++ right')) :: below') := by
    unfold ProvenanceRace.withoutClone lines
    rw [Option.getD_some, shape, segments_join (by simp) free, read, List.filter_append,
      List.filter_cons_of_pos (by simp [isClone_marker noted.own])]
  have noted' : Noted codec (ProvenanceRace.withoutClone (some markdown)) metadata above' left right' below' := by
    refine ⟨⟨bytes, serialised, written⟩, fun piece member => ?_, noted.clearLeft, noted.clearRight.of_starts shorter,
      fun piece member => ?_, noted.own⟩
    · obtain ⟨line, inside, rfl⟩ := List.mem_map.mp (List.mem_filter.mp member).1
      exact (noted.clearAbove line inside).of_starts (stripReturn_starts line)
    · obtain ⟨line, inside, starts⟩ := readLines_mem (List.mem_filter.mp member).1
      exact (noted.clearBelow line inside).of_starts starts
  refine ⟨above', right', below', noted', ?_⟩
  rw [noted'.userLines_eq lawful, noted.userLines_eq lawful]
  have marked : plain [left ++ right'] = plain [left ++ right] := by simp [plain, sameLine]
  unfold tidy
  rw [plain_append, plain_cons, plain_append above, plain_cons (left ++ right), plain_filter, plain_stripReturn,
    plain_filter, marked]
  rcases plain_readLines below with same | same
  · rw [same]
  · rw [same]
    simp only [← List.append_assoc]
    exact (List.rdropWhile_concat_pos _ _ _ (by decide)).symm

theorem mem_recorded_other {entry provenance : PboxRecipeProvenance} {capabilities : List Text} {result : Text}
    (other : entry.id ≠ provenance.id) (member : entry ∈ metadata.recipes) :
    entry ∈ (recorded metadata provenance capabilities result).recipes :=
  (List.mem_insertionSort _).mpr (mem_upsert_other other member)

theorem mem_recorded_self (provenance : PboxRecipeProvenance) (capabilities : List Text) (result : Text) :
    provenance ∈ (recorded metadata provenance capabilities result).recipes :=
  (List.mem_insertionSort _).mpr (mem_upsert_self provenance _)

theorem mem_addCapabilities {present capabilities : List Text} {capability : Text} :
    capability ∈ addCapabilities present capabilities ↔ capability ∈ present ∨ capability ∈ capabilities := by
  induction capabilities generalizing present with
  | nil => simp [addCapabilities]
  | cons first rest ih =>
    have step : addCapabilities present (first :: rest) =
        addCapabilities (if first ∈ present then present else present ++ [first]) rest := rfl
    rw [step, ih]
    split
    next held =>
      constructor
      · rintro (old | later)
        · exact Or.inl old
        · exact Or.inr (List.mem_cons_of_mem _ later)
      · rintro (old | new)
        · exact Or.inl old
        · rcases List.mem_cons.mp new with rfl | later
          · exact Or.inl held
          · exact Or.inr later
    next => simp [or_assoc]

theorem capabilities_recorded {provenance : PboxRecipeProvenance} {capabilities : List Text} {result capability : Text}
    (member : capability ∈ metadata.capabilities) :
    capability ∈ (recorded metadata provenance capabilities result).capabilities := by
  refine (List.mem_insertionSort _).mpr ?_
  split
  · exact mem_addCapabilities.mpr (Or.inl member)
  · exact member

theorem capabilities_added {provenance : PboxRecipeProvenance} {capabilities : List Text} {capability : Text}
    (member : capability ∈ capabilities) :
    capability ∈ (recorded metadata provenance capabilities SUCCESS).capabilities := by
  refine (List.mem_insertionSort _).mpr ?_
  rw [if_pos rfl]
  exact mem_addCapabilities.mpr (Or.inr member)

end Notes

/-- The keys of the configuration that these calls leave alone are one number. -/
structure Config where
  description : Option Text
  rest : Nat
  deriving DecidableEq

inductive Call where
  | record (box : BoxRecord) (provenance : PboxRecipeProvenance) (capabilities : List Text) (result : Text)
  | finalize

/-- The recipe whose entry the call replaces. -/
def Call.recipe : Call → Option Text
  | .record _ provenance _ _ => some provenance.id
  | .finalize => none

def Call.attempts : Call → Nat
  | .record .. => 3
  | .finalize => 1

/-- The notes that the call writes over those it has read. -/
def Call.update (codec : Codec) (description : Option Text) : Call → Except (Chain Empty) Text
  | .record box provenance capabilities result =>
    updatedDescription codec box provenance capabilities result description
  | .finalize => .ok (withoutClone description)

/-- An attempt in progress carries the number of attempts after it. -/
inductive Pc where
  | reading (left : Nat)
  | writing (left : Nat)
  | answered (left : Nat) (accepted : Bool)
  | returned
  | failed
  deriving DecidableEq

structure Request where
  call : Nat
  left : Nat
  digest : Text
  description : Text

/-- `requests` are the updates that PVE has not taken up yet, if it ever does. `log` records the calls
whose updates it has accepted, the last first; no step reads it. -/
structure Race where
  config : Config
  pcs : Nat → Pc
  requests : List Request
  log : List Nat

inductive Action where
  | reads (call : Nat)
  | fails (call : Nat)
  | arrives (request : Nat)
  | replies (call : Nat)
  | touches (rest : Nat)

section System
variable (codec : Codec) (digest : Config → Text) (calls : Nat → Call)

def again : Nat → Pc
  | 0 => .failed
  | left + 1 => .reading (left + 1)

def Race.set (s : Race) (call : Nat) (pc : Pc) : Race :=
  { s with pcs := fun other => if other = call then pc else s.pcs other }

/-- PVE takes up an update: it accepts it under the current digest only. -/
def arrive (s : Race) (request : Request) : Race :=
  let accepted := request.digest == digest s.config
  let answered := if s.pcs request.call = .writing request.left then
    s.set request.call (.answered request.left accepted) else s
  if accepted then
    { answered with
      config := { s.config with description := some request.description }
      log := request.call :: s.log }
  else answered

def step (s : Race) : Action → Option Race
  | .reads call =>
    match s.pcs call with
    | .reading (left + 1) =>
      match (calls call).update codec s.config.description with
      | .error _ => some (s.set call .failed)
      | .ok description =>
        some { s.set call (.writing left) with
          requests := s.requests ++ [⟨call, left, digest s.config, description⟩] }
    | _ => none
  -- a call to PVE without a reply, or with an error: the update may have been accepted all the same
  | .fails call =>
    match s.pcs call with
    | .reading (left + 1) => some (s.set call (again left))
    | .writing left => some (s.set call (again left))
    | .answered left _ => some (s.set call (again left))
    | _ => none
  | .arrives place =>
    match s.requests[place]? with
    | some request => some (arrive digest { s with requests := s.requests.eraseIdx place } request)
    | none => none
  | .replies call =>
    match s.pcs call with
    | .answered _ true => some (s.set call .returned)
    | .answered left false => some (s.set call (again left))
    | _ => none
  | .touches rest => some { s with config := { s.config with rest := rest } }

/-- The notes hold one marker as pbox writes it, with any text of the user around it. -/
def Started (s : Race) : Prop :=
  (∃ markdown metadata above left right below, s.config.description = some markdown ∧
    Noted codec markdown metadata above left right below) ∧
  (∀ call, s.pcs call = .reading (calls call).attempts) ∧ s.requests = [] ∧ s.log = []

def system : System Race Action where
  init := Started codec calls
  step := step codec digest calls

variable {codec digest calls}

/-- What holds of an accepted update, between the notes before and after it. -/
def Preserves (codec : Codec) (updated : Option Text) (before after : Option Text) : Prop :=
  ∃ metadata metadata', parseMetadata codec (before.getD []) = .ok (some metadata) ∧
    parseMetadata codec (after.getD []) = .ok (some metadata') ∧
    (∀ entry ∈ metadata.recipes, updated ≠ some entry.id → entry ∈ metadata'.recipes) ∧
    (∀ capability ∈ metadata.capabilities, capability ∈ metadata'.capabilities) ∧
    userLines (after.getD []) = userLines (before.getD [])

/-- What the metadata holds of the updates accepted so far. -/
structure Kept (calls : Nat → Call) (log : List Nat) (metadata : PboxMetadata) : Prop where
  entry : ∀ later call earlier, log = later ++ call :: earlier →
    ∀ box provenance capabilities result, calls call = .record box provenance capabilities result →
      (∀ other ∈ later, (calls other).recipe ≠ some provenance.id) → provenance ∈ metadata.recipes
  capabilities : ∀ call ∈ log, ∀ box provenance capabilities,
    calls call = .record box provenance capabilities SUCCESS →
      ∀ capability ∈ capabilities, capability ∈ metadata.capabilities

structure Inv (codec : Codec) (digest : Config → Text) (calls : Nat → Call) (s : Race) : Prop where
  noted : ∃ markdown metadata above left right below, s.config.description = some markdown ∧
    Noted codec markdown metadata above left right below ∧ Kept calls s.log metadata
  requests : ∀ request ∈ s.requests, ∃ config : Config, request.digest = digest config ∧
    (calls request.call).update codec config.description = .ok request.description
  answered : ∀ call, ((∃ left, s.pcs call = .answered left true) ∨ s.pcs call = .returned) → call ∈ s.log

/-- An update made from the notes as they are keeps what was accepted, and adds its own. -/
theorem accepted_step (lawful : codec.Lawful) {log : List Nat} {markdown : Text} {metadata : PboxMetadata}
    {above below : List Text} {left right : Text} (noted : Noted codec markdown metadata above left right below)
    (kept : Kept calls log metadata) {call : Nat} {output : Text}
    (updated : (calls call).update codec (some markdown) = .ok output) :
    (∃ metadata' above' left' right' below', Noted codec output metadata' above' left' right' below' ∧
      Kept calls (call :: log) metadata') ∧
    Preserves codec (calls call).recipe (some markdown) (some output) := by
  cases which : calls call with
  | finalize =>
    rw [which] at updated
    cases updated
    obtain ⟨above', right', below', noted', user⟩ := noted.withoutClone lawful
    refine ⟨⟨metadata, above', left, right', below', noted', ?_, ?_⟩,
      metadata, metadata, noted.parse lawful, noted'.parse lawful, fun _ member _ => member,
      fun _ member => member, user⟩
    · intro later recorder earlier split box provenance capabilities result is_record unreplaced
      cases later with
      | nil =>
        cases split
        rw [which] at is_record
        cases is_record
      | cons first later =>
        cases split
        exact kept.entry later recorder earlier rfl box provenance capabilities result is_record
          fun other member => unreplaced other (List.mem_cons_of_mem _ member)
    · intro recorder member box provenance capabilities is_record
      rcases List.mem_cons.mp member with rfl | old
      · rw [which] at is_record
        cases is_record
      · exact kept.capabilities recorder old box provenance capabilities is_record
  | record box provenance capabilities result =>
    rw [which] at updated
    have noted' := noted.recorded lawful updated
    have user : userLines output = userLines markdown := by
      rw [noted'.userLines_eq lawful, noted.userLines_eq lawful]
    refine ⟨⟨_, above, left, right, below, noted', ?_, ?_⟩,
      metadata, _, noted.parse lawful, noted'.parse lawful, fun entry member other => ?_,
      fun _ member => capabilities_recorded member, user⟩
    · intro later recorder earlier split box' provenance' capabilities' result' is_record unreplaced
      cases later with
      | nil =>
        cases split
        rw [which] at is_record
        cases is_record
        exact mem_recorded_self provenance capabilities result
      | cons first later =>
        cases split
        have other : provenance'.id ≠ provenance.id := by
          intro same
          refine unreplaced call List.mem_cons_self ?_
          rw [which, same]
          rfl
        exact mem_recorded_other other (kept.entry later recorder earlier rfl box' provenance' capabilities' result'
          is_record fun other member => unreplaced other (List.mem_cons_of_mem _ member))
    · intro recorder member box' provenance' capabilities' is_record capability among
      rcases List.mem_cons.mp member with rfl | old
      · rw [which] at is_record
        cases is_record
        exact capabilities_added among
      · exact capabilities_recorded (kept.capabilities recorder old box' provenance' capabilities' is_record
          capability among)
    · refine mem_recorded_other (fun same => other ?_) member
      rw [same]
      rfl

/-- The end of a call is known of an update that was accepted. -/
def Told (pc : Pc) : Prop := (∃ left, pc = .answered left true) ∨ pc = .returned

theorem told_again (left : Nat) : ¬Told (again left) := by
  rintro (⟨_, told⟩ | told) <;> cases left <;> cases told

theorem told_set {s : Race} {call other : Nat} {pc : Pc} (told : Told ((s.set call pc).pcs other)) :
    (other = call ∧ Told pc) ∨ Told (s.pcs other) := by
  unfold Race.set at told
  dsimp only at told
  split at told
  next same => exact Or.inl ⟨same, told⟩
  next => exact Or.inr told

theorem Inv.set {s : Race} (inv : Inv codec digest calls s) {call : Nat} {pc : Pc} (silent : ¬Told pc) :
    Inv codec digest calls (s.set call pc) :=
  ⟨inv.noted, inv.requests, fun other told =>
    inv.answered other ((told_set told).resolve_left fun ⟨_, news⟩ => silent news)⟩

/-- PVE changes the notes only as the update asks that was made from them. -/
theorem Inv.arrive (lawful : codec.Lawful)
    (identifies : ∀ c c' : Config, digest c = digest c' → c.description = c'.description)
    {s : Race} (inv : Inv codec digest calls s) {request : Request}
    (made : ∃ config : Config, request.digest = digest config ∧
      (calls request.call).update codec config.description = .ok request.description) :
    Inv codec digest calls (arrive digest s request) ∧
      (((arrive digest s request).log = s.log ∧
          (arrive digest s request).config.description = s.config.description) ∨
        ((arrive digest s request).log = request.call :: s.log ∧
          Preserves codec (calls request.call).recipe s.config.description
            (arrive digest s request).config.description)) := by
  by_cases accepted : (request.digest == digest s.config) = true
  · obtain ⟨config, under, updated⟩ := made
    have current : config.description = s.config.description :=
      identifies _ _ (under.symm.trans (beq_iff_eq.mp accepted))
    obtain ⟨markdown, metadata, above, left, right, below, held, noted, kept⟩ := inv.noted
    rw [current, held] at updated
    obtain ⟨⟨metadata', above', left', right', below', noted', kept'⟩, preserves⟩ :=
      accepted_step lawful noted kept updated
    have answered : ∀ other, Told ((if s.pcs request.call = .writing request.left then
        s.set request.call (.answered request.left true) else s).pcs other) → other ∈ request.call :: s.log := by
      intro other told
      split at told
      · rcases told_set told with ⟨rfl, _⟩ | before
        · exact List.mem_cons_self
        · exact List.mem_cons_of_mem _ (inv.answered other before)
      · exact List.mem_cons_of_mem _ (inv.answered other told)
    unfold ProvenanceRace.arrive
    simp only [accepted, if_true]
    refine ⟨⟨⟨_, metadata', above', left', right', below', rfl, noted', ?_⟩, ?_, answered⟩, Or.inr ⟨trivial, ?_⟩⟩
    · exact kept'
    · intro other member
      split at member
      · exact inv.requests other member
      · exact inv.requests other member
    · rw [held]
      exact preserves
  · unfold ProvenanceRace.arrive
    simp only [Bool.not_eq_true] at accepted
    simp only [accepted, Bool.false_eq_true, if_false]
    split
    · refine ⟨inv.set ?_, Or.inl ⟨rfl, rfl⟩⟩
      rintro (⟨_, told⟩ | told) <;> cases told
    · exact ⟨inv, Or.inl ⟨rfl, rfl⟩⟩

theorem inv_step (lawful : codec.Lawful)
    (identifies : ∀ c c' : Config, digest c = digest c' → c.description = c'.description)
    {s t : Race} {a : Action} (inv : Inv codec digest calls s) (taken : step codec digest calls s a = some t) :
    Inv codec digest calls t ∧
      ((t.log = s.log ∧ t.config.description = s.config.description) ∨
        ∃ call, t.log = call :: s.log ∧
          Preserves codec (calls call).recipe s.config.description t.config.description) := by
  have quiet : ∀ (call left : Nat), Inv codec digest calls (s.set call (again left)) :=
    fun call left => inv.set (told_again left)
  cases a with
  | reads call =>
    simp only [step] at taken
    split at taken
    next left reading =>
      split at taken
      next =>
        cases taken
        refine ⟨inv.set ?_, Or.inl ⟨rfl, rfl⟩⟩
        rintro (⟨_, told⟩ | told) <;> cases told
      next description updated =>
        cases taken
        have written : Inv codec digest calls (s.set call (.writing left)) := by
          refine inv.set ?_
          rintro (⟨_, told⟩ | told) <;> cases told
        refine ⟨⟨written.noted, fun request member => ?_, written.answered⟩, Or.inl ⟨rfl, rfl⟩⟩
        rcases List.mem_append.mp member with old | new
        · exact inv.requests request old
        · rw [List.mem_singleton.mp new]
          exact ⟨s.config, rfl, updated⟩
    next => cases taken
  | fails call =>
    simp only [step] at taken
    split at taken
    · cases taken
      exact ⟨quiet _ _, Or.inl ⟨rfl, rfl⟩⟩
    · cases taken
      exact ⟨quiet _ _, Or.inl ⟨rfl, rfl⟩⟩
    · cases taken
      exact ⟨quiet _ _, Or.inl ⟨rfl, rfl⟩⟩
    · cases taken
  | arrives place =>
    simp only [step] at taken
    split at taken
    next request found =>
      cases taken
      have fewer : Inv codec digest calls { s with requests := s.requests.eraseIdx place } :=
        ⟨inv.noted, fun other member => inv.requests other (List.mem_of_mem_eraseIdx member), inv.answered⟩
      obtain ⟨later, change⟩ := fewer.arrive lawful identifies (inv.requests request (List.mem_of_getElem? found))
      exact ⟨later, change.imp id fun accepted => ⟨request.call, accepted⟩⟩
    next => cases taken
  | replies call =>
    simp only [step] at taken
    split at taken
    next left answered =>
      cases taken
      refine ⟨⟨inv.noted, inv.requests, fun other told => ?_⟩, Or.inl ⟨rfl, rfl⟩⟩
      rcases told_set told with ⟨rfl, _⟩ | before
      · exact inv.answered other (Or.inl ⟨left, answered⟩)
      · exact inv.answered other before
    next =>
      cases taken
      exact ⟨quiet _ _, Or.inl ⟨rfl, rfl⟩⟩
    next => cases taken
  | touches rest =>
    cases taken
    exact ⟨⟨inv.noted, inv.requests, inv.answered⟩, Or.inl ⟨rfl, rfl⟩⟩

theorem inv_init {s : Race} (started : Started codec calls s) : Inv codec digest calls s := by
  obtain ⟨⟨markdown, metadata, above, left, right, below, held, noted⟩, reading, none_sent, none_accepted⟩ := started
  refine ⟨⟨markdown, metadata, above, left, right, below, held, noted, ?_, ?_⟩, ?_, ?_⟩
  · intro later call earlier split
    rw [none_accepted] at split
    exact absurd split.symm (by simp)
  · intro call member
    rw [none_accepted] at member
    cases member
  · intro request member
    rw [none_sent] at member
    cases member
  · intro call told
    rw [reading call] at told
    rcases told with ⟨_, told⟩ | told <;> cases told

theorem reachable_inv (lawful : codec.Lawful)
    (identifies : ∀ c c' : Config, digest c = digest c' → c.description = c'.description)
    {s : Race} (reached : (system codec digest calls).Reachable s) : Inv codec digest calls s :=
  reached.invariant (fun _ started => inv_init started) fun _ _ _ inv taken =>
    (inv_step lawful identifies inv taken).1

/-- What has become of the calls that have returned Ok, and of the update at hand. -/
structure Lasting (codec : Codec) (digest : Config → Text) (calls : Nat → Call) (s : Race) : Prop where
  returned : ∀ call box provenance capabilities result, s.pcs call = .returned →
    calls call = .record box provenance capabilities result →
    ∃ metadata later earlier, parseMetadata codec (s.config.description.getD []) = .ok (some metadata) ∧
      s.log = later ++ call :: earlier ∧ call ∉ later ∧
      ((∀ other ∈ later, (calls other).recipe ≠ some provenance.id) → provenance ∈ metadata.recipes) ∧
      (result = SUCCESS → ∀ capability ∈ capabilities, capability ∈ metadata.capabilities)
  update : ∀ a t, step codec digest calls s a = some t →
    (t.log = s.log ∧ t.config.description = s.config.description) ∨
      ∃ call, t.log = call :: s.log ∧
        Preserves codec (calls call).recipe s.config.description t.config.description

/-- In every interleaving, with lost and late requests and lost replies, a call that has returned Ok has
its entry in the notes until an update for the same recipe is accepted after it, its capabilities for
good, and no accepted update takes away what is not its own. -/
theorem provenance_lasts (lawful : codec.Lawful)
    (identifies : ∀ c c' : Config, digest c = digest c' → c.description = c'.description)
    {s : Race} (reached : (system codec digest calls).Reachable s) : Lasting codec digest calls s := by
  have inv := reachable_inv lawful identifies reached
  refine ⟨fun call box provenance capabilities result done is_record => ?_, fun a t taken =>
    (inv_step lawful identifies inv taken).2⟩
  obtain ⟨markdown, metadata, above, left, right, below, held, noted, kept⟩ := inv.noted
  obtain ⟨later, earlier, split, last⟩ := List.eq_append_cons_of_mem (inv.answered call (Or.inr done))
  refine ⟨metadata, later, earlier, ?_, split, last, ?_, ?_⟩
  · rw [held]
    exact noted.parse lawful
  · exact kept.entry later call earlier split box provenance capabilities result is_record
  · rintro rfl
    exact kept.capabilities call (inv.answered call (Or.inr done)) box provenance capabilities is_record

end System

section Sample

/-- A coder for the metadata of a table. -/
def tableCodec (table : List PboxMetadata) : Codec where
  toVec metadata := if metadata ∈ table then .ok (List.replicate (table.idxOf metadata) 0) else .error []
  fromSlice bytes :=
    match table[bytes.length]? with
    | some metadata => .ok metadata
    | none => .error []
  fromStr _ := .error []
  encode bytes := List.replicate bytes.length 'A'
  decode payload := some (List.replicate payload.length 0)

theorem tableCodec_serialised {table : List PboxMetadata} {metadata : PboxMetadata} {bytes : List UInt8}
    (serialised : (tableCodec table).toVec metadata = .ok bytes) :
    metadata ∈ table ∧ bytes = List.replicate (table.idxOf metadata) 0 := by
  unfold tableCodec at serialised
  dsimp only at serialised
  split at serialised
  · exact ⟨‹_›, (Except.ok.inj serialised).symm⟩
  · cases serialised

theorem tableCodec_lawful (table : List PboxMetadata) : (tableCodec table).Lawful where
  json metadata bytes serialised := by
    obtain ⟨known, rfl⟩ := tableCodec_serialised serialised
    simp [tableCodec, List.getElem?_idxOf known]
  base64 metadata bytes serialised := by
    obtain ⟨known, rfl⟩ := tableCodec_serialised serialised
    simp [tableCodec]
  alphabet bytes c member := by
    rw [List.eq_of_mem_replicate member]
    decide

def raceBox : BoxRecord := ⟨sampleMetadata.id, sampleMetadata.vmid, "pve".toList, "running".toList⟩

def raceEntry : PboxRecipeProvenance := ⟨"xfce".toList, "recipes".toList, "abc123".toList, some [], some SUCCESS⟩

def raceCodec : Codec :=
  tableCodec [sampleMetadata, recorded sampleMetadata raceEntry ["desktop".toList] SUCCESS]

def raceCalls : Nat → Call
  | 0 => .record raceBox raceEntry ["desktop".toList] SUCCESS
  | _ => .finalize

def raceDigest (config : Config) : Text :=
  match config.description with
  | some description => 'x' :: description
  | none => []

def raceStart : Race where
  config := ⟨some (markerOf [] ++ "\npbox-clone-v1 {}\nnote".toList), 0⟩
  pcs call := .reading (raceCalls call).attempts
  requests := []
  log := []

/-- The record reads first and finds the end of the clone written in between. -/
def raceRun : List Action :=
  [.reads 0, .reads 1, .arrives 1, .arrives 0, .replies 0, .reads 0, .arrives 0, .replies 0]

theorem raceStart_started : Started raceCodec raceCalls raceStart := by
  refine ⟨⟨_, sampleMetadata, [], [], [], ["pbox-clone-v1 {}".toList, "note".toList], rfl,
      ⟨[], ?_, ?_⟩, ?_, ?_, ?_, ?_, ?_⟩,
    fun _ => rfl, rfl, rfl⟩
  · decide
  · decide
  · rintro _ ⟨⟩
  · exact ⟨List.not_mem_nil, by decide⟩
  · exact ⟨List.not_mem_nil, by decide⟩
  · unfold Clear
    decide
  · rfl

theorem raceRun_lasts :
    ∃ s, (system raceCodec raceDigest raceCalls).run raceStart raceRun = some s ∧ s.pcs 0 = .returned ∧
      Lasting raceCodec raceDigest raceCalls s := by
  obtain ⟨s, ran⟩ := Option.isSome_iff_exists.mp
    (show ((system raceCodec raceDigest raceCalls).run raceStart raceRun).isSome = true by decide +kernel)
  have returned : (((system raceCodec raceDigest raceCalls).run raceStart raceRun).map (·.pcs 0)) = some .returned := by
    decide +kernel
  rw [ran] at returned
  refine ⟨s, ran, Option.some.inj returned, ?_⟩
  refine provenance_lasts (tableCodec_lawful _) ?_ (System.reachable_of_run (.start raceStart_started) ran)
  rintro ⟨description, _⟩ ⟨description', _⟩ same
  cases description <;> cases description' <;> simp_all [raceDigest]

end Sample

end Pbox.Cli.ProvenanceRace
