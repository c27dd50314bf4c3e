import Pbox.Core.Id

/-! The metadata marker in a container's Markdown notes. The serialiser and the base64 coder
are third-party code and enter as a `Codec`; finding, replacing and reading markers is the
crate's own code and is modelled on the text itself. -/

namespace Pbox.Core.Metadata
open Pbox.Lib.Strings Pbox.Core.Id

def MARKER_PREFIX : Text := "<!-- pbox-meta-v1".toList
def MARKER_SUFFIX : Text := "-->".toList

structure PboxRecipeProvenance where
  id : Text
  repository : Text
  revision : Text
  appliedAt : Option Text
  result : Option Text
  deriving DecidableEq

structure PboxMetadata where
  id : PboxId
  vmid : UInt64
  image : Option Text
  snapshot : Option Text
  node : Option Text
  recipes : List PboxRecipeProvenance
  capabilities : List Text
  deriving DecidableEq

def PboxMetadata.new (id : PboxId) (vmid : UInt64) : PboxMetadata :=
  ⟨id, vmid, none, none, none, [], []⟩

/-- A serialiser error, by the text it displays. -/
abbrev JsonError := Text

inductive MetadataError where
  | unterminatedMarker
  | multipleMarkers
  | invalidJson (error : JsonError)
  deriving DecidableEq

/-- `serde_json` on `PboxMetadata` and the `URL_SAFE_NO_PAD` engine. -/
structure Codec where
  toVec : PboxMetadata → Except JsonError (List UInt8)
  fromSlice : List UInt8 → Except JsonError PboxMetadata
  fromStr : Text → Except JsonError PboxMetadata
  encode : List UInt8 → Text
  decode : Text → Option (List UInt8)

def isUrlSafe (c : Char) : Bool := c.isAlphanum || c == '-' || c == '_'

/-- Decoding undoes encoding on the metadata that serialises, and the base64 text is over the
URL-safe alphabet. -/
structure Codec.Lawful (codec : Codec) : Prop where
  json : ∀ metadata bytes, codec.toVec metadata = .ok bytes → codec.fromSlice bytes = .ok metadata
  base64 : ∀ metadata bytes, codec.toVec metadata = .ok bytes →
    codec.decode (codec.encode bytes) = some bytes
  alphabet : ∀ bytes, ∀ c ∈ codec.encode bytes, isUrlSafe c = true

abbrev Span := Nat × Nat

def encodeMetadata (codec : Codec) (metadata : PboxMetadata) : Except MetadataError Text :=
  match codec.toVec metadata with
  | .error error => .error (.invalidJson error)
  | .ok json => .ok (MARKER_PREFIX ++ ' ' :: codec.encode json ++ ' ' :: MARKER_SUFFIX)

/-- The loop of `marker_spans` from a search position on. -/
def markerSpansFrom (markdown : Text) (searchFrom : Nat) : Except MetadataError (List Span) :=
  match _found : find MARKER_PREFIX (markdown.drop searchFrom) with
  | none => .ok []
  | some relativeStart =>
    let start := searchFrom + relativeStart
    match find MARKER_SUFFIX (markdown.drop start) with
    | none => .error .unterminatedMarker
    | some relativeEnd =>
      let stop := start + relativeEnd + MARKER_SUFFIX.length
      (markerSpansFrom markdown stop).map fun later => (start, stop) :: later
termination_by markdown.length - searchFrom
decreasing_by
  have inside := find_le _found
  rw [List.length_drop] at inside
  have sizes : MARKER_PREFIX.length = 17 ∧ MARKER_SUFFIX.length = 3 := by decide
  have nonempty : MARKER_PREFIX ≠ [] := by decide
  simp only [nonempty, or_false] at inside
  omega

def markerSpans (markdown : Text) : Except MetadataError (List Span) := markerSpansFrom markdown 0

def parseSpan (codec : Codec) (markdown : Text) (span : Span) : Except MetadataError PboxMetadata :=
  let marker := slice markdown span.1 span.2
  let payload :=
    (((stripPrefix MARKER_PREFIX marker).bind (stripSuffix MARKER_SUFFIX)).map trim).getD []
  match codec.decode payload with
  | some decoded => (codec.fromSlice decoded).mapError .invalidJson
  | none => (codec.fromStr payload).mapError .invalidJson

def parseMetadata (codec : Codec) (markdown : Text) : Except MetadataError (Option PboxMetadata) :=
  match markerSpans markdown with
  | .error error => .error error
  | .ok [] => .ok none
  | .ok [span] => (parseSpan codec markdown span).map some
  | .ok _ => .error .multipleMarkers

/-- The loop of `preserve_metadata` over the spans: the marker goes where the first span was. -/
def replaceSpans (markdown marker : Text) : Bool → Nat → List Span → Text
  | _, cursor, [] => markdown.drop cursor
  | first, cursor, (start, stop) :: later =>
    slice markdown cursor start ++ (if first then marker else []) ++
      replaceSpans markdown marker false stop later

/-- What separates the notes from a marker appended to them. -/
def separator (markdown : Text) : Text :=
  if markdown = [] then []
  else if markdown.getLast? = some '\n' then ['\n'] else ['\n', '\n']

def preserveMetadata (codec : Codec) (markdown : Text) (metadata : PboxMetadata) :
    Except MetadataError Text :=
  match encodeMetadata codec metadata with
  | .error error => .error error
  | .ok marker =>
    match markerSpans markdown with
    | .error error => .error error
    | .ok [] => .ok (markdown ++ separator markdown ++ marker)
    | .ok spans => .ok (replaceSpans markdown marker true 0 spans)

/-- The text outside the given spans, from a position on. -/
def outsideFrom (markdown : Text) : Nat → List Span → Text
  | cursor, [] => markdown.drop cursor
  | cursor, (start, stop) :: later =>
    slice markdown cursor start ++ outsideFrom markdown stop later

def outside (markdown : Text) (spans : List Span) : Text := outsideFrom markdown 0 spans

theorem prefix_shape : MARKER_PREFIX = '<' :: MARKER_PREFIX.tail ∧ '<' ∉ MARKER_PREFIX.tail := by
  decide

theorem suffix_shape : MARKER_SUFFIX = "--".toList ++ ['>'] ∧ '>' ∉ "--".toList := by decide

theorem replaceSpans_false (markdown marker : Text) (cursor : Nat) (spans : List Span) :
    replaceSpans markdown marker false cursor spans = outsideFrom markdown cursor spans := by
  induction spans generalizing cursor with
  | nil => rfl
  | cons span later ih =>
    simp only [replaceSpans, outsideFrom, Bool.false_eq_true, if_false, List.append_nil, ih]

theorem replaceSpans_true (markdown marker : Text) (span : Span) (later : List Span) :
    replaceSpans markdown marker true 0 (span :: later) =
      markdown.take span.1 ++ (marker ++ outsideFrom markdown span.2 later) := by
  simp [replaceSpans, replaceSpans_false, slice]

/-- One turn of the search loop. -/
theorem markerSpansFrom_eq (markdown : Text) (searchFrom : Nat) :
    markerSpansFrom markdown searchFrom =
      match find MARKER_PREFIX (markdown.drop searchFrom) with
      | none => .ok []
      | some relativeStart =>
        match find MARKER_SUFFIX (markdown.drop (searchFrom + relativeStart)) with
        | none => .error .unterminatedMarker
        | some relativeEnd =>
          (markerSpansFrom markdown
            (searchFrom + relativeStart + relativeEnd + MARKER_SUFFIX.length)).map fun later =>
            (searchFrom + relativeStart,
              searchFrom + relativeStart + relativeEnd + MARKER_SUFFIX.length) :: later := by
  rw [markerSpansFrom]
  split
  next absent => simp [absent]
  next relativeStart found => simp [found]

theorem spans_nil_iff (markdown : Text) (searchFrom : Nat) :
    markerSpansFrom markdown searchFrom = .ok [] ↔ ¬MARKER_PREFIX <:+: markdown.drop searchFrom := by
  rw [← find_eq_none, markerSpansFrom_eq]
  cases first : find MARKER_PREFIX (markdown.drop searchFrom) with
  | none => simp
  | some i =>
    cases ends : find MARKER_SUFFIX (markdown.drop (searchFrom + i)) with
    | none => simp [ends]
    | some j =>
      cases rest : markerSpansFrom markdown (searchFrom + i + j + MARKER_SUFFIX.length) <;>
        simp [ends, rest, Except.map]

/-- The first span starts at the first occurrence of the marker's beginning. -/
theorem spans_cons_start {markdown : Text} {span : Span} {later : List Span}
    (found : markerSpans markdown = .ok (span :: later)) :
    find MARKER_PREFIX markdown = some span.1 := by
  rw [markerSpans, markerSpansFrom_eq] at found
  simp only [List.drop_zero, Nat.zero_add] at found
  cases first : find MARKER_PREFIX markdown with
  | none => simp [first] at found
  | some i =>
    cases ends : find MARKER_SUFFIX (markdown.drop i) with
    | none => simp [first, ends] at found
    | some j =>
      cases rest : markerSpansFrom markdown (i + j + MARKER_SUFFIX.length) with
      | error e => simp [first, ends, rest, Except.map] at found
      | ok spans =>
        simp only [first, ends, rest, Except.map, Except.ok.injEq, List.cons.injEq] at found
        rw [← found.1]

/-- No marker begins in the text before the first occurrence. -/
theorem take_find_clean {markdown : Text} {i : Nat} (found : find MARKER_PREFIX markdown = some i) :
    ¬MARKER_PREFIX <:+: markdown.take i := by
  rintro ⟨before, after, equal⟩
  have nonempty : 0 < MARKER_PREFIX.length := by decide
  have lengths := congrArg List.length equal
  simp only [List.length_append, List.length_take] at lengths
  refine (find_eq_some.mp found).2 before.length (by omega) ?_
  have cut : MARKER_PREFIX <+: (markdown.take i).drop before.length := by
    rw [← equal, List.append_assoc, List.drop_left]
    exact List.prefix_append _ _
  exact cut.trans ((List.take_prefix i markdown).drop before.length)

/-- Neither the separator nor anything after it can complete a marker begun in the notes. -/
theorem separator_clean {markdown : Text} (clean : ¬MARKER_PREFIX <:+: markdown) :
    ¬MARKER_PREFIX <:+: markdown ++ separator markdown := by
  intro occurs
  refine clean (infix_append_of_disjoint (by decide) (fun c member => ?_) occurs)
  have newline : c = '\n' := by
    revert member
    unfold separator
    split_ifs <;> simp
  subst newline
  decide

end Pbox.Core.Metadata
