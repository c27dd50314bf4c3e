import Pbox.Core.Metadata

/-! Writing metadata into notes and reading it back. The written text holds a marker at a place
that no text around it can hide; whether a second one appears is decided by the text that
follows, which the deletion of stale markers has joined. -/

namespace Pbox.Core.MetadataRoundTrip
open Pbox.Lib.Strings Pbox.Core.Id Pbox.Core.Metadata

theorem urlSafe_plain {c : Char} (safe : isUrlSafe c = true) : c ≠ '>' ∧ isWhitespace c = false := by
  have values : (48 ≤ c.toNat ∧ c.toNat ≤ 57) ∨ (65 ≤ c.toNat ∧ c.toNat ≤ 90) ∨
      (97 ≤ c.toNat ∧ c.toNat ≤ 122) ∨ c.toNat = 45 ∨ c.toNat = 95 := by
    have classes : (((decide ('A'.val ≤ c.val ∧ c.val ≤ 'Z'.val) ||
        (decide ('a'.val ≤ c.val) && decide (c.val ≤ 'z'.val))) ||
        (decide ('0'.val ≤ c.val) && decide (c.val ≤ '9'.val))) || c == '-') || c == '_' := safe
    simp only [Bool.or_eq_true, Bool.and_eq_true, decide_eq_true_eq, beq_iff_eq] at classes
    rcases classes with (((⟨low, high⟩ | ⟨low, high⟩) | ⟨low, high⟩) | rfl) | rfl
    · exact Or.inr (Or.inl ⟨low, high⟩)
    · exact Or.inr (Or.inr (Or.inl ⟨low, high⟩))
    · exact Or.inl ⟨low, high⟩
    · exact Or.inr (Or.inr (Or.inr (Or.inl rfl)))
    · exact Or.inr (Or.inr (Or.inr (Or.inr rfl)))
  constructor
  · rintro rfl
    revert values
    decide
  · simp only [isWhitespace, Bool.or_eq_false_iff, Bool.and_eq_false_iff, decide_eq_false_iff_not,
      beq_eq_false_iff_ne]
    omega

def markerBody (payload : Text) : Text := MARKER_PREFIX ++ ' ' :: payload ++ [' ']

/-- A marker as `encode_metadata` writes it around a base64 payload. -/
def markerOf (payload : Text) : Text := markerBody payload ++ MARKER_SUFFIX

theorem encodeMetadata_ok {codec : Codec} {metadata : PboxMetadata} {bytes : List UInt8}
    (serialised : codec.toVec metadata = .ok bytes) :
    encodeMetadata codec metadata = .ok (markerOf (codec.encode bytes)) := by
  simp [encodeMetadata, serialised, markerOf, markerBody]

section Marker
variable {payload : Text} (safe : ∀ c ∈ payload, isUrlSafe c = true)
include safe

theorem body_clean : '>' ∉ markerBody payload := by
  intro member
  rcases List.mem_append.mp member with front | back
  · rcases List.mem_append.mp front with start | rest
    · revert start
      decide
    · rcases List.mem_cons.mp rest with space | inside
      · exact absurd space (by decide)
      · exact (urlSafe_plain (safe '>' inside)).1 rfl
  · revert back
    decide

/-- The marker's own end is the first one after its beginning. -/
theorem find_suffix_marker (tail : Text) :
    find MARKER_SUFFIX (markerOf payload ++ tail) = some (markerBody payload).length := by
  rw [markerOf, List.append_assoc, suffix_shape.1]
  exact find_of_last suffix_shape.2 (body_clean safe)

/-- Text around a written marker neither hides it nor moves its ends. -/
theorem spans_of_marker {before tail : Text} (clean : ¬MARKER_PREFIX <:+: before) :
    markerSpans (before ++ (markerOf payload ++ tail)) =
      (markerSpansFrom (before ++ (markerOf payload ++ tail))
        (before ++ markerOf payload).length).map fun later =>
        (before.length, (before ++ markerOf payload).length) :: later := by
  have starts : find MARKER_PREFIX (before ++ (markerOf payload ++ tail)) = some before.length := by
    have shape : markerOf payload ++ tail =
        MARKER_PREFIX ++ (' ' :: payload ++ [' '] ++ MARKER_SUFFIX ++ tail) := by
      simp [markerOf, markerBody]
    rw [shape]
    rw [prefix_shape.1] at clean ⊢
    exact find_of_head prefix_shape.2 clean
  have stop : before.length + (markerBody payload).length + MARKER_SUFFIX.length =
      (before ++ markerOf payload).length := by
    rw [markerOf, List.length_append, List.length_append, Nat.add_assoc]
  rw [markerSpans, markerSpansFrom_eq]
  simp only [List.drop_zero, starts, Nat.zero_add, List.drop_left, find_suffix_marker safe, stop]

theorem parseSpan_marker {codec : Codec} (before tail : Text) {bytes : List UInt8}
    {metadata : PboxMetadata} (decodes : codec.decode payload = some bytes)
    (reads : codec.fromSlice bytes = .ok metadata) :
    parseSpan codec (before ++ (markerOf payload ++ tail))
      (before.length, (before ++ markerOf payload).length) = .ok metadata := by
  have marker : slice (before ++ (markerOf payload ++ tail)) before.length
      (before ++ markerOf payload).length = markerOf payload := by
    rw [slice, ← List.append_assoc, List.take_left, List.drop_left]
  have inner : stripPrefix MARKER_PREFIX (markerOf payload) =
      some (' ' :: payload ++ [' '] ++ MARKER_SUFFIX) := by
    have shape : markerOf payload = MARKER_PREFIX ++ (' ' :: payload ++ [' '] ++ MARKER_SUFFIX) := by
      simp [markerOf, markerBody]
    rw [shape, stripPrefix_append]
  have trimmed : trim (' ' :: payload ++ [' ']) = payload :=
    trim_spaces fun c member => (urlSafe_plain (safe c member)).2
  simp only [parseSpan, marker, inner, Option.bind_some, stripSuffix_append, Option.map_some,
    trimmed, Option.getD_some, decodes, reads]
  rfl

/-- A marker after clean text is read back exactly when no marker begins in the text after it. -/
theorem parse_marker_iff {codec : Codec} {before : Text} (tail : Text) {bytes : List UInt8}
    {metadata : PboxMetadata} (clean : ¬MARKER_PREFIX <:+: before)
    (decodes : codec.decode payload = some bytes) (reads : codec.fromSlice bytes = .ok metadata) :
    parseMetadata codec (before ++ (markerOf payload ++ tail)) = .ok (some metadata) ↔
      ¬MARKER_PREFIX <:+: tail := by
  have rest := spans_nil_iff (before ++ (markerOf payload ++ tail)) (before ++ markerOf payload).length
  have after : (before ++ (markerOf payload ++ tail)).drop (before ++ markerOf payload).length = tail := by
    rw [← List.append_assoc, List.drop_left]
  rw [after] at rest
  rw [← rest, parseMetadata, spans_of_marker safe clean]
  cases later : markerSpansFrom (before ++ (markerOf payload ++ tail))
      (before ++ markerOf payload).length with
  | error e => simp [Except.map]
  | ok spans =>
    cases spans with
    | nil =>
      have reading := parseSpan_marker safe before tail decodes reads
      simp only [Except.map, reading]
    | cons span more => simp [Except.map]

omit safe in
theorem outside_marker (before tail : Text) :
    outside (before ++ (markerOf payload ++ tail))
      [(before.length, (before ++ markerOf payload).length)] = before ++ tail := by
  simp only [outside, outsideFrom, slice, List.drop_zero, List.take_left]
  rw [← List.append_assoc before, List.drop_left]

end Marker

/-- Everything the round trip promises of a text written for given notes. -/
def RoundTrips (codec : Codec) (markdown : Text) (metadata : PboxMetadata) (output : Text) : Prop :=
  parseMetadata codec output = .ok (some metadata) ∧
    ∃ span spans, markerSpans output = .ok [span] ∧ markerSpans markdown = .ok spans ∧
      (spans ≠ [] → outside output [span] = outside markdown spans) ∧
      (spans = [] → ∃ newlines ∈ [[], ['\n'], ['\n', '\n']],
        outside output [span] = markdown ++ newlines)

/-- Cutting the second and later markers out of the notes brings pieces of text together that
form the beginning of a marker. -/
def StaleMarkersJoin (markdown : Text) : Prop :=
  ∃ span later, markerSpans markdown = .ok (span :: later) ∧
    MARKER_PREFIX <:+: outsideFrom markdown span.2 later

/-- What a successful write produces: clean text, the marker, and the notes that followed the
first stale marker with the other stale markers cut out. -/
theorem preserve_ok {codec : Codec} {markdown output : Text} {metadata : PboxMetadata}
    (succeeds : preserveMetadata codec markdown metadata = .ok output) :
    ∃ bytes before tail, codec.toVec metadata = .ok bytes ∧
      output = before ++ (markerOf (codec.encode bytes) ++ tail) ∧ ¬MARKER_PREFIX <:+: before ∧
      ((markerSpans markdown = .ok [] ∧ before = markdown ++ separator markdown ∧ tail = []) ∨
        ∃ span later, markerSpans markdown = .ok (span :: later) ∧
          before = markdown.take span.1 ∧ tail = outsideFrom markdown span.2 later) := by
  unfold preserveMetadata at succeeds
  cases serialised : codec.toVec metadata with
  | error e => simp [encodeMetadata, serialised] at succeeds
  | ok bytes =>
    simp only [encodeMetadata_ok serialised] at succeeds
    cases located : markerSpans markdown with
    | error e => simp [located] at succeeds
    | ok spans =>
      cases spans with
      | nil =>
        simp only [located, Except.ok.injEq] at succeeds
        have clean : ¬MARKER_PREFIX <:+: markdown := by
          have bare := (spans_nil_iff markdown 0).mp located
          rwa [List.drop_zero] at bare
        exact ⟨bytes, markdown ++ separator markdown, [], rfl, by rw [List.append_nil, succeeds],
          separator_clean clean, Or.inl ⟨rfl, rfl, rfl⟩⟩
      | cons span later =>
        simp only [located, Except.ok.injEq, replaceSpans_true] at succeeds
        exact ⟨bytes, markdown.take span.1, outsideFrom markdown span.2 later, rfl, succeeds.symm,
          take_find_clean (spans_cons_start located), Or.inr ⟨span, later, rfl, rfl, rfl⟩⟩

theorem separator_newlines (markdown : Text) :
    separator markdown ∈ [[], ['\n'], ['\n', '\n']] := by
  unfold separator
  split_ifs <;> simp

/-- Notes with one readable marker have no stale markers to join. -/
theorem no_join_of_parse {codec : Codec} {markdown : Text} {metadata : PboxMetadata}
    (reads : parseMetadata codec markdown = .ok (some metadata)) : ¬StaleMarkersJoin markdown := by
  rintro ⟨span, later, located, joined⟩
  unfold parseMetadata at reads
  rw [located] at reads
  cases later with
  | cons next rest => cases reads
  | nil =>
    have rest := spans_nil_iff markdown span.2
    rw [markerSpans, markerSpansFrom_eq] at located
    simp only [List.drop_zero, Nat.zero_add] at located
    split at located
    · cases located
    · split at located
      · cases located
      · cases tail : markerSpansFrom markdown _ with
        | error error =>
          rw [tail] at located
          cases located
        | ok spans =>
          rw [tail] at located
          cases located
          exact rest.mp tail joined

def sampleMetadata : PboxMetadata :=
  .new ⟨"pbx_t3yzd9y3".toList, by decide, by decide, List.all_eq_true.mp (by decide)⟩ 9000

def sampleJson : List UInt8 := utf8 "\x7b\"id\":\"pbx_t3yzd9y3\",\"vmid\":9000\x7d".toList

def samplePayload : Text := "eyJpZCI6InBieF90M3l6ZDl5MyIsInZtaWQiOjkwMDB9".toList

/-- The coders on one value, where they give what `serde_json` and base64 give. -/
def sampleCodec : Codec where
  toVec metadata := if metadata = sampleMetadata then .ok sampleJson else .error []
  fromSlice bytes := if bytes = sampleJson then .ok sampleMetadata else .error []
  fromStr _ := .error []
  encode bytes := if bytes = sampleJson then samplePayload else []
  decode payload := if payload = samplePayload then some sampleJson else none

theorem sampleCodec_lawful : sampleCodec.Lawful where
  json metadata bytes serialised := by
    by_cases same : metadata = sampleMetadata
    · simp only [sampleCodec, if_pos same, Except.ok.injEq] at serialised ⊢
      rw [if_pos serialised.symm, same]
    · simp [sampleCodec, same] at serialised
  base64 metadata bytes serialised := by
    by_cases same : metadata = sampleMetadata
    · simp only [sampleCodec, if_pos same, Except.ok.injEq] at serialised
      simp [sampleCodec, ← serialised]
    · simp [sampleCodec, same] at serialised
  alphabet bytes := by
    by_cases same : bytes = sampleJson
    · simp only [sampleCodec, if_pos same]
      exact List.all_eq_true.mp (by decide)
    · simp [sampleCodec, same]

/-- A write that succeeds round-trips exactly when no stale markers join. -/
theorem preserve_round_trips_iff (codec : Codec) (lawful : codec.Lawful) (markdown output : Text)
    (metadata : PboxMetadata) (succeeds : preserveMetadata codec markdown metadata = .ok output) :
    RoundTrips codec markdown metadata output ↔ ¬StaleMarkersJoin markdown := by
  obtain ⟨bytes, before, tail, serialised, shape, clean, origin⟩ := preserve_ok succeeds
  have safe := lawful.alphabet bytes
  have readBack := parse_marker_iff safe tail clean (lawful.base64 _ _ serialised)
    (lawful.json _ _ serialised)
  rw [← shape] at readBack
  have joins : StaleMarkersJoin markdown ↔ MARKER_PREFIX <:+: tail := by
    rcases origin with ⟨bare, _, rfl⟩ | ⟨span, later, located, _, rfl⟩
    · simp [StaleMarkersJoin, bare, show ¬MARKER_PREFIX <:+: [] by decide]
    · constructor
      · rintro ⟨other, rest, same, occurs⟩
        rw [located] at same
        cases same
        exact occurs
      · exact fun occurs => ⟨span, later, located, occurs⟩
  rw [joins, ← readBack]
  refine ⟨fun trips => trips.1, fun reads => ⟨reads, ?_⟩⟩
  have rest := (spans_nil_iff output (before ++ markerOf (codec.encode bytes)).length).mpr (by
    rw [shape, ← List.append_assoc, List.drop_left]
    exact readBack.mp reads)
  have written : markerSpans output =
      .ok [(before.length, (before ++ markerOf (codec.encode bytes)).length)] := by
    rw [shape] at rest ⊢
    rw [spans_of_marker safe clean, rest]
    rfl
  have kept : outside output [(before.length, (before ++ markerOf (codec.encode bytes)).length)] =
      before ++ tail := by
    rw [shape]
    exact outside_marker before tail
  rcases origin with ⟨bare, rfl, rfl⟩ | ⟨span, later, located, rfl, rfl⟩
  · refine ⟨_, _, written, bare, fun absurdity => absurd rfl absurdity, fun _ => ?_⟩
    exact ⟨_, separator_newlines markdown, by rw [kept, List.append_nil]⟩
  · refine ⟨_, _, written, located, fun _ => ?_, fun absurdity => by cases absurdity⟩
    rw [kept]
    simp [outside, outsideFrom, slice]

def plainNotes : Text := "User note\n\nKeep this text.".toList

theorem plain_notes_round_trip :
    RoundTrips sampleCodec plainNotes sampleMetadata
        (plainNotes ++ "\n\n".toList ++ markerOf samplePayload) ↔ ¬StaleMarkersJoin plainNotes :=
  preserve_round_trips_iff sampleCodec sampleCodec_lawful _ _ _ (by decide +kernel)

/-- Two markers with half of a marker's beginning on each side of the second. -/
def joiningNotes : Text :=
  "<!-- pbox-meta-v1 a --><!-- pbox-<!-- pbox-meta-v1 b -->meta-v1".toList

theorem joining_notes_lost :
    sampleCodec.Lawful ∧
      preserveMetadata sampleCodec joiningNotes sampleMetadata =
        .ok (markerOf samplePayload ++ "<!-- pbox-meta-v1".toList) ∧
      parseMetadata sampleCodec (markerOf samplePayload ++ "<!-- pbox-meta-v1".toList) =
        .error .unterminatedMarker ∧
      ¬RoundTrips sampleCodec joiningNotes sampleMetadata
        (markerOf samplePayload ++ "<!-- pbox-meta-v1".toList) := by
  have unreadable : parseMetadata sampleCodec
      (markerOf samplePayload ++ "<!-- pbox-meta-v1".toList) = .error .unterminatedMarker := by
    decide +kernel
  refine ⟨sampleCodec_lawful, by decide +kernel, unreadable, fun trips => ?_⟩
  rw [trips.1] at unreadable
  cases unreadable

end Pbox.Core.MetadataRoundTrip
