import Pbox.Lib.Checks
import Pbox.Cli.Discovery
import Pbox.Cli.ProvenanceRace

/-! The notes of a box that is made from a saved environment: `restore` writes its metadata and, on a line of their own,
the settings that are still to be applied; `repair` reads these back, and `finalize` takes the line out. -/

namespace Pbox.Cli.CloneNotes
open Pbox.Lib.Strings Pbox.Lib.Lines Pbox.Lib.Checks Pbox.Core.Id Pbox.Core.Metadata Pbox.Core.MetadataRoundTrip
open Pbox.Cli.Discovery (SavedEnvironment Json)
open Pbox.Cli.ProvenanceRace

structure LxcConfigUpdateRequest where
  networks : List (Text × Text)
  digest : Option Text
  hostname : Option Text
  memory : Option UInt64
  swap : Option UInt64
  cores : Option UInt64
  rootfs : Option Text
  net0 : Option Text
  unprivileged : Option Bool
  description : Option Text
  deriving DecidableEq

def LxcConfigUpdateRequest.default : LxcConfigUpdateRequest :=
  ⟨[], none, none, none, none, none, none, none, none, none⟩

structure PendingClone where
  configuration : LxcConfigUpdateRequest
  snapshot : SavedEnvironment
  name : Option Text
  stopped : Bool
  deriving DecidableEq

/-- What `restore` reads of the command line. -/
structure NewCommand where
  net0 : Option Text
  name : Option Text
  memory : Option UInt64
  swap : Option UInt64
  cores : Option UInt64
  stopped : Bool

/-- `serde_json` on a pending clone. -/
structure Serde where
  toString : PendingClone → Except Text Text
  fromStr : Text → Except Text PendingClone

section Restore

/-- Whether a key of the configuration is that of a network interface. -/
def isNetwork (key : Text) : Bool :=
  match stripPrefix "net".toList key with
  | some number => !number.isEmpty && number.all Char.isDigit
  | none => false

/-- A field of an interface, without what belonged to the box that was saved. -/
def freshField (field : Text) : Option Text :=
  (splitOnce '=' field).bind fun (name, value) =>
    if name = "hwaddr".toList ∨ name = "gw".toList ∨ name = "gw6".toList then none
    else if name = "ip".toList ∧ value ≠ "manual".toList then some "ip=dhcp".toList
    else if name = "ip6".toList ∧ value ≠ "manual".toList then some "ip6=auto".toList
    else some field

def joinFields : List Text → Text
  | [] => []
  | [field] => field
  | field :: rest => field ++ ',' :: joinFields rest

def freshSecondaryNetworks : List (Text × Json) → Except Text (List (Text × Text))
  | [] => .ok []
  | (key, value) :: rest =>
    if isNetwork key then
      match value with
      | .string value => (freshSecondaryNetworks rest).map fun later =>
          (key, joinFields ((value.splitOn ',').filterMap freshField)) :: later
      | _ => .error "invalid saved network interface".toList
    else freshSecondaryNetworks rest

/-- The interface of a box for which none was asked. -/
def defaultNet0 (bridge : Text) : Text := "name=eth0,bridge=".toList ++ bridge ++ ",ip=dhcp".toList

def pendingClone (bridge : Text) (saved : SavedEnvironment) (networks : List (Text × Text)) (command : NewCommand) :
    PendingClone where
  configuration := { LxcConfigUpdateRequest.default with
    networks
    cores := command.cores
    memory := command.memory
    swap := command.swap
    net0 := some (command.net0.getD (defaultNet0 bridge)) }
  snapshot := saved
  name := command.name
  stopped := command.stopped

def cloneMetadata (id : PboxId) (vmid : UInt64) (saved : SavedEnvironment) : PboxMetadata :=
  { PboxMetadata.new id vmid with
    node := some saved.node
    image := saved.image
    snapshot := some (saved.name ++ " (".toList ++ saved.id ++ [')'])
    recipes := saved.recipes
    capabilities := saved.capabilities }

variable (codec : Codec) (serde : Serde)

/-- The notes of a new box, for the number that it gets. -/
def restoreDescription (id : PboxId) (saved : SavedEnvironment) (pending : PendingClone) (vmid : UInt64) :
    Except Text Text := do
  let marker ← (encodeMetadata codec (cloneMetadata id vmid saved)).mapError fun _ => "encode pbox metadata".toList
  let json ← serde.toString pending
  return marker ++ '\n' :: CLONE_MARKER ++ json

/-- What is written for a command, and under which settings the clone is finished. -/
def restore (id : PboxId) (bridge : Text) (saved : SavedEnvironment) (extra : List (Text × Json)) (command : NewCommand)
    (vmid : UInt64) : Except Text (PendingClone × Text) := do
  let networks ← freshSecondaryNetworks extra
  let pending := pendingClone bridge saved networks command
  let notes ← restoreDescription codec serde id saved pending vmid
  return (pending, notes)

/-- The pending clone that `repair` finds in the notes of a box, if there is one. -/
def repairPending (description : Option Text) : Option (Except Text PendingClone) :=
  ((lines (description.getD [])).findSome? (stripPrefix CLONE_MARKER)).map serde.fromStr

end Restore

/-! The strings of a pending clone, and what JSON makes of them. -/

def strings (pending : PendingClone) : List Text :=
  pending.configuration.networks.flatMap (fun network => [network.1, network.2]) ++
  [pending.configuration.digest, pending.configuration.hostname, pending.configuration.rootfs,
    pending.configuration.net0, pending.configuration.description, pending.name, pending.snapshot.image].reduceOption ++
  [pending.snapshot.id, pending.snapshot.name, pending.snapshot.node, pending.snapshot.source, pending.snapshot.created,
    pending.snapshot.bootstrapId] ++
  pending.snapshot.recipes.flatMap (fun recipe =>
    [recipe.id, recipe.repository, recipe.revision] ++ [recipe.appliedAt, recipe.result].reduceOption) ++
  pending.snapshot.capabilities

/-- Text that stands in JSON only within a string, as it is: it begins with an angle bracket, which nothing outside of
the strings is written with, and has nothing in it that is escaped. -/
def Verbatim (mark : Text) : Prop :=
  ∃ rest, mark = '<' :: rest ∧ ∀ c ∈ rest, c ≠ '"' ∧ c ≠ '\\' ∧ 32 ≤ c.toNat

/-- Reading undoes writing; the text is one line, as control characters are escaped; and of what a string holds only
quotes, backslashes and control characters are written in another way. -/
structure Serde.Lawful (serde : Serde) : Prop where
  undoes : ∀ pending text, serde.toString pending = .ok text → serde.fromStr text = .ok pending
  line : ∀ pending text, serde.toString pending = .ok text → '\n' ∉ text
  verbatim : ∀ pending text mark, serde.toString pending = .ok text → Verbatim mark →
    (mark <:+: text ↔ ∃ string ∈ strings pending, mark <:+: string)

theorem marker_verbatim : Verbatim MARKER_PREFIX :=
  ⟨MARKER_PREFIX.tail, rfl, List.all_iff_forall_prop.mp (by decide)⟩

/-- What should hold of notes with the metadata of a box and a pending clone. -/
structure Kept (codec : Codec) (serde : Serde) (notes : Text) (metadata : PboxMetadata) (pending : PendingClone) :
    Prop where
  parsed : parseMetadata codec notes = .ok (some metadata)
  one : ∃ line, (lines notes).filter isClone = [line]
  repaired : repairPending serde (some notes) = some (.ok pending)
  others : lines (withoutClone (some notes)) = (lines notes).filter fun line => !isClone line
  finalized : parseMetadata codec (withoutClone (some notes)) = .ok (some metadata)

section Notes

variable {codec : Codec} {serde : Serde} {json : Text} {bytes : List UInt8} {pending : PendingClone}
  {metadata : PboxMetadata}

/-- The notes of a clone, with the payload of the metadata. -/
def notesOf (payload json : Text) : Text := markerOf payload ++ '\n' :: CLONE_MARKER ++ json

theorem marker_own (payload : Text) : isClone (markerOf payload) = false := rfl

theorem clone_own (json : Text) : isClone (CLONE_MARKER ++ json) = true :=
  List.isPrefixOf_iff_prefix.mpr (List.prefix_append _ _)

theorem marker_line (payload : Text) : stripReturn (markerOf payload) = markerOf payload := by
  have ends : (markerOf payload).getLast? = some '>' := by
    unfold markerOf
    rw [List.getLast?_append_of_ne_nil _ (by decide)]
    rfl
  unfold stripReturn
  rw [ends, if_neg (by decide)]

theorem lines_notes (free : '\n' ∉ markerOf (codec.encode bytes)) (line : '\n' ∉ json) :
    lines (notesOf (codec.encode bytes) json) = [markerOf (codec.encode bytes), CLONE_MARKER ++ json] := by
  have last : '\n' ∉ CLONE_MARKER ++ json := by
    intro member
    rcases List.mem_append.mp member with inside | inside
    · revert inside
      decide
    · exact line inside
  have nonempty : CLONE_MARKER ++ json ≠ [] := by
    intro nothing
    cases (List.append_eq_nil_iff.mp nothing).1
  unfold lines notesOf
  rw [List.append_assoc, List.cons_append, segments_append_feed free, segments_of_free last]
  unfold readLines readLines
  rw [if_neg nonempty, marker_line]

theorem lines_marker (free : '\n' ∉ markerOf (codec.encode bytes)) :
    lines (markerOf (codec.encode bytes)) = [markerOf (codec.encode bytes)] := by
  unfold lines
  rw [segments_of_free free]
  rfl

/-- The lines of the notes that are not the clone's. -/
theorem other_lines (free : '\n' ∉ markerOf (codec.encode bytes)) (line : '\n' ∉ json) :
    ((lines (notesOf (codec.encode bytes) json)).filter fun line => !isClone line) = [markerOf (codec.encode bytes)] := by
  let other : Text → Bool := fun line => !isClone line
  have kept : other (markerOf (codec.encode bytes)) = true := rfl
  have dropped : ¬other (CLONE_MARKER ++ json) = true := by
    change ¬(!isClone (CLONE_MARKER ++ json)) = true
    rw [clone_own]
    exact Bool.false_ne_true
  rw [lines_notes free line]
  change List.filter other _ = _
  rw [List.filter_cons_of_pos kept, List.filter_cons_of_neg dropped]
  rfl

theorem withoutClone_notes (free : '\n' ∉ markerOf (codec.encode bytes)) (line : '\n' ∉ json) :
    withoutClone (some (notesOf (codec.encode bytes) json)) = markerOf (codec.encode bytes) := by
  unfold withoutClone
  rw [Option.getD_some, other_lines free line]
  rfl

theorem repair_notes (free : '\n' ∉ markerOf (codec.encode bytes)) (line : '\n' ∉ json) :
    repairPending serde (some (notesOf (codec.encode bytes) json)) = some (serde.fromStr json) := by
  have marker : stripPrefix CLONE_MARKER (markerOf (codec.encode bytes)) = none := rfl
  unfold repairPending
  rw [Option.getD_some, lines_notes free line, List.findSome?_cons, marker, List.findSome?_cons, stripPrefix_append]
  rfl

/-- The metadata is read back exactly if the text of the pending clone does not begin another marker. -/
theorem parse_notes (lawful : codec.Lawful) (serialised : codec.toVec metadata = .ok bytes) (json : Text) :
    parseMetadata codec (notesOf (codec.encode bytes) json) = .ok (some metadata) ↔ ¬MARKER_PREFIX <:+: json := by
  have read := parse_marker_iff (lawful.alphabet bytes) ('\n' :: CLONE_MARKER ++ json)
    (by decide : ¬MARKER_PREFIX <:+: []) (lawful.base64 _ _ serialised) (lawful.json _ _ serialised)
  have behind : MARKER_PREFIX <:+: '\n' :: CLONE_MARKER ++ json ↔ MARKER_PREFIX <:+: json := by
    rw [prefix_shape.1]
    exact infix_behind (by decide)
  rw [← behind, ← read]
  unfold notesOf
  rw [List.nil_append, List.append_assoc]

theorem parse_marker (lawful : codec.Lawful) (serialised : codec.toVec metadata = .ok bytes) :
    parseMetadata codec (markerOf (codec.encode bytes)) = .ok (some metadata) := by
  have read := (parse_marker_iff (lawful.alphabet bytes) [] (by decide : ¬MARKER_PREFIX <:+: [])
    (lawful.base64 _ _ serialised) (lawful.json _ _ serialised)).mpr (by decide)
  rwa [List.nil_append, List.append_nil] at read

theorem restore_ok {id : PboxId} {bridge : Text} {saved : SavedEnvironment} {extra : List (Text × Json)}
    {command : NewCommand} {vmid : UInt64} {notes : Text}
    (written : restore codec serde id bridge saved extra command vmid = .ok (pending, notes)) :
    ∃ bytes json, codec.toVec (cloneMetadata id vmid saved) = .ok bytes ∧ serde.toString pending = .ok json ∧
      notes = notesOf (codec.encode bytes) json := by
  obtain ⟨networks, _, rest⟩ := bind_ok written
  obtain ⟨described, done, same⟩ := bind_ok rest
  cases same
  obtain ⟨marker, encoded, rest⟩ := bind_ok done
  obtain ⟨json, shown, same⟩ := bind_ok rest
  cases same
  cases serialised : codec.toVec (cloneMetadata id vmid saved) with
  | error error =>
    unfold encodeMetadata at encoded
    rw [serialised] at encoded
    cases encoded
  | ok bytes =>
    rw [encodeMetadata_ok serialised] at encoded
    cases encoded
    exact ⟨bytes, json, rfl, shown, rfl⟩

/-- The notes of a clone keep its metadata and its settings apart exactly if no string of the settings holds the
beginning of a metadata marker. -/
theorem clone_notes_iff (codecLawful : codec.Lawful) (serdeLawful : serde.Lawful) {id : PboxId} {bridge : Text}
    {saved : SavedEnvironment} {extra : List (Text × Json)} {command : NewCommand} {vmid : UInt64} {notes : Text}
    (written : restore codec serde id bridge saved extra command vmid = .ok (pending, notes)) :
    Kept codec serde notes (cloneMetadata id vmid saved) pending ↔
      ∀ string ∈ strings pending, ¬MARKER_PREFIX <:+: string := by
  obtain ⟨bytes, json, serialised, shown, same⟩ := restore_ok written
  subst same
  have free := marker_free codecLawful bytes
  have line := serdeLawful.line _ _ shown
  have parsed := parse_notes codecLawful serialised json
  rw [serdeLawful.verbatim _ _ _ shown marker_verbatim] at parsed
  constructor
  · intro kept string listed occurs
    exact parsed.mp kept.parsed ⟨string, listed, occurs⟩
  · intro none
    have own : ¬isClone (markerOf (codec.encode bytes)) = true := Bool.false_ne_true
    refine ⟨parsed.mpr fun found => ?_, ⟨CLONE_MARKER ++ json, ?_⟩, ?_, ?_, ?_⟩
    · obtain ⟨string, listed, occurs⟩ := found
      exact none string listed occurs
    · rw [lines_notes free line, List.filter_cons_of_neg own, List.filter_cons_of_pos (clone_own json)]
      rfl
    · rw [repair_notes free line, serdeLawful.undoes _ _ shown]
    · rw [withoutClone_notes free line, lines_marker free, other_lines free line]
    · rw [withoutClone_notes free line]
      exact parse_marker codecLawful serialised

end Notes

/-! A saved environment, and clones of it with the texts that `serde_json` and base64 give for them. -/

def sampleSaved : SavedEnvironment where
  ready := true
  id := "psn_12345678".toList
  name := "base".toList
  node := "pve".toList
  vmid := 9100
  source := "pbx_abcdefgh".toList
  image := none
  created := "2026-09-06T00:00:00Z".toList
  bootstrapId := "pbx_12345678".toList
  recipes := []
  capabilities := []

def cloneJson : List UInt8 :=
  utf8 "\x7b\"id\":\"pbx_t3yzd9y3\",\"vmid\":9001,\"snapshot\":\"base (psn_12345678)\",\"node\":\"pve\"\x7d".toList

def clonePayload : Text :=
  "eyJpZCI6InBieF90M3l6ZDl5MyIsInZtaWQiOjkwMDEsInNuYXBzaG90IjoiYmFzZSAocHNuXzEyMzQ1Njc4KSIsIm5vZGUiOiJwdmUifQ".toList

def sampleClone : PboxMetadata := cloneMetadata sampleMetadata.id 9001 sampleSaved

def cloneCodec : Codec where
  toVec metadata := if metadata = sampleClone then .ok cloneJson else .error []
  fromSlice bytes := if bytes = cloneJson then .ok sampleClone else .error []
  fromStr _ := .error []
  encode bytes := if bytes = cloneJson then clonePayload else []
  decode payload := if payload = clonePayload then some cloneJson else none

/-- A test of the characters of a literal. -/
theorem literal_all {test : Char → Bool} (chars : Text) (all : chars.all test = true) :
    ∀ c ∈ (String.ofList chars).toList, test c = true := by
  rw [String.toList_ofList]
  exact List.all_eq_true.mp all

theorem clonePayload_safe : ∀ c ∈ clonePayload, isUrlSafe c = true := literal_all _ (by decide +kernel)

theorem cloneCodec_lawful : cloneCodec.Lawful where
  json metadata bytes serialised := by
    by_cases same : metadata = sampleClone
    · simp only [cloneCodec, if_pos same, Except.ok.injEq] at serialised ⊢
      rw [if_pos serialised.symm, same]
    · simp [cloneCodec, same] at serialised
  base64 metadata bytes serialised := by
    by_cases same : metadata = sampleClone
    · simp only [cloneCodec, if_pos same, Except.ok.injEq] at serialised
      simp [cloneCodec, ← serialised]
    · simp [cloneCodec, same] at serialised
  alphabet bytes := by
    by_cases same : bytes = cloneJson
    · simp only [cloneCodec, if_pos same]
      exact clonePayload_safe
    · simp [cloneCodec, same]

theorem cloneCodec_toVec : cloneCodec.toVec sampleClone = .ok cloneJson := by simp [cloneCodec]

theorem cloneCodec_encode : cloneCodec.encode cloneJson = clonePayload := by simp [cloneCodec]

def named (name : Text) : NewCommand := ⟨none, some name, none, none, none, false⟩

def namedClone (name : Text) : PendingClone := pendingClone "vmbr0".toList sampleSaved [] (named name)

/-- The text around the name, for a name in which nothing is escaped. -/
def beforeName : Text :=
  "\x7b\"configuration\":\x7b\"net0\":\"name=eth0,bridge=vmbr0,ip=dhcp\"\x7d,\"snapshot\":\x7b\"ready\":true,".toList ++
  "\"id\":\"psn_12345678\",\"name\":\"base\",\"node\":\"pve\",\"vmid\":9100,\"source\":\"pbx_abcdefgh\",".toList ++
  "\"created\":\"2026-09-06T00:00:00Z\",\"bootstrap_id\":\"pbx_12345678\",\"recipes\":[],".toList ++
  "\"capabilities\":[]\x7d,\"name\":\"".toList

def afterName : Text := "\",\"stopped\":false\x7d".toList

def nameSerde (name : Text) : Serde where
  toString pending := if pending = namedClone name then .ok (beforeName ++ (name ++ afterName)) else .error []
  fromStr text := if text = beforeName ++ (name ++ afterName) then .ok (namedClone name) else .error []

/-- A character that is neither an angle bracket nor the end of a line. -/
def unmarked (c : Char) : Bool := c != '<' && c != '\n'

theorem beforeName_plain : ∀ c ∈ beforeName, unmarked c = true := by
  intro c member
  rcases List.mem_append.mp member with front | last
  · rcases List.mem_append.mp front with front | third
    · rcases List.mem_append.mp front with first | second
      · exact literal_all _ (by decide +kernel) c first
      · exact literal_all _ (by decide +kernel) c second
    · exact literal_all _ (by decide +kernel) c third
  · exact literal_all _ (by decide +kernel) c last

theorem afterName_plain : ∀ c ∈ afterName, unmarked c = true := literal_all _ (by decide +kernel)

theorem not_mem_plain {text : Text} (plain : ∀ c ∈ text, unmarked c = true) : '<' ∉ text ∧ '\n' ∉ text :=
  ⟨(fun member => Bool.false_ne_true (plain _ member)), (fun member => Bool.false_ne_true (plain _ member))⟩

theorem strings_named (name : Text) : strings (namedClone name) =
    (strings (namedClone [])).take 1 ++ name :: (strings (namedClone [])).drop 2 := rfl

/-- Every string of such a clone but its name. -/
theorem other_strings (name string : Text) (listed : string ∈ strings (namedClone name)) :
    string = name ∨ '<' ∉ string := by
  have plain : ∀ string ∈ (strings (namedClone [])), '<' ∉ string := by
    intro string listed
    have all := List.all_eq_true.mp (show (strings (namedClone [])).all (fun string => !string.contains '<') = true by
      decide +kernel) string listed
    simpa using all
  rw [strings_named] at listed
  rcases List.mem_append.mp listed with front | back
  · exact .inr (plain _ (List.mem_of_mem_take front))
  · rcases List.mem_cons.mp back with same | back
    · exact .inl same
    · exact .inr (plain _ (List.mem_of_mem_drop back))

theorem name_string (name : Text) : name ∈ strings (namedClone name) := by
  rw [strings_named]
  exact List.mem_append_right _ List.mem_cons_self

/-- What is written for such a clone, and for no other. -/
theorem nameSerde_ok {name text : Text} {pending : PendingClone} (shown : (nameSerde name).toString pending = .ok text) :
    pending = namedClone name ∧ text = beforeName ++ (name ++ afterName) := by
  by_cases same : pending = namedClone name
  · have written : (nameSerde name).toString pending = .ok (beforeName ++ (name ++ afterName)) := if_pos same
    exact ⟨same, (Except.ok.inj (written.symm.trans shown)).symm⟩
  · have refused : (nameSerde name).toString pending = .error [] := if_neg same
    exact absurd (refused.symm.trans shown) (fun same => nomatch same)

theorem nameSerde_lawful {name : Text} (line : '\n' ∉ name) : (nameSerde name).Lawful where
  undoes pending text shown := by
    obtain ⟨same, written⟩ := nameSerde_ok shown
    rw [same, written]
    simp [nameSerde]
  line pending text shown := by
    obtain ⟨_, written⟩ := nameSerde_ok shown
    rw [written]
    intro member
    rcases List.mem_append.mp member with inside | inside
    · exact (not_mem_plain beforeName_plain).2 inside
    · rcases List.mem_append.mp inside with inside | inside
      · exact line inside
      · exact (not_mem_plain afterName_plain).2 inside
  verbatim pending text mark shown plain := by
    obtain ⟨rest, rfl, clean⟩ := plain
    obtain ⟨same, written⟩ := nameSerde_ok shown
    rw [same, written, infix_behind (not_mem_plain beforeName_plain).1]
    constructor
    · intro occurs
      have quoted : afterName = '"' :: afterName.tail := rfl
      rw [quoted] at occurs
      have free : '"' ∉ '<' :: rest := by
        intro member
        rcases List.mem_cons.mp member with same | inside
        · cases same
        · exact (clean _ inside).1 rfl
      rcases infix_feed free occurs with inside | behind
      · exact ⟨name, name_string name, inside⟩
      · have inside : '<' ∈ afterName := quoted ▸ List.mem_cons_of_mem _ (behind.subset List.mem_cons_self)
        exact absurd inside (not_mem_plain afterName_plain).1
    · intro found
      obtain ⟨string, listed, occurs⟩ := found
      rcases other_strings name string listed with same | none
      · rw [← same]
        exact occurs.trans (List.prefix_append _ _).isInfix
      · exact absurd (occurs.subset List.mem_cons_self) none

/-- A name that begins a metadata marker. -/
def markerName : Text := MARKER_PREFIX

theorem restore_named (name : Text) : restore cloneCodec (nameSerde name) sampleMetadata.id "vmbr0".toList sampleSaved []
    (named name) 9001 = .ok (namedClone name, notesOf clonePayload (beforeName ++ (name ++ afterName))) := by
  have encoded := encodeMetadata_ok cloneCodec_toVec
  have shown : (nameSerde name).toString (namedClone name) = .ok (beforeName ++ (name ++ afterName)) := if_pos rfl
  rw [cloneCodec_encode] at encoded
  unfold restore restoreDescription
  change (((encodeMetadata cloneCodec sampleClone).mapError _ >>= fun marker =>
    (nameSerde name).toString (namedClone name) >>= fun json => pure _) >>= _) = _
  rw [encoded, shown]
  rfl

theorem marker_name_breaks :
    ∃ (codec : Codec) (serde : Serde) (id : PboxId) (bridge : Text) (saved : SavedEnvironment)
      (extra : List (Text × Json)) (command : NewCommand) (vmid : UInt64) (pending : PendingClone) (notes : Text),
      codec.Lawful ∧ serde.Lawful ∧
      restore codec serde id bridge saved extra command vmid = .ok (pending, notes) ∧
      parseMetadata codec notes ≠ .ok (some (cloneMetadata id vmid saved)) ∧
      ¬Kept codec serde notes (cloneMetadata id vmid saved) pending := by
  have parsed := @parse_notes cloneCodec cloneJson sampleClone cloneCodec_lawful cloneCodec_toVec
    (beforeName ++ (markerName ++ afterName))
  rw [cloneCodec_encode] at parsed
  have inside : MARKER_PREFIX <:+: beforeName ++ (markerName ++ afterName) :=
    ⟨beforeName, afterName, List.append_assoc _ _ _⟩
  have broken := fun read => parsed.mp read inside
  exact ⟨cloneCodec, nameSerde markerName, sampleMetadata.id, "vmbr0".toList, sampleSaved, [], named markerName, 9001,
    namedClone markerName, notesOf clonePayload (beforeName ++ (markerName ++ afterName)), cloneCodec_lawful,
    nameSerde_lawful (by decide), restore_named markerName, broken, fun kept => broken kept.parsed⟩

theorem plain_name_kept :
    Kept cloneCodec (nameSerde "work".toList) (notesOf clonePayload (beforeName ++ ("work".toList ++ afterName)))
      sampleClone (namedClone "work".toList) := by
  apply (@clone_notes_iff cloneCodec (nameSerde "work".toList) (namedClone "work".toList) cloneCodec_lawful
    (nameSerde_lawful (by decide)) sampleMetadata.id "vmbr0".toList sampleSaved [] (named "work".toList) 9001
    (notesOf clonePayload (beforeName ++ ("work".toList ++ afterName))) (restore_named _)).mpr
  intro string listed occurs
  have angle : '<' ∈ string := occurs.subset (by decide)
  rcases other_strings _ string listed with rfl | none
  · revert angle
    decide
  · exact none angle

end Pbox.Cli.CloneNotes
