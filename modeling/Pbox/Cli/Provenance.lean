import Pbox.Lib.Upsert
import Pbox.Core.MetadataRoundTrip
import Pbox.Cli.RecipeApply

/-! `record_recipe_provenance`: the metadata in the box's notes is read, an entry is put into it and
the notes are written back under the digest that was read, three times over at most. -/

namespace Pbox.Cli.Provenance
open Pbox.Lib.Strings Pbox.Lib.ErrorChain Pbox.Lib.Upsert
open Pbox.Core.Id Pbox.Core.Metadata Pbox.Core.MetadataRoundTrip Pbox.Cli.RecipeApply

structure LxcConfig where
  description : Option Text
  digest : Option Text

structure LxcConfigUpdateRequest where
  digest : Option Text
  description : Option Text

/-- The calls of the PVE client and the clock, on whatever they act on. -/
structure Client (Store : Type) where
  currentTimestamp : StateM Store (Except (Chain Empty) Text)
  getLxcConfig : StateM Store (Except PveError LxcConfig)
  updateLxcConfig : LxcConfigUpdateRequest → StateM Store (Except PveError Unit)

def metadataErrorText : MetadataError → Text
  | .unterminatedMarker => "metadata marker is missing its closing -->".toList
  | .multipleMarkers => "metadata marker must be unique".toList
  | .invalidJson error => "invalid pbox-meta-v1 JSON: ".toList ++ error

def addCapabilities (present : List Text) (capabilities : List Text) : List Text :=
  capabilities.foldl (fun held capability => if capability ∈ held then held else held ++ [capability]) present

/-- The change of one attempt to the metadata it has read. -/
def recorded (metadata : PboxMetadata) (provenance : PboxRecipeProvenance) (capabilities : List Text)
    (result : Text) : PboxMetadata :=
  { metadata with
    recipes := (upsert (·.id) provenance metadata.recipes).insertionSort fun left right => textLe left.id right.id
    capabilities :=
      (if result = SUCCESS then addCapabilities metadata.capabilities capabilities
        else metadata.capabilities).insertionSort fun left right => textLe left right }

section Model
variable (codec : Codec) (box : BoxRecord)

/-- The notes that one attempt writes over the notes it has read. -/
def updatedDescription (provenance : PboxRecipeProvenance) (capabilities : List Text) (result : Text)
    (description : Option Text) : Except (Chain Empty) Text :=
  let markdown := description.getD []
  match parseMetadata codec markdown with
  | .error error =>
    .error ((Chain.of (metadataErrorText error)).context
      "parse pbox metadata before recording recipe provenance".toList)
  | .ok none => .error (.of ("box ".toList ++ box.id.value ++ " has no pbox metadata".toList))
  | .ok (some metadata) =>
    if metadata.id ≠ box.id ∨ metadata.vmid ≠ box.vmid then
      .error (.of ("pbox metadata does not match box ".toList ++ box.id.value))
    else
      (preserveMetadata codec markdown (recorded metadata provenance capabilities result)).mapError fun error =>
        (Chain.of (metadataErrorText error)).context
          "preserve pbox metadata while recording recipe provenance".toList

variable {Store : Type} (client : Client Store)

/-- The attempts that are left, after the last error. -/
def attempts (provenance : PboxRecipeProvenance) (capabilities : List Text) (result : Text) :
    Nat → Option Text → StateM Store (Except (Chain Empty) Unit)
  | 0, lastError =>
    return .error (.of ("could not record recipe provenance for ".toList ++ box.id.value ++
      " after configuration retries: ".toList ++ lastError.getD "unknown PVE error".toList))
  | left + 1, _ => do
    match ← client.getLxcConfig with
    | .error error => attempts provenance capabilities result left (some ("read metadata: ".toList ++ error.message))
    | .ok config =>
      match updatedDescription codec box provenance capabilities result config.description with
      | .error error => return .error error
      | .ok description =>
        match ← client.updateLxcConfig ⟨config.digest, some description⟩ with
        | .ok () => return .ok ()
        | .error error => attempts provenance capabilities result left (some error.message)

def recordRecipeProvenance (run : AnsibleRun) (capabilities : List Text) (result : Text) :
    StateM Store (Except (Chain Empty) Unit) := do
  match ← client.currentTimestamp with
  | .error error => return .error error
  | .ok appliedAt =>
    attempts codec box client ⟨run.recipe, run.repository, run.revision, some appliedAt, some result⟩
      capabilities result 3 none

end Model

section Update
variable {codec : Codec} (box : BoxRecord)

/-- Notes whose metadata is that of the box are updated, and read back as updated. -/
theorem updatedDescription_ok (lawful : codec.Lawful) (provenance : PboxRecipeProvenance)
    (capabilities : List Text) (result : Text) {description : Option Text} {metadata : PboxMetadata}
    (serialises : ∃ bytes, codec.toVec (recorded metadata provenance capabilities result) = .ok bytes)
    (reads : parseMetadata codec (description.getD []) = .ok (some metadata))
    (sameId : metadata.id = box.id) (sameVmid : metadata.vmid = box.vmid) :
    ∃ output, updatedDescription codec box provenance capabilities result description = .ok output ∧
      RoundTrips codec (description.getD []) (recorded metadata provenance capabilities result) output := by
  obtain ⟨bytes, serialised⟩ := serialises
  obtain ⟨output, written⟩ : ∃ output, preserveMetadata codec (description.getD [])
      (recorded metadata provenance capabilities result) = .ok output := by
    unfold preserveMetadata
    rw [encodeMetadata_ok serialised]
    unfold parseMetadata at reads
    cases located : markerSpans (description.getD []) with
    | error error =>
      rw [located] at reads
      cases reads
    | ok spans => cases spans <;> exact ⟨_, rfl⟩
  refine ⟨output, ?_, (preserve_round_trips_iff codec lawful _ _ _ written).mpr (no_join_of_parse reads)⟩
  simp [updatedDescription, reads, sameId, sameVmid, written, Except.mapError]

end Update

end Pbox.Cli.Provenance
