import Mathlib.Data.List.Sort
import Pbox.Cli.LocalTree
import Pbox.Cli.RecipeSource
import Pbox.Files.PathText
import Pbox.Lib.Utf8

/-! The recipes of a checkout: the playbooks and roles that are found in its tree, what its manifest says
of them, and the checks that an application makes of their paths. -/

namespace Pbox.Cli.RecipeTree
open Pbox.Lib.Strings Pbox.Lib.FileTree Pbox.Lib.Utf8
open Pbox.Cli.LocalTree (faultText)
open Pbox.Cli.RecipeSource (joinPath)
open Pbox.Files (Path systemComponents)

inductive RecipeKind where
  | playbook
  | role
  deriving DecidableEq, Repr

structure ResourceRecommendations where
  cores : Option Nat := none
  memory : Option Nat := none
  disk : Option Text := none
  deriving DecidableEq

structure DesktopMetadata where
  protocol : Option Text := none
  host : Option Text := none
  port : Option UInt16 := none
  deriving DecidableEq

structure RecipeMetadata where
  description : Option Text := none
  requires : List Text := []
  supports : List Text := []
  capabilities : List Text := []
  resources : ResourceRecommendations := {}
  desktop : Option DesktopMetadata := none
  deriving DecidableEq

structure Recipe where
  id : Text
  kind : RecipeKind
  path : Text
  metadata : RecipeMetadata
  deriving DecidableEq

structure RecipeCatalog where
  repository : Text
  reference : Text
  revision : Text
  recipes : List Recipe
  deriving DecidableEq

structure Candidate where
  id : Text
  kind : RecipeKind
  path : Text

structure RecipeManifestEntry where
  path : Option Text := none
  metadata : RecipeMetadata := {}

/-- An ordered map: its keys ascend. -/
structure RecipeManifest where
  recipes : List (Text × RecipeManifestEntry) := []
  ascends : (recipes.map Prod.fst).Pairwise fun left right => textLe left right = true ∧ left ≠ right := by simp

def RecipeManifest.get (manifest : RecipeManifest) (id : Text) : Option RecipeManifestEntry :=
  (manifest.recipes.find? fun entry => entry.1 = id).map Prod.snd

structure Failure where
  message : Text
  cause : Option Text := none
  deriving DecidableEq

inductive Stop where
  | outOfFuel
  | failed (failure : Failure)
  deriving DecidableEq

/-- A checkout: the volume it is on, how many links a path may lead through, and the path of its root
with the text it is shown as. -/
structure Checkout where
  volume : Volume (List UInt8)
  links : Nat
  root : List Component
  shown : Text

def MAX_RECIPE_CAPABILITIES : Nat := 32
def MAX_RECIPE_CAPABILITY_LENGTH : Nat := 64

def isCapabilityByte (byte : UInt8) : Bool :=
  (0x30 ≤ byte && byte ≤ 0x39) || (0x41 ≤ byte && byte ≤ 0x5a) || (0x61 ≤ byte && byte ≤ 0x7a) ||
    byte = 0x2d || byte = 0x5f || byte = 0x2e || byte = 0x2f

def isCapability (capability : Text) : Bool :=
  capability ≠ [] && (utf8 capability).length ≤ MAX_RECIPE_CAPABILITY_LENGTH && (utf8 capability).all isCapabilityByte

/-- The text of a capability as it is quoted in a message; what is quoted is a parameter. -/
def validateRecipeCapabilities (quoted : Text → Text) (recipeId : Text) (capabilities : List Text) :
    Except Failure Unit :=
  if MAX_RECIPE_CAPABILITIES < capabilities.length then
    .error { message := "recipe ".toList ++ recipeId ++ " declares more than 32 capabilities".toList }
  else
    match capabilities.find? fun capability => !isCapability capability with
    | some capability =>
      .error { message := "recipe ".toList ++ recipeId ++ " has an invalid capability: ".toList ++ quoted capability }
    | none => .ok ()

def pathString (components : List Text) : Text := ['/'].intercalate components

/-- `extension`: what is behind the last dot of a name, if that is not its first byte. -/
def extension (name : Name) : Option Name :=
  let after := (name.reverse.takeWhile (· ≠ 46)).reverse
  if after.length + 1 < name.length then some after else none

def isYamlFile (name : Name) : Bool :=
  extension name = some (utf8 "yml".toList) || extension name = some (utf8 "yaml".toList)

def isMetadataFile (name : Name) : Bool := name = utf8 "pbox.yml".toList || name = utf8 "pbox.yaml".toList

def isAnsibleSupportFile (name : Name) : Bool :=
  name = utf8 "requirements.yml".toList || name = utf8 "requirements.yaml".toList || name = utf8 "galaxy.yml".toList

def MAIN_YML : Text := "main.yml".toList
def MAIN_YAML : Text := "main.yaml".toList

def stripFirst (suffixes : List Text) (value : Text) : Text :=
  (suffixes.findSome? fun suffix => stripSuffix suffix value).getD value

def playbookId (relative : Place) : Except Failure Text :=
  let path := if relative.head? = some (utf8 "playbooks".toList) then relative.tail else relative
  let value := stripFirst [".yaml".toList, ".yml".toList] (pathString (path.map fromUtf8Lossy))
  if value = [] then
    .error { message := "recipe playbook path has no name: ".toList ++ pathString (relative.map fromUtf8Lossy) }
  else .ok value

/-- What a regular file below the root is found as. -/
def candidateAt (relative : Place) : Except Failure (Option Candidate) :=
  if relative.head? = some (utf8 "roles".toList) then
    match relative with
    | [_, role, tasks, main] =>
      if tasks = utf8 "tasks".toList ∧ (main = utf8 MAIN_YML ∨ main = utf8 MAIN_YAML) then
        match fromUtf8 role with
        | none => .error { message := "recipe role path is not UTF-8".toList }
        | some role => .ok (some ⟨role, .role, pathString (relative.map fromUtf8Lossy)⟩)
      else .ok none
    | _ => .ok none
  else
    let name := relative.getLast?.getD []
    if !isYamlFile name || isMetadataFile name || isAnsibleSupportFile name then .ok none
    else
      match playbookId relative with
      | .error failure => .error failure
      | .ok id => .ok (some ⟨id, .playbook, pathString (relative.map fromUtf8Lossy)⟩)

variable (checkout : Checkout)

/-- The display of a path that is joined to the root. -/
def Checkout.display (relative : Text) : Text := checkout.shown ++ '/' :: relative

def Checkout.displayPlace (relative : Place) : Text := checkout.display (pathString (relative.map fromUtf8Lossy))

def Checkout.join (relative : Place) : List Component := checkout.root ++ relative.map .normal

def Checkout.stat (path : List Component) : Except Fault (Object (List UInt8)) :=
  checkout.volume.stat checkout.links [] path

def Checkout.lstat (path : List Component) : Except Fault (Object (List UInt8)) :=
  checkout.volume.lstat checkout.links [] path

def Checkout.readManifest (parse : Text → Except Text RecipeManifest) : List Text → Except Failure RecipeManifest
  | [] => .ok {}
  | name :: others =>
    let shown := checkout.display name
    let reading (cause : Text) : Failure := ⟨"read recipe metadata ".toList ++ shown, some cause⟩
    match checkout.lstat (checkout.join [utf8 name]) with
    | .error .notFound => readManifest parse others
    | .error fault => .error (reading (faultText fault))
    | .ok (.link _) => .error { message := "recipe metadata must not be a symbolic link: ".toList ++ shown }
    | .ok (.file bytes) =>
      match fromUtf8 bytes with
      | none => .error (reading "stream did not contain valid UTF-8".toList)
      | some contents =>
        match parse contents with
        | .error cause => .error ⟨"parse recipe metadata ".toList ++ shown, some cause⟩
        | .ok manifest => .ok manifest
    | .ok _ => readManifest parse others

def MANIFEST_NAMES : List Text := ["pbox.yml".toList, "pbox.yaml".toList]

/-- One entry of a directory. -/
def Checkout.visit (descend : Place → List Candidate → Except Stop (List Candidate)) (path : Place)
    (candidates : List Candidate) : Except Stop (List Candidate) :=
  match checkout.lstat (checkout.join path) with
  | .error fault =>
    .error (.failed ⟨"read recipe entry type ".toList ++ checkout.displayPlace path, some (faultText fault)⟩)
  | .ok (.link _) => .ok candidates
  | .ok kind =>
    if path.getLast? = some (utf8 ".git".toList) then .ok candidates
    else
      match kind with
      | .directory => descend path candidates
      | .file _ =>
        match candidateAt path with
        | .error failure => .error (.failed failure)
        | .ok none => .ok candidates
        | .ok (some candidate) => .ok (candidates ++ [candidate])
      | _ => .ok candidates

def Checkout.collectCandidates : Nat → Place → List Candidate → Except Stop (List Candidate)
  | 0, _, _ => .error .outOfFuel
  | fuel + 1, directory, candidates =>
    match checkout.volume.readDir checkout.links [] (checkout.join directory) with
    | .error fault =>
      .error (.failed ⟨"read recipe directory ".toList ++ checkout.displayPlace directory, some (faultText fault)⟩)
    | .ok names =>
      (names.insertionSort (· ≤ ·)).foldlM (fun candidates name =>
        checkout.visit (collectCandidates fuel) (directory ++ [name]) candidates) candidates

def normaliseRelativePath (value : Text) : Except Failure Text :=
  if (Path.parse value).absolute || (Path.parse value).osStrs.any fun component => component = "..".toList then
    .error { message := "recipe metadata path must stay inside the repository: ".toList ++ value }
  else if trim value = [] then .error { message := "recipe metadata path cannot be empty".toList }
  else .ok value

/-- `canonicalize` of a text that is joined to the root. -/
def Checkout.canonicalize (relative : Text) : Except Text Place :=
  if Char.ofNat 0 ∈ relative then .error "file name contained an unexpected NUL byte".toList
  else (checkout.volume.resolve checkout.links [] (checkout.root ++ systemComponents relative)).mapError faultText

/-- Both modules check a path alike, each with its own texts. -/
def Checkout.confine (absolute escapes resolving path : Text) (relative : Text) : Except Failure Unit :=
  if (Path.parse relative).absolute = true then .error { message := absolute ++ relative }
  else
    match checkout.volume.resolve checkout.links [] checkout.root with
    | .error fault => .error ⟨resolving ++ checkout.shown, some (faultText fault)⟩
    | .ok canonicalRoot =>
      match checkout.canonicalize relative with
      | .error cause => .error ⟨path ++ checkout.display relative, some cause⟩
      | .ok canonicalCandidate =>
        if canonicalRoot.isPrefixOf canonicalCandidate then .ok () else .error { message := escapes ++ relative }

def Checkout.validatedRepositoryPath (relative : Text) : Except Failure Unit :=
  checkout.confine "recipe metadata path must be relative to the repository: ".toList
    "recipe metadata path escapes the repository: ".toList "resolve repository ".toList "resolve recipe path ".toList
    relative

/-- `repository_path` of the application. -/
def Checkout.repositoryPath (relative : Text) : Except Failure Unit :=
  checkout.confine "recipe path must be relative to the repository: ".toList
    "recipe path escapes the repository: ".toList "resolve recipe repository ".toList "resolve recipe path ".toList
    relative

/-- The path so far, then its next components. -/
def Checkout.rejectFrom (walked : List Files.Component) : List Files.Component → Except Failure Unit
  | [] => .ok ()
  | component :: rest =>
    let current := walked ++ [component]
    let shown := checkout.display (pathString (current.map Files.Component.asOsStr))
    match checkout.lstat (checkout.root ++ current.map Files.Component.system) with
    | .ok (.link _) => .error { message := "recipe path must not contain a symbolic link: ".toList ++ shown }
    | .ok _ => rejectFrom current rest
    | .error .notFound => .ok ()
    | .error fault => .error ⟨"read recipe path ".toList ++ shown, some (faultText fault)⟩

def Checkout.rejectSymlinkAncestors (relative : Path) : Except Failure Unit :=
  checkout.rejectFrom [] relative.components

/-- The name of the role that a path of two components is the directory of. -/
def roleOfDirectory : List Text → Option Text
  | [roles, role] => if roles = "roles".toList ∧ role ≠ [] then some role else none
  | _ => none

/-- The name of the role that a path of four components is the main task of. -/
def roleOfMain : List Text → Option Text
  | [roles, role, tasks, main] =>
    if roles = "roles".toList ∧ tasks = "tasks".toList ∧ (main = MAIN_YML ∨ main = MAIN_YAML) then some role else none
  | _ => none

inductive RoleTask where
  | regular
  | absent
  deriving DecidableEq

/-- A task file of a role. -/
def Checkout.roleTask (path name : Text) : Except Failure RoleTask :=
  let taskPath := joinPath (joinPath path "tasks".toList) name
  match checkout.rejectSymlinkAncestors (Path.parse taskPath) with
  | .error failure => .error failure
  | .ok () =>
    match checkout.lstat (checkout.root ++ systemComponents taskPath) with
    | .ok (.link _) =>
      .error { message := "recipe role task must not be a symbolic link: ".toList ++ checkout.display taskPath }
    | .ok (.file _) => .ok .regular
    | .ok _ => .ok .absent
    | .error .notFound => .ok .absent
    | .error fault => .error ⟨"read recipe role task ".toList ++ checkout.display taskPath, some (faultText fault)⟩

def Checkout.isFile (relative : Text) : Bool :=
  match checkout.stat (checkout.root ++ systemComponents relative) with
  | .ok (.file _) => true
  | _ => false

def Checkout.rolePath (path : Text) : Except Failure Bool := do
  let components := (Path.parse path).osStrs
  if (roleOfDirectory components).isSome then
    match ← checkout.roleTask path MAIN_YML with
    | .regular => return true
    | .absent =>
      match ← checkout.roleTask path MAIN_YAML with
      | .regular => return true
      | .absent => return false
  else if (roleOfMain components).isSome then
    checkout.rejectSymlinkAncestors (Path.parse path)
    return checkout.isFile path
  else return false

def Checkout.recipeKind (path : Text) : Except Failure RecipeKind := do
  checkout.validatedRepositoryPath path
  checkout.rejectSymlinkAncestors (Path.parse path)
  if ← checkout.rolePath path then return .role
  else if checkout.isFile path then
    if isYamlFile (utf8 ((Path.parse path).fileName.getD [])) then return .playbook
    else throw { message := "recipe path is not an Ansible YAML file: ".toList ++ path }
  else throw { message := "recipe path is not a playbook or Ansible role: ".toList ++ path }

def Checkout.existing (relative : Text) : Bool :=
  match checkout.stat (checkout.root ++ systemComponents relative) with
  | .ok _ => true
  | .error _ => false

def Checkout.manifestRecipePath (id : Text) (entry : RecipeManifestEntry) : Except Failure (RecipeKind × Text) :=
  match entry.path with
  | none =>
    .error { message := "recipe metadata for ".toList ++ id ++
      " must include a path because it was not discovered".toList }
  | some relativePath => do
    let path ← normaliseRelativePath relativePath
    checkout.validatedRepositoryPath path
    if checkout.existing path then
      let kind ← checkout.recipeKind path
      return (kind, pathString (Path.parse path).osStrs)
    else throw { message := "recipe ".toList ++ id ++ " points to missing path ".toList ++ path }

/-- Where a candidate is taken from: a path that the manifest has for its id counts. -/
def Checkout.candidatePath (manifest : RecipeManifest) (candidate : Candidate) : Except Failure (RecipeKind × Text) :=
  match manifest.get candidate.id with
  | some entry =>
    if entry.path.isSome then checkout.manifestRecipePath candidate.id entry
    else .ok (candidate.kind, candidate.path)
  | none => .ok (candidate.kind, candidate.path)

/-- The recipe of a candidate, with what the manifest says of its id. -/
def Checkout.candidateRecipe (quoted : Text → Text) (manifest : RecipeManifest) (candidate : Candidate) :
    Except Failure Recipe := do
  let (kind, path) ← checkout.candidatePath manifest candidate
  let metadata := ((manifest.get candidate.id).map (·.metadata)).getD {}
  validateRecipeCapabilities quoted candidate.id metadata.capabilities
  return ⟨candidate.id, kind, path, metadata⟩

/-- The recipe of an entry that no candidate has the id of. -/
def Checkout.manifestRecipe (quoted : Text → Text) (recipes : List Recipe) (entry : Text × RecipeManifestEntry) :
    Except Failure (List Recipe) :=
  if recipes.any fun recipe => recipe.id = entry.1 then .ok recipes
  else do
    let (kind, path) ← checkout.manifestRecipePath entry.1 entry.2
    validateRecipeCapabilities quoted entry.1 entry.2.metadata.capabilities
    return recipes ++ [⟨entry.1, kind, path, entry.2.metadata⟩]

/-- The first two neighbours of one id. -/
def duplicate : List Recipe → Option (Recipe × Recipe)
  | first :: second :: rest => if first.id = second.id then some (first, second) else duplicate (second :: rest)
  | _ => none

def Checkout.isDir : Bool :=
  match checkout.stat checkout.root with
  | .ok .directory => true
  | _ => false

def orFailed {Value : Type} (outcome : Except Failure Value) : Except Stop Value := outcome.mapError .failed

def Checkout.discoverPath (quoted : Text → Text) (parse : Text → Except Text RecipeManifest)
    (gitRevision : Option Text) (fuel : Nat) (repository reference : Text) : Except Stop RecipeCatalog := do
  if checkout.isDir then
    let manifest ← orFailed (checkout.readManifest parse MANIFEST_NAMES)
    let candidates ← checkout.collectCandidates fuel [] []
    let found ← orFailed (candidates.mapM (checkout.candidateRecipe quoted manifest))
    let recipes ← orFailed (manifest.recipes.foldlM (checkout.manifestRecipe quoted) found)
    let recipes := recipes.insertionSort fun left right => textLe left.id right.id
    match duplicate recipes with
    | some (first, second) =>
      throw (.failed { message := "duplicate recipe id ".toList ++ first.id ++ " for ".toList ++ first.path ++
        " and ".toList ++ second.path })
    | none => return ⟨repository, reference, gitRevision.getD "working-tree".toList, recipes⟩
  else throw (.failed { message := "recipe repository directory does not exist: ".toList ++ checkout.shown })

/-- The role of a recipe path, by its directory or by its main task. -/
def roleOf (components : List Text) : Option Text := (roleOfDirectory components).or (roleOfMain components)

/-- `role_directory` of the application; it returns the directory of the role. -/
def Checkout.roleDirectory (path : Text) : Except Failure Text :=
  match roleOf (Path.parse path).osStrs with
  | none => .error { message := "recipe path is not a supported role path: ".toList ++ path }
  | some role => do
    let directory := "roles/".toList ++ role
    checkout.repositoryPath directory
    let yml ← checkout.roleTask directory MAIN_YML
    let yaml ← checkout.roleTask directory MAIN_YAML
    if yml = .regular ∨ yaml = .regular then return directory
    else throw { message := "recipe role has no tasks/main.yml: ".toList ++ path }

end Pbox.Cli.RecipeTree
