import Pbox.Lib.ErrorChain
import Pbox.Lib.Numerals
import Pbox.Core.Id
import Mathlib.Data.List.Sort

/-! `pbox recipe apply`: a snapshot, one Ansible run for all recipes, and then a provenance record
for each recipe, or one for the whole list after a failure. The outcomes of the calls are inputs;
recording provenance is a parameter with a store of its own. -/

namespace Pbox.Cli.RecipeApply
open Pbox.Lib.Strings Pbox.Lib.Numerals Pbox.Lib.ErrorChain Pbox.Core.Id

/-- A playbook that failed, with the reason and the log that are shown for it. -/
structure AnsibleFailure where
  reason : Text
  logPath : Text
  deriving DecidableEq

inductive Root where
  | playbook (failure : AnsibleFailure)
  | task (exitStatus : Text)
  deriving DecidableEq

abbrev Error := Chain Root

/-- An error of waiting for a PVE task, with the exit status of a task that failed. -/
structure TaskError where
  message : Text
  causes : List Text
  exitStatus : Option Text
  deriving DecidableEq

def TaskError.anyhow (error : TaskError) : Error :=
  ⟨error.message, error.causes, error.exitStatus.map .task⟩

/-- An error of the PVE client: its HTTP status, if it has one, and its texts. -/
structure PveError where
  status : Option Nat
  message : Text
  causes : List Text
  deriving DecidableEq

def PveError.anyhow (error : PveError) : Error := ⟨error.message, error.causes, none⟩

structure BoxRecord where
  id : PboxId
  vmid : UInt64
  node : Text
  state : Text
  deriving DecidableEq

structure Recipe where
  id : Text
  capabilities : List Text
  deriving DecidableEq

structure RecipeCatalog where
  repository : Text
  revision : Text
  recipes : List Recipe

structure RecipesConfig where
  snapshotBeforeApply : Text
  rollbackOnFailure : Bool

structure AnsibleRun where
  recipe : Text
  boxId : Text
  repository : Text
  revision : Text
  deriving DecidableEq

structure RecipeApplyResult where
  run : AnsibleRun
  cleanupError : Option (Chain Empty)

structure RecipeSnapshot where
  name : Text
  deriving DecidableEq

structure LxcSnapshotRequest where
  snapname : Text
  description : Text

inductive PveTask where
  | snapshotCreate | snapshotRollback | snapshotDelete

/-- How the calls of one run end. A run makes each of them once at most. `taken` says whether PVE
holds the snapshot after the request and its task, `survives` whether it still does after a deletion
that reported an error. -/
structure Outcomes where
  findBox : Except Error BoxRecord
  nowNanos : Except (Chain Empty) Nat
  create : Except PveError Unit
  createTask : Except TaskError Unit
  taken : Bool
  operationDirectory : Except (Chain Empty) Unit
  ansible : Except Error Unit
  removeOperationDirectory : Except (Chain Empty) Unit
  rollback : Except PveError Unit
  rollbackTask : Except TaskError Unit
  delete : Except PveError Unit
  deleteTask : Except TaskError Unit
  survives : Bool

/-- `snapshot` is the snapshot of this run that PVE holds. `met` records the errors met while
deleting or cleaning up; no step reads it. -/
structure World (Store : Type) where
  snapshot : Option Text
  met : List Text
  store : Store

/-- What is still to be told: the snapshot that remains and the errors of the cleanup. -/
def World.outstanding {Store : Type} (w : World Store) : List Text := w.snapshot.toList ++ w.met

abbrev Run (Store Value : Type) := StateM (World Store) Value

def safeTerminalText (value : Text) : Text :=
  value.map fun c => if c.toNat < 32 ∨ (127 ≤ c.toNat ∧ c.toNat < 160) then ' ' else c

def trimStartMatches (pattern value : Text) : Nat → Text
  | 0 => value
  | fuel + 1 =>
    match stripPrefix pattern value with
    | some rest => trimStartMatches pattern rest fuel
    | none => value

def NEVER : Text := "never".toList
def ALWAYS : Text := "always".toList
def AUTO : Text := "auto".toList
def SUCCESS : Text := "success".toList
def FAILED : Text := "failed".toList

def snapshotUnavailable (error : PveError) : Bool :=
  error.status == some 400 || error.status == some 405 || error.status == some 501

/-- The task failed because the storage has no snapshots. -/
def unsupportedTask (error : TaskError) : Bool :=
  match error.exitStatus with
  | some status =>
    trimStartMatches "ERROR: ".toList (trim status) status.length ==
      "snapshot feature is not available".toList
  | none => false

section Calls
variable {Store : Type} (outcomes : Outcomes)

def createLxcSnapshot (request : LxcSnapshotRequest) : Run Store (Except PveError PveTask) := do
  modify fun w => { w with snapshot := if outcomes.taken then some request.snapname else none }
  return outcomes.create.map fun _ => .snapshotCreate

def rollbackLxcSnapshot (_name : Text) : Run Store (Except PveError PveTask) :=
  return outcomes.rollback.map fun _ => .snapshotRollback

def deleteLxcSnapshot (_name : Text) : Run Store (Except PveError PveTask) := do
  match outcomes.delete with
  | .error error =>
    modify fun w => { w with snapshot := if outcomes.survives then w.snapshot else none }
    return .error error
  | .ok () => return .ok .snapshotDelete

def waitForTask : PveTask → Run Store (Except TaskError Unit)
  | .snapshotCreate => return outcomes.createTask
  | .snapshotRollback => return outcomes.rollbackTask
  | .snapshotDelete => do
    match outcomes.deleteTask with
    | .error error =>
      modify fun w => { w with snapshot := if outcomes.survives then w.snapshot else none }
      return .error error
    | .ok () =>
      modify fun w => { w with snapshot := none }
      return .ok ()

end Calls

/-- The error is one of the cleanup. -/
def meet {Store : Type} (text : Text) : Run Store Unit := modify fun w => { w with met := w.met ++ [text] }

section Model
variable {Store : Type} (outcomes : Outcomes)
variable (recordRecipeProvenance : AnsibleRun → List Text → Text → StateM Store (Except (Chain Empty) Unit))

def record (run : AnsibleRun) (capabilities : List Text) (result : Text) :
    Run Store (Except (Chain Empty) Unit) :=
  fun w =>
    let (ended, store) := recordRecipeProvenance run capabilities result w.store
    (ended, { w with store := store })

def rollbackRecipeSnapshot (snapshot : RecipeSnapshot) : Run Store (Except Error Unit) := do
  match ← rollbackLxcSnapshot outcomes snapshot.name with
  | .error error => return .error (error.anyhow.context ("rollback recipe snapshot ".toList ++ snapshot.name))
  | .ok task =>
    match ← waitForTask outcomes task with
    | .error error =>
      return .error (error.anyhow.context ("wait for recipe snapshot rollback ".toList ++ snapshot.name))
    | .ok () => return .ok ()

def deleteRecipeSnapshot (snapshot : RecipeSnapshot) : Run Store (Except Error Unit) := do
  match ← deleteLxcSnapshot outcomes snapshot.name with
  | .error error =>
    let error := error.anyhow.context ("delete recipe snapshot ".toList ++ snapshot.name)
    meet error.full
    return .error error
  | .ok task =>
    match ← waitForTask outcomes task with
    | .error error =>
      let error := error.anyhow.context ("wait for recipe snapshot deletion ".toList ++ snapshot.name)
      meet error.full
      return .error error
    | .ok () => return .ok ()

def cleanupFailedRecipeSnapshot (name : Text) (primaryError : Error) : Run Store Error := do
  match ← deleteRecipeSnapshot outcomes ⟨name⟩ with
  | .ok () =>
    return primaryError.context
      ("removed incomplete recipe snapshot ".toList ++ name ++ " after snapshot operation failure".toList)
  | .error cleanupError =>
    return primaryError.attach
      ("recipe snapshot ".toList ++ name ++ " may remain; cleanup failed".toList) cleanupError

def snapshotName (nanos : Nat) : Text := "pbox-".toList ++ showNat nanos

def createRecipeSnapshot (config : RecipesConfig) (run : AnsibleRun) :
    Run Store (Except Error (Option RecipeSnapshot)) := do
  if config.snapshotBeforeApply = NEVER then return .ok none
  else if config.snapshotBeforeApply ≠ ALWAYS ∧ config.snapshotBeforeApply ≠ AUTO then
    return .error (.of ("invalid recipe snapshot policy: ".toList ++ config.snapshotBeforeApply))
  else
    match outcomes.nowNanos with
    | .error error => return .error (error.widen.context "read system clock".toList)
    | .ok nanos =>
      let name := snapshotName nanos
      match ← createLxcSnapshot outcomes ⟨name, "pbox before recipe ".toList ++ safeTerminalText run.recipe ++
          " @ ".toList ++ safeTerminalText run.revision⟩ with
      | .error error =>
        if config.snapshotBeforeApply = AUTO ∧ snapshotUnavailable error then return .ok none
        else
          return .error (← cleanupFailedRecipeSnapshot outcomes name
            (error.anyhow.context "create recipe snapshot".toList))
      | .ok task =>
        match ← waitForTask outcomes task with
        | .error error =>
          if unsupportedTask error then
            if config.snapshotBeforeApply = AUTO then return .ok none
            else
              return .error (error.anyhow.context
                "A snapshot is required by recipes.snapshot-before-apply=always".toList)
          else
            return .error (← cleanupFailedRecipeSnapshot outcomes name
              (error.anyhow.context ("wait for recipe snapshot ".toList ++ name)))
        | .ok () => return .ok (some ⟨name⟩)

def joinIds (ids : List Text) : Text := List.intercalate ", ".toList ids

/-- `apply_recipes`: whatever the playbook did, the operation directory is removed. -/
def applyRecipes (catalog : RecipeCatalog) (recipes : List Recipe) (boxId : Text) :
    Run Store (Except Error RecipeApplyResult) := do
  if recipes = [] then return .error (.of "at least one recipe is required".toList)
  else
    match outcomes.operationDirectory with
    | .error error => return .error error.widen
    | .ok () =>
      match outcomes.removeOperationDirectory with
      | .error cleanupError =>
        meet cleanupError.message
        match outcomes.ansible with
        | .error error => return .error (error.context cleanupError.message)
        | .ok () =>
          return .ok ⟨⟨joinIds (recipes.map (·.id)), boxId, catalog.repository, catalog.revision⟩,
            some cleanupError⟩
      | .ok () =>
        match outcomes.ansible with
        | .error error => return .error error
        | .ok () =>
          return .ok ⟨⟨joinIds (recipes.map (·.id)), boxId, catalog.repository, catalog.revision⟩, none⟩

def finishRecipeFailure (plannedRun : AnsibleRun) (capabilities : List Text) (primaryError : Error)
    (snapshot : Option RecipeSnapshot) (rollbackOnFailure : Bool) : Run Store Error := do
  let error ← (do
    if rollbackOnFailure then
      match snapshot with
      | some snapshot =>
        match ← rollbackRecipeSnapshot outcomes snapshot with
        | .ok () =>
          match ← deleteRecipeSnapshot outcomes snapshot with
          | .error deleteError =>
            return primaryError.attach "delete recovered recipe snapshot".toList deleteError
          | .ok () => return primaryError
        | .error rollbackError =>
          return primaryError.attach "rollback recipe snapshot".toList rollbackError
      | none =>
        return primaryError.context "rollback requested but no recipe snapshot was available".toList
    else
      match snapshot with
      | some snapshot =>
        return primaryError.context ("recipe snapshot ".toList ++ snapshot.name ++
          " was preserved for manual recovery".toList)
      | none => return primaryError)
  match ← record recordRecipeProvenance plannedRun capabilities FAILED with
  | .error provenanceError =>
    return error.attach "record failed recipe provenance".toList provenanceError.widen
  | .ok () => return error

def mergeCleanupError (existing : Option (Chain Empty)) (label : Text) (error : Error) : Error :=
  match existing with
  | some existing => existing.widen.attach label error
  | none => error.context label

def finishRecipeSuccess (run : AnsibleRun) (capabilities : List Text) (snapshot : Option RecipeSnapshot)
    (cleanupError : Option (Chain Empty)) : Run Store (Except Error Unit) := do
  match ← record recordRecipeProvenance run capabilities SUCCESS with
  | .error error =>
    let error := match cleanupError with
      | some cleanupError => error.widen.attach "recipe cleanup also failed".toList cleanupError.widen
      | none => error.widen
    return .error (match snapshot with
      | some snapshot => error.context ("recipe snapshot ".toList ++ snapshot.name ++
          " was preserved for manual recovery".toList)
      | none => error)
  | .ok () =>
    let cleanupError ← (do
      match snapshot with
      | some snapshot =>
        match ← deleteRecipeSnapshot outcomes snapshot with
        | .error error => return some (mergeCleanupError cleanupError "remove recipe snapshot".toList error)
        | .ok () => return cleanupError.map Chain.widen
      | none => return cleanupError.map Chain.widen)
    match cleanupError with
    | some error => return .error (error.context "recipe applied successfully but cleanup failed".toList)
    | none => return .ok ()

/-- The loop over the recipes: the last of them is given the snapshot and the cleanup error. -/
def finishRecipes (run : AnsibleRun) (snapshot : Option RecipeSnapshot) (cleanupError : Option (Chain Empty)) :
    List Recipe → Run Store (Except Error (List AnsibleRun))
  | [] => return .ok []
  | recipe :: rest => do
    let recipeRun := { run with recipe := recipe.id }
    match ← finishRecipeSuccess outcomes recordRecipeProvenance recipeRun recipe.capabilities
        (if rest = [] then snapshot else none) (if rest = [] then cleanupError else none) with
    | .error error => return .error error
    | .ok () => return (← finishRecipes run snapshot cleanupError rest).map (recipeRun :: ·)

/-- The recipes named on the command line, in its order. -/
def selectRecipes (catalog : RecipeCatalog) : List Text → Except Error (List Recipe)
  | [] => .ok []
  | id :: rest =>
    match catalog.recipes.find? (·.id == id) with
    | none => .error (.of ("recipe not found: ".toList ++ id))
    | some recipe => (selectRecipes catalog rest).map (recipe :: ·)

def allCapabilities (selected : List Recipe) : List Text :=
  (selected.flatMap (·.capabilities)).dedup.insertionSort fun left right => textLe left right

/-- The part of `run_recipe` that changes something, on the selected recipes. -/
def applySelected (config : RecipesConfig) (catalog : RecipeCatalog) (selected : List Recipe)
    (box : BoxRecord) : Run Store (Except Error (List AnsibleRun)) := do
  let plannedRun : AnsibleRun :=
    ⟨joinIds (selected.map (·.id)), box.id.value, catalog.repository, catalog.revision⟩
  match ← createRecipeSnapshot outcomes config plannedRun with
  | .error error =>
    return .error (← finishRecipeFailure outcomes recordRecipeProvenance plannedRun
      (allCapabilities selected) error none false)
  | .ok snapshot =>
    match ← applyRecipes outcomes catalog selected box.id.value with
    | .error error =>
      return .error (← finishRecipeFailure outcomes recordRecipeProvenance plannedRun
        (allCapabilities selected) error snapshot config.rollbackOnFailure)
    | .ok applied =>
      finishRecipes outcomes recordRecipeProvenance applied.run snapshot applied.cleanupError selected

def runRecipe (config : RecipesConfig) (catalog : RecipeCatalog) (recipe : List Text) :
    Run Store (Except Error (List AnsibleRun)) :=
  match selectRecipes catalog recipe with
  | .error error => return .error error
  | .ok selected =>
    match outcomes.findBox with
    | .error error => return .error error
    | .ok box =>
      if box.state ≠ "running".toList then
        return .error (.of ("box ".toList ++ box.id.value ++ " is not running".toList))
      else applySelected outcomes recordRecipeProvenance config catalog selected box

end Model

end Pbox.Cli.RecipeApply
