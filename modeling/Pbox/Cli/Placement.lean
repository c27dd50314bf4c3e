import Mathlib.Data.List.Sort
import Pbox.Core.Config
import Pbox.Lib.ErrorChain

/-! Where a new box goes: the node, the storages and the template that `pbox new` takes from its options, from the
configuration, and, where these leave it open, from what PVE lists. -/

namespace Pbox.Cli.Placement
open Pbox.Lib.Strings Pbox.Lib.ErrorChain Pbox.Core

abbrev Failure := Chain Empty

structure PveNode where
  node : Text
  status : Option Text
  deriving DecidableEq

/-- The type is one of the other fields that PVE sends. -/
structure PveStorage where
  storage : Text
  content : Option Text
  active : Option Nat
  enabled : Option Nat
  type : Option Text
  deriving DecidableEq

structure PveStorageContent where
  volid : Text
  content : Option Text
  deriving DecidableEq

/-- What PVE answers. -/
structure PveApi where
  listNodes : Except Failure (List PveNode)
  listNodeStorages : Text → Except Failure (List PveStorage)
  listStorageContent : Text → Text → Text → Except Failure (List PveStorageContent)

structure NewCommand where
  node : Option Text := none
  image : Option Text := none
  ostemplate : Option Text := none
  rootfs : Option Text := none
  net0 : Option Text := none
  name : Option Text := none
  memory : Option Nat := none
  swap : Option Nat := none
  cores : Option Nat := none
  stopped : Bool := false

structure ResolvedNew where
  node : Text
  image : Text
  ostemplate : Text
  rootfs : Text
  net0 : Text
  name : Option Text
  memory : Nat
  swap : Nat
  cores : Nat
  unprivileged : Bool
  onboot : Bool
  stopped : Bool
  deriving DecidableEq

def fail {Value : Type} (message : Text) : Except Failure Value := .error (.of message)

def withContext {Value : Type} (outcome : Except Failure Value) (message : Text) : Except Failure Value :=
  outcome.mapError fun error => error.context message

def AUTO : Text := "auto".toList

def nonEmptyNewValue (label value : Text) : Except Failure Text :=
  if trim value = [] then fail (label ++ " cannot be empty".toList) else .ok (trim value)

def positiveNewValue (label : Text) (value : Nat) : Except Failure Nat :=
  if value = 0 then fail (label ++ " must be greater than zero".toList) else .ok value

/-- A value with its two sides. -/
def volumeParts (label value : Text) : Except Failure (Text × Text) :=
  match splitOnce ':' value with
  | some (storage, volume) =>
    if storage = [] ∨ volume = [] then fail (label ++ " must use STORAGE:VALUE syntax".toList) else .ok (storage, volume)
  | none => fail (label ++ " must use STORAGE:VALUE syntax".toList)

def newVolumeOverride (label value : Text) : Except Failure Text := do
  let value ← nonEmptyNewValue label value
  let _ ← volumeParts label value
  return value

def isDigit (c : Char) : Bool := '0' ≤ c && c ≤ '9'

/-- What `f64` reads of texts of digits and dots. -/
def isDecimal (size : Text) : Bool := size.any isDigit && size.count '.' ≤ 1

def normaliseRootfsSize (value : Text) : Text :=
  let value := trim value
  match stripSuffix ['G'] value with
  | none => value
  | some size => if size.all (fun c => isDigit c || c == '.') && isDecimal size then size else value

def newRootfsOverride (value : Text) : Except Failure Text := do
  let value ← newVolumeOverride "--rootfs".toList value
  let (storage, size) ← volumeParts "--rootfs".toList value
  return storage ++ ':' :: normaliseRootfsSize size

def rootfsSizeForStorage (storages : List PveStorage) (storage configured : Text) : Text :=
  if (storages.find? fun candidate => candidate.storage = storage).bind (·.type) = some "dir".toList then "0".toList
  else normaliseRootfsSize configured

def storageSupports (content : Text) (storage : PveStorage) : Bool :=
  storage.active = some 1 && storage.enabled = some 1 &&
    storage.content.any fun available => (available.splitOn ',').any fun candidate => trim candidate = content

def byStorage (left right : PveStorage) : Bool := textLe left.storage right.storage

def byNode (left right : PveNode) : Bool := textLe left.node right.node

def selectPveStorage (storages : List PveStorage) (configured content role : Text) : Except Failure Text :=
  if configured ≠ AUTO then
    match storages.find? fun storage => storage.storage = configured with
    | none => fail ("PVE storage '".toList ++ configured ++ "' was not found on this node".toList)
    | some storage =>
      if storageSupports content storage then .ok storage.storage
      else fail ("PVE storage '".toList ++ configured ++ "' cannot store ".toList ++ role ++
        "; set the matching pve storage setting".toList)
  else
    match ((storages.filter (storageSupports content)).insertionSort fun left right => byStorage left right).head? with
    | some storage => .ok storage.storage
    | none => fail ("no active PVE storage on this node supports ".toList ++ role)

def storageMatchesRequirement (storages : List PveStorage) (configured content : Text) : Bool :=
  storages.any fun storage => (configured = AUTO || storage.storage = configured) && storageSupports content storage

/-- The first suffix that the text has is cut off. -/
def stripFirst (suffixes : List Text) (value : Text) : Text :=
  (suffixes.findSome? fun suffix => stripSuffix suffix value).getD value

def lower (text : Text) : Text := text.map Char.toLower

def templateMatches (image : Text) (content : PveStorageContent) : Bool :=
  let image := lower (trim image)
  let filename := lower ((content.volid.splitOn '/').getLast?.getD [])
  let stem := stripFirst [".tar.zst".toList, ".tar.gz".toList, ".tar.xz".toList, ".tar.bz2".toList, ".tar".toList] filename
  let versionless := stem.takeWhile (· ≠ '_')
  let canonical := stripFirst ["-standard".toList, "-default".toList] versionless
  content.content = some "vztmpl".toList && image ≠ [] && canonical ≠ versionless &&
    (canonical = image || versionless = image)

section Client
variable (client : PveApi)

/-- The nodes that are online, by name. -/
def onlineNodes : Except Failure (List PveNode) := do
  let nodes ← withContext client.listNodes "discover PVE nodes".toList
  return (nodes.filter fun node => node.status = some "online".toList).insertionSort fun left right => byNode left right

def nodeStorages (node : Text) : Except Failure (List PveStorage) :=
  withContext (client.listNodeStorages node) ("discover PVE storage on node ".toList ++ node)

/-- The first node whose storages are as they have to be. -/
def firstNode (suits : List PveStorage → Bool) (none_ : Text) : List PveNode → Except Failure Text
  | [] => fail none_
  | node :: rest => do
    let storages ← nodeStorages client node.node
    if suits storages then return node.node else firstNode suits none_ rest

def NO_NODE : Text := "no online PVE node found; pass --node or set pve.node".toList

def resolvePveNode (configured : Text) (requested : Option Text) : Except Failure Text :=
  let requested := requested.getD configured
  if requested ≠ AUTO then nonEmptyNewValue "PVE node".toList requested
  else do
    match (← onlineNodes client).head? with
    | some node => return node.node
    | none => fail NO_NODE

def resolvePveNodeWithStorage (configured : Text) (requested : Option Text) (storage content role : Text) :
    Except Failure Text :=
  let requested := requested.getD configured
  if requested ≠ AUTO then nonEmptyNewValue "PVE node".toList requested
  else do
    let nodes ← onlineNodes client
    firstNode client (storageMatchesRequirement · storage content)
      ("no online PVE node has active storage for ".toList ++ role ++
        "; pass --node or adjust the storage setting".toList) nodes

variable (config : Config) (command : NewCommand)

/-- What the node of a new box has to have: storages for what is not given. -/
def suitsNew (preparedOstemplate : Option Text) (storages : List PveStorage) : Bool :=
  (command.rootfs.isSome || storageMatchesRequirement storages config.pve.storage "rootdir".toList) &&
    (command.ostemplate.isSome || preparedOstemplate.isSome ||
      storageMatchesRequirement storages config.pve.templateStorage "vztmpl".toList)

def resolveNewNode (preparedOstemplate : Option Text) : Except Failure Text :=
  let requested := command.node.getD config.pve.node
  if requested ≠ AUTO then nonEmptyNewValue "PVE node".toList requested
  else do
    let nodes ← onlineNodes client
    if command.rootfs.isSome && (command.ostemplate.isSome || preparedOstemplate.isSome) then
      match nodes.head? with
      | some node => return node.node
      | none => fail NO_NODE
    else
      firstNode client (suitsNew config command preparedOstemplate)
        ("no online PVE node has the configured storage for this box; pass --node or adjust pve.storage and ".toList ++
          "pve.template-storage".toList) nodes

def findPveTemplate (node storage image : Text) : Except Failure (Option Text) := do
  let contents ← withContext (client.listStorageContent node storage "vztmpl".toList)
    ("list PVE templates in storage ".toList ++ storage)
  match contents.filter (templateMatches image) with
  | [] => return none
  | [content] => return some content.volid
  | _ => fail ("image '".toList ++ image ++ "' matches multiple PVE templates in storage '".toList ++ storage ++
      "'; use --ostemplate to select one".toList)

def resolveRootfs (storages : Option (List PveStorage)) : Except Failure Text :=
  match command.rootfs with
  | some rootfs => newRootfsOverride rootfs
  | none =>
    match storages with
    | none => fail "internal error: rootfs storage discovery was skipped".toList
    | some storages => do
      let storage ← selectPveStorage storages config.pve.storage "rootdir".toList "rootfs".toList
      return storage ++ ':' :: rootfsSizeForStorage storages storage config.pve.defaults.disk

def resolveOstemplate (preparedOstemplate : Option Text) (node : Text) (storages : Option (List PveStorage)) :
    Except Failure Text :=
  match command.ostemplate, preparedOstemplate with
  | some ostemplate, _ => newVolumeOverride "--ostemplate".toList ostemplate
  | none, some ostemplate => .ok ostemplate
  | none, none => do
    let image ← nonEmptyNewValue "--image".toList (command.image.getD config.images.default)
    match storages with
    | none => fail "internal error: template storage discovery was skipped".toList
    | some storages =>
      let storage ← selectPveStorage storages config.pve.templateStorage "vztmpl".toList "templates".toList
      match ← findPveTemplate client node storage image with
      | some template => return template
      | none => fail ("could not find image '".toList ++ image ++ "' in PVE storage '".toList ++ storage ++
          "'; use --ostemplate or set images.default".toList)

def resolveNet0 : Except Failure Text :=
  match command.net0 with
  | some net0 => nonEmptyNewValue "--net0".toList net0
  | none => do
    let bridge ← nonEmptyNewValue "pve.bridge".toList config.pve.bridge
    return "name=eth0,bridge=".toList ++ bridge ++ ",ip=dhcp".toList

def resolveName : Except Failure (Option Text) :=
  match command.name with
  | some name => (nonEmptyNewValue "--name".toList name).map some
  | none => .ok none

def resolveNode (preparedOstemplate preparedNode : Option Text) : Except Failure Text :=
  match preparedNode with
  | some node => nonEmptyNewValue "PVE node".toList node
  | none => resolveNewNode client config command preparedOstemplate

/-- The storages are listed where one of them has to be chosen. -/
def neededStorages (needed : Bool) (node : Text) : Except Failure (Option (List PveStorage)) :=
  if needed then (nodeStorages client node).map some else .ok none

def resolveNewCommandWithTemplate (preparedOstemplate preparedNode : Option Text) : Except Failure ResolvedNew := do
  let node ← resolveNode client config command preparedOstemplate preparedNode
  let storages ← neededStorages client
    (command.rootfs.isNone || (command.ostemplate.isNone && preparedOstemplate.isNone)) node
  let rootfs ← resolveRootfs config command storages
  let ostemplate ← resolveOstemplate client config command preparedOstemplate node storages
  let net0 ← resolveNet0 config command
  let name ← resolveName command
  let memory ← positiveNewValue "--memory".toList (command.memory.getD config.pve.defaults.memory)
  let cores ← positiveNewValue "--cores".toList (command.cores.getD config.pve.defaults.cores)
  return { node, image := ostemplate, ostemplate, rootfs, net0, name, memory, cores, stopped := command.stopped,
           swap := command.swap.getD config.pve.defaults.swap, unprivileged := config.pve.defaults.unprivileged,
           onboot := config.pve.defaults.onboot }

/-- Before that, without a given template: a template PVE has for the image, or one that is pulled. How it is pulled is a
parameter. -/
def prepareNewTemplate (pull : Text → Text → Text → Except Failure Text) : Except Failure (Option Text × Option Text) :=
  match command.ostemplate with
  | some _ => .ok (none, none)
  | none => do
    let image ← nonEmptyNewValue "--image".toList (command.image.getD config.images.default)
    let node ← resolveNewNode client config command none
    let storages ← nodeStorages client node
    let storage ← selectPveStorage storages config.pve.templateStorage "vztmpl".toList "templates".toList
    match ← findPveTemplate client node storage image with
    | some template => return (some node, some template)
    | none =>
      let volume ← pull node storage image
      return (some node, some volume)

/-- The plan of `run_new`. -/
def planNew (pull : Text → Text → Text → Except Failure Text) : Except Failure ResolvedNew := do
  let (node, ostemplate) ← prepareNewTemplate client config command pull
  resolveNewCommandWithTemplate client config command ostemplate node

end Client

end Pbox.Cli.Placement
