import Pbox.Lib.Lines
import Pbox.Lib.Numerals
import Pbox.Cli.Provenance

/-! `discover_boxes`, `find_box` and the snapshot `inventory`: one listing of the cluster and then
reads of its containers one after another. The cluster may change between any two calls. -/

namespace Pbox.Cli.Discovery
open Pbox.Lib.Strings Pbox.Lib.Lines Pbox.Lib.Numerals Pbox.Lib.ErrorChain
open Pbox.Core.Id Pbox.Core.Metadata Pbox.Cli.Provenance

abbrev Error := Chain Empty

structure ClusterResource where
  resourceType : Text
  vmid : Option UInt64
  node : Option Text
  status : Option Text
  name : Option Text

/-- A value of the untyped part of a configuration. -/
inductive Json where
  | bool (value : Bool)
  | unsigned (value : Nat)
  | string (value : Text)
  | other
  deriving DecidableEq

structure LxcConfig where
  description : Option Text
  hostname : Option Text
  lock : Option Json
  template : Option Json

structure LxcInterface where
  name : Option Text
  inet : Option Text
  inet6 : Option Text
  ipAddresses : List Text
  exists_ : Option UInt64
  active : Option UInt64

/-- The standard library's reading and printing of addresses. -/
structure AddressText where
  parseIpv4 : Text → Option (BitVec 32)
  showIpv4 : BitVec 32 → Text
  parseIpv6 : Text → Option (BitVec 128)
  showIpv6 : BitVec 128 → Text

/-- What the cluster answers to each request while it stays as it is. -/
structure Cluster where
  resources : Except Error (List ClusterResource)
  config : Text → UInt64 → Except Error LxcConfig
  activeDeleteTasks : Text → Except Error (List Text)
  interfaces : Text → UInt64 → Except Error (List LxcInterface)

/-- The calls of one run, told apart by the position of the container in the listing. -/
inductive Call where
  | resources
  | config (position : Nat)
  | activeDeleteTasks (position : Nat)
  | interfaces (position : Nat)
  deriving DecidableEq

/-- The cluster as each call finds it. -/
abbrev History := Call → Cluster

structure BoxRecord where
  id : PboxId
  image : Option Text
  vmid : UInt64
  state : Text
  node : Text
  ip : Option Text
  ipv6 : Option Text
  name : Option Text
  recipes : List PboxRecipeProvenance
  capabilities : List Text
  deriving DecidableEq

def LXC : Text := "lxc".toList
def RUNNING : Text := "running".toList
def DELETING : Text := "deleting".toList
def CURRENT : Text := "current".toList
def ETH0 : Text := "eth0".toList

section Addresses
variable (text : AddressText)

def usable (interface : LxcInterface) : Bool :=
  interface.active != some 0 && interface.exists_ != some 0

def notEth0 (interface : LxcInterface) : Bool := interface.name != some ETH0

/-- The address before the length of its network. -/
def address (value : Text) : Text := value.takeWhile (· != '/')

def globalIpv4 (ip : BitVec 32) : Bool :=
  ip != 0 && ip.extractLsb' 24 8 != 127 && ip.extractLsb' 16 16 != 0xa9fe

def globalIpv6 (ip : BitVec 128) : Bool :=
  ip != 0 && ip != 1 && ip.extractLsb' 118 10 != 0x3fa && ip.extractLsb' 120 8 != 0xff

/-- The order of the candidates: those of `eth0` first, then by their octets. -/
def before {w : Nat} (left right : Bool × BitVec w) : Bool :=
  if left.1 = right.1 then left.2.toNat ≤ right.2.toNat else right.1

/-- The first of the least candidates. -/
def least {w : Nat} (candidates : List (Bool × BitVec w)) : Option (Bool × BitVec w) :=
  candidates.foldl (fun found candidate =>
    match found with
    | none => some candidate
    | some best => if before best candidate then some best else some candidate) none

def selectLxcIpv4 (interfaces : List LxcInterface) : Option (BitVec 32) :=
  (least (interfaces.filterMap fun interface =>
    if usable interface then
      match interface.inet.bind fun inet => text.parseIpv4 (address inet) with
      | some ip => if globalIpv4 ip then some (notEth0 interface, ip) else none
      | none => none
    else none)).map (·.2)

def selectLxcIpv6 (interfaces : List LxcInterface) : Option (BitVec 128) :=
  (least ((interfaces.filter usable).flatMap fun interface =>
    (((interface.ipAddresses ++ interface.inet6.toList).filterMap fun value =>
      text.parseIpv6 (address value)).filter globalIpv6).map fun ip => (notEth0 interface, ip))).map (·.2)

end Addresses

def lifecycleState (state : Text) (lock : Option Text) (deleting : Bool) : Text :=
  if deleting ∨ lock = some "destroyed".toList then DELETING else state

def Json.asStr : Json → Option Text
  | .string value => some value
  | _ => none

/-- The VMID that a task identifier names is its seventh part. -/
def deletes (vmid : UInt64) (upid : Text) : Bool := (upid.splitOn ':')[6]? == some (showNat vmid.toNat)

section Boxes
variable (text : AddressText) (codec : Codec) (history : History)

def discoverLxcAddresses (position : Nat) (node : Text) (vmid : UInt64) :
    Except Error (Option Text × Option Text) :=
  match (history (.interfaces position)).interfaces node vmid with
  | .error error => .error (error.context "read runtime LXC interfaces".toList)
  | .ok interfaces =>
    .ok ((selectLxcIpv4 text interfaces).map text.showIpv4, (selectLxcIpv6 text interfaces).map text.showIpv6)

/-- The records found so far and the tasks of the nodes asked so far. -/
structure Scan where
  records : List BoxRecord
  deleting : List (Text × List Text)

/-- The entry for the node, which asks the node when there is none. -/
def deletingOn (position : Nat) (node : Text) (deleting : List (Text × List Text)) :
    List Text × List (Text × List Text) :=
  match deleting.lookup node with
  | some tasks => (tasks, deleting)
  | none =>
    let tasks := ((history (.activeDeleteTasks position)).activeDeleteTasks node).toOption.getD []
    (tasks, (node, tasks) :: deleting)

/-- The record belongs to this container. -/
def placed (metadata : PboxMetadata) (node : Text) (vmid : UInt64) : Bool :=
  metadata.vmid == vmid && metadata.node.all (· == node)

/-- A container with pbox metadata of its own. -/
def record (position : Nat) (resource : ClusterResource) (node : Text) (vmid : UInt64) (config : LxcConfig)
    (metadata : PboxMetadata) (tasks : List Text) : Except Error BoxRecord :=
  let state := lifecycleState (resource.status.getD "unknown".toList) (config.lock.bind Json.asStr)
    (tasks.any (deletes vmid))
  let addresses :=
    if state = RUNNING then
      (discoverLxcAddresses text history position node vmid).mapError fun error =>
        error.context ("discover addresses for box ".toList ++ metadata.id.value)
    else .ok (none, none)
  match addresses with
  | .error error => .error error
  | .ok (ip, ipv6) =>
    .ok { id := metadata.id, image := metadata.image, vmid, state, node, ip, ipv6,
          name := config.hostname <|> resource.name, recipes := metadata.recipes,
          capabilities := metadata.capabilities }

/-- One pass of the loop of `discover_boxes`. -/
def visit (scan : Scan) (position : Nat) (resource : ClusterResource) : Except Error Scan :=
  match resource.node, resource.vmid with
  | some node, some vmid =>
    match (history (.config position)).config node vmid with
    | .error error => .error (error.context ("read metadata for PVE container on ".toList ++ node))
    | .ok config =>
      match config.description with
      | none => .ok scan
      | some description =>
        match parseMetadata codec description with
        | .error error =>
          .error ((Chain.of (metadataErrorText error)).context "parse pbox metadata".toList)
        | .ok none => .ok scan
        | .ok (some metadata) =>
          if placed metadata node vmid then
            let (tasks, deleting) := deletingOn history position node scan.deleting
            (record text history position resource node vmid config metadata tasks).map fun found =>
              ⟨scan.records ++ [found], deleting⟩
          else .ok scan
  | _, _ => .ok scan

def visitAll (scan : Scan) (position : Nat) : List ClusterResource → Except Error Scan
  | [] => .ok scan
  | resource :: later =>
    match visit text codec history scan position resource with
    | .error error => .error error
    | .ok next => visitAll next (position + 1) later

def location (box : BoxRecord) : Text :=
  "node ".toList ++ box.node ++ " VMID ".toList ++ showNat box.vmid.toNat

/-- The check of neighbours in the sorted list. -/
def duplicate : List BoxRecord → Option Error
  | first :: second :: later =>
    if first.id = second.id then
      some (.of ("duplicate pbox id ".toList ++ first.id.value ++ " in PVE metadata for ".toList ++
        location first ++ " and ".toList ++ location second))
    else duplicate (second :: later)
  | _ => none

def containers (resources : List ClusterResource) : List ClusterResource :=
  resources.filter fun resource => resource.resourceType == LXC

def byId (left right : BoxRecord) : Bool := textLe left.id.value right.id.value

def discoverBoxes : Except Error (List BoxRecord) :=
  match (history .resources).resources with
  | .error error => .error (error.context "list PVE resources".toList)
  | .ok resources =>
    match visitAll text codec history ⟨[], []⟩ 0 (containers resources) with
    | .error error => .error error
    | .ok scan =>
      let records := scan.records.insertionSort fun left right => byId left right
      match duplicate records with
      | some error => .error error
      | none => .ok records

def isCurrentBoxReference (value : Text) : Bool :=
  value.map Char.toLower == CURRENT

def matching (reference : Text) (box : BoxRecord) : Bool :=
  isCurrentBoxReference reference ||
    match PboxId.parse reference with
    | .ok id => box.id == id
    | .error _ => box.name == some reference

def joinIds : List BoxRecord → Text
  | [] => []
  | [box] => box.id.value
  | box :: later => box.id.value ++ ", ".toList ++ joinIds later

def selectBoxReference (boxes : List BoxRecord) (reference : Text) : Except Error BoxRecord :=
  match boxes.filter (matching reference) with
  | [] => .error (.of ("box '".toList ++ reference ++ "' was not found; use ".toList ++ "`pbox list`".toList))
  | [box] => .ok box
  | found =>
    .error (.of ("box reference '".toList ++ reference ++
      "' is ambiguous; use an explicit ID: ".toList ++ joinIds found))

def findBox (reference : Text) : Except Error BoxRecord :=
  match discoverBoxes text codec history with
  | .error error => .error error
  | .ok boxes => selectBoxReference boxes reference

end Boxes

structure SavedEnvironment where
  ready : Bool
  id : Text
  name : Text
  node : Text
  vmid : UInt64
  source : Text
  image : Option Text
  created : Text
  bootstrapId : Text
  recipes : List PboxRecipeProvenance
  capabilities : List Text
  deriving DecidableEq

def MARKER : Text := "pbox-snapshot-v1 ".toList

/-- `serde_json` on a saved environment. -/
abbrev SavedReader := Text → Except JsonError SavedEnvironment

section Saved
variable (read : SavedReader) (history : History)

def parseSaved (description : Text) : Except Error (Option SavedEnvironment) :=
  match (lines description).filterMap (stripPrefix MARKER) with
  | [] => .ok none
  | [line] => ((read line).mapError fun error => (Chain.of error).context "read snapshot metadata".toList).map some
  | _ => .error (.of "duplicate snapshot metadata".toList)

def template (config : LxcConfig) : Bool :=
  config.template == some (.bool true) || config.template == some (.unsigned 1)

/-- One pass of the loop of `inventory`. -/
def inspect (result : List SavedEnvironment) (position : Nat) (resource : ClusterResource) :
    Except Error (List SavedEnvironment) :=
  match resource.node, resource.vmid with
  | some node, some vmid =>
    match (history (.config position)).config node vmid with
    | .error error => .error error
    | .ok config =>
      match parseSaved read (config.description.getD []) with
      | .error error => .error error
      | .ok none => .ok result
      | .ok (some saved) =>
        if saved.vmid = vmid ∧ saved.node = node then
          .ok (result ++ [{ saved with ready := template config }])
        else
          .error (.of ("snapshot ".toList ++ saved.id ++ " metadata does not match its PVE location".toList))
  | _, _ => .ok result

def inspectAll (result : List SavedEnvironment) (position : Nat) :
    List ClusterResource → Except Error (List SavedEnvironment)
  | [] => .ok result
  | resource :: later =>
    match inspect read history result position resource with
    | .error error => .error error
    | .ok next => inspectAll next (position + 1) later

/-- By name, and by identifier under one name. -/
def byName (left right : SavedEnvironment) : Bool :=
  if left.name = right.name then textLe left.id right.id else textLe left.name right.name

def inventory : Except Error (List SavedEnvironment) :=
  match (history .resources).resources with
  | .error error => .error error
  | .ok resources =>
    (inspectAll read history [] 0 (containers resources)).map fun result =>
      result.insertionSort fun left right => byName left right

end Saved

end Pbox.Cli.Discovery
