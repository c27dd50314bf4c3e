import Pbox.Core.Vmid

/-! The configuration and its setters. Keys and reasons are never looked into, so they are strings;
a path of a configuration comes from text and is that text. `reqwest::Url::parse` is a parameter. -/

namespace Pbox.Core
open Pbox.Lib.Strings Pbox.Lib.Numerals Pbox.Core.Vmid

structure PveDefaults where
  cores : Nat := 2
  memory : Nat := 1024
  swap : Nat := 256
  disk : Text := "8G".toList
  unprivileged : Bool := true
  onboot : Bool := false

structure PveConfig where
  url : Option Text := none
  tokenId : Option Text := none
  tokenSecret : Option Text := none
  tlsInsecure : Bool := false
  node : Text := "auto".toList
  storage : Text := "auto".toList
  templateStorage : Text := "local".toList
  bridge : Text := "vmbr0".toList
  defaults : PveDefaults := {}

structure AgentConfig where
  binary : Option Text := none
  port : Nat := 7443

structure RecipeConfig where
  repository : Text := "https://github.com/kierandrewett/pbox-recipes.git".toList
  reference : Text := "main".toList
  autoSync : Bool := true
  syncTtl : Text := "15m".toList
  snapshotBeforeApply : Text := "auto".toList
  rollbackOnFailure : Bool := false

structure ImageConfig where
  default : Text := "debian-13".toList

structure RelayConfig where
  url : Option Text := none
  keyFile : Option Text := none

structure Config where
  pve : PveConfig := {}
  agent : AgentConfig := {}
  relay : RelayConfig := {}
  images : ImageConfig := {}
  recipes : RecipeConfig := {}
  vmidPattern : VmidPattern := { leading := 9, wildcardDigits := 3, first := 9000, last := 9999 }

theorem default_vmidPattern : VmidPattern.parse "9xxx".toList = .ok ({} : Config).vmidPattern := by decide

inductive ConfigError where
  | unknownKey (key : String)
  | invalidValue (key reason : String)
  deriving DecidableEq

/-- What the checks ask of a parsed URL. -/
structure Url where
  scheme : Text
  host : Option Text
  username : Text
  password : Option Text
  query : Option Text
  fragment : Option Text
  path : Text

section Checks
variable (key : String) (value : Text)

/-- Refuses the value with this reason unless the condition holds. -/
def ensure (condition : Bool) (reason : String) : Except ConfigError Unit :=
  if condition then .ok () else .error (.invalidValue key reason)

def validateNonEmpty (reason : String) : Except ConfigError Unit :=
  ensure key (!(trim value).isEmpty) reason

def Url.plain (url : Url) : Bool :=
  url.username.isEmpty && url.password.isNone && url.query.isNone && url.fragment.isNone

def validatePveUrl (parseUrl : Text → Option Url) : Except ConfigError Unit := do
  ensure key (value == trim value) "URL must not have surrounding whitespace"
  match parseUrl (trim value) with
  | none => throw (.invalidValue key "URL must be a valid HTTPS URL")
  | some url =>
    ensure key (url.scheme == "https".toList && url.host.isSome) "URL must use HTTPS and include a host"
    ensure key url.plain "URL must not contain credentials, query, or fragment data"

def validateRelayUrl (parseUrl : Text → Option Url) : Except ConfigError Unit :=
  match parseUrl value with
  | none => throw (.invalidValue key "expected a relay HTTP(S) or WS(S) origin")
  | some url =>
    ensure key
      (["http".toList, "https".toList, "ws".toList, "wss".toList].contains url.scheme && url.host.isSome &&
        url.plain && ["".toList, "/".toList].contains url.path)
      "expected a relay origin without credentials, path, query, or fragment"

def validateSnapshotPolicy : Except ConfigError Unit :=
  ensure key (["auto".toList, "always".toList, "never".toList].contains value)
    "expected auto, always, or never"

def parseBool : Except ConfigError Bool :=
  if value = "true".toList then .ok true
  else if value = "false".toList then .ok false
  else .error (.invalidValue key "expected true or false")

def u16Max : Nat := 2 ^ 16 - 1

def parsePort : Except ConfigError Nat :=
  match parseUnsigned u16Max value with
  | none => .error (.invalidValue key "expected a TCP port from 1 to 65535")
  | some port => do
    ensure key (port != 0) "expected a TCP port from 1 to 65535"
    return port

def validatePositive (amount : Nat) : Except ConfigError Unit :=
  ensure key (amount != 0) "expected a value greater than zero"

def parseUnsignedValue : Except ConfigError Nat :=
  match parseUnsigned u64Max value with
  | none => .error (.invalidValue key "expected a non-negative integer")
  | some amount => .ok amount

def parsePositive : Except ConfigError Nat := do
  let parsed ← parseUnsignedValue key value
  validatePositive key parsed
  return parsed

/-- `split_once` with the separator of a URL's scheme. -/
def splitScheme : Text → Option (Text × Text)
  | ':' :: '/' :: '/' :: rest => some ([], rest)
  | [] => none
  | c :: rest => (splitScheme rest).map fun parts => (c :: parts.1, parts.2)

def validateRepositoryReference : Except ConfigError Unit := do
  validateNonEmpty key value "recipe repository cannot be empty"
  ensure key (!(value.contains '?' || value.contains '#'))
    "recipe repository must not contain query or fragment data"
  ensure key (find "::".toList value).isNone "recipe repository must not use Git external transport"
  match splitScheme value with
  | none => return ()
  | some (scheme, authorityAndPath) =>
    let scheme := scheme.map Char.toLower
    ensure key (["https".toList, "ssh".toList, "file".toList].contains scheme)
      "recipe repository URLs must use HTTPS, SSH, or file transport"
    let authority := authorityAndPath.takeWhile fun c => c != '/' && c != '\\'
    ensure key (!authority.contains '@') "recipe repository URLs must not contain embedded credentials"
    ensure key (scheme == "file".toList || !authority.isEmpty) "recipe repository URL must include a host"

end Checks

/-- The last character of a duration says its unit. -/
def durationParts (trimmed : Text) : Except String (Text × Nat) :=
  match trimmed.getLast? with
  | some 's' => .ok (trimmed.dropLast, 1)
  | some 'm' => .ok (trimmed.dropLast, 60)
  | some 'h' => .ok (trimmed.dropLast, 60 * 60)
  | some 'd' => .ok (trimmed.dropLast, 60 * 60 * 24)
  | some character =>
    if character.isDigit then .ok (trimmed, 1) else .error "use seconds, minutes, hours, or days"
  | none => .error "use seconds, minutes, hours, or days"

def parseDuration (value : Text) : Except String Nat := do
  let trimmed := trim value
  if trimmed.isEmpty then
    throw "duration cannot be empty"
  let (amountText, multiplier) ← durationParts trimmed
  match parseUnsigned u64Max amountText with
  | none => throw "duration amount must be an integer"
  | some amount =>
    if amount * multiplier ≤ u64Max then return amount * multiplier
    else throw "duration is too large"

/-- `map_err` to the error of a key. -/
def explained {α : Type} (key : String) (result : Except String α) : Except ConfigError α :=
  result.mapError (.invalidValue key)

/-- The check of an optional setting. -/
def ifSome {α : Type} (setting : Option α) (check : α → Except ConfigError Unit) : Except ConfigError Unit :=
  match setting with
  | some value => check value
  | none => .ok ()

section Setters
variable (parseUrl : Text → Option Url)

def Config.validate (config : Config) : Except ConfigError Unit := do
  ifSome config.relay.url fun url => validateRelayUrl "relay.url" url parseUrl
  ifSome config.relay.keyFile fun path =>
    validateNonEmpty "relay.key-file" path "relay key file path cannot be empty"
  ifSome config.pve.url fun url => do
    validateNonEmpty "pve.url" url "URL cannot be empty"
    validatePveUrl "pve.url" url parseUrl
  ifSome config.pve.tokenId fun tokenId =>
    validateNonEmpty "pve.token_id" tokenId "token id cannot be empty"
  ifSome config.pve.tokenSecret fun tokenSecret =>
    ensure "pve.token_secret" (!tokenSecret.isEmpty) "token secret cannot be empty"
  ifSome config.agent.binary fun binary =>
    ensure "agent.binary" (!binary.isEmpty) "agent binary path cannot be empty"
  ensure "agent.port" (config.agent.port != 0) "expected a TCP port from 1 to 65535"
  validateNonEmpty "pve.node" config.pve.node "PVE node cannot be empty"
  validateNonEmpty "pve.storage" config.pve.storage "PVE storage cannot be empty"
  validateNonEmpty "pve.template-storage" config.pve.templateStorage "PVE template storage cannot be empty"
  validateNonEmpty "pve.bridge" config.pve.bridge "PVE bridge cannot be empty"
  validatePositive "pve.defaults.cores" config.pve.defaults.cores
  validatePositive "pve.defaults.memory" config.pve.defaults.memory
  validateNonEmpty "pve.defaults.disk" config.pve.defaults.disk "default disk size cannot be empty"
  validateNonEmpty "images.default" config.images.default "default image cannot be empty"
  validateRepositoryReference "recipes.repository" config.recipes.repository
  validateNonEmpty "recipes.ref" config.recipes.reference "recipe reference cannot be empty"
  discard (explained "recipes.sync-ttl" (parseDuration config.recipes.syncTtl))
  validateSnapshotPolicy "recipes.snapshot-before-apply" config.recipes.snapshotBeforeApply

/-- A method with `&mut self` that may fail half way. -/
abbrev Setter := ExceptT ConfigError (StateM Config)

def assignPve (update : PveConfig → PveConfig) : Setter Unit :=
  modify fun config => { config with pve := update config.pve }

def assignDefaults (update : PveDefaults → PveDefaults) : Setter Unit :=
  assignPve fun pve => { pve with defaults := update pve.defaults }

def assignAgent (update : AgentConfig → AgentConfig) : Setter Unit :=
  modify fun config => { config with agent := update config.agent }

def assignRelay (update : RelayConfig → RelayConfig) : Setter Unit :=
  modify fun config => { config with relay := update config.relay }

def assignRecipes (update : RecipeConfig → RecipeConfig) : Setter Unit :=
  modify fun config => { config with recipes := update config.recipes }

def Config.setValue (key : String) (value : Text) : Setter Unit :=
  match key with
  | "pve.url" => do
    validateNonEmpty key value "URL cannot be empty"
    validatePveUrl key value parseUrl
    assignPve fun pve => { pve with url := some (trim value) }
  | "pve.token_id" => do
    validateNonEmpty key value "token id cannot be empty"
    assignPve fun pve => { pve with tokenId := some value }
  | "pve.token_secret" => do
    ensure key (!value.isEmpty) "token secret cannot be empty"
    assignPve fun pve => { pve with tokenSecret := some value }
  | "pve.tls_insecure" => do
    let parsed ← parseBool key value
    assignPve fun pve => { pve with tlsInsecure := parsed }
  | "pve.node" => do
    validateNonEmpty key value "PVE node cannot be empty"
    assignPve fun pve => { pve with node := trim value }
  | "pve.storage" => do
    validateNonEmpty key value "PVE storage cannot be empty"
    assignPve fun pve => { pve with storage := trim value }
  | "pve.template-storage" => do
    validateNonEmpty key value "PVE template storage cannot be empty"
    assignPve fun pve => { pve with templateStorage := trim value }
  | "pve.bridge" => do
    validateNonEmpty key value "PVE bridge cannot be empty"
    assignPve fun pve => { pve with bridge := trim value }
  | "pve.defaults.cores" => do
    let parsed ← parsePositive key value
    assignDefaults fun defaults => { defaults with cores := parsed }
  | "pve.defaults.memory" => do
    let parsed ← parsePositive key value
    assignDefaults fun defaults => { defaults with memory := parsed }
  | "pve.defaults.swap" => do
    let parsed ← parseUnsignedValue key value
    assignDefaults fun defaults => { defaults with swap := parsed }
  | "pve.defaults.disk" => do
    validateNonEmpty key value "default disk size cannot be empty"
    assignDefaults fun defaults => { defaults with disk := trim value }
  | "pve.defaults.unprivileged" => do
    let parsed ← parseBool key value
    assignDefaults fun defaults => { defaults with unprivileged := parsed }
  | "pve.defaults.onboot" => do
    let parsed ← parseBool key value
    assignDefaults fun defaults => { defaults with onboot := parsed }
  | "images.default" => do
    validateNonEmpty key value "default image cannot be empty"
    modify fun config => { config with images := { config.images with default := trim value } }
  | "agent.binary" => do
    ensure key (!(trim value).isEmpty) "agent binary path cannot be empty"
    assignAgent fun agent => { agent with binary := some value }
  | "relay.url" => do
    validateRelayUrl key value parseUrl
    assignRelay fun relay => { relay with url := some value }
  | "relay.key-file" => assignRelay fun relay => { relay with keyFile := some value }
  | "agent.port" => do
    let parsed ← parsePort key value
    assignAgent fun agent => { agent with port := parsed }
  | "recipes.repository" => do
    validateRepositoryReference key value
    assignRecipes fun recipes => { recipes with repository := value }
  | "recipes.ref" => do
    validateNonEmpty key value "recipe reference cannot be empty"
    assignRecipes fun recipes => { recipes with reference := value }
  | "recipes.auto-sync" => do
    let parsed ← parseBool key value
    assignRecipes fun recipes => { recipes with autoSync := parsed }
  | "recipes.sync-ttl" => do
    let _ ← explained key (parseDuration value)
    assignRecipes fun recipes => { recipes with syncTtl := value }
  | "recipes.snapshot-before-apply" => do
    validateSnapshotPolicy key value
    assignRecipes fun recipes => { recipes with snapshotBeforeApply := value }
  | "recipes.rollback-on-failure" => do
    let parsed ← parseBool key value
    assignRecipes fun recipes => { recipes with rollbackOnFailure := parsed }
  | "pve.vmid-pattern" => do
    let parsed ← explained key ((VmidPattern.parse value).mapError VmidError.text)
    modify fun config => { config with vmidPattern := parsed }
  | _ => throw (.unknownKey key)

def Config.unsetValue (key : String) : Setter Unit :=
  match key with
  | "pve.url" => assignPve fun pve => { pve with url := none }
  | "pve.token_id" => assignPve fun pve => { pve with tokenId := none }
  | "pve.token_secret" => assignPve fun pve => { pve with tokenSecret := none }
  | "pve.tls_insecure" => assignPve fun pve => { pve with tlsInsecure := false }
  | "pve.node" => assignPve fun pve => { pve with node := ({} : PveConfig).node }
  | "pve.storage" => assignPve fun pve => { pve with storage := ({} : PveConfig).storage }
  | "pve.template-storage" =>
    assignPve fun pve => { pve with templateStorage := ({} : PveConfig).templateStorage }
  | "pve.bridge" => assignPve fun pve => { pve with bridge := ({} : PveConfig).bridge }
  | "pve.defaults.cores" => assignDefaults fun defaults => { defaults with cores := ({} : PveDefaults).cores }
  | "pve.defaults.memory" =>
    assignDefaults fun defaults => { defaults with memory := ({} : PveDefaults).memory }
  | "pve.defaults.swap" => assignDefaults fun defaults => { defaults with swap := ({} : PveDefaults).swap }
  | "pve.defaults.disk" => assignDefaults fun defaults => { defaults with disk := ({} : PveDefaults).disk }
  | "pve.defaults.unprivileged" =>
    assignDefaults fun defaults => { defaults with unprivileged := ({} : PveDefaults).unprivileged }
  | "pve.defaults.onboot" =>
    assignDefaults fun defaults => { defaults with onboot := ({} : PveDefaults).onboot }
  | "images.default" =>
    modify fun config => { config with images := { config.images with default := ({} : ImageConfig).default } }
  | "agent.binary" => assignAgent fun agent => { agent with binary := none }
  | "relay.url" => assignRelay fun relay => { relay with url := none }
  | "relay.key-file" => assignRelay fun relay => { relay with keyFile := none }
  | "agent.port" => assignAgent fun agent => { agent with port := ({} : AgentConfig).port }
  | "recipes.repository" =>
    assignRecipes fun recipes => { recipes with repository := ({} : RecipeConfig).repository }
  | "recipes.ref" => assignRecipes fun recipes => { recipes with reference := ({} : RecipeConfig).reference }
  | "recipes.auto-sync" =>
    assignRecipes fun recipes => { recipes with autoSync := ({} : RecipeConfig).autoSync }
  | "recipes.sync-ttl" => assignRecipes fun recipes => { recipes with syncTtl := ({} : RecipeConfig).syncTtl }
  | "recipes.snapshot-before-apply" =>
    assignRecipes fun recipes =>
      { recipes with snapshotBeforeApply := ({} : RecipeConfig).snapshotBeforeApply }
  | "recipes.rollback-on-failure" =>
    assignRecipes fun recipes => { recipes with rollbackOnFailure := ({} : RecipeConfig).rollbackOnFailure }
  | "pve.vmid-pattern" => modify fun config => { config with vmidPattern := ({} : Config).vmidPattern }
  | _ => throw (.unknownKey key)

end Setters

end Pbox.Core
