import Pbox.Core.Config
import Mathlib.Tactic.Basic

/-! What the setters keep of a valid configuration. Every arm checks first and assigns last, so a
failing call changes nothing; an arm whose check is the one of `validate` keeps it valid. -/

namespace Pbox.Core.ConfigSetters
open Pbox.Lib.Strings Pbox.Lib.Numerals Pbox.Lib.Checks Pbox.Core.Vmid Pbox.Core

section Valid
variable (parseUrl : Text → Option Url)

/-- What `validate` accepts, field by field. -/
structure Valid (config : Config) : Prop where
  relayUrl : ∀ url, config.relay.url = some url → validateRelayUrl "relay.url" url parseUrl = .ok ()
  keyFile : ∀ path, config.relay.keyFile = some path → trim path ≠ []
  pveUrl : ∀ url, config.pve.url = some url → trim url ≠ [] ∧ validatePveUrl "pve.url" url parseUrl = .ok ()
  tokenId : ∀ tokenId, config.pve.tokenId = some tokenId → trim tokenId ≠ []
  tokenSecret : ∀ secret, config.pve.tokenSecret = some secret → secret ≠ []
  binary : ∀ binary, config.agent.binary = some binary → binary ≠ []
  port : config.agent.port ≠ 0
  node : trim config.pve.node ≠ []
  storage : trim config.pve.storage ≠ []
  templateStorage : trim config.pve.templateStorage ≠ []
  bridge : trim config.pve.bridge ≠ []
  cores : config.pve.defaults.cores ≠ 0
  memory : config.pve.defaults.memory ≠ 0
  disk : trim config.pve.defaults.disk ≠ []
  image : trim config.images.default ≠ []
  repository : validateRepositoryReference "recipes.repository" config.recipes.repository = .ok ()
  reference : trim config.recipes.reference ≠ []
  syncTtl : ∃ seconds, parseDuration config.recipes.syncTtl = .ok seconds
  policy : validateSnapshotPolicy "recipes.snapshot-before-apply" config.recipes.snapshotBeforeApply = .ok ()

end Valid

section Checks
variable {parseUrl : Text → Option Url} {key reason : String} {value : Text}

theorem ensure_iff {condition : Bool} : ensure key condition reason = .ok () ↔ condition = true := by
  unfold ensure
  split <;> simp_all

theorem validateNonEmpty_iff : validateNonEmpty key value reason = .ok () ↔ trim value ≠ [] := by
  unfold validateNonEmpty
  rw [ensure_iff]
  simp

theorem validatePositive_iff {amount : Nat} : validatePositive key amount = .ok () ↔ amount ≠ 0 := by
  unfold validatePositive
  rw [ensure_iff, bne_iff_ne]

theorem explained_iff {α : Type} {result : Except String α} {a : α} :
    explained key result = .ok a ↔ result = .ok a := by
  cases result <;> simp [explained, Except.mapError]

theorem discard_iff {α : Type} {result : Except ConfigError α} :
    discard result = .ok () ↔ ∃ a, result = .ok a := by
  cases result <;> simp [discard, Functor.mapConst, Except.map]

theorem ifSome_iff {α : Type} {setting : Option α} {check : α → Except ConfigError Unit} :
    ifSome setting check = .ok () ↔ ∀ a, setting = some a → check a = .ok () := by
  cases setting with
  | none => simp [ifSome]
  | some => simp [ifSome]

/-- The checks of `validate` one after the other are the fields of `Valid`. -/
theorem validate_iff {config : Config} : config.validate parseUrl = .ok () ↔ Valid parseUrl config := by
  unfold Config.validate
  simp only [bind_ok_iff, ensure_iff, validateNonEmpty_iff, validatePositive_iff, discard_iff, explained_iff,
    ifSome_iff,
    Bool.not_eq_true', List.isEmpty_eq_false_iff, bne_iff_ne]
  constructor
  · rintro ⟨relayUrl, keyFile, pveUrl, tokenId, tokenSecret, binary, port, node, storage, templateStorage,
      bridge, cores, memory, disk, image, repository, reference, syncTtl, policy⟩
    exact ⟨relayUrl, keyFile, pveUrl, tokenId, tokenSecret, binary, port, node, storage, templateStorage,
      bridge, cores, memory, disk, image, repository, reference, syncTtl, policy⟩
  · intro valid
    exact ⟨valid.relayUrl, valid.keyFile, valid.pveUrl, valid.tokenId, valid.tokenSecret, valid.binary,
      valid.port, valid.node, valid.storage, valid.templateStorage, valid.bridge, valid.cores, valid.memory,
      valid.disk, valid.image, valid.repository, valid.reference, valid.syncTtl, valid.policy⟩

theorem parsePositive_ne {amount : Nat} (read : parsePositive key value = .ok amount) : amount ≠ 0 := by
  unfold parsePositive at read
  cases parsed : parseUnsignedValue key value with
  | error =>
    rw [parsed] at read
    cases read
  | ok n =>
    rw [parsed] at read
    obtain ⟨positive, same⟩ := (bind_ok_iff _ _ _).mp read
    cases same
    exact validatePositive_iff.mp positive

theorem parsePort_ne {port : Nat} (read : parsePort key value = .ok port) : port ≠ 0 := by
  unfold parsePort at read
  split at read
  next => cases read
  next n parsed =>
    obtain ⟨positive, same⟩ := (bind_ok_iff _ _ _).mp read
    cases same
    exact bne_iff_ne.mp (ensure_iff.mp positive)

theorem validatePveUrl_trim (checked : validatePveUrl key value parseUrl = .ok ()) : trim value = value := by
  unfold validatePveUrl at checked
  obtain ⟨same, _⟩ := (bind_ok_iff _ _ _).mp checked
  exact (beq_iff_eq.mp (ensure_iff.mp same)).symm

/-- Every default passes its own check. -/
theorem default_valid : Valid parseUrl {} := validate_iff.mp rfl

end Checks

section Setters

/-- An action that changes nothing when it fails, and otherwise what the relation allows. -/
def Assigns (relation : Config → Config → Prop) (action : Setter Unit) : Prop :=
  ∀ config, match action.run.run config with
    | (.ok (), next) => relation config next
    | (.error _, next) => next = config

variable {relation : Config → Config → Prop}

theorem assigns_check {α : Type} {check : Except ConfigError α} {rest : α → Setter Unit}
    (assigns : ∀ a, check = .ok a → Assigns relation (rest a)) :
    Assigns relation (liftM check >>= rest) := by
  cases check with
  | error => exact fun _ => rfl
  | ok a => exact assigns a rfl

theorem assigns_modify {update : Config → Config} (allowed : ∀ config, relation config (update config)) :
    Assigns relation (modify update) := allowed

theorem assigns_throw {error : ConfigError} : Assigns relation (throw error) := fun _ => rfl

def Keeps (parseUrl : Text → Option Url) (config next : Config) : Prop :=
  Valid parseUrl config → Valid parseUrl next

variable {parseUrl : Text → Option Url}

/-- A setter guarded by the check of a non-empty text, which it trims. -/
theorem keeps_trimmed {key reason : String} {value : Text} {update : Config → Config}
    (keeps : ∀ config, trim (trim value) ≠ [] → Keeps parseUrl config (update config)) :
    Assigns (Keeps parseUrl)
      (liftM (validateNonEmpty key value reason) >>= fun _ => (modify update : Setter Unit)) :=
  assigns_check fun _ checked =>
    assigns_modify fun config => keeps config (trim_trim_ne_nil (validateNonEmpty_iff.mp checked))

theorem setValue_keeps (key : String) (value : Text) (other : ¬(key = "relay.key-file" ∧ trim value = [])) :
    Assigns (Keeps parseUrl) (Config.setValue parseUrl key value) := by
  unfold Config.setValue
  split
  case h_1 =>
    refine assigns_check fun _ nonempty => assigns_check fun _ checked => assigns_modify fun config valid => ?_
    have same := validatePveUrl_trim checked
    refine { valid with pveUrl := ?_ }
    rintro url ⟨⟩
    rw [same]
    exact ⟨validateNonEmpty_iff.mp nonempty, checked⟩
  case h_2 =>
    refine assigns_check fun _ checked => assigns_modify fun config valid => { valid with tokenId := ?_ }
    rintro tokenId ⟨⟩
    exact validateNonEmpty_iff.mp checked
  case h_3 =>
    refine assigns_check fun _ checked => assigns_modify fun config valid => { valid with tokenSecret := ?_ }
    rintro secret ⟨⟩
    simpa using ensure_iff.mp checked
  case h_4 => exact assigns_check fun _ _ => assigns_modify fun _ valid => { valid with }
  case h_5 => exact keeps_trimmed fun _ node valid => { valid with node }
  case h_6 => exact keeps_trimmed fun _ storage valid => { valid with storage }
  case h_7 => exact keeps_trimmed fun _ templateStorage valid => { valid with templateStorage }
  case h_8 => exact keeps_trimmed fun _ bridge valid => { valid with bridge }
  case h_9 =>
    exact assigns_check fun _ read => assigns_modify fun _ valid => { valid with cores := parsePositive_ne read }
  case h_10 =>
    exact assigns_check fun _ read => assigns_modify fun _ valid => { valid with memory := parsePositive_ne read }
  case h_11 => exact assigns_check fun _ _ => assigns_modify fun _ valid => { valid with }
  case h_12 => exact keeps_trimmed fun _ disk valid => { valid with disk }
  case h_13 => exact assigns_check fun _ _ => assigns_modify fun _ valid => { valid with }
  case h_14 => exact assigns_check fun _ _ => assigns_modify fun _ valid => { valid with }
  case h_15 => exact keeps_trimmed fun _ image valid => { valid with image }
  case h_16 =>
    refine assigns_check fun _ checked => assigns_modify fun config valid => { valid with binary := ?_ }
    rintro binary ⟨⟩
    exact ne_nil_of_trim (by simpa using ensure_iff.mp checked)
  case h_17 =>
    refine assigns_check fun _ checked => assigns_modify fun config valid => { valid with relayUrl := ?_ }
    rintro url ⟨⟩
    exact checked
  case h_18 =>
    refine assigns_modify fun config valid => { valid with keyFile := ?_ }
    rintro path ⟨⟩
    exact fun empty => other ⟨rfl, empty⟩
  case h_19 =>
    exact assigns_check fun _ read => assigns_modify fun _ valid => { valid with port := parsePort_ne read }
  case h_20 =>
    exact assigns_check fun _ repository => assigns_modify fun _ valid => { valid with repository }
  case h_21 =>
    refine assigns_check fun _ checked => assigns_modify fun _ valid => ?_
    exact { valid with reference := validateNonEmpty_iff.mp checked }
  case h_22 => exact assigns_check fun _ _ => assigns_modify fun _ valid => { valid with }
  case h_23 =>
    refine assigns_check fun seconds read => assigns_modify fun _ valid => ?_
    exact { valid with syncTtl := ⟨seconds, explained_iff.mp read⟩ }
  case h_24 => exact assigns_check fun _ policy => assigns_modify fun _ valid => { valid with policy }
  case h_25 => exact assigns_check fun _ _ => assigns_modify fun _ valid => { valid with }
  case h_26 => exact assigns_check fun _ _ => assigns_modify fun _ valid => { valid with }
  case h_27 => exact assigns_throw

/-- What a setter is reset to passes the check of its key. -/
theorem unsetValue_keeps (key : String) : Assigns (Keeps parseUrl) (Config.unsetValue key) := by
  have fallback : Valid parseUrl {} := default_valid
  unfold Config.unsetValue
  split
  case h_1 => exact assigns_modify fun _ valid => { valid with pveUrl := nofun }
  case h_2 => exact assigns_modify fun _ valid => { valid with tokenId := nofun }
  case h_3 => exact assigns_modify fun _ valid => { valid with tokenSecret := nofun }
  case h_5 => exact assigns_modify fun _ valid => { valid with node := fallback.node }
  case h_6 => exact assigns_modify fun _ valid => { valid with storage := fallback.storage }
  case h_7 => exact assigns_modify fun _ valid => { valid with templateStorage := fallback.templateStorage }
  case h_8 => exact assigns_modify fun _ valid => { valid with bridge := fallback.bridge }
  case h_9 => exact assigns_modify fun _ valid => { valid with cores := fallback.cores }
  case h_10 => exact assigns_modify fun _ valid => { valid with memory := fallback.memory }
  case h_12 => exact assigns_modify fun _ valid => { valid with disk := fallback.disk }
  case h_15 => exact assigns_modify fun _ valid => { valid with image := fallback.image }
  case h_16 => exact assigns_modify fun _ valid => { valid with binary := nofun }
  case h_17 => exact assigns_modify fun _ valid => { valid with relayUrl := nofun }
  case h_18 => exact assigns_modify fun _ valid => { valid with keyFile := nofun }
  case h_19 => exact assigns_modify fun _ valid => { valid with port := fallback.port }
  case h_20 => exact assigns_modify fun _ valid => { valid with repository := fallback.repository }
  case h_21 => exact assigns_modify fun _ valid => { valid with reference := fallback.reference }
  case h_23 => exact assigns_modify fun _ valid => { valid with syncTtl := fallback.syncTtl }
  case h_24 => exact assigns_modify fun _ valid => { valid with policy := fallback.policy }
  case h_27 => exact assigns_throw
  -- the settings that `validate` does not look at
  all_goals exact assigns_modify fun _ valid => { valid with }

end Setters

section Runs

inductive Call where
  | set (key : String) (value : Text)
  | unset (key : String)

variable (parseUrl : Text → Option Url)

def Call.action : Call → Setter Unit
  | .set key value => Config.setValue parseUrl key value
  | .unset key => Config.unsetValue key

/-- Every call that succeeds leaves a configuration that can be saved, and every other one the
configuration that it found. -/
def Safe (config : Config) : List Call → Prop
  | [] => True
  | call :: rest =>
    match (call.action parseUrl).run.run config with
    | (.ok (), next) => next.validate parseUrl = .ok () ∧ Safe next rest
    | (.error _, next) => next = config ∧ Safe next rest

/-- A relay key file whose path is empty or white space. -/
def Call.BlankKeyFile : Call → Prop
  | .set key value => key = "relay.key-file" ∧ trim value = []
  | .unset _ => False

variable {parseUrl}

theorem call_keeps {call : Call} (other : ¬call.BlankKeyFile) :
    Assigns (Keeps parseUrl) (call.action parseUrl) := by
  cases call with
  | set key value => exact setValue_keeps key value other
  | unset key => exact unsetValue_keeps key

/-- The setter of the key file checks nothing. -/
theorem setKeyFile (config : Config) (value : Text) :
    (Config.setValue parseUrl "relay.key-file" value).run.run config =
      (.ok (), { config with relay := { config.relay with keyFile := some value } }) := by
  rfl

theorem blank_invalid {call : Call} (blank : call.BlankKeyFile) (config : Config) (rest : List Call) :
    ¬Safe parseUrl config (call :: rest) := by
  cases call with
  | unset key => exact absurd blank id
  | set key value =>
    obtain ⟨rfl, empty⟩ := blank
    intro safe
    simp only [Safe, Call.action, setKeyFile] at safe
    exact (validate_iff.mp safe.1).keyFile value rfl empty

theorem default_saves : ({} : Config).validate parseUrl = .ok () := validate_iff.mpr default_valid

/-- Setters keep a configuration valid exactly when no call blanks the relay's key file. -/
theorem setters_safe_iff (config : Config) (valid : config.validate parseUrl = .ok ()) (calls : List Call) :
    Safe parseUrl config calls ↔ ∀ call ∈ calls, ¬call.BlankKeyFile := by
  induction calls generalizing config with
  | nil => simp [Safe]
  | cons call rest ih =>
    by_cases blank : call.BlankKeyFile
    · exact iff_of_false (blank_invalid blank config rest) fun none => none call List.mem_cons_self blank
    · have assigns : Assigns (Keeps parseUrl) (call.action parseUrl) := call_keeps blank
      have keeps := assigns config
      rw [List.forall_mem_cons]
      unfold Safe
      split
      next next result =>
        rw [result] at keeps
        have saved := validate_iff.mpr (keeps (validate_iff.mp valid))
        rw [ih next saved]
        exact ⟨fun safe => ⟨blank, safe.2⟩, fun others => ⟨saved, others.2⟩⟩
      next error next result =>
        rw [result] at keeps
        obtain rfl : next = config := keeps
        rw [ih next valid]
        exact ⟨fun safe => ⟨blank, safe.2⟩, fun others => ⟨rfl, others.2⟩⟩

/-- From the default configuration, a token, a refused URL and a reset key file in turn. -/
theorem default_setters_safe :
    Safe (fun _ => none) {} [.set "pve.token_id" "root@pam!box".toList, .set "relay.url" "relay".toList,
      .unset "relay.key-file"] :=
  (setters_safe_iff {} default_saves _).mpr (by simp [Call.BlankKeyFile])

/-- An empty key file is accepted by its setter and refused by `validate`. -/
theorem blank_key_file_invalid :
    ¬∀ (parseUrl : Text → Option Url) (config : Config) (key : String) (value : Text),
      config.validate parseUrl = .ok () →
        match (Config.setValue parseUrl key value).run.run config with
        | (.ok (), next) => next.validate parseUrl = .ok ()
        | (.error _, next) => next = config := by
  intro always
  have refused := always (fun _ => none) {} "relay.key-file" [] default_saves
  rw [setKeyFile] at refused
  exact (validate_iff.mp refused).keyFile [] rfl rfl

end Runs

end Pbox.Core.ConfigSetters
