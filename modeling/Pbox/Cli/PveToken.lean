import Pbox.Core.Config
import Pbox.Core.Identity
import Pbox.Lib.Replace

/-! The credential that pbox presents to Proxmox and to the relay's access endpoint. The client for Proxmox puts it
together with a space that it then takes out again, with every other space behind an equals sign. -/

namespace Pbox.Cli.PveToken
open Pbox.Lib.Strings Pbox.Lib.Replace Pbox.Lib.Checks Pbox.Core Pbox.Core.Identity

structure PveClientConfig where
  baseUrl : Text
  tokenId : Text
  tokenSecret : Text
  tlsInsecure : Bool := false

inductive PveError where
  | client
  | invalidBaseUrl
  deriving DecidableEq

structure PveClient (Http : Type) where
  http : Http
  baseUrl : Text
  authorization : Text

def API_PREFIX : Text := "/api2/json".toList

def normaliseBaseUrl (parseUrl : Text → Option Url) (value : Text) : Except PveError Text := do
  let trimmed := trimEndMatches '/' (trim value)
  if trimmed.isEmpty then
    throw .invalidBaseUrl
  match parseUrl trimmed with
  | none => throw .invalidBaseUrl
  | some parsed =>
    if parsed.scheme ≠ "https".toList || parsed.host.isNone || !parsed.plain then
      throw .invalidBaseUrl
    if API_PREFIX.isSuffixOf trimmed then
      return trimmed
    else
      return trimmed ++ API_PREFIX

section Clients
variable {Http : Type} (build : Bool → Option Http) (parseUrl : Text → Option Url) (render : Url → Text)

/-- `PveClient::new`; an HTTP client is built, or is not, for the setting of certificate checks. -/
def PveClient.new (config : PveClientConfig) : Except PveError (PveClient Http) := do
  match build config.tlsInsecure with
  | none => throw .client
  | some http =>
    let baseUrl ← normaliseBaseUrl parseUrl config.baseUrl
    let authorization := replace "= ".toList "=".toList
      ("PVEAPIToken=".toList ++ config.tokenId ++ "= ".toList ++ config.tokenSecret)
    return { http, baseUrl, authorization }

inductive ClientError where
  | missing (reason : String)
  | create (source : PveError)

def clientFromConfig (config : Config) : Except ClientError (PveClient Http) :=
  match config.pve.url, config.pve.tokenId, config.pve.tokenSecret with
  | none, _, _ => .error (.missing "pve.url is not configured")
  | _, none, _ => .error (.missing "pve.token_id is not configured")
  | _, _, none => .error (.missing "pve.token_secret is not configured")
  | some baseUrl, some tokenId, some tokenSecret =>
    (PveClient.new build parseUrl ⟨baseUrl, tokenId, tokenSecret, config.pve.tlsInsecure⟩).mapError .create

/-- `pbox_relay::websocket_url`. -/
def websocketUrl (origin role boxId : Text) : Except String Text := do
  if (role ≠ "agent".toList && role ≠ "client".toList) || !validRoute boxId then
    throw "invalid relay role or box ID"
  match parseUrl origin with
  | none => throw "parse relay URL"
  | some url =>
    let scheme ←
      if ["https".toList, "wss".toList].contains url.scheme then pure "wss".toList
      else if ["http".toList, "ws".toList].contains url.scheme then pure "ws".toList
      else throw "relay URL must use http, https, ws, or wss"
    if url.host.isNone || !url.plain || !(["".toList, "/".toList].contains url.path) then
      throw "relay URL must be an origin without credentials, path, query, or fragment"
    return render { url with scheme, path := "/v1/".toList ++ role ++ '/' :: boxId }

structure AccessRequest where
  url : Text
  authorization : Text

/-- `pbox_relay::access::request` up to the request it posts. -/
def accessRequest (origin id tokenId tokenSecret : Text) : Except String AccessRequest := do
  let url ← websocketUrl parseUrl render origin "client".toList id
  if !"wss://".toList.isPrefixOf url then
    throw "PVE authentication requires an HTTPS relay"
  return {
    url := trimEndMatches '/' origin ++ "/v2/access/".toList ++ id
    authorization := "PVEAPIToken=".toList ++ tokenId ++ '=' :: tokenSecret }

end Clients

section Headers
variable {Http : Type} {build : Bool → Option Http} {parseUrl : Text → Option Url} {render : Url → Text}

/-- What a token is presented as. -/
def header (tokenId tokenSecret : Text) : Text := "PVEAPIToken=".toList ++ tokenId ++ '=' :: tokenSecret

theorem setTokenId {config next : Config} {id : Text}
    (accepted : (Config.setValue parseUrl "pve.token_id" id).run.run config = (.ok (), next)) :
    next = { config with pve := { config.pve with tokenId := some id } } := by
  simp only [Config.setValue, validateNonEmpty, ensure] at accepted
  split_ifs at accepted
  · cases accepted
    rfl
  · cases accepted

theorem setTokenSecret {config next : Config} {secret : Text}
    (accepted : (Config.setValue parseUrl "pve.token_secret" secret).run.run config = (.ok (), next)) :
    next = { config with pve := { config.pve with tokenSecret := some secret } } := by
  simp only [Config.setValue, ensure] at accepted
  split_ifs at accepted
  · cases accepted
    rfl
  · cases accepted

theorem new_authorization {config : PveClientConfig} {client : PveClient Http}
    (made : PveClient.new build parseUrl config = .ok client) :
    client.authorization = replace "= ".toList "=".toList
      ("PVEAPIToken=".toList ++ config.tokenId ++ ("= ".toList ++ config.tokenSecret)) := by
  unfold PveClient.new at made
  split at made
  next => cases made
  next =>
    obtain ⟨baseUrl, _, made⟩ := bind_ok made
    cases made
    rw [List.append_assoc _ "= ".toList]

theorem client_authorization {config : Config} {id secret : Text} {client : PveClient Http}
    (idIs : config.pve.tokenId = some id) (secretIs : config.pve.tokenSecret = some secret)
    (made : clientFromConfig build parseUrl config = .ok client) :
    client.authorization = replace "= ".toList "=".toList
      ("PVEAPIToken=".toList ++ id ++ ("= ".toList ++ secret)) := by
  unfold clientFromConfig at made
  rw [idIs, secretIs] at made
  cases url : config.pve.url with
  | none => rw [url] at made; cases made
  | some baseUrl =>
    rw [url] at made
    have own := new_authorization (mapError_ok made)
    exact own

theorem accessRequest_authorization {origin id tokenId tokenSecret : Text} {sent : AccessRequest}
    (requested : accessRequest parseUrl render origin id tokenId tokenSecret = .ok sent) :
    sent.authorization = header tokenId tokenSecret := by
  obtain ⟨url, _, requested⟩ := bind_ok requested
  split at requested
  next => cases requested
  next =>
    cases requested
    rfl

/-- The text before the separator holds the marked space if the id begins with a space or holds it itself. -/
theorem marker_in_header {id : Text} :
    "= ".toList <:+: "PVEAPIToken=".toList ++ id ↔ [' '] <+: id ∨ "= ".toList <:+: id := by
  have behind : "= ".toList <:+: "PVEAPIToken".toList ++ '=' :: id ↔ "= ".toList <:+: '=' :: id :=
    infix_behind (by decide)
  have front : "= ".toList <+: '=' :: id ↔ [' '] <+: id := by
    rw [show "= ".toList = '=' :: [' '] from rfl, List.cons_prefix_cons]
    exact and_iff_right rfl
  rw [← front, ← List.infix_cons_iff]
  exact behind

/-- The two headers for a token that the setters accept are the same, and what they should be, if and only if the
space between id and secret is the only one behind an equals sign. -/
theorem authorization_iff {config withId configured : Config} {id secret origin boxId : Text} {client : PveClient Http}
    {sent : AccessRequest}
    (idSet : (Config.setValue parseUrl "pve.token_id" id).run.run config = (.ok (), withId))
    (secretSet : (Config.setValue parseUrl "pve.token_secret" secret).run.run withId = (.ok (), configured))
    (made : clientFromConfig build parseUrl configured = .ok client)
    (requested : accessRequest parseUrl render origin boxId id secret = .ok sent) :
    (client.authorization = "PVEAPIToken=".toList ++ id ++ '=' :: secret ∧
      client.authorization = sent.authorization) ↔
      ¬[' '] <+: id ∧ ¬"= ".toList <:+: id ∧ ¬"= ".toList <:+: secret := by
  obtain rfl := setTokenId idSet
  obtain rfl := setTokenSecret secretSet
  have own := client_authorization rfl rfl made
  have only : replace "= ".toList "=".toList ("PVEAPIToken=".toList ++ id ++ ("= ".toList ++ secret)) =
      header id secret ↔ ¬"= ".toList <:+: "PVEAPIToken=".toList ++ id ∧ ¬"= ".toList <:+: secret :=
    replace_only (by decide) (by decide)
  rw [marker_in_header, not_or, and_assoc] at only
  rw [accessRequest_authorization requested, own]
  exact (and_self_iff (a := _ = header id secret)).trans only

/-- A host whose origin is read as it stands. -/
def sampleUrl : Url := ⟨"https".toList, some "pve.test".toList, [], none, none, none, "/".toList⟩

def sampleRender (url : Url) : Text := url.scheme ++ "://".toList ++ (url.host.getD []) ++ url.path

def sampleConfig : Config := { pve := { url := some "https://pve.test".toList } }

def withToken (id secret : Text) : Config :=
  { pve := { url := some "https://pve.test".toList, tokenId := some id, tokenSecret := some secret } }

/-- The header for a token as Proxmox hands them out. -/
theorem plain_authorization : ∃ client : PveClient Unit,
    clientFromConfig (fun _ => some ()) (fun _ => some sampleUrl) (withToken "root@pam!pbox".toList "7f6a".toList) =
      .ok client ∧ client.authorization = "PVEAPIToken=root@pam!pbox=7f6a".toList := by
  refine ⟨⟨(), "https://pve.test/api2/json".toList, _⟩, rfl, ?_⟩
  have same := (@authorization_iff Unit (fun _ => some ()) (fun _ => some sampleUrl) sampleRender sampleConfig
    { pve := { url := some "https://pve.test".toList, tokenId := some "root@pam!pbox".toList } } _ "root@pam!pbox".toList
    "7f6a".toList "https://pve.test".toList "pbx_12345678".toList _ _ rfl rfl rfl rfl).mpr (by decide)
  exact same.1

/-- The setter of the id takes one that begins with a space, which only one of the headers keeps. -/
theorem leading_space_differs : ¬∀ (build : Bool → Option Unit) (parseUrl : Text → Option Url) (render : Url → Text)
    (config withId configured : Config) (id secret origin boxId : Text) (client : PveClient Unit) (sent : AccessRequest),
    (Config.setValue parseUrl "pve.token_id" id).run.run config = (.ok (), withId) →
    (Config.setValue parseUrl "pve.token_secret" secret).run.run withId = (.ok (), configured) →
    clientFromConfig build parseUrl configured = .ok client →
    accessRequest parseUrl render origin boxId id secret = .ok sent →
    client.authorization = "PVEAPIToken=".toList ++ id ++ '=' :: secret ∧
      client.authorization = sent.authorization := by
  intro always
  have wrong := always (fun _ => some ()) (fun _ => some sampleUrl) sampleRender sampleConfig
    { pve := { url := some "https://pve.test".toList, tokenId := some " root@pam!pbox".toList } } _ " root@pam!pbox".toList
    "7f6a".toList "https://pve.test".toList "pbx_12345678".toList _ _ rfl rfl rfl rfl
  exact absurd wrong.1 (by decide)

end Headers

end Pbox.Cli.PveToken
