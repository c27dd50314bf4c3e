import Pbox.Lib.Ascii
import Pbox.Lib.Numerals

/-! References of container images: `ImageReference::parse` splits one into registry, repository and tag or digest,
puts in what is missing and checks every part with a scanner of its own. -/

namespace Pbox.Cli.Images
open Pbox.Lib.Strings Pbox.Lib.Numerals Pbox.Lib.Ascii

structure ImageReference where
  registry : Text
  repository : Text
  tag : Option Text
  digest : Option Text
  deriving DecidableEq

/-- `to_ascii_lowercase`. -/
def lower (text : Text) : Text := text.map Char.toLower

def alphanumericByte (b : UInt8) : Bool := (48 ≤ b && b ≤ 57) || (65 ≤ b && b ≤ 90) || (97 ≤ b && b ≤ 122)

def hexdigitByte (b : UInt8) : Bool := (48 ≤ b && b ≤ 57) || (65 ≤ b && b ≤ 70) || (97 ≤ b && b ≤ 102)

def isAsciiControl (c : Char) : Bool := c.toNat < 0x20 || c.toNat == 0x7f

def u16Max : Nat := 2 ^ 16 - 1

def isRegistryHost (value : Text) : Bool := value == "localhost".toList || value.contains '.' || value.contains ':'

/-- A part of a host between two dots. -/
def hostLabel (component : Text) : Bool :=
  let bytes := utf8 component
  bytes.head?.any alphanumericByte && bytes.getLast?.any alphanumericByte &&
    bytes.all fun b => alphanumericByte b || b == 45

def validateNameComponent (value : Text) (label : String) : Except Text Text := do
  let (host, port) :=
    match rsplitOnce ':' value with
    | some (host, port) => (host, some port)
    | none => (value, none)
  if host.isEmpty || (host.splitOn '.').any (!hostLabel ·) then
    throw ("OCI ".toList ++ label.toList ++ " is invalid: ".toList ++ value)
  if port.any fun port => ((parseUnsigned u16Max port).filter (0 < ·)).isNone then
    throw ("OCI registry is invalid: ".toList ++ value)
  return lower value

/-- The bytes behind a separator, if one begins here. -/
def afterSeparator (b : UInt8) (rest : List UInt8) : Option (List UInt8) :=
  if b = 46 then some rest
  else if b = 95 then some (if rest.head? = some 95 then rest.tail else rest)
  else if b = 45 then some (rest.dropWhile (· == 45))
  else none

/-- The loop of `valid_repository_component` over the bytes behind its index; a turn is taken for each. -/
def componentLoop : Nat → List UInt8 → Bool
  | _, [] => true
  | 0, _ :: _ => false
  | turns + 1, b :: rest =>
    if alphanumericByte b then componentLoop turns rest
    else
      match afterSeparator b rest with
      | none => false
      | some [] => false
      | some (c :: rest) => alphanumericByte c && componentLoop turns rest

def validRepositoryComponent (value : Text) : Bool :=
  match utf8 value with
  | [] => false
  | b :: rest => alphanumericByte b && componentLoop rest.length rest

def validateRepository (value : Text) : Except Text Text :=
  if value.isEmpty || (value.splitOn '/').any (!validRepositoryComponent ·) then
    .error ("OCI repository is invalid: ".toList ++ value)
  else .ok value

def validateTag (value : Text) : Except Text Text :=
  if value.isEmpty || 128 < (utf8 value).length ||
      value.any (fun c => !c.isAlphanum && c != '.' && c != '-' && c != '_') ||
      value.head?.any (fun c => !c.isAlphanum && c != '_') then
    .error ("OCI image tag is invalid: ".toList ++ value)
  else .ok value

def validateDigest (value : Text) : Except Text Text :=
  match stripPrefix "sha256:".toList value with
  | none => .error "OCI image digest must use sha256".toList
  | some hex =>
    if (utf8 hex).length ≠ 64 || !(utf8 hex).all hexdigitByte then
      .error ("OCI image digest is invalid: ".toList ++ value)
    else .ok ("sha256:".toList ++ hex)

/-- The name, and the tag or the digest behind it. -/
def splitVersion (input value : Text) : Except Text (Text × Option Text × Option Text) :=
  match splitOnce '@' value with
  | some (name, digest) => do
    if digest.isEmpty || value.count '@' ≠ 1 then
      throw ("OCI image digest reference is invalid: ".toList ++ input)
    let slash := (rfind '/' name).getD 0
    if (rfind ':' name).any (slash < ·) then
      throw "OCI image reference cannot contain both a tag and a digest".toList
    let digest ← validateDigest digest
    return (name, none, some digest)
  | none => do
    let slash := (rfind '/' value).getD 0
    match (rfind ':' value).filter (slash < ·) with
    | some position =>
      let tag ← validateTag (value.drop (position + 1))
      return (value.take position, some tag, none)
    | none => return (value, some "latest".toList, none)

/-- The registry and the repository of a name, with the defaults of Docker Hub. -/
def locate (name : Text) : Text × Text :=
  let parts := name.splitOn '/'
  let hasPath := 1 < parts.length
  let first := parts.head?.getD []
  if hasPath && isRegistryHost first then
    let repository := ['/'].intercalate (parts.drop 1)
    if lower first == "docker.io".toList && !repository.contains '/' then (first, "library/".toList ++ repository)
    else (first, repository)
  else ("docker.io".toList, if hasPath then name else "library/".toList ++ name)

def ImageReference.parse (input : Text) : Except Text ImageReference := do
  let trimmed := trim input
  let value := (stripPrefix "docker://".toList trimmed).getD trimmed
  if value.isEmpty || value.any isAsciiControl then
    throw "OCI image reference cannot be empty or contain control characters".toList
  let (name, tag, digest) ← splitVersion input value
  let (registry, repository) := locate name
  let registry ← validateNameComponent registry "registry"
  let repository ← validateRepository (lower repository)
  return { registry, repository, tag, digest }

def ImageReference.fullRepository (reference : ImageReference) : Text := reference.registry ++ '/' :: reference.repository

def ImageReference.canonical (reference : ImageReference) : Text :=
  match reference.tag, reference.digest with
  | _, some digest => reference.fullRepository ++ '@' :: digest
  | some tag, none => reference.fullRepository ++ ':' :: tag
  | none, none => reference.fullRepository ++ ":latest".toList

/-- The name of the template's file, for a digest function. -/
def ImageReference.filename (sha256 : List UInt8 → List UInt8) (reference : ImageReference) : Text :=
  "pbox-oci-".toList ++ hexEncode (sha256 (utf8 reference.canonical))

example : (ImageReference.parse " docker://Debian:13 ".toList).map ImageReference.canonical =
    .ok "docker.io/library/debian:13".toList := by decide

end Pbox.Cli.Images
