import Mathlib
import WebsiteInfrastructure.Library.Base64
import WebsiteInfrastructure.Library.Json
import WebsiteInfrastructure.Library.PythonText

/-!
# The credentials of a kubeconfig snapshot

`validate_kubeconfig_snapshot.py`: which texts are accepted as base64, as a PEM document of one
label, and as the address of a server.
-/

namespace KubeconfigSnapshot

open PythonText
open Json (Value)
open Utf8 (Bytes)

variable {F : Type}

def maxEmbeddedBytes : ℕ := 128 * 1024

/-! ## Base64 -/

/-- `_canonical_base64` -/
def canonicalBase64 : Value F → Option Bytes
  | .str (.scalar value) => do
    let decoded ← Base64.decode value.toList
    if decoded = [] ∨ maxEmbeddedBytes < decoded.length then none
    else if Base64.encode decoded ≠ value.toList then none
    else some decoded
  | _ => none

/-! ## PEM -/

/-- The labels that the validator asks for. -/
inductive Label
  | certificate
  | privateKey
  | rsaPrivateKey
  | ecPrivateKey
  deriving DecidableEq

def Label.name : Label → List Char
  | .certificate => "CERTIFICATE".toList
  | .privateKey => "PRIVATE KEY".toList
  | .rsaPrivateKey => "RSA PRIVATE KEY".toList
  | .ecPrivateKey => "EC PRIVATE KEY".toList

def Label.beginLine (label : Label) : List Char := "-----BEGIN ".toList ++ label.name ++ "-----".toList

def Label.endLine (label : Label) : List Char := "-----END ".toList ++ label.name ++ "-----".toList

/-- `pem.decode("ascii")` -/
def decodeAscii (bytes : Bytes) : Option (List Char) :=
  if bytes.all (· < 128) then some (bytes.map fun b => Char.ofNat b.toNat) else none

/-- `text.encode("ascii")`, of text in ASCII -/
def encodeAscii (text : List Char) : Bytes := text.map fun c => UInt8.ofNat c.toNat

/-- The body in lines of 64 characters. -/
def canonicalLines (body : List Char) : List (List Char) :=
  (List.range ((body.length + 63) / 64)).map fun i => (body.drop (64 * i)).take 64

/-- The text of a label and the bytes under it. -/
def pemText (label : Label) (der : Bytes) : List Char :=
  ['\n'].intercalate
    (label.beginLine :: canonicalLines (Base64.encode der) ++ [label.endLine, []])

/-- The label and the bytes of a text. -/
def readPem (text : List Char) (allowedLabels : List Label) : Option (Label × Bytes) := do
  if '\r' ∈ text ∨ text.getLast? ≠ some '\n' then none
  else
    let lines := text.dropLast.splitOn '\n'
    if lines.length < 3 then none
    else
      let label ← allowedLabels.find? fun label => lines.head? = some label.beginLine
      if lines.getLast? ≠ some label.endLine then none
      else
        let der ← Base64.decode lines.tail.dropLast.flatten
        some (label, der)

/-- `_canonical_pem` -/
def canonicalPem (encoded : Value F) (allowedLabels : List Label) (minimumDerBytes : ℕ) :
    Option Bytes := do
  let pem ← canonicalBase64 encoded
  let text ← decodeAscii pem
  let (label, der) ← readPem text allowedLabels
  if der.length < minimumDerBytes ∨ maxEmbeddedBytes < der.length ∨ der.head? ≠ some 0x30 then none
  else if text ≠ pemText label der then none
  else some pem

def keyLabels : List Label := [.privateKey, .rsaPrivateKey, .ecPrivateKey]

/-- The certificates and the key, in `parse_snapshot`. -/
def acceptsCertificates (cluster user : Value F) : Bool :=
  match canonicalPem (cluster.get "certificate-authority-data") [.certificate] 64,
    canonicalPem (user.get "client-certificate-data") [.certificate] 64,
    canonicalPem (user.get "client-key-data") keyLabels 32 with
  | some caPem, some clientPem, some _ => caPem ≠ clientPem
  | _, _, _ => false

/-! ## The server -/

/-- What `urlsplit` gives of an address, the port included. -/
structure SplitResult where
  scheme : List Char
  netloc : List Char
  path : List Char
  query : List Char
  fragment : List Char
  username : Option (List Char)
  password : Option (List Char)
  hostname : Option (List Char)
  port : Option ℕ

/-- `urlsplit` and `ip_address`, each without a value where it raises `ValueError`. -/
class Addresses where
  urlsplit : List Char → Option SplitResult
  Address : Type
  ipAddress : List Char → Option Address
  compressed : Address → List Char
  version : Address → ℕ

/-- `[a-z0-9](?:[a-z0-9-]{0,61}[a-z0-9])?` -/
def isDnsLabel (label : List Char) : Bool :=
  1 ≤ label.length && label.length ≤ 63 &&
    label.all (fun c => c.isLower || c.isDigit || c = '-') &&
    label.head? ≠ some '-' && label.getLast? ≠ some '-'

/-- `_valid_dns_name` -/
def isDnsName (name : List Char) : Bool :=
  name.length ≤ 253 && name ≠ [] && (name.splitOn '.').all isDnsLabel

section Server

variable [Addresses]

open Addresses

/-- A host is an address, or a name. -/
abbrev Host := Address ⊕ List Char

def hostOf (hostname : List Char) : Host :=
  match ipAddress hostname with
  | some address => .inl address
  | none => .inr hostname

/-- `canonical_host` -/
def canonicalHost : Host → List Char
  | .inl address =>
    if version address = 6 then '[' :: compressed address ++ [']'] else compressed address
  | .inr hostname => hostname

/-- `canonical_netloc` -/
def canonicalNetloc (host : Host) (port : Option ℕ) : List Char :=
  match port with
  | none => canonicalHost host
  | some port => canonicalHost host ++ ':' :: Nat.toDigits 10 port

/-- Where a name stands for the host, it is no number and a name of the DNS. -/
def isHost : Host → Bool
  | .inl _ => true
  | .inr hostname =>
    !hostname.all (fun c => c.isDigit || c = '.') && isDnsName hostname

/-- The host and the port that a text is split into. -/
def serverOf (value : List Char) : Option (Host × Option ℕ) := do
  let parsed ← urlsplit value
  let hostname ← parsed.hostname
  some (hostOf hostname, parsed.port)

/-- `_validate_server`; the answer says whether the host is an address. -/
def validateServer : Value F → Option Bool
  | .str (.scalar text) =>
    let value := text.toList
    if value = [] ∨ value ≠ strip value then none
    else do
      let parsed ← urlsplit value
      let hostname ← parsed.hostname
      if parsed.scheme ≠ "https".toList ∨ parsed.netloc = [] ∨ parsed.path ≠ [] ∨
          parsed.query ≠ [] ∨ parsed.fragment ≠ [] ∨ parsed.username ≠ none ∨
          parsed.password ≠ none ∨ parsed.port = some 0 then none
      else if hostname.any fun c => 127 < c.toNat then none
      else if !isHost (hostOf hostname) then none
      else
        let netloc := canonicalNetloc (hostOf hostname) parsed.port
        if parsed.netloc ≠ netloc ∨ value ≠ "https://".toList ++ netloc then none
        else some (hostOf hostname).isLeft
  | _ => none

end Server

end KubeconfigSnapshot
