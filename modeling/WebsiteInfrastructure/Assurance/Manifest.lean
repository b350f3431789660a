import Mathlib
import WebsiteInfrastructure.Assurance.Ledger

/-!
# The attack-surface manifest

`validate_attack_surface_manifest.py`: three sections of entries that go through one check, the
coverage of what must be probed, and two passes over the raw sections.
-/

namespace Assurance

open Json Raising

/-- An exception that leaves `manifest_errors`. -/
inductive Raised
  | attributeError
  | typeError
  | valueError
  | recursionError
  deriving DecidableEq

/-! ## The closed vocabulary -/

def expectedVocab : List String :=
  ["no-response", "wireguard-handshake-only", "denied", "allowed-to-class", "fail-closed"]

/-- `^[a-z0-9][a-z0-9-]{1,63}$` -/
def isIdentifier : List Char → Bool
  | [] => false
  | c :: cs => (c.isLower || c.isDigit) && 1 ≤ cs.length && cs.length ≤ 63 && cs.all isSlug

/-- A section, the fields that are the key of its entries, and the keys that must be there. -/
structure Section where
  name : String
  keyFields : List String
  required : List (List String)

def inboundWan : Section where
  name := "inbound_wan"
  keyFields := ["surface"]
  required := [["wireguard-admin-udp"], ["all-other-ports"], ["kubernetes-api"]]

def reachability : Section where
  name := "reachability"
  keyFields := ["from", "to"]
  required := [["tenant-pod", "other-tenant-pod"], ["tenant-pod", "kubernetes-api"],
    ["tenant-pod", "node-host"], ["tenant-pod", "admin-plane-subnet"],
    ["admin-peer", "kubernetes-api"]]

def egress : Section where
  name := "egress"
  keyFields := ["from", "to"]
  required := [["tenant-pod", "arbitrary-internet"], ["host", "dns-outside-proton"],
    ["host", "arbitrary-internet-on-proton-drop"]]

def sections : List Section := [inboundWan, reachability, egress]

/-- `ADMIN_API_MUST_BE_DENIED` -/
def adminApi : List String := ["admin-peer", "kubernetes-api"]

/-! ## Printed values -/

variable {F : Type}

section Printing

-- `str` of a float
variable (strFloat : F → List Char)

mutual

/-- `repr`; the entries of a dict are printed in the order of their keys. -/
def reprValue : Value F → List Char
  | .null => "None".toList
  | .bool true => "True".toList
  | .bool false => "False".toList
  | .int n => writeInt n
  | .float x => strFloat x
  | .str t => reprText t
  | .arr items => '[' :: [',', ' '].intercalate (reprItems items) ++ [']']
  | .obj fields => '\x7b' :: [',', ' '].intercalate (reprFields fields) ++ ['\x7d']

def reprItems : List (Value F) → List (List Char)
  | [] => []
  | v :: vs => reprValue v :: reprItems vs

def reprFields : List (Text × Value F) → List (List Char)
  | [] => []
  | (key, v) :: fields => (reprText key ++ ':' :: ' ' :: reprValue v) :: reprFields fields

end

/-- `str(value)` -/
def strValue : Value F → List Char
  | .str t => t.points.map Char.ofNat
  | v => reprValue strFloat v

end Printing

/-! ## Errors -/

inductive ManifestError (F : Type)
  | absent
  | notJson
  | schema
  | vocabulary
  | empty (name : String)
  | notObject (name : String) (index : ℕ)
  | fieldSet (name : String) (index : ℕ) (fields : List String)
  | identifier (name : String) (index : ℕ) (field : String)
  | expected (name : String) (index : ℕ)
  | control (name : String) (index : ℕ)
  | missing (s : Section) (keys : List (List String))
  | adminPort
  | inboundSurface (surface : Value F)
  | adminApi

/-- `sorted(missing)`: a surface is printed as a string and a path as a tuple. -/
def reprKey (key : List String) : List Char :=
  match key with
  | [surface] => reprText (.scalar surface)
  | fields => '(' :: [',', ' '].intercalate (fields.map fun field => reprText (.scalar field)) ++ [')']

def reprKeys (keys : List (List String)) : List Char :=
  '[' :: [',', ' '].intercalate ((keys.insertionSort (· ≤ ·)).map reprKey) ++ [']']

def ManifestError.message (strFloat : F → List Char) : ManifestError F → List Char
  | .absent => "manifest is missing or is a symlink".toList
  | .notJson => "manifest is not canonical JSON".toList
  | .schema => "schema tag is not attack-surface/v1".toList
  | .vocabulary => "expected_vocabulary drifted from the closed result set".toList
  | .empty name => s!"section {name} is missing or empty".toList
  | .notObject name index => s!"{name}[{index}]: not an object".toList
  | .fieldSet name index fields => s!"{name}[{index}]: field set is not exactly ".toList ++
      reprNames (fields.map Text.scalar)
  | .identifier name index field =>
      s!"{name}[{index}]: field {field} is not a closed identifier".toList
  | .expected name index => s!"{name}[{index}]: expected is outside the closed vocabulary".toList
  | .control name index => s!"{name}[{index}]: control is not a PLAT-<AREA>-NNN id".toList
  | .missing s keys =>
      let what := if s.keyFields.length = 1 then "surfaces" else "paths"
      s!"{s.name} is missing required {what}: ".toList ++ reprKeys keys
  | .adminPort => "the WireGuard admin port must expect wireguard-handshake-only".toList
  | .inboundSurface surface => "inbound surface ".toList ++ strValue strFloat surface ++
      " must expect no-response".toList
  | .adminApi => "admin peer to kubernetes-api must be denied (PLAT-DEC-001 SSH-only)".toList

/-! ## The checks -/

variable [Interpreter F]

/-- `value in EXPECTED_VOCAB` -/
def inVocab (value : Value F) : Except Raised Bool :=
  if value.hashable then .ok (expectedVocab.any fun word => value.eq (.text word))
  else .error .typeError

/-- `set(value)` -/
def setOf (value : Value F) : Except Raised (List (Value F)) :=
  match value.iterate with
  | .ok items => if items.all Value.hashable then .ok items else .error .typeError
  | .error _ => .error .typeError

/-- `set(value) == EXPECTED_VOCAB` -/
def isVocab (items : List (Value F)) : Bool :=
  items.all (fun item => expectedVocab.any fun word => item.eq (.text word)) &&
    expectedVocab.all fun word => items.any fun item => item.eq (.text word)

def keyOf (s : Section) (entry : Value F) : List (Value F) := s.keyFields.map entry.get

/-- `key == ("...", "...")` -/
def isKey (key : List (Value F)) (names : List String) : Bool :=
  key.length = names.length && (key.zip names).all fun p => p.1.eq (.text p.2)

/-- One turn of the loop in `check_entries`: the errors of an entry, and its key. -/
def checkEntry (strFloat : F → List Char) (s : Section) (index : ℕ) (entry : Value F) :
    Except Raised (List (ManifestError F) × List (List (Value F))) :=
  match entry with
  | .obj _ =>
    if entry.hasExactly (s.keyFields ++ ["expected", "control"]) then do
      let identifiers := (s.keyFields.filter fun field =>
        !isIdentifier (strValue strFloat (entry.get field))).map fun field =>
          ManifestError.identifier s.name index field
      let known ← inVocab (entry.get "expected")
      let expected := if known then [] else [.expected s.name index]
      let control := if isControl (strValue strFloat (entry.get "control")) then []
        else [.control s.name index]
      .ok (identifiers ++ expected ++ control, [keyOf s entry])
    else
      let fields := (s.keyFields ++ ["expected", "control"]).insertionSort (· ≤ ·)
      .ok ([.fieldSet s.name index fields], [])
  | _ => .ok ([.notObject s.name index], [])

/-- The loop in `check_entries` over the entries from an index on. -/
def checkAll (strFloat : F → List Char) (s : Section) (index : ℕ) :
    List (Value F) → Except Raised (List (ManifestError F) × List (List (Value F)))
  | [] => .ok ([], [])
  | entry :: entries => do
    let (errors, keys) ← checkEntry strFloat s index entry
    let (moreErrors, moreKeys) ← checkAll strFloat s (index + 1) entries
    .ok (errors ++ moreErrors, keys ++ moreKeys)

/-- The entries of a section that is a list. -/
def entriesOf (document : Value F) (s : Section) : List (Value F) :=
  match document.get s.name with
  | .arr entries => entries
  | _ => []

def checkEntries (strFloat : F → List Char) (document : Value F) (s : Section) :
    Except Raised (List (ManifestError F) × List (List (Value F))) :=
  if entriesOf document s = [] then .ok ([.empty s.name], [])
  else checkAll strFloat s 0 (entriesOf document s)

/-- `REQUIRED - set(keys)` -/
def checkCoverage (s : Section) (keys : List (List (Value F))) :
    Except Raised (List (ManifestError F)) :=
  if keys.all fun key => key.all Value.hashable then
    let missing := s.required.filter fun names => !keys.any fun key => isKey key names
    .ok (if missing = [] then [] else [.missing s missing])
  else .error .typeError

/-- The items of `for entry in document.get(name, [])` -/
def rawEntries (document : Value F) (s : Section) : Except Raised (List (Value F)) :=
  match ((document.get? s.name).getD (.arr [])).iterate with
  | .ok items => .ok items
  | .error _ => .error .typeError

/-- The errors of a raw inbound entry. -/
def inboundErrors (entry : Value F) : List (ManifestError F) :=
  match entry with
  | .obj _ =>
    if (entry.get "surface").eq (.text "wireguard-admin-udp") then
      if (entry.get "expected").eq (.text "wireguard-handshake-only") then [] else [.adminPort]
    else if (entry.get "expected").eq (.text "no-response") then []
    else [.inboundSurface (entry.get "surface")]
  | _ => []

/-- The errors of a raw path. -/
def pathErrors (entry : Value F) : List (ManifestError F) :=
  match entry with
  | .obj _ =>
    if isKey (keyOf reachability entry) adminApi &&
        !(entry.get "expected").eq (.text "denied") then [.adminApi]
    else []
  | _ => []

/-- `manifest_errors` of a parsed document -/
def documentErrors (strFloat : F → List Char) (document : Value F) :
    Except Raised (List (ManifestError F)) := do
  raiseIf (document.isObject = false) .attributeError
  let schema := if (document.get "schema").eq (.text "attack-surface/v1") then []
    else [ManifestError.schema]
  let words ← setOf ((document.get? "expected_vocabulary").getD (.arr []))
  let vocabulary := if isVocab words then [] else [ManifestError.vocabulary]
  let (inbound, surfaces) ← checkEntries strFloat document inboundWan
  let (reach, paths) ← checkEntries strFloat document reachability
  let (out, exits) ← checkEntries strFloat document egress
  let missingInbound ← checkCoverage inboundWan surfaces
  let missingReach ← checkCoverage reachability paths
  let missingEgress ← checkCoverage egress exits
  let rawInbound ← rawEntries document inboundWan
  let rawReach ← rawEntries document reachability
  .ok (schema ++ vocabulary ++ inbound ++ reach ++ out ++ missingInbound ++ missingReach ++
    missingEgress ++ rawInbound.flatMap inboundErrors ++ rawReach.flatMap pathErrors)

/-- `manifest_errors`; the file is absent where it is a symlink or no regular file. -/
def manifestErrors (strFloat : F → List Char) (file : Option (List Char)) :
    Except Raised (List (ManifestError F)) :=
  match file with
  | none => .ok [.absent]
  | some content =>
    match loads keepLast content with
    | .ok document => documentErrors strFloat document
    | .error .malformed => .ok [.notJson]
    | .error .digits => .error .valueError
    | .error _ => .error .recursionError

end Assurance
