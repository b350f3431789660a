import Mathlib
import WebsiteInfrastructure.Library.Nftables

/-!
# The ingress-guard verifier

The structured nftables listing against the one expected model. A fixed token names every
deviation; a pair `(value, token)` of the source is an `Except`.
-/

namespace IngressGuard

open Json Json.Value
open Nftables (Verdict)

variable {F : Type}

/-! ## The closed model -/

def ownedTable : String := "website_infrastructure_ingress_guard"
def ownedFamily : String := "inet"
def ownedChain : String := "admin_ingress"
def chainType : String := "filter"
def chainHook : String := "input"
def chainPriority : ℤ := -10
def chainPolicy : String := "accept"
def preservedSshPort : ℤ := 22
def deniedPorts : List ℤ := [2379, 2380, 6443, 10250]

structure GuardRule where
  interface : Text
  port : ℤ
  verdict : Verdict
  deriving DecidableEq

/-- SSH preserved first, then the four denials. -/
def expectedSequence (interfaces : List Text) : List GuardRule :=
  interfaces.flatMap fun interface =>
    ⟨interface, preservedSshPort, .accept⟩ ::
      deniedPorts.map fun port => ⟨interface, port, .drop⟩

/-! ## Rules -/

/-- `isinstance(value, list)`. -/
def isArr : Value F → Bool
  | .arr _ => true
  | _ => false

/-- The only entry of a dict of length one. -/
def single? : Value F → Option (Text × Value F)
  | .obj [entry] => some entry
  | _ => none

section Match

variable [Interpreter F]

def interfaceOperand : Value F := .obj [(.scalar "meta", .obj [(.scalar "key", .text "iifname")])]

def portOperand : Value F :=
  .obj [(.scalar "payload",
    .obj [(.scalar "field", .text "dport"), (.scalar "protocol", .text "tcp")])]

/-- What both kinds of match are held to: the operands of one plain equality. -/
def parseMatch (expression : Value F) : Except String (Value F × Value F) :=
  let matched := expression.get "match"
  if !(matched.isObject && matched.hasExactly ["op", "left", "right"]) then
    .error "RULE_GRAMMAR_UNSUPPORTED"
  else if !(matched.get "op").eq (.text "==") then .error "MATCH_INVERSION_UNSUPPORTED"
  else if isArr (matched.get "right") || (matched.get "right").isObject then
    .error "SET_INDIRECTION_UNSUPPORTED"
  else .ok (matched.get "left", matched.get "right")

def parseInterface (expression : Value F) : Except String Text := do
  let (left, right) ← parseMatch expression
  if !left.eq interfaceOperand then .error "RULE_GRAMMAR_UNSUPPORTED"
  else
    match right with
    | .str name =>
      if name = .scalar "" then .error "RULE_GRAMMAR_UNSUPPORTED"
      else if name.points.any (fun c => c = '*'.toNat || c = '\\'.toNat) then
        .error "WILDCARD_UNSUPPORTED"
      else .ok name
    | _ => .error "RULE_GRAMMAR_UNSUPPORTED"

def parsePort (expression : Value F) : Except String ℤ := do
  let (left, right) ← parseMatch expression
  if !left.eq portOperand then .error "RULE_GRAMMAR_UNSUPPORTED"
  else
    match right with
    | .int port => .ok port
    | _ => .error "RULE_GRAMMAR_UNSUPPORTED"

/-- A kernel counter value. -/
def isCount : Value F → Bool
  | .int n => 0 ≤ n && n ≤ 2 ^ 64 - 1
  | _ => false

def counterErrors (expression : Value F) : Except String Unit :=
  match expression.get? "counter" with
  | none => .error "COUNTER_MISSING"
  | some counter =>
    if counter.isObject && counter.hasExactly ["packets", "bytes"] &&
        isCount (counter.get "packets") && isCount (counter.get "bytes") then .ok ()
    else .error "RULE_GRAMMAR_UNSUPPORTED"

def parseVerdict (expression : Value F) : Except String Verdict :=
  match single? expression with
  | some (.scalar "accept", .null) => .ok .accept
  | some (.scalar "drop", .null) => .ok .drop
  | _ => .error "VERDICT_UNSUPPORTED"

/-- One rule as its interface, port and verdict. -/
def parseRuleExpr (expr : Value F) : Except String GuardRule :=
  match expr with
  | .arr [first, second, third, fourth] =>
    if [first, second, third, fourth].any (fun item => (single? item).isNone) then
      .error "RULE_GRAMMAR_UNSUPPORTED"
    else do
      let interface ← parseInterface first
      let port ← parsePort second
      counterErrors third
      let verdict ← parseVerdict fourth
      .ok ⟨interface, port, verdict⟩
  | _ => .error "RULE_GRAMMAR_UNSUPPORTED"

end Match

/-! ## The sequence -/

/-- `if token not in errors: errors.append(token)` -/
def note (token : String) (errors : List String) : List String :=
  if token ∈ errors then errors else errors ++ [token]

def noteIf (condition : Bool) (token : String) (errors : List String) : List String :=
  if condition then note token errors else errors

/-- How a parsed sequence diverges from the expected one. -/
def classifySequence (parsed : List GuardRule) (interfaces : List Text)
    (errors : List String) : List String :=
  let expected := expectedSequence interfaces
  if parsed = expected then errors
  else
    let ruled := parsed.foldl (fun errors r =>
      noteIf (r.interface ∉ interfaces) "INTERFACE_OVERREACH"
        (noteIf (r.port ≠ preservedSshPort && r.port ∉ deniedPorts) "RULE_GRAMMAR_UNSUPPORTED"
          (noteIf (r.port ∈ deniedPorts && r.verdict = .accept) "DENY_WIDENING_ACCEPT"
            (noteIf (r.port = preservedSshPort && r.verdict = .drop) "SSH_PRESERVATION_VIOLATED"
              errors)))) errors
    let counted := (parsed.foldl (fun (errors, seen) r =>
      (noteIf (r ∈ seen) "COVERAGE_DUPLICATE" errors, r :: seen)) (ruled, [])).1
    let covered := expected.foldl (fun errors r =>
      noteIf (r ∉ parsed) "COVERAGE_INCOMPLETE" errors) counted
    noteIf covered.isEmpty "RULE_ORDER_INVALID" covered

/-! ## The envelope -/

/-- `isinstance(value, str) and value` -/
def isNonemptyStr : Value F → Bool
  | .str t => t ≠ .scalar ""
  | _ => false

/-- `type(value) is int and value == n` -/
def isInt (n : ℤ) : Value F → Bool
  | .int m => m = n
  | _ => false

/-- The version record that opens a listing. -/
def metainfoValid (metainfo : Value F) : Bool :=
  metainfo.isObject && metainfo.hasExactly ["version", "release_name", "json_schema_version"] &&
    isNonemptyStr (metainfo.get "version") && isNonemptyStr (metainfo.get "release_name") &&
    isInt 1 (metainfo.get "json_schema_version")

/-- `"metainfo" in item` -/
def isMetainfo (item : Value F) : Bool := (item.get? "metainfo").isSome

/-- The objects of a current-schema listing, its version record first. -/
def validatedRulesetItems (document : Value F) : Except String (List (Value F)) :=
  match document with
  | .obj [(.scalar "nftables", .arr items)] =>
    if items.any (fun item => (single? item).isNone) then .error "RULESET_JSON_INVALID"
    else
      match items with
      | [] => .error "SCHEMA_VERSION_UNSUPPORTED"
      | head :: rest =>
        if isMetainfo head && !rest.any isMetainfo && metainfoValid (head.get "metainfo") then
          .ok rest
        else .error "SCHEMA_VERSION_UNSUPPORTED"
  | _ => .error "RULESET_JSON_INVALID"

/-- A positive kernel handle. -/
def isPositiveHandle : Value F → Bool
  | .int n => 1 ≤ n && n ≤ 2 ^ 64 - 1
  | _ => false

/-- The identity every known object carries, whoever owns it. -/
def knownObjectIdentityValid (kind : Text) (body : Value F) : Bool :=
  if kind = .scalar "table" then
    ["family", "name"].all (fun key => isNonemptyStr (body.get key)) &&
      isPositiveHandle (body.get "handle")
  else if kind = .scalar "chain" then
    ["family", "table", "name"].all (fun key => isNonemptyStr (body.get key)) &&
      isPositiveHandle (body.get "handle")
  else if kind = .scalar "rule" then
    ["family", "table", "chain"].all (fun key => isNonemptyStr (body.get key)) &&
      isPositiveHandle (body.get "handle") && isArr (body.get "expr")
  else true

/-! ## Verdicts on a listing -/

variable [Interpreter F]

/-- `body.get(key) == name` -/
def named (body : Value F) (key name : String) : Bool := (body.get key).eq (.text name)

/-- What the first loop over the listing gathers. -/
structure Owned (F : Type) where
  tables : List (Value F) := []
  chains : List (Value F) := []
  rules : List (Value F) := []
  errors : List String := []

def Owned.add (owned : Owned F) (kind : Text) (body : Value F) : Owned F :=
  if kind = .scalar "table" then
    if named body "name" ownedTable then { owned with tables := owned.tables ++ [body] } else owned
  else if kind = .scalar "chain" then
    if named body "table" ownedTable then { owned with chains := owned.chains ++ [body] }
    else if named body "name" ownedChain then
      { owned with errors := owned.errors ++ ["CHAIN_NAME_COLLISION"] }
    else owned
  else if kind = .scalar "rule" then
    if named body "table" ownedTable then { owned with rules := owned.rules ++ [body] } else owned
  else if named body "table" ownedTable then
    { owned with errors := owned.errors ++ ["FOREIGN_OBJECT_IN_OWNED_TABLE"] }
  else owned

/-- An object whose body is a dict with a valid identity. -/
def object? (item : Value F) : Option (Text × Value F) :=
  (single? item).filter fun (kind, body) => body.isObject && knownObjectIdentityValid kind body

def collect : List (Value F) → Owned F → Except String (Owned F)
  | [], owned => .ok owned
  | item :: rest, owned =>
    match object? item with
    | none => .error "RULESET_JSON_INVALID"
    | some (kind, body) => collect rest (owned.add kind body)

def check (ok : Bool) (token : String) (errors : List String) : List String :=
  if ok then errors else errors ++ [token]

/-- Each failed check of a chain appends its token. -/
def chainErrors (chain : Value F) (errors : List String) : List String :=
  check (named chain "policy" chainPolicy) "POLICY_INVALID"
    (check (isInt chainPriority (chain.get "prio")) "PRIORITY_INVALID"
      (check (named chain "hook" chainHook) "HOOK_INVALID"
        (check (named chain "type" chainType) "CHAIN_TYPE_INVALID"
          (check (named chain "family" ownedFamily) "TABLE_FAMILY_INVALID"
            (check (named chain "name" ownedChain) "CHAIN_MISSING"
              (check (chain.hasExactly
                  ["family", "table", "name", "handle", "type", "hook", "prio", "policy"] &&
                isPositiveHandle (chain.get "handle")) "CHAIN_GRAMMAR_UNSUPPORTED" errors))))))

/-- The loop over the owned rules: tokens, handles seen and rules parsed so far. -/
def ruleLoop : List (Value F) → List String → List (Value F) → List GuardRule →
    List String × List GuardRule
  | [], errors, _, parsed => (errors, parsed)
  | rule :: rest, errors, handles, parsed =>
    if !(rule.hasExactly ["family", "table", "chain", "handle", "expr"] &&
        isPositiveHandle (rule.get "handle")) then
      ruleLoop rest (errors ++ ["RULE_GRAMMAR_UNSUPPORTED"]) handles parsed
    else if !(named rule "family" ownedFamily && named rule "chain" ownedChain) then
      ruleLoop rest (errors ++ ["RULE_PLACEMENT_INVALID"]) handles parsed
    else if handles.any (fun handle => handle.eq (rule.get "handle")) then
      ruleLoop rest (errors ++ ["RULE_HANDLE_DUPLICATE"]) handles parsed
    else
      match parseRuleExpr (rule.get "expr") with
      | .error token => ruleLoop rest (note token errors) (rule.get "handle" :: handles) parsed
      | .ok triple => ruleLoop rest errors (rule.get "handle" :: handles) (parsed ++ [triple])

def ownedErrors (owned : Owned F) (interfaces : List Text) : List String :=
  match owned.tables with
  | [] => owned.errors ++ ["TABLE_MISSING"]
  | [table] =>
    if !(table.hasExactly ["family", "name", "handle"] && isPositiveHandle (table.get "handle"))
    then owned.errors ++ ["TABLE_GRAMMAR_UNSUPPORTED"]
    else if !named table "family" ownedFamily then owned.errors ++ ["TABLE_FAMILY_INVALID"]
    else
      match owned.chains with
      | [] => owned.errors ++ ["CHAIN_MISSING"]
      | [chain] =>
        let errors := chainErrors chain owned.errors
        if !errors.isEmpty then errors
        else
          let (errors, parsed) := ruleLoop owned.rules errors [] []
          if !errors.isEmpty then errors else classifySequence parsed interfaces errors
      | _ => owned.errors ++ ["CHAIN_UNEXPECTED"]
  | _ => owned.errors ++ ["TABLE_DUPLICATE"]

/-- The normalized listing against the exact expected model. -/
def modelErrors (document : Value F) (interfaces : List Text) : List String :=
  match validatedRulesetItems document with
  | .error token => [token]
  | .ok items =>
    match collect items {} with
    | .error token => [token]
    | .ok owned => ownedErrors owned interfaces

/-- What one object tells against the absence of the owned identity. -/
def presence (kind : Text) (body : Value F) : Option String :=
  if named body "name" ownedTable && kind = .scalar "table" then some "PREEXISTING_OWNED_TABLE"
  else if named body "table" ownedTable then some "PREEXISTING_OWNED_TABLE"
  else if kind = .scalar "chain" && named body "name" ownedChain then some "CHAIN_NAME_COLLISION"
  else none

def presences : List (Value F) → List String → Except String (List String)
  | [], errors => .ok errors
  | item :: rest, errors =>
    match object? item with
    | none => .error "RULESET_JSON_INVALID"
    | some (kind, body) => presences rest (errors ++ (presence kind body).toList)

/-- No owned identity exists yet. -/
def absenceErrors (document : Value F) : List String :=
  match validatedRulesetItems document with
  | .error token => [token]
  | .ok items =>
    match presences items [] with
    | .error token => [token]
    | .ok errors => errors.foldl (fun deduplicated token => note token deduplicated) []

/-- What the loader and the transactions make of a capture. -/
inductive TableState
  | absent
  | healthy
  | invalid
  deriving DecidableEq

def tablePrestate (document : Value F) (interfaces : List Text) : TableState :=
  if (absenceErrors document).isEmpty then .absent
  else if (modelErrors document interfaces).isEmpty then .healthy
  else .invalid

end IngressGuard
