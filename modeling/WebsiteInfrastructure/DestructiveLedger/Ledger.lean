import Mathlib
import WebsiteInfrastructure.Library.JsonHooks
import WebsiteInfrastructure.Library.PythonObjects
import WebsiteInfrastructure.Library.Raising

/-!
# The ledger of a destructive test

`validate_destructive_test_ledger.py`: one JSON document, read in the order of its checks. A check
denies the ledger, or raises where a value is not what Python's sets and floats take.
-/

namespace DestructiveLedger

open Json Raising

/-- How the checks end early: a reason is returned, or an exception leaves them. -/
inductive Stop
  | denied (reason : List Char)
  | raised
  deriving DecidableEq

abbrev Check := Except Stop

def deny (reason : String) : Stop := .denied reason.toList

/-! ## Required values -/

def scenarioNames : List String :=
  ["clean-recreate", "termination", "restart", "node-loss", "dependency-loss"]

def allowedEphemeralKinds : List (String × String) :=
  [("apps/v1", "DaemonSet"), ("apps/v1", "Deployment"), ("apps/v1", "ReplicaSet"),
    ("batch/v1", "CronJob"), ("batch/v1", "Job"), ("v1", "Pod")]

def maxInventory : ℕ := 32

def signalCases : List (String × List String) :=
  [("mixed-signals", ["TERM", "INT", "HUP"]), ("repeated-hup", ["HUP", "HUP"]),
    ("repeated-int", ["INT", "INT"]), ("repeated-term", ["TERM", "TERM"])]

def protectedExclusions : List String :=
  ["secrets-and-tokens", "private-keys-etcd-pki", "provider-dns-domain-tunnel-identities",
    "protected-custody", "git-history"]

def topLevelFields : List String :=
  ["acceptance_metrics", "artifact_sha256", "authorization", "classification", "cleanup_guard",
    "cleanup_receipt", "cloudflare_connector", "desired_state_sha256", "externalized_state",
    "inventory", "protected_exclusions", "recovery_journal", "recreate_from_zero", "scenarios",
    "schema_version", "serialized_lane", "signal_evidence"]

def inventoryFields : List String :=
  ["apiVersion", "classification", "fault_target", "kind", "name", "namespace", "scope", "uid"]

def metricFields : List String :=
  ["availability_percent", "expected_downtime_seconds", "readiness_seconds", "rto_seconds"]

def scenarioFields : List String :=
  ["availability_accepted", "cleanup_receipt_sha256", "completed_at", "fault_sha256",
    "fault_target_uid", "name", "observed_availability_percent", "observed_downtime_seconds",
    "observed_readiness_seconds", "observed_rto_seconds", "poststate_sha256", "prestate_sha256",
    "public_https_recovered", "readiness_accepted", "recovery_journal_sha256", "recovery_sha256",
    "residue_orphans", "rollback_status", "started_at"]

def guardFields : List String := ["reentry_policy", "rollback_limit", "signals"]

def receiptFields : List String :=
  ["completed_at", "observed_cleanup_seconds", "receipt_count", "residue_orphans",
    "rollback_count", "rollback_status", "sha256", "signals_deferred"]

def journalFields : List String :=
  ["created_before_mutation", "final_state", "initial_state", "recovery_action", "sha256"]

def signalFields : List String :=
  ["completed_at", "journal_final_state", "name", "observed_cleanup_seconds", "receipt_count",
    "residue_orphans", "rollback_count", "signals", "started_at"]

/-! ## Values of fields -/

/-- What the floats of the interpreter stand for: a rational, or none where they are not finite. -/
class Floats (F : Type) extends Interpreter F where
  exact : F → Option ℚ

variable {F : Type}

def isLowerHex (c : Char) : Bool := c.isDigit || ('a' ≤ c && c ≤ 'f')

/-- `_hash` -/
def isHash : Value F → Bool
  | .str (.scalar s) => s.toList.length = 64 && s.toList.all isLowerHex
  | _ => false

/-- `float(n)` does not overflow. -/
def fitsFloat (n : ℤ) : Bool := n.natAbs < 2 ^ 1024 - 2 ^ 970

def inMetric (percent : Bool) (q : ℚ) : Bool := 0 ≤ q && (!percent || q ≤ 100)

/-- `_metric`, with the number where it holds -/
def metric [Floats F] (percent : Bool) : Value F → Check (Option ℚ)
  | .int n =>
    if fitsFloat n then .ok (if inMetric percent n then some n else none) else .error .raised
  | .float x => .ok ((Floats.exact x).filter (inMetric percent))
  | _ => .ok none

/-- `[0-9]{4}-[0-9]{2}-[0-9]{2}T[0-9]{2}:[0-9]{2}:[0-9]{2}Z`, the digits of the six numbers -/
def timeDigits (text : List Char) : Option (List (List Char)) :=
  match text with
  | [y₁, y₂, y₃, y₄, '-', m₁, m₂, '-', d₁, d₂, 'T', h₁, h₂, ':', n₁, n₂, ':', s₁, s₂, 'Z'] =>
    let numbers := [[y₁, y₂, y₃, y₄], [m₁, m₂], [d₁, d₂], [h₁, h₂], [n₁, n₂], [s₁, s₂]]
    if numbers.all fun number => number.all Char.isDigit then some numbers else none
  | _ => none

def isLeap (year : ℕ) : Bool := year % 4 = 0 && (year % 100 ≠ 0 || year % 400 = 0)

def daysInMonth (year month : ℕ) : ℕ :=
  if month = 2 then (if isLeap year then 29 else 28)
  else if month ∈ [4, 6, 9, 11] then 30 else 31

/-- The year, the month, the day, the hour, the minute and the second of a datetime -/
def isDatetime : List ℕ → Bool
  | [year, month, day, hour, minute, second] =>
    1 ≤ year && 1 ≤ month && month ≤ 12 && 1 ≤ day && day ≤ daysInMonth year month &&
      hour < 24 && minute < 60 && second < 60
  | _ => false

/-- `_time`: the numbers of a datetime, which compare in their order -/
def time : Value F → Option (List ℕ)
  | .str (.scalar s) => do
    let numbers ← timeDigits s.toList
    let values := numbers.map fun number => Nat.ofDigitChars 10 number 0
    if isDatetime values then some values else none
  | _ => none

/-- `started is None or completed is None or completed < started` does not hold. -/
def isInterval (record : Value F) : Bool :=
  match time (record.get "started_at"), time (record.get "completed_at") with
  | some started, some completed => !decide (completed < started)
  | _, _ => false

/-- `set(members) == names` -/
def equalsSet [Interpreter F] (members : List (Value F)) (names : List String) : Check Bool :=
  if members.all Value.hashable then
    .ok (members.all (fun v => names.any fun name => v.eq (.text name)) &&
      names.all fun name => members.any fun v => v.eq (.text name))
  else .error .raised

/-- `{item.get("name") for item in items if isinstance(item, dict)} == names` -/
def namesEqual [Interpreter F] (items : List (Value F)) (names : List String) : Check Bool :=
  equalsSet ((items.filter Value.isObject).map fun item => item.get "name") names

/-- `isinstance(value, list)`, with the items -/
def items? : Value F → Option (List (Value F))
  | .arr items => some items
  | _ => none

def isBool : Value F → Bool
  | .bool _ => true
  | _ => false

/-! ## The checks -/

section Checks

variable [Floats F]

/-- What the loop over the inventory has seen. -/
structure Seen where
  identities : List (List Text)
  uids : List Text
  faultTargets : List Text

def identityKeys : List String := ["apiVersion", "kind", "namespace", "name", "uid"]

def isAllowedKind (resource : Value F) : Bool :=
  allowedEphemeralKinds.any fun kind =>
    (resource.get "apiVersion").eq (.text kind.1) && (resource.get "kind").eq (.text kind.2)

def checkResource (seen : Seen) (resource : Value F) : Check Seen := do
  raiseIf (resource.hasExactly inventoryFields = false)
    (deny "inventory entry fields are missing or foreign")
  match identityKeys.mapM fun key => (resource.get key).filled?, (resource.get "uid").filled? with
  | some fields, some uid => do
    raiseIf (fields ∈ seen.identities) (deny "inventory contains duplicate identity")
    raiseIf (uid ∈ seen.uids) (deny "inventory UIDs must be unique")
    raiseIf (isAllowedKind resource = false)
      (deny "resource API/kind is outside the closed ephemeral workload allowlist")
    raiseIf ((resource.get "scope").eq (.text "Namespaced") = false ∨
        (resource.get "classification").eq (.text "ephemeral-workload") = false)
      (deny "resource scope or classification is not exact")
    raiseIf (isBool (resource.get "fault_target") = false)
      (deny "resource fault_target must be boolean")
    .ok
      { identities := seen.identities ++ [fields]
        uids := seen.uids ++ [uid]
        faultTargets := seen.faultTargets ++
          if (resource.get "fault_target").truthy then [uid] else [] }
  | _, _ => .error (deny "inventory identity is incomplete")

/-- The checks of the document itself. -/
def checkHead (document : Value F) : Check Unit := do
  raiseIf (document.hasExactly topLevelFields = false)
    (deny "ledger fields are missing or foreign")
  raiseIf ((document.get "schema_version").eq (.int 1) = false) (deny "schema_version must equal 1")
  raiseIf ((document.get "authorization").eq (.text "explicit-owner-window") = false)
    (deny "ledger does not record explicit owner live-window authorization")
  raiseIf ((document.get "classification").eq (.text "ephemeral-disposable") = false)
    (deny "only engineered ephemeral-disposable resources may use destructive ledger")
  raiseIf ((document.get "externalized_state").isTrue = false)
    (deny "durable state is not proven externalized")
  raiseIf (isHash (document.get "desired_state_sha256") = false ∨
      isHash (document.get "artifact_sha256") = false)
    (deny "desired state and artifact require immutable SHA-256 identities")

/-- The inventory; the result is the fault target. -/
def checkInventory (document : Value F) : Check Text :=
  match items? (document.get "inventory") with
  | none => .error (deny "exact target inventory cardinality is outside the closed bound")
  | some inventory => do
    raiseIf (inventory.length < 1 ∨ maxInventory < inventory.length)
      (deny "exact target inventory cardinality is outside the closed bound")
    let seen ← carry checkResource ⟨[], [], []⟩ inventory
    match seen.faultTargets with
    | [target] => .ok target
    | _ => .error (deny "inventory must classify exactly one fault target")

def checkExclusions (document : Value F) : Check Unit :=
  match items? (document.get "protected_exclusions") with
  | none => .error (deny "protected exclusions are not the exact required set")
  | some exclusions => do
    let same ← equalsSet exclusions protectedExclusions
    raiseIf (same = false ∨ exclusions.length ≠ protectedExclusions.length)
      (deny "protected exclusions are not the exact required set")

/-- The metrics that were accepted. -/
structure Metrics where
  expectedDowntime : ℚ
  rto : ℚ
  readiness : ℚ
  availability : ℚ

/-- One of the metrics, by its key -/
def checkMetric (metrics : Value F) (key : String) : Check ℚ := do
  let value ← metric (key = "availability_percent") (metrics.get key)
  match value with
  | some q => .ok q
  | none => .error (.denied ("acceptance metric ".toList ++ key.toList ++ " is invalid".toList))

def checkMetrics (document : Value F) : Check Metrics := do
  let metrics := document.get "acceptance_metrics"
  raiseIf (metrics.hasExactly metricFields = false)
    (deny "acceptance metric fields are missing or foreign")
  let expectedDowntime ← checkMetric metrics "expected_downtime_seconds"
  let rto ← checkMetric metrics "rto_seconds"
  let readiness ← checkMetric metrics "readiness_seconds"
  let availability ← checkMetric metrics "availability_percent"
  raiseIf (rto ≤ 0 ∨ readiness ≤ 0) (deny "RTO and readiness acceptance bounds must be positive")
  .ok ⟨expectedDowntime, rto, readiness, availability⟩

def checkGuard (document : Value F) : Check Unit := do
  let guard := document.get "cleanup_guard"
  raiseIf (guard.hasExactly guardFields = false)
    (deny "cleanup guard fields are missing or foreign")
  raiseIf ((guard.get "signals").eq (.arr [.text "HUP", .text "INT", .text "TERM"]) = false)
    (deny "cleanup guard signal inventory is not exact")
  raiseIf ((guard.get "reentry_policy").eq (.text "ignore-after-first") = false ∨
      (guard.get "rollback_limit").eq (.int 1) = false)
    (deny "cleanup guard is not re-entry safe or single-rollback")

def checkJournal (document : Value F) : Check Unit := do
  let journal := document.get "recovery_journal"
  raiseIf (journal.hasExactly journalFields = false)
    (deny "recovery journal fields are missing or foreign")
  raiseIf (isHash (journal.get "sha256") = false)
    (deny "recovery journal requires an immutable SHA-256 identity")
  raiseIf ((journal.get "created_before_mutation").isTrue = false ∨
      (journal.get "initial_state").eq (.text "prepared") = false ∨
      (journal.get "final_state").eq (.text "closed") = false ∨
      (journal.get "recovery_action").eq (.text "rollback-or-escalate") = false)
    (deny "recovery journal lifecycle is not exact")

/-- A number within a bound: `not _metric(value) or value > bound` does not hold. -/
def checkWithin (value : Value F) (bound : ℚ) (stop : Stop) : Check Unit := do
  let observed ← metric false value
  raiseIf (¬ ∃ q ∈ observed, q ≤ bound) stop

def checkReceipt (metrics : Metrics) (document : Value F) : Check Unit := do
  let receipt := document.get "cleanup_receipt"
  raiseIf (receipt.hasExactly receiptFields = false)
    (deny "cleanup receipt fields are missing or foreign")
  raiseIf (isHash (receipt.get "sha256") = false ∨ time (receipt.get "completed_at") = none)
    (deny "cleanup receipt identity or completion time is invalid")
  raiseIf ((receipt.get "signals_deferred").isTrue = false ∨
      (receipt.get "rollback_count").eq (.int 1) = false ∨
      (receipt.get "receipt_count").eq (.int 1) = false ∨
      (receipt.get "rollback_status").eq (.text "verified") = false ∨
      (receipt.get "residue_orphans").eq (.int 0) = false)
    (deny "cleanup receipt does not prove one rollback, one receipt, and no residue")
  checkWithin (receipt.get "observed_cleanup_seconds") metrics.rto
    (deny "cleanup receipt exceeds the accepted RTO")

def checkEvidence (metrics : Metrics) (evidence : Value F) : Check Unit := do
  raiseIf (evidence.hasExactly signalFields = false)
    (deny "signal evidence fields are missing or foreign")
  match signalCases.find? fun signalCase => (evidence.get "name").eq (.text signalCase.1) with
  | none => .error .raised
  | some signalCase => do
    raiseIf ((evidence.get "signals").eq (.arr (signalCase.2.map .text)) = false)
      (deny "signal evidence sequence is not exact")
    raiseIf (isInterval evidence = false)
      (deny "signal evidence timestamps are absent, invalid, or reversed")
    raiseIf ((evidence.get "rollback_count").eq (.int 1) = false ∨
        (evidence.get "receipt_count").eq (.int 1) = false ∨
        (evidence.get "residue_orphans").eq (.int 0) = false ∨
        (evidence.get "journal_final_state").eq (.text "closed") = false)
      (deny "signal evidence does not prove one rollback, one receipt, and no residue")
    checkWithin (evidence.get "observed_cleanup_seconds") metrics.rto
      (deny "signal cleanup exceeds the accepted RTO")

def checkSignals (metrics : Metrics) (document : Value F) : Check Unit :=
  match items? (document.get "signal_evidence") with
  | none => .error (deny "signal evidence cardinality is not exact")
  | some evidence => do
    raiseIf (evidence.length ≠ signalCases.length)
      (deny "signal evidence cardinality is not exact")
    let same ← namesEqual evidence (signalCases.map (·.1))
    raiseIf (same = false)
      (deny "repeated and mixed signal evidence set is incomplete or widened")
    each (checkEvidence metrics) evidence

def hashKeys : List String :=
  ["prestate_sha256", "fault_sha256", "recovery_sha256", "poststate_sha256"]

/-- `repr` of the name of a scenario -/
def reprName : Value F → List Char
  | .str t => reprText t
  | _ => []

def checkScenario (document : Value F) (target : Text) (metrics : Metrics) (scenario : Value F) :
    Check Unit := do
  raiseIf (scenario.hasExactly scenarioFields = false)
    (deny "scenario fields are missing or foreign")
  raiseIf ((scenario.get "fault_target_uid").eq (.str target) = false)
    (deny "scenario fault target does not bind the classified inventory UID")
  raiseIf ((scenario.get "cleanup_receipt_sha256").eq
      ((document.get "cleanup_receipt").get "sha256") = false)
    (deny "scenario cleanup receipt identity does not match")
  raiseIf ((scenario.get "recovery_journal_sha256").eq
      ((document.get "recovery_journal").get "sha256") = false)
    (deny "scenario recovery journal identity does not match")
  each (fun key => raiseIf (isHash (scenario.get key) = false)
    (.denied ("scenario ".toList ++ reprName (scenario.get "name") ++ " has no exact ".toList ++
      key.toList))) hashKeys
  raiseIf (isInterval scenario = false)
    (deny "scenario timestamps are absent, invalid, or reversed")
  each (fun o : String × ℚ => checkWithin (scenario.get o.1) o.2
      (.denied ("scenario ".toList ++ o.1.toList ++ " is invalid or exceeds acceptance".toList)))
    [("observed_downtime_seconds", metrics.expectedDowntime),
      ("observed_rto_seconds", metrics.rto), ("observed_readiness_seconds", metrics.readiness)]
  let availability ← metric true (scenario.get "observed_availability_percent")
  raiseIf (¬ ∃ q ∈ availability, metrics.availability ≤ q)
    (deny "scenario observed availability is invalid or below acceptance")
  raiseIf ((scenario.get "residue_orphans").eq (.int 0) = false ∨
      (scenario.get "rollback_status").eq (.text "verified") = false)
    (deny "scenario residue or rollback is not clean")
  raiseIf ((scenario.get "readiness_accepted").isTrue = false ∨
      (scenario.get "availability_accepted").isTrue = false)
    (deny "scenario acceptance is incomplete")
  raiseIf ((document.get "cloudflare_connector").isTrue = true ∧
      (scenario.get "public_https_recovered").isTrue = false)
    (deny "connector scenario lacks public HTTPS recovery proof")

def checkScenarios (target : Text) (metrics : Metrics) (document : Value F) : Check Unit :=
  match items? (document.get "scenarios") with
  | none => .error (deny "required destructive scenario set is incomplete or widened")
  | some scenarios => do
    let same ← namesEqual scenarios scenarioNames
    raiseIf (same = false) (deny "required destructive scenario set is incomplete or widened")
    raiseIf (scenarios.length ≠ scenarioNames.length) (deny "scenario set contains duplicates")
    each (checkScenario document target metrics) scenarios

def checkTail (document : Value F) : Check Unit := do
  raiseIf (isBool (document.get "cloudflare_connector") = false)
    (deny "connector classification must be boolean")
  raiseIf ((document.get "serialized_lane").isTrue = false ∨
      (document.get "recreate_from_zero").isTrue = false)
    (deny "serialization or clean recreate-from-zero proof is absent")

/-- `denial` -/
def denial (document : Value F) : Check Unit := do
  checkHead document
  let target ← checkInventory document
  checkExclusions document
  let metrics ← checkMetrics document
  checkGuard document
  checkJournal document
  checkReceipt metrics document
  checkSignals metrics document
  checkScenarios target metrics document
  checkTail document

/-! ## The command -/

/-- What the command prints, or that an exception leaves it. -/
inductive Outcome
  | allow
  | deny (reason : List Char)
  /-- `DENY` with the text of the error that the file or its JSON has. -/
  | unreadable
  | raised
  deriving DecidableEq

/-- `main`, of the text of the ledger: a number with too many digits and too deep a nesting raise
what is not caught. -/
def main (text : List Char) : Outcome :=
  match loads (rejectDuplicates : PairsHook F) text with
  | .error .malformed | .error (.duplicate _) => .unreadable
  | .error .digits | .error .recursion => .raised
  | .ok document =>
    match denial document with
    | .ok () => .allow
    | .error (.denied reason) => .deny reason
    | .error .raised => .raised

end Checks

end DestructiveLedger
