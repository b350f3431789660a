import Mathlib
import WebsiteInfrastructure.Library.CrashLogic
import WebsiteInfrastructure.Library.Sha256

/-!
# The destructive-test transaction

`scripts/ci/destructive_transaction_fixture.py`: a local marker is created under a journal, and a
signal handler or a later recovery removes it, publishes a receipt and closes the journal. Times
are nanoseconds of the monotonic clock.
-/

namespace DestructiveFixture

open Crash

inductive Name
  | sentinel | journal | mutation | ready | cleanupStarted | cleanupContinue | receipt
  | temporary (path : Name) (pid : ℕ)
deriving DecidableEq

def Name.text : Name → String
  | sentinel => ".offline-destructive-fixture"
  | journal => "journal.json"
  | mutation => "mutation.marker"
  | ready => "mutation.ready"
  | cleanupStarted => "cleanup.started"
  | cleanupContinue => "cleanup.continue"
  | receipt => "cleanup.receipt.json"
  | temporary path pid => "." ++ path.text ++ ".tmp-" ++ toString pid

inductive Signal
  | hup | int | term
deriving DecidableEq

def Signal.number : Signal → ℕ
  | hup => 1
  | int => 2
  | term => 15

/-- `SIGNAL_NAMES` -/
def Signal.name : Signal → String
  | hup => "HUP"
  | int => "INT"
  | term => "TERM"

/-- `RTO_SECONDS` -/
def rto : ℕ := 5 * 10 ^ 9

def receiptTriggers : List String := ["journal-recovery", "signal-HUP", "signal-INT", "signal-TERM"]

inductive JournalState
  | prepared | closed
deriving DecidableEq

structure Journal where
  createdBeforeMutation : Bool
  recoveryAction : String
  rollbackCount : ℕ
  schemaVersion : ℕ
  state : JournalState
  receiptSha256 : Option String
  residueOrphans : Option ℕ
  trigger : Option String
deriving DecidableEq

structure Receipt where
  /-- Rounded to microseconds. -/
  observedCleanupSeconds : ℕ
  receiptCount : ℕ
  residueOrphans : ℕ
  rollbackCount : ℕ
  rollbackStatus : String
  schemaVersion : ℕ
  signalsDeferred : Bool
  trigger : String
deriving DecidableEq

/-- The text of a number of microseconds as a float of seconds -/
def secondsText (microseconds : ℕ) : String :=
  if microseconds = 0 then "0.0"
  else if microseconds < 10 then toString microseconds ++ "e-06"
  else if microseconds < 100 then
    -- Below 0.0001 the text has an exponent.
    let tail := if microseconds % 10 = 0 then "" else "." ++ toString (microseconds % 10)
    toString (microseconds / 10) ++ tail ++ "e-05"
  else
    let digits := Nat.toDigits 10 (10 ^ 6 + microseconds % 10 ^ 6)
    let fraction := (digits.tail.reverse.dropWhile (· = '0')).reverse
    toString (microseconds / 10 ^ 6) ++ "." ++
      if fraction = [] then "0" else String.ofList fraction

/-- `_canonical` -/
def Receipt.canonical (receipt : Receipt) : String :=
  "\x7b\"observed_cleanup_seconds\":" ++ secondsText receipt.observedCleanupSeconds ++
    ",\"receipt_count\":" ++ toString receipt.receiptCount ++
    ",\"residue_orphans\":" ++ toString receipt.residueOrphans ++
    ",\"rollback_count\":" ++ toString receipt.rollbackCount ++
    ",\"rollback_status\":\"" ++ receipt.rollbackStatus ++
    "\",\"schema_version\":" ++ toString receipt.schemaVersion ++
    ",\"signals_deferred\":" ++ toString receipt.signalsDeferred ++
    ",\"trigger\":\"" ++ receipt.trigger ++ "\"\x7d\n"

/-- `hashlib.sha256(receipt_payload).hexdigest()` -/
def Receipt.sha256 (receipt : Receipt) : String :=
  Sha256.hexdigest (Utf8.encode receipt.canonical)

/-- What a file of the root holds. A `fragment` is not written to its end. -/
inductive Content
  | text (s : String)
  | journal (document : Journal)
  | receipt (document : Receipt)
  | fragment
deriving DecidableEq

abbrev Root := Finmap fun _ : Name => Content

/-- A root that holds the exact sentinel and nothing else. -/
def freshRoot : Root := Finmap.singleton .sentinel (.text "offline-fixture-v1\n")

inductive Exit
  | fixtureError (message : String)
  | fileExists
  | systemExit (code : ℕ)
deriving DecidableEq

abbrev Program := Prog Root Exit

/-! ## Records -/

/-- `_write_bytes` by the process `pid` -/
def writeBytes (pid : ℕ) (path : Name) (payload : Content) (replace : Bool) : Program Unit := do
  let temporary := Name.temporary path pid
  let root ← Prog.get
  .require (temporary ∉ root) .fileExists
  .modify (Finmap.insert temporary .fragment)
  .modify (Finmap.insert temporary payload)
  let root ← Prog.get
  if !replace && decide (path ∈ root) then
    .modify (Finmap.erase temporary)
    .exit (.fixtureError s!"refusing to replace existing fixture record {path.text}")
  else
    -- `os.replace` is one step.
    .modify fun root => (root.erase temporary).insert path payload

/-- `_journal_document`; the further entries are those of a closed journal. -/
def journalDocument (state : JournalState) (receiptSha256 : Option String) (residueOrphans : Option ℕ)
    (trigger : Option String) : Journal where
  createdBeforeMutation := true
  recoveryAction := "rollback-or-escalate"
  rollbackCount := if state = .prepared then 0 else 1
  schemaVersion := 1
  state := state
  receiptSha256 := receiptSha256
  residueOrphans := residueOrphans
  trigger := trigger

def preparedJournal : Journal := journalDocument .prepared none none none

/-- `round(elapsed, 6)`: the even neighbour of a tie -/
def roundMicroseconds (elapsed : ℕ) : ℕ :=
  let quotient := elapsed / 1000
  let remainder := elapsed % 1000
  if remainder < 500 ∨ remainder = 500 ∧ quotient % 2 = 0 then quotient else quotient + 1

/-- `_read_json` of the journal -/
def readJournal : Program Journal := do
  let root ← Prog.get
  match root.lookup .journal with
  | some (.journal document) => pure document
  | some _ => .exit (.fixtureError s!"fixture record {Name.journal.text} is malformed")
  | none => .exit (.fixtureError s!"fixture record {Name.journal.text} is absent or unsafe")

/-- `_read_json` of the receipt -/
def readReceipt : Program Receipt := do
  let root ← Prog.get
  match root.lookup .receipt with
  | some (.receipt document) => pure document
  | some _ => .exit (.fixtureError s!"fixture record {Name.receipt.text} is malformed")
  | none => .exit (.fixtureError s!"fixture record {Name.receipt.text} is absent or unsafe")

/-! ## The transaction -/

def prepare (pid : ℕ) : Program Unit := do
  let root ← Prog.get
  .require (root.keys = {.sentinel}) (.fixtureError "run fixture root must contain only its sentinel")
  writeBytes pid .journal (.journal preparedJournal) false
  writeBytes pid .mutation (.text "offline-mutation\n") false
  writeBytes pid .ready (.text "ready\n") false

/-- `path.exists()` before `path.unlink()` -/
def unlinkExisting (path : Name) : Program Unit := do
  let root ← Prog.get
  if path ∈ root then .modify (Finmap.erase path) else pure ()

def removeTransientMarkers : Program Unit := do
  unlinkExisting .ready
  unlinkExisting .cleanupStarted
  unlinkExisting .cleanupContinue

def receiptDocument (trigger : String) (elapsed residue : ℕ) : Receipt where
  observedCleanupSeconds := roundMicroseconds elapsed
  receiptCount := 1
  residueOrphans := residue
  rollbackCount := 1
  rollbackStatus := if residue = 0 then "verified" else "failed"
  schemaVersion := 1
  signalsDeferred := true
  trigger := trigger

/-- The journal that binds a receipt. -/
def closedJournal (receipt : Receipt) : Journal :=
  journalDocument .closed (some receipt.sha256) (some receipt.residueOrphans) (some receipt.trigger)

/-- `_exact_root_entries() - allowed_before_receipt` -/
def residue (root : Root) : Finset Name := root.keys \ {.sentinel, .journal}

/-- `_finish_cleanup`, when `elapsed` has passed since its start -/
def finishCleanup (pid : ℕ) (trigger : String) (elapsed : ℕ) : Program Unit := do
  unlinkExisting .mutation
  removeTransientMarkers
  let root ← Prog.get
  let residue := (residue root).card
  .require (elapsed ≤ rto) (.fixtureError "offline rollback exceeded its bounded RTO")
  let receipt := receiptDocument trigger elapsed residue
  writeBytes pid .receipt (.receipt receipt) false
  writeBytes pid .journal (.journal (closedJournal receipt)) true
  let root ← Prog.get
  .require (residue = 0 ∧ root.keys = {.sentinel, .journal, .receipt})
    (.fixtureError "offline rollback left unclassified fixture residue")

/-- The receipt fields that `_validate_closed_state` demands. -/
def receiptExact (receipt : Receipt) : Bool :=
  receipt.schemaVersion = 1 ∧ receipt.rollbackCount = 1 ∧ receipt.receiptCount = 1 ∧
    receipt.residueOrphans = 0 ∧ receipt.signalsDeferred ∧ receipt.rollbackStatus = "verified" ∧
    receipt.trigger ∈ receiptTriggers ∧ receipt.observedCleanupSeconds ≤ 5 * 10 ^ 6

/-- `_validate_closed_state` -/
def validateClosedState (journal : Journal) : Program Unit := do
  let receipt ← readReceipt
  .require (receiptExact receipt) (.fixtureError "closed cleanup receipt is not exact")
  .require (journal = journalDocument .closed (some receipt.sha256) (some 0) (some receipt.trigger))
    (.fixtureError "closed recovery journal does not bind the exact receipt")
  let root ← Prog.get
  .require (root.keys = {.sentinel, .journal, .receipt} ∧ Name.mutation ∉ root)
    (.fixtureError "closed transaction retains residue")

/-- What passes while the handler waits for `cleanup.continue`. -/
structure Wait where
  continues : Bool
  elapsed : ℕ

/-- The time of the whole cleanup. Without `cleanup.continue` the wait ends at the deadline. -/
def Wait.cleanup (wait : Wait) (root : Root) : ℕ :=
  if wait.continues ∨ Name.cleanupContinue ∈ root then wait.elapsed else max rto wait.elapsed

/-- The root after the wait. -/
def Wait.root (wait : Wait) (root : Root) : Root :=
  if wait.continues then root.insert .cleanupContinue (.text "") else root

/-- The loop of `handle_signal` -/
def awaitContinue (wait : Wait) : Program ℕ := do
  let root ← Prog.get
  .modify wait.root
  pure (wait.cleanup root)

/-- `handle_signal`, from where it has set `cleanup_started` and ignores further signals -/
def handleSignal (pid : ℕ) (signum : Signal) (wait : Wait) : Program ℕ := do
  writeBytes pid .cleanupStarted (.text "cleanup-started\n") false
  let elapsed ← awaitContinue wait
  finishCleanup pid ("signal-" ++ signum.name) elapsed
  .exit (.systemExit (128 + signum.number))

/-- `run` without a signal -/
def run (pid : ℕ) : Program ℕ := do
  prepare pid
  .exit (.fixtureError "offline fixture received no cleanup signal")

def recover (pid : ℕ) (elapsed : ℕ) : Program ℕ := do
  let document ← readJournal
  .require (document.schemaVersion = 1) (.fixtureError "recovery journal schema is not exact")
  if document.state = .closed then
    validateClosedState document
    pure 0
  else
    .require (document = preparedJournal) (.fixtureError "recovery journal is foreign or ambiguous")
    let root ← Prog.get
    .require (Name.receipt ∉ root)
      (.fixtureError "prepared journal cannot carry a cleanup receipt")
    finishCleanup pid "journal-recovery" elapsed
    pure 0

end DestructiveFixture
