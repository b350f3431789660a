import Mathlib
import WebsiteInfrastructure.GuardTransaction.Host

/-!
# The loader

The service that creates the owned table. It runs under the global lock from its first look at the
records to its end, its exit handler included.
-/

namespace GuardTransaction

open Crash

/-- The shell variables of the loader that its exit handler reads. -/
structure LoadMemory where
  phase : Option LoadPhase := none
  attempt : Attempt := 0
  boot : ℕ := 0
  tableCreated : Bool := false
  rollbackRunning : Bool := false
  deriving DecidableEq

/-- A program of the loader; an exit leaves its variables to the handler. -/
abbrev Load := Prog Host LoadMemory

/-- `load_journal_write`: the phase is remembered when the record is durable. -/
def loadJournalWrite (m : LoadMemory) (phase : LoadPhase) (receipt : Option Document) :
    Load LoadMemory := do
  writeLoadJournalRecord ⟨phase, .absent, m.attempt, m.boot, receipt⟩ m
  return { m with phase := some phase }

/-- `load_receipt_write`, in a command substitution -/
def loadReceiptWrite (m : LoadMemory) (result : Result) (tableState rollback : String) :
    Load (Option Document) :=
  .subshell (writeLoadReceipt m.attempt m.boot result tableState rollback m)

/-- Record the proven absence of the table. -/
def closeRolledBack (m : LoadMemory) : Load (Bool × LoadMemory) := do
  match ← loadReceiptWrite m .rollbackVerified "absent" "verified" with
  | none => return (false, m)
  | some receipt =>
    let m ← loadJournalWrite m .rolledBack (some receipt)
    return (true, m)

def requireRecovery (m : LoadMemory) : Load (Bool × LoadMemory) := do
  match ← loadReceiptWrite m .recoveryRequired "unverified" "required" with
  | none => return (false, m)
  | some receipt =>
    let m ← loadJournalWrite m .recoveryRequired (some receipt)
    return (false, m)

/-- `rollback_load` -/
def rollbackLoad (m : LoadMemory) : Load (Bool × LoadMemory) := do
  if m.rollbackRunning then return (false, m)
  else
    let m ← loadJournalWrite { m with rollbackRunning := true } .rollbackIntent none
    if m.tableCreated then
      if ← deleteOwnedTableAndProveAbsent then closeRolledBack m else requireRecovery m
    else
      let captured ← .succeeds
      if !captured then requireRecovery m
      else if ← verifyAbsentCapture then closeRolledBack m
      else
        let live ← verifyLiveCapture
        if !live then requireRecovery m
        else if ← deleteOwnedTableAndProveAbsent then closeRolledBack m
        else requireRecovery m

/-- The phases in which a failing loader rolls its attempt back. -/
def LoadPhase.isOpen : LoadPhase → Bool
  | .prepared | .applyIntent | .applied | .commitIntent | .rollbackIntent => true
  | _ => false

def rollbackOnExit (m : LoadMemory) : Prog Host Unit Unit := do
  if m.tableCreated || m.phase.any LoadPhase.isOpen then
    let _ ← Prog.trap (rollbackLoad m) fun _ => .exit ()
  .exit ()

/-- `on_exit` with a status other than 0; it may turn the status into 0. -/
def loadOnExit (m : LoadMemory) : Prog Host Unit Unit := do
  if m.phase = some .commitIntent then
    let s ← .get
    let published := s.receipts (loadReceiptPath m.attempt .pass)
    if published.exists then
      if published.rootFile?.isSome then
        match ← Prog.trap (loadReceiptWrite m .pass "verified" "not-needed") fun _ => .exit () with
        | some receipt =>
          let _ ← Prog.trap (loadJournalWrite m .committed (some receipt)) fun _ => .exit ()
          return ()
        | none => .exit ()
      else .exit ()
    else
      match published with
      | .temporary _ => discardUnpublishedTemp (loadReceiptPath m.attempt .pass) ()
      | _ => pure ()
      rollbackOnExit m
  else rollbackOnExit m

/-- Roll an interrupted attempt back whose table may exist. -/
def rollbackInterrupted (m : LoadMemory) : Load LoadMemory := do
  .orExit m
  if ← verifyAbsentCapture then
    match ← loadReceiptWrite m .rollbackVerified "absent" "verified" with
    | none => .exit m
    | some receipt => loadJournalWrite m .rolledBack (some receipt)
  else if ← verifyLiveCapture then
    let (done, m) ← rollbackLoad { m with tableCreated := true }
    if done then return { m with tableCreated := false } else .exit m
  else .exit m

/-- Complete or refuse an interrupted prior load. -/
def completeInterrupted (l : LoadJournal) (m : LoadMemory) : Load LoadMemory := do
  let m := { m with attempt := l.attempt, boot := l.boot }
  match l.phase with
  | .committed => do
    let s ← .get
    let receipt := (s.receipts (loadReceiptPath l.attempt .pass)).rootFile?
    .require (receipt.isSome && receipt = l.receipt) m
    .orExit m
    return m
  | .rolledBack => do
    let s ← .get
    let receipt := (s.receipts (loadReceiptPath l.attempt .rollbackVerified)).rootFile?
    .require (receipt.isSome && receipt = l.receipt) m
    .orExit m
    return m
  | .prepared => do
    .require (l.prestate = .absent) m
    return m
  | .commitIntent => do
    .require (l.prestate = .absent && l.receipt = none) m
    let s ← .get
    let previous := s.receipts (loadReceiptPath l.attempt .pass)
    if previous.exists then
      .require previous.rootFile?.isSome m
      match ← loadReceiptWrite m .pass "verified" "not-needed" with
      | none => .exit m
      | some receipt => loadJournalWrite m .committed (some receipt)
    else
      match previous with
      | .temporary _ => discardUnpublishedTemp (loadReceiptPath l.attempt .pass) m
      | _ => pure ()
      rollbackInterrupted m
  | .applyIntent | .applied | .rollbackIntent | .recoveryRequired => do
    .require (l.prestate = .absent) m
    rollbackInterrupted m

/-- Create the table in an attempt of its own. -/
def loadFresh (m : LoadMemory) : Load Unit := do
  .orExit m
  let s ← .get
  .modify fun s => { s with uuid := s.uuid + 1 }
  let m := { m with attempt := s.uuid, boot := s.boot }
  let m ← loadJournalWrite m .prepared none
  -- render the ruleset and have it checked
  .orExit m
  let m ← loadJournalWrite m .applyIntent none
  let applied ← nft fun t => { t with table := .exact (some s.uuid) }
  .require applied m
  -- a signal may come before the variable is set
  .orExit m
  let m := { m with tableCreated := true }
  let m ← loadJournalWrite m .applied none
  .orExit m
  .require (← verifyLiveCapture) m
  let m ← loadJournalWrite m .commitIntent none
  match ← loadReceiptWrite m .pass "verified" "not-needed" with
  | none => .exit m
  | some receipt =>
    let _ ← loadJournalWrite m .committed (some receipt)
    return ()

def loadBody : Load Unit := do
  let m : LoadMemory := {}
  -- commands, state roots, lock, runtime directory and contract
  .orExit m
  let s ← .get
  let m ← match s.loadJournal with
    | some l => completeInterrupted l m
    | none => .ret m
  .orExit m
  if ← verifyAbsentCapture then loadFresh m
  else if ← verifyLiveCapture then return ()
  else .exit m

/-- `load-ingress-guard.sh`; an exit is a status other than 0. -/
def load : Prog Host Unit Unit := loadBody.trap loadOnExit

end GuardTransaction
