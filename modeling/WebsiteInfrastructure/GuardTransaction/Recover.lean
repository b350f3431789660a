import Mathlib
import WebsiteInfrastructure.GuardTransaction.Host

/-!
# Recovery

Completion or rollback of an interrupted transaction, under the global lock from the first look at
the journal to the end.
-/

namespace GuardTransaction

open Crash

/-- A program of the recovery; an exit has the status 1. -/
abbrev Recovery := Prog Host Unit

/-! ## The load journal -/

/-- `ig_reconcile_published_load_commit` -/
def reconcilePublishedLoadCommit : Recovery Unit := do
  let s ← .get
  match s.loadJournal with
  | none => return ()
  | some l =>
    .require (l.prestate = .absent) ()
    match l.phase with
    | .commitIntent =>
      if (s.receipts (loadReceiptPath l.attempt .pass)).exists then
        let receipt ← writeLoadReceipt l.attempt l.boot .pass "verified" "not-needed" ()
        writeLoadJournalRecord { l with phase := .committed, receipt := some receipt } ()
    | .committed | .rolledBack | .recoveryRequired => verifyClosedLoadReceipt l ()
    | _ => return ()

/-- `ig_close_load_journal_after_absence` -/
def closeLoadJournalAfterAbsence : Recovery Unit := do
  let s ← .get
  match s.loadJournal with
  | none => return ()
  | some l =>
    .require (l.prestate = .absent) ()
    match l.phase with
    | .prepared | .applyIntent | .applied | .commitIntent | .rollbackIntent =>
      if l.phase = .commitIntent then
        let pass := s.receipts (loadReceiptPath l.attempt .pass)
        .require (!pass.exists) ()
        match pass with
        | .temporary _ => discardUnpublishedTemp (loadReceiptPath l.attempt .pass) ()
        | _ => pure ()
      let receipt ←
        writeLoadReceipt l.attempt l.boot .rollbackVerified "absent" "verified" ()
      writeLoadJournalRecord { l with phase := .rolledBack, receipt := some receipt } ()
    | .committed | .rolledBack | .recoveryRequired => verifyClosedLoadReceipt l ()

/-! ## The machine -/

/-- `ig_remove_if_created` -/
def removeIfCreated (prestate : Existence) (a : Artifact) : Recovery Unit := do
  match prestate with
  | .exact => return ()
  | .absent =>
    let s ← .get
    match s.machine.file a with
    | .absent => return ()
    | .other => .exit ()
    | .exact =>
      .orExit ()
      .modify (·.setFile a .absent)
      .orExit ()

/-- A managed file or directory lies in the directory. -/
def Machine.isOccupied (m : Machine) (d : Directory) : Bool :=
  [Artifact.contract, .contractValidator, .modelValidator, .transactionLib, .dropin].any
      (fun a => a.directory? = some d && m.file a ≠ .absent) ||
    (Directory.library.parent? = some d && m.directory .library)

/-- `ig_remove_directory_if_created` -/
def removeDirectoryIfCreated (prestate : Existence) (d : Directory) : Recovery Unit := do
  match prestate with
  | .exact => return ()
  | .absent =>
    let s ← .get
    if !s.machine.directory d then return ()
    else
      .orExit ()
      .require (!s.machine.isOccupied d) ()
      .modify (·.setDirectory d false)
      .orExit ()

/-- `systemctl stop` of the guard; it takes along a kubelet that requires it. -/
def Host.stopGuard (s : Host) : Host :=
  { s with machine := { s.machine with
      guard := false
      queued := false
      kubelet := s.machine.kubelet && s.machine.file .dropin = .absent } }

/-- Only an enabled unit whose file is there counts as enabled. -/
def Machine.isEnabled (m : Machine) : Bool := m.enabled && m.file .unit ≠ .absent

/-- The kubelet as before the transaction, while the guard still protects it. -/
def restoreKubelet (p : Prestate) : Recovery Unit := do
  let s ← .get
  if p.kubelet && !s.machine.kubelet then
    .orExit ()
    .modify fun s => { s with machine := { s.machine with kubelet := true } }
    .orExit ()
  else .require (p.kubelet || !s.machine.kubelet) ()

/-- `ig_verify_cluster_health`, where it is applicable -/
def verifyClusterHealth (j : Journal) : Recovery Unit :=
  if j.clusterHealthScope.isSome then .orExit () else return ()

def stopGuard (p : Prestate) : Recovery Unit := do
  let s ← .get
  if s.machine.file .unit ≠ .absent then
    .orExit ()
    .modify Host.stopGuard
  let s ← .get
  .require (!p.kubelet || s.machine.kubelet) ()

/-- Delete the exact table of this attempt; refuse any other. -/
def removeTable (p : Prestate) : Recovery Unit := do
  .orExit ()
  if ← verifyAbsentCapture then return ()
  else if ← verifyLiveCapture then
    .require (p.table = .absent) ()
    .require (← deleteOwnedTableAndProveAbsent) ()
  else .exit ()

def disableGuard (p : Prestate) : Recovery Unit := do
  if !p.enabled then
    .orExit ()
    .modify fun s => { s with machine := { s.machine with enabled := false } }

/-- The files, in the order of their removal. -/
def removalOrder : List Artifact :=
  [.unit, .retrofit, .recover, .verify, .loader, .transactionLib, .modelValidator,
    .contractValidator, .contract]

def directoryRemovalOrder : List Directory := [.dropin, .library, .vendor, .etc]

def removeFiles (p : Prestate) : List Artifact → Recovery Unit
  | [] => return ()
  | a :: rest => do
    removeIfCreated (p.file a) a
    removeFiles p rest

def removeDirectories (p : Prestate) : List Directory → Recovery Unit
  | [] => return ()
  | d :: rest => do
    removeDirectoryIfCreated (p.directory d) d
    removeDirectories p rest

/-- `ig_verify_guard_unit_prestate` -/
def Machine.guardUnitPrestate (m : Machine) (unit : Existence) : Bool :=
  !m.guard && (unit = .exact) = (m.file .unit ≠ .absent)

/-- Kubelet, enablement, unit and dependency as they were. -/
def verifyRestored (p : Prestate) : Recovery Unit := do
  .orExit ()
  let s ← .get
  .require (s.machine.kubelet = p.kubelet) ()
  .require (s.machine.isEnabled = p.enabled) ()
  .require (s.machine.guardUnitPrestate (p.file .unit)) ()
  .require (p.file .dropin = .exact || s.machine.file .dropin = .absent) ()

/-! ## Recovery -/

/-- The rollback once its intent is durable. -/
def undo (j : Journal) : Recovery Unit := do
  removeIfCreated (j.prestate.file .dropin) .dropin
  .orExit ()
  restoreKubelet j.prestate
  verifyClusterHealth j
  stopGuard j.prestate
  .orExit ()
  removeTable j.prestate
  closeLoadJournalAfterAbsence
  disableGuard j.prestate
  removeFiles j.prestate removalOrder
  .orExit ()
  removeDirectories j.prestate directoryRemovalOrder
  verifyRestored j.prestate
  verifyClusterHealth j
  let receipt ← writeReceipt j .rollbackVerified "absent" "restored" "restored" "verified" ()
  journalWrite { j with phase := .rolledBack, receipt := some receipt } ()

/-- `on_exit`, once armed: leave a record that recovery is required. -/
def reportRecoveryRequired (j : Journal) : Recovery Unit := do
  let j := { j with phase := .recoveryRequired }
  let receipt ←
    writeReceipt j .recoveryRequired "unverified" "unverified" "unverified" "required" ()
  journalWrite { j with receipt := some receipt } ()
  .exit ()

def rollback (j : Journal) : Recovery Unit := do
  let j := { j with phase := .rollbackIntent, receipt := none }
  journalWrite j ()
  (undo j).trap fun _ => reportRecoveryRequired j

/-- Complete an intent whose receipt is published, or discard what was not. -/
def completeIntent (j : Journal) (result : Result) (persistence dependency : String)
    (phase : Phase) : Recovery Bool := do
  let s ← .get
  let receipt := s.receipts (receiptPath j result)
  if receipt.exists then
    .require receipt.rootFile?.isSome ()
    let document ← writeReceipt j result "verified" persistence dependency "not-needed" ()
    journalWrite { j with phase, receipt := some document } ()
    return true
  else
    match receipt with
    | .temporary _ => discardUnpublishedTemp (receiptPath j result) ()
    | _ => pure ()
    return false

/-- `recover-ingress-guard.sh`; what is returned is the exit status. -/
def recover (bundle : Bundle) (automatic : Bool) : Recovery ℕ := do
  -- commands, state roots and lock
  .orExit ()
  let s ← .get
  match s.journal with
  | none => .exit ()
  | some j =>
    .require (j.bundle = bundle) ()
    .orExit ()
    reconcilePublishedLoadCommit
    match j.phase with
    | .commitIntent =>
      if ← completeIntent j .pass "verified" "verified" .committed then
        return if automatic then 21 else 0
      else
        rollback j
        return 0
    | .awaitingRebootIntent =>
      if ← completeIntent j .pendingReboot "pending" "pending" .awaitingReboot then
        return if automatic then 20 else 0
      else
        rollback j
        return 0
    | .committed | .rolledBack =>
      let s ← .get
      .require (closedReceipt s j) ()
      .orExit ()
      return 0
    | _ =>
      rollback j
      return 0

end GuardTransaction
