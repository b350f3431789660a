import Mathlib
import WebsiteInfrastructure.GuardTransaction.Recover

/-!
# Installation and retrofit

Both transactions drop the global lock once, while systemd starts the guard, and take it again to
verify and to commit. An exit at any point is followed by a recovery, a process of its own.
-/

namespace GuardTransaction

open Crash

/-- A program of the installer; an exit has the status 1. -/
abbrev Install := Prog Host Unit

/-! ## The machine -/

def FileState.existence : FileState → Existence
  | .absent => .absent
  | _ => .exact

def allArtifacts : List Artifact :=
  [.contract, .contractValidator, .modelValidator, .transactionLib, .loader, .verify, .recover,
    .retrofit, .unit, .dropin]

/-- `ig_file_prestate` and its like, for what is there -/
def Machine.prestate (m : Machine) : Prestate where
  table := .absent
  kubelet := m.kubelet
  enabled := m.isEnabled
  file a := (m.file a).existence
  directory d := if m.directory d then .exact else .absent

/-- `ig_ensure_directory` -/
def ensureDirectory (d : Directory) : Install Unit := do
  let s ← .get
  if s.machine.directory d then pure ()
  else
    .require (d.parent?.all s.machine.directory) ()
    .orExit ()
    .modify (·.setDirectory d true)
    .orExit ()

/-- `ig_install_exact` -/
def installExact (a : Artifact) : Install Unit := do
  let s ← .get
  match s.machine.file a with
  | .exact => pure ()
  | .other => .exit ()
  | .absent =>
    .require (a.directory?.all s.machine.directory) ()
    .orExit ()
    .modify (·.setFile a .exact)
    .orExit ()

def ensureDirectories : List Directory → Install Unit
  | [] => return ()
  | d :: rest => do
    ensureDirectory d
    ensureDirectories rest

def installFiles : List Artifact → Install Unit
  | [] => return ()
  | a :: rest => do
    installExact a
    installFiles rest

/-- `verify-ingress-guard.sh` -/
def verifyInstalled : Install Unit := do
  .orExit ()
  let s ← .get
  .require (s.machine.isEnabled && s.machine.guard) ()
  .require (s.machine.file .dropin ≠ .absent) ()
  .require s.table.isExact ()

/-! ## Preparation -/

def directoryOrder : List Directory := [.etc, .vendor, .library, .dropin]

/-- The files that are in place before the guard is started. -/
def preparedFiles : Mode → List Artifact
  | .offline => allArtifacts
  | .retrofit => allArtifacts.filter (· ≠ .dropin)

/-- What each mode asks of the machine before the transaction. -/
def Machine.admits (m : Machine) : Mode → Bool
  | .offline => !m.kubelet
  | .retrofit => m.kubelet && !m.isEnabled && m.file .unit = .absent && m.file .dropin = .absent

/-- Install the files, and queue the guard. -/
def prepareGuard (j : Journal) : Install Journal := do
  ensureDirectories directoryOrder
  installFiles (preparedFiles j.mode)
  journalWrite { j with phase := .artifactsInstalled } ()
  .orExit ()
  if !j.prestate.enabled then
    .orExit ()
    .modify fun s => { s with machine := { s.machine with enabled := true } }
  let j := { j with phase := .guardStartIntent }
  journalWrite j ()
  .orExit ()
  .modify fun s => { s with machine := { s.machine with queued := true } }
  return j

/-- The journal of a fresh attempt. -/
def freshJournal (mode : Mode) (bundle : Bundle) (scope : Option String) (s : Host) : Journal where
  mode := mode
  phase := .prepared
  attempt := s.uuid
  bundle := bundle
  clusterHealthScope := match mode with
    | .offline => none
    | .retrofit => scope
  prestate := s.machine.prestate
  receipt := none

/-- From the lock to its release: `install-ingress-guard.sh`, and `retrofit-ingress-guard.sh
--activate`, where the cluster is found in the health `scope`. -/
def prepare (mode : Mode) (bundle : Bundle) (scope : Option String) : Install Journal := do
  -- commands, state roots, bundle and lock
  .orExit ()
  let s ← .get
  match s.journal with
  | none => pure ()
  | some j => .require (j.phase = .rolledBack && closedReceipt s j) ()
  .require (s.machine.admits mode) ()
  .orExit ()
  .require (← verifyAbsentCapture) ()
  let s ← .get
  .require (allArtifacts.all fun a => s.machine.file a ≠ .other) ()
  .require (s.machine.guardUnitPrestate (s.machine.prestate.file .unit)) ()
  .orExit ()
  .modify fun s => { s with uuid := s.uuid + 1 }
  let j := freshJournal mode bundle scope s
  journalWrite j ()
  prepareGuard j

/-! ## Completion -/

/-- The pass receipt between its intent and the closed journal. -/
def commit (j : Journal) : Install Unit := do
  journalWrite { j with phase := .commitIntent } ()
  let receipt ← writeReceipt j .pass "verified" "verified" "verified" "not-needed" ()
  journalWrite { j with phase := .committed, receipt := some receipt } ()

/-- The rest of an installation under the lock taken again, once the guard is started. -/
def completeInstall (j : Journal) : Install Unit := do
  .orExit ()
  journalWrite { j with phase := .guardActive } ()
  verifyInstalled
  commit j

/-- The same of a retrofit. -/
def completeRetrofit (j : Journal) : Install Unit := do
  .orExit ()
  let s ← .get
  .require (s.machine.guard && s.machine.isEnabled) ()
  .require (← verifyLiveCapture) ()
  journalWrite { j with phase := .guardActive } ()
  installExact .dropin
  .orExit ()
  journalWrite { j with phase := .dropinInstalled } ()
  journalWrite { j with phase := .kubeletRestartIntent } ()
  .orExit ()
  .modify fun s => { s with machine := { s.machine with kubelet := true } }
  verifyInstalled
  .orExit ()
  journalWrite { j with phase := .awaitingRebootIntent } ()
  let receipt ← writeReceipt j .pendingReboot "verified" "pending" "pending" "not-needed" ()
  journalWrite { j with phase := .awaitingReboot, receipt := some receipt } ()

def complete (j : Journal) : Install Unit :=
  match j.mode with
  | .offline => completeInstall j
  | .retrofit => completeRetrofit j

/-- `retrofit-ingress-guard.sh --close-after-reboot` -/
def closeAfterReboot (bundle : Bundle) : Install Unit := do
  .orExit ()
  let s ← .get
  match s.journal with
  | none => .exit ()
  | some j =>
    .require (j.mode = .retrofit && j.phase = .awaitingReboot && j.bundle = bundle) ()
    .require (closedReceipt s j) ()
    -- the attestation, another boot and the same cluster
    .orExit ()
    .require (allArtifacts.all fun a => s.machine.file a = .exact) ()
    .require s.machine.kubelet ()
    verifyInstalled
    .orExit ()
    commit j

end GuardTransaction
