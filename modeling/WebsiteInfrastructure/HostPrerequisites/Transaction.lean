import Mathlib
import WebsiteInfrastructure.HostPrerequisites.Host

/-!
# Transactions of the host prerequisites

What makes a transaction valid, and how it is restored.
-/

namespace HostPrerequisites

open Crash

/-! ## Validation -/

def oldSysctlValueAllowed (k : SysctlKey) : Value → Bool
  | .unavailable => k.moduleGated
  | .number n => k.allows n
  | _ => false

/-- The keys whose value was to be captured after the module is loaded. -/
def unavailableKeys (manifest : Lines) : List SysctlKey :=
  [SysctlKey.netBridgeNfCallIptables, .netBridgeNfCallIp6tables].filter fun k =>
    manifest.dataValue (.old k) = [.unavailable]

/-- The captured lines of one key. -/
def lateValues (lines : List LateLine) (k : SysctlKey) : List ℕ :=
  (lines.filter fun line => line.1 = k).map Prod.snd

/-- The lines of the captured values. -/
def validLateLines (manifest : Lines) (lines : List LateLine) : Bool :=
  (lines.all fun line => line.1 ∈ unavailableKeys manifest && line.1.allows line.2) &&
    ((unavailableKeys manifest).all fun k => (lateValues lines k).length = 1) &&
    lines.length = (unavailableKeys manifest).length

def validateLateSysctls (manifest : Lines) (late : Option (List LateLine)) : Bool :=
  match manifest.dataValue .lateSysctlsState, late with
  | [.absent], none => true
  | [.absent], some lines => unavailableKeys manifest ≠ [] && validLateLines manifest lines
  | [.tagged digest], some lines =>
    unavailableKeys manifest ≠ [] && digest = .late lines && validLateLines manifest lines
  | _, _ => false

def requiredManifestKeys : List Key :=
  [.manifestVersion, .transactionId, .planSha256, .machineIdSha256, .appliedBootIdSha256,
    .modulesPrestate, .sysctlPrestate, .fstabPreSha256, .fstabPostSha256, .activeSwapPreSha256,
    .desiredModulesSha256, .desiredSysctlSha256, .swapAction, .lateSysctlsState] ++
    sysctlKeys.map .old

def isHash : List Value → Bool
  | [.digest _] => true
  | _ => false

def isPrestate : List Value → Bool
  | [.absent] | [.tagged _] => true
  | _ => false

def isTagged : List Value → Bool
  | [.tagged _] => true
  | _ => false

def isSwapAction : List Value → Bool
  | [.swapAction _] => true
  | _ => false

/-- The backup of a managed file. -/
def validBackup (manifest : Lines) (key : Key) (backup : Option Content) : Bool :=
  manifest.dataValue key = [fileState backup]

/-- `validate_transaction`, of a directory with a manifest -/
def validManifest (i : Id) (t : Transaction) (manifest : Lines) : Bool :=
  (manifest.all fun line => line.1 ∈ requiredManifestKeys) &&
    (requiredManifestKeys.all fun key => (manifest.dataValue key).length = 1) &&
    manifest.dataValue .manifestVersion = [.number 1] &&
    manifest.dataValue .transactionId = [.transaction i] &&
    ([Key.planSha256, .machineIdSha256, .appliedBootIdSha256, .fstabPreSha256, .fstabPostSha256,
      .activeSwapPreSha256, .desiredModulesSha256, .desiredSysctlSha256].all fun key =>
        isHash (manifest.dataValue key)) &&
    ([Key.modulesPrestate, .sysctlPrestate].all fun key => isPrestate (manifest.dataValue key)) &&
    isSwapAction (manifest.dataValue .swapAction) &&
    (sysctlKeys.all fun k => (manifest.dataValue (.old k)).all (oldSysctlValueAllowed k)) &&
    validateLateSysctls manifest t.moduleLoadSysctlsPre &&
    (t.fstabPre.any fun c => manifest.dataValue .fstabPreSha256 = [.digest (.file c)]) &&
    (t.activeSwapsPre.any fun w => manifest.dataValue .activeSwapPreSha256 = [.digest (.swaps w)]) &&
    validBackup manifest .modulesPrestate t.modulesPre &&
    validBackup manifest .sysctlPrestate t.sysctlPre

def validateTransaction (s : Host) (i : Id) : Bool :=
  (s.transactions i).any fun t => t.manifest.any (validManifest i t)

/-- The keys of an active state whose values are hashes. -/
def activeHashKeys : List Key :=
  [.planSha256, .machineIdSha256, .appliedBootIdSha256, .desiredModulesSha256, .desiredSysctlSha256]

def requiredActiveKeys : List Key :=
  [.stateVersion, .status, .transactionId] ++ activeHashKeys ++ [Key.swapAction]

/-- The active state, against the transaction that it names. -/
def validActiveLines (s : Host) (lines : Lines) (i : Id) : Bool :=
  (lines.all fun line => line.1 ∈ requiredActiveKeys) &&
    (requiredActiveKeys.all fun key => (lines.dataValue key).length = 1) &&
    lines.dataValue .stateVersion = [.number 1] && lines.dataValue .status = [.active] &&
    (activeHashKeys.all fun key => isHash (lines.dataValue key)) &&
    isSwapAction (lines.dataValue .swapAction) &&
    lines.dataValue .machineIdSha256 = [.digest (.machine s.machineId)] &&
    validateTransaction s i &&
    ((activeHashKeys ++ [Key.swapAction]).all fun key =>
      lines.dataValue key = (s.manifest i).dataValue key) &&
    (unavailableKeys (s.manifest i) = [] ||
      isTagged ((s.manifest i).dataValue .lateSysctlsState))

/-- `validate_active_state`, beside a pending transaction or not -/
def validateActiveState (s : Host) (allowPending : Bool) : Bool :=
  (allowPending || s.pending.isNone) && s.active.any fun lines =>
    match lines.dataValue .transactionId with
    | [.transaction i] => validActiveLines s lines i
    | _ => false

/-- The current file is as it was found or as it was installed. -/
def undrifted (manifest : Lines) (before desired : Key) (current : Option Content) : Bool :=
  manifest.dataValue before = [fileState current] ||
    (current.any fun c => manifest.dataValue desired = [.digest (.file c)])

def checkTransactionRollbackReady (s : Host) (i : Id) : Bool :=
  let manifest := s.manifest i
  validateTransaction s i &&
    manifest.dataValue .machineIdSha256 = [.digest (.machine s.machineId)] &&
    undrifted manifest .modulesPrestate .desiredModulesSha256 s.modules &&
    undrifted manifest .sysctlPrestate .desiredSysctlSha256 s.sysctlFile &&
    (manifest.dataValue .fstabPreSha256 = [.digest (.file s.fstab)] ||
      manifest.dataValue .fstabPostSha256 = [.digest (.file s.fstab)]) &&
    (s.transaction i).activeSwapsPre.any fun saved => s.swaps ⊆ saved

/-! ## Restoration -/

/-- The recorded value of a setting. A key that was not available has none before it is captured. -/
inductive OldValue
  | value (n : ℕ)
  | uncaptured
  | invalid
  deriving DecidableEq

def transactionOldSysctlValue (t : Transaction) (k : SysctlKey) : OldValue :=
  match (t.manifest.getD []).dataValue (.old k) with
  | [.number n] => .value n
  | [.unavailable] => match t.moduleLoadSysctlsPre with
    | none => .uncaptured
    | some lines => match lateValues lines k with
      | [n] => if k.allows n then .value n else .invalid
      | _ => .invalid
  | _ => .invalid

/-- `rm -f`, or the backup in one step. -/
def restoreModules (t : Transaction) : Script Unit :=
  Prog.modify fun s =>
    { s with modules :=
        if (t.manifest.getD []).dataValue .modulesPrestate = [.absent] then none else t.modulesPre }

def restoreSysctlFile (t : Transaction) : Script Unit :=
  Prog.modify fun s =>
    { s with sysctlFile :=
        if (t.manifest.getD []).dataValue .sysctlPrestate = [.absent] then none else t.sysctlPre }

def restoreFstab (t : Transaction) : Script Unit :=
  Prog.modify fun s => { s with fstab := t.fstabPre.getD "" }

/-- The loop over the settings, which goes on after a failure. -/
def restoreSysctls (t : Transaction) : List SysctlKey → Script Bool
  | [] => return true
  | k :: keys => do
    let ok ← match transactionOldSysctlValue t k with
      | .value n => writeSysctl k n
      | .uncaptured => Prog.ret true
      | .invalid => Prog.ret false
    let rest ← restoreSysctls t keys
    return ok && rest

/-- The loop over the saved swaps that are not in use. -/
def restoreSwaps : List Source → Script Bool
  | [] => return true
  | source :: sources => do
    let ok ← swapon source
    let rest ← restoreSwaps sources
    return ok && rest

/-- The recorded value of a setting is there again. -/
def sysctlRestored (s : Host) (t : Transaction) (k : SysctlKey) : Bool :=
  match transactionOldSysctlValue t k with
  | .value n => s.value? k = some n
  | .uncaptured => true
  | .invalid => false

/-- What a restoration verifies at its end. -/
def restored (s : Host) (t : Transaction) : Bool :=
  let manifest := t.manifest.getD []
  manifest.dataValue .modulesPrestate = [fileState s.modules] &&
    manifest.dataValue .sysctlPrestate = [fileState s.sysctlFile] &&
    manifest.dataValue .fstabPreSha256 = [.digest (.file s.fstab)] &&
    manifest.dataValue .activeSwapPreSha256 = [.digest (.swaps s.swaps)] &&
    sysctlKeys.all (sysctlRestored s t)

def removeActive (i : Id) : Script Unit :=
  Prog.modify fun s => if s.ActiveNames i then { s with active := none } else s

def removePending (i : Id) : Script Unit :=
  Prog.modify fun s => if s.pending = some (some i) then { s with pending := none } else s

def noteRolledBack (i : Id) : Script Unit :=
  Prog.modify fun s => s.withTransaction i { s.transaction i with rolledBack := true }

/-- The changes back to the prestate, with whether none of the commands failed. -/
def restoreHost (t : Transaction) : Script Bool := do
  restoreModules t
  restoreSysctlFile t
  restoreFstab t
  let settings ← restoreSysctls t sysctlKeys
  let s ← Prog.get
  let swaps ← restoreSwaps ((t.activeSwapsPre.getD ∅ \ s.swaps).sort (· ≤ ·))
  return settings && swaps

/-- The status of `restore_transaction`. -/
def restoreTransaction (i : Id) : Script Bool := do
  let s ← Prog.get
  if checkTransactionRollbackReady s i then do
    let ok ← restoreHost (s.transaction i)
    let u ← Prog.get
    if ok && restored u (s.transaction i) then do
      removeActive i
      removePending i
      noteRolledBack i
      return true
    else return false
  else return false

end HostPrerequisites
