import Mathlib
import WebsiteInfrastructure.HostPrerequisites.Transaction

/-!
# Applying the prerequisites and rolling them back

The two entry points under their lock. A change of several steps is one step here only where the
script replaces a file by a rename.
-/

namespace HostPrerequisites

open Crash

/-! ## Plans -/

inductive SwapMechanism
  | none
  | fstabOnly
  deriving DecidableEq

/-- What a reviewed plan says; `number` is its own digest. -/
structure Plan where
  number : ℕ
  machineId : ℕ
  bootId : ℕ
  modulesTargetState : Value
  sysctlTargetState : Value
  fstab : Content
  activeSwaps : Finset Source
  desiredModules : Content
  desiredSysctl : Content
  current : SysctlKey → Value
  swapMechanism : SwapMechanism
  swapAction : SwapAction

/-- `detect_swap_mechanism`, of resolved entries and without other signals -/
def detectSwapMechanism (site : Site) (s : Host) : Option SwapMechanism :=
  let configured := site.fstabSwaps s.fstab
  if s.swaps = ∅ ∧ configured = ∅ then some .none
  else if configured = ∅ then none
  else if s.swaps ⊆ configured then some .fstabOnly
  else none

def SwapMechanism.action : SwapMechanism → SwapAction
  | .none => .none
  | .fstabOnly => .disableFstab

/-- `check_host_against_plan`, with what the validator of plans asks of the current values -/
def checkHostAgainstPlan (site : Site) (s : Host) (plan : Plan) : Bool :=
  sysctlKeys.all (fun k => oldSysctlValueAllowed k (plan.current k)) &&
    plan.desiredModules = site.modulesSource && plan.desiredSysctl = site.sysctlSource &&
    plan.machineId = s.machineId && plan.bootId = s.bootId &&
    plan.modulesTargetState = fileState s.modules &&
    plan.sysctlTargetState = fileState s.sysctlFile && plan.fstab = s.fstab &&
    sysctlKeys.all (fun k => plan.current k = s.observed k) &&
    detectSwapMechanism site s = some plan.swapMechanism &&
    plan.swapAction = plan.swapMechanism.action && plan.activeSwaps = s.swaps

section

variable (site : Site) (plan : Plan)

/-! ## Preparation -/

/-- The candidate for `/etc/fstab`. -/
def fstabPost (fstab : Content) : Content :=
  if plan.swapAction = .disableFstab then site.disableSwaps fstab else fstab

/-- The manifest of a fresh transaction. -/
def manifestLines (i : Id) (s : Host) : Lines :=
  [(.manifestVersion, .number 1), (.transactionId, .transaction i),
    (.planSha256, .digest (.plan plan.number)), (.machineIdSha256, .digest (.machine s.machineId)),
    (.appliedBootIdSha256, .digest (.boot s.bootId)), (.modulesPrestate, fileState s.modules),
    (.sysctlPrestate, fileState s.sysctlFile), (.fstabPreSha256, .digest (.file s.fstab)),
    (.fstabPostSha256, .digest (.file (fstabPost site plan s.fstab))),
    (.activeSwapPreSha256, .digest (.swaps s.swaps)),
    (.desiredModulesSha256, .digest (.file site.modulesSource)),
    (.desiredSysctlSha256, .digest (.file site.sysctlSource)),
    (.swapAction, .swapAction plan.swapAction), (.lateSysctlsState, .absent)] ++
    sysctlKeys.map fun k => (.old k, plan.current k)

/-- One more file of a transaction directory. -/
def writeFile (i : Id) (f : Transaction → Transaction) : Script Unit :=
  Prog.modify fun s => s.withTransaction i (f (s.transaction i))

/-- `mkdir` of a directory that has not been there. -/
def makeDirectory : Script Unit :=
  Prog.modify fun s => { s.withTransaction s.nextId .empty with nextId := s.nextId + 1 }

/-- The backups, in the order in which they are made. -/
def writeBackups (i : Id) (s : Host) : Script Unit := do
  writeFile i fun t => { t with activeSwapsPre := some s.swaps }
  writeFile i fun t => { t with fstabPre := some s.fstab }
  writeFile i fun t => { t with modulesPre := s.modules }
  writeFile i fun t => { t with sysctlPre := s.sysctlFile }
  writeFile i fun t => { t with fstabPost := some (fstabPost site plan s.fstab) }

/-- `pending-transaction` is opened before it is filled. -/
def writePending (i : Id) : Script Unit := do
  Prog.modify fun s => { s with pending := some none }
  Prog.modify fun s => { s with pending := some (some i) }

/-- No other transaction is open. -/
def applyAdmitted (s : Host) : Bool := s.active.isNone && s.pending.isNone

/-- Everything up to the handler of errors. -/
def prepare : Script Id := do
  let s ← Prog.get
  Prog.require (checkHostAgainstPlan site s plan) .die
  -- the gates that read nothing of this state, the acknowledgements and the lock
  Prog.orExit .die
  Prog.require (applyAdmitted s) .die
  makeDirectory
  writeBackups site plan s.nextId s
  Prog.require (plan.swapAction = .none || site.fstabSwaps (fstabPost site plan s.fstab) = ∅) .die
  Prog.orExit .die
  writeFile s.nextId fun t => { t with manifest := some (manifestLines site plan s.nextId s) }
  let u ← Prog.get
  Prog.require (validateTransaction u s.nextId) .die
  writePending s.nextId
  return s.nextId

/-! ## Mutation -/

/-- The loop that captures the values that the module has brought along. -/
def captureLate (i : Id) : List SysctlKey → Script (List LateLine)
  | [] => return []
  | k :: keys => do
    let s ← Prog.get
    if (s.manifest i).dataValue (.old k) = [.unavailable] then do
      let value ← readSysctl k
      match value with
      | none => Prog.exit .nested
      | some n => do
        Prog.require (k.allows n) .error
        let rest ← captureLate i keys
        return (k, n) :: rest
    else captureLate i keys

/-- The manifest with the digest of the captured values. -/
def rewriteManifest (lines : List LateLine) (manifest : Lines) : Lines :=
  manifest.map fun line =>
    if line.1 = .lateSysctlsState then (.lateSysctlsState, .tagged (.late lines)) else line

def writeLate (i : Id) (lines : List LateLine) : Script Unit :=
  if lines ≠ [] then do
    writeFile i fun t => { t with moduleLoadSysctlsPre := some lines }
    writeFile i fun t => { t with manifest := t.manifest.map (rewriteManifest lines) }
  else Prog.ret ()

/-- `sysctl -p`, which goes on after a failure. -/
def applySysctls : List SysctlKey → Script Bool
  | [] => return true
  | k :: keys => do
    let ok ← writeSysctl k k.desiredValue
    let rest ← applySysctls keys
    return ok && rest

def swapoffAll : List Source → Script Unit
  | [] => Prog.ret ()
  | source :: sources => do
    swapoff source
    swapoffAll sources

/-- The change of `/etc/fstab` and of the swaps in use. -/
def disableSwap (i : Id) : Script Unit :=
  if plan.swapAction = .disableFstab then do
    let s ← Prog.get
    Prog.modify fun s => { s with fstab := (s.transaction i).fstabPost.getD "" }
    swapoffAll (((s.transaction i).activeSwapsPre.getD ∅).sort (· ≤ ·))
  else Prog.ret ()

def verifyDesiredHostContract (s : Host) : Bool :=
  s.modules = some site.modulesSource && s.sysctlFile = some site.sysctlSource && s.overlay &&
    s.bridge && sysctlKeys.all (fun k => s.value? k = some k.desiredValue) && s.swaps = ∅ &&
    detectSwapMechanism site s = some .none

def activeLines (i : Id) (s : Host) : Lines :=
  [(.stateVersion, .number 1), (.status, .active), (.transactionId, .transaction i),
    (.planSha256, .digest (.plan plan.number)), (.machineIdSha256, .digest (.machine s.machineId)),
    (.appliedBootIdSha256, .digest (.boot s.bootId)),
    (.desiredModulesSha256, .digest (.file site.modulesSource)),
    (.desiredSysctlSha256, .digest (.file site.sysctlSource)),
    (.swapAction, .swapAction plan.swapAction)]

/-- `verify-host-prerequisites.sh --post-apply` -/
def verifyPostApply : Script Unit := do
  let s ← Prog.get
  Prog.require (validateActiveState s false && verifyDesiredHostContract site s) .error
  Prog.orExit .error

/-- Everything under the handler of errors. -/
def mutate (i : Id) : Script Unit := do
  Prog.modify fun s => { s with modules := some site.modulesSource }
  Prog.modify fun s => { s with sysctlFile := some site.sysctlSource }
  loadOverlay
  loadBridge site
  let late ← captureLate i sysctlKeys
  writeLate i late
  let s ← Prog.get
  Prog.require (validateTransaction s i) .error
  let ok ← applySysctls sysctlKeys
  Prog.require ok .error
  disableSwap plan i
  let u ← Prog.get
  Prog.require (verifyDesiredHostContract site u) .error
  Prog.orExit .error
  Prog.modify fun s => { s with active := some (activeLines site plan i s) }
  Prog.modify fun s => { s with pending := none }
  verifyPostApply site

/-- The handler of errors. In a command substitution it runs there first. -/
def onApplyError (i : Id) (failure : Failure) : Script Unit := do
  if failure = .nested then do
    let _ ← restoreTransaction i
    let _ ← restoreTransaction i
    Prog.exit failure
  else do
    let _ ← restoreTransaction i
    Prog.exit failure

/-- `apply-host-prerequisites.sh --apply` -/
def apply : Script Unit := do
  let i ← prepare site plan
  (mutate site plan i).trap (onApplyError i)

end

/-! ## Rollback -/

/-- The transaction is the pending or the active one. -/
def rollbackAdmitted (s : Host) (i : Id) : Bool :=
  match s.pending with
  | some content =>
    content = some i &&
      (s.active.isNone || validateActiveState s true && decide (s.ActiveNames i))
  | none => s.active.isSome && validateActiveState s false && decide (s.ActiveNames i)

/-- `rollback-host-prerequisites.sh --apply` -/
def rollback (i : Id) : Script Unit := do
  let s ← Prog.get
  Prog.require (rollbackAdmitted s i) .die
  Prog.require (checkTransactionRollbackReady s i) .die
  -- the acknowledgements and the lock
  Prog.orExit .die
  let u ← Prog.get
  Prog.require (checkTransactionRollbackReady u i) .die
  let ok ← restoreTransaction i
  Prog.require ok .error

end HostPrerequisites
