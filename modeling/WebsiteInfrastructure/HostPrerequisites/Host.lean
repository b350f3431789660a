import Mathlib
import WebsiteInfrastructure.Library.CrashLogic

/-!
# The host below its prerequisites

The files, kernel settings and swaps that the prerequisites manage, the records of their
transactions, and the commands of the kernel.
-/

namespace HostPrerequisites

open Crash

/-! ## Settings -/

inductive SysctlKey
  | vmOvercommitMemory
  | vmPanicOnOom
  | kernelPanic
  | kernelPanicOnOops
  | kernelKeysRootMaxkeys
  | kernelKeysRootMaxbytes
  | netIpv4IpForward
  | netBridgeNfCallIptables
  | netBridgeNfCallIp6tables
  deriving DecidableEq

def sysctlKeys : List SysctlKey :=
  [.vmOvercommitMemory, .vmPanicOnOom, .kernelPanic, .kernelPanicOnOops, .kernelKeysRootMaxkeys,
    .kernelKeysRootMaxbytes, .netIpv4IpForward, .netBridgeNfCallIptables, .netBridgeNfCallIp6tables]

namespace SysctlKey

def desiredValue : SysctlKey → ℕ
  | vmOvercommitMemory => 1
  | vmPanicOnOom => 0
  | kernelPanic => 10
  | kernelPanicOnOops => 1
  | kernelKeysRootMaxkeys => 1000000
  | kernelKeysRootMaxbytes => 25000000
  | netIpv4IpForward | netBridgeNfCallIptables | netBridgeNfCallIp6tables => 1

/-- `module_gated_sysctl` -/
def moduleGated : SysctlKey → Bool
  | netBridgeNfCallIptables | netBridgeNfCallIp6tables => true
  | _ => false

/-- The numbers that `old_sysctl_value_allowed` lets pass. -/
def allows (n : ℕ) : SysctlKey → Bool
  | vmOvercommitMemory => n ≤ 2
  | vmPanicOnOom | kernelPanicOnOops | netIpv4IpForward | netBridgeNfCallIptables
  | netBridgeNfCallIp6tables => n ≤ 1
  | kernelPanic => n ≤ 3600
  | kernelKeysRootMaxkeys | kernelKeysRootMaxbytes => 1 ≤ n ∧ n ≤ 2000000000

theorem mem_sysctlKeys (k : SysctlKey) : k ∈ sysctlKeys := by
  cases k <;> decide

end SysctlKey

/-! ## Records -/

/-- What a file holds. -/
abbrev Content := String

/-- A device or a file that is swapped on. -/
abbrev Source := String

scoped instance : IsTrans Source (· ≤ ·) := inferInstance

scoped instance : Std.Antisymm fun a b : Source => a ≤ b := inferInstance

/-- A transaction ID. -/
abbrev Id := ℕ

/-- A captured value of a setting, a line of `module-load-sysctls.pre`. -/
abbrev LateLine := SysctlKey × ℕ

/-- A SHA-256 stands for what it is the digest of. -/
inductive Digest
  | file (content : Content)
  | swaps (sources : Finset Source)
  | late (lines : List LateLine)
  | plan (n : ℕ)
  | machine (n : ℕ)
  | boot (n : ℕ)
  deriving DecidableEq

inductive SwapAction
  | none
  | disableFstab
  deriving DecidableEq

inductive Value
  | number (n : ℕ)
  | unavailable
  | absent
  /-- `sha256:` and a digest -/
  | tagged (d : Digest)
  | digest (d : Digest)
  | transaction (i : Id)
  | swapAction (a : SwapAction)
  | active
  deriving DecidableEq

/-- The keys of manifests and of the active state. -/
inductive Key
  | manifestVersion
  | stateVersion
  | status
  | transactionId
  | planSha256
  | machineIdSha256
  | appliedBootIdSha256
  | modulesPrestate
  | sysctlPrestate
  | fstabPreSha256
  | fstabPostSha256
  | activeSwapPreSha256
  | desiredModulesSha256
  | desiredSysctlSha256
  | swapAction
  | lateSysctlsState
  | old (k : SysctlKey)
  deriving DecidableEq

/-- The lines of a manifest or of the active state. -/
abbrev Lines := List (Key × Value)

/-- `data_value` -/
def Lines.dataValue (lines : Lines) (key : Key) : List Value :=
  (lines.filter fun line => line.1 = key).map Prod.snd

/-- The files of one transaction directory. -/
structure Transaction where
  activeSwapsPre : Option (Finset Source)
  fstabPre : Option Content
  modulesPre : Option Content
  sysctlPre : Option Content
  fstabPost : Option Content
  manifest : Option Lines
  moduleLoadSysctlsPre : Option (List LateLine)
  rolledBack : Bool

def Transaction.empty : Transaction := ⟨none, none, none, none, none, none, none, false⟩

/-! ## The host -/

structure Host where
  /-- The managed file of `/etc/modules-load.d`. -/
  modules : Option Content
  /-- The managed file of `/etc/sysctl.d`. -/
  sysctlFile : Option Content
  fstab : Content
  /-- The running values; those of the bridge mean nothing before its module is loaded. -/
  values : SysctlKey → ℕ
  overlay : Bool
  /-- `br_netfilter` is loaded. -/
  bridge : Bool
  swaps : Finset Source
  machineId : ℕ
  bootId : ℕ
  transactions : Id → Option Transaction
  /-- No transaction has had this ID. -/
  nextId : Id
  /-- `pending-transaction`, without content while it is being written. -/
  pending : Option (Option Id)
  /-- `active.state` -/
  active : Option Lines

/-- What the scripts find on a machine and do not change. -/
structure Site where
  modulesSource : Content
  sysctlSource : Content
  /-- The values that `br_netfilter` brings along. -/
  loadedValue : SysctlKey → ℕ
  /-- Whether a file of `/etc/modules-load.d` names `overlay`. -/
  namesOverlay : Content → Bool
  /-- Whether it names `br_netfilter`. -/
  namesBridge : Content → Bool
  /-- The resolved swap entries of an `/etc/fstab`. -/
  fstabSwaps : Content → Finset Source
  /-- An `/etc/fstab` with its swap entries commented out. -/
  disableSwaps : Content → Content

/-- `file_state`, of regular files -/
def fileState : Option Content → Value
  | none => .absent
  | some content => .tagged (.file content)

namespace Host

variable (site : Site) (s : Host)

/-- The setting, if there is one by that name. -/
def value? (k : SysctlKey) : Option ℕ :=
  if k.moduleGated && !s.bridge then none else some (s.values k)

/-- `observed_sysctl_value` -/
def observed (k : SysctlKey) : Value := (s.value? k).elim .unavailable .number

/-- A transaction directory; a missing one has no files. -/
def transaction (i : Id) : Transaction := (s.transactions i).getD .empty

def manifest (i : Id) : Lines := (s.transaction i).manifest.getD []

/-- The active state names a transaction. -/
def ActiveNames (i : Id) : Prop :=
  ∃ lines, s.active = some lines ∧ lines.dataValue .transactionId = [.transaction i]

/-- A state file names a transaction. -/
def Names (i : Id) : Prop := s.pending = some (some i) ∨ s.ActiveNames i

instance (i : Id) : Decidable (s.ActiveNames i) :=
  match h : s.active with
  | none => isFalse (by simp [ActiveNames, h])
  | some lines =>
    if hid : lines.dataValue .transactionId = [.transaction i] then isTrue ⟨lines, h, hid⟩
    else isFalse (by simpa [ActiveNames, h] using hid)

instance (i : Id) : Decidable (s.Names i) := inferInstanceAs (Decidable (_ ∨ _))

def withTransaction (i : Id) (t : Transaction) : Host :=
  { s with transactions := Function.update s.transactions i (some t) }

def setValue (k : SysctlKey) (n : ℕ) : Host := { s with values := Function.update s.values k n }

def loadBridge : Host :=
  if s.bridge then s
  else { s with
    bridge := true
    values := fun k => if k.moduleGated then site.loadedValue k else s.values k }

variable {site s}

@[simp] theorem transaction_withTransaction (i : Id) (t : Transaction) :
    (s.withTransaction i t).transaction i = t := by
  simp [transaction, withTransaction]

@[simp] theorem withTransaction_withTransaction (i : Id) (t t' : Transaction) :
    (s.withTransaction i t).withTransaction i t' = s.withTransaction i t' := by
  simp [withTransaction]

variable (site s)

/-- Another boot, with the modules that are named and those that the system loads by itself. -/
def reboot (overlay bridge : Bool) (values : SysctlKey → ℕ) (swaps : Finset Source) : Host :=
  { s with
    values, swaps
    overlay := overlay || s.modules.any site.namesOverlay
    bridge := bridge || s.modules.any site.namesBridge
    bootId := s.bootId + 1 }

end Host

/-! ## Commands -/

/-- How a script ends before its end: by `host_prereq_die`, by a failed command, or by one that
failed in a command substitution, where the handler of errors runs as well. -/
inductive Failure
  | die
  | error
  | nested
  deriving DecidableEq

abbrev Script (α : Type) := Prog Host Failure α

/-- `sysctl -n` -/
def readSysctl (k : SysctlKey) : Script (Option ℕ) := do
  let ok ← Prog.succeeds
  let s ← Prog.get
  return if ok then s.value? k else none

/-- `sysctl -w` -/
def writeSysctl (k : SysctlKey) (n : ℕ) : Script Bool := do
  let ok ← Prog.succeeds
  let s ← Prog.get
  if ok && (s.value? k).isSome then do
    Prog.modify (Host.setValue · k n)
    return true
  else return false

/-- `modprobe overlay` -/
def loadOverlay : Script Unit := do
  Prog.orExit .error
  Prog.modify fun s => { s with overlay := true }

/-- `modprobe br_netfilter` -/
def loadBridge (site : Site) : Script Unit := do
  Prog.orExit .error
  Prog.modify (Host.loadBridge site)

def swapoff (source : Source) : Script Unit := do
  Prog.orExit .error
  Prog.modify fun s => { s with swaps := s.swaps.erase source }

def swapon (source : Source) : Script Bool := do
  let ok ← Prog.succeeds
  if ok then do
    Prog.modify fun s => { s with swaps := insert source s.swaps }
    return true
  else return false

end HostPrerequisites
