import Mathlib

/-!
# Installing the recovery tools

`bootstrap/pi/install-recovery-tools.sh --apply`, from the capture of the prestate to the exit. Every
command after the rollback trap is armed may fail, and a command that fails leaves what it writes
in any state.
-/

namespace RecoveryTools

/-- The managed targets, in the order of the script. -/
inductive Target
  | etcdctl | etcdutl | snapshotCommand | versions | decisions | service | timer
deriving DecidableEq

def targets : List Target :=
  [.etcdctl, .etcdutl, .snapshotCommand, .versions, .decisions, .service, .timer]

/-- `/var/backups/kubernetes`, `/var/backups/kubernetes/etcd` and `/etc/website-infrastructure` -/
inductive Directory
  | snapshotParent | snapshot | config
deriving DecidableEq

/-- The targets in `/etc/website-infrastructure` -/
def Target.inConfig : Target → Bool
  | .versions | .decisions => true
  | _ => false

section

variable {File : Type}

structure Host (File : Type) where
  file : Target → Option File
  /-- The mode of a directory that is present. -/
  directory : Directory → Option ℕ
  /-- A directory holds an entry that is neither a target nor one of the directories. -/
  occupied : Directory → Bool
  timerEnabled : Bool
  timerActive : Bool
  /-- The copies under each backup directory, which is named by a second. -/
  backup : String → Target → Option File

/-- A host whose files and directories are in directories. -/
structure Prestate (File : Type) extends Host File where
  config_present : ∀ t, t.inConfig = true → file t ≠ none → directory .config ≠ none
  parent_present : directory .snapshot ≠ none → directory .snapshotParent ≠ none

namespace Host

def setFile (s : Host File) (t : Target) (content : Option File) : Host File :=
  { s with file := Function.update s.file t content }

def setDirectory (s : Host File) (d : Directory) (mode : Option ℕ) : Host File :=
  { s with directory := Function.update s.directory d mode }

end Host

/-- What a failing command of the forward phase leaves where it writes. -/
structure Residue (File : Type) where
  file : Option File
  parent : Option ℕ
  directory : Option ℕ
  timer : Bool × Bool

/-- Which commands fail after the trap is armed, and what they leave. -/
structure Faults (File : Type) where
  /-- The first command of the forward phase that fails. -/
  forward : Option (ℕ × Residue File)
  /-- The timer takes a snapshot before the script ends. -/
  snapshotTaken : Bool
  disable : Option (Bool × Bool)
  remove : Target → Bool
  makeDirectory : Target → Bool
  restore : Target → Option (Option File)
  rmdir : Directory → Bool
  enable : Option Bool
  start : Option Bool

/-! ## Capture and forward phase -/

/-- `cp -a` of every target that is present -/
def capture (stamp : String) (s : Host File) : Host File :=
  { s with backup := Function.update s.backup stamp fun t => (s.file t).or (s.backup stamp t) }

inductive Step
  /-- A command that changes none of this: tests, versions, `daemon-reload`. -/
  | check
  | makeConfig
  | makeSnapshot
  | install (t : Target)
  | enableNow

/-- The commands after the trap, for a host that was captured. -/
def forwardSteps (s : Host File) : List Step :=
  List.replicate 3 .check ++
    (if s.directory .config = none then [.makeConfig] else [.check]) ++
    (if s.directory .snapshot = none then [.makeSnapshot] else []) ++ [.check] ++
    targets.map .install ++ List.replicate 4 .check ++ [.enableNow, .check]

def Step.effect (payload : Target → File) (faults : Faults File) : Step → Host File → Host File
  | .check, s => s
  | .makeConfig, s => s.setDirectory .config (some 0o755)
  | .makeSnapshot, s =>
    (s.setDirectory .snapshotParent ((s.directory .snapshotParent).or (some 0o755))).setDirectory
      .snapshot (some 0o700)
  | .install t, s => s.setFile t (some (payload t))
  | .enableNow, s => { s with
      timerEnabled := true
      timerActive := true
      occupied := Function.update s.occupied .snapshot (s.occupied .snapshot || faults.snapshotTaken) }

def Step.failure (faults : Faults File) (residue : Residue File) : Step → Host File → Host File
  | .check, s => s
  | .makeConfig, s => s.setDirectory .config residue.directory
  | .makeSnapshot, s =>
    (s.setDirectory .snapshotParent ((s.directory .snapshotParent).or residue.parent)).setDirectory
      .snapshot residue.directory
  | .install t, s => s.setFile t residue.file
  | .enableNow, s => { s with
      timerEnabled := residue.timer.1
      timerActive := residue.timer.2
      occupied := Function.update s.occupied .snapshot (s.occupied .snapshot || faults.snapshotTaken) }

/-- The commands in their order, up to the one that fails. -/
def forward (payload : Target → File) (faults : Faults File) :
    List Step → Option (ℕ × Residue File) → Host File → Bool × Host File
  | [], _, s => (true, s)
  | step :: _, some (0, residue), s => (false, step.failure faults residue s)
  | step :: steps, some (n + 1, residue), s =>
    forward payload faults steps (some (n, residue)) (step.effect payload faults s)
  | step :: steps, none, s => forward payload faults steps none (step.effect payload faults s)

/-! ## Rollback -/

/-- `systemctl disable --now` -/
def disableTimer (faults : Faults File) (s : Host File) : Host File :=
  let timer := faults.disable.getD (false, false)
  { s with timerEnabled := timer.1, timerActive := timer.2 }

/-- `install -d -m 0755 "$(dirname "${target}")"`; the other directories are those of the system. -/
def makeDirectory (faults : Faults File) (t : Target) (s : Host File) : Host File :=
  if t.inConfig && !faults.makeDirectory t then s.setDirectory .config (some 0o755) else s

/-- The loop body: `rm -f`, and the copy from the backup directory where there is one -/
def restoreTarget (stamp : String) (faults : Faults File) (s : Host File) (t : Target) : Host File :=
  let removed := if faults.remove t then s else s.setFile t none
  match s.backup stamp t with
  | none => removed
  | some copy => (makeDirectory faults t removed).setFile t ((faults.restore t).getD (some copy))

/-- No entry is left in a directory. -/
def Host.isEmpty (s : Host File) (d : Directory) : Bool :=
  !s.occupied d && match d with
    | .snapshotParent => (s.directory .snapshot).isNone
    | .snapshot => true
    | .config => (s.file .versions).isNone && (s.file .decisions).isNone

/-- `rmdir` of a directory that was not there before -/
def removeDirectory (preexisting : Bool) (faults : Faults File) (d : Directory) (s : Host File) :
    Host File :=
  if preexisting || faults.rmdir d || !s.isEmpty d then s else s.setDirectory d none

/-- `systemctl enable` and `systemctl start` -/
def restoreTimer (oldEnabled oldActive : Bool) (faults : Faults File) (s : Host File) : Host File :=
  { s with
    timerEnabled := if oldEnabled then faults.enable.getD true else s.timerEnabled
    timerActive := if oldActive then faults.start.getD true else s.timerActive }

/-- `rollback`, after the capture of `s` -/
def rollback (stamp : String) (faults : Faults File) (s current : Host File) : Host File × String :=
  let preexisting d := (s.directory d).isSome
  let restored := targets.foldl (restoreTarget stamp faults) (disableTimer faults current)
  let pruned := removeDirectory (preexisting .config) faults .config
    (removeDirectory (preexisting .snapshotParent) faults .snapshotParent
      (removeDirectory (preexisting .snapshot) faults .snapshot restored))
  (restoreTimer s.timerEnabled s.timerActive faults pruned,
    "Recovery-tools installation failed; managed files were restored from " ++
      "/var/backups/website-infrastructure/" ++ stamp ++ "-etcd-recovery-tools.")

/-- The host in which the rollback starts, or in which the script ends. -/
def applied (stamp : String) (payload : Target → File) (faults : Faults File) (s : Host File) :
    Bool × Host File :=
  forward payload faults (forwardSteps s) faults.forward (capture stamp s)

/-- `--apply` from the capture on: the host on exit, and what the rollback printed -/
def install (stamp : String) (payload : Target → File) (faults : Faults File) (s : Host File) :
    Host File × Option String :=
  let (completed, current) := applied stamp payload faults s
  if completed then (current, none)
  else
    let (restored, message) := rollback stamp faults s current
    (restored, some message)

end

end RecoveryTools
