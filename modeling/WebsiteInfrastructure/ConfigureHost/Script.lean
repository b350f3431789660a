import Mathlib
import WebsiteInfrastructure.Library.Sed

/-!
# The SSH and journald configuration script

`configure-host.sh --apply-ssh-and-journald` from the backup on: the two drop-in files, the
configuration that the running `sshd` has loaded, and the three branches that restore them. Any
other command that fails ends the script where it stands.
-/

namespace ConfigureHost

abbrev Content := List Sed.Text

structure File where
  content : Content
  mode : ℕ
  deriving DecidableEq

/-- A drop-in file, if its directory holds one. -/
abbrev DropIn := Option File

/-- What `sshd` reads: its main file and the drop-in. -/
abbrev Configuration := Content × Option Content

/-- A directory `/var/backups/website-infrastructure/<second>`. -/
structure Backup where
  main : File
  /-- A copy of `sshd_config.d`, if there was such a directory. -/
  ssh : Option DropIn
  journald : Option DropIn

structure Host where
  /-- `/etc/ssh/sshd_config` -/
  main : File
  /-- `/etc/ssh/sshd_config.d`, if there is such a directory. -/
  ssh : Option DropIn
  /-- `/etc/systemd/journald.conf.d` -/
  journald : Option DropIn
  /-- What the running `sshd` has loaded. -/
  running : Configuration
  backups : ℕ → Option Backup

namespace Host

def sshDropIn (h : Host) : DropIn := h.ssh.join

def journaldDropIn (h : Host) : DropIn := h.journald.join

def configuration (h : Host) : Configuration :=
  (h.main.content, h.sshDropIn.map File.content)

end Host

/-! ## What around a run may fail -/

/-- A command that writes, and what it leaves behind when it fails. -/
inductive Effect (α : Type)
  | works
  | fails (left : α)

/-- `systemctl reload ssh || systemctl reload sshd` -/
inductive Reload
  | works
  | fails (loaded : Bool)

structure Run where
  adminUser : Sed.Text
  /-- The drop-in files of the repository. -/
  template : Content
  limits : Content
  /-- The second that names the backup directory. -/
  second : ℕ
  backupWorks : Bool
  /-- Which of the two directories there are when `install -d` fails. -/
  directories : Effect (Bool × Bool)
  /-- The mode that the umask gives to a new file. -/
  newFileMode : ℕ
  sed : Effect DropIn
  chmodWorks : Bool
  installJournald : Effect DropIn
  sshdTest : Bool
  /-- What `sshd -T -C` prints. -/
  effective : Option (List Sed.Text)
  reload : Reload
  restart : Bool
  reportWorks : Bool
  restoreMain : Effect File
  restoreSsh : Effect DropIn
  restoreJournald : Effect DropIn
  recoveryTest : Bool
  recoveryReload : Reload

/-! ## Commands -/

/-- `sed "s/REPLACE_ADMIN_USER/${ADMIN_USER}/g"` -/
def rendered (r : Run) : Content :=
  r.template.map (Sed.replaceAll (Sed.fixed (Sed.lit "REPLACE_ADMIN_USER".toList) r.adminUser))

/-- `verify_effective_sshd` -/
def verifyEffectiveSshd (r : Run) : Bool :=
  match r.effective with
  | none => false
  | some effective =>
    (["permitrootlogin no".toList, "passwordauthentication no".toList,
      "kbdinteractiveauthentication no".toList, "authenticationmethods publickey".toList,
      "pubkeyauthentication yes".toList, "allowagentforwarding no".toList,
      "allowtcpforwarding no".toList, "x11forwarding no".toList, "permittunnel no".toList,
      "gatewayports no".toList, "allowusers ".toList ++ r.adminUser]).all fun expected =>
        effective.contains expected

/-- `cp -a` of a directory to a place where there is one already copies into it, so the files of
an earlier run in the same second stay. -/
def backupOf (h : Host) (second : ℕ) : Backup where
  main := h.main
  ssh := ((h.backups second).bind Backup.ssh).or h.ssh
  journald := ((h.backups second).bind Backup.journald).or h.journald

/-- `install -d` of one directory -/
def made (directory : Option DropIn) (works : Bool) : Option DropIn :=
  if works then some directory.join else directory

/-- `>` keeps the mode of a file that is there. -/
def written (before : DropIn) (newFileMode : ℕ) (content : Content) : File :=
  ⟨content, match before with
    | some file => file.mode
    | none => newFileMode⟩

/-- `install -m 0644` of a file of the backup, or `rm -f` when the backup has none. -/
def reinstalled (backup : Option DropIn) : DropIn :=
  backup.join.map fun file => ⟨file.content, 644⟩

def Host.reload (h : Host) : Reload → Host
  | .works => { h with running := h.configuration }
  | .fails true => { h with running := h.configuration }
  | .fails false => h

/-! ## Recovery -/

/-- `cp -a` of the main file and `restore_managed_dropins`. -/
def restore (r : Run) (b : Backup) (h : Host) : Host × Bool :=
  match r.restoreMain with
  | .fails left => ({ h with main := left }, false)
  | .works =>
    match r.restoreSsh with
    | .fails left => ({ h with main := b.main, ssh := some left }, false)
    | .works =>
      match r.restoreJournald with
      | .fails left =>
        ({ h with main := b.main, ssh := some (reinstalled b.ssh), journald := some left }, false)
      | .works =>
        ({ h with
            main := b.main
            ssh := some (reinstalled b.ssh)
            journald := some (reinstalled b.journald) }, true)

/-- `sshd -t` and the second reload, after everything has been restored. -/
def recover (r : Run) (b : Backup) (h : Host) : Host :=
  let (h, restored) := restore r b h
  if restored = false then h
  else if r.recoveryTest = false then h
  else h.reload r.recoveryReload

/-! ## The script -/

/-- From the two files being in place on. The flag says whether the exit status is zero. -/
def activate (r : Run) (b : Backup) (h : Host) : Host × Bool :=
  if r.sshdTest = false ∨ verifyEffectiveSshd r = false then ((restore r b h).1, false)
  else
    match r.reload with
    | .fails loaded => (recover r b (h.reload (.fails loaded)), false)
    | .works =>
      let h := h.reload .works
      if r.restart = false then (recover r b h, false)
      else (h, r.reportWorks)

/-- From `sed` on. -/
def install (r : Run) (b : Backup) (h : Host) : Host × Bool :=
  match r.sed with
  | .fails left => ({ h with ssh := some left }, false)
  | .works =>
    let file := written h.sshDropIn r.newFileMode (rendered r)
    if r.chmodWorks = false then ({ h with ssh := some (some file) }, false)
    else
      let h := { h with ssh := some (some { file with mode := 644 }) }
      match r.installJournald with
      | .fails left => ({ h with journald := some left }, false)
      | .works => activate r b { h with journald := some (some ⟨r.limits, 644⟩) }

/-- `configure-host.sh --apply-ssh-and-journald` -/
def apply (r : Run) (h : Host) : Host × Bool :=
  if r.backupWorks = false then (h, false)
  else
    let b := backupOf h r.second
    let h := { h with backups := Function.update h.backups r.second (some b) }
    match r.directories with
    | .fails (ssh, journald) =>
      ({ h with ssh := made h.ssh ssh, journald := made h.journald journald }, false)
    | .works => install r b { h with ssh := made h.ssh true, journald := made h.journald true }

end ConfigureHost
