import Mathlib
import WebsiteInfrastructure.ConfigureHost.Script

/-!
# What a failed run leaves behind

Only the failures that the script tests for lead to a restoration, and the restoration goes back to
the previous state when the backup is that of this run, the files had the mode that `install` gives
them, and none of its own commands fails.
-/

namespace ConfigureHost

/-- Nothing that the administrator depends on has changed. -/
structure Unchanged (before after : Host) : Prop where
  main : after.main = before.main
  ssh : after.sshDropIn = before.sshDropIn
  journald : after.journaldDropIn = before.journaldDropIn
  running : after.running = before.running

/-! ## Where a run fails -/

inductive Failure
  | backup
  | directories
  | sed (left : DropIn)
  | chmod
  | journald (left : DropIn)
  | validation
  | reload (loaded : Bool)
  | restart
  | report

def failureFromActivation (r : Run) : Option Failure :=
  if r.sshdTest = false ∨ verifyEffectiveSshd r = false then some .validation
  else
    match r.reload with
    | .fails loaded => some (.reload loaded)
    | .works =>
      if r.restart = false then some .restart
      else if r.reportWorks = false then some .report
      else none

def failureFromSed (r : Run) : Option Failure :=
  match r.sed with
  | .fails left => some (.sed left)
  | .works =>
    if r.chmodWorks = false then some .chmod
    else
      match r.installJournald with
      | .fails left => some (.journald left)
      | .works => failureFromActivation r

/-- The first command to fail. -/
def failure (r : Run) : Option Failure :=
  if r.backupWorks = false then some .backup
  else
    match r.directories with
    | .fails _ => some .directories
    | .works => failureFromSed r

/-! ## When the previous state comes back -/

def hardenedDropIn (r : Run) : DropIn := some ⟨rendered r, 644⟩

def limitsDropIn (r : Run) : DropIn := some ⟨r.limits, 644⟩

/-- What `sshd` loads from the new files. -/
def hardened (r : Run) (h : Host) : Configuration := (h.main.content, some (rendered r))

/-- The restoration, as far as it comes, ends with the previous files. -/
def FilesBack (r : Run) (h : Host) : Prop :=
  match r.restoreMain, r.restoreSsh, r.restoreJournald with
  | .fails left, _, _ =>
    left = h.main ∧ hardenedDropIn r = h.sshDropIn ∧ limitsDropIn r = h.journaldDropIn
  | .works, .fails left, _ => left = h.sshDropIn ∧ limitsDropIn r = h.journaldDropIn
  | .works, .works, .fails left =>
    reinstalled (backupOf h r.second).ssh = h.sshDropIn ∧ left = h.journaldDropIn
  | .works, .works, .works =>
    reinstalled (backupOf h r.second).ssh = h.sshDropIn ∧
      reinstalled (backupOf h r.second).journald = h.journaldDropIn

/-- Every command of the restoration works. -/
def restores (r : Run) : Bool :=
  match r.restoreMain, r.restoreSsh, r.restoreJournald with
  | .works, .works, .works => true
  | _, _, _ => false

def loads : Reload → Bool
  | .works => true
  | .fails loaded => loaded

/-- The daemon ends with the configuration that it ran with before. -/
def DaemonBack (r : Run) (h : Host) (loaded : Bool) : Prop :=
  if restores r && r.recoveryTest && loads r.recoveryReload then h.configuration = h.running
  else if loaded then hardened r h = h.running
  else True

/-- The condition on the host before the run, by the command that fails. -/
def Meets (r : Run) (h : Host) : Option Failure → Prop
  | none => True
  | some .backup => True
  | some .directories => True
  | some (.sed left) => left = h.sshDropIn
  | some .chmod => some (written h.sshDropIn r.newFileMode (rendered r)) = h.sshDropIn
  | some (.journald left) => hardenedDropIn r = h.sshDropIn ∧ left = h.journaldDropIn
  | some .validation => FilesBack r h
  | some (.reload loaded) => FilesBack r h ∧ DaemonBack r h loaded
  | some .restart => FilesBack r h ∧ DaemonBack r h true
  | some .report =>
    hardenedDropIn r = h.sshDropIn ∧ limitsDropIn r = h.journaldDropIn ∧
      hardened r h = h.running

/-! ## Recovery -/

/-- The host when both drop-ins have been written, and `running` is loaded. -/
structure Written (r : Run) (h w : Host) : Prop where
  main : w.main = h.main
  ssh : w.ssh = some (hardenedDropIn r)
  journald : w.journald = some (limitsDropIn r)

theorem Written.configuration {r : Run} {h w : Host} (hw : Written r h w) :
    w.configuration = hardened r h := by
  simp [Host.configuration, Host.sshDropIn, hw.main, hw.ssh, hardenedDropIn, hardened]

theorem restore_flag (r : Run) (b : Backup) (w : Host) : (restore r b w).2 = restores r := by
  unfold restore restores
  cases r.restoreMain <;> cases r.restoreSsh <;> cases r.restoreJournald <;> rfl

theorem restore_running (r : Run) (b : Backup) (w : Host) :
    (restore r b w).1.running = w.running := by
  unfold restore
  cases r.restoreMain <;> cases r.restoreSsh <;> cases r.restoreJournald <;> rfl

/-- What the restoration does to the files. -/
theorem restore_files_iff {r : Run} {h w : Host} (hw : Written r h w) :
    let after := (restore r (backupOf h r.second) w).1
    (after.main = h.main ∧ after.sshDropIn = h.sshDropIn ∧
      after.journaldDropIn = h.journaldDropIn) ↔ FilesBack r h := by
  have hmain : (backupOf h r.second).main = h.main := rfl
  unfold restore FilesBack
  cases r.restoreMain with
  | fails left =>
    simp [Host.sshDropIn, Host.journaldDropIn, hw.ssh, hw.journald]
  | works =>
    cases r.restoreSsh with
    | fails left => simp [Host.sshDropIn, Host.journaldDropIn, hw.journald, hmain]
    | works =>
      cases r.restoreJournald with
      | fails left => simp [Host.sshDropIn, Host.journaldDropIn, hmain]
      | works => simp [Host.sshDropIn, Host.journaldDropIn, hmain]

theorem reload_files (w : Host) (reload : Reload) :
    (w.reload reload).main = w.main ∧ (w.reload reload).sshDropIn = w.sshDropIn ∧
      (w.reload reload).journaldDropIn = w.journaldDropIn := by
  cases reload with
  | works => exact ⟨rfl, rfl, rfl⟩
  | fails loaded => cases loaded <;> exact ⟨rfl, rfl, rfl⟩

theorem reload_running (w : Host) (reload : Reload) :
    (w.reload reload).running = if loads reload then w.configuration else w.running := by
  cases reload with
  | works => rfl
  | fails loaded => cases loaded <;> rfl

/-- The files of a recovery are those of the restoration; the daemon loads them if it comes to
that. -/
theorem recover_spec (r : Run) (b : Backup) (w : Host) :
    let after := (restore r b w).1
    let final := recover r b w
    final.main = after.main ∧ final.sshDropIn = after.sshDropIn ∧
      final.journaldDropIn = after.journaldDropIn ∧
      final.running = if restores r && r.recoveryTest && loads r.recoveryReload then
        after.configuration else w.running := by
  have hflag := restore_flag r b w
  have hstays := restore_running r b w
  unfold recover
  generalize restore r b w = restored at hflag hstays
  obtain ⟨after, flag⟩ := restored
  simp only at hflag hstays ⊢
  subst hflag
  cases hrestores : restores r with
  | false => exact ⟨rfl, rfl, rfl, hstays⟩
  | true =>
    cases htest : r.recoveryTest with
    | false => exact ⟨rfl, rfl, rfl, hstays⟩
    | true =>
      obtain ⟨hmain, hssh, hjournald⟩ := reload_files after r.recoveryReload
      refine ⟨hmain, hssh, hjournald, ?_⟩
      rw [← hstays]
      exact reload_running after r.recoveryReload

/-- The two branches that reload end as they should exactly when files and daemon come back. -/
theorem recover_iff {r : Run} {h w : Host} (hw : Written r h w) {loaded : Bool}
    (hrunning : w.running = if loaded then hardened r h else h.running) :
    Unchanged h (recover r (backupOf h r.second) w) ↔ FilesBack r h ∧ DaemonBack r h loaded := by
  obtain ⟨hmain, hssh, hjournald, hfinal⟩ := recover_spec r (backupOf h r.second) w
  have hfiles := restore_files_iff hw
  simp only at hfiles
  generalize recover r (backupOf h r.second) w = final at hmain hssh hjournald hfinal ⊢
  generalize (restore r (backupOf h r.second) w).1 = after at hmain hssh hjournald hfinal hfiles
  rw [← hmain, ← hssh, ← hjournald] at hfiles
  have hconfiguration : FilesBack r h → after.configuration = h.configuration := by
    intro hback
    obtain ⟨h1, h2, -⟩ := hfiles.mpr hback
    rw [hmain] at h1
    rw [hssh] at h2
    rw [Host.configuration, Host.configuration, h1, h2]
  have hdaemon : FilesBack r h → (final.running = h.running ↔ DaemonBack r h loaded) := by
    intro hback
    rw [hfinal, DaemonBack]
    split_ifs with hreloads hloaded
    · rw [hconfiguration hback]
    · rw [hrunning, if_pos hloaded]
    · rw [hrunning, if_neg hloaded]
      simp
  constructor
  · intro hunchanged
    have hback := hfiles.mp ⟨hunchanged.main, hunchanged.ssh, hunchanged.journald⟩
    exact ⟨hback, (hdaemon hback).mp hunchanged.running⟩
  · rintro ⟨hback, hrun⟩
    obtain ⟨h1, h2, h3⟩ := hfiles.mpr hback
    exact ⟨h1, h2, h3, (hdaemon hback).mpr hrun⟩

/-- The branch before any reload leaves the daemon alone. -/
theorem validation_iff {r : Run} {h w : Host} (hw : Written r h w)
    (hrunning : w.running = h.running) :
    Unchanged h (restore r (backupOf h r.second) w).1 ↔ FilesBack r h := by
  have hfiles := restore_files_iff hw
  simp only at hfiles
  rw [← hfiles]
  constructor
  · intro hunchanged
    exact ⟨hunchanged.main, hunchanged.ssh, hunchanged.journald⟩
  · rintro ⟨hmain, hssh, hjournald⟩
    exact ⟨hmain, hssh, hjournald, (restore_running _ _ _).trans hrunning⟩

/-! ## A whole run -/

theorem activate_iff {r : Run} {h w : Host} (hw : Written r h w) (hrunning : w.running = h.running)
    (hfailed : (activate r (backupOf h r.second) w).2 = false) :
    Unchanged h (activate r (backupOf h r.second) w).1 ↔ Meets r h (failureFromActivation r) := by
  have hreloaded : ∀ reload, Written r h (w.reload reload) := by
    intro reload
    cases reload with
    | works => exact ⟨hw.main, hw.ssh, hw.journald⟩
    | fails loaded => cases loaded <;> exact ⟨hw.main, hw.ssh, hw.journald⟩
  unfold activate at hfailed ⊢
  unfold failureFromActivation
  by_cases hvalid : r.sshdTest = false ∨ verifyEffectiveSshd r = false
  · rw [if_pos hvalid, if_pos hvalid]
    exact validation_iff hw hrunning
  · rw [if_neg hvalid] at hfailed ⊢
    rw [if_neg hvalid]
    cases hreload : r.reload with
    | fails loaded =>
      apply recover_iff (hreloaded _)
      rw [reload_running, hw.configuration, hrunning]
      rfl
    | works =>
      simp only [hreload] at hfailed ⊢
      by_cases hrestart : r.restart = false
      · rw [if_pos hrestart, if_pos hrestart]
        apply recover_iff (hreloaded _)
        rw [reload_running, hw.configuration]
        rfl
      · rw [if_neg hrestart] at hfailed
        have hreport : r.reportWorks = false := hfailed
        rw [if_neg hrestart, if_neg hrestart, if_pos hreport]
        have hssh : (w.reload .works).sshDropIn = hardenedDropIn r := by
          simp [Host.sshDropIn, Host.reload, hw.ssh]
        have hjournald : (w.reload .works).journaldDropIn = limitsDropIn r := by
          simp [Host.journaldDropIn, Host.reload, hw.journald]
        have hrun : (w.reload .works).running = hardened r h := hw.configuration
        constructor
        · intro hunchanged
          exact ⟨hssh.symm.trans hunchanged.ssh, hjournald.symm.trans hunchanged.journald,
            hrun.symm.trans hunchanged.running⟩
        · rintro ⟨h1, h2, h3⟩
          exact ⟨hw.main, hssh.trans h1, hjournald.trans h2, hrun.trans h3⟩

/-- From `sed` on, on a host that is still as it was. -/
theorem install_iff {r : Run} {h w : Host} (hw : Unchanged h w)
    (hfailed : (install r (backupOf h r.second) w).2 = false) :
    Unchanged h (install r (backupOf h r.second) w).1 ↔ Meets r h (failureFromSed r) := by
  unfold install at hfailed ⊢
  unfold failureFromSed
  cases hsed : r.sed with
  | fails left =>
    constructor
    · exact Unchanged.ssh
    · intro hleft
      exact ⟨hw.main, hleft, hw.journald, hw.running⟩
  | works =>
    simp only [hsed] at hfailed ⊢
    by_cases hchmod : r.chmodWorks = false
    · rw [if_pos hchmod, if_pos hchmod, hw.ssh]
      constructor
      · exact Unchanged.ssh
      · intro hsame
        exact ⟨hw.main, hsame, hw.journald, hw.running⟩
    · rw [if_neg hchmod] at hfailed ⊢
      rw [if_neg hchmod]
      cases hjournald : r.installJournald with
      | fails left =>
        constructor
        · exact fun hunchanged => ⟨hunchanged.ssh, hunchanged.journald⟩
        · rintro ⟨hssh, hleft⟩
          exact ⟨hw.main, hssh, hleft, hw.running⟩
      | works =>
        simp only [hjournald] at hfailed ⊢
        exact activate_iff ⟨hw.main, rfl, rfl⟩ hw.running hfailed

/-- After a run with a non-zero exit status everything is as before exactly when the failing
command meets its condition. -/
theorem failed_apply_restores_iff (r : Run) (h : Host) (hfailed : (apply r h).2 = false) :
    Unchanged h (apply r h).1 ↔ Meets r h (failure r) := by
  have hmade : ∀ (directory : Option DropIn) works, (made directory works).join = directory.join := by
    intro directory works
    cases works <;> simp [made]
  have hsame : ∀ (backups : ℕ → Option Backup) ssh journald, Unchanged h
      { h with
        backups := backups
        ssh := made h.ssh ssh
        journald := made h.journald journald } := by
    intro backups ssh journald
    exact ⟨rfl, hmade _ _, hmade _ _, rfl⟩
  unfold apply at hfailed ⊢
  unfold failure
  by_cases hbackup : r.backupWorks = false
  · rw [if_pos hbackup, if_pos hbackup]
    exact ⟨fun _ => trivial, fun _ => ⟨rfl, rfl, rfl, rfl⟩⟩
  · rw [if_neg hbackup] at hfailed ⊢
    rw [if_neg hbackup]
    cases hdirectories : r.directories with
    | fails there => exact ⟨fun _ => trivial, fun _ => hsame _ _ _⟩
    | works =>
      simp only [hdirectories] at hfailed ⊢
      exact install_iff (hsame _ true true) hfailed

/-- A drop-in comes back from the backup when this second has no earlier backup of its directory
and the file had the mode that `install` gives it. -/
theorem reinstalled_eq_iff {h : Host} {second : ℕ}
    (hfresh : (h.backups second).bind Backup.ssh = none) :
    reinstalled (backupOf h second).ssh = h.sshDropIn ↔ ∀ file ∈ h.sshDropIn, file.mode = 644 := by
  have hbackup : (backupOf h second).ssh = h.ssh := by
    simp [backupOf, hfresh]
  rw [hbackup, reinstalled, Host.sshDropIn]
  cases h.ssh.join with
  | none => simp
  | some file =>
    obtain ⟨content, mode⟩ := file
    simp [eq_comm]

/-! ## A host that keeps the new SSH configuration -/

section Sample

/-- A host without drop-ins. -/
def plainHost : Host where
  main := ⟨[], 644⟩
  ssh := none
  journald := none
  running := ([], none)
  backups := fun _ => none

/-- The journald drop-in cannot be installed. -/
def installFails : Run where
  adminUser := ['p', 'i']
  template := []
  limits := []
  second := 0
  backupWorks := true
  directories := .works
  newFileMode := 644
  sed := .works
  chmodWorks := true
  installJournald := .fails none
  sshdTest := true
  effective := none
  reload := .works
  restart := true
  reportWorks := true
  restoreMain := .works
  restoreSsh := .works
  restoreJournald := .works
  recoveryTest := true
  recoveryReload := .works

/-- The script ends without a restoration. -/
theorem dropIn_stays :
    ¬ ∀ (r : Run) (h : Host), (apply r h).2 = false → Unchanged h (apply r h).1 := by
  intro h
  have hssh := (h installFails plainHost rfl).ssh
  revert hssh
  decide

theorem failed_apply_restores_sample :
    Unchanged plainHost (apply installFails plainHost).1 ↔
      Meets installFails plainHost (failure installFails) :=
  failed_apply_restores_iff installFails plainHost rfl

end Sample

end ConfigureHost
