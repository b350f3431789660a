import Mathlib
import WebsiteInfrastructure.RecoveryTools.Install

/-!
# What the rollback restores

The message of the rollback says that the managed files were restored. It is true if and only if
the backup directory is new to every absent target and no command fails that has something to undo.
-/

namespace RecoveryTools

variable {File : Type} {stamp : String} {payload : Target → File} {faults : Faults File}
  {s : Host File}

/-! ## The forward phase -/

/-- The directories that were there stay as they were, and so do the copies. -/
structure Kept (before after : Host File) : Prop where
  directory : ∀ d mode, before.directory d = some mode → after.directory d = some mode
  backup : after.backup = before.backup

/-- A step that creates a directory only where it is absent. -/
def Step.Creates (before : Host File) : Step → Prop
  | .makeConfig => before.directory .config = none
  | .makeSnapshot => before.directory .snapshot = none
  | _ => True

theorem forwardSteps_creates {step : Step} (h : step ∈ forwardSteps s) : step.Creates s := by
  cases step with
  | check => trivial
  | install t => trivial
  | enableNow => trivial
  | makeConfig =>
    show s.directory .config = none
    by_contra hpresent
    simp [forwardSteps, hpresent] at h
  | makeSnapshot =>
    show s.directory .snapshot = none
    by_contra hpresent
    simp [forwardSteps, hpresent] at h
    split at h <;> simp at h

theorem Kept.setDirectory {before after : Host File} (h : Kept before after) {d : Directory}
    {mode : Option ℕ} (habsent : ∀ m, before.directory d = some m → mode = some m) :
    Kept before (after.setDirectory d mode) := by
  refine ⟨fun e m hbefore => ?_, h.backup⟩
  by_cases he : e = d
  · subst he
    simpa [Host.setDirectory] using habsent m hbefore
  · simpa [Host.setDirectory, he] using h.directory e m hbefore

theorem Kept.makeSnapshot {before after : Host File} (h : Kept before after)
    (habsent : before.directory .snapshot = none) (parent mode : Option ℕ) :
    Kept before ((after.setDirectory .snapshotParent
      ((after.directory .snapshotParent).or parent)).setDirectory .snapshot mode) := by
  apply Kept.setDirectory
  · apply h.setDirectory
    intro m hm
    rw [h.directory _ _ hm]
    rfl
  · simp [habsent]

theorem Kept.effect {before after : Host File} (h : Kept before after) {step : Step}
    (hcreates : step.Creates before) : Kept before (step.effect payload faults after) := by
  cases step with
  | check => exact h
  | install t => exact ⟨h.directory, h.backup⟩
  | enableNow => exact ⟨h.directory, h.backup⟩
  | makeConfig =>
    have habsent : before.directory .config = none := hcreates
    apply h.setDirectory
    simp [habsent]
  | makeSnapshot => exact h.makeSnapshot hcreates _ _

theorem Kept.failure {before after : Host File} (h : Kept before after) {step : Step}
    (hcreates : step.Creates before) (residue : Residue File) :
    Kept before (step.failure faults residue after) := by
  cases step with
  | check => exact h
  | install t => exact ⟨h.directory, h.backup⟩
  | enableNow => exact ⟨h.directory, h.backup⟩
  | makeConfig =>
    have habsent : before.directory .config = none := hcreates
    apply h.setDirectory
    simp [habsent]
  | makeSnapshot => exact h.makeSnapshot hcreates _ _

theorem forward_kept {before after : Host File} (h : Kept before after) {steps : List Step}
    (hsteps : ∀ step ∈ steps, step.Creates before) (fault : Option (ℕ × Residue File)) :
    Kept before (forward payload faults steps fault after).2 := by
  induction steps generalizing after fault with
  | nil => exact h
  | cons step steps ih =>
    have hstep := hsteps step (by simp)
    have hrest : ∀ next ∈ steps, next.Creates before := fun next hnext => hsteps next (by simp [hnext])
    match fault with
    | none => exact ih (h.effect hstep) hrest none
    | some (0, residue) => exact h.failure hstep residue
    | some (n + 1, residue) => exact ih (h.effect hstep) hrest (some (n, residue))

theorem applied_kept (s : Host File) :
    Kept (capture stamp s) (applied stamp payload faults s).2 :=
  forward_kept ⟨fun _ _ h => h, rfl⟩ (fun _ hstep => forwardSteps_creates hstep) _

/-! ## The loop over the targets -/

section Loop

variable {t : Target} {ts : List Target}

/-- The file of a target after its turn. -/
def restoredFile (stamp : String) (faults : Faults File) (s : Host File) (t : Target) : Option File :=
  match s.backup stamp t with
  | none => if faults.remove t then s.file t else none
  | some copy => (faults.restore t).getD (some copy)

@[simp] theorem restoreTarget_backup : (restoreTarget stamp faults s t).backup = s.backup := by
  unfold restoreTarget makeDirectory
  dsimp only
  split <;> split_ifs <;> rfl

@[simp] theorem restoreTarget_occupied : (restoreTarget stamp faults s t).occupied = s.occupied := by
  unfold restoreTarget makeDirectory
  dsimp only
  split <;> split_ifs <;> rfl

@[simp] theorem restoreTarget_timerEnabled :
    (restoreTarget stamp faults s t).timerEnabled = s.timerEnabled := by
  unfold restoreTarget makeDirectory
  dsimp only
  split <;> split_ifs <;> rfl

@[simp] theorem restoreTarget_timerActive :
    (restoreTarget stamp faults s t).timerActive = s.timerActive := by
  unfold restoreTarget makeDirectory
  dsimp only
  split <;> split_ifs <;> rfl

theorem restoreTarget_file : (restoreTarget stamp faults s t).file =
    Function.update s.file t (restoredFile stamp faults s t) := by
  unfold restoreTarget restoredFile makeDirectory Host.setFile Host.setDirectory
  dsimp only
  cases s.backup stamp t with
  | none => split_ifs <;> simp
  | some copy => split_ifs <;> simp

/-- A copy goes back into the configuration directory, whose mode is set. -/
def SetsMode (stamp : String) (faults : Faults File) (s : Host File) (t : Target) : Prop :=
  t.inConfig = true ∧ s.backup stamp t ≠ none ∧ faults.makeDirectory t = false

instance (t : Target) : Decidable (SetsMode stamp faults s t) :=
  inferInstanceAs (Decidable (_ ∧ ¬ _ = none ∧ _))

theorem restoreTarget_of_none (h : s.backup stamp t = none) : restoreTarget stamp faults s t =
    if faults.remove t then s else s.setFile t none := by
  simp [restoreTarget, h]

theorem restoreTarget_of_some {copy : File} (h : s.backup stamp t = some copy) :
    restoreTarget stamp faults s t =
      (makeDirectory faults t (if faults.remove t then s else s.setFile t none)).setFile t
        ((faults.restore t).getD (some copy)) := by
  simp [restoreTarget, h]

theorem restoreTarget_directory (d : Directory) : (restoreTarget stamp faults s t).directory d =
    if d = .config ∧ SetsMode stamp faults s t then some 0o755 else s.directory d := by
  have hremoved : (if faults.remove t then s else s.setFile t none).directory = s.directory := by
    split <;> rfl
  cases hcopy : s.backup stamp t with
  | none =>
    rw [restoreTarget_of_none hcopy, hremoved]
    simp [SetsMode, hcopy]
  | some copy =>
    rw [restoreTarget_of_some hcopy]
    simp only [Host.setFile, makeDirectory, SetsMode, hcopy, Bool.and_eq_true, Bool.not_eq_true']
    cases d <;> split_ifs <;> simp_all [Host.setDirectory]

theorem foldl_restoreTarget_backup (stamp : String) (faults : Faults File)
    (ts : List Target) (s : Host File) :
    (ts.foldl (restoreTarget stamp faults) s).backup = s.backup := by
  induction ts generalizing s with
  | nil => rfl
  | cons t ts ih => rw [List.foldl_cons, ih, restoreTarget_backup]

theorem foldl_restoreTarget_occupied (stamp : String) (faults : Faults File)
    (ts : List Target) (s : Host File) :
    (ts.foldl (restoreTarget stamp faults) s).occupied = s.occupied := by
  induction ts generalizing s with
  | nil => rfl
  | cons t ts ih => rw [List.foldl_cons, ih, restoreTarget_occupied]

theorem foldl_restoreTarget_timer (stamp : String) (faults : Faults File)
    (ts : List Target) (s : Host File) :
    (ts.foldl (restoreTarget stamp faults) s).timerEnabled = s.timerEnabled ∧
      (ts.foldl (restoreTarget stamp faults) s).timerActive = s.timerActive := by
  induction ts generalizing s with
  | nil => exact ⟨rfl, rfl⟩
  | cons t ts ih =>
    rw [List.foldl_cons]
    simpa using ih (restoreTarget stamp faults s t)

theorem restoredFile_restoreTarget {u : Target} (h : u ≠ t) :
    restoredFile stamp faults (restoreTarget stamp faults s t) u = restoredFile stamp faults s u := by
  simp [restoredFile, restoreTarget_file, h]

theorem foldl_restoreTarget_file (stamp : String) (faults : Faults File) (hnodup : ts.Nodup)
    (s : Host File) (u : Target) :
    (ts.foldl (restoreTarget stamp faults) s).file u =
      if u ∈ ts then restoredFile stamp faults s u else s.file u := by
  induction ts generalizing s with
  | nil => rfl
  | cons t ts ih =>
    obtain ⟨ht, hts⟩ := List.nodup_cons.mp hnodup
    rw [List.foldl_cons, ih hts]
    by_cases hu : u = t
    · subst hu
      simp [ht, restoreTarget_file]
    · simp [hu, restoredFile_restoreTarget hu, restoreTarget_file]

theorem foldl_restoreTarget_directory (stamp : String) (faults : Faults File)
    (ts : List Target) (s : Host File) (d : Directory) :
    (ts.foldl (restoreTarget stamp faults) s).directory d =
      if d = .config ∧ ∃ t ∈ ts, SetsMode stamp faults s t then some 0o755 else s.directory d := by
  induction ts generalizing s with
  | nil => simp
  | cons t ts ih =>
    have hsame (u : Target) : SetsMode stamp faults (restoreTarget stamp faults s t) u ↔
        SetsMode stamp faults s u := by
      simp [SetsMode]
    rw [List.foldl_cons, ih, restoreTarget_directory]
    simp only [hsame, List.mem_cons, exists_eq_or_imp]
    by_cases hd : d = .config
    · by_cases ht : SetsMode stamp faults s t <;> simp [hd, ht]
    · simp [hd]

end Loop

/-! ## The whole rollback -/

section Rollback

variable {current : Host File} {d e : Directory} {preexisting : Bool}

theorem removeDirectory_directory : (removeDirectory preexisting faults d s).directory e =
    if e = d ∧ preexisting = false ∧ faults.rmdir d = false ∧ s.isEmpty d = true then none
    else s.directory e := by
  unfold removeDirectory Host.setDirectory
  cases preexisting <;> cases faults.rmdir d <;> cases s.isEmpty d <;> by_cases he : e = d <;> simp [he]

@[simp] theorem removeDirectory_file : (removeDirectory preexisting faults d s).file = s.file := by
  unfold removeDirectory
  split <;> rfl

@[simp] theorem removeDirectory_backup : (removeDirectory preexisting faults d s).backup = s.backup := by
  unfold removeDirectory
  split <;> rfl

@[simp] theorem removeDirectory_occupied :
    (removeDirectory preexisting faults d s).occupied = s.occupied := by
  unfold removeDirectory
  split <;> rfl

@[simp] theorem removeDirectory_timerEnabled :
    (removeDirectory preexisting faults d s).timerEnabled = s.timerEnabled := by
  unfold removeDirectory
  split <;> rfl

@[simp] theorem removeDirectory_timerActive :
    (removeDirectory preexisting faults d s).timerActive = s.timerActive := by
  unfold removeDirectory
  split <;> rfl

section Disabled

variable (faults s) (t : Target)

@[simp] theorem disableTimer_file : (disableTimer faults s).file = s.file := rfl
@[simp] theorem disableTimer_directory : (disableTimer faults s).directory = s.directory := rfl
@[simp] theorem disableTimer_occupied : (disableTimer faults s).occupied = s.occupied := rfl
@[simp] theorem disableTimer_backup : (disableTimer faults s).backup = s.backup := rfl

@[simp] theorem disableTimer_timer : (disableTimer faults s).timerEnabled =
    (faults.disable.getD (false, false)).1 ∧ (disableTimer faults s).timerActive =
    (faults.disable.getD (false, false)).2 := ⟨rfl, rfl⟩

@[simp] theorem restoredFile_disableTimer :
    restoredFile stamp faults (disableTimer faults s) t = restoredFile stamp faults s t := rfl

@[simp] theorem setsMode_disableTimer :
    SetsMode stamp faults (disableTimer faults s) t ↔ SetsMode stamp faults s t := Iff.rfl

end Disabled

variable (stamp faults s current)

theorem mem_targets (t : Target) : t ∈ targets := by
  cases t <;> decide

theorem rollback_file (t : Target) :
    (rollback stamp faults s current).1.file t = restoredFile stamp faults current t := by
  have hloop := foldl_restoreTarget_file stamp faults (show targets.Nodup by decide)
    (disableTimer faults current) t
  simpa [rollback, restoreTimer, mem_targets] using hloop

theorem rollback_backup : (rollback stamp faults s current).1.backup = current.backup := by
  have hloop := foldl_restoreTarget_backup stamp faults targets (disableTimer faults current)
  simpa [rollback, restoreTimer] using hloop

theorem rollback_timerEnabled : (rollback stamp faults s current).1.timerEnabled =
    if s.timerEnabled then faults.enable.getD true else (faults.disable.getD (false, false)).1 := by
  have hloop := foldl_restoreTarget_timer stamp faults targets (disableTimer faults current)
  simp [rollback, restoreTimer, hloop.1]

theorem rollback_timerActive : (rollback stamp faults s current).1.timerActive =
    if s.timerActive then faults.start.getD true else (faults.disable.getD (false, false)).2 := by
  have hloop := foldl_restoreTarget_timer stamp faults targets (disableTimer faults current)
  simp [rollback, restoreTimer, hloop.2]

/-- A directory with nothing in it after the loop is removed if it was not there before. -/
theorem rollback_snapshot : (rollback stamp faults s current).1.directory .snapshot =
    if s.directory .snapshot = none ∧ faults.rmdir .snapshot = false ∧
      current.occupied .snapshot = false then none else current.directory .snapshot := by
  have hloop := foldl_restoreTarget_directory stamp faults targets (disableTimer faults current) .snapshot
  have hoccupied := foldl_restoreTarget_occupied stamp faults targets (disableTimer faults current)
  simp [rollback, restoreTimer, removeDirectory_directory, hloop, Host.isEmpty, hoccupied]

theorem rollback_snapshotParent : (rollback stamp faults s current).1.directory .snapshotParent =
    if s.directory .snapshotParent = none ∧ faults.rmdir .snapshotParent = false ∧
      current.occupied .snapshotParent = false ∧
      (rollback stamp faults s current).1.directory .snapshot = none then none
    else current.directory .snapshotParent := by
  have hloop := foldl_restoreTarget_directory stamp faults targets (disableTimer faults current)
  have hoccupied := foldl_restoreTarget_occupied stamp faults targets (disableTimer faults current)
  simp [rollback, restoreTimer, removeDirectory_directory, hloop, Host.isEmpty, hoccupied]

/-- The mode of the configuration directory before it is removed. -/
def restoredMode (stamp : String) (faults : Faults File) (current : Host File) : Option ℕ :=
  if ∃ t ∈ targets, SetsMode stamp faults current t then some 0o755 else current.directory .config

theorem rollback_config : (rollback stamp faults s current).1.directory .config =
    if s.directory .config = none ∧ faults.rmdir .config = false ∧
      current.occupied .config = false ∧ restoredFile stamp faults current .versions = none ∧
      restoredFile stamp faults current .decisions = none then none
    else restoredMode stamp faults current := by
  have hmode : (targets.foldl (restoreTarget stamp faults) (disableTimer faults current)).directory
      .config = restoredMode stamp faults current := by
    rw [foldl_restoreTarget_directory]
    simp [restoredMode]
  have hoccupied := foldl_restoreTarget_occupied stamp faults targets (disableTimer faults current)
  have hfile := foldl_restoreTarget_file stamp faults (show targets.Nodup by decide)
    (disableTimer faults current)
  simp [rollback, restoreTimer, removeDirectory_directory, hmode, Host.isEmpty, hoccupied, hfile,
    mem_targets]

end Rollback

/-! ## The message -/

/-- Every target, directory and flag of the timer is as it was. -/
structure Restored (before after : Host File) : Prop where
  file : after.file = before.file
  directory : after.directory = before.directory
  timerEnabled : after.timerEnabled = before.timerEnabled
  timerActive : after.timerActive = before.timerActive

/-- The message is printed only where everything is as it was, and every copy that the rollback
reads was taken by this run. -/
def AllOrNothing (stamp : String) (payload : Target → File) (faults : Faults File) (s : Host File) :
    Prop :=
  (install stamp payload faults s).2 ≠ none → Restored s (install stamp payload faults s).1 ∧
    ∀ t, (install stamp payload faults s).1.backup stamp t ≠ none → s.file t ≠ none

/-- The backup directory has no copy of an absent target, and nothing that is to be undone fails.
A failing command may happen to leave what was there before. -/
structure Undone (stamp : String) (faults : Faults File) (s current : Host File) : Prop where
  fresh : ∀ t, s.file t = none → s.backup stamp t = none
  removed : ∀ t, s.file t = none → faults.remove t = false ∨ current.file t = none
  copied : ∀ t content, s.file t = some content →
    faults.restore t = none ∨ faults.restore t = some (some content)
  mode : ∀ m, s.directory .config = some m →
    m = 0o755 ∨ ∀ t, t.inConfig = true → s.file t ≠ none → faults.makeDirectory t = true
  emptied : ∀ d, s.directory d = none →
    current.directory d = none ∨ faults.rmdir d = false ∧ current.occupied d = false
  timerEnabled : if s.timerEnabled then faults.enable ≠ some false
    else ∀ timer, faults.disable = some timer → timer.1 = false
  timerActive : if s.timerActive then faults.start ≠ some false
    else ∀ timer, faults.disable = some timer → timer.2 = false

section Message

variable {current : Host File}

theorem backup_of_kept (h : Kept (capture stamp s) current) (t : Target) :
    current.backup stamp t = (s.file t).or (s.backup stamp t) := by
  rw [h.backup]
  simp [capture]

theorem restoredFile_of_kept (h : Kept (capture stamp s) current) {t : Target}
    (hfresh : s.file t = none → s.backup stamp t = none) : restoredFile stamp faults current t =
      match s.file t with
      | none => if faults.remove t then current.file t else none
      | some content => (faults.restore t).getD (some content) := by
  rw [restoredFile, backup_of_kept h]
  cases hfile : s.file t with
  | none => simp [hfresh hfile]
  | some content => simp

theorem flag_iff {old enabled : Bool} {enable : Option Bool} {disable : Option (Bool × Bool)}
    {flag : Bool × Bool → Bool} (hflag : flag (false, false) = false)
    (h : enabled = if old then enable.getD true else flag (disable.getD (false, false))) :
    enabled = old ↔ if old then enable ≠ some false
      else ∀ timer, disable = some timer → flag timer = false := by
  subst h
  cases old with
  | true =>
    cases enable with
    | none => simp
    | some value => cases value <;> simp
  | false =>
    cases disable with
    | none => simp [hflag]
    | some timer => simp

theorem fresh_iff (h : Kept (capture stamp s) current) :
    (∀ t, (rollback stamp faults s current).1.backup stamp t ≠ none → s.file t ≠ none) ↔
      ∀ t, s.file t = none → s.backup stamp t = none := by
  apply forall_congr'
  intro t
  rw [rollback_backup, backup_of_kept h]
  cases s.file t with
  | none => simp
  | some content => simp

theorem file_iff (h : Kept (capture stamp s) current)
    (hfresh : ∀ t, s.file t = none → s.backup stamp t = none) :
    (rollback stamp faults s current).1.file = s.file ↔
      (∀ t, s.file t = none → faults.remove t = false ∨ current.file t = none) ∧
      ∀ t content, s.file t = some content →
        faults.restore t = none ∨ faults.restore t = some (some content) := by
  rw [funext_iff, ← forall_and]
  apply forall_congr'
  intro t
  rw [rollback_file, restoredFile_of_kept h (hfresh t)]
  cases s.file t with
  | none => cases faults.remove t <;> simp
  | some content => cases faults.restore t <;> simp

/-- A directory that is removed only where it was absent. -/
theorem directory_iff {before after now : Option ℕ} {removable : Prop} [Decidable removable]
    (hkept : ∀ m, before = some m → now = some m)
    (h : after = if before = none ∧ removable then none else now) :
    after = before ↔ (before = none → now = none ∨ removable) := by
  subst h
  cases hbefore : before with
  | none =>
    by_cases hremovable : removable
    · simp [hremovable]
    · simp [hremovable]
  | some m => simp [hkept m hbefore]

variable {pre : Prestate File}

theorem config_iff (h : Kept (capture stamp pre.toHost) current)
    (hfresh : ∀ t, pre.file t = none → pre.backup stamp t = none)
    (hfile : (rollback stamp faults pre.toHost current).1.file = pre.file) :
    (rollback stamp faults pre.toHost current).1.directory .config = pre.directory .config ↔
      (∀ m, pre.directory .config = some m →
        m = 0o755 ∨ ∀ t, t.inConfig = true → pre.file t ≠ none → faults.makeDirectory t = true) ∧
      (pre.directory .config = none → current.directory .config = none ∨
        faults.rmdir .config = false ∧ current.occupied .config = false) := by
  have hcopy (t : Target) : current.backup stamp t ≠ none ↔ pre.file t ≠ none := by
    rw [backup_of_kept h]
    cases hpre : pre.file t with
    | none => simp [hfresh t hpre]
    | some content => simp
  have hsets : (∃ t ∈ targets, SetsMode stamp faults current t) ↔
      ∃ t, t.inConfig = true ∧ pre.file t ≠ none ∧ faults.makeDirectory t = false := by
    simp only [SetsMode, hcopy, mem_targets, true_and]
  have hrestored (t : Target) : restoredFile stamp faults current t = pre.file t := by
    rw [← rollback_file, hfile]
  rw [rollback_config, hrestored, hrestored, restoredMode]
  cases hconfig : pre.directory .config with
  | none =>
    have habsent (t : Target) (ht : t.inConfig = true) : pre.file t = none := by
      by_contra hpresent
      exact pre.config_present t ht hpresent hconfig
    have hno : ¬ ∃ t, t.inConfig = true ∧ pre.file t ≠ none ∧ faults.makeDirectory t = false := by
      rintro ⟨t, ht, hpresent, -⟩
      exact hpresent (habsent t ht)
    rw [if_neg (hno ∘ hsets.mp), habsent .versions rfl, habsent .decisions rfl]
    split_ifs with hremoved
    · simp [hremoved.2.1, hremoved.2.2.1]
    · simp only [true_and, and_true] at hremoved
      simp [hremoved]
  | some m =>
    have hcurrent := h.directory .config m hconfig
    rw [if_neg (by simp), hcurrent]
    by_cases hset : ∃ t ∈ targets, SetsMode stamp faults current t
    · rw [if_pos hset]
      obtain ⟨t, ht, hpresent, hmade⟩ := hsets.mp hset
      simp only [Option.some.injEq, forall_eq', reduceCtorEq, false_implies, and_true]
      constructor
      · exact fun heq => .inl heq.symm
      · rintro (heq | hall)
        · exact heq.symm
        · have hfails := hall t ht hpresent
          rw [hmade] at hfails
          cases hfails
    · rw [if_neg hset]
      simp only [Option.some.injEq, forall_eq', reduceCtorEq, false_implies, and_true, true_iff]
      right
      intro t ht hpresent
      by_contra hmade
      exact hset (hsets.mpr ⟨t, ht, hpresent, by simpa using hmade⟩)

/-- The rollback restores everything, from copies of this run, if and only if nothing that it had
to undo failed. -/
theorem restored_iff_undone (h : Kept (capture stamp pre.toHost) current) :
    (Restored pre.toHost (rollback stamp faults pre.toHost current).1 ∧
      ∀ t, (rollback stamp faults pre.toHost current).1.backup stamp t ≠ none → pre.file t ≠ none) ↔
      Undone stamp faults pre.toHost current := by
  have hsnapshot := directory_iff (h.directory .snapshot)
    (rollback_snapshot stamp faults pre.toHost current)
  have hparent := directory_iff (h.directory .snapshotParent)
    (rollback_snapshotParent stamp faults pre.toHost current)
  have henabled := flag_iff rfl (rollback_timerEnabled stamp faults pre.toHost current)
  have hactive := flag_iff rfl (rollback_timerActive stamp faults pre.toHost current)
  rw [fresh_iff h]
  constructor
  · rintro ⟨hrestored, hfresh⟩
    obtain ⟨hremoved, hcopied⟩ := (file_iff h hfresh).mp hrestored.file
    obtain ⟨hmode, hconfig⟩ := (config_iff h hfresh hrestored.file).mp
      (congrFun hrestored.directory .config)
    refine ⟨hfresh, hremoved, hcopied, hmode, fun d hd => ?_,
      henabled.mp hrestored.timerEnabled, hactive.mp hrestored.timerActive⟩
    cases d with
    | snapshot => exact hsnapshot.mp (congrFun hrestored.directory .snapshot) hd
    | snapshotParent =>
      exact (hparent.mp (congrFun hrestored.directory .snapshotParent) hd).imp_right fun hgone =>
        ⟨hgone.1, hgone.2.1⟩
    | config => exact hconfig hd
  · intro hundone
    have hfile := (file_iff h hundone.fresh).mpr ⟨hundone.removed, hundone.copied⟩
    have hsnapshotBack := hsnapshot.mpr (hundone.emptied .snapshot)
    refine ⟨⟨hfile, funext fun d => ?_, henabled.mpr hundone.timerEnabled,
      hactive.mpr hundone.timerActive⟩, hundone.fresh⟩
    cases d with
    | snapshot => exact hsnapshotBack
    | snapshotParent =>
      refine hparent.mpr fun hd => (hundone.emptied .snapshotParent hd).imp_right fun hgone => ?_
      refine ⟨hgone.1, hgone.2, ?_⟩
      rw [hsnapshotBack]
      by_contra hpresent
      exact pre.parent_present hpresent hd
    | config =>
      exact (config_iff h hundone.fresh hfile).mpr ⟨hundone.mode, hundone.emptied .config⟩

end Message

/-- Whatever fails after the trap is armed, the message tells the truth if and only if the rollback
finds everything it has to undo undone. -/
theorem all_or_nothing_iff (stamp : String) (payload : Target → File) (faults : Faults File)
    (pre : Prestate File) : AllOrNothing stamp payload faults pre.toHost ↔
      ((applied stamp payload faults pre.toHost).1 = false →
        Undone stamp faults pre.toHost (applied stamp payload faults pre.toHost).2) := by
  have hkept : Kept (capture stamp pre.toHost) (applied stamp payload faults pre.toHost).2 :=
    applied_kept pre.toHost
  have hiff := @restored_iff_undone _ stamp faults _ _ hkept
  unfold AllOrNothing install
  cases hcompleted : (applied stamp payload faults pre.toHost).1 with
  | true => simp [hcompleted]
  | false =>
    rw [← hiff]
    simp [hcompleted]

/-- A host on which none of this was installed -/
def bareHost : Prestate String where
  file := fun _ => none
  directory := fun _ => none
  occupied := fun _ => false
  timerEnabled := false
  timerActive := false
  backup := fun _ _ => none
  config_present := fun _ _ h => absurd rfl h
  parent_present := fun h => absurd rfl h

/-- `systemctl enable --now` starts the timer and fails, and so does `systemctl disable --now`. -/
def stuckTimer : Faults String where
  forward := some (17, ⟨none, none, none, (true, true)⟩)
  snapshotTaken := false
  disable := some (true, true)
  remove := fun _ => false
  makeDirectory := fun _ => false
  restore := fun _ => none
  rmdir := fun _ => false
  enable := none
  start := none

theorem active_timer_called_restored :
    ¬ AllOrNothing "20250101T000000Z" (fun _ => "reviewed") stuckTimer bareHost.toHost := by
  intro h
  have hactive := (h (by decide)).1.timerActive
  exact absurd hactive (by decide)

end RecoveryTools
