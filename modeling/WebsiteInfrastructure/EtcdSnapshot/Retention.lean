import Mathlib
import WebsiteInfrastructure.EtcdSnapshot.Visited

/-!
# What the retention keeps

The retention ranks snapshots by their names. It keeps the newest ones exactly when no snapshot
with one of the fourteen last names was created before one that the names put behind them.
-/

namespace EtcdSnapshot

open Raising Ranking

/-! ## The run that passes -/

/-- The directory that a run leaves behind. -/
def ended (t : Trace Outcome) : Directory := t.1.getLastD []

/-- The directory once the new snapshot is in place. -/
def withNew (r : Run) (next : ℕ) (d : Directory) : Directory :=
  (snapshotName r.reading, written true next) :: d

/-- What the retention makes of a directory. -/
def retained (d : Directory) : Directory := d.filter fun e => e.1 ∉ retired d

section Passing

variable {r : Run} {next : ℕ} {d : Directory}

theorem Visits.ended {extra : List Name} {P : Name × File → Prop} {t : Trace Outcome}
    (h : Visits r extra P t) : Within extra P (ended t) := by
  obtain ⟨c, hlast, hsound⟩ := h.last
  rw [EtcdSnapshot.ended, List.getLastD_eq_getLast?, hlast]
  exact hsound

theorem validates_iff (d : Directory) :
    validateSnapshotFiles false d = .ok () ↔ ∀ e ∈ d, validateEntry e = .ok () := by
  simp [validateSnapshotFiles, globbed]

theorem validates_retention_iff (d : Directory) :
    validateSnapshotFiles true d = .ok () ↔
      (∀ e ∈ d, validateEntry e = .ok ()) ∧ d ≠ [] ∧ d.length ≤ 14 := by
  simp [validateSnapshotFiles, globbed, List.length_eq_zero_iff]

theorem Within.validates (h : Sound [] next d) : ∀ e ∈ d, validateEntry e = .ok () := by
  intro e he
  exact validateEntry_of_valid (h.valid e he)

theorem prune_of_passed (names : List Name) (d : Directory)
    (h : (prune r names d).2.2 = .passed) :
    (prune r names d).2.1 = d.filter fun e => e.1 ∉ names := by
  induction names generalizing d with
  | nil => simp [prune]
  | cons name names ih =>
    rw [prune] at h ⊢
    split_ifs at h ⊢
    rw [ih _ h, Directory.remove, List.filter_filter]
    congr 1
    funext e
    simp [not_or, Bool.and_comm]

theorem retain_of_passed (h : (retain r d).2 = .passed) :
    ended (retain r d) = retained d ∧ (retained d).length ≤ 14 := by
  have hpruned := prune_of_passed (r := r) (retired d) d
  have hlast := prune_last (r := r) (d := d) (retired d)
  unfold retain at h ⊢
  split at h
  next states pruned outcome heq =>
    rw [heq] at hpruned hlast
    cases outcome with
    | died message => simp [cleanedUp] at h
    | passed =>
      simp only at h hpruned hlast ⊢
      cases hvalidated : validateSnapshotFiles true pruned with
      | error message => simp [hvalidated, cleanedUp] at h
      | ok u =>
        obtain ⟨-, -, hlength⟩ := (validates_retention_iff pruned).mp hvalidated
        have heq : pruned = retained d := hpruned trivial
        rw [heq] at hlast hlength
        exact ⟨by simp [ended, hlast], hlength⟩

theorem retain_last (h : Sound [] next d) :
    (retain r d).1.getLast? = some (ended (retain r d)) := by
  obtain ⟨c, hlast, -⟩ := (visits_retain (r := r) h).last
  simp [ended, List.getLastD_eq_getLast?, hlast]

theorem sound_withNew (hd : Sound [] next d) (hfresh : snapshotName r.reading ∉ d.names) :
    Sound [] (next + 1) (withNew r next d) := by
  have hput := hd.later.put (.inr (valid_new r.reading next))
  rwa [put_of_notMem _ hfresh] at hput

theorem publish_of_passed {verifies : Bool} (hd : Sound [] next d)
    (hfresh : snapshotName r.reading ∉ d.names)
    (h : (publish r d (written verifies next)).2 = .passed) :
    ended (publish r d (written verifies next)) = retained (withNew r next d) ∧
      (retained (withNew r next d)).length ≤ 14 := by
  have habsent := hd.notMem_of_isHidden (isHidden_partialName r.reading r.pid)
  have hbare := remove_put (written verifies next) habsent
  have hput := put_of_notMem (written verifies next) hfresh
  simp only [publish, hbare, hput] at h ⊢
  split_ifs at h ⊢ with hchmod hverifies hmove hboth hstatus
  all_goals simp only [cleanedUp, reduceCtorEq] at h
  have htrue : verifies = true := by simpa [written] using hverifies
  subst htrue
  have hnew := sound_withNew hd hfresh
  have hretained := retain_of_passed h
  have hlast := retain_last (r := r) hnew
  refine ⟨?_, hretained.2⟩
  rw [withNew, ← hretained.1]
  rw [withNew] at hlast
  rw [ended, List.getLastD_eq_getLast?, List.getLast?_cons, hlast]
  rfl

theorem snapshot_of_passed (hd : Sound [] next d) (h : (snapshot r next d).2 = .passed) :
    snapshotName r.reading ∉ d.names ∧ ended (snapshot r next d) = retained (withNew r next d) ∧
      (retained (withNew r next d)).length ≤ 14 := by
  have hvalidated := (validates_iff d).mpr hd.validates
  unfold snapshot at h ⊢
  rw [hvalidated] at h ⊢
  simp only at h ⊢
  split_ifs at h ⊢ with hfresh
  refine ⟨hfresh, ?_⟩
  cases hsave : r.save with
  | refused => simp [hsave, cleanedUp] at h
  | cut => simp [hsave, cleanedUp] at h
  | done verifies =>
    simp only [hsave] at h ⊢
    obtain ⟨heq, hlength⟩ := publish_of_passed hd hfresh h
    obtain ⟨c, hlast, -⟩ := (visits_publish (r := r) verifies hd.later (valid_new r.reading next)).last
    refine ⟨?_, hlength⟩
    rw [← heq]
    simp [ended, List.getLastD_eq_getLast?, List.getLast?_cons, hlast]

/-- What a run that passes leaves behind. -/
theorem apply_of_passed (hd : Sound [] next d) (h : (apply r next d).2 = .passed) :
    snapshotName r.reading ∉ d.names ∧ ended (apply r next d) = retained (withNew r next d) ∧
      (retained (withNew r next d)).length ≤ 14 := by
  unfold apply at h ⊢
  split_ifs at h ⊢
  exact snapshot_of_passed hd h

end Passing

/-! ## Names and ages -/

section Ages

variable {r : Run} {next : ℕ} {d : Directory}

/-- How many snapshots have a later name. -/
def laterNames (d : Directory) (e : Name × File) : ℕ := d.countP fun f => e.1 < f.1

/-- No snapshot with one of the last fourteen names was created before one with another name. -/
def InOrder (d : Directory) : Prop :=
  ∀ e ∈ d, ∀ f ∈ d, laterNames d e < 14 → 14 ≤ laterNames d f → f.2.created < e.2.created

/-- What the retention is for. -/
structure KeepsNewest (r : Run) (next : ℕ) (before after : Directory) : Prop where
  new_mem : (snapshotName r.reading, written true next) ∈ after
  length_le : after.length ≤ 14
  removed_older : ∀ e ∈ withNew r next before, e ∉ after → ∀ f ∈ after, e.2.created < f.2.created

theorem Within.listed (h : Sound [] next d) :
    (d.filter fun e => e.2.regular && isListedName e.1) = d := by
  rw [List.filter_eq_self]
  intro e he
  have hvalid := h.valid e he
  simp [hvalid.regular, isListedName_of_isSnapshotName hvalid.name]

theorem Within.mem_retired_iff (h : Sound [] next d) {e : Name × File} (he : e ∈ d) :
    e.1 ∈ retired d ↔ 14 ≤ laterNames d e := by
  have hmem : e.1 ∈ d.names := List.mem_map_of_mem he
  rw [retired, h.listed, ← Directory.names, mem_beyond h.nodup, and_iff_right hmem,
    Directory.names, List.countP_map, laterNames]
  apply Eq.to_iff
  congr 1
  apply List.countP_congr
  intro f hf
  simp only [Function.comp, decide_eq_true_iff]

theorem Within.mem_retained_iff (h : Sound [] next d) {e : Name × File} :
    e ∈ retained d ↔ e ∈ d ∧ laterNames d e < 14 := by
  rw [retained, List.mem_filter]
  constructor
  · rintro ⟨he, hkept⟩
    have hkept : e.1 ∉ retired d := by simpa using hkept
    rw [h.mem_retired_iff he, not_le] at hkept
    exact ⟨he, hkept⟩
  · rintro ⟨he, hfew⟩
    refine ⟨he, ?_⟩
    have hkept : e.1 ∉ retired d := by
      rw [h.mem_retired_iff he, not_le]
      exact hfew
    simpa using hkept

/-- The largest name has no later one. -/
theorem exists_laterNames_zero (h : d ≠ []) : ∃ e ∈ d, laterNames d e = 0 := by
  have hnonempty : d.toFinset.Nonempty := List.toFinset_nonempty_iff d |>.mpr h
  obtain ⟨e, he, hmax⟩ := Finset.exists_max_image d.toFinset Prod.fst hnonempty
  refine ⟨e, List.mem_toFinset.mp he, ?_⟩
  rw [laterNames, List.countP_eq_zero]
  intro f hf
  simpa using hmax f (List.mem_toFinset.mpr hf)

theorem keepsNewest_iff (hd : Sound [] next d) (hfresh : snapshotName r.reading ∉ d.names)
    (hlength : (retained (withNew r next d)).length ≤ 14) :
    KeepsNewest r next d (retained (withNew r next d)) ↔ InOrder (withNew r next d) := by
  have hnew := sound_withNew hd hfresh
  constructor
  · intro hkeeps e he f hf hfew hmany
    apply hkeeps.removed_older f hf
    · rw [hnew.mem_retained_iff]
      rintro ⟨-, hlt⟩
      omega
    · exact hnew.mem_retained_iff.mpr ⟨he, hfew⟩
  · intro horder
    refine ⟨?_, hlength, ?_⟩
    · rw [hnew.mem_retained_iff]
      refine ⟨List.mem_cons_self, ?_⟩
      by_contra hmany
      -- the largest name stays, and its snapshot is not younger than the new one
      obtain ⟨e, he, hzero⟩ := exists_laterNames_zero (d := withNew r next d) (by simp [withNew])
      have hlt := horder e he _ List.mem_cons_self (by omega) (not_lt.mp hmany)
      have hle : e.2.created ≤ next := Nat.lt_succ_iff.mp (hnew.valid e he).created
      exact absurd hlt (not_lt.mpr hle)
    · intro e he hgone f hf
      obtain ⟨hf, hfew⟩ := hnew.mem_retained_iff.mp hf
      apply horder f hf e he hfew
      rw [hnew.mem_retained_iff] at hgone
      by_contra hlt
      exact hgone ⟨he, not_le.mp hlt⟩

/-- Names and creations go the same way. -/
def Aligned (d : Directory) : Prop := ∀ e ∈ d, ∀ f ∈ d, e.1 < f.1 → e.2.created < f.2.created

theorem laterNames_le {e f : Name × File} (h : e.1 ≤ f.1) : laterNames d f ≤ laterNames d e := by
  apply List.countP_mono_left
  intro g hg hlt
  have hlt : f.1 < g.1 := by simpa using hlt
  simpa using h.trans_lt hlt

theorem Aligned.inOrder (h : Aligned d) : InOrder d := by
  intro e he f hf hfew hmany
  apply h f hf e he
  by_contra hle
  have hcount := laterNames_le (d := d) (not_lt.mp hle)
  omega

theorem Aligned.withNew (h : Aligned d) (hd : Sound [] next d)
    (hlater : ∀ name ∈ d.names, name < snapshotName r.reading) :
    Aligned (withNew r next d) := by
  intro e he f hf hlt
  rcases List.mem_cons.mp he with rfl | he
  · rcases List.mem_cons.mp hf with rfl | hf
    · exact absurd hlt (lt_irrefl _)
    · exact absurd hlt (hlater _ (List.mem_map_of_mem hf)).asymm
  · rcases List.mem_cons.mp hf with rfl | hf
    · exact (hd.valid e he).created
    · exact h e he f hf hlt

end Ages

/-! ## Histories -/

/-- One run of a history, with the directory that it finds. -/
structure Turn where
  run : Run
  created : ℕ
  before : Directory

namespace Turn

def trace (t : Turn) : Trace Outcome := apply t.run t.created t.before

end Turn

/-- Runs one after the other, whatever the clock reads. -/
def history (next : ℕ) (d : Directory) : List Run → List Turn
  | [] => []
  | r :: rs => ⟨r, next, d⟩ :: history (next + 1) (ended (apply r next d)) rs

theorem sound_history {next : ℕ} {d : Directory} (hd : Sound [] next d) (runs : List Run) :
    ∀ t ∈ history next d runs, Sound [] t.created t.before := by
  induction runs generalizing next d with
  | nil => simp [history]
  | cons r rs ih =>
    rw [history, List.forall_mem_cons]
    exact ⟨hd, ih (visits_apply hd.later (valid_new r.reading next)).ended⟩

/-- A run that passes keeps the newest snapshots exactly when the names that the retention goes by
put no older snapshot before a younger one. -/
theorem retention_keeps_newest_iff {next : ℕ} {d : Directory} (hd : Sound [] next d)
    (runs : List Run) :
    ∀ t ∈ history next d runs, t.trace.2 = .passed →
      (KeepsNewest t.run t.created t.before (ended t.trace) ↔
        InOrder (withNew t.run t.created t.before)) := by
  intro t ht hpassed
  have hbefore := sound_history hd runs t ht
  obtain ⟨hfresh, heq, hlength⟩ := apply_of_passed hbefore hpassed
  rw [Turn.trace, heq]
  exact keepsNewest_iff hbefore hfresh hlength

/-- The entries after a run, passed or not, are among those before it and the new one. -/
theorem ended_subset {r : Run} {next : ℕ} {d : Directory} (hd : Sound [] next d) :
    ∀ e ∈ ended (apply r next d), e ∈ withNew r next d := by
  have hvisits : Visits r [] (· ∈ withNew r next d) (apply r next d) := by
    apply visits_apply
    · exact ⟨hd.nodup, fun e he => .inr (List.mem_cons_of_mem _ he)⟩
    · exact List.mem_cons_self
  intro e he
  rcases hvisits.ended.entry e he with hnone | hmem
  · simp at hnone
  · exact hmem

/-- The clock never shows a time again, nor one before. -/
structure Forward (d : Directory) (runs : List Run) : Prop where
  increasing : (runs.map fun r => snapshotName r.reading).Pairwise (· < ·)
  later : ∀ r ∈ runs, ∀ name ∈ d.names, name < snapshotName r.reading

theorem Forward.tail {r : Run} {rs : List Run} {next : ℕ} {d : Directory}
    (h : Forward d (r :: rs)) (hd : Sound [] next d) :
    Forward (ended (apply r next d)) rs where
  increasing := (List.pairwise_cons.mp h.increasing).2
  later s hs name hname := by
    obtain ⟨e, he, rfl⟩ := List.mem_map.mp hname
    rcases List.mem_cons.mp (ended_subset hd e he) with rfl | hold
    · exact (List.pairwise_cons.mp h.increasing).1 _ (List.mem_map_of_mem hs)
    · exact h.later s (List.mem_cons_of_mem _ hs) _ (List.mem_map_of_mem hold)

/-- As long as the clock goes forward, each run keeps the newest snapshots. -/
theorem inOrder_of_forward {next : ℕ} {d : Directory} {runs : List Run} (hd : Sound [] next d)
    (haligned : Aligned d) (hforward : Forward d runs) :
    ∀ t ∈ history next d runs, InOrder (withNew t.run t.created t.before) := by
  induction runs generalizing next d with
  | nil => simp [history]
  | cons r rs ih =>
    have hnew : Aligned (withNew r next d) :=
      haligned.withNew hd (hforward.later r List.mem_cons_self)
    rw [history, List.forall_mem_cons]
    refine ⟨hnew.inOrder, ?_⟩
    apply ih (visits_apply hd.later (valid_new r.reading next)).ended
    · intro e he f hf
      exact hnew e (ended_subset hd e he) f (ended_subset hd f hf)
    · exact hforward.tail hd

/-! ## A clock that steps back -/

section Sample

/-- A run in which every command works. -/
def healthyRun (reading : Reading) : Run where
  prepared := true
  healthy := true
  lockFree := true
  reading := reading
  pid := 7
  save := .done true
  chmodWorks := true
  moveWorks := true
  statusWorks := true
  removeWorks := fun _ => true

def firstReading : Reading := ⟨"20260101T000000Z".toList, by decide⟩

/-- The fourteen readings of a day whose clock was ahead. -/
def aheadReading (i : Fin 14) : Reading :=
  ⟨"20260102T0000".toList ++ [(i.val / 10).digitChar, (i.val % 10).digitChar, 'Z'], by
    revert i
    decide⟩

def aheadDirectory : Directory :=
  (List.finRange 14).map fun i => (snapshotName (aheadReading i), written true i.val)

theorem sound_aheadDirectory : Sound [] 14 aheadDirectory where
  nodup := by decide
  entry e he := by
    obtain ⟨i, -, rfl⟩ := List.mem_map.mp he
    right
    exact { valid_new (aheadReading i) 0 with created := i.isLt }

theorem first_run_passes : (apply (healthyRun firstReading) 14 aheadDirectory).2 = .passed := by
  decide

/-- Fourteen snapshots carry later names than the one that has just been made: it is removed. -/
theorem new_snapshot_is_removed :
    ¬ ∀ (next : ℕ) (d : Directory) (runs : List Run), Sound [] next d →
      ∀ t ∈ history next d runs, t.trace.2 = .passed →
        KeepsNewest t.run t.created t.before (ended t.trace) := by
  intro h
  have hkeeps := h 14 aheadDirectory [healthyRun firstReading] sound_aheadDirectory _
    List.mem_cons_self first_run_passes
  have hgone : (snapshotName firstReading, written true 14) ∉
      ended (apply (healthyRun firstReading) 14 aheadDirectory) := by
    decide
  exact hgone hkeeps.new_mem

theorem retention_keeps_newest_sample :
    KeepsNewest (healthyRun firstReading) 14 aheadDirectory
        (ended (apply (healthyRun firstReading) 14 aheadDirectory)) ↔
      InOrder (withNew (healthyRun firstReading) 14 aheadDirectory) :=
  retention_keeps_newest_iff sound_aheadDirectory [healthyRun firstReading] _ List.mem_cons_self
    first_run_passes

end Sample

end EtcdSnapshot
