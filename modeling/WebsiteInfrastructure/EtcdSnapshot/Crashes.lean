import Mathlib
import WebsiteInfrastructure.EtcdSnapshot.Retention

/-!
# Runs after a crash

A run that is cut off may leave one of its hidden files. The next run refuses the directory then;
without such a file it passes. No visited directory shows a half-written file as a snapshot.
-/

namespace EtcdSnapshot

open Raising Ranking

/-! ## Interrupted runs -/

/-- What is left after runs of which any may be cut off between two operations. -/
inductive Interrupted (start : ℕ) (d : Directory) : ℕ → Directory → Prop
  | none : Interrupted start d start d
  | crash {next : ℕ} {before after : Directory} (r : Run) (h : Interrupted start d next before)
      (hvisited : after ∈ (apply r next before).1) : Interrupted start d (next + 1) after

/-- Hidden files aside, the directory holds finished snapshots. -/
def Recoverable (next : ℕ) (d : Directory) : Prop :=
  ∃ extra : List Name, (∀ name ∈ extra, isHidden name = true) ∧ Sound extra next d

theorem Recoverable.visited {r : Run} {next : ℕ} {d c : Directory} (h : Recoverable next d)
    (hc : c ∈ (apply r next d).1) : Recoverable (next + 1) c := by
  obtain ⟨extra, hhidden, hsound⟩ := h
  have hvisits := visits_apply (r := r) hsound.later (valid_new r.reading next)
  refine ⟨own r ++ extra, ?_, hvisits.states c hc⟩
  rw [List.forall_mem_append]
  exact ⟨by simp [own], hhidden⟩

theorem recoverable_of_interrupted {start next : ℕ} {d c : Directory} (hd : Sound [] start d)
    (h : Interrupted start d next c) : Recoverable next c := by
  induction h with
  | none => exact ⟨[], by simp, hd⟩
  | crash r h hvisited ih => exact ih.visited hvisited

/-- A half-written file is never listed as a snapshot. -/
theorem Recoverable.complete {next : ℕ} {d : Directory} (h : Recoverable next d) :
    ∀ e ∈ d, isListedName e.1 = true → e.2.complete = true := by
  obtain ⟨extra, hhidden, hsound⟩ := h
  intro e he hlisted
  rcases hsound.entry e he with hname | hvalid
  · have hshown := not_isHidden_of_isListedName hlisted
    simp [hhidden _ hname] at hshown
  · exact hvalid.complete

theorem Recoverable.sound {next : ℕ} {d : Directory} (h : Recoverable next d)
    (hshown : ∀ name ∈ d.names, isHidden name = false) : Sound [] next d := by
  obtain ⟨extra, hhidden, hsound⟩ := h
  refine ⟨hsound.nodup, ?_⟩
  intro e he
  rcases hsound.entry e he with hname | hvalid
  · have hcontra := hshown e.1 (List.mem_map_of_mem he)
    simp [hhidden _ hname] at hcontra
  · exact .inr hvalid

/-! ## A healthy run -/

/-- Every command of the run works. -/
structure Run.Works (r : Run) : Prop where
  prepared : r.prepared = true
  healthy : r.healthy = true
  lockFree : r.lockFree = true
  save : r.save = .done true
  chmodWorks : r.chmodWorks = true
  moveWorks : r.moveWorks = true
  statusWorks : r.statusWorks = true
  removeWorks : ∀ name, r.removeWorks name = true

section Works

variable {r : Run} {next : ℕ} {d : Directory}

theorem lookup_eq {e : Name × File} (hnodup : d.names.Nodup) (he : e ∈ d) :
    d.lookup e.1 = some e.2 := by
  induction d with
  | nil => simp at he
  | cons f d ih =>
    have hparts := List.nodup_cons.mp hnodup
    rcases List.mem_cons.mp he with rfl | he
    · exact List.lookup_cons_self
    · have hne : e.1 ≠ f.1 := by
        intro heq
        exact hparts.1 (heq ▸ List.mem_map_of_mem he)
      have hbeq : (e.1 == f.1) = false := by simpa using hne
      rw [List.lookup_cons, hbeq]
      exact ih hparts.2 he

theorem prune_passes (hr : r.Works) {names : List Name} (hnodup : names.Nodup)
    (hd : Sound [] next d) (hsub : ∀ name ∈ names, name ∈ d.names) :
    (prune r names d).2.2 = .passed := by
  induction names generalizing d with
  | nil => rfl
  | cons name names ih =>
    have hparts := List.nodup_cons.mp hnodup
    obtain ⟨e, he, rfl⟩ := List.mem_map.mp (hsub name List.mem_cons_self)
    have hvalid := hd.valid e he
    have hlookup := lookup_eq hd.nodup he
    have hrest : (prune r names (d.remove e.1)).2.2 = .passed := by
      apply ih hparts.2 (hd.filter _)
      intro other hother
      obtain ⟨f, hf, rfl⟩ := List.mem_map.mp (hsub other (List.mem_cons_of_mem _ hother))
      apply List.mem_map_of_mem
      have hne : f.1 ≠ e.1 := by
        rintro heq
        exact hparts.1 (heq ▸ hother)
      exact List.mem_filter.mpr ⟨hf, by simpa using hne⟩
    simp [prune, hvalid.name, hlookup, hvalid.regular, hr.removeWorks, hrest]

theorem Within.retired_eq (h : Sound [] next d) : retired d = beyond 14 d.names := by
  rw [retired, h.listed, Directory.names]

theorem length_retained (h : Sound [] next d) : (retained d).length = min d.length 14 := by
  have hnodup : (retired d).Nodup := by
    rw [h.retired_eq]
    exact nodup_beyond h.nodup
  have hmem : ∀ name ∈ retired d, name ∈ d.names := by
    intro name hname
    rw [h.retired_eq, mem_beyond h.nodup] at hname
    exact hname.1
  have hperm : (Directory.names (d.filter fun e => e.1 ∈ retired d)).Perm (retired d) := by
    rw [List.perm_ext_iff_of_nodup (h.filter _).nodup hnodup]
    intro name
    constructor
    · intro hname
      obtain ⟨e, he, rfl⟩ := List.mem_map.mp hname
      simpa using (List.mem_filter.mp he).2
    · intro hname
      obtain ⟨e, he, rfl⟩ := List.mem_map.mp (hmem name hname)
      exact List.mem_map_of_mem (List.mem_filter.mpr ⟨he, by simpa using hname⟩)
  have hremoved : (d.filter fun e => e.1 ∈ retired d).length = d.length - 14 := by
    have hlength := hperm.length_eq
    rw [Directory.names, List.length_map, h.retired_eq, length_beyond, ← h.retired_eq] at hlength
    simpa [Directory.names] using hlength
  have hsplit := List.length_eq_length_filter_add (l := d) fun e => decide (e.1 ∈ retired d)
  rw [hremoved] at hsplit
  simp only [retained, decide_not]
  omega

theorem retain_passes (hr : r.Works) (hd : Sound [] next d) (hne : d ≠ []) :
    (retain r d).2 = .passed := by
  have hnodup : (retired d).Nodup := by
    rw [hd.retired_eq]
    exact nodup_beyond hd.nodup
  have hpassed : (prune r (retired d) d).2.2 = .passed := by
    apply prune_passes hr hnodup hd
    intro name hname
    rw [hd.retired_eq, mem_beyond hd.nodup] at hname
    exact hname.1
  have hpruned : (prune r (retired d) d).2.1 = retained d := prune_of_passed _ _ hpassed
  have hlength := length_retained hd
  have hpositive : 0 < d.length := List.length_pos_iff.mpr hne
  have hvalidated : validateSnapshotFiles true (retained d) = .ok () := by
    rw [validates_retention_iff]
    refine ⟨(hd.filter _ : Sound [] next (retained d)).validates, ?_, by omega⟩
    rw [← List.length_pos_iff]
    omega
  simp [retain, hpassed, hpruned, hvalidated]

theorem apply_passes (hr : r.Works) (hd : Sound [] next d)
    (hfresh : snapshotName r.reading ∉ d.names) : (apply r next d).2 = .passed := by
  have hvalidated := (validates_iff d).mpr hd.validates
  have hnew := sound_withNew hd hfresh
  have hbare := remove_put (written true next)
    (hd.notMem_of_isHidden (isHidden_partialName r.reading r.pid))
  have hput := put_of_notMem (written true next) hfresh
  have hretained : (retain r (withNew r next d)).2 = .passed :=
    retain_passes hr hnew (by simp [withNew])
  rw [withNew] at hretained
  have hpublished : (publish r d (written true next)).2 = .passed := by
    simp [publish, hr.chmodWorks, hr.moveWorks, hr.statusWorks, hbare, hput, hretained,
      show (written true next).verifies = true from rfl]
  simp [apply, snapshot, hr.prepared, hr.healthy, hr.lockFree, hvalidated, hfresh, hr.save,
    hpublished]

/-- Any hidden file makes a run fail. -/
theorem shown_of_passed (h : (apply r next d).2 = .passed) :
    ∀ name ∈ d.names, isHidden name = false := by
  unfold apply snapshot at h
  cases hvalidated : validateSnapshotFiles false d with
  | error message =>
    rw [hvalidated] at h
    split_ifs at h
  | ok u =>
    intro name hname
    obtain ⟨e, he, rfl⟩ := List.mem_map.mp hname
    have hentry := (validates_iff d).mp hvalidated e he
    simp only [validateEntry, raiseIf_bind_eq_ok, Bool.not_eq_false] at hentry
    exact not_isHidden_of_baseName hentry.1

end Works

/-! ## Recovery -/

/-- After any interruptions a healthy run passes exactly when no hidden file is left and the second
that the clock shows is not that of a snapshot; and nothing half-written is listed. -/
theorem recovers_iff {start : ℕ} {d : Directory} (hd : Sound [] start d) :
    ∀ next c, Interrupted start d next c →
      (∀ r : Run, r.Works → ((apply r next c).2 = .passed ↔
        (∀ name ∈ c.names, isHidden name = false) ∧ snapshotName r.reading ∉ c.names)) ∧
      ∀ e ∈ c, isListedName e.1 = true → e.2.complete = true := by
  intro next c hinterrupted
  have hrecoverable := recoverable_of_interrupted hd hinterrupted
  refine ⟨?_, hrecoverable.complete⟩
  intro r hr
  constructor
  · intro hpassed
    have hshown := shown_of_passed hpassed
    exact ⟨hshown, (apply_of_passed (hrecoverable.sound hshown) hpassed).1⟩
  · rintro ⟨hshown, hfresh⟩
    exact apply_passes hr (hrecoverable.sound hshown) hfresh

/-! ## A crash while the snapshot is saved -/

section Sample

def laterReading : Reading := ⟨"20260201T000000Z".toList, by decide⟩

theorem healthyRun_works (reading : Reading) : (healthyRun reading).Works where
  prepared := rfl
  healthy := rfl
  lockFree := rfl
  save := rfl
  chmodWorks := rfl
  moveWorks := rfl
  statusWorks := rfl
  removeWorks _ := rfl

/-- What `etcdctl` had written when the power went. -/
def halfSaved : Directory := [(partName firstReading 7, halfWritten 0)]

theorem interrupted_halfSaved : Interrupted 0 [] 1 halfSaved :=
  .crash (healthyRun firstReading) .none (by decide)

/-- The file that the crash leaves makes every later run die. -/
theorem hidden_file_blocks :
    ¬ ∀ (start : ℕ) (d : Directory), Sound [] start d → ∀ next c, Interrupted start d next c →
      (∀ r : Run, r.Works → snapshotName r.reading ∉ c.names → (apply r next c).2 = .passed) ∧
      ∀ e ∈ c, isListedName e.1 = true → e.2.complete = true := by
  intro h
  have hnone : Sound [] 0 [] := ⟨by simp [Directory.names], by simp⟩
  have hpassed := (h 0 [] hnone 1 halfSaved interrupted_halfSaved).1 (healthyRun laterReading)
    (healthyRun_works _) (by decide)
  have hdied : (apply (healthyRun laterReading) 1 halfSaved).2 ≠ .passed := by decide
  exact hdied hpassed

theorem recovers_sample :
    (∀ r : Run, r.Works → ((apply r 1 halfSaved).2 = .passed ↔
      (∀ name ∈ halfSaved.names, isHidden name = false) ∧
        snapshotName r.reading ∉ halfSaved.names)) ∧
      ∀ e ∈ halfSaved, isListedName e.1 = true → e.2.complete = true :=
  recovers_iff ⟨by simp [Directory.names], by simp⟩ 1 halfSaved interrupted_halfSaved

end Sample

end EtcdSnapshot
