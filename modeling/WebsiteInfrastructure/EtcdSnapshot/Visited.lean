import Mathlib
import WebsiteInfrastructure.EtcdSnapshot.Script

/-!
# The directories that a run goes through

Whatever a run does and wherever it stops, each entry is a valid snapshot or carries one of the two
hidden names of the run.
-/

namespace EtcdSnapshot

open Raising Ranking

/-! ## Names -/

theorem length_of_isTimestamp {cs : List Char} (h : isTimestamp cs = true) : cs.length = 16 := by
  simp only [isTimestamp, Bool.and_eq_true, decide_eq_true_eq] at h
  exact h.1.1.1.1

theorem length_snapshotStart : snapshotStart.length = 9 := by
  decide

theorem length_snapshotEnd : snapshotEnd.length = 3 := by
  decide

theorem isSnapshotName_snapshotName (reading : Reading) :
    isSnapshotName (snapshotName reading) = true := by
  have hlength := length_of_isTimestamp reading.valid
  have hdrop : (snapshotName reading).drop 9 = reading.timestamp ++ snapshotEnd := by
    rw [snapshotName, List.append_assoc, ← length_snapshotStart, List.drop_left]
  have htake : (reading.timestamp ++ snapshotEnd).take 16 = reading.timestamp := by
    rw [← hlength, List.take_left]
  have hend : (snapshotName reading).drop 25 = snapshotEnd := by
    rw [show 25 = 9 + 16 from rfl, ← List.drop_drop, hdrop, ← hlength, List.drop_left]
  have hstart : snapshotStart.isPrefixOf (snapshotName reading) = true := by
    rw [List.isPrefixOf_iff_prefix, snapshotName, List.append_assoc]
    exact List.prefix_append _ _
  have htotal : (snapshotName reading).length = 28 := by
    simp [snapshotName, hlength, length_snapshotStart, length_snapshotEnd]
  simp only [isSnapshotName, hdrop, htake, hend, hstart, htotal, reading.valid]
  decide

theorem isListedName_of_isSnapshotName {name : Name} (h : isSnapshotName name = true) :
    isListedName name = true := by
  simp only [isSnapshotName, isTimestamp, Bool.and_eq_true, decide_eq_true_eq] at h
  obtain ⟨⟨⟨hlength, hstart⟩, ⟨⟨⟨-, -⟩, hT⟩, -⟩, hZ⟩, hend⟩ := h
  rw [List.getElem?_take_of_lt (by omega), List.getElem?_drop] at hT hZ
  simp only [isListedName, Bool.and_eq_true, decide_eq_true_eq]
  exact ⟨⟨⟨⟨hlength, hstart⟩, hT⟩, hZ⟩, hend⟩

/-- The names that `*` lists only with `dotglob`. -/
def isHidden (name : Name) : Bool := name.head? = some '.'

theorem head_of_start {name : Name} (h : snapshotStart.isPrefixOf name = true) :
    name.head? = some 's' := by
  rw [List.isPrefixOf_iff_prefix] at h
  obtain ⟨rest, rfl⟩ := h
  rfl

theorem not_isHidden_of_isListedName {name : Name} (h : isListedName name = true) :
    isHidden name = false := by
  simp only [isListedName, Bool.and_eq_true] at h
  simp [isHidden, head_of_start h.1.1.1.2]

theorem not_isHidden_of_isSnapshotName {name : Name} (h : isSnapshotName name = true) :
    isHidden name = false :=
  not_isHidden_of_isListedName (isListedName_of_isSnapshotName h)

@[simp] theorem isHidden_partialName (reading : Reading) (pid : ℕ) :
    isHidden (partialName reading pid) = true := rfl

@[simp] theorem isHidden_partName (reading : Reading) (pid : ℕ) :
    isHidden (partName reading pid) = true := rfl

theorem baseName_prefix (name : Name) : baseName name <+: name := List.rdropWhile_prefix _ _

theorem baseName_of_isSnapshotName {name : Name} (h : isSnapshotName name = true) :
    baseName name = name := by
  have hne : name ≠ [] := by
    rintro rfl
    simp [isSnapshotName] at h
  simp only [isSnapshotName, Bool.and_eq_true, decide_eq_true_eq] at h
  have hlast : name.getLast? = some 'b' := by
    rw [← List.take_append_drop 25 name, h.2]
    simp [snapshotEnd]
  rw [baseName, List.rdropWhile_eq_self_iff]
  intro hnonempty
  rw [List.getLast?_eq_some_getLast hne, Option.some.injEq] at hlast
  rw [hlast]
  decide

/-- A line feed at the end is all that the check of a name can miss. -/
theorem not_isHidden_of_baseName {name : Name} (h : isSnapshotName (baseName name) = true) :
    isHidden name = false := by
  obtain ⟨rest, hrest⟩ := baseName_prefix name
  have hne : baseName name ≠ [] := by
    intro hnil
    rw [hnil] at h
    simp [isSnapshotName] at h
  have hhead := not_isHidden_of_isSnapshotName h
  rw [isHidden, ← hrest, List.head?_append_of_ne_nil _ hne]
  exact hhead

/-! ## Entries -/

/-- A finished snapshot. -/
structure Valid (next : ℕ) (e : Name × File) : Prop where
  name : isSnapshotName e.1 = true
  regular : e.2.regular = true
  owner : e.2.owner = 0
  mode : e.2.mode = 600
  verifies : e.2.verifies = true
  complete : e.2.complete = true
  created : e.2.created < next

theorem Valid.later {next : ℕ} {e : Name × File} (h : Valid next e) : Valid (next + 1) e :=
  { h with created := h.created.trans next.lt_succ_self }

theorem valid_new (reading : Reading) (next : ℕ) :
    Valid (next + 1) (snapshotName reading, written true next) where
  name := isSnapshotName_snapshotName reading
  regular := rfl
  owner := rfl
  mode := rfl
  verifies := rfl
  complete := rfl
  created := next.lt_succ_self

theorem validateEntry_of_valid {next : ℕ} {e : Name × File} (h : Valid next e) :
    validateEntry e = .ok () := by
  simp [validateEntry, baseName_of_isSnapshotName h.name, h.name, h.regular, h.owner, h.mode,
    h.verifies]

/-- A directory of entries with `P`, and of files under the names `extra`. -/
structure Within (extra : List Name) (P : Name × File → Prop) (d : Directory) : Prop where
  nodup : d.names.Nodup
  entry : ∀ e ∈ d, e.1 ∈ extra ∨ P e

namespace Within

variable {extra : List Name} {P : Name × File → Prop} {d : Directory}

theorem weaken {more : List Name} (h : Within extra P d) (hsub : extra ⊆ more) :
    Within more P d where
  nodup := h.nodup
  entry e he := (h.entry e he).imp (fun hname => hsub hname) id

theorem imp {Q : Name × File → Prop} (h : Within extra P d) (hPQ : ∀ e, P e → Q e) :
    Within extra Q d where
  nodup := h.nodup
  entry e he := (h.entry e he).imp id (hPQ e)

theorem filter (h : Within extra P d) (p : Name × File → Bool) : Within extra P (d.filter p) where
  nodup := h.nodup.sublist (List.Sublist.map Prod.fst List.filter_sublist)
  entry e he := h.entry e (List.mem_of_mem_filter he)

/-- Removing a name takes it off the list of the others. -/
theorem remove {name : Name} (h : Within (name :: extra) P d) : Within extra P (d.remove name)
    where
  nodup := (h.filter _).nodup
  entry e he := by
    have hmem := List.mem_filter.mp he
    have hne : e.1 ≠ name := by simpa using hmem.2
    rcases h.entry e hmem.1 with hname | hP
    · rcases List.mem_cons.mp hname with heq | hrest
      · exact absurd heq hne
      · exact .inl hrest
    · exact .inr hP

theorem put {name : Name} {file : File} (h : Within extra P d)
    (hfile : name ∈ extra ∨ P (name, file)) : Within extra P (d.put name file) where
  nodup := by
    have hnotMem : name ∉ (d.remove name).names := by
      simp [Directory.names, Directory.remove]
    exact List.nodup_cons.mpr ⟨hnotMem, (h.filter _).nodup⟩
  entry e he := by
    rcases List.mem_cons.mp he with rfl | he
    · exact hfile
    · exact h.entry e (List.mem_of_mem_filter he)

end Within

/-- A directory of finished snapshots, and of files under the names `extra`. -/
abbrev Sound (extra : List Name) (next : ℕ) (d : Directory) : Prop := Within extra (Valid next) d

theorem Within.valid {next : ℕ} {d : Directory} (h : Sound [] next d) :
    ∀ e ∈ d, Valid next e := by
  intro e he
  rcases h.entry e he with hnone | hvalid
  · simp at hnone
  · exact hvalid

theorem Within.later {extra : List Name} {next : ℕ} {d : Directory} (h : Sound extra next d) :
    Sound extra (next + 1) d := h.imp fun _ => Valid.later

theorem remove_of_notMem {d : Directory} {name : Name} (h : name ∉ d.names) :
    d.remove name = d := by
  rw [Directory.remove, List.filter_eq_self]
  intro e he
  have hne : e.1 ≠ name := by
    rintro rfl
    exact h (List.mem_map_of_mem he)
  simpa using hne

theorem put_of_notMem {d : Directory} {name : Name} (file : File) (h : name ∉ d.names) :
    d.put name file = (name, file) :: d := by
  rw [Directory.put, remove_of_notMem h]

theorem remove_put {d : Directory} {name : Name} (file : File) (h : name ∉ d.names) :
    (d.put name file).remove name = d := by
  rw [put_of_notMem file h, Directory.remove, List.filter_cons_of_neg (by simp)]
  exact remove_of_notMem h

theorem Within.notMem_of_isHidden {next : ℕ} {d : Directory} {name : Name} (h : Sound [] next d)
    (hname : isHidden name = true) : name ∉ d.names := by
  intro hmem
  obtain ⟨e, he, rfl⟩ := List.mem_map.mp hmem
  have hshown := not_isHidden_of_isSnapshotName (h.valid e he).name
  simp [hname] at hshown

/-! ## A run -/

section Visited

variable {r : Run} {next : ℕ} {extra : List Name} {P : Name × File → Prop} {d : Directory}

/-- The names that the run gives to what is not yet a snapshot. -/
def own (r : Run) : List Name := [partialName r.reading r.pid, partName r.reading r.pid]

/-- What is known of a run from a point on: the states in between, and the last one. -/
structure Visits (r : Run) (extra : List Name) (P : Name × File → Prop) (t : Trace Outcome) :
    Prop where
  states : ∀ c ∈ t.1, Within (own r ++ extra) P c
  last : ∃ c, t.1.getLast? = some c ∧ Within extra P c

theorem Visits.cons {t : Trace Outcome} {c : Directory} (h : Visits r extra P t)
    (hc : Within (own r ++ extra) P c) : Visits r extra P (c :: t.1, t.2) where
  states := List.forall_mem_cons.mpr ⟨hc, h.states⟩
  last := by
    obtain ⟨l, hl, hsound⟩ := h.last
    refine ⟨l, ?_, hsound⟩
    rw [List.getLast?_cons, hl]
    rfl

theorem Visits.append {t : Trace Outcome} {states : List Directory} (h : Visits r extra P t)
    (hstates : ∀ c ∈ states, Within (own r ++ extra) P c) :
    Visits r extra P (states ++ t.1, t.2) where
  states := List.forall_mem_append.mpr ⟨hstates, h.states⟩
  last := by
    obtain ⟨l, hl, hsound⟩ := h.last
    refine ⟨l, ?_, hsound⟩
    rw [List.getLast?_append, hl]
    rfl

theorem visits_cleanedUp (outcome : Outcome) (h : Within (own r ++ extra) P d) :
    Visits r extra P (cleanedUp r d outcome) where
  states := by
    have hbare := h.remove
    have hsecond := hbare.remove
    simp only [cleanedUp, List.forall_mem_cons]
    refine ⟨h, hbare.weaken (List.subset_cons_self _ _), ?_, by simp⟩
    exact hsecond.weaken (List.subset_append_right _ _)
  last := ⟨_, rfl, h.remove.remove⟩

theorem visits_here (outcome : Outcome) (h : Within extra P d) :
    Visits r extra P ([d], outcome) where
  states := by
    simpa using h.weaken (List.subset_append_right _ _)
  last := ⟨d, rfl, h⟩

/-- Pruning only removes entries. -/
theorem sound_prune (names : List Name) (h : Within extra P d) :
    (∀ c ∈ (prune r names d).1, Within extra P c) ∧ Within extra P (prune r names d).2.1 := by
  induction names generalizing d with
  | nil => simpa [prune] using h
  | cons name names ih =>
    rw [prune]
    split_ifs
    · simpa using h
    · simpa using h
    · simpa using h
    · have hrest := ih (h.filter fun e => e.1 ≠ name)
      exact ⟨List.forall_mem_cons.mpr ⟨h, hrest.1⟩, hrest.2⟩

theorem prune_last (names : List Name) :
    (prune r names d).1.getLast? = some (prune r names d).2.1 := by
  induction names generalizing d with
  | nil => rfl
  | cons name names ih =>
    rw [prune]
    split_ifs
    · rfl
    · rfl
    · rfl
    · simp only [List.getLast?_cons, ih]
      rfl

theorem visits_retain (h : Within extra P d) : Visits r extra P (retain r d) := by
  obtain ⟨hstates, hpruned⟩ := sound_prune (r := r) (retired d) h
  have hlast := prune_last (r := r) (d := d) (retired d)
  have hown := List.subset_append_right (own r) extra
  have hbefore : ∀ c ∈ (prune r (retired d) d).1, Within (own r ++ extra) P c := by
    intro c hc
    exact (hstates c hc).weaken hown
  unfold retain
  split
  next states pruned outcome heq =>
    rw [heq] at hstates hpruned hlast hbefore
    split
    · exact (visits_cleanedUp _ (hpruned.weaken hown)).append hbefore
    · split
      · exact (visits_cleanedUp _ (hpruned.weaken hown)).append hbefore
      · exact ⟨hbefore, pruned, hlast, hpruned⟩

theorem visits_publish (verifies : Bool) (h : Within extra P d)
    (hnew : P (snapshotName r.reading, written true next)) :
    Visits r extra P (publish r d (written verifies next)) := by
  have hown := List.subset_append_right (own r) extra
  have hsaved : Within (own r ++ extra) P
      (d.put (partialName r.reading r.pid) (written verifies next)) := by
    apply Within.put (h.weaken hown)
    left
    simp [own]
  have hbare : Within extra P ((d.put (partialName r.reading r.pid)
      (written verifies next)).remove (partialName r.reading r.pid)) := by
    apply Within.remove
    apply Within.put (h.weaken (List.subset_cons_self _ _))
    left
    exact List.mem_cons_self
  unfold publish
  split_ifs with hchmod hverifies hmove hboth hstatus
  · exact visits_cleanedUp _ hsaved
  · exact visits_cleanedUp _ hsaved
  · exact visits_cleanedUp _ hsaved
  all_goals
    have htrue : verifies = true := by simpa [written] using hverifies
    subst htrue
    have hpublished := hbare.put (.inr hnew)
  · exact (visits_cleanedUp _ (hpublished.weaken hown)).cons hsaved
  · have hremoved := hpublished.filter fun e => e.1 ≠ snapshotName r.reading
    exact ((visits_cleanedUp _ (hremoved.weaken hown)).cons (hpublished.weaken hown)).cons hsaved
  · exact (visits_retain hpublished).cons hsaved

theorem visits_snapshot (h : Within extra P d)
    (hnew : P (snapshotName r.reading, written true next)) :
    Visits r extra P (snapshot r next d) := by
  have hown := List.subset_append_right (own r) extra
  have hstart : Within (own r ++ extra) P d := h.weaken hown
  have hpart : Within (own r ++ extra) P
      (d.put (partName r.reading r.pid) (halfWritten next)) := by
    apply hstart.put
    left
    simp [own]
  unfold snapshot
  split
  · exact visits_here _ h
  · split_ifs
    · exact visits_here _ h
    · cases r.save with
      | refused => exact (visits_cleanedUp _ hstart).cons hstart
      | cut => exact (visits_cleanedUp _ hpart).cons hstart
      | done verifies => exact ((visits_publish verifies h hnew).cons hpart).cons hstart

theorem visits_apply (h : Within extra P d)
    (hnew : P (snapshotName r.reading, written true next)) : Visits r extra P (apply r next d) := by
  unfold apply
  split_ifs
  · exact visits_here _ h
  · exact visits_here _ h
  · exact visits_here _ h
  · exact visits_snapshot h hnew

end Visited

end EtcdSnapshot
