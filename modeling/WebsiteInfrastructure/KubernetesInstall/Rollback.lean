import Mathlib
import WebsiteInfrastructure.KubernetesInstall.Progress

/-!
# What the exit handler reports

A rollback that reports itself complete has removed what the run made, if and only if everything
the run made is recorded, or something that is not recorded keeps a recorded directory from going.
-/

namespace KubernetesInstall

variable {start w : World} {faults : Faults} {a b : Attempt} {p q : Path} {e : Entry}

/-! ## Attempts -/

/-- An attempt goes on: entries only disappear, and a failure stays. -/
structure Attempt.Onto (a b : Attempt) : Prop where
  lookup : ∀ p e, b.world.entries.lookup p = some e → a.world.entries.lookup p = some e
  failed : a.failed = true → b.failed = true
  service : b.world.service = a.world.service

theorem Attempt.Onto.refl (a : Attempt) : a.Onto a := ⟨fun _ _ h => h, fun h => h, rfl⟩

theorem Attempt.Onto.trans {c : Attempt} (h : a.Onto b) (h' : b.Onto c) : a.Onto c :=
  ⟨fun p e hc => h.lookup p e (h'.lookup p e hc), fun hf => h'.failed (h.failed hf),
    h'.service.trans h.service⟩

theorem Attempt.onto_fail (a : Attempt) : a.Onto a.fail := ⟨fun _ _ h => h, fun _ => rfl, rfl⟩

theorem lookup_of_erase {entries : Entries} (h : (entries.erase p).lookup q = some e) :
    q ≠ p ∧ entries.lookup q = some e := by
  have hne : q ≠ p := by
    rintro rfl
    rw [Finmap.lookup_erase] at h
    cases h
  rw [Finmap.lookup_erase_ne hne] at h
  exact ⟨hne, h⟩

theorem Attempt.onto_removeUnless (a : Attempt) (fails : Bool) (p : Path) :
    a.Onto (a.removeUnless fails p) := by
  cases fails with
  | true => exact a.onto_fail
  | false => exact ⟨fun q e h => (lookup_of_erase h).2, fun h => h, rfl⟩

theorem onto_removeInstalled (a : Attempt) (x : Path × String) : a.Onto (removeInstalled faults a x) := by
  unfold removeInstalled
  split
  · exact .refl a
  · split
    · exact a.onto_removeUnless _ _
    · exact a.onto_fail
  · exact a.onto_fail

theorem onto_removeCreated (a : Attempt) (p : Path) : a.Onto (removeCreated faults a p) := by
  unfold removeCreated
  split
  · exact .refl a
  · exact a.onto_removeUnless _ _
  · exact a.onto_fail

theorem onto_removePending (a : Attempt) : a.Onto (removePending faults a) := by
  unfold removePending
  split
  · exact .refl a
  · split
    · exact .refl a
    · exact a.onto_removeUnless _ _
    · exact a.onto_fail

theorem onto_foldl {α : Type} {step : Attempt → α → Attempt} (hstep : ∀ (a : Attempt) (x : α), a.Onto (step a x))
    (xs : List α) (a : Attempt) : a.Onto (xs.foldl step a) := by
  induction xs generalizing a with
  | nil => exact .refl a
  | cons x xs ih => exact (hstep a x).trans (ih _)

/-- Only the entries that a step is about disappear. -/
def Attempt.KeepsOthers (a b : Attempt) (named : Path → Prop) : Prop :=
  ∀ p e, a.world.entries.lookup p = some e → ¬ named p → b.world.entries.lookup p = some e

theorem Attempt.keepsOthers_removeUnless (a : Attempt) (fails : Bool) (p : Path) :
    a.KeepsOthers (a.removeUnless fails p) (· = p) := by
  intro q e hq hne
  cases fails with
  | true => exact hq
  | false =>
    show (a.world.entries.erase p).lookup q = some e
    rwa [Finmap.lookup_erase_ne hne]

theorem keepsOthers_removeInstalled (a : Attempt) (x : Path × String) :
    a.KeepsOthers (removeInstalled faults a x) (· = x.1) := by
  unfold removeInstalled
  split
  · exact fun _ _ h _ => h
  · split
    · exact a.keepsOthers_removeUnless _ _
    · exact fun _ _ h _ => h
  · exact fun _ _ h _ => h

theorem keepsOthers_removeCreated (a : Attempt) (p : Path) :
    a.KeepsOthers (removeCreated faults a p) (· = p) := by
  unfold removeCreated
  split
  · exact fun _ _ h _ => h
  · exact a.keepsOthers_removeUnless _ _
  · exact fun _ _ h _ => h

theorem keepsOthers_removePending (a : Attempt) :
    a.KeepsOthers (removePending faults a) (fun p => a.world.pendingDestination = some p) := by
  unfold removePending
  split
  · exact fun _ _ h _ => h
  · rename_i p hpending
    split
    · exact fun _ _ h _ => h
    · intro q e hq hne
      refine a.keepsOthers_removeUnless _ _ q e hq ?_
      rintro rfl
      exact hne hpending
    · exact fun _ _ h _ => h

theorem keepsOthers_foldl {α : Type} {step : Attempt → α → Attempt} {name : α → Path}
    (hstep : ∀ (a : Attempt) (x : α), a.KeepsOthers (step a x) (· = name x)) (xs : List α) (a : Attempt) :
    a.KeepsOthers (xs.foldl step a) (fun p => ∃ x ∈ xs, p = name x) := by
  induction xs generalizing a with
  | nil => exact fun _ _ h _ => h
  | cons x xs ih =>
    intro p e hp hnamed
    apply ih
    · apply hstep a x p e hp
      rintro rfl
      exact hnamed ⟨x, by simp, rfl⟩
    · rintro ⟨y, hy, rfl⟩
      exact hnamed ⟨y, by simp [hy], rfl⟩

/-! ## What is gone when nothing failed -/

theorem failed_of_onto (h : a.Onto b) (hb : b.failed = false) : a.failed = false := by
  by_contra ha
  rw [h.failed (by simpa using ha)] at hb
  cases hb

theorem absent_of_onto (h : a.Onto b) (hp : p ∉ a.world.entries) : p ∉ b.world.entries := by
  intro hmem
  obtain ⟨e, he⟩ := Finmap.mem_iff.mp hmem
  exact hp (Finmap.mem_of_lookup_eq_some (h.lookup p e he))

theorem Attempt.removeUnless_gone {fails : Bool} (h : (a.removeUnless fails p).failed = false) :
    p ∉ (a.removeUnless fails p).world.entries := by
  cases fails with
  | true => cases h
  | false => exact Finmap.notMem_erase_self

theorem removeInstalled_gone {x : Path × String} (h : (removeInstalled faults a x).failed = false) :
    x.1 ∉ (removeInstalled faults a x).world.entries := by
  unfold removeInstalled at h ⊢
  split at h
  · rename_i habsent
    exact Finmap.lookup_eq_none.mp habsent
  · split at h
    · rename_i hsame
      rw [if_pos hsame]
      exact Attempt.removeUnless_gone h
    · cases h
  · cases h

theorem removeCreated_gone (h : (removeCreated faults a p).failed = false) :
    p ∉ (removeCreated faults a p).world.entries := by
  unfold removeCreated at h ⊢
  split at h
  · rename_i habsent
    exact Finmap.lookup_eq_none.mp habsent
  · exact Attempt.removeUnless_gone h
  · cases h

theorem removePending_gone (hpending : a.world.pendingDestination = some p)
    (h : (removePending faults a).failed = false) : p ∉ (removePending faults a).world.entries := by
  unfold removePending at h ⊢
  split at h
  · rename_i hnone
    rw [hpending] at hnone
    cases hnone
  · rename_i q hq
    cases hpending.symm.trans hq
    split at h
    · rename_i habsent
      exact Finmap.lookup_eq_none.mp habsent
    · exact Attempt.removeUnless_gone h
    · cases h

theorem foldl_gone {α : Type} {step : Attempt → α → Attempt} (name : α → Path)
    (honto : ∀ (a : Attempt) (x : α), a.Onto (step a x))
    (hgone : ∀ (a : Attempt) (x : α), (step a x).failed = false → name x ∉ (step a x).world.entries)
    (xs : List α) (a : Attempt) (h : (xs.foldl step a).failed = false) {x : α} (hx : x ∈ xs) :
    name x ∉ (xs.foldl step a).world.entries := by
  induction xs generalizing a with
  | nil => cases hx
  | cons y ys ih =>
    have hrest := onto_foldl honto ys (step a y)
    rw [List.mem_cons] at hx
    obtain rfl | hx := hx
    · exact absent_of_onto hrest (hgone a x (failed_of_onto hrest h))
    · exact ih _ h hx

/-! ## Directories that cannot go -/

/-- Every entry is in a directory. -/
def InDirectories (entries : Entries) : Prop :=
  ∀ p, p ∈ entries → IsDirectory entries (parent p)

theorem inDirectories_erase {entries : Entries} (h : InDirectories entries)
    (hempty : ∀ q ∈ entries, q ≠ p → parent q ≠ p) : InDirectories (entries.erase p) := by
  intro q hq
  rw [Finmap.mem_erase] at hq
  obtain ⟨mine, hparent⟩ := h q hq.2
  refine ⟨mine, ?_⟩
  rw [Finmap.lookup_erase_ne (hempty q hq.2 hq.1)]
  exact hparent

theorem inDirectories_erase_file {entries : Entries} (h : InDirectories entries) {hash : String}
    {mine : Bool} (hfile : entries.lookup p = some ⟨.file hash, mine⟩) :
    InDirectories (entries.erase p) := by
  refine inDirectories_erase h fun q hq _ => ?_
  rintro rfl
  obtain ⟨owner, hdirectory⟩ := h q hq
  rw [hfile] at hdirectory
  cases hdirectory

theorem isEmpty_iff {entries : Entries} {directory : Path} : isEmpty entries directory = true ↔
    ∀ p ∈ entries, p = [] ∨ parent p ≠ directory := by
  simp [isEmpty, Finmap.mem_keys]

theorem removeInstalled_inDirectories (h : InDirectories a.world.entries) (x : Path × String) :
    InDirectories (removeInstalled faults a x).world.entries := by
  unfold removeInstalled
  split
  · exact h
  · rename_i hash mine hfile
    split
    · unfold Attempt.removeUnless
      split
      · exact h
      · exact inDirectories_erase_file h hfile
    · exact h
  · exact h

theorem removePending_inDirectories (h : InDirectories a.world.entries) :
    InDirectories (removePending faults a).world.entries := by
  unfold removePending
  split
  · exact h
  · split
    · exact h
    · rename_i hash mine hfile
      unfold Attempt.removeUnless
      split
      · exact h
      · exact inDirectories_erase_file h hfile
    · exact h

theorem removeCreated_inDirectories (h : InDirectories a.world.entries) (p : Path) :
    InDirectories (removeCreated faults a p).world.entries := by
  unfold removeCreated
  split
  · exact h
  · unfold Attempt.removeUnless
    split
    · exact h
    · rename_i hempty
      simp only [Bool.or_eq_true, Bool.not_eq_true', not_or, Bool.not_eq_false] at hempty
      apply inDirectories_erase h
      intro q hq hne
      obtain rfl | hparent := isEmpty_iff.mp hempty.2 q hq
      · exact fun hroot => hne hroot
      · exact hparent
  · exact h

theorem inDirectories_foldl {α : Type} {step : Attempt → α → Attempt}
    (hstep : ∀ (a : Attempt) (x : α), InDirectories a.world.entries →
      InDirectories (step a x).world.entries) (xs : List α) (a : Attempt)
    (h : InDirectories a.world.entries) : InDirectories (xs.foldl step a).world.entries := by
  induction xs generalizing a with
  | nil => exact h
  | cons x xs ih => exact ih _ (hstep a x h)

/-! ## Rollbacks in which no command fails -/

def faultless : Faults := ⟨fun _ => .off, fun _ => false, fun _ => false, false⟩

theorem disableServices_succeeds (w : World) : (disableServices faultless w).failed = false := by
  unfold disableServices
  split
  · simp [faultless]
  · rfl

theorem removePending_succeeds (ha : a.failed = false)
    (hkind : ∀ p e, a.world.pendingDestination = some p → a.world.entries.lookup p = some e →
      ∃ hash, e.kind = .file hash) : (removePending faultless a).failed = false := by
  unfold removePending
  split
  · exact ha
  · rename_i p hpending
    split
    · exact ha
    · exact ha
    · rename_i e hnot hlookup
      obtain ⟨hash, hfile⟩ := hkind p e hpending hlookup
      have hform : e = ⟨.file hash, e.mine⟩ := by rw [← hfile]
      exact (hnot hash e.mine hform).elim

theorem removeInstalled_succeeds (ha : a.failed = false) (xs : List (Path × String))
    (hkind : ∀ x ∈ xs, ∀ e, a.world.entries.lookup x.1 = some e → e.kind = .file x.2) :
    (xs.foldl (removeInstalled faultless) a).failed = false := by
  induction xs generalizing a with
  | nil => exact ha
  | cons x xs ih =>
    apply ih
    · unfold removeInstalled
      have hx := hkind x (by simp)
      split
      · exact ha
      · rename_i actual mine hlookup
        have hactual := hx _ hlookup
        simp only [Kind.file.injEq] at hactual
        rw [if_pos hactual]
        exact ha
      · rename_i e hnot hlookup
        have hfile := hx e hlookup
        have hform : e = ⟨.file x.2, e.mine⟩ := by rw [← hfile]
        exact (hnot x.2 e.mine hform).elim
    · intro y hy e he
      exact hkind y (by simp [hy]) e ((onto_removeInstalled a x).lookup _ _ he)

theorem parent_ne_self (hp : p ≠ []) : parent p ≠ p := by
  intro h
  have hlength := congrArg List.length h
  have hpos := List.length_pos_iff.mpr hp
  simp only [parent, List.length_dropLast] at hlength
  omega

/-- Directories go from the innermost out, when everything in them is to go. -/
theorem removeCreated_succeeds (ha : a.failed = false) (directories : List Path)
    (hkind : ∀ p ∈ directories, ∀ e, a.world.entries.lookup p = some e → e.kind = .directory)
    (hinside : ∀ p ∈ a.world.entries, p ≠ [] → parent p ∈ directories → p ∈ directories)
    (hordered : directories.Pairwise fun p q => p ≠ q ∧ p ≠ parent q) :
    (directories.foldl (removeCreated faultless) a).failed = false := by
  induction directories generalizing a with
  | nil => exact ha
  | cons d directories ih =>
    obtain ⟨hd, hordered⟩ := List.pairwise_cons.mp hordered
    have hempty : isEmpty a.world.entries d = true := by
      rw [isEmpty_iff]
      intro p hp
      by_contra hchild
      rw [not_or, not_not] at hchild
      obtain ⟨hroot, hparent⟩ := hchild
      have hmem := hinside p hp hroot (by simp [hparent])
      rw [List.mem_cons] at hmem
      obtain rfl | hmem := hmem
      · exact parent_ne_self hroot hparent
      · exact (hd p hmem).2 hparent.symm
    have hsucceeds : (removeCreated faultless a d).failed = false := by
      unfold removeCreated
      split
      · exact ha
      · simp [Attempt.removeUnless, faultless, hempty, ha]
      · rename_i e hnot hlookup
        have hform : e = ⟨.directory, e.mine⟩ := by rw [← hkind d (by simp) e hlookup]
        exact (hnot e.mine hform).elim
    have honto := @onto_removeCreated faultless a d
    apply ih hsucceeds _ _ hordered
    · intro p hp e he
      exact hkind p (by simp [hp]) e (honto.lookup p e he)
    · intro p hp hroot hparent
      obtain ⟨e, he⟩ := Finmap.mem_iff.mp hp
      have hmem := hinside p (Finmap.mem_of_lookup_eq_some (honto.lookup p e he)) hroot
        (by simp [hparent])
      rw [List.mem_cons] at hmem
      obtain rfl | hmem := hmem
      · exact absurd hp (removeCreated_gone hsucceeds)
      · exact hmem

/-! ## The whole rollback -/

def Recorded (w : World) (p : Path) : Prop :=
  p ∈ w.createdDirectories ∨ p ∈ w.installedDestinations ∨ w.pendingDestination = some p

/-- The targets are removed and the units reloaded. -/
def uninstalled (faults : Faults) (w : World) : Attempt :=
  let removed := (w.installedDestinations.zip w.installedHashes).reverse.foldl (removeInstalled faults)
    (removePending faults (disableServices faults w))
  if faults.reload then removed.fail else removed

def rolledBack (faults : Faults) (w : World) : Attempt :=
  w.createdDirectories.reverse.foldl (removeCreated faults) (uninstalled faults w)

theorem rollbackInstallation_eq (faults : Faults) (w : World) : rollbackInstallation faults w =
    if w.installedHashes.length < w.installedDestinations.length then none
    else some (rolledBack faults w) := rfl

@[simp] theorem disableServices_entries :
    (disableServices faults w).world.entries = w.entries := by
  unfold disableServices
  split <;> rfl

@[simp] theorem disableServices_pending :
    (disableServices faults w).world.pendingDestination = w.pendingDestination := by
  unfold disableServices
  split <;> rfl

theorem onto_uninstalled : (removePending faults (disableServices faults w)).Onto
    (uninstalled faults w) := by
  have hloop := onto_foldl (@onto_removeInstalled faults)
    (w.installedDestinations.zip w.installedHashes).reverse
    (removePending faults (disableServices faults w))
  unfold uninstalled
  dsimp only
  split
  · exact hloop.trans (Attempt.onto_fail _)
  · exact hloop

theorem onto_rolledBack : (uninstalled faults w).Onto (rolledBack faults w) :=
  onto_foldl onto_removeCreated _ _

theorem disableServices_onto : (disableServices faults w).Onto (rolledBack faults w) :=
  ((onto_removePending _).trans onto_uninstalled).trans onto_rolledBack

/-- What is not recorded stays. -/
theorem rolledBack_keeps (hp : w.entries.lookup p = some e) (hrecorded : ¬ Recorded w p) :
    (rolledBack faults w).world.entries.lookup p = some e := by
  simp only [Recorded, not_or] at hrecorded
  obtain ⟨hcreated, hinstalled, hpending⟩ := hrecorded
  have hunpended : (removePending faults (disableServices faults w)).world.entries.lookup p = some e := by
    apply keepsOthers_removePending _ p e
    · rwa [disableServices_entries]
    · rwa [disableServices_pending]
  have hremoved := keepsOthers_foldl (@keepsOthers_removeInstalled faults)
    (w.installedDestinations.zip w.installedHashes).reverse _ p e hunpended (by
      rintro ⟨x, hx, rfl⟩
      exact hinstalled (List.of_mem_zip (List.mem_reverse.mp hx)).1)
  have huninstalled : (uninstalled faults w).world.entries.lookup p = some e := by
    unfold uninstalled
    dsimp only
    split
    · exact hremoved
    · exact hremoved
  apply keepsOthers_foldl keepsOthers_removeCreated _ _ p e huninstalled
  rintro ⟨d, hd, rfl⟩
  exact hcreated (List.mem_reverse.mp hd)

theorem rolledBack_inDirectories (h : InDirectories w.entries) :
    InDirectories (rolledBack faults w).world.entries := by
  have hpending : InDirectories (removePending faults (disableServices faults w)).world.entries := by
    apply removePending_inDirectories
    rwa [disableServices_entries]
  have hremoved := inDirectories_foldl (fun _ x h => @removeInstalled_inDirectories faults _ h x)
    (w.installedDestinations.zip w.installedHashes).reverse _ hpending
  apply inDirectories_foldl fun _ d h => removeCreated_inDirectories h d
  unfold uninstalled
  dsimp only
  split
  · exact hremoved
  · exact hremoved

/-- The targets and the staging file are gone, unless something failed. -/
theorem uninstalled_gone (hlength : w.installedDestinations.length ≤ w.installedHashes.length)
    (hfailed : (uninstalled faults w).failed = false)
    (hrecorded : p ∈ w.installedDestinations ∨ w.pendingDestination = some p) :
    p ∉ (uninstalled faults w).world.entries := by
  have hunpended := failed_of_onto onto_uninstalled hfailed
  obtain hinstalled | hpending := hrecorded
  · rw [← List.map_fst_zip hlength, List.mem_map] at hinstalled
    obtain ⟨x, hx, rfl⟩ := hinstalled
    unfold uninstalled at hfailed ⊢
    dsimp only at hfailed ⊢
    split at hfailed
    · cases hfailed
    · rename_i hreload
      rw [if_neg hreload]
      exact foldl_gone Prod.fst onto_removeInstalled (fun _ _ h => removeInstalled_gone h) _ _ hfailed
        (List.mem_reverse.mpr hx)
  · apply absent_of_onto onto_uninstalled
    exact removePending_gone (by rwa [disableServices_pending]) hunpended

/-- What is recorded is gone, unless something failed. -/
theorem rolledBack_gone (hlength : w.installedDestinations.length ≤ w.installedHashes.length)
    (hfailed : (rolledBack faults w).failed = false) (hrecorded : Recorded w p) :
    p ∉ (rolledBack faults w).world.entries := by
  have huninstalled := failed_of_onto onto_rolledBack hfailed
  obtain hcreated | hrecorded := hrecorded
  · exact foldl_gone id onto_removeCreated (fun _ _ h => removeCreated_gone h) _ _ hfailed
      (List.mem_reverse.mpr hcreated)
  · exact absent_of_onto onto_rolledBack (uninstalled_gone hlength huninstalled hrecorded)

theorem disableServices_off (hfailed : (disableServices faults w).failed = false)
    (hservice : w.serviceMutationStarted = false → ∀ name, w.service name = .off) (name : Service) :
    (disableServices faults w).world.service name = .off := by
  cases hstarted : w.serviceMutationStarted with
  | true =>
    simp only [disableServices, hstarted, if_true, Service.all, List.any_cons, List.any_nil,
      Bool.or_false, Bool.or_eq_false_iff, decide_eq_false_iff_not, ne_eq, not_not] at hfailed ⊢
    cases name with
    | containerd => exact hfailed.1
    | kubelet => exact hfailed.2
  | false =>
    simp only [disableServices, hstarted, Bool.false_eq_true, if_false]
    exact hservice hstarted name

end KubernetesInstall
