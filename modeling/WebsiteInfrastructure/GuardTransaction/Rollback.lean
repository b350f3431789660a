import Mathlib
import WebsiteInfrastructure.GuardTransaction.Undoing

/-!
# The rollback of an attempt

While no command fails, recovery takes every open and undecided attempt back to its prestate, from
wherever it was killed.
-/

namespace GuardTransaction

open Crash

variable {j : Journal} {s : Host}

/-! ## Before and after -/

/-- What the rollback of an attempt relies on. -/
structure Ready (j : Journal) (s : Host) : Prop where
  loads : LoadSound s
  contents : ∀ result, (s.receipts (receiptPath j result)).Shows (mainReceipt j result)
  table : s.table ≠ .other
  machine : Undoable j.prestate s.machine
  /-- A retrofit takes over a running kubelet. -/
  retrofit : j.mode = .retrofit → j.prestate.kubelet = true

/-- The current attempt has not passed, and can be undone. -/
structure Undoing (j : Journal) (s : Host) : Prop where
  ready : Ready j s
  journal : s.journal = some j
  unpassed : ¬ s.IsPublished (receiptPath j .pass)

/-- The attempt is closed as rolled back, and its prestate restored. -/
structure Finished (j : Journal) (s : Host) : Prop where
  loads : LoadSound s
  closed : LoadsClosed s
  journal : s.journal = some { j with
    phase := .rolledBack, receipt := some (mainReceipt j .rollbackVerified) }
  receipt : s.receipts (receiptPath j .rollbackVerified) = .published (mainReceipt j .rollbackVerified)
  machine : s.machine.IsSound
  restored : Restored j.prestate s

theorem LoadSound.congr {t : Host} (hs : LoadSound s) (hload : t.loadJournal = s.loadJournal)
    (hreceipts : ∀ name, name.owner = .load → t.receipts name = s.receipts name) : LoadSound t := by
  constructor
  · intro l hl result
    rw [hreceipts _ rfl]
    exact hs.contents l (hload ▸ hl) result
  · intro l hl
    have hsound := hs.journal l (hload ▸ hl)
    refine ⟨hsound.prestate, hsound.intent, fun result hresult => ?_⟩
    rw [hreceipts _ rfl]
    exact hsound.closed result hresult

theorem Ready.loadKeeps {t : Host} (h : Ready j s) (hkeeps : LoadKeeps s t) : Ready j t := by
  constructor
  · exact hkeeps.sound
  · intro result
    rw [hkeeps.receipts _ (by simp [receiptPath])]
    exact h.contents result
  · exact hkeeps.table.elim (fun htable => htable ▸ h.table) id
  · rw [hkeeps.machine]
    exact h.machine
  · exact h.retrofit

theorem Undoing.loadKeeps {t : Host} (h : Undoing j s) (hkeeps : LoadKeeps s t) : Undoing j t := by
  refine ⟨h.ready.loadKeeps hkeeps, hkeeps.journal.trans h.journal, ?_⟩
  rw [Host.IsPublished, hkeeps.receipts _ (by simp [receiptPath])]
  exact h.unpassed

theorem Ready.withMachine (h : Ready j s) {m : Machine} (hm : Undoable j.prestate m) :
    Ready j { s with machine := m } :=
  ⟨h.loads.congr rfl fun _ _ => rfl, h.contents, h.table, hm, h.retrofit⟩

theorem Undoing.withMachine (h : Undoing j s) {m : Machine} (hm : Undoable j.prestate m) :
    Undoing j { s with machine := m } := ⟨h.ready.withMachine hm, h.journal, h.unpassed⟩

theorem Undoing.withoutTable (h : Undoing j s) : Undoing j { s with table := .absent } :=
  ⟨⟨h.ready.loads.congr rfl fun _ _ => rfl, h.ready.contents, by simp, h.ready.machine,
    h.ready.retrofit⟩, h.journal, h.unpassed⟩

theorem Ready.setReceipt {result : Result} {slot : Slot} (h : Ready j s)
    (hslot : slot.Shows (mainReceipt j result)) : Ready j (s.setReceipt (receiptPath j result) slot) := by
  refine ⟨h.loads.congr rfl fun name hname => ?_, fun result' => ?_, h.table, h.machine, h.retrofit⟩
  · refine setReceipt_of_ne s slot fun heq => ?_
    simp [heq, receiptPath] at hname
  · by_cases heq : result' = result
    · subst heq
      rw [setReceipt_self]
      exact hslot
    · rw [setReceipt_of_ne s slot (by simp [receiptPath, heq])]
      exact h.contents result'

theorem Undoing.setReceipt {result : Result} {slot : Slot} (h : Undoing j s)
    (hslot : slot.Shows (mainReceipt j result)) (hresult : result = .pass → slot.exists = false) :
    Undoing j (s.setReceipt (receiptPath j result) slot) := by
  refine ⟨h.ready.setReceipt hslot, h.journal, fun hp => ?_⟩
  by_cases heq : result = .pass
  · subst heq
    simp [Host.IsPublished, hresult rfl] at hp
  · refine h.unpassed ((isPublished_setReceipt_of_ne ?_).mp hp)
    simp [receiptPath, Ne.symm heq]

/-! ## The parts on the machine -/

/-- A part of the rollback, which no command disturbs. -/
def Rolls {α : Type} (j : Journal) (p : Recovery α) (s : Host) (post : α → Host → Prop) : Prop :=
  Holds noFault (fun _ t => Undoing j t ∨ Finished j t) post (fun _ _ => False) p s

theorem Rolls.seq {α β : Type} {p : Recovery α} {k : α → Recovery β} {post : α → Host → Prop}
    {post' : β → Host → Prop} (hp : Rolls j p s post)
    (hk : ∀ a t, post a t → Rolls j (k a) t post') : Rolls j (p >>= k) s post' :=
  Holds.seq hp (fun _ _ h => h) hk

theorem rolls_orExit {post : Unit → Host → Prop} (h : post () s) : Rolls j (.orExit ()) s post :=
  holds_orExit.mpr ⟨h, fun h => h⟩

theorem rolls_require {b : Bool} {post : Unit → Host → Prop} (hb : b = true) (h : post () s) :
    Rolls j (.require b ()) s post :=
  holds_require.mpr (by rw [if_pos hb]; exact h)

theorem removeFile_eq_self {p : Prestate} {m : Machine} {a : Artifact} (h : m.file a = .absent) :
    m.removeFile p a = m := by
  rw [Machine.removeFile]
  split_ifs
  · rw [← h, Function.update_eq_self]
  · rfl

theorem removeDirectory_eq_self {p : Prestate} {m : Machine} {d : Directory}
    (h : m.directory d = false) : m.removeDirectory p d = m := by
  rw [Machine.removeDirectory]
  split_ifs
  · rw [← h, Function.update_eq_self]
  · rfl

theorem removeIfCreated_rolls (h : Undoing j s) (a : Artifact)
    (hstopped : a = .unit → s.machine.guard = false ∧ s.machine.queued = false) :
    Rolls j (removeIfCreated (j.prestate.file a) a) s
      (fun _ t => t = { s with machine := s.machine.removeFile j.prestate a }) := by
  have hnext := h.withMachine (h.ready.machine.removeFile a hstopped)
  unfold removeIfCreated
  cases hpre : j.prestate.file a with
  | exact =>
    show s = _
    simp [Machine.removeFile, hpre]
  | absent =>
    refine holds_bind.mpr (holds_get.mpr ?_)
    cases hfile : s.machine.file a with
    | absent =>
      show s = _
      rw [removeFile_eq_self hfile]
    | other => exact absurd hfile (h.ready.machine.known a)
    | exact =>
      have hremove : s.setFile a .absent = { s with machine := s.machine.removeFile j.prestate a } := by
        simp [Host.setFile, Machine.removeFile, hpre]
      simp only [holds_bind, holds_orExit, holds_modify, hremove]
      exact ⟨⟨.inl hnext, trivial, fun h => h⟩, fun h => h⟩

theorem removeFiles_rolls (h : Undoing j s) (as : List Artifact)
    (hstopped : s.machine.guard = false ∧ s.machine.queued = false) :
    Rolls j (removeFiles j.prestate as) s
      (fun _ t => Undoing j t ∧ t = { s with machine := s.machine.removeFiles j.prestate as }) := by
  induction as generalizing s with
  | nil => exact ⟨h, rfl⟩
  | cons a rest ih =>
    refine (removeIfCreated_rolls h a fun _ => hstopped).seq ?_
    rintro _ t rfl
    obtain ⟨-, -, hguard, -, hqueued⟩ := removeFile_same (p := j.prestate) (m := s.machine) a
    have hnext := h.withMachine (h.ready.machine.removeFile a fun _ => hstopped)
    exact ih hnext ⟨hguard.trans hstopped.1, hqueued.trans hstopped.2⟩

theorem removeDirectoryIfCreated_rolls (h : Undoing j s) (d : Directory)
    (hempty : j.prestate.directory d = .absent → s.machine.isOccupied d = false) :
    Rolls j (removeDirectoryIfCreated (j.prestate.directory d) d) s
      (fun _ t => Undoing j t ∧
        t = { s with machine := s.machine.removeDirectory j.prestate d }) := by
  have hnext := h.withMachine (h.ready.machine.removeDirectory d hempty)
  unfold removeDirectoryIfCreated
  cases hpre : j.prestate.directory d with
  | exact =>
    refine ⟨h, ?_⟩
    simp [Machine.removeDirectory, hpre]
  | absent =>
    refine holds_bind.mpr (holds_get.mpr ?_)
    cases hpresent : s.machine.directory d with
    | false =>
      refine ⟨h, ?_⟩
      rw [removeDirectory_eq_self hpresent]
    | true =>
      have hremove : s.setDirectory d false =
          { s with machine := s.machine.removeDirectory j.prestate d } := by
        simp [Host.setDirectory, Machine.removeDirectory, hpre]
      simp only [Bool.not_true, Bool.false_eq_true, if_false, holds_bind, holds_orExit, holds_require,
        hempty hpre, Bool.not_false, if_true, holds_modify, hremove]
      exact ⟨⟨.inl hnext, ⟨hnext, trivial⟩, fun h => h⟩, fun h => h⟩

theorem restoreKubelet_rolls (h : Undoing j s) :
    Rolls j (restoreKubelet j.prestate) s
      (fun _ t => t = { s with machine := { s.machine with kubelet := j.prestate.kubelet } }) := by
  have hnext : Undoing j { s with machine := { s.machine with kubelet := j.prestate.kubelet } } :=
    h.withMachine (h.ready.machine.units h.ready.machine.enabled id h.ready.machine.machine.stopped)
  have hsame : s.machine.kubelet = j.prestate.kubelet →
      s = { s with machine := { s.machine with kubelet := j.prestate.kubelet } } := fun heq => by
    rw [← heq]
  refine holds_bind.mpr (holds_get.mpr ?_)
  have hkubelet := h.ready.machine.kubelet
  cases hpre : j.prestate.kubelet with
  | false =>
    have hnow : s.machine.kubelet = false := by
      by_contra hne
      simp [hkubelet (by simpa using hne)] at hpre
    simp only [hnow, Bool.false_and, Bool.false_eq_true, if_false, holds_require, Bool.false_or,
      Bool.not_false, if_true]
    rw [hpre] at hsame
    exact hsame hnow
  | true =>
    rw [hpre] at hsame hnext
    cases hnow : s.machine.kubelet with
    | true =>
      simp only [Bool.not_true, Bool.and_false, Bool.false_eq_true, if_false, holds_require,
        Bool.true_or, if_true]
      exact hsame hnow
    | false =>
      simp only [Bool.not_false, Bool.and_true, if_true, holds_bind, holds_orExit, holds_modify]
      exact ⟨⟨.inl hnext, trivial, fun h => h⟩, fun h => h⟩

theorem verifyClusterHealth_rolls {post : Unit → Host → Prop} (h : post () s) :
    Rolls j (verifyClusterHealth j) s post := by
  rw [verifyClusterHealth]
  split_ifs
  · exact rolls_orExit h
  · exact h

theorem stopGuard_rolls (h : Undoing j s) (hkubelet : s.machine.kubelet = j.prestate.kubelet)
    (hdropin : j.prestate.kubelet = true → s.machine.file .dropin = .absent) :
    Rolls j (stopGuard j.prestate) s (fun _ t => t = { s with machine := s.machine.stopped }) := by
  have hnext : Undoing j { s with machine := s.machine.stopped } :=
    h.withMachine (h.ready.machine.units h.ready.machine.enabled h.ready.machine.kubelet
      fun _ => ⟨rfl, rfl⟩)
  have hrest : Rolls j (do
      let s ← .get
      .require (!j.prestate.kubelet || s.machine.kubelet) ()) { s with machine := s.machine.stopped }
      (fun _ t => t = { s with machine := s.machine.stopped }) := by
    refine holds_bind.mpr (holds_get.mpr (rolls_require ?_ rfl))
    show (!j.prestate.kubelet || s.machine.kubelet) = true
    rw [hkubelet, Bool.not_or_self]
  rw [stopGuard]
  refine holds_bind.mpr (holds_get.mpr ?_)
  by_cases hunit : s.machine.file .unit = .absent
  · obtain ⟨hguard, hqueued⟩ := h.ready.machine.machine.stopped hunit
    have hsame : s = { s with machine := s.machine.stopped } := by
      rw [Machine.stopped, ← hguard]
      nth_rewrite 2 [hguard]
      rw [← hqueued]
    rw [if_neg (by simp [hunit])]
    rw [← hsame] at hrest
    rw [← hsame]
    exact hrest
  · rw [if_pos hunit]
    have hstop : s.stopGuard = { s with machine := s.machine.stopped } := by
      rw [Host.stopGuard, Machine.stopped]
      congr 2
      cases hnow : s.machine.kubelet with
      | false => rfl
      | true => simp [hdropin (hkubelet ▸ hnow)]
    refine holds_bind.mpr (holds_orExit.mpr ⟨?_, fun h => h⟩)
    refine holds_bind.mpr (holds_modify.mpr ⟨?_, ?_⟩)
    · rw [hstop]
      exact .inl hnext
    · rw [hstop]
      exact hrest

theorem disableGuard_rolls (h : Undoing j s) :
    Rolls j (disableGuard j.prestate) s (fun _ t => t = { s with
      machine := { s.machine with enabled := s.machine.enabled && j.prestate.enabled } }) := by
  rw [disableGuard]
  cases hpre : j.prestate.enabled with
  | true =>
    simp only [Bool.not_true, Bool.false_eq_true, if_false, Bool.and_true]
    exact rfl
  | false =>
    simp only [Bool.not_false, if_true, holds_bind, holds_orExit, holds_modify, Bool.and_false, Rolls]
    have hnext : Undoing j { s with machine := { s.machine with enabled := false } } :=
      h.withMachine (h.ready.machine.units (by simp [hpre]) h.ready.machine.kubelet
        h.ready.machine.machine.stopped)
    exact ⟨⟨.inl hnext, trivial⟩, fun h => h⟩

/-! ## The table -/

theorem removeTable_rolls (h : Undoing j s) :
    Rolls j (removeTable j.prestate) s (fun _ t => t = { s with table := .absent }) := by
  have hnext := h.withoutTable
  cases htable : s.table with
  | other => exact absurd htable h.ready.table
  | absent =>
    have hsame : s = { s with table := .absent } := by rw [← htable]
    simp only [Rolls, removeTable, holds_bind, holds_orExit, holds_verifyAbsentCapture, htable,
      decide_true, if_true, holds_pure]
    exact ⟨⟨hsame, fun h => h.elim⟩, fun h => h⟩
  | exact creator =>
    simp only [Rolls, removeTable, deleteOwnedTableAndProveAbsent, nft, holds_bind, holds_orExit,
      holds_verifyAbsentCapture, holds_verifyLiveCapture, holds_ite, holds_pure, holds_get,
      holds_succeeds, holds_modify, holds_require, htable, Table.isExact,
      h.ready.machine.prestate.table, noFault]
    simp [hnext]

/-! ## The machine after the rollback -/

/-- Drop-in, kubelet and guard, before the table is removed. -/
def Machine.quieted (m : Machine) (p : Prestate) : Machine :=
  { m.removeFile p .dropin with kubelet := p.kubelet }.stopped

/-- Enablement and files, after it. -/
def Machine.stripped (m : Machine) (p : Prestate) : Machine :=
  { m with enabled := m.enabled && p.enabled }.removeFiles p removalOrder

def Machine.removeDirectories (m : Machine) (p : Prestate) : List Directory → Machine
  | [] => m
  | d :: rest => (m.removeDirectory p d).removeDirectories p rest

def Machine.undone (m : Machine) (p : Prestate) : Machine :=
  ((m.quieted p).stripped p).removeDirectories p directoryRemovalOrder

section Undone

variable {p : Prestate} {m : Machine}

theorem removeDirectories_directory (ds : List Directory) (x : Directory) :
    (m.removeDirectories p ds).directory x =
      if x ∈ ds ∧ p.directory x = .absent then false else m.directory x := by
  induction ds generalizing m with
  | nil => simp [Machine.removeDirectories]
  | cons d rest ih =>
    rw [Machine.removeDirectories, ih, removeDirectory_directory]
    by_cases hx : x = d
    · subst hx
      by_cases habsent : p.directory x = .absent <;> simp [habsent]
    · simp [hx]

theorem removeDirectories_same (ds : List Directory) : (m.removeDirectories p ds).file = m.file ∧
    (m.removeDirectories p ds).enabled = m.enabled ∧ (m.removeDirectories p ds).guard = m.guard ∧
    (m.removeDirectories p ds).kubelet = m.kubelet := by
  induction ds generalizing m with
  | nil => exact ⟨rfl, rfl, rfl, rfl⟩
  | cons d rest ih =>
    obtain ⟨h₁, h₂, h₃, h₄, -⟩ := removeDirectory_same (p := p) (m := m) d
    obtain ⟨h₁', h₂', h₃', h₄'⟩ := ih (m := m.removeDirectory p d)
    exact ⟨h₁'.trans h₁, h₂'.trans h₂, h₃'.trans h₃, h₄'.trans h₄⟩

theorem stripped_file (a : Artifact) : ((m.quieted p).stripped p).file a =
    if p.file a = .absent then .absent else m.file a := by
  rw [Machine.stripped, removeFiles_file]
  show (if _ then _ else (m.removeFile p .dropin).file a) = _
  rw [removeFile_file]
  by_cases hdropin : a = .dropin
  · subst hdropin
    simp [removalOrder]
  · have hmem : a ∈ removalOrder := by
      cases a <;> simp [removalOrder] at hdropin ⊢
    simp [hmem, hdropin]

theorem undone_file (a : Artifact) :
    (m.undone p).file a = if p.file a = .absent then .absent else m.file a := by
  rw [Machine.undone, (removeDirectories_same _).1, stripped_file]

theorem undone_directory (d : Directory) :
    (m.undone p).directory d = if p.directory d = .absent then false else m.directory d := by
  have hmem : d ∈ directoryRemovalOrder := by
    cases d <;> simp [directoryRemovalOrder]
  rw [Machine.undone, removeDirectories_directory, Machine.stripped, (removeFiles_same _).1]
  simp only [hmem, true_and]
  congr 1
  exact congrFun (removeFile_same _).1 d

theorem undone_units : (m.undone p).guard = false ∧ (m.undone p).kubelet = p.kubelet ∧
    (m.undone p).enabled = (m.enabled && p.enabled) := by
  obtain ⟨-, henabled, hguard, hkubelet⟩ :=
    removeDirectories_same (p := p) (m := (m.quieted p).stripped p) directoryRemovalOrder
  obtain ⟨-, henabled', hguard', hkubelet', -⟩ := removeFiles_same (p := p)
    (m := { m.quieted p with enabled := (m.quieted p).enabled && p.enabled }) removalOrder
  refine ⟨hguard.trans hguard', hkubelet.trans hkubelet', henabled.trans (henabled'.trans ?_)⟩
  exact congrArg (· && p.enabled) (removeFile_same (p := p) (m := m) .dropin).2.1

theorem Undoable.undone_existence (h : Undoable p m) (a : Artifact) :
    ((m.undone p).file a).existence = p.file a := by
  rw [undone_file]
  cases hpre : p.file a with
  | absent => simp [FileState.existence]
  | exact => simp [h.file a hpre, FileState.existence]

theorem Undoable.undone_isEnabled (h : Undoable p m) : (m.undone p).isEnabled = p.enabled := by
  rw [Machine.isEnabled, undone_units.2.2, undone_file]
  cases hpre : p.enabled with
  | false => simp
  | true =>
    have hunit := h.prestate.enabled hpre
    simp [h.enabled hpre, hunit, h.file .unit hunit]

theorem Undoable.undone_present (h : Undoable p m) (d : Directory) :
    (if (m.undone p).directory d then Existence.exact else .absent) = p.directory d := by
  rw [undone_directory]
  cases hpre : p.directory d with
  | absent => simp
  | exact => simp [h.directory d hpre]

/-- The prestate, taken again, is the journaled one. -/
theorem Undoable.undone_prestate (h : Undoable p m) : (m.undone p).prestate = p := by
  apply Prestate.ext
  · exact h.prestate.table.symm
  · exact undone_units.2.1
  · exact h.undone_isEnabled
  · exact funext h.undone_existence
  · exact funext h.undone_present

theorem Undoable.undone_known (h : Undoable p m) (a : Artifact) : (m.undone p).file a ≠ .other := by
  rw [undone_file]
  split_ifs
  · simp
  · exact h.known a

end Undone

/-! ## The whole rollback -/

/-- A directory of the attempt is empty once the files and the directories in it are removed. -/
theorem Undoable.isOccupied {p : Prestate} {m : Machine} (h : Undoable p m) {d : Directory}
    (habsent : p.directory d = .absent) (hfiles : ∀ a, p.file a = .absent → m.file a = .absent)
    (hdirectory : ∀ d', d'.parent? = some d → p.directory d' = .absent → m.directory d' = false) :
    m.isOccupied d = false := by
  have hfile : ∀ a, a.directory? = some d → m.file a = .absent := by
    intro a ha
    apply hfiles
    cases hpre : p.file a with
    | absent => rfl
    | exact => simp [h.prestate.file a d ha hpre] at habsent
  simp only [Machine.isOccupied, Bool.or_eq_false_iff, List.any_eq_false, Bool.and_eq_true,
    decide_eq_true_eq, not_and, Bool.and_eq_false_imp]
  refine ⟨fun a _ ha hne => hne (hfile a ha), fun hparent => ?_⟩
  apply hdirectory .library hparent
  cases hpre : p.directory .library with
  | absent => rfl
  | exact => simp [h.prestate.directory .library d hparent hpre] at habsent

theorem removeDirectories_rolls (h : Undoing j s) (ds : List Directory)
    (hfiles : ∀ a, j.prestate.file a = .absent → s.machine.file a = .absent)
    (horder : ds.Pairwise fun d d' => d'.parent? ≠ some d)
    (hdirectory : ∀ d ∈ ds, ∀ d', d'.parent? = some d → d' ∈ ds ∨
      (j.prestate.directory d' = .absent → s.machine.directory d' = false)) :
    Rolls j (removeDirectories j.prestate ds) s (fun _ t => Undoing j t ∧
      t = { s with machine := s.machine.removeDirectories j.prestate ds }) := by
  induction ds generalizing s with
  | nil => exact ⟨h, rfl⟩
  | cons d rest ih =>
    rw [List.pairwise_cons] at horder
    refine (removeDirectoryIfCreated_rolls h d fun habsent => ?_).seq ?_
    · refine h.ready.machine.isOccupied habsent hfiles fun d' hd' => ?_
      -- a directory in this one comes before it
      refine (hdirectory d (by simp) d' hd').resolve_left fun hmem => ?_
      rcases List.mem_cons.mp hmem with rfl | hmem
      · cases d' <;> simp [Directory.parent?] at hd'
      · exact horder.1 d' hmem hd'
    · rintro _ t ⟨ht, rfl⟩
      refine ih ht ?_ horder.2 fun d' hd' d'' hd'' => ?_
      · rw [(removeDirectory_same _).1]
        exact hfiles
      · have hother := hdirectory d' (List.mem_cons_of_mem _ hd') d'' hd''
        rw [List.mem_cons] at hother
        rw [removeDirectory_directory]
        by_cases hremoved : d'' = d
        · subst hremoved
          exact .inr fun habsent => by simp [habsent]
        · simpa [hremoved] using hother

theorem verifyRestored_rolls {m : Machine} (hm : Undoable j.prestate m)
    (hs : s.machine = m.undone j.prestate) :
    Rolls j (verifyRestored j.prestate) s (fun _ t => t = s) := by
  have hprestate := hm.undone_prestate
  rw [← hs] at hprestate
  have hunit : s.machine.guardUnitPrestate (j.prestate.file .unit) = true := by
    have hexistence := hm.undone_existence .unit
    rw [← hs] at hexistence
    have hguard : s.machine.guard = false := by rw [hs]; exact undone_units.1
    rw [Machine.guardUnitPrestate, hguard, ← hexistence]
    cases s.machine.file .unit <;> simp [FileState.existence]
  have hdropin : (decide (j.prestate.file .dropin = .exact) ||
      decide (s.machine.file .dropin = .absent)) = true := by
    rw [hs, undone_file]
    cases j.prestate.file .dropin <;> simp
  have hkubelet : s.machine.kubelet = j.prestate.kubelet := congrArg Prestate.kubelet hprestate
  have henabled : s.machine.isEnabled = j.prestate.enabled := congrArg Prestate.enabled hprestate
  refine holds_bind.mpr (rolls_orExit ?_)
  refine holds_bind.mpr (holds_get.mpr ?_)
  refine holds_bind.mpr (rolls_require (decide_eq_true hkubelet) ?_)
  refine holds_bind.mpr (rolls_require (decide_eq_true henabled) ?_)
  refine holds_bind.mpr (rolls_require hunit ?_)
  exact rolls_require hdropin rfl

/-- The guard is stopped, and nothing depends on it. -/
theorem quiet_rolls {α : Type} {k : Recovery α} {post : α → Host → Prop} (h : Undoing j s)
    (hk : ∀ t, Undoing j t → t = { s with machine := s.machine.quieted j.prestate } →
      Rolls j k t post) :
    Rolls j (do
      removeIfCreated (j.prestate.file .dropin) .dropin
      .orExit ()
      restoreKubelet j.prestate
      verifyClusterHealth j
      stopGuard j.prestate
      .orExit ()
      k) s post := by
  have hundoable := h.ready.machine
  refine (removeIfCreated_rolls h .dropin (by simp)).seq ?_
  rintro _ t rfl
  have h₁ := h.withMachine (hundoable.removeFile .dropin (by simp))
  refine holds_bind.mpr (rolls_orExit ?_)
  refine (restoreKubelet_rolls h₁).seq ?_
  rintro _ t rfl
  have h₂ := h₁.withMachine (h₁.ready.machine.units h₁.ready.machine.enabled id
    h₁.ready.machine.machine.stopped)
  refine holds_bind.mpr (verifyClusterHealth_rolls ?_)
  have hdropin : j.prestate.kubelet = true →
      (s.machine.removeFile j.prestate .dropin).file .dropin = .absent := by
    intro hkubelet
    rw [removeFile_file, if_pos ⟨rfl, hundoable.prestate.kubelet hkubelet⟩]
  refine (stopGuard_rolls h₂ rfl hdropin).seq ?_
  rintro _ t rfl
  have hquieted : Undoable j.prestate (s.machine.quieted j.prestate) :=
    h₂.ready.machine.units h₂.ready.machine.enabled h₂.ready.machine.kubelet fun _ => ⟨rfl, rfl⟩
  exact holds_bind.mpr (rolls_orExit (hk _ (h₂.withMachine hquieted) rfl))

/-- What was created is removed, and the prestate verified. -/
theorem strip_rolls {m : Machine} (h : Undoing j s) (hm : Undoable j.prestate m)
    (hs : s.machine = m.quieted j.prestate) {k : Recovery Unit} {post : Unit → Host → Prop}
    (hk : ∀ t, Undoing j t → t = { s with machine := m.undone j.prestate } → Rolls j k t post) :
    Rolls j (do
      disableGuard j.prestate
      removeFiles j.prestate removalOrder
      .orExit ()
      removeDirectories j.prestate directoryRemovalOrder
      verifyRestored j.prestate
      verifyClusterHealth j
      k) s post := by
  refine (disableGuard_rolls h).seq ?_
  rintro _ t rfl
  have h₁ : Undoing j { s with
      machine := { s.machine with enabled := s.machine.enabled && j.prestate.enabled } } := by
    refine h.withMachine (h.ready.machine.units (fun henabled => ?_) h.ready.machine.kubelet
      h.ready.machine.machine.stopped)
    simp [henabled, h.ready.machine.enabled henabled]
  have hstopped : s.machine.guard = false ∧ s.machine.queued = false := by
    rw [hs]
    exact ⟨rfl, rfl⟩
  refine (removeFiles_rolls h₁ removalOrder hstopped).seq ?_
  rintro _ t ⟨h₂, ht⟩
  have hstripped : t.machine = (m.quieted j.prestate).stripped j.prestate := by
    rw [ht, ← hs]
    rfl
  refine holds_bind.mpr (rolls_orExit ?_)
  refine (removeDirectories_rolls h₂ directoryRemovalOrder (fun a habsent => ?_) (by decide) ?_).seq ?_
  · rw [hstripped, stripped_file, if_pos habsent]
  · intro d hd d' hd'
    left
    cases d' <;> simp [directoryRemovalOrder]
  · rintro _ t' ⟨h₃, ht'⟩
    have hundone : t'.machine = m.undone j.prestate := by
      rw [ht', hstripped]
      rfl
    refine (verifyRestored_rolls hm hundone).seq ?_
    rintro _ _ rfl
    refine holds_bind.mpr (verifyClusterHealth_rolls (hk _ h₃ ?_))
    rw [← hundone, ht', ht]

theorem loadOnly_rolls {α : Type} {p : Recovery α} {post : α → Host → Prop} (h : Undoing j s)
    (hp : Holds noFault LoadOnly post (fun _ _ => False) p s) :
    Rolls j p s (fun r t => post r t ∧ Undoing j t) :=
  (hp.carry h fun _ _ h hkeeps => h.loadKeeps hkeeps.1).mono (fun _ _ h => .inl h.2.2)
    (fun _ _ h => h) fun _ _ h => h.1

/-- The receipt of the rollback, and the closed journal. -/
theorem close_rolls (h : Undoing j s) (hclosed : LoadsClosed s) (hrestored : Restored j.prestate s) :
    Rolls j (do
      let receipt ← writeReceipt j .rollbackVerified "absent" "restored" "restored" "verified" ()
      journalWrite { j with phase := .rolledBack, receipt := some receipt } ()) s
      (fun _ => Finished j) := by
  have hwrite : Holds noFault (Writes (receiptPath j .rollbackVerified) (mainReceipt j .rollbackVerified))
      (fun d t => d = mainReceipt j .rollbackVerified ∧
        t = s.setReceipt (receiptPath j .rollbackVerified) (.published (mainReceipt j .rollbackVerified)))
      (fun _ _ => False)
      (writeReceipt j .rollbackVerified "absent" "restored" "restored" "verified" ()) s :=
    writeReceipt_noFault rfl (h.ready.contents .rollbackVerified)
  have hcarried := hwrite.carry h fun s t h hstep => by
    obtain ⟨-, slot, hslot, rfl⟩ := hstep
    exact h.setReceipt hslot (by simp)
  refine (hcarried.mono (fun _ _ h => .inl h.2.2) (fun _ _ h => h) fun _ _ h => h.1).seq
    (fun _ _ h => h) ?_
  rintro _ t ⟨⟨rfl, rfl⟩, ht⟩
  have hfinished : Finished j { s.setReceipt (receiptPath j .rollbackVerified)
      (.published (mainReceipt j .rollbackVerified)) with journal := some { j with
        phase := .rolledBack, receipt := some (mainReceipt j .rollbackVerified) } } :=
    ⟨ht.ready.loads.congr rfl fun _ _ => rfl, hclosed, rfl, setReceipt_self _ _ _, ht.ready.machine.machine,
      hrestored.machine, hrestored.known, hrestored.table⟩
  simp only [journalWrite, holds_bind, holds_orExit, holds_modify]
  exact ⟨⟨.inr hfinished, hfinished, fun h => h⟩, fun h => h⟩

/-- The rollback of an attempt that can be undone. -/
theorem undo_rolls (h : Undoing j s) (hreconciled : Reconciled s) :
    Rolls j (undo j) s (fun _ => Finished j) := by
  have hm := h.ready.machine
  rw [undo]
  refine quiet_rolls h fun t ht heq => ?_
  have hreconciled' : Reconciled t := by
    rw [heq]
    exact hreconciled
  refine (removeTable_rolls ht).seq ?_
  rintro _ u rfl
  have hu := ht.withoutTable
  refine (loadOnly_rolls hu (closeLoad_noFault hu.ready.loads hreconciled')).seq ?_
  rintro _ v ⟨⟨-, hclosed, hframe, htable⟩, hv⟩
  have hmachine : v.machine = s.machine.quieted j.prestate := by
    rw [hframe.machine, heq]
  refine strip_rolls hv hm hmachine fun w hw hweq => ?_
  refine close_rolls hw ?_ ⟨?_, ?_, ?_⟩
  · rw [hweq]
    exact hclosed
  · rw [hweq]
    exact hm.undone_prestate
  · rw [hweq]
    exact hm.undone_known
  · rw [hweq]
    exact htable

end GuardTransaction
