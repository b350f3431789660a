import Mathlib
import WebsiteInfrastructure.GuardTransaction.Rollback

/-!
# Recovery of an undecided attempt

It ends with the prestate, however often it is killed, and then changes nothing.
-/

namespace GuardTransaction

open Crash

variable {j : Journal} {s : Host}

/-! ## Recovery of an undecided attempt -/

theorem Ready.inPhase (h : Ready j s) (phase : Phase) (receipt : Option Document) :
    Ready { j with phase, receipt } s := ⟨h.loads, h.contents, h.table, h.machine, h.retrofit⟩

theorem Ready.withJournal (h : Ready j s) (o : Option Journal) : Ready j { s with journal := o } :=
  ⟨h.loads.congr rfl fun _ _ => rfl, h.contents, h.table, h.machine, h.retrofit⟩

/-- The current attempt is open, and no receipt has decided it. -/
structure Undecided (j : Journal) (s : Host) : Prop extends Undoing j s where
  isOpen : j.phase.isClosed = false
  pending : j.phase = .awaitingRebootIntent → ¬ s.IsPublished (receiptPath j .pendingReboot)

/-- The attempt is undecided in some phase. -/
def StillOpen (j : Journal) (s : Host) : Prop := ∃ phase receipt, Undecided { j with phase, receipt } s

theorem Undecided.loadKeeps {t : Host} (h : Undecided j s) (hkeeps : LoadKeeps s t) :
    Undecided j t := by
  refine ⟨h.toUndoing.loadKeeps hkeeps, h.isOpen, fun hphase => ?_⟩
  rw [Host.IsPublished, hkeeps.receipts _ (by simp [receiptPath])]
  exact h.pending hphase

theorem Undecided.stillOpen (h : Undecided j s) : StillOpen j s := ⟨j.phase, j.receipt, h⟩

/-- The changes of a recovery, from the first to the last. -/
def Recovering (j : Journal) (t : Host) : Prop := StillOpen j t ∨ Finished j t

theorem rollback_noFault (h : Undoing j s) (hreconciled : Reconciled s) :
    Holds noFault (fun _ => Recovering j) (fun _ => Finished j) (fun _ _ => False) (rollback j) s := by
  have hintent : Undoing { j with phase := .rollbackIntent, receipt := none }
      { s with journal := some { j with phase := .rollbackIntent, receipt := none } } :=
    ⟨(h.ready.withJournal _).inPhase _ _, rfl, h.unpassed⟩
  have hopen : ∀ t, Undoing { j with phase := .rollbackIntent, receipt := none } t → Recovering j t :=
    fun t ht => .inl ⟨.rollbackIntent, none, ht, rfl, by simp⟩
  have hfinished : ∀ t, Finished { j with phase := .rollbackIntent, receipt := none } t → Finished j t :=
    fun t ht => ⟨ht.loads, ht.closed, ht.journal, ht.receipt, ht.machine, ht.restored⟩
  rw [rollback]
  simp only [journalWrite, holds_bind, holds_orExit, holds_modify, holds_trap]
  refine ⟨⟨hopen _ hintent, ?_, fun h => h⟩, fun h => h⟩
  have hundo := undo_rolls hintent hreconciled
  refine hundo.mono ?_ (fun _ t ht => hfinished t ht) fun _ _ hf => hf.elim
  exact fun _ t ht => ht.elim (hopen t) fun ht => .inr (hfinished t ht)

/-- What was not published is discarded. -/
theorem completeIntent_noFault {result : Result} {persistence dependency : String} {phase : Phase}
    (h : Undecided j s) (hresult : j.phase = .commitIntent ∧ result = .pass ∨
      j.phase = .awaitingRebootIntent ∧ result = .pendingReboot) (hreconciled : Reconciled s) :
    Holds noFault (fun _ => Recovering j)
      (fun done t => done = false ∧ Undecided j t ∧ Reconciled t) (fun _ _ => False)
      (completeIntent j result persistence dependency phase) s := by
  have hnot : (s.receipts (receiptPath j result)).exists = false := by
    obtain ⟨-, rfl⟩ | ⟨hphase, rfl⟩ := hresult
    · simpa [Host.IsPublished] using h.unpassed
    · simpa [Host.IsPublished] using h.pending hphase
  have hdiscarded : ∀ u, Undecided j u → Undecided j (u.setReceipt (receiptPath j result) .absent) := by
    intro u hu
    refine ⟨hu.toUndoing.setReceipt trivial fun _ => rfl, hu.isOpen, fun hphase hp => ?_⟩
    obtain heq | hp := isPublished_setReceipt hp
    · rw [heq] at hp
      simp [Host.IsPublished, Slot.exists] at hp
    · exact hu.pending hphase hp
  have hreconciled' : Reconciled (s.setReceipt (receiptPath j result) .absent) := by
    intro l hl hphase
    rw [setReceipt_of_ne s _ (by simp [receiptPath, loadReceiptPath])]
    exact hreconciled l hl hphase
  have hnot' : ¬ (s.receipts (receiptPath j result)).exists = true := by simp [hnot]
  rw [completeIntent]
  refine holds_bind.mpr (holds_get.mpr ?_)
  rw [if_neg hnot']
  dsimp only
  split
  · have hcarried := (@discardUnpublishedTemp_noFault s Unit () _ hnot).carry h fun u t hu hstep => by
      obtain ⟨-, rfl⟩ := hstep
      exact hdiscarded u hu
    refine (hcarried.mono (fun _ _ h => .inl h.2.2.stillOpen) (fun _ _ h => h) fun _ _ h => h.1).seq
      (fun _ _ h => h) ?_
    rintro _ t ⟨rfl, ht⟩
    exact ⟨rfl, ht, hreconciled'⟩
  · exact ⟨rfl, h, hreconciled⟩

/-- From every undecided state recovery ends with the prestate. -/
theorem recover_noFault (h : Undecided j s) (automatic : Bool) :
    Holds noFault (fun _ => Recovering j) (fun status t => status = 0 ∧ Finished j t)
      (fun _ _ => False) (recover j.bundle automatic) s := by
  have hroll : ∀ t, Undecided j t → Reconciled t →
      Holds noFault (fun _ => Recovering j) (fun status t => status = 0 ∧ Finished j t)
        (fun _ _ => False) (do rollback j; return 0 : Recovery ℕ) t := fun t ht hreconciled =>
    (rollback_noFault ht.toUndoing hreconciled).seq (fun _ _ h => h) fun _ _ h => ⟨rfl, h⟩
  rw [recover]
  refine holds_bind.mpr (holds_orExit.mpr ⟨?_, fun h => h⟩)
  refine holds_bind.mpr (holds_get.mpr ?_)
  rw [h.journal]
  refine holds_bind.mpr (holds_require.mpr ?_)
  rw [if_pos (by simp)]
  refine holds_bind.mpr (holds_orExit.mpr ⟨?_, fun h => h⟩)
  have hcarried := (reconcile_noFault h.ready.loads).carry h fun _ _ h hkeeps => h.loadKeeps hkeeps.1
  refine (hcarried.mono (fun _ _ h => .inl h.2.2.stillOpen) (fun _ _ h => h) fun _ _ h => h.1).seq
    (fun _ _ h => h) ?_
  rintro _ t ⟨⟨-, hreconciled, -⟩, ht⟩
  have hopen := h.isOpen
  cases hphase : j.phase with
  | prepared | artifactsInstalled | guardStartIntent | guardActive | dropinInstalled
  | kubeletRestartIntent | awaitingReboot | rollbackIntent | recoveryRequired =>
    exact hroll t ht hreconciled
  | committed | rolledBack => simp [hphase, Phase.isClosed] at hopen
  | commitIntent =>
    refine (completeIntent_noFault ht (.inl ⟨hphase, rfl⟩) hreconciled).seq (fun _ _ h => h) ?_
    rintro _ t' ⟨rfl, ht', hreconciled'⟩
    exact hroll t' ht' hreconciled'
  | awaitingRebootIntent =>
    refine (completeIntent_noFault ht (.inr ⟨hphase, rfl⟩) hreconciled).seq (fun _ _ h => h) ?_
    rintro _ t' ⟨rfl, ht', hreconciled'⟩
    exact hroll t' ht' hreconciled'

/-- Where it has ended, it changes nothing. -/
theorem recover_finished (h : Finished j s) (automatic : Bool) :
    Holds noFault (fun _ _ => False) (fun status t => status = 0 ∧ t = s) (fun _ _ => False)
      (recover j.bundle automatic) s := by
  have hreconcile : Holds noFault (fun _ _ => False) (fun _ t => t = s) (fun _ _ => False)
      reconcilePublishedLoadCommit s := by
    rw [reconcilePublishedLoadCommit]
    refine holds_bind.mpr (holds_get.mpr ?_)
    cases hl : s.loadJournal with
    | none => exact rfl
    | some l =>
      have hclosed := h.closed l hl
      refine holds_bind.mpr (holds_require.mpr ?_)
      rw [decide_eq_true (h.loads.journal l hl).prestate, if_pos rfl]
      cases hphase : l.phase with
      | committed | rolledBack | recoveryRequired =>
        exact verifyClosedLoadReceipt_noFault (fun _ h => h) h.loads hl hclosed
      | prepared | applyIntent | applied | commitIntent | rollbackIntent =>
        simp [hphase, LoadPhase.result?] at hclosed
  rw [recover]
  refine holds_bind.mpr (holds_orExit.mpr ⟨?_, fun h => h⟩)
  refine holds_bind.mpr (holds_get.mpr ?_)
  rw [h.journal]
  refine holds_bind.mpr (holds_require.mpr ?_)
  rw [if_pos (by simp)]
  refine holds_bind.mpr (holds_orExit.mpr ⟨?_, fun h => h⟩)
  refine hreconcile.seq (fun _ _ h => h) ?_
  rintro _ t rfl
  have hclosed : closedReceipt t { j with
      phase := .rolledBack, receipt := some (mainReceipt j .rollbackVerified) } = true := by
    have hreceipt : t.receipts (receiptPath { j with
        phase := .rolledBack, receipt := some (mainReceipt j .rollbackVerified) } .rollbackVerified) =
        .published (mainReceipt j .rollbackVerified) := h.receipt
    simp [closedReceipt, journalReceiptPath, hreceipt, Slot.rootFile?]
  simp only [holds_bind, holds_get, holds_require, hclosed, if_true, holds_orExit, holds_pure]
  exact ⟨⟨trivial, trivial⟩, fun h => h⟩

/-- Killed and started again in either way. -/
def Rerun (bundle : Bundle) : Host → Host → Prop :=
  Relation.ReflTransGen fun s t => ∃ automatic, Leaves noFault (recover bundle automatic) s t

theorem Finished.ofPhase {phase : Phase} {receipt : Option Document}
    (h : Finished { j with phase, receipt } s) : Finished j s :=
  ⟨h.loads, h.closed, h.journal, h.receipt, h.machine, h.restored⟩

theorem Recovering.ofPhase {phase : Phase} {receipt : Option Document}
    (h : Recovering { j with phase, receipt } s) : Recovering j s := by
  obtain ⟨phase', receipt', h⟩ | h := h
  · exact .inl ⟨phase', receipt', h⟩
  · exact .inr h.ofPhase

/-- Wherever a recovery is killed, it can be started again. -/
theorem Recovering.leaves {t : Host} {automatic : Bool} (h : Recovering j s)
    (hleaves : Leaves noFault (recover j.bundle automatic) s t) : Recovering j t := by
  have hkept : Holds noFault (fun s t => Recovering j s → Recovering j t) (fun _ _ => True)
      (fun _ _ => True) (recover j.bundle automatic) s := by
    obtain ⟨phase, receipt, h⟩ | h := h
    · exact (recover_noFault h automatic).mono (fun _ _ ht _ => ht.ofPhase)
        (fun _ _ _ => trivial) fun _ _ _ => trivial
    · exact (recover_finished h automatic).mono (fun _ _ h => h.elim)
        (fun _ _ _ => trivial) fun _ _ _ => trivial
  exact hkept.invariant h hleaves

theorem Recovering.rerun {t : Host} (h : Recovering j s) (hrerun : Rerun j.bundle s t) :
    Recovering j t := by
  induction hrerun with
  | refl => exact h
  | tail _ hstep ih =>
    obtain ⟨automatic, hleaves⟩ := hstep
    exact ih.leaves hleaves

theorem Recovering.run (h : Recovering j s) (automatic : Bool) :
    ∃ t, (recover j.bundle automatic).run s = (.inr 0, t) ∧ Finished j t := by
  obtain ⟨phase, receipt, h⟩ | h := h
  · obtain ⟨status, hrun, rfl, hfinished⟩ := (recover_noFault h automatic).run_ret
    exact ⟨_, hrun, hfinished.ofPhase⟩
  · obtain ⟨status, hrun, rfl, hsame⟩ := (recover_finished h automatic).run_ret
    refine ⟨_, hrun, ?_⟩
    rw [hsame]
    exact h

theorem Finished.run (h : Finished j s) (automatic : Bool) :
    (recover j.bundle automatic).run s = (.inr 0, s) := by
  obtain ⟨status, hrun, rfl, hsame⟩ := (recover_finished h automatic).run_ret
  rw [hrun, hsame]

end GuardTransaction
