import Mathlib
import WebsiteInfrastructure.GuardTransaction.Install
import WebsiteInfrastructure.GuardTransaction.RecoverRecords

/-!
# Installation and retrofit respect the records

Up to the hand-over of the lock, and after it as long as the journal is still the one that was
handed over.
-/

namespace GuardTransaction

open Crash

variable {j : Journal} {s : Host}

/-! ## The machine -/

section Machine

variable (hcommit : j.phase.isCommit = false)

include hcommit

theorem keeps_ensureDirectory (d : Directory) : Keeps j (ensureDirectory d) := by
  have hcreate : Keeps j (.modify (·.setDirectory d true) : Install Unit) :=
    keeps_machine hcommit fun s => ⟨rfl, rfl, rfl, rfl, le_rfl⟩
  refine keeps_get.bind fun s => .ite keeps_pure ?_
  exact keeps_require.bind fun _ => keeps_orExit.bind fun _ => hcreate.bind fun _ => keeps_orExit

theorem keeps_ensureDirectories (ds : List Directory) : Keeps j (ensureDirectories ds) := by
  induction ds with
  | nil => exact keeps_pure
  | cons d rest ih => exact (keeps_ensureDirectory hcommit d).bind fun _ => ih

theorem keeps_installExact (a : Artifact) : Keeps j (installExact a) := by
  have hinstall : Keeps j (.modify (·.setFile a .exact) : Install Unit) :=
    keeps_machine hcommit fun s => ⟨rfl, rfl, rfl, rfl, le_rfl⟩
  refine keeps_get.bind fun s => ?_
  cases s.machine.file a with
  | exact => exact keeps_pure
  | other => exact keeps_exit
  | absent =>
    exact keeps_require.bind fun _ => keeps_orExit.bind fun _ => hinstall.bind fun _ => keeps_orExit

theorem keeps_installFiles (as : List Artifact) : Keeps j (installFiles as) := by
  induction as with
  | nil => exact keeps_pure
  | cons a rest ih => exact (keeps_installExact hcommit a).bind fun _ => ih

end Machine

theorem keeps_verifyInstalled : Keeps j verifyInstalled :=
  keeps_orExit.bind fun _ => keeps_get.bind fun _ => keeps_require.bind fun _ =>
    keeps_require.bind fun _ => keeps_require

theorem keeps_verifyLiveCapture : Keeps j (verifyLiveCapture : Install Bool) := fun _ hs =>
  holds_verifyLiveCapture.mpr ⟨hs, fun _ => hs⟩

/-! ## Journals -/

/-- The next phase before a pass. -/
theorem nextPhase_holds (hs : Current j s) {j' : Journal} (hmode : j'.mode = j.mode)
    (hattempt : j'.attempt = j.attempt) (hclosed : j.phase.isClosed = false)
    (hcommit : j.phase.isCommit = false) (hrollback : j.phase.isRollback = false) :
    Holds anyFault Guarantee (fun _ => Current j') (fun _ t => Recorded t) (journalWrite j' ()) s := by
  have hmove : Guarantee s { s with journal := some j' } := by
    refine journal_guarantee hs.1 hs.2 hmode hattempt hclosed (fun hp => ?_) fun h => ?_
    · exact absurd hp (hs.1.not_pass hs.2 hcommit _ _)
    · simp [hrollback] at h
  refine (journalWrite_holds hs.1 hmove).weaken ?_ ?_
  · rintro _ t ⟨ht, rfl⟩
    exact ⟨ht, rfl⟩
  · rintro _ t ⟨-, ht, -⟩
    exact ht

/-- The receipt of an intent, and the phase that it decides. -/
theorem decide_holds (hs : Current j s) {result : Result} {guardState persistence dependency : String}
    {phase : Phase} (hclosed : j.phase.isClosed = false) (hrollback : j.phase.isRollback = false)
    (hwrite : Publishable s (receiptPath j result))
    (hpass : j.phase.isCommit = true → phase = .committed) :
    Holds anyFault Guarantee (fun _ t => Recorded t) (fun _ t => Recorded t) (do
      let receipt ← writeReceipt j result guardState persistence dependency "not-needed" ()
      journalWrite { j with phase, receipt := some receipt } ()) s := by
  refine (writeReceipt_holds hs.1 hwrite).seq ?_ ?_
  · rintro _ t ⟨-, ht, -⟩
    exact ht
  · rintro receipt t ⟨ht, rfl⟩
    have hmove : Guarantee (s.setReceipt (receiptPath j result) (.published receipt))
        { s.setReceipt (receiptPath j result) (.published receipt) with
          journal := some { j with phase, receipt := some receipt } } := by
      refine journal_guarantee ht hs.2 rfl rfl hclosed (fun hp => ?_) fun h => ?_
      · cases hcommit : j.phase.isCommit with
        | true => exact hpass hcommit
        | false => exact absurd hp (ht.not_pass hs.2 hcommit _ _)
      · simp [hrollback] at h
    refine (journalWrite_holds ht hmove).weaken ?_ ?_
    · rintro _ t' ⟨ht', -⟩
      exact ht'
    · rintro _ t' ⟨-, ht', -⟩
      exact ht'

/-- A receipt other than a recorded rollback can be written in any phase that it belongs to. -/
theorem publishable_decision (hs : Current j s) {result : Result}
    (hresult : result ≠ .rollbackVerified) (hpass : result = .pass → j.phase.isCommit = true) :
    Publishable s (receiptPath j result) where
  lt := hs.1.journal_lt j hs.2
  pass mode a heq := by
    cases heq
    exact ⟨j, hs.2, rfl, rfl, hpass rfl⟩
  rollback mode j' _ heq := by
    have hsame : result = .rollbackVerified := congrArg ReceiptName.result heq
    exact absurd hsame hresult
  loadPass a heq := by cases heq
  loadRollback a heq := by cases heq

/-- The commit of an attempt that is in the phase of `j₀`. -/
theorem commit_holds {j₀ : Journal} (hs : Current j₀ s) (hmode : j.mode = j₀.mode)
    (hattempt : j.attempt = j₀.attempt) (hclosed : j₀.phase.isClosed = false)
    (hcommit : j₀.phase.isCommit = false) (hrollback : j₀.phase.isRollback = false) :
    Holds anyFault Guarantee (fun _ t => Recorded t) (fun _ t => Recorded t) (commit j) s := by
  have hintent : Holds anyFault Guarantee (fun _ => Current { j with phase := .commitIntent })
      (fun _ t => Recorded t) (journalWrite { j with phase := .commitIntent } ()) s :=
    nextPhase_holds hs hmode hattempt hclosed hcommit hrollback
  refine hintent.seq (fun _ _ h => h) fun _ t ht => ?_
  exact decide_holds ht rfl rfl (publishable_decision ht (by decide) fun _ => rfl) fun _ => rfl

/-! ## Preparation -/

/-- The journal that is left when the lock is handed over. -/
def HandedOver (j : Journal) (s : Host) : Prop := Current j s ∧ j.phase = .guardStartIntent

theorem prepareGuard_holds (hs : Current j s) (hphase : j.phase = .prepared) :
    Holds anyFault Guarantee HandedOver (fun _ t => Recorded t) (prepareGuard j) s := by
  have hcommit : j.phase.isCommit = false := by rw [hphase]; rfl
  have hexit : ∀ {j : Journal} (e : Unit) (t : Host), Current j t → Recorded t := fun _ _ h => h.1
  rw [prepareGuard]
  refine (keeps_ensureDirectories hcommit _ s hs).seq hexit fun _ t ht => ?_
  refine (keeps_installFiles hcommit _ t ht).seq hexit fun _ t ht => ?_
  have hinstalled : Holds anyFault Guarantee (fun _ => Current { j with phase := .artifactsInstalled })
      (fun _ t => Recorded t) (journalWrite { j with phase := .artifactsInstalled } ()) t :=
    nextPhase_holds ht rfl rfl (by rw [hphase]; rfl) hcommit (by rw [hphase]; rfl)
  refine hinstalled.seq (fun _ _ h => h) fun _ t ht => ?_
  have hqueue : ∀ t, Current { j with phase := .artifactsInstalled } t →
      Holds anyFault Guarantee HandedOver (fun _ t => Recorded t) (do
        let j := { j with phase := .guardStartIntent }
        journalWrite j ()
        .orExit ()
        .modify fun s => { s with machine := { s.machine with queued := true } }
        return j : Install Journal) t := by
    intro t ht
    have hintent : Holds anyFault Guarantee (fun _ => Current { j with phase := .guardStartIntent })
        (fun _ t => Recorded t) (journalWrite { j with phase := .guardStartIntent } ()) t :=
      nextPhase_holds ht rfl rfl rfl rfl rfl
    refine hintent.seq (fun _ _ h => h) fun _ t ht => ?_
    have hstart : Keeps { j with phase := .guardStartIntent } (.modify fun s =>
        { s with machine := { s.machine with queued := true } } : Install Unit) :=
      keeps_machine rfl fun s => ⟨rfl, rfl, rfl, rfl, le_rfl⟩
    refine (keeps_orExit t ht).seq hexit fun _ t ht => ?_
    exact (hstart t ht).seq hexit fun _ t ht => ⟨ht, rfl⟩
  refine (keeps_orExit t ht).seq hexit fun _ t ht => ?_
  dsimp only
  split
  · have henable : Keeps { j with phase := .artifactsInstalled } (.modify fun s =>
        { s with machine := { s.machine with enabled := true } } : Install Unit) :=
      keeps_machine rfl fun s => ⟨rfl, rfl, rfl, rfl, le_rfl⟩
    refine (keeps_orExit t ht).seq hexit fun _ t ht => ?_
    exact (henable t ht).seq hexit fun _ t ht => hqueue t ht
  · exact hqueue t ht

theorem prepare_holds (hs : Recorded s) (mode : Mode) (bundle : Bundle) (scope : Option String) :
    Holds anyFault Guarantee HandedOver (fun _ t => Recorded t) (prepare mode bundle scope) s := by
  have hrest : (∀ j, s.journal = some j → j.phase = .rolledBack) →
      Holds anyFault Guarantee HandedOver (fun _ t => Recorded t) (do
        .require (s.machine.admits mode) ()
        .orExit ()
        .require (← verifyAbsentCapture) ()
        let s ← .get
        .require (allArtifacts.all fun a => s.machine.file a ≠ .other) ()
        .require (s.machine.guardUnitPrestate (s.machine.prestate.file .unit)) ()
        .orExit ()
        .modify fun s => { s with uuid := s.uuid + 1 }
        let j := freshJournal mode bundle scope s
        journalWrite j ()
        prepareGuard j : Install Journal) s := by
    intro hprevious
    have hbump := bump_guarantee hs
    have hmove : Guarantee { s with uuid := s.uuid + 1 } { s with
        uuid := s.uuid + 1, journal := some (freshJournal mode bundle scope s) } :=
      fresh_journal_guarantee hbump.1 hprevious rfl (Nat.lt_succ_self _) (bump_isFresh hs)
    have hfresh : Holds anyFault Guarantee HandedOver (fun _ t => Recorded t) (do
        journalWrite (freshJournal mode bundle scope s) ()
        prepareGuard (freshJournal mode bundle scope s) : Install Journal)
        { s with uuid := s.uuid + 1 } := by
      refine (journalWrite_holds hbump.1 hmove).seq ?_ ?_
      · rintro _ t ⟨-, ht, -⟩
        exact ht
      · rintro _ t ⟨ht, rfl⟩
        exact prepareGuard_holds ⟨ht, rfl⟩ rfl
    refine holds_bind.mpr (holds_require.mpr ?_)
    split_ifs
    · refine holds_bind.mpr (holds_orExit.mpr ⟨?_, fun _ => hs⟩)
      have hchecked : ∀ absent : Bool, Holds anyFault Guarantee HandedOver (fun _ t => Recorded t) (do
          .require absent ()
          let s ← .get
          .require (allArtifacts.all fun a => s.machine.file a ≠ .other) ()
          .require (s.machine.guardUnitPrestate (s.machine.prestate.file .unit)) ()
          .orExit ()
          .modify fun s => { s with uuid := s.uuid + 1 }
          let j := freshJournal mode bundle scope s
          journalWrite j ()
          prepareGuard j : Install Journal) s := by
        intro absent
        refine holds_bind.mpr (holds_require.mpr ?_)
        cases absent with
        | false => exact hs
        | true =>
          refine holds_bind.mpr (holds_get.mpr (holds_bind.mpr (holds_require.mpr ?_)))
          by_cases hfiles : (allArtifacts.all fun a => s.machine.file a ≠ .other) = true
          · rw [if_pos hfiles]
            refine holds_bind.mpr (holds_require.mpr ?_)
            by_cases hunit : s.machine.guardUnitPrestate (s.machine.prestate.file .unit) = true
            · rw [if_pos hunit]
              refine holds_bind.mpr (holds_orExit.mpr ⟨?_, fun _ => hs⟩)
              exact holds_bind.mpr (holds_modify.mpr ⟨hbump, hfresh⟩)
            · rw [if_neg hunit]
              exact hs
          · rw [if_neg hfiles]
            exact hs
      exact holds_bind.mpr (holds_verifyAbsentCapture.mpr ⟨hchecked _, fun _ => hchecked _⟩)
    · exact hs
  rw [prepare]
  refine holds_bind.mpr (holds_orExit.mpr ⟨?_, fun _ => hs⟩)
  refine holds_bind.mpr (holds_get.mpr ?_)
  cases hj : s.journal with
  | none =>
    refine hrest fun j hj' => ?_
    simp [hj] at hj'
  | some j =>
    refine holds_bind.mpr (holds_require.mpr ?_)
    by_cases hrolled : (decide (j.phase = .rolledBack) && closedReceipt s j) = true
    · rw [if_pos hrolled]
      refine hrest fun j₀ hj₀ => ?_
      obtain rfl := Option.some.inj (hj₀.symm.trans hj)
      simp only [Bool.and_eq_true, decide_eq_true_eq] at hrolled
      exact hrolled.1
    · rw [if_neg hrolled]
      exact hs

/-! ## Completion -/

theorem complete_holds (h : HandedOver j s) :
    Holds anyFault Guarantee (fun _ t => Recorded t) (fun _ t => Recorded t) (complete j) s := by
  obtain ⟨hs, hphase⟩ := h
  have hexit : ∀ {j : Journal} (e : Unit) (t : Host), Current j t → Recorded t := fun _ _ h => h.1
  have hactive : ∀ t, Current j t → Holds anyFault Guarantee
      (fun _ => Current { j with phase := .guardActive }) (fun _ t => Recorded t)
      (journalWrite { j with phase := .guardActive } () : Install Unit) t := fun t ht =>
    nextPhase_holds ht rfl rfl (by rw [hphase]; rfl) (by rw [hphase]; rfl) (by rw [hphase]; rfl)
  rw [complete]
  cases j.mode with
  | offline =>
    refine (keeps_orExit s hs).seq hexit fun _ t ht => ?_
    refine (hactive t ht).seq (fun _ _ h => h) fun _ t ht => ?_
    refine (keeps_verifyInstalled t ht).seq hexit fun _ t ht => ?_
    exact commit_holds ht rfl rfl rfl rfl rfl
  | retrofit =>
    refine (keeps_orExit s hs).seq hexit fun _ t ht => ?_
    refine (keeps_get t ht).seq hexit fun u t ht => ?_
    refine (keeps_require t ht).seq hexit fun _ t ht => ?_
    refine (keeps_verifyLiveCapture t ht).seq hexit fun live t ht => ?_
    refine (keeps_require t ht).seq hexit fun _ t ht => ?_
    refine (hactive t ht).seq (fun _ _ h => h) fun _ t ht => ?_
    refine (keeps_installExact rfl .dropin t ht).seq hexit fun _ t ht => ?_
    refine (keeps_orExit t ht).seq hexit fun _ t ht => ?_
    have hdropin : Holds anyFault Guarantee (fun _ => Current { j with phase := .dropinInstalled })
        (fun _ t => Recorded t) (journalWrite { j with phase := .dropinInstalled } ()) t :=
      nextPhase_holds ht rfl rfl rfl rfl rfl
    refine hdropin.seq (fun _ _ h => h) fun _ t ht => ?_
    have hrestart : Holds anyFault Guarantee
        (fun _ => Current { j with phase := .kubeletRestartIntent })
        (fun _ t => Recorded t) (journalWrite { j with phase := .kubeletRestartIntent } ()) t :=
      nextPhase_holds ht rfl rfl rfl rfl rfl
    refine hrestart.seq (fun _ _ h => h) fun _ t ht => ?_
    have hkubelet : Keeps { j with phase := .kubeletRestartIntent } (.modify fun s =>
        { s with machine := { s.machine with kubelet := true } } : Install Unit) :=
      keeps_machine rfl fun s => ⟨rfl, rfl, rfl, rfl, le_rfl⟩
    refine (keeps_orExit t ht).seq hexit fun _ t ht => ?_
    refine (hkubelet t ht).seq hexit fun _ t ht => ?_
    refine (keeps_verifyInstalled t ht).seq hexit fun _ t ht => ?_
    refine (keeps_orExit t ht).seq hexit fun _ t ht => ?_
    have hintent : Holds anyFault Guarantee
        (fun _ => Current { j with phase := .awaitingRebootIntent })
        (fun _ t => Recorded t) (journalWrite { j with phase := .awaitingRebootIntent } ()) t :=
      nextPhase_holds ht rfl rfl rfl rfl rfl
    refine hintent.seq (fun _ _ h => h) fun _ t ht => ?_
    refine decide_holds ht rfl rfl (publishable_decision ht (by decide) ?_) ?_
    · intro h
      cases h
    · intro h
      cases h

theorem closeAfterReboot_holds (hs : Recorded s) (bundle : Bundle) :
    Holds anyFault Guarantee (fun _ t => Recorded t) (fun _ t => Recorded t)
      (closeAfterReboot bundle) s := by
  rw [closeAfterReboot]
  refine holds_bind.mpr (holds_orExit.mpr ⟨?_, fun _ => hs⟩)
  refine holds_bind.mpr (holds_get.mpr ?_)
  cases hj : s.journal with
  | none => exact hs
  | some j =>
    have hcurrent : Current j s := ⟨hs, hj⟩
    have hexit : ∀ (e : Unit) (t : Host), Current j t → Recorded t := fun _ _ h => h.1
    refine holds_bind.mpr (holds_require.mpr ?_)
    split_ifs with hawaiting
    · simp only [Bool.and_eq_true, decide_eq_true_eq] at hawaiting
      have hphase : j.phase = .awaitingReboot := hawaiting.1.2
      refine (keeps_require s hcurrent).seq hexit fun _ t ht => ?_
      refine (keeps_orExit t ht).seq hexit fun _ t ht => ?_
      refine (keeps_require t ht).seq hexit fun _ t ht => ?_
      refine (keeps_require t ht).seq hexit fun _ t ht => ?_
      refine (keeps_verifyInstalled t ht).seq hexit fun _ t ht => ?_
      refine (keeps_orExit t ht).seq hexit fun _ t ht => ?_
      exact commit_holds ht rfl rfl (by rw [hphase]; rfl) (by rw [hphase]; rfl) (by rw [hphase]; rfl)
    · exact hs

end GuardTransaction
