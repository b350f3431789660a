import Mathlib
import WebsiteInfrastructure.GuardTransaction.Recover
import WebsiteInfrastructure.GuardTransaction.LoaderRecords

/-!
# Recovery respects the records

Recovery makes admitted changes only, unless it is stopped between its closed journal and its end:
its exit handler would then reopen the attempt.
-/

namespace GuardTransaction

open Crash

variable {j : Journal} {s : Host}

/-- The records are in order, and the journal is this one. -/
def Current (j : Journal) (s : Host) : Prop := Recorded s ∧ s.journal = some j

/-- A program that leaves the journal alone. -/
def Keeps {ε α : Type} (j : Journal) (p : Prog Host ε α) : Prop :=
  ∀ s, Current j s → Holds anyFault Guarantee (fun _ => Current j) (fun _ => Current j) p s

section Programs

variable {ε α β : Type} {e : ε}

theorem Keeps.bind {p : Prog Host ε α} {k : α → Prog Host ε β} (hp : Keeps j p)
    (hk : ∀ a, Keeps j (k a)) : Keeps j (p >>= k) :=
  fun s hs => (hp s hs).seq (fun _ _ h => h) fun a t ht => hk a t ht

theorem Keeps.ite {c : Prop} [Decidable c] {p q : Prog Host ε α} (hp : Keeps j p) (hq : Keeps j q) :
    Keeps j (if c then p else q) := by
  split_ifs <;> assumption

theorem keeps_ret {a : α} : Keeps j (.ret a : Prog Host ε α) := fun _ hs => hs

theorem keeps_pure {a : α} : Keeps j (pure a : Prog Host ε α) := fun _ hs => hs

theorem keeps_exit : Keeps j (.exit e : Prog Host ε α) := fun _ hs => hs

theorem keeps_get : Keeps j (.get : Prog Host ε Host) := fun _ hs => hs

theorem keeps_orExit : Keeps j (.orExit e : Prog Host ε Unit) := fun _ hs =>
  holds_orExit.mpr ⟨hs, fun _ => hs⟩

theorem keeps_require {b : Bool} : Keeps j (.require b e : Prog Host ε Unit) := fun s hs => by
  rw [holds_require]
  split_ifs <;> exact hs

/-- The machine may change before a pass. -/
theorem keeps_machine {f : Host → Host} (hcommit : j.phase.isCommit = false)
    (hf : ∀ s, SameRecords s (f s)) : Keeps j (.modify f : Prog Host ε Unit) := by
  intro s hs
  have hsame := hf s
  have hguarantee : Guarantee s (f s) := hsame.guarantee hs.1 fun mode a hp =>
    absurd hp (hs.1.not_pass hs.2 hcommit mode a)
  exact holds_modify.mpr ⟨hguarantee, hguarantee.1, hsame.journal.trans hs.2⟩

end Programs

/-! ## The load journal -/

theorem keeps_writeLoadReceipt_again {l : LoadJournal} {result : Result} {tableState rollback : String}
    (hs : Current j s) (hp : s.IsPublished (loadReceiptPath l.attempt result)) :
    Holds anyFault Guarantee (fun _ t => Current j t ∧ t.loadJournal = s.loadJournal ∧ t.table = s.table)
      (fun _ => Current j)
      (writeLoadReceipt l.attempt l.boot result tableState rollback ()) s := by
  refine (writeLoadReceipt_holds hs.1 (publishable_again hs.1 hp)).weaken ?_ ?_
  · rintro d t ⟨ht, rfl⟩
    exact ⟨⟨ht, hs.2⟩, rfl, rfl⟩
  · rintro _ t ⟨-, ht, slot, rfl, -⟩
    exact ⟨ht, hs.2⟩

theorem Slot.exists_of_rootFile {slot : Slot} (h : slot.rootFile?.isSome = true) :
    slot.exists = true := by
  cases slot <;> simp_all [Slot.rootFile?, Slot.exists]

theorem keeps_verifyClosedLoadReceipt {l : LoadJournal} :
    Keeps j (verifyClosedLoadReceipt l () : Recovery Unit) := by
  have hverify : ∀ (result : Result) (tableState rollback : String), Keeps j (do
      let s ← Prog.get
      Prog.require (s.receipts (loadReceiptPath l.attempt result)).rootFile?.isSome ()
      let observed ← writeLoadReceipt l.attempt l.boot result tableState rollback ()
      Prog.require (some observed = l.receipt) () : Recovery Unit) := by
    intro result tableState rollback s hs
    refine holds_bind.mpr (holds_get.mpr (holds_bind.mpr (holds_require.mpr ?_)))
    split_ifs with hroot
    · refine (keeps_writeLoadReceipt_again hs (Slot.exists_of_rootFile hroot)).seq (fun _ _ h => h) ?_
      exact fun d t ht => keeps_require t ht.1
    · exact hs
  intro s hs
  rw [verifyClosedLoadReceipt]
  cases l.phase <;> first | exact hverify _ _ _ s hs | exact hs

theorem keeps_reconcilePublishedLoadCommit : Keeps j reconcilePublishedLoadCommit := by
  intro s hs
  rw [reconcilePublishedLoadCommit]
  refine holds_bind.mpr (holds_get.mpr ?_)
  cases hl : s.loadJournal with
  | none => exact hs
  | some l =>
    refine holds_bind.mpr (holds_require.mpr ?_)
    by_cases hpre : decide (l.prestate = .absent) = true
    · rw [if_pos hpre]
      cases hphase : l.phase with
      | committed | rolledBack | recoveryRequired => exact keeps_verifyClosedLoadReceipt s hs
      | prepared | applyIntent | applied | rollbackIntent => exact hs
      | commitIntent =>
        dsimp only
        split_ifs with hexists
        · refine (keeps_writeLoadReceipt_again hs hexists).seq (fun _ _ h => h) ?_
          rintro receipt t ⟨ht, hload, -⟩
          have hmove : Guarantee t { t with
              loadJournal := some { l with phase := .committed, receipt := some receipt } } :=
            loadJournal_guarantee ht.1 (hload.trans hl) rfl id (fun _ => rfl) fun _ _ => rfl
          refine (writeLoadJournalRecord_holds ht.1 hmove).weaken ?_ ?_
          · rintro _ t' ⟨ht', rfl⟩
            exact ⟨ht', ht.2⟩
          · rintro _ t' ⟨-, ht', rfl | rfl⟩
            exacts [ht, ⟨ht', ht.2⟩]
        · exact hs
    · rw [if_neg hpre]
      exact hs

/-- An open load is closed once the table is gone. -/
theorem closeLoadJournalAfterAbsence_holds (hs : Current j s) (htable : s.table = .absent) :
    Holds anyFault Guarantee (fun _ => Current j) (fun _ => Current j)
      closeLoadJournalAfterAbsence s := by
  rw [closeLoadJournalAfterAbsence]
  refine holds_bind.mpr (holds_get.mpr ?_)
  cases hl : s.loadJournal with
  | none => exact hs
  | some l =>
    -- the receipt and the record, from a state where the attempt has not passed
    have hclose : ∀ t, Current j t → t.loadJournal = some l → t.table = .absent →
        ¬ t.IsPublished (loadPassReceipt l.attempt) →
        Holds anyFault Guarantee (fun _ => Current j) (fun _ => Current j) (do
          let receipt ← writeLoadReceipt l.attempt l.boot .rollbackVerified "absent" "verified" ()
          writeLoadJournalRecord { l with phase := .rolledBack, receipt := some receipt } ()) t := by
      intro t ht hload habsent hunpassed
      have howns : Owns { attempt := l.attempt } t :=
        ⟨ht.1, ⟨l, hload, rfl⟩, hunpassed, by simp⟩
      refine (writeLoadReceipt_holds ht.1 (howns.publishable (by decide))).seq ?_ ?_
      · rintro _ t' ⟨-, ht', slot, rfl, -⟩
        exact ⟨ht', ht.2⟩
      · rintro receipt t' ⟨ht', rfl⟩
        have hmove : Guarantee (t.setReceipt (loadReceiptPath l.attempt .rollbackVerified)
            (.published receipt)) { t.setReceipt (loadReceiptPath l.attempt .rollbackVerified)
            (.published receipt) with
              loadJournal := some { l with phase := .rolledBack, receipt := some receipt } } := by
          refine loadJournal_guarantee ht' hload rfl id (fun hp => ?_) fun a ha => ?_
          · exact absurd ((isPublished_setReceipt_of_ne (by simp [loadReceiptPath])).mp hp) hunpassed
          · have hgone : t.table = .exact (some a) := ha
            simp [habsent] at hgone
        refine (writeLoadJournalRecord_holds ht' hmove).weaken ?_ ?_
        · rintro _ t'' ⟨ht'', rfl⟩
          exact ⟨ht'', ht.2⟩
        · rintro _ t'' ⟨-, ht'', rfl | rfl⟩
          exacts [⟨ht', ht.2⟩, ⟨ht'', ht.2⟩]
    refine holds_bind.mpr (holds_require.mpr ?_)
    by_cases hpre : decide (l.prestate = .absent) = true
    · rw [if_pos hpre]
      cases hphase : l.phase with
      | committed | rolledBack | recoveryRequired => exact keeps_verifyClosedLoadReceipt s hs
      | prepared | applyIntent | applied | rollbackIntent =>
        refine hclose s hs hl htable fun hp => ?_
        have hcommit := hs.1.loadPass l hl hp
        simp [hphase, LoadPhase.isCommit] at hcommit
      | commitIntent =>
        simp only [if_true]
        refine holds_bind.mpr (holds_require.mpr ?_)
        by_cases hexists : (s.receipts (loadReceiptPath l.attempt .pass)).exists = true
        · simp only [hexists, Bool.not_true, Bool.false_eq_true, if_false]
          exact hs
        · rw [if_pos (by simpa using hexists)]
          split
          · refine (discardUnpublishedTemp_holds hs.1).seq ?_ ?_
            · rintro _ t ⟨-, ht, slot, rfl, -⟩
              exact ⟨ht, hs.2⟩
            · rintro _ t ⟨ht, rfl⟩
              refine hclose _ ⟨ht, hs.2⟩ hl htable ?_
              simp [Host.IsPublished, loadReceiptPath, Slot.exists]
          · exact hclose s hs hl htable hexists
    · rw [if_neg hpre]
      exact hs

/-! ## The machine -/

section Machine

variable (hcommit : j.phase.isCommit = false)

include hcommit

theorem keeps_removeIfCreated (prestate : Existence) (a : Artifact) :
    Keeps j (removeIfCreated prestate a) := by
  intro s hs
  unfold removeIfCreated
  cases prestate with
  | exact => exact hs
  | absent =>
    refine holds_bind.mpr (holds_get.mpr ?_)
    cases s.machine.file a with
    | absent => exact hs
    | other => exact hs
    | exact =>
      have hremove : Keeps j (.modify (·.setFile a .absent) : Recovery Unit) :=
        keeps_machine hcommit fun s => ⟨rfl, rfl, rfl, rfl, le_rfl⟩
      exact (keeps_orExit.bind fun _ => hremove.bind fun _ => keeps_orExit) s hs

theorem keeps_removeFiles (p : Prestate) (as : List Artifact) : Keeps j (removeFiles p as) := by
  induction as with
  | nil => exact keeps_pure
  | cons a rest ih => exact (keeps_removeIfCreated hcommit _ a).bind fun _ => ih

theorem keeps_removeDirectoryIfCreated (prestate : Existence) (d : Directory) :
    Keeps j (removeDirectoryIfCreated prestate d) := by
  intro s hs
  unfold removeDirectoryIfCreated
  cases prestate with
  | exact => exact hs
  | absent =>
    refine holds_bind.mpr (holds_get.mpr ?_)
    split_ifs
    · exact hs
    · have hremove : Keeps j (.modify (·.setDirectory d false) : Recovery Unit) :=
        keeps_machine hcommit fun s => ⟨rfl, rfl, rfl, rfl, le_rfl⟩
      exact (keeps_orExit.bind fun _ => keeps_require.bind fun _ => hremove.bind fun _ =>
        keeps_orExit) s hs

theorem keeps_removeDirectories (p : Prestate) (ds : List Directory) :
    Keeps j (removeDirectories p ds) := by
  induction ds with
  | nil => exact keeps_pure
  | cons d rest ih => exact (keeps_removeDirectoryIfCreated hcommit _ d).bind fun _ => ih

theorem keeps_restoreKubelet (p : Prestate) : Keeps j (restoreKubelet p) := by
  refine keeps_get.bind fun s => ?_
  split_ifs
  · have hstart : Keeps j (.modify fun s =>
        { s with machine := { s.machine with kubelet := true } } : Recovery Unit) :=
      keeps_machine hcommit fun s => ⟨rfl, rfl, rfl, rfl, le_rfl⟩
    exact keeps_orExit.bind fun _ => hstart.bind fun _ => keeps_orExit
  · exact keeps_require

theorem keeps_stopGuard (p : Prestate) : Keeps j (stopGuard p) := by
  have hstop : Keeps j (.modify Host.stopGuard : Recovery Unit) :=
    keeps_machine hcommit fun s => ⟨rfl, rfl, rfl, rfl, le_rfl⟩
  refine keeps_get.bind fun s => ?_
  have hrest : Keeps j (do
      let s ← .get
      .require (!p.kubelet || s.machine.kubelet) () : Recovery Unit) :=
    keeps_get.bind fun _ => keeps_require
  split_ifs
  · exact keeps_orExit.bind fun _ => hstop.bind fun _ => hrest
  · exact hrest

theorem keeps_disableGuard (p : Prestate) : Keeps j (disableGuard p) := by
  have hdisable : Keeps j (.modify fun s =>
      { s with machine := { s.machine with enabled := false } } : Recovery Unit) :=
    keeps_machine hcommit fun s => ⟨rfl, rfl, rfl, rfl, le_rfl⟩
  rw [disableGuard]
  split_ifs
  · exact keeps_orExit.bind fun _ => hdisable
  · exact keeps_pure

end Machine

theorem keeps_verifyClusterHealth : Keeps j (verifyClusterHealth j) :=
  .ite keeps_orExit keeps_pure

theorem keeps_verifyRestored (p : Prestate) : Keeps j (verifyRestored p) :=
  keeps_orExit.bind fun _ => keeps_get.bind fun _ => keeps_require.bind fun _ =>
    keeps_require.bind fun _ => keeps_require.bind fun _ => keeps_require

/-- The table is gone after its removal, and only an exact one is removed. -/
theorem removeTable_holds (hs : Current j s) (hphase : j.phase = .rollbackIntent) (p : Prestate) :
    Holds anyFault Guarantee (fun _ t => Current j t ∧ t.table = .absent) (fun _ => Current j)
      (removeTable p) s := by
  rw [removeTable]
  refine holds_bind.mpr (holds_orExit.mpr ⟨?_, fun _ => hs⟩)
  have hlive : Holds anyFault Guarantee (fun _ t => Current j t ∧ t.table = .absent)
      (fun _ => Current j) (do
        if ← verifyLiveCapture then
          .require (p.table = .absent) ()
          .require (← deleteOwnedTableAndProveAbsent) ()
        else .exit () : Recovery Unit) s := by
    refine holds_bind.mpr (holds_verifyLiveCapture.mpr ⟨?_, fun _ => hs⟩)
    cases hexact : s.table.isExact with
    | false => exact hs
    | true =>
      refine holds_bind.mpr (holds_require.mpr ?_)
      split_ifs
      · have htable : s.table ≠ .other := by
          intro hother
          simp [hother, Table.isExact] at hexact
        have hdelete := @deleteOwnedTable_holds Unit s (fun _ => Current j) hs.1 htable
          (.inl ⟨j, hs.2, hphase⟩)
        refine hdelete.seq (fun _ _ h => h) ?_
        rintro done t ⟨ht, hsame, hgone⟩
        have hcurrent : Current j t := by
          refine ⟨ht, ?_⟩
          rcases hsame with rfl | rfl <;> exact hs.2
        rw [holds_require]
        split_ifs with hdone
        · exact ⟨hcurrent, hgone hdone⟩
        · exact hcurrent
      · exact hs
  refine holds_bind.mpr (holds_verifyAbsentCapture.mpr ⟨?_, fun _ => hlive⟩)
  by_cases habsent : s.table = .absent
  · rw [decide_eq_true habsent]
    exact ⟨hs, habsent⟩
  · rw [decide_eq_false habsent]
    exact hlive

/-! ## Rollback -/

/-- Commands may fail until the attempt is closed as rolled back. -/
def untilRolledBack (s : Host) : Prop := ∀ j, s.journal = some j → j.phase ≠ .rolledBack

/-- The attempt is being rolled back, or was. -/
structure Rolling (j : Journal) (s : Host) : Prop where
  recorded : Recorded s
  journal : ∃ j₀, s.journal = some j₀ ∧ j₀.mode = j.mode ∧ j₀.attempt = j.attempt ∧
    j₀.phase.isRollback = true

theorem Current.rolling (hs : Current j s) (hphase : j.phase = .rollbackIntent) : Rolling j s :=
  ⟨hs.1, j, hs.2, rfl, rfl, by rw [hphase]; rfl⟩

theorem publishable_rollback (hs : Rolling j s) {result : Result} (hresult : result ≠ .pass) :
    Publishable s (receiptPath j result) where
  lt := by
    obtain ⟨j₀, hj₀, -, hattempt, -⟩ := hs.journal
    have hlt := hs.recorded.journal_lt j₀ hj₀
    rwa [hattempt] at hlt
  pass mode a heq := by
    cases heq
    exact absurd rfl hresult
  rollback mode j' hj' _ := by
    obtain ⟨j₀, hj₀, -, -, hphase⟩ := hs.journal
    obtain rfl := Option.some.inj (hj'.symm.trans hj₀)
    exact hphase
  loadPass a heq := by cases heq
  loadRollback a heq := by cases heq

/-- The journal of a rollback moves on within it. -/
theorem rollback_upheld (hs : Rolling j s) {phase : Phase} (hnext : phase.isRollback = true)
    (receipt : Option Document) : Upheld s { s with journal := some { j with phase, receipt } } := by
  obtain ⟨j₀, hj₀, hmode, hattempt, hphase⟩ := hs.journal
  refine journal_upheld hs.recorded hj₀ hmode.symm hattempt.symm (fun hp => ?_) fun _ => hnext
  have hopen : j₀.phase.isCommit = false := by
    cases h : j₀.phase <;> simp_all [Phase.isRollback, Phase.isCommit]
  exact absurd hp (hs.recorded.not_pass hj₀ hopen _ _)

theorem rollback_guarantee (hs : Current j s) (hphase : j.phase = .rollbackIntent) {phase : Phase}
    (hnext : phase.isRollback = true) (receipt : Option Document) :
    Guarantee s { s with journal := some { j with phase, receipt } } := by
  refine journal_guarantee hs.1 hs.2 rfl rfl (by rw [hphase]; rfl) (fun hp => ?_) fun _ => hnext
  exact absurd hp (hs.1.not_pass hs.2 (by rw [hphase]; rfl) _ _)

/-- The rollback proper; it may be left when the attempt is closed already, by a command that fails
then. -/
theorem undo_holds {faulty onExit : Host → Prop} (hs : Current j s)
    (hphase : j.phase = .rollbackIntent) (hopen : ∀ t, Current j t → onExit t)
    (hclosed : ∀ t receipt, Current { j with phase := .rolledBack, receipt } t → faulty t → onExit t) :
    Holds faulty Guarantee (fun _ t => Recorded t) (fun _ => onExit) (undo j) s := by
  have hcommit : j.phase.isCommit = false := by rw [hphase]; rfl
  have hkeep : ∀ {α : Type} {p : Recovery α} {t : Host}, Keeps j p → Current j t →
      Holds faulty Guarantee (fun _ => Current j) (fun _ => Current j) p t :=
    fun hp ht => (hp _ ht).restrict fun _ _ => trivial
  have hstay : ∀ (e : Unit) (t : Host), Current j t → onExit t := fun _ _ h => hopen _ h
  rw [undo]
  refine (hkeep (keeps_removeIfCreated hcommit _ _) hs).seq hstay fun _ t ht => ?_
  refine (hkeep keeps_orExit ht).seq hstay fun _ t ht => ?_
  refine (hkeep (keeps_restoreKubelet hcommit _) ht).seq hstay fun _ t ht => ?_
  refine (hkeep keeps_verifyClusterHealth ht).seq hstay fun _ t ht => ?_
  refine (hkeep (keeps_stopGuard hcommit _) ht).seq hstay fun _ t ht => ?_
  refine (hkeep keeps_orExit ht).seq hstay fun _ t ht => ?_
  refine ((removeTable_holds ht hphase _).restrict fun _ _ => trivial).seq hstay ?_
  rintro _ t ⟨ht, htable⟩
  refine ((closeLoadJournalAfterAbsence_holds ht htable).restrict fun _ _ => trivial).seq hstay
    fun _ t ht => ?_
  refine (hkeep (keeps_disableGuard hcommit _) ht).seq hstay fun _ t ht => ?_
  refine (hkeep (keeps_removeFiles hcommit _ _) ht).seq hstay fun _ t ht => ?_
  refine (hkeep keeps_orExit ht).seq hstay fun _ t ht => ?_
  refine (hkeep (keeps_removeDirectories hcommit _ _) ht).seq hstay fun _ t ht => ?_
  refine (hkeep (keeps_verifyRestored _) ht).seq hstay fun _ t ht => ?_
  refine (hkeep keeps_verifyClusterHealth ht).seq hstay fun _ t ht => ?_
  have hwrite := publishable_rollback (ht.rolling hphase) (by decide : Result.rollbackVerified ≠ .pass)
  refine ((writeReceipt_holds ht.1 hwrite).restrict fun _ _ => trivial).seq ?_ ?_
  · rintro _ t' ⟨-, ht', slot, rfl, -⟩
    exact hopen _ ⟨ht', ht.2⟩
  · rintro receipt t' ⟨ht', rfl⟩
    have hcurrent : Current j (t.setReceipt (receiptPath j .rollbackVerified) (.published receipt)) :=
      ⟨ht', ht.2⟩
    have hclose := rollback_guarantee hcurrent hphase (by rfl : Phase.rolledBack.isRollback = true)
      (some receipt)
    simp only [journalWrite, holds_bind, holds_orExit, holds_modify]
    exact ⟨⟨hclose, hclose.1, hclosed _ _ ⟨hclose.1, rfl⟩⟩, fun _ => hopen _ hcurrent⟩

theorem reportRecoveryRequired_holds {guarantee : Host → Host → Prop} (hs : Rolling j s)
    (hguarantee : ∀ s t, Guarantee s t → guarantee s t)
    (hmove : ∀ t receipt, Recorded t → t.journal = s.journal →
      guarantee t { t with journal := some { j with phase := .recoveryRequired, receipt } }) :
    Holds anyFault guarantee (fun _ t => Recorded t) (fun _ t => Recorded t)
      (reportRecoveryRequired j) s := by
  have hwrite : Publishable s (receiptPath { j with phase := .recoveryRequired } .recoveryRequired) :=
    publishable_rollback hs (by decide)
  have hafter : ∀ t receipt, Rolling j t →
      Recorded { t with journal := some { j with phase := .recoveryRequired, receipt } } :=
    fun t receipt ht => (rollback_upheld ht rfl receipt).1
  refine ((writeReceipt_holds hs.recorded hwrite).mono hguarantee (fun _ _ h => h)
    fun _ _ h => h).seq ?_ ?_
  · rintro _ t ⟨-, ht, -⟩
    exact ht
  · rintro receipt t ⟨ht, rfl⟩
    have hrolling : Rolling j (s.setReceipt (receiptPath { j with phase := .recoveryRequired }
        .recoveryRequired) (.published receipt)) := ⟨ht, hs.journal⟩
    have hdone := hafter _ (some receipt) hrolling
    simp only [journalWrite, holds_bind, holds_orExit, holds_modify, holds_exit]
    exact ⟨⟨hmove _ _ ht rfl, hdone, fun _ => hdone⟩, fun _ => ht⟩

theorem rollbackIntent_guarantee (hs : Current j s) (hclosed : j.phase.isClosed = false)
    (hpass : ¬ s.IsPublished (passReceipt j.mode j.attempt)) : Guarantee s
      { s with journal := some { j with phase := .rollbackIntent, receipt := none } } :=
  journal_guarantee hs.1 hs.2 rfl rfl hclosed (fun hp => absurd hp hpass) fun _ => rfl

/-- The rollback, as long as no command fails once it has closed the attempt. -/
theorem rollback_holds (hs : Current j s) (hclosed : j.phase.isClosed = false)
    (hpass : ¬ s.IsPublished (passReceipt j.mode j.attempt)) :
    Holds untilRolledBack Guarantee (fun _ t => Recorded t) (fun _ t => Recorded t)
      (rollback j) s := by
  have hmove := rollbackIntent_guarantee hs hclosed hpass
  refine ((journalWrite_holds hs.1 hmove).restrict fun _ _ => trivial).seq ?_ ?_
  · rintro _ t ⟨-, ht, -⟩
    exact ht
  · rintro _ t ⟨ht, rfl⟩
    refine holds_trap.mpr ((undo_holds ⟨ht, rfl⟩ rfl (fun _ h => h) ?_).weaken (fun _ _ h => h) ?_)
    · exact fun t' receipt ht' hfault => absurd rfl (hfault _ ht'.2)
    · intro _ t' ht'
      refine (reportRecoveryRequired_holds (ht'.rolling rfl) (fun _ _ h => h) ?_).restrict
        fun _ _ => trivial
      exact fun t'' receipt ht'' hjournal =>
        rollback_guarantee ⟨ht'', hjournal.trans ht'.2⟩ rfl rfl receipt

/-- The rollback, whatever fails. -/
theorem rollback_holds_upheld (hs : Current j s) (hclosed : j.phase.isClosed = false)
    (hpass : ¬ s.IsPublished (passReceipt j.mode j.attempt)) :
    Holds anyFault Upheld (fun _ t => Recorded t) (fun _ t => Recorded t) (rollback j) s := by
  have hmove := rollbackIntent_guarantee hs hclosed hpass
  have hweak : ∀ s t, Guarantee s t → Upheld s t := fun _ _ h => h.upheld
  refine ((journalWrite_holds hs.1 hmove).mono hweak (fun _ _ h => h) fun _ _ h => h).seq ?_ ?_
  · rintro _ t ⟨-, ht, -⟩
    exact ht
  · rintro _ t ⟨ht, rfl⟩
    generalize hj : ({ j with phase := .rollbackIntent, receipt := none } : Journal) = j'
    have hphase : j'.phase = .rollbackIntent := by rw [← hj]
    rw [hj] at ht
    have hundo := @undo_holds j' { s with journal := some j' } anyFault (Rolling j') ⟨ht, rfl⟩ hphase
      (fun _ h => h.rolling hphase) fun t receipt h _ => ⟨h.1, _, h.2, rfl, rfl, rfl⟩
    refine holds_trap.mpr (hundo.mono hweak (fun _ _ h => h) fun _ t' ht' => ?_)
    refine reportRecoveryRequired_holds ht' hweak fun t'' receipt ht'' hjournal => ?_
    exact rollback_upheld ⟨ht'', by rw [hjournal]; exact ht'.journal⟩ rfl receipt

/-! ## The whole recovery -/

/-- An intent is completed, or nothing of it was published. -/
theorem completeIntent_holds (hs : Current j s) {result : Result} {persistence dependency : String}
    {phase : Phase} (hclosed : j.phase.isClosed = false) (hrollback : j.phase.isRollback = false)
    (hpass : s.IsPublished (passReceipt j.mode j.attempt) → phase = .committed) :
    Holds anyFault Guarantee
      (fun done t => if done = true then Recorded t
        else Current j t ∧ ¬ t.IsPublished (receiptPath j result))
      (fun _ t => Recorded t) (completeIntent j result persistence dependency phase) s := by
  rw [completeIntent]
  refine holds_bind.mpr (holds_get.mpr ?_)
  by_cases hexists : (s.receipts (receiptPath j result)).exists = true
  · rw [if_pos hexists]
    refine holds_bind.mpr (holds_require.mpr ?_)
    split_ifs
    · refine (writeReceipt_holds hs.1 (publishable_again hs.1 hexists)).seq ?_ ?_
      · rintro _ t ⟨-, ht, -⟩
        exact ht
      · rintro document t ⟨ht, rfl⟩
        have hmove : Guarantee (s.setReceipt (receiptPath j result) (.published document))
            { s.setReceipt (receiptPath j result) (.published document) with
              journal := some { j with phase, receipt := some document } } := by
          refine journal_guarantee ht hs.2 rfl rfl hclosed (fun hp => ?_) fun h => ?_
          · rcases isPublished_setReceipt hp with heq | hp
            · rw [← heq] at hexists
              exact hpass hexists
            · exact hpass hp
          · simp [hrollback] at h
        refine (journalWrite_holds ht hmove).seq ?_ ?_
        · rintro _ t' ⟨-, ht', -⟩
          exact ht'
        · rintro _ t' ⟨ht', -⟩
          simpa using ht'
    · exact hs.1
  · rw [if_neg hexists]
    dsimp only
    split
    · refine (discardUnpublishedTemp_holds hs.1).seq ?_ ?_
      · rintro _ t ⟨-, ht, -⟩
        exact ht
      · rintro _ t ⟨ht, rfl⟩
        refine ⟨⟨ht, hs.2⟩, ?_⟩
        simp [Host.IsPublished, Slot.exists]
    · exact ⟨hs, hexists⟩

/-- Recovery does what its rollback does, and completes or keeps what is decided. -/
theorem recover_holds_of_rollback {faulty : Host → Prop} {guarantee : Host → Host → Prop}
    (hs : Recorded s) (hguarantee : ∀ s t, Guarantee s t → guarantee s t)
    (hrollback : ∀ j t, s.journal = some j → j.phase.isClosed = false → Current j t →
      ¬ t.IsPublished (passReceipt j.mode j.attempt) →
      Holds faulty guarantee (fun _ t => Recorded t) (fun _ t => Recorded t) (rollback j) t)
    (bundle : Bundle) (automatic : Bool) :
    Holds faulty guarantee (fun _ t => Recorded t) (fun _ t => Recorded t)
      (recover bundle automatic) s := by
  have hweak : ∀ {α : Type} {post : α → Host → Prop} {onExit : Unit → Host → Prop}
      {p : Recovery α} {t : Host}, Holds anyFault Guarantee post onExit p t →
      Holds faulty guarantee post onExit p t := fun h =>
    (h.mono hguarantee (fun _ _ h => h) fun _ _ h => h).restrict fun _ _ => trivial
  rw [recover]
  refine holds_bind.mpr (holds_orExit.mpr ⟨?_, fun _ => hs⟩)
  refine holds_bind.mpr (holds_get.mpr ?_)
  cases hj : s.journal with
  | none => exact hs
  | some j =>
    refine holds_bind.mpr (holds_require.mpr ?_)
    by_cases hbundle : decide (j.bundle = bundle) = true
    · rw [if_pos hbundle]
      refine holds_bind.mpr (holds_orExit.mpr ⟨?_, fun _ => hs⟩)
      refine (hweak (keeps_reconcilePublishedLoadCommit s ⟨hs, hj⟩)).seq (fun _ _ ht => ht.1)
        fun _ t ht => ?_
      have hroll : ∀ t', Current j t' → j.phase.isClosed = false →
          ¬ t'.IsPublished (passReceipt j.mode j.attempt) →
          Holds faulty guarantee (fun _ t => Recorded t) (fun _ t => Recorded t)
            (do rollback j; return 0 : Recovery ℕ) t' := fun t' ht' hclosed hpass =>
        (hrollback j t' hj hclosed ht' hpass).seq (fun _ _ h => h) fun _ _ h => h
      cases hphase : j.phase with
      | prepared | artifactsInstalled | guardStartIntent | guardActive | dropinInstalled
      | kubeletRestartIntent | awaitingReboot | rollbackIntent | recoveryRequired =>
        exact hroll t ht (by rw [hphase]; rfl) (ht.1.not_pass ht.2 (by rw [hphase]; rfl) _ _)
      | committed | rolledBack =>
        simp only [holds_bind, holds_get, holds_require, holds_orExit, holds_pure]
        split_ifs
        · exact ⟨ht.1, fun _ => ht.1⟩
        · exact ht.1
      | commitIntent =>
        have hintent := @completeIntent_holds j t ht .pass "verified" "verified" .committed
          (by rw [hphase]; rfl) (by rw [hphase]; rfl) fun _ => rfl
        refine (hweak hintent).seq (fun _ _ h => h) ?_
        rintro (_ | _) t' ht'
        · exact hroll t' ht'.1 (by rw [hphase]; rfl) ht'.2
        · exact ht'
      | awaitingRebootIntent =>
        have hunpassed : ∀ t', Current j t' → ¬ t'.IsPublished (passReceipt j.mode j.attempt) :=
          fun t' ht' => ht'.1.not_pass ht'.2 (by rw [hphase]; rfl) _ _
        have hintent := @completeIntent_holds j t ht .pendingReboot "pending" "pending"
          .awaitingReboot (by rw [hphase]; rfl) (by rw [hphase]; rfl)
          fun hp => absurd hp (hunpassed t ht)
        refine (hweak hintent).seq (fun _ _ h => h) ?_
        rintro (_ | _) t' ht'
        · exact hroll t' ht'.1 (by rw [hphase]; rfl) (hunpassed t' ht'.1)
        · exact ht'
    · rw [if_neg hbundle]
      exact hs

/-- A command of a recovery that started in `s` may fail in `t`: the recovery has not closed the
attempt that it found open. -/
def beforeClosing (s t : Host) : Prop :=
  (∀ j, s.journal = some j → j.phase.isClosed = true) ∨ untilRolledBack t

/-- Recovery makes admitted changes only, as long as no command fails once it has closed an
attempt. -/
theorem recover_holds (hs : Recorded s) (bundle : Bundle) (automatic : Bool) :
    Holds (beforeClosing s) Guarantee (fun _ t => Recorded t) (fun _ t => Recorded t)
      (recover bundle automatic) s := by
  refine recover_holds_of_rollback hs (fun _ _ h => h) ?_ bundle automatic
  intro j t hj hclosed ht hpass
  refine (rollback_holds ht hclosed hpass).restrict fun u hu => hu.resolve_left fun hall => ?_
  simp [hall j hj] at hclosed

/-- Whatever fails, recovery upholds what has passed. -/
theorem recover_holds_upheld (hs : Recorded s) (bundle : Bundle) (automatic : Bool) :
    Holds anyFault Upheld (fun _ t => Recorded t) (fun _ t => Recorded t)
      (recover bundle automatic) s :=
  recover_holds_of_rollback hs (fun _ _ h => h.upheld)
    (fun _ _ _ hclosed ht hpass => rollback_holds_upheld ht hclosed hpass) bundle automatic

end GuardTransaction
