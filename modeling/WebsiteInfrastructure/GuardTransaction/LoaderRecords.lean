import Mathlib
import WebsiteInfrastructure.GuardTransaction.Loader
import WebsiteInfrastructure.GuardTransaction.Records

/-!
# The loader respects the records

Whatever command fails in it, the loader and its exit handler make admitted changes only.
-/

namespace GuardTransaction

open Crash

variable {m : LoadMemory} {s : Host}

/-- The attempt in the variables is the current one, and has not passed. -/
structure Owns (m : LoadMemory) (s : Host) : Prop where
  recorded : Recorded s
  journal : ∃ l, s.loadJournal = some l ∧ l.attempt = m.attempt
  unpassed : ¬ s.IsPublished (loadPassReceipt m.attempt)
  table : m.tableCreated = true → s.table ≠ .other

/-- The exit handler may have to roll back. -/
def LoadMemory.isActive (m : LoadMemory) : Bool := m.tableCreated || m.phase.any LoadPhase.isOpen

/-- What the exit handler relies on. -/
structure Leaving (m : LoadMemory) (s : Host) : Prop where
  recorded : Recorded s
  journal : m.isActive = true → ∃ l, s.loadJournal = some l ∧ l.attempt = m.attempt
  unpassed : m.isActive = true → m.phase ≠ some .commitIntent →
    ¬ s.IsPublished (loadPassReceipt m.attempt)
  table : m.tableCreated = true → s.table ≠ .other

theorem Owns.leaving (h : Owns m s) : Leaving m s :=
  ⟨h.recorded, fun _ => h.journal, fun _ _ => h.unpassed, h.table⟩

theorem Leaving.of_inactive (hs : Recorded s) (hm : m.isActive = false) : Leaving m s := by
  refine ⟨hs, fun h => ?_, fun h => ?_, fun h => ?_⟩
  · simp [hm] at h
  · simp [hm] at h
  · simp [LoadMemory.isActive, h] at hm

/-- Another receipt does not matter. -/
theorem Owns.interrupted {t : Host} {name : ReceiptName} (h : Owns m s)
    (hname : name ≠ loadPassReceipt m.attempt) (ht : Interrupted s name t) : Owns m t := by
  obtain ⟨hrecorded, slot, rfl, -⟩ := ht
  exact ⟨hrecorded, h.journal,
    fun hp => h.unpassed ((isPublished_setReceipt_of_ne hname.symm).mp hp), h.table⟩

/-! ## Receipts and journal -/

theorem Owns.lt (h : Owns m s) : m.attempt < s.uuid := by
  obtain ⟨l, hl, heq⟩ := h.journal
  rw [← heq]
  exact h.recorded.load_lt l hl

theorem Owns.publishable {result : Result} (h : Owns m s) (hresult : result ≠ .pass) :
    Publishable s (loadReceiptPath m.attempt result) where
  lt := h.lt
  pass mode a heq := by cases heq
  rollback mode j _ heq := by cases heq
  loadPass a heq := by
    cases heq
    exact absurd rfl hresult
  loadRollback a heq := by
    cases heq
    exact h.unpassed

theorem loadReceiptWrite_holds {result : Result} {tableState rollback : String} (h : Owns m s)
    (hresult : result ≠ .pass) :
    Holds anyFault Guarantee
      (fun _ t => Owns m t ∧ t.table = s.table ∧ t.loadJournal = s.loadJournal)
      (fun _ _ => False) (loadReceiptWrite m result tableState rollback) s := by
  have hname : loadReceiptPath m.attempt result ≠ loadPassReceipt m.attempt := by
    intro heq
    cases heq
    exact hresult rfl
  rw [loadReceiptWrite, holds_subshell]
  refine (writeLoadReceipt_holds h.recorded (h.publishable hresult)).weaken ?_ ?_
  · rintro d t ⟨ht, rfl⟩
    exact ⟨h.interrupted hname ⟨ht, _, rfl, by simp [Slot.exists]⟩, rfl, rfl⟩
  · intro _ t ht
    obtain ⟨-, hrecorded, slot, rfl, hkeep⟩ := ht
    exact ⟨h.interrupted hname ⟨hrecorded, slot, rfl, hkeep⟩, rfl, rfl⟩

theorem loadJournalWrite_holds {phase : LoadPhase} {receipt : Option Document} (h : Owns m s)
    (htable : s.table = .absent ∨ phase.mayOwnTable = true) :
    Holds anyFault Guarantee
      (fun m' t => m' = { m with phase := some phase } ∧ Owns m' t ∧ t.table = s.table ∧
        ∃ l, t.loadJournal = some l ∧ l.attempt = m.attempt ∧ l.phase = phase)
      (fun m' t => m' = m ∧ Owns m' t) (loadJournalWrite m phase receipt) s := by
  obtain ⟨l, hl, hattempt⟩ := h.journal
  have hmove : Guarantee s { s with
      loadJournal := some ⟨phase, .absent, m.attempt, m.boot, receipt⟩ } := by
    refine loadJournal_guarantee h.recorded hl hattempt.symm (fun _ => rfl) (fun hp => ?_) fun a ha => ?_
    · rw [hattempt] at hp
      exact absurd hp h.unpassed
    · exact htable.resolve_left (by simp [ha])
  refine (writeLoadJournalRecord_holds h.recorded hmove).seq ?_ ?_
  · rintro _ t ⟨rfl, ht, rfl | rfl⟩
    · exact ⟨rfl, h⟩
    · exact ⟨rfl, ht, ⟨_, rfl, rfl⟩, h.unpassed, h.table⟩
  · rintro _ t ⟨ht, rfl⟩
    exact ⟨rfl, ⟨ht, ⟨_, rfl, rfl⟩, h.unpassed, h.table⟩, rfl, _, rfl, rfl, rfl⟩

/-! ## Rollback -/

/-- The end of a rollback: where it succeeds, the table is gone. -/
structure Undone (r : Bool × LoadMemory) (t : Host) : Prop where
  owns : Owns r.2 t
  done : r.1 = true → t.table = .absent ∧ r.2.phase = some .rolledBack

theorem closeRolledBack_holds (h : Owns m s) (htable : s.table = .absent) :
    Holds anyFault Guarantee Undone Owns (closeRolledBack m) s := by
  refine (loadReceiptWrite_holds h (by decide)).seq (fun _ _ hf => hf.elim) ?_
  rintro (_ | receipt) t ⟨ht, hsame, -⟩
  · exact ⟨ht, by simp⟩
  · refine (loadJournalWrite_holds ht (.inl (hsame.trans htable))).seq ?_ ?_
    · rintro m' t' ⟨-, hm'⟩
      exact hm'
    · rintro m' t' ⟨rfl, hm', htable', -⟩
      exact ⟨hm', fun _ => ⟨htable'.trans (hsame.trans htable), rfl⟩⟩

theorem requireRecovery_holds (h : Owns m s) :
    Holds anyFault Guarantee Undone Owns (requireRecovery m) s := by
  refine (loadReceiptWrite_holds h (by decide)).seq (fun _ _ hf => hf.elim) ?_
  rintro (_ | receipt) t ⟨ht, -, -⟩
  · exact ⟨ht, by simp⟩
  · refine (loadJournalWrite_holds ht (.inr rfl)).seq ?_ ?_
    · rintro m' t' ⟨-, hm'⟩
      exact hm'
    · rintro m' t' ⟨-, hm', -, -⟩
      exact ⟨hm', by simp⟩

/-- The table is deleted under a durable intent, and the end recorded. -/
theorem deleteAndClose_holds (h : Owns m s) (htable : s.table ≠ .other)
    (hintent : ∃ l, s.loadJournal = some l ∧ l.attempt = m.attempt ∧ l.phase = .rollbackIntent) :
    Holds anyFault Guarantee Undone Owns
      (do if ← deleteOwnedTableAndProveAbsent then closeRolledBack m else requireRecovery m) s := by
  obtain ⟨l, hl, hattempt, hphase⟩ := hintent
  have hunpassed : ¬ s.IsPublished (loadPassReceipt l.attempt) := by
    rw [hattempt]
    exact h.unpassed
  have hdelete := @deleteOwnedTable_holds LoadMemory s Owns h.recorded htable
    (.inr ⟨l, hl, hphase, hunpassed⟩)
  refine hdelete.seq (fun _ _ he => he) ?_
  rintro done t ⟨ht, hsame, hgone⟩
  have howns : Owns m t := by
    rcases hsame with rfl | rfl
    · exact h
    · exact ⟨ht, h.journal, h.unpassed, fun _ => by simp⟩
  cases done with
  | true => exact closeRolledBack_holds howns (hgone rfl)
  | false => exact requireRecovery_holds howns

theorem rollbackLoad_holds (h : Owns m s) :
    Holds anyFault Guarantee Undone Owns (rollbackLoad m) s := by
  rw [rollbackLoad, holds_ite]
  split_ifs with hrunning
  · exact ⟨h, by simp⟩
  · have hm : Owns { m with rollbackRunning := true } s := ⟨h.recorded, h.journal, h.unpassed, h.table⟩
    refine (loadJournalWrite_holds hm (.inr rfl)).seq ?_ ?_
    · rintro m' t ⟨-, hm'⟩
      exact hm'
    · rintro m' t ⟨rfl, hm', htable, hintent⟩
      rw [holds_ite]
      split_ifs with hcreated
      · exact deleteAndClose_holds hm' (by rw [htable]; exact h.table hcreated) hintent
      · refine holds_bind.mpr ⟨?_, fun _ => requireRecovery_holds hm'⟩
        refine holds_bind.mpr (holds_verifyAbsentCapture.mpr ?_)
        -- whatever the absence check answers, the live check may follow
        have hlive : Holds anyFault Guarantee Undone Owns (do
            let live ← verifyLiveCapture
            if !live then requireRecovery { m with rollbackRunning := true, phase := some .rollbackIntent }
            else if ← deleteOwnedTableAndProveAbsent then
              closeRolledBack { m with rollbackRunning := true, phase := some .rollbackIntent }
            else requireRecovery { m with rollbackRunning := true, phase := some .rollbackIntent }) t := by
          refine holds_bind.mpr (holds_verifyLiveCapture.mpr ⟨?_, fun _ => requireRecovery_holds hm'⟩)
          cases hexact : t.table.isExact with
          | false => exact requireRecovery_holds hm'
          | true => exact deleteAndClose_holds hm' (by rintro h; simp [h, Table.isExact] at hexact) hintent
        refine ⟨?_, fun _ => hlive⟩
        by_cases habsent : t.table = .absent
        · rw [decide_eq_true habsent]
          exact closeRolledBack_holds hm' habsent
        · rw [decide_eq_false habsent]
          exact hlive

theorem rollbackOnExit_holds (h : m.isActive = true → Owns m s) :
    Holds anyFault Guarantee (fun _ _ => True) (fun _ _ => True) (rollbackOnExit m) s := by
  rw [rollbackOnExit]
  split_ifs with hactive
  · refine holds_bind.mpr (holds_trap.mpr ?_)
    exact (rollbackLoad_holds (h hactive)).weaken (fun _ _ _ => trivial) fun _ _ _ => trivial
  · trivial

/-! ## The exit handler -/

theorem commit_guarantee (hs : Recorded s) {l : LoadJournal} (hl : s.loadJournal = some l) (boot : ℕ)
    (receipt : Option Document) : Guarantee s { s with
      loadJournal := some ⟨.committed, .absent, l.attempt, boot, receipt⟩ } :=
  loadJournal_guarantee hs hl rfl (fun _ => rfl) (fun _ => rfl) fun _ _ => rfl

theorem loadOnExit_holds (h : Leaving m s) :
    Holds anyFault Guarantee (fun _ _ => True) (fun _ _ => True) (loadOnExit m) s := by
  rw [loadOnExit, holds_ite]
  split_ifs with hphase
  · have hactive : m.isActive = true := by simp [LoadMemory.isActive, hphase, LoadPhase.isOpen]
    obtain ⟨l, hl, hattempt⟩ := h.journal hactive
    refine holds_bind.mpr (holds_get.mpr ?_)
    by_cases hexists : (s.receipts (loadReceiptPath m.attempt .pass)).exists = true
    · rw [if_pos hexists]
      split_ifs
      · refine holds_bind.mpr (holds_trap.mpr ?_)
        rw [loadReceiptWrite, holds_subshell]
        have hwrite := publishable_again h.recorded hexists
        refine (writeLoadReceipt_holds h.recorded hwrite).weaken ?_ fun _ _ _ => trivial
        rintro receipt t ⟨ht, rfl⟩
        refine holds_bind.mpr (holds_trap.mpr ?_)
        have hmove := commit_guarantee ht hl m.boot (some receipt)
        rw [hattempt] at hmove
        exact (writeLoadJournalRecord_holds ht hmove).seq (fun _ _ _ => trivial)
          fun _ _ _ => trivial
      · trivial
    · rw [if_neg hexists]
      have howns : Owns m s := ⟨h.recorded, ⟨l, hl, hattempt⟩, hexists, h.table⟩
      have hrest : ∀ t, Owns m t → Holds anyFault Guarantee (fun _ _ => True) (fun _ _ => True)
          (rollbackOnExit m) t := fun t ht => rollbackOnExit_holds fun _ => ht
      dsimp only
      split
      · refine (discardUnpublishedTemp_holds h.recorded).seq (fun _ _ _ => trivial) ?_
        rintro _ t ⟨ht, rfl⟩
        refine hrest _ ⟨ht, ⟨l, hl, hattempt⟩, ?_, h.table⟩
        simp [Host.IsPublished, loadReceiptPath, Slot.exists]
      · exact hrest s howns
  · exact rollbackOnExit_holds fun hactive =>
      ⟨h.recorded, h.journal hactive, h.unpassed hactive hphase, h.table⟩

/-! ## Interrupted attempts -/

/-- No attempt is open in the variables, and the records are in order. -/
def Idle (m : LoadMemory) (s : Host) : Prop := m.isActive = false ∧ Recorded s

theorem Idle.leaving (h : Idle m s) : Leaving m s := .of_inactive h.2 h.1

theorem rollbackInterrupted_holds (h : Owns m s) (hm : m.tableCreated = false) :
    Holds anyFault Guarantee Idle Leaving (rollbackInterrupted m) s := by
  have hlive : Holds anyFault Guarantee Idle Leaving (do
      if ← verifyLiveCapture then
        let r ← rollbackLoad { m with tableCreated := true }
        if r.1 then return { r.2 with tableCreated := false } else .exit r.2
      else .exit m) s := by
    refine holds_bind.mpr (holds_verifyLiveCapture.mpr ⟨?_, fun _ => h.leaving⟩)
    cases hexact : s.table.isExact with
    | false => exact h.leaving
    | true =>
      have hcreated : Owns { m with tableCreated := true } s := by
        refine ⟨h.recorded, h.journal, h.unpassed, fun _ hother => ?_⟩
        simp [hother, Table.isExact] at hexact
      refine (rollbackLoad_holds hcreated).seq (fun _ _ he => he.leaving) ?_
      rintro ⟨done, m'⟩ t hundone
      cases done with
      | true =>
        have hphase : m'.phase = some .rolledBack := (hundone.done rfl).2
        exact ⟨by simp [LoadMemory.isActive, hphase, LoadPhase.isOpen], hundone.owns.recorded⟩
      | false => exact hundone.owns.leaving
  rw [rollbackInterrupted]
  refine holds_bind.mpr (holds_orExit.mpr ⟨?_, fun _ => h.leaving⟩)
  refine holds_bind.mpr (holds_verifyAbsentCapture.mpr ⟨?_, fun _ => hlive⟩)
  by_cases habsent : s.table = .absent
  · rw [decide_eq_true habsent]
    refine (loadReceiptWrite_holds h (by decide)).seq (fun _ _ hf => hf.elim) ?_
    rintro (_ | receipt) t ⟨ht, hsame, -⟩
    · exact ht.leaving
    · refine (loadJournalWrite_holds ht (.inl (hsame.trans habsent))).weaken ?_ ?_
      · rintro m' t' ⟨rfl, hm', -⟩
        exact ⟨by simp [LoadMemory.isActive, hm, LoadPhase.isOpen], hm'.recorded⟩
      · rintro m' t' ⟨-, hm'⟩
        exact hm'.leaving
  · rw [decide_eq_false habsent]
    exact hlive

theorem completeInterrupted_holds {l : LoadJournal} (hs : Recorded s) (hl : s.loadJournal = some l)
    (hphase : m.phase = none) (hcreated : m.tableCreated = false) :
    Holds anyFault Guarantee Idle Leaving (completeInterrupted l m) s := by
  rw [completeInterrupted]
  generalize hm' : ({ m with attempt := l.attempt, boot := l.boot } : LoadMemory) = m'
  have hattempt : m'.attempt = l.attempt := by rw [← hm']
  have hcreated' : m'.tableCreated = false := by rw [← hm']; exact hcreated
  have hidle : ∀ t, Recorded t → Idle m' t :=
    fun t ht => ⟨by simp [LoadMemory.isActive, ← hm', hcreated, hphase], ht⟩
  have howns : ¬ s.IsPublished (loadPassReceipt l.attempt) → Owns m' s := fun hp =>
    ⟨hs, ⟨l, hl, hattempt.symm⟩, by rwa [hattempt], by simp [hcreated']⟩
  cases hlphase : l.phase with
  | committed | rolledBack =>
    simp only [holds_bind, holds_get, holds_require, holds_orExit, holds_pure]
    split_ifs
    · exact ⟨hidle s hs, fun _ => (hidle s hs).leaving⟩
    · exact (hidle s hs).leaving
  | prepared =>
    simp only [holds_bind, holds_require, holds_pure]
    split_ifs
    · exact hidle s hs
    · exact (hidle s hs).leaving
  | applyIntent | applied | rollbackIntent | recoveryRequired =>
    refine holds_bind.mpr (holds_require.mpr ?_)
    split_ifs
    · refine rollbackInterrupted_holds (howns fun hp => ?_) hcreated'
      -- a passed attempt is in another phase
      have hcommit := hs.loadPass l hl hp
      simp [hlphase, LoadPhase.isCommit] at hcommit
    · exact (hidle s hs).leaving
  | commitIntent =>
    refine holds_bind.mpr (holds_require.mpr ?_)
    split_ifs
    · refine holds_bind.mpr (holds_get.mpr ?_)
      by_cases hexists : (s.receipts (loadReceiptPath l.attempt .pass)).exists = true
      · rw [if_pos hexists]
        refine holds_bind.mpr (holds_require.mpr ?_)
        split_ifs
        · refine holds_bind.mpr ?_
          rw [loadReceiptWrite, holds_subshell]
          have hwrite := publishable_again hs hexists
          rw [← hattempt] at hwrite
          refine (writeLoadReceipt_holds hs hwrite).weaken ?_ ?_
          · rintro receipt t ⟨ht, rfl⟩
            have hmove := commit_guarantee ht hl m'.boot (some receipt)
            rw [← hattempt] at hmove
            refine (writeLoadJournalRecord_holds ht hmove).seq ?_ ?_
            · rintro _ t ⟨rfl, ht, -⟩
              exact (hidle t ht).leaving
            · rintro _ t ⟨ht, -⟩
              exact ⟨by simp [LoadMemory.isActive, hcreated', LoadPhase.isOpen], ht⟩
          · rintro _ t ⟨-, ht, -⟩
            exact (hidle t ht).leaving
        · exact (hidle s hs).leaving
      · rw [if_neg hexists]
        dsimp only
        split
        · refine (discardUnpublishedTemp_holds hs).seq ?_ ?_
          · rintro _ t ⟨rfl, ht, -⟩
            exact (hidle t ht).leaving
          · rintro _ t ⟨ht, rfl⟩
            refine rollbackInterrupted_holds ⟨ht, ⟨l, hl, hattempt.symm⟩, ?_, by simp [hcreated']⟩
              hcreated'
            rw [hattempt]
            simp [Host.IsPublished, loadReceiptPath, Slot.exists]
        · exact rollbackInterrupted_holds (howns hexists) hcreated'
    · exact (hidle s hs).leaving

/-! ## A fresh attempt -/

/-- The attempt in the variables is in a phase, and has left no receipt. -/
structure Attempting (m : LoadMemory) (p : LoadPhase) (s : Host) : Prop where
  recorded : Recorded s
  phase : m.phase = some p
  journal : ∃ l, s.loadJournal = some l ∧ l.attempt = m.attempt ∧ l.prestate = .absent ∧ l.phase = p
  clean : ∀ name, name.attempt = m.attempt → s.receipts name = .absent
  table : s.table ≠ .other

theorem Attempting.owns {phase : LoadPhase} (h : Attempting m phase s) : Owns m s := by
  obtain ⟨l, hl, hattempt, -⟩ := h.journal
  refine ⟨h.recorded, ⟨l, hl, hattempt⟩, ?_, fun _ => h.table⟩
  simp [Host.IsPublished, h.clean (loadPassReceipt m.attempt) rfl, Slot.exists]

/-- The next phase of a fresh attempt. -/
theorem advance_holds {phase next : LoadPhase} (h : Attempting m phase s)
    (hnext : next.mayOwnTable = true) :
    Holds anyFault Guarantee
      (fun m' t => m' = { m with phase := some next } ∧ Attempting m' next t ∧ t.table = s.table)
      Leaving (loadJournalWrite m next none) s := by
  obtain ⟨l, hl, hattempt, hphase⟩ := h.journal
  have howns := h.owns
  have hmove : Guarantee s { s with loadJournal := some ⟨next, .absent, m.attempt, m.boot, none⟩ } := by
    refine loadJournal_guarantee h.recorded hl hattempt.symm (fun _ => rfl) (fun hp => ?_) fun _ _ => hnext
    rw [hattempt] at hp
    exact absurd hp howns.unpassed
  refine (writeLoadJournalRecord_holds h.recorded hmove).seq ?_ ?_
  · rintro _ t ⟨rfl, ht, rfl | rfl⟩
    · exact howns.leaving
    · exact (Owns.mk ht ⟨_, rfl, rfl⟩ howns.unpassed howns.table).leaving
  · rintro _ t ⟨ht, rfl⟩
    exact ⟨rfl, ⟨ht, rfl, ⟨_, rfl, rfl, rfl, rfl⟩, h.clean, h.table⟩, rfl⟩

theorem loadCommit_holds (h : Attempting m .applied s) :
    Holds anyFault Guarantee (fun _ t => Recorded t) Leaving (do
      let m ← loadJournalWrite m .commitIntent none
      match ← loadReceiptWrite m .pass "verified" "not-needed" with
      | none => .exit m
      | some receipt =>
        let _ ← loadJournalWrite m .committed (some receipt)
        return ()) s := by
  refine (advance_holds h rfl).seq (fun _ _ he => he) ?_
  rintro m' t ⟨-, ht, -⟩
  obtain ⟨l, hl, hattempt, -, hphase⟩ := ht.journal
  have hleaving : ∀ t', Recorded t' → t'.loadJournal = t.loadJournal → t'.table = t.table →
      Leaving m' t' := fun t' hr hj htable =>
    ⟨hr, fun _ => ⟨l, hj.trans hl, hattempt⟩, fun _ hne => absurd ht.phase hne,
      fun _ => by rw [htable]; exact ht.table⟩
  have hwrite : Publishable t (loadReceiptPath m'.attempt .pass) := by
    refine ⟨ht.owns.lt, (fun _ _ heq => by cases heq), (fun _ _ _ heq => by cases heq), ?_,
      fun _ heq => by cases heq⟩
    intro a heq
    cases heq
    refine ⟨?_, fun l₀ hl₀ _ => ?_⟩
    · simp [Host.IsPublished, ht.clean (loadRollbackReceipt m'.attempt) rfl, Slot.exists]
    · obtain rfl := Option.some.inj (hl₀.symm.trans hl)
      rw [hphase]
      rfl
  refine holds_bind.mpr ?_
  rw [loadReceiptWrite, holds_subshell]
  refine (writeLoadReceipt_holds ht.recorded hwrite).weaken ?_ ?_
  · rintro receipt t' ⟨ht', rfl⟩
    have hmove := commit_guarantee ht' hl m'.boot (some receipt)
    rw [hattempt] at hmove
    have hjournal : Holds anyFault Guarantee (fun _ t => Recorded t) Leaving
        (loadJournalWrite m' .committed (some receipt))
        (t.setReceipt (loadReceiptPath m'.attempt .pass) (.published receipt)) := by
      refine (writeLoadJournalRecord_holds ht' hmove).seq ?_ ?_
      · rintro _ t'' ⟨rfl, hr, rfl | rfl⟩
        · exact hleaving _ hr rfl rfl
        · exact ⟨hr, fun _ => ⟨_, rfl, rfl⟩, fun _ hne => absurd ht.phase hne, fun _ => ht.table⟩
      · rintro _ t'' ⟨hr, -⟩
        exact hr
    exact hjournal.seq (fun _ _ he => he) fun _ _ hr => hr
  · rintro _ t' ⟨-, hr, slot, rfl, -⟩
    exact hleaving _ hr rfl rfl

/-- Drawing a UUID leaves the records as they are. -/
theorem bump_guarantee (hs : Recorded s) : Guarantee s { s with uuid := s.uuid + 1 } :=
  SameRecords.guarantee ⟨rfl, rfl, rfl, rfl, Nat.le_succ _⟩ hs fun _ _ _ => ⟨rfl, rfl, rfl⟩

/-- The UUID that is drawn is fresh. -/
theorem bump_isFresh (hs : Recorded s) : Host.IsFresh { s with uuid := s.uuid + 1 } s.uuid := by
  refine ⟨fun name hname => ?_, fun j hj => (hs.journal_lt j hj).ne, fun l hl => (hs.load_lt l hl).ne⟩
  by_contra habsent
  exact (hs.receipt_lt name habsent).ne hname

theorem loadPrepare_holds (h : Idle m s) (habsent : s.table = .absent) :
    Holds anyFault Guarantee
      (fun m' t => m'.attempt = s.uuid ∧ Attempting m' .prepared t ∧ t.table = .absent) Leaving
      (loadJournalWrite { m with attempt := s.uuid, boot := s.boot } .prepared none)
      { s with uuid := s.uuid + 1 } := by
  have hbump := bump_guarantee h.2
  have hfresh := bump_isFresh h.2
  have hmove : Guarantee { s with uuid := s.uuid + 1 } { s with
      uuid := s.uuid + 1, loadJournal := some ⟨.prepared, .absent, s.uuid, s.boot, none⟩ } :=
    fresh_loadJournal_guarantee hbump.1 rfl (Nat.lt_succ_self _) hfresh habsent
  refine (writeLoadJournalRecord_holds hbump.1 hmove).seq ?_ ?_
  · rintro _ t ⟨rfl, ht, -⟩
    exact Leaving.of_inactive ht h.1
  · rintro _ t ⟨ht, rfl⟩
    exact ⟨rfl, ⟨ht, rfl, ⟨_, rfl, rfl, rfl, rfl⟩, hfresh.1, by simp [habsent]⟩, habsent⟩

/-- From the applied ruleset to its commit. -/
theorem loadApplied_holds (h : Attempting m .applyIntent s) :
    Holds anyFault Guarantee (fun _ t => Recorded t) Leaving (do
      .orExit m
      let m := { m with tableCreated := true }
      let m ← loadJournalWrite m .applied none
      .orExit m
      .require (← verifyLiveCapture) m
      let m ← loadJournalWrite m .commitIntent none
      match ← loadReceiptWrite m .pass "verified" "not-needed" with
      | none => .exit m
      | some receipt =>
        let _ ← loadJournalWrite m .committed (some receipt)
        return ()) s := by
  refine holds_bind.mpr (holds_orExit.mpr ⟨?_, fun _ => h.owns.leaving⟩)
  have hcreated : Attempting { m with tableCreated := true } .applyIntent s :=
    ⟨h.recorded, h.phase, h.journal, h.clean, h.table⟩
  refine (advance_holds hcreated rfl).seq (fun _ _ he => he) ?_
  rintro m' t ⟨-, ht, -⟩
  refine holds_bind.mpr (holds_orExit.mpr ⟨?_, fun _ => ht.owns.leaving⟩)
  refine holds_bind.mpr (holds_verifyLiveCapture.mpr ⟨?_, fun _ => ht.owns.leaving⟩)
  refine holds_bind.mpr (holds_require.mpr ?_)
  split_ifs
  · exact loadCommit_holds ht
  · exact ht.owns.leaving

theorem loadFresh_holds (h : Idle m s) (habsent : s.table = .absent) :
    Holds anyFault Guarantee (fun _ t => Recorded t) Leaving (loadFresh m) s := by
  rw [loadFresh]
  refine holds_bind.mpr (holds_orExit.mpr ⟨?_, fun _ => h.leaving⟩)
  refine holds_bind.mpr (holds_get.mpr ?_)
  refine holds_bind.mpr (holds_modify.mpr ⟨bump_guarantee h.2, ?_⟩)
  refine (loadPrepare_holds h habsent).seq (fun _ _ he => he) ?_
  rintro m₁ t₁ ⟨hattempt, h₁, habsent₁⟩
  refine holds_bind.mpr (holds_orExit.mpr ⟨?_, fun _ => h₁.owns.leaving⟩)
  refine (advance_holds h₁ rfl).seq (fun _ _ he => he) ?_
  rintro m₂ t₂ ⟨hm₂, h₂, htable₂⟩
  obtain ⟨l, hl, hla, hpre, hlp⟩ := h₂.journal
  have hattempt₂ : m₂.attempt = s.uuid := by rw [hm₂]; exact hattempt
  have hcreate := create_table_guarantee h₂.recorded hl hpre (by rw [hlp]; rfl) (htable₂.trans habsent₁)
  rw [hla, hattempt₂] at hcreate
  have hafter : Attempting m₂ .applyIntent { t₂ with table := .exact (some s.uuid) } :=
    ⟨hcreate.1, h₂.phase, ⟨l, hl, hla, hpre, hlp⟩, h₂.clean, by simp⟩
  refine (nft_holds h₂.recorded hcreate).seq (fun _ _ he => he) ?_
  rintro applied t ⟨-, hdone⟩
  refine holds_bind.mpr (holds_require.mpr ?_)
  cases applied with
  | true =>
    obtain rfl : t = { t₂ with table := .exact (some s.uuid) } := hdone.resolve_right (by simp)
    exact loadApplied_holds hafter
  | false =>
    rcases hdone with rfl | ⟨-, rfl⟩
    · exact hafter.owns.leaving
    · exact h₂.owns.leaving

theorem loadBody_holds (hs : Recorded s) :
    Holds anyFault Guarantee (fun _ t => Recorded t) Leaving loadBody s := by
  have hidle : Idle ({} : LoadMemory) s := ⟨rfl, hs⟩
  have hrest : ∀ m t, Idle m t → Holds anyFault Guarantee (fun _ t => Recorded t) Leaving (do
      .orExit m
      if ← verifyAbsentCapture then loadFresh m
      else if ← verifyLiveCapture then return ()
      else .exit m) t := by
    intro m t h
    refine holds_bind.mpr (holds_orExit.mpr ⟨?_, fun _ => h.leaving⟩)
    have hlive : Holds anyFault Guarantee (fun _ t => Recorded t) Leaving
        (do if ← verifyLiveCapture then return () else .exit m) t := by
      refine holds_bind.mpr (holds_verifyLiveCapture.mpr ⟨?_, fun _ => h.leaving⟩)
      cases t.table.isExact with
      | true => exact h.2
      | false => exact h.leaving
    refine holds_bind.mpr (holds_verifyAbsentCapture.mpr ⟨?_, fun _ => hlive⟩)
    by_cases habsent : t.table = .absent
    · rw [decide_eq_true habsent]
      exact loadFresh_holds h habsent
    · rw [decide_eq_false habsent]
      exact hlive
  rw [loadBody]
  refine holds_bind.mpr (holds_orExit.mpr ⟨?_, fun _ => hidle.leaving⟩)
  refine holds_bind.mpr (holds_get.mpr ?_)
  cases hl : s.loadJournal with
  | none => exact hrest _ _ hidle
  | some l => exact (completeInterrupted_holds hs hl rfl rfl).seq (fun _ _ he => he) hrest

/-- The loader makes admitted changes only. -/
theorem load_holds (hs : Recorded s) :
    Holds anyFault Guarantee (fun _ t => Recorded t) (fun _ t => Recorded t) load s := by
  have hload : Holds anyFault Guarantee (fun _ _ => True) (fun _ _ => True) load s := by
    refine holds_trap.mpr ((loadBody_holds hs).weaken (fun _ _ _ => trivial) ?_)
    exact fun m t h => loadOnExit_holds h
  exact (hload.carry hs fun _ _ _ h => h.1).mono (fun _ _ h => h.1) (fun _ _ h => h.2) fun _ _ h => h.2

end GuardTransaction
