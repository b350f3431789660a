import Mathlib
import WebsiteInfrastructure.GuardTransaction.Undoing

/-!
# Undisturbed runs of the loader

The loader completes or rolls back what an earlier run has left, and ends with an exact table.
-/

namespace GuardTransaction

open Crash

variable {ε α β : Type} {s : Host} {m : LoadMemory} {l : LoadJournal}

/-- While no command fails, the program returns. -/
def Ends (p : Prog Host ε α) (s : Host) (post : α → Host → Prop) : Prop :=
  Holds noFault (fun _ _ => True) post (fun _ _ => False) p s

theorem Ends.seq {p : Prog Host ε α} {k : α → Prog Host ε β} {post : α → Host → Prop}
    {post' : β → Host → Prop} (hp : Ends p s post) (hk : ∀ a t, post a t → Ends (k a) t post') :
    Ends (p >>= k) s post' := Holds.seq hp (fun _ _ h => h) hk

theorem ends_orExit {e : ε} {post : Unit → Host → Prop} (h : post () s) :
    Ends (.orExit e : Prog Host ε Unit) s post := holds_orExit.mpr ⟨h, fun h => h⟩

theorem ends_require {b : Bool} {e : ε} {post : Unit → Host → Prop} (hb : b = true) (h : post () s) :
    Ends (.require b e : Prog Host ε Unit) s post := holds_require.mpr (by rwa [if_pos hb])

/-- A result of an attempt that is published and recorded. -/
structure LoadClosed (a : Attempt) (b : ℕ) (phase : LoadPhase) (result : Result) (t : Host) : Prop where
  journal : t.loadJournal = some ⟨phase, .absent, a, b, some (loadReceipt a b result)⟩
  receipt : t.receipts (loadReceiptPath a result) = .published (loadReceipt a b result)

/-! ## Records -/

theorem loadReceiptWrite_ends {result : Result} {tableState rollback : String}
    (hcontents : Contents m.attempt m.boot s)
    (hdocument : loadReceiptDocument m.attempt m.boot result tableState rollback =
      loadReceipt m.attempt m.boot result) :
    Ends (loadReceiptWrite m result tableState rollback) s (fun o t =>
      o = some (loadReceipt m.attempt m.boot result) ∧
        t = s.setReceipt (loadReceiptPath m.attempt result)
          (.published (loadReceipt m.attempt m.boot result))) := by
  rw [Ends, loadReceiptWrite, holds_subshell]
  refine (writeLoadReceipt_noFault hdocument (hcontents result)).mono (fun _ _ _ => trivial) ?_
    fun _ _ h => h.elim
  rintro _ t ⟨rfl, rfl⟩
  exact ⟨rfl, rfl⟩

theorem loadJournalWrite_ends {phase : LoadPhase} {receipt : Option Document} :
    Ends (loadJournalWrite m phase receipt) s (fun m' t => m' = { m with phase := some phase } ∧
      t = { s with loadJournal := some ⟨phase, .absent, m.attempt, m.boot, receipt⟩ }) := by
  simp only [Ends, loadJournalWrite, writeLoadJournalRecord, holds_bind, holds_orExit, holds_modify,
    holds_pure]
  exact ⟨⟨trivial, ⟨trivial, trivial⟩, fun h => h⟩, fun h => h⟩

/-- The end of each attempt: its receipt, and the phase that records it. -/
theorem closeAttempt_ends {result : Result} {phase : LoadPhase} {tableState rollback : String}
    {otherwise : Load LoadMemory} (hcontents : Contents m.attempt m.boot s)
    (hdocument : loadReceiptDocument m.attempt m.boot result tableState rollback =
      loadReceipt m.attempt m.boot result) :
    Ends (do
      match ← loadReceiptWrite m result tableState rollback with
      | none => otherwise
      | some receipt => loadJournalWrite m phase (some receipt)) s
      (fun _ t => LoadClosed m.attempt m.boot phase result t ∧ t.table = s.table) := by
  refine (loadReceiptWrite_ends hcontents hdocument).seq ?_
  rintro _ t ⟨rfl, rfl⟩
  refine loadJournalWrite_ends.weaken ?_ fun _ _ h => h
  rintro _ t ⟨-, rfl⟩
  exact ⟨⟨rfl, setReceipt_self _ _ _⟩, rfl⟩

/-! ## The rollback of an interrupted attempt -/

/-- The table is proven absent, and the attempt rolled back. -/
def RolledBack (a : Attempt) (b : ℕ) (t : Host) : Prop :=
  LoadClosed a b .rolledBack .rollbackVerified t ∧ t.table = .absent

theorem closeRolledBack_ends (hcontents : Contents m.attempt m.boot s) (habsent : s.table = .absent) :
    Ends (closeRolledBack m) s (fun r t => r.1 = true ∧ RolledBack m.attempt m.boot t) := by
  rw [closeRolledBack]
  refine (loadReceiptWrite_ends hcontents rfl).seq ?_
  rintro _ t ⟨rfl, rfl⟩
  refine loadJournalWrite_ends.seq ?_
  rintro _ t ⟨-, rfl⟩
  exact ⟨rfl, ⟨rfl, setReceipt_self _ _ _⟩, habsent⟩

theorem deleteOwnedTable_ends (htable : s.table ≠ .absent) :
    Ends (deleteOwnedTableAndProveAbsent : Load Bool) s
      (fun done t => done = true ∧ t = { s with table := .absent }) := by
  simp [Ends, deleteOwnedTableAndProveAbsent, nft, htable, noFault]

theorem rollbackLoad_ends (hcontents : Contents m.attempt m.boot s) (htable : s.table ≠ .absent)
    (hcreated : m.tableCreated = true) (hrunning : m.rollbackRunning = false) :
    Ends (rollbackLoad m) s (fun r t => r.1 = true ∧ RolledBack m.attempt m.boot t) := by
  have hrunning' : ¬ m.rollbackRunning = true := by simp [hrunning]
  rw [rollbackLoad, if_neg hrunning']
  refine loadJournalWrite_ends.seq ?_
  rintro _ t ⟨rfl, rfl⟩
  dsimp only
  rw [if_pos hcreated]
  refine Ends.seq (deleteOwnedTable_ends htable) ?_
  rintro _ u ⟨rfl, rfl⟩
  rw [if_pos rfl]
  exact closeRolledBack_ends (m := { m with rollbackRunning := true, phase := some .rollbackIntent })
    hcontents rfl

theorem rollbackInterrupted_ends (hcontents : Contents m.attempt m.boot s) (htable : s.table ≠ .other)
    (hrunning : m.rollbackRunning = false) :
    Ends (rollbackInterrupted m) s (fun _ t => RolledBack m.attempt m.boot t) := by
  rw [rollbackInterrupted]
  refine holds_bind.mpr (ends_orExit ?_)
  refine holds_bind.mpr (holds_verifyAbsentCapture.mpr ⟨?_, fun h => h.elim⟩)
  cases hstate : s.table with
  | absent =>
    rw [decide_eq_true rfl, if_pos rfl]
    refine (closeAttempt_ends hcontents rfl).weaken (fun _ t ht => ?_) fun _ _ h => h
    exact ⟨ht.1, ht.2.trans hstate⟩
  | exact creator =>
    rw [decide_eq_false (by simp), if_neg (by simp)]
    refine holds_bind.mpr (holds_verifyLiveCapture.mpr ⟨?_, fun h => h.elim⟩)
    rw [hstate]
    refine (rollbackLoad_ends (m := { m with tableCreated := true }) hcontents (by simp [hstate]) rfl
      hrunning).seq ?_
    rintro ⟨done, m'⟩ t ⟨hdone, hrolled⟩
    obtain rfl : done = true := hdone
    exact hrolled
  | other => exact absurd hstate htable

/-! ## The interrupted attempt -/

/-- What the loader makes of an attempt that it finds. -/
def Resolves (l : LoadJournal) (s t : Host) : Prop :=
  match l.phase with
  | .prepared | .committed | .rolledBack => t = s
  | .commitIntent =>
    if (s.receipts (loadReceiptPath l.attempt .pass)).exists then
      LoadClosed l.attempt l.boot .committed .pass t ∧ t.table = s.table
    else RolledBack l.attempt l.boot t
  | .applyIntent | .applied | .rollbackIntent | .recoveryRequired => RolledBack l.attempt l.boot t

theorem completeInterrupted_ends (hsound : LoadSound s) (hl : s.loadJournal = some l)
    (htable : s.table ≠ .other)
    (hlinked : l.phase = .commitIntent → ∀ d, s.receipts (loadReceiptPath l.attempt .pass) ≠ .linked d)
    (hrunning : m.rollbackRunning = false) :
    Ends (completeInterrupted l m) s (fun _ t => Resolves l s t) := by
  have hjournal := hsound.journal l hl
  have hcontents := hsound.contents l hl
  have hverify : ∀ result, l.phase.result? = some result →
      ((s.receipts (loadReceiptPath l.attempt result)).rootFile?.isSome &&
        decide ((s.receipts (loadReceiptPath l.attempt result)).rootFile? = l.receipt)) = true := by
    intro result hresult
    obtain ⟨d, hpublished, hreceipt⟩ := hjournal.closed result hresult
    simp [hpublished, hreceipt, Slot.rootFile?]
  have hrollback : ∀ t : Host, Contents l.attempt l.boot t → t.table ≠ .other →
      Ends (rollbackInterrupted { m with attempt := l.attempt, boot := l.boot }) t
        (fun _ u => RolledBack l.attempt l.boot u) := fun t ht htable =>
    rollbackInterrupted_ends (m := { m with attempt := l.attempt, boot := l.boot }) ht htable hrunning
  rw [completeInterrupted]
  cases hphase : l.phase with
  | prepared =>
    refine holds_bind.mpr (ends_require (decide_eq_true hjournal.prestate) ?_)
    simp [Resolves, hphase]
  | committed =>
    refine holds_bind.mpr (holds_get.mpr ?_)
    refine holds_bind.mpr (ends_require (hverify .pass (by rw [hphase]; rfl)) ?_)
    refine holds_bind.mpr (ends_orExit ?_)
    simp [Resolves, hphase]
  | rolledBack =>
    refine holds_bind.mpr (holds_get.mpr ?_)
    refine holds_bind.mpr (ends_require (hverify .rollbackVerified (by rw [hphase]; rfl)) ?_)
    refine holds_bind.mpr (ends_orExit ?_)
    simp [Resolves, hphase]
  | applyIntent | applied | rollbackIntent | recoveryRequired =>
    refine holds_bind.mpr (ends_require (decide_eq_true hjournal.prestate) ?_)
    simp only [Resolves, hphase]
    exact hrollback s hcontents htable
  | commitIntent =>
    have hintent : (decide (l.prestate = .absent) && decide (l.receipt = none)) = true := by
      rw [decide_eq_true hjournal.prestate, decide_eq_true (hjournal.intent (by rw [hphase]; rfl))]
      rfl
    refine holds_bind.mpr (ends_require hintent ?_)
    refine holds_bind.mpr (holds_get.mpr ?_)
    simp only [Resolves, hphase]
    have hpass := hcontents .pass
    cases hslot : s.receipts (loadReceiptPath l.attempt .pass) with
    | linked d => exact absurd hslot (hlinked hphase d)
    | collided d =>
      rw [hslot] at hpass
      exact hpass.elim
    | published d =>
      refine holds_bind.mpr (ends_require rfl ?_)
      exact closeAttempt_ends (m := { m with attempt := l.attempt, boot := l.boot }) hcontents rfl
    | absent =>
      exact hrollback s hcontents htable
    | temporary content =>
      have hdiscard : Ends (discardUnpublishedTemp (loadReceiptPath l.attempt .pass)
          { m with attempt := l.attempt, boot := l.boot }) s
          (fun _ t => t = s.setReceipt (loadReceiptPath l.attempt .pass) .absent) := by
        refine (discardUnpublishedTemp_noFault (by simp [hslot, Slot.exists])).mono
          (fun _ _ _ => trivial) (fun _ _ h => h) fun _ _ h => h
      refine hdiscard.seq ?_
      rintro _ t rfl
      refine hrollback _ (fun result => ?_) htable
      by_cases heq : result = .pass
      · subst heq
        rw [setReceipt_self]
        trivial
      · rw [setReceipt_of_ne s _ (by simp [loadReceiptPath, heq])]
        exact hcontents result

/-! ## A fresh attempt, and the whole run -/

theorem loadFresh_ends (hs : Recorded s) : Ends (loadFresh m) s (fun _ t =>
    LoadClosed s.uuid s.boot .committed .pass t ∧ t.table = .exact (some s.uuid)) := by
  have hcontents : Contents s.uuid s.boot s := by
    intro result
    rw [(bump_isFresh hs).1 (loadReceiptPath s.uuid result) rfl]
    trivial
  rw [loadFresh]
  refine holds_bind.mpr (ends_orExit ?_)
  refine holds_bind.mpr (holds_get.mpr ?_)
  refine holds_bind.mpr (holds_modify.mpr ⟨trivial, ?_⟩)
  refine loadJournalWrite_ends.seq ?_
  rintro _ t ⟨rfl, rfl⟩
  refine holds_bind.mpr (ends_orExit ?_)
  refine loadJournalWrite_ends.seq ?_
  rintro _ t ⟨rfl, rfl⟩
  have happly : ∀ t : Host, Ends (nft fun u => { u with table := .exact (some s.uuid) } : Load Bool) t
      (fun applied u => applied = true ∧ u = { t with table := .exact (some s.uuid) }) := by
    intro t
    simp [Ends, nft, noFault]
  refine (happly _).seq ?_
  rintro _ t ⟨rfl, rfl⟩
  refine holds_bind.mpr (ends_require rfl ?_)
  refine holds_bind.mpr (ends_orExit ?_)
  refine loadJournalWrite_ends.seq ?_
  rintro _ t ⟨rfl, rfl⟩
  refine holds_bind.mpr (ends_orExit ?_)
  refine holds_bind.mpr (holds_verifyLiveCapture.mpr ⟨?_, fun h => h.elim⟩)
  refine holds_bind.mpr (ends_require rfl ?_)
  refine loadJournalWrite_ends.seq ?_
  rintro _ t ⟨rfl, rfl⟩
  refine (loadReceiptWrite_ends hcontents rfl).seq ?_
  rintro _ t ⟨rfl, rfl⟩
  refine loadJournalWrite_ends.seq ?_
  rintro _ t ⟨-, rfl⟩
  exact ⟨⟨rfl, setReceipt_self _ _ _⟩, rfl⟩

/-- The rest of the run, once no attempt is in the way. -/
theorem loadRest_ends (hs : Recorded s) (htable : s.table ≠ .other) :
    Ends (do
      .orExit m
      if ← verifyAbsentCapture then loadFresh m
      else if ← verifyLiveCapture then return ()
      else .exit m) s (fun _ t => t.table.isExact = true) := by
  refine holds_bind.mpr (ends_orExit ?_)
  refine holds_bind.mpr (holds_verifyAbsentCapture.mpr ⟨?_, fun h => h.elim⟩)
  cases hstate : s.table with
  | absent =>
    rw [decide_eq_true rfl, if_pos rfl]
    refine (loadFresh_ends hs).weaken (fun _ t ht => ?_) fun _ _ h => h
    rw [ht.2]
    rfl
  | exact creator =>
    rw [decide_eq_false (by simp), if_neg (by simp)]
    refine holds_bind.mpr (holds_verifyLiveCapture.mpr ⟨?_, fun h => h.elim⟩)
    rw [hstate]
    simp [Table.isExact, hstate]
  | other => exact absurd hstate htable

theorem Resolves.table {t : Host} (h : Resolves l s t) (htable : s.table ≠ .other) :
    t.table ≠ .other := by
  have hrolled : ∀ {a b}, RolledBack a b t → t.table ≠ .other := fun h => by simp [h.2]
  unfold Resolves at h
  cases hphase : l.phase with
  | prepared | committed | rolledBack =>
    obtain rfl : t = s := by simpa [hphase] using h
    exact htable
  | applyIntent | applied | rollbackIntent | recoveryRequired =>
    exact hrolled (by simpa [hphase] using h)
  | commitIntent =>
    simp only [hphase] at h
    split_ifs at h
    · rw [h.2]
      exact htable
    · exact hrolled h

/-- Without a command that fails, the loader resolves the attempt that it finds, and ends with an
exact table. -/
theorem load_resolves (hs : Recorded s) (hsound : LoadSound s) (hl : s.loadJournal = some l)
    (htable : s.table ≠ .other)
    (hlinked : l.phase = .commitIntent → ∀ d, s.receipts (loadReceiptPath l.attempt .pass) ≠ .linked d) :
    ∃ t u, Leaves noFault load s t ∧ Resolves l s t ∧ load.run s = (.inr (), u) ∧
      u.table.isExact = true := by
  have hcomplete : Ends (completeInterrupted l {}) s (fun m t => Resolves l s t ∧ Recorded t) := by
    have hrecorded : Holds noFault Guarantee Idle Leaving (completeInterrupted l {}) s :=
      (completeInterrupted_holds hs hl rfl rfl).restrict fun _ _ => trivial
    exact ((completeInterrupted_ends hsound hl htable hlinked rfl).and hrecorded).mono
      (fun _ _ _ => trivial) (fun _ _ h => ⟨h.1, h.2.2⟩) fun _ _ h => h.1
  have hbody : Ends loadBody s (fun _ t => t.table.isExact = true) := by
    rw [loadBody]
    refine holds_bind.mpr (ends_orExit ?_)
    refine holds_bind.mpr (holds_get.mpr ?_)
    rw [hl]
    refine hcomplete.seq fun m t ht => ?_
    exact loadRest_ends ht.2 (ht.1.table htable)
  obtain ⟨m, hrun, hresolves, -⟩ := hcomplete.run_ret
  have hload : Ends load s (fun _ t => t.table.isExact = true) :=
    holds_trap.mpr (hbody.weaken (fun _ _ h => h) fun _ _ h => h.elim)
  obtain ⟨_, hrun', hexact⟩ := hload.run_ret
  refine ⟨_, _, ?_, hresolves, hrun', hexact⟩
  have hreached : Reaches noFault (completeInterrupted l {}, s)
      (.ret m, ((completeInterrupted l {}).run s).2) := by
    have h := @reaches_run _ _ _ noFault (completeInterrupted l {}) s
    rwa [hrun] at h
  have hfound : Reaches noFault (loadBody, s) (completeInterrupted l {} >>= fun m => do
      .orExit m
      if ← verifyAbsentCapture then loadFresh m
      else if ← verifyLiveCapture then return ()
      else .exit m, s) := by
    refine .head .ok (.head .read ?_)
    simp only [Prog.bind]
    rw [hl]
  have hreturned := Relation.ReflTransGen.trans hfound (hreached.bind _)
  exact ⟨_, Reaches.trap hreturned loadOnExit⟩

end GuardTransaction
