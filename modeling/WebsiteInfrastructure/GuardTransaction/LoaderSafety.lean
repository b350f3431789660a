import Mathlib
import WebsiteInfrastructure.GuardTransaction.Publications

/-!
# Safety of the loader

A loader that ends with status 0 has verified the table after its last change, what it leaves
behind is covered by its journal and resolved by the next run, and a table that no intent covers is
left alone.
-/

namespace GuardTransaction

open Crash

variable {s : Host} {m : LoadMemory} {l : LoadJournal}

/-! ## Exit status 0 -/

/-- A change of anything but the table. -/
def SameTable (s t : Host) : Prop := t.table = s.table

/-- A verification of the table, with the rest of the program: after a success the table stays as it
is until the program ends, and after a failure the program does not return. -/
def VerifiesLoad (q : Load Unit) (u : Host) : Prop :=
  ∃ k : Bool → Load Unit, q = verifyLiveCapture >>= k ∧
    Holds anyFault SameTable (fun _ _ => True) (fun _ _ => True) (k true) u ∧
    Holds anyFault (fun _ _ => True) (fun _ _ => False) (fun m _ => m.phase ≠ some .commitIntent)
      (k false) u

/-- The same of the loader with its exit handler. -/
def Verifies (q : Prog Host Unit Unit) (u : Host) : Prop :=
  ∃ k : Bool → Prog Host Unit Unit, q = verifyLiveCapture >>= k ∧
    (∀ t, Reaches anyFault (k true, u) (.ret (), t) →
      Relation.ReflTransGen (AdmittedStep anyFault SameTable) (k true, u) (.ret (), t)) ∧
    ∀ t, ¬ Reaches anyFault (k false, u) (.ret (), t)

/-- A program that exits with any phase but that of a commit. -/
def Spares {α : Type} (p : Load α) (s : Host) (post : α → Prop) : Prop :=
  Holds anyFault (fun _ _ => True) (fun a _ => post a) (fun m _ => m.phase ≠ some .commitIntent) p s

theorem Spares.seq {α β : Type} {p : Load α} {k : α → Load β} {post : α → Prop} {post' : β → Prop}
    (hp : Spares p s post) (hk : ∀ a t, post a → Spares (k a) t post') : Spares (p >>= k) s post' :=
  Holds.seq hp (fun _ _ h => h) hk

theorem spares_orExit (hm : m.phase ≠ some .commitIntent) :
    Spares (.orExit m) s (fun _ => True) := holds_orExit.mpr ⟨trivial, fun _ => hm⟩

theorem spares_require {b : Bool} (hm : m.phase ≠ some .commitIntent) :
    Spares (.require b m) s (fun _ => b = true) := by
  refine holds_require.mpr ?_
  split_ifs with hb
  exacts [hb, hm]

theorem spares_get : Spares (.get : Load Host) s (fun _ => True) := by
  simp [Spares]

theorem spares_modify {f : Host → Host} : Spares (.modify f) s (fun _ => True) := by
  simp [Spares]

theorem spares_loadJournalWrite {phase : LoadPhase} {receipt : Option Document}
    (hm : m.phase ≠ some .commitIntent) :
    Spares (loadJournalWrite m phase receipt) s (fun m' => m' = { m with phase := some phase }) := by
  simp [Spares, loadJournalWrite, writeLoadJournalRecord, hm]

theorem spares_loadReceiptWrite {result : Result} {tableState rollback : String} :
    Spares (loadReceiptWrite m result tableState rollback) s (fun _ => True) := by
  rw [Spares, loadReceiptWrite, holds_subshell]
  exact holds_true _ _

theorem spares_closeRolledBack (hm : m.phase ≠ some .commitIntent) :
    Spares (closeRolledBack m) s (fun r => r.2.phase ≠ some .commitIntent) := by
  refine spares_loadReceiptWrite.seq fun o t _ => ?_
  cases o with
  | none => exact hm
  | some receipt =>
    refine (spares_loadJournalWrite hm).seq ?_
    rintro _ t rfl
    simp [Spares]

theorem spares_requireRecovery (hm : m.phase ≠ some .commitIntent) :
    Spares (requireRecovery m) s (fun r => r.2.phase ≠ some .commitIntent) := by
  refine spares_loadReceiptWrite.seq fun o t _ => ?_
  cases o with
  | none => exact hm
  | some receipt =>
    refine (spares_loadJournalWrite hm).seq ?_
    rintro _ t rfl
    simp [Spares]

theorem spares_succeeds : Spares (.succeeds : Load Bool) s (fun _ => True) := by
  simp [Spares]

theorem spares_verifyAbsentCapture : Spares (verifyAbsentCapture : Load Bool) s (fun _ => True) := by
  simp [Spares]

theorem spares_verifyLiveCapture : Spares (verifyLiveCapture : Load Bool) s (fun _ => True) := by
  simp [Spares]

theorem spares_nft {f : Host → Host} : Spares (nft f : Load Bool) s (fun _ => True) := by
  simp [Spares, nft]

theorem spares_deleteOwnedTable :
    Spares (deleteOwnedTableAndProveAbsent : Load Bool) s (fun _ => True) := by
  refine holds_bind.mpr (holds_get.mpr ?_)
  split_ifs
  · trivial
  · refine spares_nft.seq fun deleted t _ => ?_
    split_ifs
    · trivial
    · refine spares_succeeds.seq fun captured u _ => ?_
      split_ifs
      · trivial
      · exact spares_verifyAbsentCapture

theorem spares_rollbackLoad (hm : m.phase ≠ some .commitIntent) :
    Spares (rollbackLoad m) s (fun r => r.2.phase ≠ some .commitIntent) := by
  rw [rollbackLoad]
  split_ifs
  · exact hm
  · refine (spares_loadJournalWrite (m := { m with rollbackRunning := true }) hm).seq ?_
    rintro _ t rfl
    have hrollback : (some LoadPhase.rollbackIntent : Option LoadPhase) ≠ some .commitIntent := by simp
    have hclose : ∀ (done : Bool) (m : LoadMemory) (t : Host), m.phase ≠ some .commitIntent →
        Spares (if done then closeRolledBack m else requireRecovery m) t
          (fun r => r.2.phase ≠ some .commitIntent) := by
      intro done m t hm
      cases done
      exacts [spares_requireRecovery hm, spares_closeRolledBack hm]
    dsimp only
    split_ifs
    · exact spares_deleteOwnedTable.seq fun done u _ => hclose done _ u hrollback
    · refine spares_succeeds.seq fun captured u _ => ?_
      split_ifs
      · exact spares_requireRecovery hrollback
      · refine spares_verifyAbsentCapture.seq fun absent v _ => ?_
        split_ifs
        · exact spares_closeRolledBack hrollback
        · refine spares_verifyLiveCapture.seq fun live w _ => ?_
          split_ifs
          · exact spares_requireRecovery hrollback
          · exact spares_deleteOwnedTable.seq fun done x _ => hclose done _ x hrollback

theorem spares_rollbackInterrupted (hm : m.phase ≠ some .commitIntent) :
    Spares (rollbackInterrupted m) s (fun m' => m'.phase ≠ some .commitIntent) := by
  refine (spares_orExit hm).seq fun _ t _ => ?_
  refine spares_verifyAbsentCapture.seq fun absent u _ => ?_
  split_ifs
  · refine spares_loadReceiptWrite.seq fun o v _ => ?_
    cases o with
    | none => exact hm
    | some receipt =>
      refine (spares_loadJournalWrite hm).weaken ?_ fun _ _ h => h
      rintro _ t rfl
      simp
  · refine spares_verifyLiveCapture.seq fun live v _ => ?_
    split_ifs
    · refine Spares.seq (spares_rollbackLoad (m := { m with tableCreated := true }) hm) ?_
      rintro ⟨done, m'⟩ w hm'
      cases done
      exacts [hm', hm']
    · exact hm

theorem spares_discardUnpublishedTemp {name : ReceiptName} (hm : m.phase ≠ some .commitIntent) :
    Spares (discardUnpublishedTemp name m) s (fun _ => True) := by
  refine Spares.seq (spares_orExit hm) fun _ t _ => ?_
  refine holds_bind.mpr (holds_get.mpr ?_)
  cases t.receipts name with
  | temporary content => exact holds_bind.mpr (holds_modify.mpr ⟨trivial, spares_orExit hm⟩)
  | absent => trivial
  | linked d | published d | collided d => exact hm

theorem spares_completeInterrupted (hm : m.phase ≠ some .commitIntent) :
    Spares (completeInterrupted l m) s (fun m' => m'.phase ≠ some .commitIntent) := by
  rw [completeInterrupted]
  generalize hm' : ({ m with attempt := l.attempt, boot := l.boot } : LoadMemory) = m'
  replace hm : m'.phase ≠ some .commitIntent := by
    rw [← hm']
    exact hm
  dsimp only
  cases l.phase with
  | committed | rolledBack =>
    refine holds_bind.mpr (holds_get.mpr ?_)
    refine Spares.seq (spares_require hm) fun _ t _ => ?_
    exact Spares.seq (spares_orExit hm) fun _ u _ => hm
  | prepared => exact Spares.seq (spares_require hm) fun _ t _ => hm
  | applyIntent | applied | rollbackIntent | recoveryRequired =>
    exact (spares_require hm).seq fun _ t _ => spares_rollbackInterrupted hm
  | commitIntent =>
    refine (spares_require hm).seq fun _ t _ => ?_
    refine holds_bind.mpr (holds_get.mpr ?_)
    dsimp only
    split
    · refine (spares_require hm).seq fun _ u _ => ?_
      refine spares_loadReceiptWrite.seq fun o v _ => ?_
      cases o with
      | none => exact hm
      | some receipt =>
        refine (spares_loadJournalWrite hm).weaken ?_ fun _ _ h => h
        rintro _ t rfl
        simp
    · split
      · exact (spares_discardUnpublishedTemp hm).seq fun _ u _ => spares_rollbackInterrupted hm
      · exact spares_rollbackInterrupted hm

theorem immutableDocument_sameTable {ε : Type} {name : ReceiptName} {payload : Document} {e : ε} :
    Holds anyFault SameTable (fun _ _ => True) (fun _ _ => True) (immutableDocument name payload e) s := by
  simp only [immutableDocument, holds_bind, holds_orExit, holds_get]
  refine ⟨?_, fun _ => trivial⟩
  cases s.receipts name <;> simp [createDocument, SameTable, Host.setReceipt]

theorem loadReceiptWrite_sameTable {result : Result} {tableState rollback : String} :
    Holds anyFault SameTable (fun _ _ => True) (fun _ _ => True)
      (loadReceiptWrite m result tableState rollback) s := by
  rw [loadReceiptWrite, holds_subshell, writeLoadReceipt]
  refine immutableDocument_sameTable.seq (fun _ _ h => h) fun _ t _ => ?_
  simp

theorem loadJournalWrite_sameTable {phase : LoadPhase} {receipt : Option Document} :
    Holds anyFault SameTable (fun _ _ => True) (fun _ _ => True) (loadJournalWrite m phase receipt) s := by
  simp [loadJournalWrite, writeLoadJournalRecord, SameTable]

/-- A fresh attempt verifies its table before the commit. -/
theorem loadFresh_passes (hm : m.phase ≠ some .commitIntent) :
    Passes anyFault VerifiesLoad (fun m _ => m.phase ≠ some .commitIntent) (loadFresh m) s := by
  have hnext : ∀ {m' : LoadMemory} {phase : LoadPhase} {u : Host} {k : LoadMemory → Load Unit},
      m'.phase ≠ some .commitIntent → (∀ t, Passes anyFault VerifiesLoad
        (fun m _ => m.phase ≠ some .commitIntent) (k { m' with phase := some phase }) t) →
      Passes anyFault VerifiesLoad (fun m _ => m.phase ≠ some .commitIntent)
        (loadJournalWrite m' phase none >>= k) u := by
    intro m' phase u k hm' hk
    refine Passes.bind (spares_loadJournalWrite hm') (fun _ _ h => h) ?_
    rintro _ t rfl
    exact hk t
  have horExit : ∀ {m' : LoadMemory} {u : Host} {k : Unit → Load Unit},
      m'.phase ≠ some .commitIntent → (∀ t, Passes anyFault VerifiesLoad
        (fun m _ => m.phase ≠ some .commitIntent) (k ()) t) →
      Passes anyFault VerifiesLoad (fun m _ => m.phase ≠ some .commitIntent) (.orExit m' >>= k) u :=
    fun hm' hk => Passes.bind (spares_orExit hm') (fun _ _ h => h) fun _ t _ => hk t
  rw [loadFresh]
  refine horExit hm fun t => ?_
  refine Passes.bind spares_get (fun _ _ h => h) fun u t _ => ?_
  refine Passes.bind spares_modify (fun _ _ h => h) fun _ t _ => ?_
  refine hnext hm fun t => ?_
  refine horExit (by simp) fun t => ?_
  refine hnext (by simp) fun t => ?_
  refine Passes.bind spares_nft (fun _ _ h => h) fun applied t _ => ?_
  refine Passes.bind (spares_require (by simp)) (fun _ _ h => h) fun _ t _ => ?_
  refine horExit (by simp) fun t => ?_
  refine hnext (by simp) fun t => ?_
  refine horExit (by simp) fun t => ?_
  refine .here ⟨_, rfl, ?_, ?_⟩
  · -- receipt and records, without another look at the table
    refine holds_bind.mpr (holds_require.mpr ?_)
    rw [if_pos rfl]
    refine loadJournalWrite_sameTable.seq (fun _ _ h => h) fun m' u _ => ?_
    refine loadReceiptWrite_sameTable.seq (fun _ _ h => h) fun o v _ => ?_
    cases o with
    | none => trivial
    | some receipt => exact loadJournalWrite_sameTable.seq (fun _ _ h => h) fun _ _ _ => trivial
  · refine holds_bind.mpr (holds_require.mpr ?_)
    simp

theorem loadBody_passes :
    Passes anyFault VerifiesLoad (fun m _ => m.phase ≠ some .commitIntent) loadBody s := by
  have hrest : ∀ (m : LoadMemory) (t : Host), m.phase ≠ some .commitIntent →
      Passes anyFault VerifiesLoad (fun m _ => m.phase ≠ some .commitIntent) (do
        .orExit m
        if ← verifyAbsentCapture then loadFresh m
        else if ← verifyLiveCapture then return ()
        else .exit m) t := by
    intro m t hm
    refine Passes.bind (spares_orExit hm) (fun _ _ h => h) fun _ u _ => ?_
    refine Passes.bind spares_verifyAbsentCapture (fun _ _ h => h) fun absent v _ => ?_
    split_ifs
    · exact loadFresh_passes hm
    · exact .here ⟨_, rfl, by simp, by simpa using hm⟩
  rw [loadBody]
  refine Passes.bind (spares_orExit (by simp)) (fun _ _ h => h) fun _ t _ => ?_
  refine Passes.bind spares_get (fun _ _ h => h) fun u t _ => ?_
  cases u.loadJournal with
  | none => exact hrest {} t (by simp)
  | some l =>
    exact Passes.bind (spares_completeInterrupted (by simp)) (fun _ _ h => h) fun m t hm => hrest m t hm

theorem rollbackOnExit_exits :
    Holds anyFault (fun _ _ => True) (fun _ _ => False) (fun _ _ => True) (rollbackOnExit m) s := by
  rw [rollbackOnExit]
  dsimp only
  split
  · exact (holds_true _ _).seq (fun _ _ h => h) fun _ _ _ => trivial
  · trivial

/-- Without a commit to complete, the exit handler does not return. -/
theorem loadOnExit_exits (hm : m.phase ≠ some .commitIntent) :
    Holds anyFault (fun _ _ => True) (fun _ _ => False) (fun _ _ => True) (loadOnExit m) s := by
  rw [loadOnExit, if_neg hm]
  exact rollbackOnExit_exits

/-- Where the exit handler returns, it has not touched the table. -/
theorem loadOnExit_path {t : Host} (h : Reaches anyFault (loadOnExit m, s) (.ret (), t)) :
    Relation.ReflTransGen (AdmittedStep anyFault SameTable) (loadOnExit m, s) (.ret (), t) := by
  by_cases hm : m.phase = some .commitIntent
  · by_cases hexists : (s.receipts (loadReceiptPath m.attempt .pass)).exists = true
    · have hsame : Holds anyFault SameTable (fun _ _ => True) (fun _ _ => True) (loadOnExit m) s := by
        rw [loadOnExit, if_pos hm]
        refine holds_bind.mpr (holds_get.mpr ?_)
        rw [if_pos hexists]
        split_ifs
        · refine holds_bind.mpr (holds_trap.mpr (loadReceiptWrite_sameTable.weaken ?_ fun _ _ h => h))
          intro o u _
          cases o with
          | none => trivial
          | some receipt =>
            refine holds_bind.mpr (holds_trap.mpr ?_)
            exact loadJournalWrite_sameTable.weaken (fun _ _ _ => trivial) fun _ _ h => h
        · trivial
      exact (hsame.path h).1
    · have hexits : Holds anyFault (fun _ _ => True) (fun _ _ => False) (fun _ _ => True)
          (loadOnExit m) s := by
        rw [loadOnExit, if_pos hm]
        refine holds_bind.mpr (holds_get.mpr ?_)
        rw [if_neg hexists]
        dsimp only
        split
        · exact (holds_true _ _).seq (fun _ _ h => h) fun _ _ _ => rollbackOnExit_exits
        · exact rollbackOnExit_exits
      exact ((hexits.path h).2).elim
  · exact (((loadOnExit_exits hm).path h).2).elim

theorem admittedStep_trap {ε ε' α : Type} {c c' : Prog Host ε α × Host}
    (h : AdmittedStep anyFault SameTable c c') (handler : ε → Prog Host ε' α) :
    AdmittedStep anyFault SameTable (c.1.trap handler, c.2) (c'.1.trap handler, c'.2) :=
  ⟨Step.trap h.1 handler, h.2⟩

theorem VerifiesLoad.trap {q : Load Unit} (h : VerifiesLoad q s) : Verifies (q.trap loadOnExit) s := by
  obtain ⟨k, rfl, hsame, hexits⟩ := h
  refine ⟨fun live => (k live).trap loadOnExit, rfl, fun t ht => ?_, fun t ht => ?_⟩
  · obtain hret | ⟨m, u, hexit, hhandler⟩ := reaches_trap_ret ht
    · have hpath := (hsame.path hret).1
      exact hpath.lift (fun c : Load Unit × Host => (c.1.trap loadOnExit, c.2)) fun _ _ h =>
        admittedStep_trap h loadOnExit
    · have hpath := (hsame.path hexit).1
      have hlifted := hpath.lift (fun c : Load Unit × Host => (c.1.trap loadOnExit, c.2))
        fun _ _ h => admittedStep_trap h loadOnExit
      exact Relation.ReflTransGen.trans hlifted (loadOnExit_path hhandler)
  · obtain hret | ⟨m, u, hexit, hhandler⟩ := reaches_trap_ret ht
    · exact (hexits.path hret).2
    · have hm : m.phase ≠ some .commitIntent := (hexits.path hexit).2
      exact ((loadOnExit_exits hm).path hhandler).2

theorem load_passes : Passes anyFault Verifies (fun _ _ => True) load s := by
  refine loadBody_passes.trap (fun _ _ h => h.trap) fun m t hm => ?_
  exact Passes.of_exits (loadOnExit_exits hm) fun _ _ h => h

/-- The table was verified exact, and no step of the run after it has changed the table. -/
structure VerifiedLast (k : Bool → Prog Host Unit Unit) (s u t : Host) : Prop where
  reached : Reaches anyFault (load, s) (verifyLiveCapture >>= k, u)
  exact : u.table.isExact = true
  same : Relation.ReflTransGen (AdmittedStep anyFault SameTable) (k true, u) (.ret (), t)

theorem exit_zero_is_verified {t : Host} (h : Reaches anyFault (load, s) (.ret (), t)) :
    ∃ k u, VerifiedLast k s u t := by
  obtain ⟨q, u, hreached, ⟨k, rfl, hsame, hexits⟩, hret⟩ := load_passes.reached h
  obtain ⟨live, v, hcapture, hrest⟩ := reaches_bind_ret hret
  have hlive : Holds anyFault (fun _ _ => False) (fun live v => v = u ∧ (live = true →
      u.table.isExact = true)) (fun _ _ => True) (verifyLiveCapture : Prog Host Unit Bool) u := by
    simp
  obtain ⟨rfl, hexact⟩ := (hlive.path hcapture).2
  cases live with
  | true => exact ⟨k, v, hreached, hexact rfl, hsame t hrest⟩
  | false => exact (hexits t hrest).elim

/-! ## Tables that no intent covers -/

/-- There is a table, and neither journal is open for it. -/
structure Host.Uncovered (s : Host) : Prop where
  table : s.table ≠ .absent
  loads : ∀ l, s.loadJournal = some l →
    l.phase = .prepared ∨ l.phase = .committed ∨ l.phase = .rolledBack
  main : ∀ j, s.journal = some j → j.phase.isClosed = true

/-- A program that changes nothing. -/
def Idles {ε α : Type} (p : Prog Host ε α) (s : Host) (post : α → Prop) (onExit : ε → Prop) : Prop :=
  Holds anyFault (fun _ _ => False) (fun a t => t = s ∧ post a) (fun e t => t = s ∧ onExit e) p s

theorem Idles.seq {ε α β : Type} {p : Prog Host ε α} {k : α → Prog Host ε β} {post : α → Prop}
    {post' : β → Prop} {onExit : ε → Prop} (hp : Idles p s post onExit)
    (hk : ∀ a, post a → Idles (k a) s post' onExit) : Idles (p >>= k) s post' onExit := by
  refine Holds.seq hp (fun _ _ h => h) ?_
  rintro a t ⟨rfl, ha⟩
  exact hk a ha

section Idle

variable {ε : Type} {e : ε} {onExit : ε → Prop}

theorem idles_orExit (he : onExit e) : Idles (.orExit e) s (fun _ => True) onExit := by
  simp [Idles, he]

theorem idles_require {b : Bool} (he : onExit e) : Idles (.require b e) s (fun _ => b = true) onExit := by
  cases b <;> simp [Idles, he]

theorem idles_get {α : Type} {k : Host → Prog Host ε α} {post : α → Prop}
    (hk : Idles (k s) s post onExit) : Idles (.get >>= k) s post onExit := hk

theorem idles_verifyAbsentCapture (h : s.Uncovered) :
    Idles (verifyAbsentCapture : Prog Host ε Bool) s (fun absent => absent = false) onExit := by
  simp [Idles, h.table]

theorem idles_verifyLiveCapture :
    Idles (verifyLiveCapture : Prog Host ε Bool) s (fun _ => True) onExit := by
  simp [Idles]

/-- A receipt that is there is compared only. -/
theorem idles_verifyLoadReceipt {name : ReceiptName} {payload : Document}
    (hthere : (s.receipts name).rootFile?.isSome = true) :
    Idles (immutableDocument name payload () : Recovery Unit) s (fun _ => True) (fun _ => True) := by
  simp only [Idles, immutableDocument, holds_bind, holds_orExit, holds_get]
  refine ⟨?_, fun _ => ⟨trivial, trivial⟩⟩
  cases hslot : s.receipts name with
  | published d => simp
  | collided d => simp
  | absent | temporary d | linked d => simp [hslot, Slot.rootFile?] at hthere

end Idle

/-- The exit handler has nothing to roll back. -/
def IsFresh (m : LoadMemory) : Prop := m.phase = none ∧ m.tableCreated = false

theorem idles_loadOnExit (hm : IsFresh m) : Idles (loadOnExit m) s (fun _ => True) (fun _ => True) := by
  simp [Idles, loadOnExit, rollbackOnExit, hm.1, hm.2]

theorem idles_completeInterrupted (h : s.Uncovered) (hl : s.loadJournal = some l) (hm : IsFresh m) :
    Idles (completeInterrupted l m) s IsFresh IsFresh := by
  have hm' : IsFresh { m with attempt := l.attempt, boot := l.boot } := hm
  rw [completeInterrupted]
  obtain hphase | hphase | hphase := h.loads l hl
  · rw [hphase]
    exact (idles_require hm').seq fun _ _ => ⟨rfl, hm'⟩
  · rw [hphase]
    refine idles_get ?_
    refine Idles.seq (idles_require hm') fun _ _ => ?_
    exact Idles.seq (idles_orExit hm') fun _ _ => ⟨rfl, hm'⟩
  · rw [hphase]
    refine idles_get ?_
    refine Idles.seq (idles_require hm') fun _ _ => ?_
    exact Idles.seq (idles_orExit hm') fun _ _ => ⟨rfl, hm'⟩

theorem idles_load (h : s.Uncovered) : Idles load s (fun _ => True) (fun _ => True) := by
  have hrest : ∀ m, IsFresh m → Idles (do
      .orExit m
      if ← verifyAbsentCapture then loadFresh m
      else if ← verifyLiveCapture then return ()
      else .exit m) s (fun _ => True) IsFresh := by
    intro m hm
    refine (idles_orExit hm).seq fun _ _ => ?_
    refine (idles_verifyAbsentCapture h).seq ?_
    rintro _ rfl
    refine idles_verifyLiveCapture.seq fun live _ => ?_
    cases live
    exacts [⟨rfl, hm⟩, ⟨rfl, trivial⟩]
  have hfresh : IsFresh {} := ⟨rfl, rfl⟩
  have hbody : Idles loadBody s (fun _ => True) IsFresh := by
    rw [loadBody]
    refine (idles_orExit hfresh).seq fun _ _ => ?_
    refine idles_get ?_
    cases hl : s.loadJournal with
    | none => exact hrest {} hfresh
    | some l => exact (idles_completeInterrupted h hl hfresh).seq hrest
  refine holds_trap.mpr (hbody.weaken (fun _ _ h => h) ?_)
  rintro m t ⟨rfl, hm⟩
  exact idles_loadOnExit hm

theorem idles_verifyClosedLoadReceipt :
    Idles (verifyClosedLoadReceipt l () : Recovery Unit) s (fun _ => True) (fun _ => True) := by
  have hverify : ∀ (result : Result) (tableState rollback : String), Idles (do
      let s ← Prog.get
      Prog.require (s.receipts (loadReceiptPath l.attempt result)).rootFile?.isSome ()
      let observed ← writeLoadReceipt l.attempt l.boot result tableState rollback ()
      Prog.require (some observed = l.receipt) () : Recovery Unit) s (fun _ => True) (fun _ => True) := by
    intro result tableState rollback
    refine idles_get ?_
    refine (idles_require trivial).seq fun _ hthere => ?_
    have hwrite : Idles (writeLoadReceipt l.attempt l.boot result tableState rollback () :
        Recovery Document) s (fun _ => True) (fun _ => True) := by
      refine (idles_verifyLoadReceipt hthere).seq fun _ _ => ?_
      exact (idles_orExit trivial).seq fun _ _ => ⟨rfl, trivial⟩
    refine hwrite.seq fun observed _ => ?_
    exact (idles_require trivial).weaken (fun _ _ h => ⟨h.1, trivial⟩) fun _ _ h => h
  rw [verifyClosedLoadReceipt]
  cases l.phase with
  | committed | rolledBack | recoveryRequired => exact hverify _ _ _
  | prepared | applyIntent | applied | commitIntent | rollbackIntent => exact ⟨rfl, trivial⟩

theorem idles_recover (h : s.Uncovered) (bundle : Bundle) (automatic : Bool) :
    Idles (recover bundle automatic) s (fun _ => True) (fun _ => True) := by
  have hreconcile : Idles reconcilePublishedLoadCommit s (fun _ => True) (fun _ => True) := by
    rw [reconcilePublishedLoadCommit]
    refine idles_get ?_
    cases hl : s.loadJournal with
    | none => exact ⟨rfl, trivial⟩
    | some l =>
      refine (idles_require trivial).seq fun _ _ => ?_
      obtain hphase | hphase | hphase := h.loads l hl
      · rw [hphase]
        exact ⟨rfl, trivial⟩
      · rw [hphase]
        exact idles_verifyClosedLoadReceipt
      · rw [hphase]
        exact idles_verifyClosedLoadReceipt
  rw [recover]
  refine (idles_orExit trivial).seq fun _ _ => ?_
  refine idles_get ?_
  cases hj : s.journal with
  | none => exact ⟨rfl, trivial⟩
  | some j =>
    refine (idles_require trivial).seq fun _ _ => ?_
    refine (idles_orExit trivial).seq fun _ _ => ?_
    refine hreconcile.seq fun _ _ => ?_
    have hclosed := h.main j hj
    have hverified : Idles (do
        let s ← Prog.get
        Prog.require (closedReceipt s j) ()
        Prog.orExit ()
        return 0 : Recovery ℕ) s (fun _ => True) (fun _ => True) := by
      refine idles_get ?_
      refine (idles_require trivial).seq fun _ _ => ?_
      exact (idles_orExit trivial).seq fun _ _ => ⟨rfl, trivial⟩
    cases hphase : j.phase with
    | committed | rolledBack => exact hverified
    | prepared | artifactsInstalled | guardStartIntent | guardActive | dropinInstalled
    | kubeletRestartIntent | awaitingRebootIntent | awaitingReboot | commitIntent | rollbackIntent
    | recoveryRequired => simp [hphase, Phase.isClosed] at hclosed

theorem idles_prepare (h : s.Uncovered) (mode : Mode) (bundle : Bundle) (scope : Option String) :
    Idles (prepare mode bundle scope) s (fun _ => False) (fun _ => True) := by
  rw [prepare]
  refine (idles_orExit trivial).seq fun _ _ => ?_
  refine idles_get ?_
  have hrest : ∀ k : Unit → Install Journal, Idles (do
      .require (s.machine.admits mode) ()
      .orExit ()
      verifyAbsentCapture >>= fun absent => .require absent () >>= k) s (fun _ => False)
        (fun _ => True) := by
    intro k
    refine (idles_require trivial).seq fun _ _ => ?_
    refine (idles_orExit trivial).seq fun _ _ => ?_
    refine (idles_verifyAbsentCapture h).seq ?_
    rintro _ rfl
    exact (idles_require trivial).seq fun _ hf => by cases hf
  cases s.journal with
  | none => exact hrest _
  | some j => exact (idles_require trivial).seq fun _ _ => hrest _

theorem idles_closeAfterReboot (h : s.Uncovered) (bundle : Bundle) :
    Idles (closeAfterReboot bundle) s (fun _ => True) (fun _ => True) := by
  rw [closeAfterReboot]
  refine (idles_orExit trivial).seq fun _ _ => ?_
  refine idles_get ?_
  cases hj : s.journal with
  | none => exact ⟨rfl, trivial⟩
  | some j =>
    have hnot : ¬ (decide (j.mode = .retrofit) && decide (j.phase = .awaitingReboot) &&
        decide (j.bundle = bundle)) = true := by
      have hclosed := h.main j hj
      intro hawaiting
      simp only [Bool.and_eq_true, decide_eq_true_eq] at hawaiting
      simp [hawaiting.1.2, Phase.isClosed] at hclosed
    refine (idles_require trivial).seq fun _ hawaiting => ?_
    exact absurd hawaiting hnot

theorem idles_entry (h : s.Uncovered) (e : Entry) :
    Idles e.program s (fun o => o = none) (fun _ => True) := by
  cases e with
  | prepare mode bundle scope => exact (idles_prepare h mode bundle scope).seq fun _ hf => hf.elim
  | closeAfterReboot bundle => exact (idles_closeAfterReboot h bundle).seq fun _ _ => ⟨rfl, rfl⟩
  | recover bundle automatic => exact (idles_recover h bundle automatic).seq fun _ _ => ⟨rfl, rfl⟩
  | load => exact (idles_load h).seq fun _ _ => ⟨rfl, rfl⟩

/-- Every move of one process at a time but a reboot. -/
def upright (s : System) (m : Move) : Prop := alone s m ∧ ∀ k, m ≠ .reboot k

/-- What a run from an uncovered table keeps. -/
structure Untouched (s : Host) (t : System) : Prop where
  table : t.host.table = s.table
  journal : t.host.journal = s.journal
  loadJournal : t.host.loadJournal = s.loadJournal
  waiting : t.waiting = []
  holder : ∀ h, t.holder = some h → Idles h.program t.host (fun o => o = none) (fun _ => True)

theorem Untouched.uncovered {t : System} (h : Untouched s t) (hs : s.Uncovered) : t.host.Uncovered where
  table := by
    rw [h.table]
    exact hs.table
  loads l hl := hs.loads l (h.loadJournal ▸ hl)
  main j hj := hs.main j (h.journal ▸ hj)

theorem untouched_step {t u : System} {m : Move} (hs : s.Uncovered) (h : Untouched s t)
    (hm : upright t m) (hstep : SystemStep t m u) : Untouched s u := by
  cases hstep with
  | enter e =>
    refine ⟨h.table, h.journal, h.loadJournal, h.waiting, ?_⟩
    rintro _ ⟨⟩
    exact idles_entry (h.uncovered hs) e
  | resume =>
    have hw := h.waiting
    simp at hw
  | @run t u r p q w hrun =>
    have hidles : Idles p t (fun o => o = none) (fun _ => True) := h.holder ⟨r, p⟩ rfl
    obtain ⟨hchange, hrest⟩ := hidles.step (hrun.mono fun _ hf => hf.elim)
    obtain rfl := hchange.resolve_right id
    refine ⟨h.table, h.journal, h.loadJournal, h.waiting, ?_⟩
    rintro _ ⟨⟩
    exact hrest
  | @fault t r p w =>
    have hidles : Idles (.call p) t (fun o => o = none) (fun _ => True) := h.holder ⟨r, .call p⟩ rfl
    refine ⟨h.table, h.journal, h.loadJournal, h.waiting, ?_⟩
    rintro _ ⟨⟩
    exact hidles.2 trivial
  | @leave t r o w =>
    have hidles : Idles (.ret o) t (fun o => o = none) (fun _ => True) := h.holder ⟨r, .ret o⟩ rfl
    obtain rfl : o = none := hidles.2
    exact ⟨h.table, h.journal, h.loadJournal, h.waiting, fun h hh => by simp at hh⟩
  | kill => exact ⟨h.table, h.journal, h.loadJournal, h.waiting, fun h hh => by simp at hh⟩
  | abandon =>
    have hw := h.waiting
    simp at hw
  | serve => exact ⟨h.table, h.journal, h.loadJournal, h.waiting, fun h hh => by simp at hh⟩
  | reboot k => exact absurd rfl (hm.2 k)

/-- No run deletes a table that it has found without an intent. -/
theorem uncovered_table_stays {s t : System} (hs : Reachable alone s) (hidle : s.holder = none)
    (huncovered : s.host.Uncovered) (hrun : Run upright s t) :
    t.host.table = s.host.table ∧ t.host.loadJournal = s.host.loadJournal := by
  have hstart : Untouched s.host s := by
    refine ⟨rfl, rfl, rfl, ?_, fun h hh => by simp [hidle] at hh⟩
    obtain hw | ⟨j, -, hj, -⟩ := hs.alone.waiting
    · exact hw
    · have hclosed := huncovered.main j hj.1.2
      simp [hj.2, Phase.isClosed] at hclosed
  have hend : Untouched s.host t := by
    induction hrun with
    | refl => exact hstart
    | tail _ hstep ih =>
      obtain ⟨m, hm, hstep⟩ := hstep
      exact untouched_step huncovered ih hm hstep
  exact ⟨hend.table, hend.loadJournal⟩

/-! ## Loads that are killed or fail -/

/-- Any number of loader runs, each of them killed or ended, and whatever fails in it. -/
def LoadRuns : Host → Host → Prop := Relation.ReflTransGen (Leaves anyFault load)

theorem loadRuns_kept {t : Host} (hruns : LoadRuns s t) (hs : Recorded s) (htended : Tended s) :
    Recorded t ∧ Tended t := by
  induction hruns with
  | refl => exact ⟨hs, htended⟩
  | @tail t u _ hstep ih =>
    obtain ⟨ht, htended⟩ := ih
    have hrecorded : Holds anyFault (fun s t => Recorded s → Recorded t) (fun _ _ => True)
        (fun _ _ => True) load t :=
      (load_holds ht).mono (fun _ _ h _ => h.1) (fun _ _ _ => trivial) fun _ _ _ => trivial
    have hkeeps : Holds anyFault (fun s t => Tended s → Tended t) (fun _ _ => True)
        (fun _ _ => True) load t :=
      (load_keeps ht htended.loads).mono (fun _ _ h ht => ht.loadKeeps h) (fun _ _ _ => trivial)
        fun _ _ _ => trivial
    exact ⟨hrecorded.invariant ht hstep, hkeeps.invariant htended hstep⟩

/-- The attempt is committed with its table, or rolled back without one. -/
def Settles (l : LoadJournal) (s t : Host) : Prop :=
  LoadClosed l.attempt l.boot .committed .pass t ∧ t.table = s.table ∨
    RolledBack l.attempt l.boot t

theorem Resolves.settles {t : Host} (h : Resolves l s t) (howns : l.phase.mayOwnTable = true)
    (hopen : l.phase ≠ .committed) : Settles l s t := by
  unfold Resolves at h
  cases hphase : l.phase with
  | prepared | rolledBack => simp [hphase, LoadPhase.mayOwnTable] at howns
  | committed => exact absurd hphase hopen
  | applyIntent | applied | rollbackIntent | recoveryRequired =>
    exact .inr (by simpa [hphase] using h)
  | commitIntent =>
    simp only [hphase] at h
    split_ifs at h
    exacts [.inl h, .inr h]

/-- Safety of the loader over crashes and reruns. -/
theorem loader_is_safe {s t : System} (hs : Reachable alone s) (hrun : Run upright s t) :
    (∀ u, Reaches anyFault (load, s.host) (.ret (), u) → ∃ k v, VerifiedLast k s.host v u) ∧
    (∀ a, s.host.table = .exact (some a) → ∃ l, s.host.loadJournal = some l ∧ l.attempt = a ∧
      l.prestate = .absent ∧ l.phase.mayOwnTable = true) ∧
    (s.holder = none → s.host.Uncovered → t.host.table = s.host.table) ∧
    ∀ s₀ u l, s₀.IsBlank → s₀.machine.IsSound → Run calm ⟨s₀, none, []⟩ s → LoadRuns s.host u →
      u.loadJournal = some l → l.phase.mayOwnTable = true → l.phase ≠ .committed →
      u.table = .exact (some l.attempt) →
      ((∀ d, u.receipts (loadReceiptPath l.attempt .pass) ≠ .linked d) →
        ∃ v w, Leaves noFault load u v ∧ Settles l u v ∧ load.run u = (.inr (), w) ∧
          w.table.isExact = true) ∧
      ∀ j automatic, u.journal = some j → j.phase.isClosed = false → IsUndecided j u →
        ∃ v, (recover j.bundle automatic).run u = (.inr 0, v) ∧ v.table = .absent ∧ LoadsClosed v := by
  have hrecorded := hs.alone.recorded
  refine ⟨fun u hu => exit_zero_is_verified hu, fun a ha => ?_, fun hidle huncovered => ?_, ?_⟩
  · exact hrecorded.table a ha
  · exact (uncovered_table_stays hs hidle huncovered hrun).1
  · intro s₀ u l hblank hsound hcalm hloads hl howns hopen htable
    obtain ⟨hrecorded', htended⟩ := loadRuns_kept hloads (calm_run hblank hsound hcalm).1
      (calm_run hblank hsound hcalm).2
    refine ⟨fun hlinked => ?_, fun j automatic hj hjopen hundecided => ?_⟩
    · obtain ⟨v, w, hleaves, hresolves, hload, hexact⟩ := load_resolves hrecorded' htended.loads hl
        (by simp [htable]) fun _ => hlinked
      exact ⟨v, w, hleaves, hresolves.settles howns hopen, hload, hexact⟩
    · have hstart := (htended.undecided hrecorded' hj hjopen hundecided).stillOpen
      obtain ⟨v, hv, hfinished⟩ := Recovering.run (.inl hstart) automatic
      exact ⟨v, hv, hfinished.restored.table, hfinished.closed⟩

/-- The load of an installation that waits for its guard. -/
theorem loader_is_safe_handed : ∃ k v, VerifiedLast k handedHost v (load.run handedHost).2 := by
  have hs : Reachable alone ⟨handedHost, none, [handedOver]⟩ :=
    (Reachable.start bareHost_isBlank).run (run_handedHost.mono fun _ _ => calm_alone)
  have hreturned : Reaches anyFault (load, handedHost) (.ret (), (load.run handedHost).2) := by
    exact @reaches_run _ _ _ anyFault load handedHost
  exact (loader_is_safe hs .refl).1 _ hreturned

/-- Without a transaction, recovery leaves the table of an interrupted load to the loader. -/
theorem recovery_leaves_load : ¬ ∀ s l bundle automatic, Reachable alone s →
    s.host.loadJournal = some l → l.phase.mayOwnTable = true → l.phase ≠ .committed →
    s.host.table = .exact (some l.attempt) →
      Settles l s.host ((recover bundle automatic).run s.host).2 := by
  intro hclaim
  have henters : alone ⟨bareHost, none, []⟩ (.enter .load) := trivial
  have hentered : Reachable alone ⟨bareHost, some (Entry.load.holder bareHost), []⟩ :=
    .step (.start bareHost_isBlank) henters (.enter .load)
  have hs := hentered.runs (fun _ => trivial) (reaches_advance 20 Entry.load.program bareHost)
  have hsettles := hclaim _ ⟨.applied, .absent, 0, 0, none⟩ someBundle false hs rfl rfl (by decide) rfl
  obtain ⟨hclosed, -⟩ | ⟨-, htable⟩ := hsettles
  · have hjournal := hclosed.journal
    cases hjournal
  · cases htable

end GuardTransaction
