import Mathlib
import WebsiteInfrastructure.GuardTransaction.LoaderRecords

/-!
# What the loader changes

The table and the records of one load, each receipt with the one content that the attempt has for
it, and nothing else.
-/

namespace GuardTransaction

open Crash

/-! ## The contents of the records -/

/-- Whatever is under the final name is this document. -/
def Slot.Shows (d : Document) : Slot → Prop
  | .absent | .temporary _ => True
  | .linked observed | .published observed => observed = d
  | .collided _ => False

/-- The receipt of each result of a load. -/
def loadReceipt (a : Attempt) (b : ℕ) (result : Result) : Document :=
  match result with
  | .rollbackVerified => loadReceiptDocument a b result "absent" "verified"
  | .recoveryRequired => loadReceiptDocument a b result "unverified" "required"
  | .pass | .pendingReboot => loadReceiptDocument a b result "verified" "not-needed"

/-- The receipts of an attempt show what they should. -/
def Contents (a : Attempt) (b : ℕ) (s : Host) : Prop :=
  ∀ result, (s.receipts (loadReceiptPath a result)).Shows (loadReceipt a b result)

/-- The result that a closed load journal records. -/
def LoadPhase.result? : LoadPhase → Option Result
  | .committed => some .pass
  | .rolledBack => some .rollbackVerified
  | .recoveryRequired => some .recoveryRequired
  | _ => none

/-- A load journal that its receipts bear out. -/
structure LoadJournal.IsSound (l : LoadJournal) (s : Host) : Prop where
  prestate : l.prestate = .absent
  intent : l.phase.result? = none → l.receipt = none
  closed : ∀ result, l.phase.result? = some result →
    ∃ d, s.receipts (loadReceiptPath l.attempt result) = .published d ∧ l.receipt = some d

/-- The invariant of the records of the loads. -/
structure LoadSound (s : Host) : Prop where
  contents : ∀ l, s.loadJournal = some l → Contents l.attempt l.boot s
  journal : ∀ l, s.loadJournal = some l → l.IsSound s

/-! ## Changes -/

/-- Everything but the table and the records of the loads is the same. -/
structure LoadFrame (s t : Host) : Prop where
  journal : t.journal = s.journal
  machine : t.machine = s.machine
  boot : t.boot = s.boot
  receipts : ∀ name, name.owner ≠ .load → t.receipts name = s.receipts name

/-- A change of the records of one load, or of the table. -/
structure LoadChange (a : Attempt) (b : ℕ) (s t : Host) : Prop extends LoadFrame s t where
  /-- A published receipt stays, and one of this attempt goes on showing what it should. -/
  receipt : ∀ name, t.receipts name = s.receipts name ∨
    ∃ result, name = loadReceiptPath a result ∧ (∀ d, s.receipts name ≠ .published d) ∧
      ((s.receipts name).Shows (loadReceipt a b result) →
        (t.receipts name).Shows (loadReceipt a b result))
  loadJournal : t.loadJournal = s.loadJournal ∨
    ∃ l, t.loadJournal = some l ∧ l.attempt = a ∧ l.boot = b ∧ l.IsSound s
  table : t.table = s.table ∨ t.table = .absent ∨ t.table = .exact (some a)

theorem LoadFrame.refl (s : Host) : LoadFrame s s := ⟨rfl, rfl, rfl, fun _ _ => rfl⟩

theorem LoadFrame.trans {s t u : Host} (h : LoadFrame s t) (h' : LoadFrame t u) : LoadFrame s u :=
  ⟨h'.journal.trans h.journal, h'.machine.trans h.machine, h'.boot.trans h.boot,
    fun name hname => (h'.receipts name hname).trans (h.receipts name hname)⟩

theorem LoadChange.contents {a : Attempt} {b : ℕ} {s t : Host} (h : LoadChange a b s t)
    (hs : Contents a b s) : Contents a b t := by
  intro result
  obtain hsame | ⟨result', hname, -, hshows⟩ := h.receipt (loadReceiptPath a result)
  · rw [hsame]
    exact hs result
  · cases hname
    exact hshows (hs result)

theorem LoadJournal.IsSound.change {l : LoadJournal} {a : Attempt} {b : ℕ} {s t : Host}
    (hl : l.IsSound s) (h : LoadChange a b s t) : l.IsSound t := by
  refine ⟨hl.prestate, hl.intent, fun result hresult => ?_⟩
  obtain ⟨d, hpublished, hd⟩ := hl.closed result hresult
  obtain hsame | ⟨_, -, hnot, -⟩ := h.receipt (loadReceiptPath l.attempt result)
  · exact ⟨d, hsame.trans hpublished, hd⟩
  · exact absurd hpublished (hnot d)

theorem LoadChange.sound {a : Attempt} {b : ℕ} {s t : Host} (h : LoadChange a b s t)
    (hs : LoadSound s) (hcontents : Contents a b s)
    (hsame : ∀ l, s.loadJournal = some l → l.attempt = a → l.boot = b) : LoadSound t := by
  have hother : ∀ l, s.loadJournal = some l → Contents l.attempt l.boot t := by
    intro l hl
    by_cases hla : l.attempt = a
    · rw [hla, hsame l hl hla]
      exact h.contents hcontents
    · intro result
      obtain hslot | ⟨result', hname, -⟩ := h.receipt (loadReceiptPath l.attempt result)
      · rw [hslot]
        exact hs.contents l hl result
      · cases hname
        exact absurd rfl hla
  obtain hjournal | ⟨l, hl, rfl, rfl, hsound⟩ := h.loadJournal
  · refine ⟨fun l hl => hother l (hjournal ▸ hl), fun l hl => ?_⟩
    exact (hs.journal l (hjournal ▸ hl)).change h
  · constructor
    · intro l' hl'
      obtain rfl := Option.some.inj (hl'.symm.trans hl)
      exact h.contents hcontents
    · intro l' hl'
      obtain rfl := Option.some.inj (hl'.symm.trans hl)
      exact hsound.change h

/-! ## Programs -/

/-- A program that changes the records of this load and the table only, in any state. -/
def Framed {ε α : Type} (a : Attempt) (b : ℕ) (rets : α → Prop) (exits : ε → Prop)
    (p : Prog Host ε α) : Prop :=
  ∀ s, Holds anyFault (LoadChange a b) (fun r _ => rets r) (fun e _ => exits e) p s

section Programs

variable {ε ε' α β : Type} {e : ε} {p : Prog Host ε α} {a : Attempt} {b : ℕ} {rets : α → Prop}
  {rets' : β → Prop} {exits : ε → Prop} {exits' : ε' → Prop}

theorem Framed.bind {k : α → Prog Host ε β} (hp : Framed a b rets exits p)
    (hk : ∀ r, rets r → Framed a b rets' exits (k r)) : Framed a b rets' exits (p >>= k) :=
  fun s => (hp s).seq (fun _ _ h => h) fun r t hr => hk r hr t

theorem Framed.trap {h : ε → Prog Host ε' α} (hp : Framed a b rets exits p)
    (hh : ∀ e, exits e → Framed a b rets exits' (h e)) :
    Framed a b rets exits' (p.trap h) := fun s =>
  holds_trap.mpr ((hp s).weaken (fun _ _ h => h) fun e t he => hh e he t)

theorem Framed.ite {c : Prop} [Decidable c] {q : Prog Host ε α} (hp : Framed a b rets exits p)
    (hq : Framed a b rets exits q) : Framed a b rets exits (if c then p else q) := by
  split_ifs <;> assumption

theorem Framed.any {p : Prog Host ε α} (hp : Framed a b rets exits p) :
    Framed a b (fun _ => True) exits p := fun s =>
  (hp s).weaken (fun _ _ _ => trivial) fun _ _ h => h

theorem framed_pure {r : α} (hr : rets r) : Framed a b rets exits (pure r : Prog Host ε α) :=
  fun _ => hr

theorem framed_exit (he : exits e) : Framed a b rets exits (.exit e : Prog Host ε α) :=
  fun _ => he

theorem framed_get : Framed a b (fun _ => True) exits (.get : Prog Host ε Host) := fun _ => trivial

theorem framed_succeeds : Framed a b (fun _ => True) exits (.succeeds : Prog Host ε Bool) :=
  fun _ => ⟨trivial, fun _ => trivial⟩

theorem framed_orExit (he : exits e) :
    Framed a b (fun _ => True) exits (.orExit e : Prog Host ε Unit) := fun _ =>
  holds_orExit.mpr ⟨trivial, fun _ => he⟩

theorem framed_require {c : Bool} (he : exits e) :
    Framed a b (fun _ => True) exits (.require c e : Prog Host ε Unit) := fun _ =>
  holds_require.mpr (by simp [he])

theorem framed_modify {f : Host → Host} (hf : ∀ s, LoadChange a b s (f s)) :
    Framed a b (fun _ => True) exits (.modify f : Prog Host ε Unit) := fun s =>
  holds_modify.mpr ⟨hf s, trivial⟩

theorem loadChange_table {s : Host} {table : Table} (h : table = .absent ∨ table = .exact (some a)) :
    LoadChange a b s { s with table := table } where
  toLoadFrame := ⟨rfl, rfl, rfl, fun _ _ => rfl⟩
  receipt _ := .inl rfl
  loadJournal := .inl rfl
  table := .inr h

/-! ## Receipts -/

variable {result : Result}

theorem loadChange_receipt {s : Host} {slot : Slot}
    (hnot : ∀ d, s.receipts (loadReceiptPath a result) ≠ .published d)
    (hshows : (s.receipts (loadReceiptPath a result)).Shows (loadReceipt a b result) →
      slot.Shows (loadReceipt a b result)) :
    LoadChange a b s (s.setReceipt (loadReceiptPath a result) slot) where
  toLoadFrame := by
    refine ⟨rfl, rfl, rfl, fun name hname => ?_⟩
    refine Function.update_of_ne (fun heq => ?_) _ _
    exact hname (by rw [heq]; rfl)
  receipt name := by
    by_cases heq : name = loadReceiptPath a result
    · subst heq
      refine .inr ⟨result, rfl, hnot, fun h => ?_⟩
      rw [show (s.setReceipt (loadReceiptPath a result) slot).receipts (loadReceiptPath a result) = slot
        from Function.update_self _ _ _]
      exact hshows h
    · exact .inl (Function.update_of_ne heq _ _)
  loadJournal := .inl rfl
  table := .inl rfl

theorem createDocument_change {s : Host}
    (hnot : (s.receipts (loadReceiptPath a result)).exists = false) :
    Holds anyFault (LoadChange a b)
      (fun _ t => t.receipts (loadReceiptPath a result) = .published (loadReceipt a b result))
      (fun e' _ => e' = e)
      (createDocument (loadReceiptPath a result) (loadReceipt a b result) e) s := by
  have hslot : ∀ (t : Host) (slot : Slot),
      (t.setReceipt (loadReceiptPath a result) slot).receipts (loadReceiptPath a result) = slot :=
    fun t slot => Function.update_self _ _ _
  have hstart : LoadChange a b s (s.setReceipt (loadReceiptPath a result) (.temporary none)) :=
    loadChange_receipt (fun d hd => by simp [hd, Slot.exists] at hnot) fun _ => trivial
  have hnext : ∀ (t : Host) (slot slot' : Slot), (∀ d, slot ≠ .published d) →
      slot'.Shows (loadReceipt a b result) → LoadChange a b
        (t.setReceipt (loadReceiptPath a result) slot)
        ((t.setReceipt (loadReceiptPath a result) slot).setReceipt (loadReceiptPath a result) slot') :=
    fun t slot slot' hslot' hshows => loadChange_receipt (by rwa [hslot]) fun _ => hshows
  simp only [createDocument, holds_bind, holds_modify, holds_orExit]
  refine ⟨hstart, ⟨hnext _ _ _ (by simp) trivial, ⟨hnext _ _ _ (by simp) rfl,
    ⟨hnext _ _ _ (by simp) rfl, hslot _ _, ?_⟩, ?_⟩, ?_⟩, ?_⟩ <;> exact fun _ => trivial

theorem immutableDocument_change (s : Host) :
    Holds anyFault (LoadChange a b)
      (fun _ t => t.receipts (loadReceiptPath a result) = .published (loadReceipt a b result))
      (fun e' _ => e' = e)
      (immutableDocument (loadReceiptPath a result) (loadReceipt a b result) e) s := by
  have hself : ∀ (t : Host) (slot : Slot),
      (t.setReceipt (loadReceiptPath a result) slot).receipts (loadReceiptPath a result) = slot :=
    fun t slot => Function.update_self _ _ _
  simp only [immutableDocument, holds_bind, holds_orExit, holds_get]
  refine ⟨?_, fun _ => trivial⟩
  cases hslot : s.receipts (loadReceiptPath a result) with
  | absent => exact createDocument_change (by rw [hslot]; rfl)
  | temporary content =>
    simp only [holds_bind, holds_modify, holds_orExit]
    refine ⟨loadChange_receipt (by simp [hslot]) fun _ => trivial, ?_, fun _ => trivial⟩
    exact createDocument_change (by rw [hself]; rfl)
  | linked observed =>
    simp only [holds_bind, holds_modify, holds_orExit, holds_require, decide_eq_true_eq]
    refine ⟨loadChange_receipt (by simp [hslot]) fun h => ?_, ?_, fun _ => trivial⟩
    · rw [hslot] at h
      exact h
    · split_ifs with heq
      rw [hself, heq]
  | published observed =>
    simp only [holds_require, decide_eq_true_eq]
    split_ifs with heq
    rw [hslot, heq]
  | collided observed => rfl

theorem writeLoadReceipt_change (s : Host) :
    Holds anyFault (LoadChange a b)
      (fun d t => t.receipts (loadReceiptPath a result) = .published d ∧ d = loadReceipt a b result)
      (fun e' _ => e' = e) (do
        immutableDocument (loadReceiptPath a result) (loadReceipt a b result) e
        .orExit e
        return loadReceipt a b result) s := by
  refine (immutableDocument_change s).seq (fun _ _ h => h) fun _ t ht => ?_
  simp only [holds_bind, holds_orExit, holds_pure]
  exact ⟨⟨ht, trivial⟩, fun _ => trivial⟩

theorem framed_discardUnpublishedTemp (he : exits e) :
    Framed a b (fun _ => True) exits (discardUnpublishedTemp (loadReceiptPath a result) e) := by
  intro s
  simp only [discardUnpublishedTemp, holds_bind, holds_orExit, holds_get]
  refine ⟨?_, fun _ => he⟩
  cases hslot : s.receipts (loadReceiptPath a result) with
  | absent => trivial
  | temporary content =>
    simp only [holds_bind, holds_modify, holds_orExit]
    exact ⟨loadChange_receipt (by simp [hslot]) fun _ => trivial, trivial, fun _ => he⟩
  | linked observed => exact he
  | published observed => exact he
  | collided observed => exact he

/-! ## Journal and table -/

theorem writeLoadJournalRecord_change {s : Host} {l : LoadJournal} (ha : l.attempt = a)
    (hboot : l.boot = b) (hl : l.IsSound s) :
    Holds anyFault (LoadChange a b) (fun _ t => t = { s with loadJournal := some l })
      (fun e' _ => e' = e) (writeLoadJournalRecord l e) s := by
  have hchange : LoadChange a b s { s with loadJournal := some l } :=
    { toLoadFrame := ⟨rfl, rfl, rfl, fun _ _ => rfl⟩
      receipt := fun _ => .inl rfl
      loadJournal := .inr ⟨l, rfl, ha, hboot, hl⟩
      table := .inl rfl }
  simp only [writeLoadJournalRecord, holds_bind, holds_orExit, holds_modify]
  exact ⟨⟨hchange, trivial, fun _ => trivial⟩, fun _ => trivial⟩

theorem framed_verifyAbsentCapture :
    Framed a b (fun _ => True) exits (verifyAbsentCapture : Prog Host ε Bool) :=
  framed_succeeds.bind fun _ _ => framed_get.bind fun _ _ => framed_pure trivial

theorem framed_verifyLiveCapture :
    Framed a b (fun _ => True) exits (verifyLiveCapture : Prog Host ε Bool) :=
  framed_succeeds.bind fun _ _ => framed_get.bind fun _ _ => framed_pure trivial

theorem framed_nft {f : Host → Host} (hf : ∀ s, LoadChange a b s (f s)) :
    Framed a b (fun _ => True) exits (nft f : Prog Host ε Bool) := by
  refine framed_succeeds.bind fun ok _ => .ite ?_ (framed_succeeds.bind fun made _ => ?_)
  · exact (framed_modify hf).bind fun _ _ => framed_pure trivial
  · dsimp only
    split
    · exact (framed_modify hf).bind fun _ _ => framed_pure trivial
    · exact framed_pure trivial

theorem framed_deleteOwnedTable :
    Framed a b (fun _ => True) exits (deleteOwnedTableAndProveAbsent : Prog Host ε Bool) := by
  have hdelete : Framed a b (fun _ => True) exits
      (nft fun s => { s with table := .absent } : Prog Host ε Bool) :=
    framed_nft fun s => loadChange_table (.inl rfl)
  refine framed_get.bind fun s _ => .ite (framed_pure trivial) (hdelete.bind fun deleted _ => ?_)
  refine .ite (framed_pure trivial) (framed_succeeds.bind fun captured _ => ?_)
  exact .ite (framed_pure trivial) framed_verifyAbsentCapture

end Programs

/-! ## The loader -/

section Loader

variable {m : LoadMemory} {a : Attempt} {b : ℕ}

/-- The variables name the attempt. -/
def LoadMemory.Names (m : LoadMemory) (a : Attempt) (b : ℕ) : Prop := m.attempt = a ∧ m.boot = b

/-- A program of the loader that works on one attempt. -/
def Works {α : Type} (a : Attempt) (b : ℕ) (rets : α → Prop) (p : Load α) : Prop :=
  Framed a b rets (LoadMemory.Names · a b) p

variable (hm : m.Names a b)

include hm

theorem works_pure : Works a b (LoadMemory.Names · a b) (pure m) := framed_pure hm

theorem works_exit {α : Type} {rets : α → Prop} : Works a b rets (.exit m) := framed_exit hm

theorem works_orExit : Works a b (fun _ => True) (.orExit m) := framed_orExit hm

theorem works_require {c : Bool} : Works a b (fun _ => True) (.require c m) := framed_require hm

theorem works_loadJournalWrite {phase : LoadPhase} (hphase : phase.result? = none) :
    Works a b (LoadMemory.Names · a b) (loadJournalWrite m phase none) := by
  intro s
  refine (writeLoadJournalRecord_change hm.1 hm.2 ⟨rfl, fun _ => rfl, ?_⟩).seq ?_ ?_
  · intro result hresult
    simp [hphase] at hresult
  · rintro _ t rfl
    exact hm
  · exact fun _ t _ => hm

theorem works_loadReceiptWrite {result : Result} {tableState rollback : String} (s : Host)
    (hdocument : loadReceiptDocument a b result tableState rollback = loadReceipt a b result) :
    Holds anyFault (LoadChange a b)
      (fun r t => ∀ d, r = some d → t.receipts (loadReceiptPath a result) = .published d)
      (fun e _ => LoadMemory.Names e a b) (loadReceiptWrite m result tableState rollback) s := by
  rw [loadReceiptWrite, holds_subshell, writeLoadReceipt, hm.1, hm.2, hdocument]
  refine (writeLoadReceipt_change s).weaken ?_ ?_
  · rintro d t ⟨hpublished, -⟩ _ ⟨⟩
    exact hpublished
  · intro _ t _ d hd
    cases hd

theorem works_loadJournalClose {result : Result} {phase : LoadPhase} {d : Document} {s : Host}
    (hresult : phase.result? = some result)
    (hpublished : s.receipts (loadReceiptPath a result) = .published d) :
    Holds anyFault (LoadChange a b) (fun m _ => LoadMemory.Names m a b)
      (fun m _ => LoadMemory.Names m a b) (loadJournalWrite m phase (some d)) s := by
  refine (writeLoadJournalRecord_change hm.1 hm.2 ⟨rfl, ?_, fun result' hresult' => ?_⟩).seq ?_ ?_
  · intro hnone
    simp [hresult] at hnone
  · obtain rfl := Option.some.inj (hresult'.symm.trans hresult)
    exact ⟨d, by rw [hm.1]; exact hpublished, rfl⟩
  · rintro _ _ rfl
    exact hm
  · exact fun _ _ _ => hm

/-- The receipt of a result, the phase that records it, and the rest. -/
theorem works_close {α : Type} {rets : α → Prop} {result : Result} {phase : LoadPhase}
    {tableState rollback : String} {p : Option Document → Load α} {k : LoadMemory → Load α}
    (hresult : phase.result? = some result)
    (hdocument : loadReceiptDocument a b result tableState rollback = loadReceipt a b result)
    (hp : ∀ d, p (some d) = loadJournalWrite m phase (some d) >>= k) (hnone : Works a b rets (p none))
    (hk : ∀ m', LoadMemory.Names m' a b → Works a b rets (k m')) :
    Works a b rets (loadReceiptWrite m result tableState rollback >>= p) := by
  intro s
  refine (works_loadReceiptWrite hm s hdocument).seq (fun _ _ h => h) fun receipt t ht => ?_
  cases receipt with
  | none => exact hnone t
  | some d =>
    rw [hp]
    exact (works_loadJournalClose hm hresult (ht d rfl)).seq (fun _ _ h => h) fun m' t' hm' =>
      hk m' hm' t'

theorem works_closeRolledBack :
    Works a b (fun r => LoadMemory.Names r.2 a b) (closeRolledBack m) := by
  have hphase : LoadPhase.rolledBack.result? = some .rollbackVerified := rfl
  exact works_close hm hphase rfl (fun _ => rfl) (framed_pure hm) fun _ hm' => framed_pure hm'

theorem works_requireRecovery :
    Works a b (fun r => LoadMemory.Names r.2 a b) (requireRecovery m) := by
  have hphase : LoadPhase.recoveryRequired.result? = some .recoveryRequired := rfl
  exact works_close hm hphase rfl (fun _ => rfl) (framed_pure hm) fun _ hm' => framed_pure hm'

theorem works_rollbackLoad : Works a b (fun r => LoadMemory.Names r.2 a b) (rollbackLoad m) := by
  have hdelete : ∀ m, LoadMemory.Names m a b → Works a b (fun r => LoadMemory.Names r.2 a b) (do
      if ← deleteOwnedTableAndProveAbsent then closeRolledBack m else requireRecovery m) :=
    fun m hm => framed_deleteOwnedTable.bind fun _ _ =>
      .ite (works_closeRolledBack hm) (works_requireRecovery hm)
  have hintent : Works a b (LoadMemory.Names · a b)
      (loadJournalWrite { m with rollbackRunning := true } .rollbackIntent none) :=
    works_loadJournalWrite hm rfl
  refine .ite (framed_pure hm) (hintent.bind fun m hm => .ite (hdelete m hm) ?_)
  refine framed_succeeds.bind fun captured _ => .ite (works_requireRecovery hm) ?_
  refine framed_verifyAbsentCapture.bind fun absent _ => .ite (works_closeRolledBack hm) ?_
  exact framed_verifyLiveCapture.bind fun live _ => .ite (works_requireRecovery hm) (hdelete m hm)

theorem framed_rollbackOnExit : Framed a b (fun _ => True) (fun _ => True) (rollbackOnExit m) := by
  have hrollback : Framed a b (fun r => LoadMemory.Names r.2 a b) (fun _ => True)
      ((rollbackLoad m).trap fun _ => .exit ()) :=
    (works_rollbackLoad hm).trap fun _ _ => framed_exit trivial
  rw [rollbackOnExit]
  dsimp only
  split
  · exact hrollback.bind fun _ _ => framed_exit trivial
  · exact framed_exit trivial

theorem framed_loadOnExit : Framed a b (fun _ => True) (fun _ => True) (loadOnExit m) := by
  have hrest := framed_rollbackOnExit hm
  refine .ite (framed_get.bind fun s _ => .ite (.ite ?_ (framed_exit trivial)) ?_) hrest
  · intro t
    refine holds_bind.mpr (holds_trap.mpr ?_)
    refine (works_loadReceiptWrite hm t rfl).weaken ?_ fun _ _ _ => trivial
    rintro (_ | d) t' ht'
    · trivial
    · refine holds_bind.mpr (holds_trap.mpr ?_)
      have hphase : LoadPhase.committed.result? = some .pass := rfl
      exact (works_loadJournalClose hm hphase (ht' d rfl)).weaken (fun _ _ _ => trivial)
        fun _ _ _ => trivial
  · dsimp only
    rw [hm.1]
    split
    · exact (framed_discardUnpublishedTemp trivial).bind fun _ _ => hrest
    · exact hrest

theorem works_rollbackInterrupted : Works a b (LoadMemory.Names · a b) (rollbackInterrupted m) := by
  have hphase : LoadPhase.rolledBack.result? = some .rollbackVerified := rfl
  refine (works_orExit hm).bind fun _ _ => framed_verifyAbsentCapture.bind fun absent _ => ?_
  refine Framed.ite ?_ ?_
  · intro s
    refine (works_loadReceiptWrite hm s rfl).seq (fun _ _ h => h) fun receipt t ht => ?_
    cases receipt with
    | none => exact hm
    | some d => exact works_loadJournalClose hm hphase (ht d rfl)
  · refine framed_verifyLiveCapture.bind fun live _ => .ite ?_ (works_exit hm)
    have hcreated : LoadMemory.Names { m with tableCreated := true } a b := hm
    exact (works_rollbackLoad hcreated).bind fun r hr => .ite (works_pure hr) (works_exit hr)

omit hm in
theorem works_completeInterrupted {l : LoadJournal} :
    Works l.attempt l.boot (LoadMemory.Names · l.attempt l.boot) (completeInterrupted l m) := by
  have hm : LoadMemory.Names { m with attempt := l.attempt, boot := l.boot } l.attempt l.boot :=
    ⟨rfl, rfl⟩
  rw [completeInterrupted]
  cases l.phase with
  | committed | rolledBack =>
    exact framed_get.bind fun s _ => (works_require hm).bind fun _ _ =>
      (works_orExit hm).bind fun _ _ => works_pure hm
  | prepared => exact (works_require hm).bind fun _ _ => works_pure hm
  | applyIntent | applied | rollbackIntent | recoveryRequired =>
    exact (works_require hm).bind fun _ _ => works_rollbackInterrupted hm
  | commitIntent =>
    have hphase : LoadPhase.committed.result? = some .pass := rfl
    refine (works_require hm).bind fun _ _ => framed_get.bind fun s _ => .ite ?_ ?_
    · refine (works_require hm).bind fun _ _ => fun t => ?_
      refine (works_loadReceiptWrite hm t rfl).seq (fun _ _ h => h) fun receipt t' ht' => ?_
      cases receipt with
      | none => exact hm
      | some d => exact works_loadJournalClose hm hphase (ht' d rfl)
    · have hdiscard : Works l.attempt l.boot (fun _ => True) (discardUnpublishedTemp
          (loadReceiptPath l.attempt .pass) { m with attempt := l.attempt, boot := l.boot }) :=
        framed_discardUnpublishedTemp hm
      dsimp only
      split
      · exact hdiscard.bind fun _ _ => works_rollbackInterrupted hm
      · exact works_rollbackInterrupted hm

/-- From the journal of a fresh attempt on. -/
theorem works_attempt : Works a b (fun _ => True) (do
    let m ← loadJournalWrite m .prepared none
    .orExit m
    let m ← loadJournalWrite m .applyIntent none
    let applied ← nft fun t => { t with table := .exact (some a) }
    .require applied m
    .orExit m
    let m := { m with tableCreated := true }
    let m ← loadJournalWrite m .applied none
    .orExit m
    .require (← verifyLiveCapture) m
    let m ← loadJournalWrite m .commitIntent none
    match ← loadReceiptWrite m .pass "verified" "not-needed" with
    | none => .exit m
    | some receipt =>
      let _ ← loadJournalWrite m .committed (some receipt)
      return ()) := by
  have happly : Framed a b (fun _ => True) (LoadMemory.Names · a b)
      (nft fun t => { t with table := .exact (some a) } : Load Bool) :=
    framed_nft fun s => loadChange_table (.inr rfl)
  refine (works_loadJournalWrite hm rfl).bind fun m hm => (works_orExit hm).bind fun _ _ => ?_
  refine (works_loadJournalWrite hm rfl).bind fun m hm => happly.bind fun _ _ => ?_
  refine (works_require hm).bind fun _ _ => (works_orExit hm).bind fun _ _ => ?_
  have hcreated : LoadMemory.Names { m with tableCreated := true } a b := hm
  refine (works_loadJournalWrite hcreated rfl).bind fun m hm => (works_orExit hm).bind fun _ _ => ?_
  refine framed_verifyLiveCapture.bind fun _ _ => (works_require hm).bind fun _ _ => ?_
  refine (works_loadJournalWrite hm rfl).bind fun m hm => ?_
  have hphase : LoadPhase.committed.result? = some .pass := rfl
  exact works_close hm hphase rfl (fun _ => rfl) (works_exit hm) fun _ _ => framed_pure trivial

end Loader

/-! ## All of it -/

/-- What the changes of an attempt rely on. -/
structure Attempts (a : Attempt) (b : ℕ) (s : Host) : Prop where
  sound : LoadSound s
  contents : Contents a b s
  boot : ∀ l, s.loadJournal = some l → l.attempt = a → l.boot = b

theorem LoadChange.attempts {a : Attempt} {b : ℕ} {s t : Host} (hs : Attempts a b s)
    (h : LoadChange a b s t) : Attempts a b t := by
  refine ⟨h.sound hs.sound hs.contents hs.boot, h.contents hs.contents, fun l hl hla => ?_⟩
  obtain hsame | ⟨l', hl', -, hb, -⟩ := h.loadJournal
  · exact hs.boot l (hsame ▸ hl) hla
  · obtain rfl := Option.some.inj (hl'.symm.trans hl)
    exact hb

theorem LoadSound.attempts {s : Host} (hs : LoadSound s) {l : LoadJournal}
    (hl : s.loadJournal = some l) : Attempts l.attempt l.boot s := by
  refine ⟨hs, hs.contents l hl, fun l' hl' _ => ?_⟩
  obtain rfl := Option.some.inj (hl'.symm.trans hl)
  rfl

/-- A fresh attempt has shown nothing yet. -/
theorem LoadSound.attempts_fresh {s : Host} (hs : LoadSound s) {a : Attempt} (ha : s.IsFresh a)
    (b : ℕ) : Attempts a b s := by
  refine ⟨hs, fun result => ?_, fun l hl hla => absurd hla (ha.2.2 l hl)⟩
  rw [ha.1 (loadReceiptPath a result) rfl]
  trivial

/-- What the loader does in a state with sound records: it changes them soundly, and creates or
removes nothing but an exact table. -/
structure LoadKeeps (s t : Host) : Prop extends LoadFrame s t where
  sound : LoadSound t
  table : t.table = s.table ∨ t.table ≠ .other

theorem LoadChange.keeps {a : Attempt} {b : ℕ} {s t : Host} (h : LoadChange a b s t)
    (ht : Attempts a b t) : LoadKeeps s t := by
  refine ⟨h.toLoadFrame, ht.sound, h.table.imp_right fun htable => ?_⟩
  rcases htable with htable | htable <;> simp [htable]

theorem Framed.keeps {ε α : Type} {a : Attempt} {b : ℕ} {rets : α → Prop} {exits : ε → Prop}
    {p : Prog Host ε α} {s : Host} (hp : Framed a b rets exits p) (hs : Attempts a b s) :
    Holds anyFault LoadKeeps (fun r t => rets r ∧ Attempts a b t)
      (fun e t => exits e ∧ Attempts a b t) p s :=
  ((hp s).carry hs fun _ _ hs h => h.attempts hs).mono (fun _ _ h => h.1.keeps h.2.2)
    (fun _ _ h => h) fun _ _ h => h

/-- What the exit handler finds. -/
def Exiting (m : LoadMemory) (s : Host) : Prop :=
  LoadSound s ∧ (m.isActive = true → ∃ a b, m.Names a b ∧ Attempts a b s)

theorem Exiting.of_attempts {m : LoadMemory} {a : Attempt} {b : ℕ} {s : Host} (hm : m.Names a b)
    (hs : Attempts a b s) : Exiting m s := ⟨hs.sound, fun _ => ⟨a, b, hm, hs⟩⟩

theorem loadFresh_keeps {m : LoadMemory} {s : Host} (hs : Recorded s) (hsound : LoadSound s)
    (hexit : Exiting m s) :
    Holds anyFault LoadKeeps (fun _ t => LoadSound t) Exiting (loadFresh m) s := by
  have hdrawn : LoadSound { s with uuid := s.uuid + 1 } := by
    refine ⟨hsound.contents, fun l hl => ?_⟩
    obtain ⟨hprestate, hintent, hclosed⟩ := hsound.journal l hl
    exact ⟨hprestate, hintent, hclosed⟩
  have hattempts : Attempts s.uuid s.boot { s with uuid := s.uuid + 1 } :=
    hdrawn.attempts_fresh (bump_isFresh hs) s.boot
  have hm : LoadMemory.Names { m with attempt := s.uuid, boot := s.boot } s.uuid s.boot := ⟨rfl, rfl⟩
  rw [loadFresh]
  refine holds_bind.mpr (holds_orExit.mpr ⟨?_, fun _ => hexit⟩)
  refine holds_bind.mpr (holds_get.mpr (holds_bind.mpr (holds_modify.mpr ⟨?_, ?_⟩)))
  · exact ⟨⟨rfl, rfl, rfl, fun _ _ => rfl⟩, hdrawn, .inl rfl⟩
  · exact ((works_attempt hm).keeps hattempts).weaken (fun _ _ h => h.2.sound)
      fun m' _ h => .of_attempts h.1 h.2

theorem load_keeps {s : Host} (hs : Recorded s) (hsound : LoadSound s) :
    Holds anyFault LoadKeeps (fun _ t => LoadSound t) (fun _ t => LoadSound t) load s := by
  have hrest : ∀ m t, Recorded t → Exiting m t →
      Holds anyFault LoadKeeps (fun _ t => LoadSound t) Exiting (do
        .orExit m
        if ← verifyAbsentCapture then loadFresh m
        else if ← verifyLiveCapture then return ()
        else .exit m) t := by
    intro m t ht hexit
    have hlive : Holds anyFault LoadKeeps (fun _ t => LoadSound t) Exiting
        (do if ← verifyLiveCapture then return () else .exit m) t := by
      refine holds_bind.mpr (holds_verifyLiveCapture.mpr ⟨?_, fun _ => hexit⟩)
      cases t.table.isExact with
      | true => exact hexit.1
      | false => exact hexit
    refine holds_bind.mpr (holds_orExit.mpr ⟨?_, fun _ => hexit⟩)
    refine holds_bind.mpr (holds_verifyAbsentCapture.mpr ⟨?_, fun _ => hlive⟩)
    cases decide (t.table = .absent) with
    | true => exact loadFresh_keeps ht hexit.1 hexit
    | false => exact hlive
  have hstart : Exiting {} s := ⟨hsound, fun h => by simp [LoadMemory.isActive] at h⟩
  rw [load, holds_trap]
  have hbody : Holds anyFault LoadKeeps (fun _ t => LoadSound t) Exiting loadBody s := by
    rw [loadBody]
    refine holds_bind.mpr (holds_orExit.mpr ⟨?_, fun _ => hstart⟩)
    refine holds_bind.mpr (holds_get.mpr ?_)
    cases hl : s.loadJournal with
    | none => exact hrest _ _ hs hstart
    | some l =>
      have hrecords := completeInterrupted_holds (m := {}) hs hl rfl rfl
      have hwork := (works_completeInterrupted (m := {})).keeps (hsound.attempts hl)
      refine ((hrecords.and hwork).mono (fun _ _ h => h.2) (fun _ _ h => h) fun _ _ h => h).seq ?_ ?_
      · rintro m t ⟨-, hm, ht⟩
        exact .of_attempts hm ht
      · rintro m t ⟨hidle, hm, ht⟩
        exact hrest m t hidle.2 (.of_attempts hm ht)
  refine hbody.weaken (fun _ _ h => h) fun m t hexit => ?_
  by_cases hactive : m.isActive = true
  · obtain ⟨a, b, hm, ht⟩ := hexit.2 hactive
    exact ((framed_loadOnExit hm).keeps ht).weaken (fun _ _ h => h.2.sound) fun _ _ h => h.2.sound
  · have hphase : m.phase ≠ some .commitIntent := by
      intro h
      exact hactive (by simp [LoadMemory.isActive, h, LoadPhase.isOpen])
    rw [loadOnExit, if_neg hphase, rollbackOnExit]
    have hinactive : (m.tableCreated || m.phase.any LoadPhase.isOpen) = false := by
      simpa [LoadMemory.isActive] using hactive
    rw [hinactive]
    exact hexit.1

theorem Framed.frame {ε α : Type} {a : Attempt} {b : ℕ} {rets : α → Prop} {exits : ε → Prop}
    {p : Prog Host ε α} (hp : Framed a b rets exits p) (s : Host) :
    Holds anyFault LoadFrame (fun _ _ => True) (fun _ _ => True) p s :=
  (hp s).mono (fun _ _ h => h.toLoadFrame) (fun _ _ _ => trivial) fun _ _ _ => trivial

/-- In any state, the loader leaves everything else alone. -/
theorem load_frame (s : Host) :
    Holds anyFault LoadFrame (fun _ _ => True) (fun _ _ => True) load s := by
  have hfresh : ∀ m t, Holds anyFault LoadFrame (fun _ _ => True) (fun _ _ => True) (loadFresh m) t := by
    intro m t
    have hm : LoadMemory.Names { m with attempt := t.uuid, boot := t.boot } t.uuid t.boot := ⟨rfl, rfl⟩
    rw [loadFresh]
    refine holds_bind.mpr (holds_orExit.mpr ⟨?_, fun _ => trivial⟩)
    refine holds_bind.mpr (holds_get.mpr (holds_bind.mpr (holds_modify.mpr ⟨?_, ?_⟩)))
    · exact ⟨rfl, rfl, rfl, fun _ _ => rfl⟩
    · exact (works_attempt hm).frame _
  have hrest : ∀ m t, Holds anyFault LoadFrame (fun _ _ => True) (fun _ _ => True) (do
      .orExit m
      if ← verifyAbsentCapture then loadFresh m
      else if ← verifyLiveCapture then return ()
      else .exit m) t := by
    intro m t
    have hlive : Holds anyFault LoadFrame (fun _ _ => True) (fun _ _ => True)
        (do if ← verifyLiveCapture then return () else .exit m) t := by
      refine holds_bind.mpr (holds_verifyLiveCapture.mpr ⟨?_, fun _ => trivial⟩)
      cases t.table.isExact <;> trivial
    refine holds_bind.mpr (holds_orExit.mpr ⟨?_, fun _ => trivial⟩)
    refine holds_bind.mpr (holds_verifyAbsentCapture.mpr ⟨?_, fun _ => hlive⟩)
    cases decide (t.table = .absent) with
    | true => exact hfresh m t
    | false => exact hlive
  rw [load, holds_trap]
  have hbody : Holds anyFault LoadFrame (fun _ _ => True) (fun _ _ => True) loadBody s := by
    rw [loadBody]
    refine holds_bind.mpr (holds_orExit.mpr ⟨?_, fun _ => trivial⟩)
    refine holds_bind.mpr (holds_get.mpr ?_)
    cases s.loadJournal with
    | none => exact hrest _ s
    | some l => exact (works_completeInterrupted.frame s).seq (fun _ _ h => h) fun m t _ => hrest m t
  exact hbody.weaken (fun _ _ h => h) fun m t _ => (framed_loadOnExit ⟨rfl, rfl⟩).frame t

end GuardTransaction
