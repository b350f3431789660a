import Mathlib
import WebsiteInfrastructure.DestructiveFixture.Transaction

/-!
# Interrupted destructive-test transactions

Runs and recoveries follow each other, each of them signalled or killed at any of its steps. The
transaction can be closed after all of it if and only if no interruption falls between the
creation of a temporary file and its publication, or between the receipt and the closed journal.
-/

namespace DestructiveFixture

open Crash

variable {s t u : Root}

/-! ## Roots -/

attribute [local simp] Finmap.lookup_insert_of_ne Finmap.lookup_erase_ne

theorem erase_of_notMem {a : Name} (h : a ∉ s) : s.erase a = s := by
  apply Finmap.ext_lookup
  intro b
  by_cases hb : b = a
  · rw [hb, Finmap.lookup_erase, Finmap.lookup_eq_none.mpr h]
  · rw [Finmap.lookup_erase_ne hb]

theorem erase_insert_of_notMem {a : Name} {c : Content} (h : a ∉ s) : (s.insert a c).erase a = s := by
  apply Finmap.ext_lookup
  intro b
  by_cases hb : b = a
  · rw [hb, Finmap.lookup_erase, Finmap.lookup_eq_none.mpr h]
  · rw [Finmap.lookup_erase_ne hb, Finmap.lookup_insert_of_ne _ hb]

theorem ne_temporary (path : Name) (pid : ℕ) : path ≠ .temporary path pid := by
  intro h
  have hsize := congrArg sizeOf h
  simp at hsize
  omega

def NoTemporary (root : Root) : Prop := ∀ path pid, .temporary path pid ∉ root

def Prepared (root : Root) : Prop := root.lookup .journal = some (.journal preparedJournal)

/-! ## The steps of the programs -/

section Rules

variable {guarantee : Root → Root → Prop} {post : Unit → Root → Prop} {onExit : Exit → Root → Prop}

@[simp] theorem holds_unlinkExisting (path : Name) :
    Holds noFault guarantee post onExit (unlinkExisting path) s ↔
      (path ∈ s → guarantee s (s.erase path)) ∧ post () (s.erase path) := by
  by_cases h : path ∈ s
  · simp [unlinkExisting, h]
  · simp [unlinkExisting, h, erase_of_notMem h]

theorem holds_writeBytes {pid : ℕ} {path : Name} {payload : Content} {replace : Bool}
    (htemporary : .temporary path pid ∉ s) :
    Holds noFault guarantee post onExit (writeBytes pid path payload replace) s ↔
      guarantee s (s.insert (.temporary path pid) .fragment) ∧
      guarantee (s.insert (.temporary path pid) .fragment) (s.insert (.temporary path pid) payload) ∧
      if !replace && decide (path ∈ s) then
        guarantee (s.insert (.temporary path pid) payload) s ∧
          onExit (.fixtureError s!"refusing to replace existing fixture record {path.text}") s
      else guarantee (s.insert (.temporary path pid) payload) (s.insert path payload) ∧
          post () (s.insert path payload) := by
  have hpath : path ∈ s.insert (.temporary path pid) payload ↔ path ∈ s := by
    simp [ne_temporary]
  simp only [writeBytes, holds_bind, holds_get, holds_require, htemporary, not_false_eq_true,
    decide_true, if_true, holds_modify, Finmap.insert_insert, holds_ite, hpath,
    erase_insert_of_notMem htemporary, holds_exit]

theorem holds_writeBytes_occupied {pid : ℕ} {path : Name} {payload : Content} {replace : Bool}
    (htemporary : .temporary path pid ∈ s) :
    Holds noFault guarantee post onExit (writeBytes pid path payload replace) s ↔
      onExit .fileExists s := by
  simp [writeBytes, htemporary]

@[simp] theorem holds_awaitContinue {wait : Wait} {post : ℕ → Root → Prop} :
    Holds noFault guarantee post onExit (awaitContinue wait) s ↔
      guarantee s (wait.root s) ∧ post (wait.cleanup s) (wait.root s) := Iff.rfl

@[simp] theorem holds_readJournal {post : Journal → Root → Prop} :
    Holds noFault guarantee post onExit readJournal s ↔
      match s.lookup .journal with
      | some (.journal document) => post document s
      | some _ => onExit (.fixtureError s!"fixture record {Name.journal.text} is malformed") s
      | none => onExit (.fixtureError s!"fixture record {Name.journal.text} is absent or unsafe") s := by
  simp only [readJournal, holds_bind, holds_get]
  cases s.lookup .journal with
  | none => simp
  | some content => cases content <;> simp

@[simp] theorem holds_readReceipt {post : Receipt → Root → Prop} :
    Holds noFault guarantee post onExit readReceipt s ↔
      match s.lookup .receipt with
      | some (.receipt document) => post document s
      | some _ => onExit (.fixtureError s!"fixture record {Name.receipt.text} is malformed") s
      | none => onExit (.fixtureError s!"fixture record {Name.receipt.text} is absent or unsafe") s := by
  simp only [readReceipt, holds_bind, holds_get]
  cases s.lookup .receipt with
  | none => simp
  | some content => cases content <;> simp

/-- The closed state is only read. -/
theorem validateClosedState_holds (journal : Journal) (hpost : post () s) (hexit : ∀ e, onExit e s) :
    Holds noFault guarantee post onExit (validateClosedState journal) s := by
  simp only [validateClosedState, holds_bind, holds_readReceipt, holds_require, holds_get]
  split
  · split_ifs
    · exact hpost
    · exact hexit _
    · exact hexit _
    · exact hexit _
  · exact hexit _
  · exact hexit _

/-- A recovery changes the root only from a prepared journal without a receipt. -/
theorem recover_holds {post : ℕ → Root → Prop} {pid elapsed : ℕ} (hexit : ∀ e, onExit e s)
    (hclosed : post 0 s) (hcleanup : Prepared s → Name.receipt ∉ s →
      Holds noFault guarantee (fun _ t => post 0 t) onExit
        (finishCleanup pid "journal-recovery" elapsed) s) :
    Holds noFault guarantee post onExit (recover pid elapsed) s := by
  simp only [recover, holds_bind, holds_readJournal, holds_require, holds_ite, holds_get,
    decide_eq_true_eq]
  split
  · rename_i journal hjournal
    split_ifs with hschema hstate hprepared hreceipt
    · exact validateClosedState_holds journal hclosed hexit
    · exact hexit _
    · apply hcleanup
      · rw [Prepared, hjournal, hprepared]
      · exact hreceipt
    · exact hexit _
    · exact hexit _
  · exact hexit _
  · exact hexit _

end Rules

/-! ## Entries that stay -/

/-- The names a cleanup removes. -/
def transientNames : List Name := [.mutation, .ready, .cleanupStarted, .cleanupContinue]

section Keeps

variable {n : Name}

theorem writeBytes_keeps (hn : n ∈ s) (pid : ℕ) (path : Name) (payload : Content) (replace : Bool) :
    Always noFault (n ∈ ·) (writeBytes pid path payload replace) s := by
  by_cases htemporary : .temporary path pid ∈ s
  · exact (holds_writeBytes_occupied htemporary).mpr hn
  · apply (holds_writeBytes htemporary).mpr
    simp [hn]

theorem unlinkExisting_keeps (hn : n ∈ s) {path : Name} (hpath : n ≠ path) :
    Always noFault (n ∈ ·) (unlinkExisting path) s := by
  simp [Always, hn, hpath]

theorem finishCleanup_keeps (hn : n ∈ s) (hkept : n ∉ transientNames) (pid : ℕ) (trigger : String)
    (elapsed : ℕ) : Always noFault (n ∈ ·) (finishCleanup pid trigger elapsed) s := by
  simp only [transientNames, List.mem_cons, List.not_mem_nil, or_false, not_or] at hkept
  apply (unlinkExisting_keeps hn hkept.1).seq
  intro _ t ht
  apply Always.seq
  · apply (unlinkExisting_keeps ht hkept.2.1).seq
    intro _ u hu
    apply (unlinkExisting_keeps hu hkept.2.2.1).seq
    intro _ v hv
    exact unlinkExisting_keeps hv hkept.2.2.2
  intro _ u hu
  simp only [Always, holds_bind, holds_get, holds_require]
  split
  · apply (writeBytes_keeps hu _ _ _ _).ensures
    intro _ v hv
    apply (writeBytes_keeps hv _ _ _ _).ensures
    intro _ w hw
    split <;> exact hw
  · exact hu

theorem handleSignal_keeps (hn : n ∈ s) (hkept : n ∉ transientNames) (pid : ℕ) (signum : Signal)
    (wait : Wait) : Always noFault (n ∈ ·) (handleSignal pid signum wait) s := by
  apply (writeBytes_keeps hn _ _ _ _).seq
  intro _ t ht
  have hroot : n ∈ wait.root t := by
    unfold Wait.root
    split <;> simp [ht]
  simp only [Always, holds_bind, holds_awaitContinue, holds_exit]
  exact ⟨hroot, (finishCleanup_keeps hroot hkept _ _ _).ensures fun _ _ h => h⟩

theorem recover_keeps (hn : n ∈ s) (hkept : n ∉ transientNames) (pid elapsed : ℕ) :
    Always noFault (n ∈ ·) (recover pid elapsed) s :=
  recover_holds (fun _ => hn) hn fun _ _ => finishCleanup_keeps hn hkept _ _ _

theorem run_keeps (hn : n ∈ s) (pid : ℕ) : Always noFault (n ∈ ·) (run pid) s := by
  apply Always.seq
  · simp only [prepare, Always, holds_bind, holds_get, holds_require]
    split
    · apply (writeBytes_keeps hn _ _ _ _).ensures
      intro _ t ht
      apply (writeBytes_keeps ht _ _ _ _).ensures
      intro _ u hu
      exact writeBytes_keeps hu _ _ _ _
    · exact hn
  · intro _ t ht
    exact ht

end Keeps

/-! ## Closed transactions -/

/-- The journal is closed, the receipt is accepted, and nothing else is left but the sentinel. -/
def Settled (root : Root) : Prop :=
  ∃ journal, root.lookup .journal = some (.journal journal) ∧ journal.state = .closed ∧
    ((validateClosedState journal).run root).1 = .inr ()

/-- The receipt is accepted and the journal bound to it. -/
def Bound (root : Root) : Prop :=
  ∃ receipt, root.lookup .receipt = some (.receipt receipt) ∧ receiptExact receipt ∧
    root.lookup .journal = some (.journal (closedJournal receipt))

theorem closedJournal_of_exact {receipt : Receipt} (h : receiptExact receipt) : closedJournal receipt =
    journalDocument .closed (some receipt.sha256) (some 0) (some receipt.trigger) := by
  have hresidue : receipt.residueOrphans = 0 := by
    simp only [receiptExact, decide_eq_true_eq] at h
    exact h.2.2.2.1
  rw [closedJournal, hresidue]

theorem settled_iff : Settled s ↔ Bound s ∧ s.keys = {.sentinel, .journal, .receipt} := by
  have hvalid (journal : Journal) : ((validateClosedState journal).run s).1 = .inr () ↔
      Holds noFault (fun _ _ => True) (fun _ _ => True) (fun _ _ => False)
        (validateClosedState journal) s := by
    rw [holds_noFault_iff]
    cases ((validateClosedState journal).run s).1 <;> simp
  constructor
  · rintro ⟨journal, hjournal, hclosed, hrun⟩
    rw [hvalid] at hrun
    simp only [validateClosedState, holds_bind, holds_readReceipt, holds_require, holds_get] at hrun
    split at hrun
    · rename_i receipt hreceipt
      simp only [decide_eq_true_eq, if_false_right, and_true] at hrun
      obtain ⟨hexact, hbound, hkeys, hmutation⟩ := hrun
      refine ⟨⟨receipt, hreceipt, hexact, ?_⟩, hkeys⟩
      rw [closedJournal_of_exact hexact, hjournal, hbound]
    · exact hrun.elim
    · exact hrun.elim
  · rintro ⟨⟨receipt, hreceipt, hexact, hjournal⟩, hkeys⟩
    have hmutation : Name.mutation ∉ s := by
      rw [← Finmap.mem_keys, hkeys]
      decide
    refine ⟨_, hjournal, rfl, (hvalid _).mpr ?_⟩
    simp [validateClosedState, hreceipt, hexact, closedJournal_of_exact hexact, hkeys, hmutation]

theorem Settled.mem_iff (h : Settled s) {n : Name} :
    n ∈ s ↔ n = .sentinel ∨ n = .journal ∨ n = .receipt := by
  rw [← Finmap.mem_keys, (settled_iff.mp h).2]
  simp

theorem Settled.noTemporary (h : Settled s) : NoTemporary s := by
  intro path pid
  rw [h.mem_iff]
  simp

/-! ## Cleanups -/

/-- The root without the names a cleanup removes. -/
def swept (root : Root) : Root :=
  (((root.erase .mutation).erase .ready).erase .cleanupStarted).erase .cleanupContinue

theorem mem_swept {n : Name} : n ∈ swept s ↔ n ∉ transientNames ∧ n ∈ s := by
  simp only [swept, Finmap.mem_erase, transientNames, List.mem_cons, List.not_mem_nil, or_false,
    not_or]
  tauto

theorem lookup_swept {n : Name} (h : n ∉ transientNames) : (swept s).lookup n = s.lookup n := by
  simp only [transientNames, List.mem_cons, List.not_mem_nil, or_false, not_or] at h
  simp [swept, h]

/-- What a cleanup of this root leaves. -/
def cleaned (root : Root) (receipt : Receipt) : Root :=
  ((swept root).insert .receipt (.receipt receipt)).insert .journal (.journal (closedJournal receipt))

theorem residue_swept (htemporary : NoTemporary s) (hreceipt : Name.receipt ∉ s) :
    residue (swept s) = ∅ := by
  ext n
  simp only [residue, Finset.mem_sdiff, Finmap.mem_keys, mem_swept, Finset.mem_insert,
    Finset.mem_singleton, Finset.notMem_empty, iff_false, not_and]
  intro hn hfree
  cases n with
  | temporary path pid => exact htemporary path pid hn.2
  | receipt => exact hreceipt hn.2
  | sentinel => exact hfree (.inl rfl)
  | journal => exact hfree (.inr rfl)
  | mutation => exact hn.1 (by decide)
  | ready => exact hn.1 (by decide)
  | cleanupStarted => exact hn.1 (by decide)
  | cleanupContinue => exact hn.1 (by decide)

theorem keys_cleaned (hsentinel : Name.sentinel ∈ s) (htemporary : NoTemporary s)
    (hreceipt : Name.receipt ∉ s) (receipt : Receipt) :
    (cleaned s receipt).keys = {.sentinel, .journal, .receipt} := by
  have hresidue := residue_swept htemporary hreceipt
  have hswept : Name.sentinel ∈ swept s := mem_swept.mpr ⟨by decide, hsentinel⟩
  ext n
  have hn : n ∈ swept s → n = .sentinel ∨ n = .journal := by
    intro hmem
    by_contra hother
    have : n ∈ residue (swept s) := by
      simpa [residue, Finmap.mem_keys, hmem] using hother
    simp [hresidue] at this
  simp only [cleaned, Finmap.mem_keys, Finmap.mem_insert, Finset.mem_insert, Finset.mem_singleton]
  constructor
  · rintro (rfl | rfl | hmem)
    · simp
    · simp
    · exact (hn hmem).imp_right .inl
  · rintro (rfl | rfl | rfl)
    · exact .inr (.inr hswept)
    · simp
    · simp

theorem roundMicroseconds_le {elapsed : ℕ} (h : elapsed ≤ rto) :
    roundMicroseconds elapsed ≤ 5 * 10 ^ 6 := by
  unfold rto at h
  unfold roundMicroseconds
  dsimp only
  split <;> omega

theorem settled_cleaned (hsentinel : Name.sentinel ∈ s) (htemporary : NoTemporary s)
    (hreceipt : Name.receipt ∉ s) {trigger : String} (htrigger : trigger ∈ receiptTriggers)
    {elapsed : ℕ} (helapsed : elapsed ≤ rto) :
    Settled (cleaned s (receiptDocument trigger elapsed 0)) := by
  apply settled_iff.mpr
  refine ⟨⟨receiptDocument trigger elapsed 0, ?_, ?_, ?_⟩,
    keys_cleaned hsentinel htemporary hreceipt _⟩
  · simp [cleaned]
  · have hround := roundMicroseconds_le helapsed
    simp [receiptExact, receiptDocument, htrigger]
    exact hround
  · simp [cleaned]

/-- A cleanup of a root without temporary files. -/
theorem finishCleanup_holds {invariant : Root → Prop} {post : Unit → Root → Prop}
    {onExit : Exit → Root → Prop} {pid : ℕ} {trigger : String} {elapsed : ℕ}
    (hsentinel : Name.sentinel ∈ s) (htemporary : NoTemporary s) (hs : invariant s)
    (herase : ∀ t n, n ∈ transientNames → invariant t → invariant (t.erase n))
    (hinsert : ∀ t path pid content, invariant t → invariant (t.insert (.temporary path pid) content))
    (hlate : rto < elapsed → ∀ e, onExit e (swept s))
    (hrefused : Name.receipt ∈ s → ∀ e, onExit e (swept s))
    (hreceipt : elapsed ≤ rto → Name.receipt ∉ s →
      invariant ((swept s).insert .receipt (.receipt (receiptDocument trigger elapsed 0))) ∧
      invariant (cleaned s (receiptDocument trigger elapsed 0)) ∧
      post () (cleaned s (receiptDocument trigger elapsed 0))) :
    Holds noFault (fun _ t => invariant t) post onExit (finishCleanup pid trigger elapsed) s := by
  have hmutation := herase s .mutation (by decide) hs
  have hready := herase _ .ready (by decide) hmutation
  have hstarted := herase _ .cleanupStarted (by decide) hready
  have hswept : invariant (swept s) := herase _ .cleanupContinue (by decide) hstarted
  have hfree (path : Name) : .temporary path pid ∉ swept s := by
    rw [mem_swept]
    exact fun h => htemporary _ _ h.2
  have hmem : Name.receipt ∈ swept s ↔ Name.receipt ∈ s := by
    rw [mem_swept]
    exact and_iff_right (by decide)
  simp only [finishCleanup, removeTransientMarkers, holds_bind, holds_unlinkExisting, holds_get,
    holds_require, decide_eq_true_eq]
  refine ⟨fun _ => hmutation, fun _ => hready, fun _ => hstarted, fun _ => hswept, ?_⟩
  have hfold : (((s.erase .mutation).erase .ready).erase .cleanupStarted).erase .cleanupContinue =
      swept s := rfl
  rw [hfold]
  split
  · rename_i hintime
    rw [holds_writeBytes (hfree _)]
    refine ⟨hinsert _ _ _ _ hswept, hinsert _ _ _ _ hswept, ?_⟩
    by_cases hpresent : Name.receipt ∈ s
    · simp only [hmem, hpresent, decide_true, Bool.not_false, Bool.and_self, if_true]
      exact ⟨hswept, hrefused hpresent _⟩
    · simp only [hmem, hpresent, decide_false, Bool.and_false, Bool.false_eq_true, if_false]
      rw [residue_swept htemporary hpresent, Finset.card_empty]
      obtain ⟨hpublished, hcleaned, hpost⟩ := hreceipt hintime hpresent
      refine ⟨hpublished, ?_⟩
      have hfree' : .temporary .journal pid ∉
          (swept s).insert .receipt (.receipt (receiptDocument trigger elapsed 0)) := by
        simp [hfree]
      rw [holds_writeBytes hfree']
      simp only [Bool.not_true, Bool.false_and, Bool.false_eq_true, if_false]
      have hkeys := keys_cleaned hsentinel htemporary hpresent (receiptDocument trigger elapsed 0)
      rw [cleaned] at hkeys hcleaned hpost
      refine ⟨hinsert _ _ _ _ hpublished, hinsert _ _ _ _ hpublished, hcleaned, ?_⟩
      rw [if_pos ⟨trivial, hkeys⟩]
      exact hpost
  · rename_i hlong
    exact hlate (by omega) _

/-! ## The journal and the receipt at every step -/

/-- The journal is prepared, or closed over an accepted receipt and without the mutation. -/
def Tracked (root : Root) : Prop :=
  Name.journal ∈ root → Prepared root ∨ Bound root ∧ Name.mutation ∉ root ∧ Name.ready ∉ root

/-- What the forward steps go through. -/
structure Forward (root : Root) : Prop where
  sentinel : Name.sentinel ∈ root
  journal : Name.journal ∈ root → Prepared root ∧ Name.receipt ∉ root ∨ Settled root

theorem Forward.tracked (h : Forward s) : Tracked s := by
  intro hjournal
  cases h.journal hjournal with
  | inl hprepared => exact .inl hprepared.1
  | inr hsettled =>
    refine .inr ⟨(settled_iff.mp hsettled).1, ?_, ?_⟩
    · simp [hsettled.mem_iff]
    · simp [hsettled.mem_iff]

theorem Tracked.erase (h : Tracked s) {n : Name} (hn : n ∈ transientNames) : Tracked (s.erase n) := by
  have hkept : Name.journal ≠ n ∧ Name.receipt ≠ n := by
    constructor
    · rintro rfl
      exact absurd hn (by decide)
    · rintro rfl
      exact absurd hn (by decide)
  intro hjournal
  rw [Finmap.mem_erase] at hjournal
  simpa [Tracked, Prepared, Bound, hkept.1, hkept.2, Finmap.mem_erase] using
    (h hjournal.2).imp_right fun hbound =>
      ⟨hbound.1, fun _ => hbound.2.1, fun _ => hbound.2.2⟩

theorem Tracked.insert (h : Tracked s) {n : Name} (hjournal : .journal ≠ n) (hreceipt : .receipt ≠ n)
    (hmutation : .mutation ≠ n) (hready : .ready ≠ n) (content : Content) :
    Tracked (s.insert n content) := by
  intro hmem
  rw [Finmap.mem_insert] at hmem
  simpa [Tracked, Prepared, Bound, hjournal, hreceipt, hmutation, hready] using
    h (hmem.resolve_left hjournal)

theorem Wait.mem_root (wait : Wait) {n : Name} (hn : n ≠ .cleanupContinue) :
    n ∈ wait.root s ↔ n ∈ s := by
  unfold Wait.root
  split <;> simp [hn]

theorem Tracked.wait (h : Tracked s) (wait : Wait) : Tracked (wait.root s) := by
  unfold Wait.root
  split
  · apply h.insert <;> simp
  · exact h

theorem finishCleanup_tracked (hsentinel : Name.sentinel ∈ s) (htemporary : NoTemporary s)
    (hs : Tracked s) {trigger : String} (htrigger : trigger ∈ receiptTriggers) (pid elapsed : ℕ) :
    Always noFault Tracked (finishCleanup pid trigger elapsed) s := by
  have hswept : Tracked (swept s) :=
    (((hs.erase (by decide)).erase (by decide)).erase (by decide)).erase (by decide)
  apply finishCleanup_holds hsentinel htemporary hs
  · exact fun t n hn ht => ht.erase hn
  · intro t path pid content ht
    apply ht.insert <;> simp
  · exact fun _ _ => hswept
  · exact fun _ _ => hswept
  · intro hintime hreceipt
    have hprepared : Name.journal ∈ s → Prepared s := by
      intro hjournal
      refine (hs hjournal).resolve_right fun hbound => hreceipt ?_
      obtain ⟨receipt, hlookup, -⟩ := hbound.1
      exact Finmap.mem_of_lookup_eq_some hlookup
    have hsettled := settled_cleaned hsentinel htemporary hreceipt htrigger hintime
    have hcleaned : Tracked (cleaned s (receiptDocument trigger elapsed 0)) := by
      refine fun _ => .inr ⟨(settled_iff.mp hsettled).1, ?_, ?_⟩
      · simp [hsettled.mem_iff]
      · simp [hsettled.mem_iff]
    refine ⟨?_, hcleaned, hcleaned⟩
    intro hjournal
    rw [Finmap.mem_insert, mem_swept] at hjournal
    have hlookup := hprepared (hjournal.resolve_left (by decide)).2
    left
    rw [Prepared, Finmap.lookup_insert_of_ne _ (by decide), lookup_swept (by decide)]
    exact hlookup

theorem signal_trigger (signum : Signal) : "signal-" ++ signum.name ∈ receiptTriggers := by
  cases signum <;> decide

theorem handleSignal_tracked (hsentinel : Name.sentinel ∈ s) (htemporary : NoTemporary s)
    (hs : Tracked s) (pid : ℕ) (signum : Signal) (wait : Wait) :
    Always noFault Tracked (handleSignal pid signum wait) s := by
  have htrigger := signal_trigger signum
  have hinsert (t : Root) (ht : Tracked t) (path : Name) (content : Content) :
      Tracked (t.insert (.temporary path pid) content) := by
    apply ht.insert <;> simp
  simp only [Always, handleSignal, holds_bind]
  rw [holds_writeBytes (htemporary _ _)]
  refine ⟨hinsert _ hs _ _, hinsert _ hs _ _, ?_⟩
  by_cases hstarted : Name.cleanupStarted ∈ s
  · simp only [hstarted, decide_true, Bool.not_false, Bool.and_self, if_true]
    exact ⟨hs, hs⟩
  · simp only [hstarted, decide_false, Bool.and_false, Bool.false_eq_true, if_false,
      holds_awaitContinue, holds_exit]
    have hmarked : Tracked (s.insert .cleanupStarted (.text "cleanup-started\n")) := by
      apply hs.insert <;> simp
    have hcontinued := hmarked.wait wait
    refine ⟨hmarked, hcontinued, (finishCleanup_tracked ?_ ?_ hcontinued htrigger _ _).ensures
      fun _ _ h => h⟩
    · simp [wait.mem_root, hsentinel]
    · intro path pid
      simp [wait.mem_root, htemporary path pid]

theorem recover_tracked (hsentinel : Name.sentinel ∈ s) (htemporary : NoTemporary s)
    (hs : Tracked s) (pid elapsed : ℕ) : Always noFault Tracked (recover pid elapsed) s :=
  recover_holds (fun _ => hs) hs fun _ _ =>
    finishCleanup_tracked hsentinel htemporary hs (by decide) _ _

/-! ## What can be recovered -/

/-- The transaction is closed, or a later recovery closes it. -/
def Ends (root : Root) : Prop :=
  Settled root ∨ ∃ pid elapsed, ((recover pid elapsed).run root).1 = .inr 0 ∧
    Settled ((recover pid elapsed).run root).2

/-- What `recover` accepts. -/
def Acceptable (root : Root) : Prop :=
  Settled root ∨ NoTemporary root ∧ Prepared root ∧ Name.receipt ∉ root

/-- A later recovery that stays within its time closes the transaction. -/
theorem recover_settles (hsentinel : Name.sentinel ∈ s) (htemporary : NoTemporary s)
    (hprepared : Prepared s) (hreceipt : Name.receipt ∉ s) (pid : ℕ) {elapsed : ℕ}
    (helapsed : elapsed ≤ rto) : ((recover pid elapsed).run s).1 = .inr 0 ∧
      Settled ((recover pid elapsed).run s).2 := by
  have hrecover : Holds noFault (fun _ _ => True) (fun result t => result = 0 ∧ Settled t)
      (fun _ _ => False) (recover pid elapsed) s := by
    rw [Prepared] at hprepared
    simp only [recover, holds_bind, holds_readJournal, hprepared, holds_require, holds_ite, holds_get]
    rw [if_pos (by decide), if_neg (by decide), if_pos (by decide), if_pos (by simpa using hreceipt)]
    apply finishCleanup_holds hsentinel htemporary trivial
    · exact fun _ _ _ _ => trivial
    · exact fun _ _ _ _ _ => trivial
    · intro hlate
      omega
    · exact fun hpresent => absurd hpresent hreceipt
    · intro _ _
      exact ⟨trivial, trivial, rfl, settled_cleaned hsentinel htemporary hreceipt (by decide) helapsed⟩
  rw [holds_noFault_iff] at hrecover
  cases hrun : ((recover pid elapsed).run s).1 with
  | inl e =>
    rw [hrun] at hrecover
    exact hrecover.elim
  | inr result =>
    rw [hrun] at hrecover
    exact ⟨congrArg Sum.inr hrecover.1, hrecover.2⟩

theorem acceptable_of_recover {pid elapsed : ℕ} (hrun : Settled ((recover pid elapsed).run s).2) :
    Acceptable s := by
  have hrecover : Holds noFault (fun _ _ => True) (fun _ t => Settled t → Acceptable s)
      (fun _ t => Settled t → Acceptable s) (recover pid elapsed) s := by
    apply recover_holds (fun _ => .inl) .inl
    intro hprepared hreceipt
    by_cases htemporary : NoTemporary s
    · have haccept : Acceptable s := .inr ⟨htemporary, hprepared, hreceipt⟩
      apply (holds_true _ _).mono
      · exact fun _ _ _ => trivial
      · exact fun _ _ _ _ => haccept
      · exact fun _ _ _ _ => haccept
    · -- A temporary file stays, and nothing is settled with it.
      simp only [NoTemporary, not_forall, not_not] at htemporary
      obtain ⟨path, owner, hpresent⟩ := htemporary
      apply (finishCleanup_keeps hpresent (by simp [transientNames]) _ _ _).mono
      · exact fun _ _ _ => trivial
      · exact fun _ _ hstays hsettled => absurd hstays (hsettled.noTemporary _ _)
      · exact fun _ _ hstays hsettled => absurd hstays (hsettled.noTemporary _ _)
  rw [holds_noFault_iff] at hrecover
  cases hresult : ((recover pid elapsed).run s).1 with
  | inl e =>
    rw [hresult] at hrecover
    exact hrecover hrun
  | inr result =>
    rw [hresult] at hrecover
    exact hrecover hrun

theorem ends_iff_acceptable (hsentinel : Name.sentinel ∈ s) : Ends s ↔ Acceptable s := by
  constructor
  · rintro (hsettled | ⟨pid, elapsed, -, hsettled⟩)
    · exact .inl hsettled
    · exact acceptable_of_recover hsettled
  · rintro (hsettled | ⟨htemporary, hprepared, hreceipt⟩)
    · exact .inl hsettled
    · exact .inr ⟨0, 0, recover_settles hsentinel htemporary hprepared hreceipt 0 (by decide)⟩

def Closed (root : Root) : Prop :=
  ∃ journal, root.lookup .journal = some (.journal journal) ∧ journal.state = .closed

/-- No record is being published, and no marker was added to a closed transaction. -/
structure Quiet (root : Root) : Prop where
  temporary : NoTemporary root
  prepared : Prepared root → Name.receipt ∉ root
  closed : Closed root → Name.cleanupStarted ∉ root ∧ Name.cleanupContinue ∉ root

theorem Prepared.not_closed (h : Prepared s) : ¬ Closed s := by
  rintro ⟨journal, hjournal, hclosed⟩
  rw [h] at hjournal
  cases hjournal
  exact absurd hclosed (by decide)

theorem acceptable_iff_quiet (hsentinel : Name.sentinel ∈ s) (hjournal : Name.journal ∈ s)
    (hs : Tracked s) : Acceptable s ↔ Quiet s := by
  constructor
  · rintro (hsettled | ⟨htemporary, hprepared, hreceipt⟩)
    · refine ⟨hsettled.noTemporary, fun hprepared => ?_, fun _ => ?_⟩
      · obtain ⟨journal, hlookup, hclosed, -⟩ := hsettled
        exact absurd ⟨journal, hlookup, hclosed⟩ hprepared.not_closed
      · simp [hsettled.mem_iff]
    · exact ⟨htemporary, fun _ => hreceipt, fun hclosed => absurd hclosed hprepared.not_closed⟩
  · intro hquiet
    obtain hprepared | ⟨hbound, hmutation, hready⟩ := hs hjournal
    · exact .inr ⟨hquiet.temporary, hprepared, hquiet.prepared hprepared⟩
    · left
      refine settled_iff.mpr ⟨hbound, ?_⟩
      obtain ⟨receipt, hreceipt, -, hclosed⟩ := hbound
      obtain ⟨hstarted, hcontinue⟩ := hquiet.closed ⟨_, hclosed, rfl⟩
      have hpresent := Finmap.mem_of_lookup_eq_some hreceipt
      ext n
      rw [Finmap.mem_keys]
      cases n with
      | temporary path pid => simp [hquiet.temporary path pid]
      | sentinel => simp [hsentinel]
      | journal => simp [hjournal]
      | mutation => simp [hmutation]
      | ready => simp [hready]
      | cleanupStarted => simp [hstarted]
      | cleanupContinue => simp [hcontinue]
      | receipt => simp [hpresent]

/-- Where a program was killed. -/
theorem ends_iff_quiet (hsentinel : Name.sentinel ∈ s) (hjournal : Name.journal ∈ s)
    (hs : NoTemporary s → Tracked s) : Ends s ↔ Quiet s := by
  rw [ends_iff_acceptable hsentinel]
  by_cases htemporary : NoTemporary s
  · exact acceptable_iff_quiet hsentinel hjournal (hs htemporary)
  · constructor
    · rintro (hsettled | hprepared)
      · exact absurd hsettled.noTemporary htemporary
      · exact absurd hprepared.1 htemporary
    · exact fun hquiet => absurd hquiet.temporary htemporary

end DestructiveFixture
