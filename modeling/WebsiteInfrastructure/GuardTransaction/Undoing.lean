import Mathlib
import WebsiteInfrastructure.GuardTransaction.Install
import WebsiteInfrastructure.GuardTransaction.Recover
import WebsiteInfrastructure.GuardTransaction.LoaderFrame

/-!
# What a rollback relies on

The states from which an attempt can be undone, and the effect of each part of the rollback while
no command fails.
-/

namespace GuardTransaction

open Crash

/-! ## The machine -/

/-- A managed file or directory lies in directories that are there, and nothing of a unit runs
whose file is gone. -/
structure Machine.IsSound (m : Machine) : Prop where
  file : ∀ a d, a.directory? = some d → m.file a ≠ .absent → m.directory d = true
  directory : ∀ d d', d.parent? = some d' → m.directory d = true → m.directory d' = true
  stopped : m.file .unit = .absent → m.guard = false ∧ m.queued = false

/-- A prestate that the transactions can have taken. -/
structure Prestate.IsSound (p : Prestate) : Prop where
  table : p.table = .absent
  file : ∀ a d, a.directory? = some d → p.file a = .exact → p.directory d = .exact
  directory : ∀ d d', d.parent? = some d' → p.directory d = .exact → p.directory d' = .exact
  kubelet : p.kubelet = true → p.file .dropin = .absent
  enabled : p.enabled = true → p.file .unit = .exact

/-- A machine between the prestate and the installation. -/
structure Undoable (p : Prestate) (m : Machine) : Prop where
  prestate : p.IsSound
  machine : m.IsSound
  known : ∀ a, m.file a ≠ .other
  file : ∀ a, p.file a = .exact → m.file a = .exact
  directory : ∀ d, p.directory d = .exact → m.directory d = true
  enabled : p.enabled = true → m.enabled = true
  kubelet : m.kubelet = true → p.kubelet = true

/-- The prestate is found again. -/
structure Restored (p : Prestate) (s : Host) : Prop where
  machine : s.machine.prestate = p
  known : ∀ a, s.machine.file a ≠ .other
  table : s.table = .absent

def Machine.removeFile (m : Machine) (p : Prestate) (a : Artifact) : Machine :=
  if p.file a = .absent then { m with file := Function.update m.file a .absent } else m

def Machine.removeFiles (m : Machine) (p : Prestate) : List Artifact → Machine
  | [] => m
  | a :: rest => (m.removeFile p a).removeFiles p rest

def Machine.removeDirectory (m : Machine) (p : Prestate) (d : Directory) : Machine :=
  if p.directory d = .absent then { m with directory := Function.update m.directory d false } else m

def Machine.stopped (m : Machine) : Machine := { m with guard := false, queued := false }

section Removal

variable {p : Prestate} {m : Machine}

theorem removeFile_file (a x : Artifact) : (m.removeFile p a).file x =
    if x = a ∧ p.file a = .absent then .absent else m.file x := by
  by_cases habsent : p.file a = .absent
  · simp [Machine.removeFile, habsent, Function.update_apply]
  · simp [Machine.removeFile, habsent]

theorem removeFiles_file (as : List Artifact) (x : Artifact) : (m.removeFiles p as).file x =
    if x ∈ as ∧ p.file x = .absent then .absent else m.file x := by
  induction as generalizing m with
  | nil => simp [Machine.removeFiles]
  | cons a rest ih =>
    rw [Machine.removeFiles, ih, removeFile_file]
    by_cases hx : x = a
    · subst hx
      by_cases habsent : p.file x = .absent <;> simp [habsent]
    · simp [hx]

theorem removeFile_same (a : Artifact) : (m.removeFile p a).directory = m.directory ∧
    (m.removeFile p a).enabled = m.enabled ∧ (m.removeFile p a).guard = m.guard ∧
    (m.removeFile p a).kubelet = m.kubelet ∧ (m.removeFile p a).queued = m.queued := by
  rw [Machine.removeFile]
  split_ifs <;> exact ⟨rfl, rfl, rfl, rfl, rfl⟩

theorem removeFiles_same (as : List Artifact) : (m.removeFiles p as).directory = m.directory ∧
    (m.removeFiles p as).enabled = m.enabled ∧ (m.removeFiles p as).guard = m.guard ∧
    (m.removeFiles p as).kubelet = m.kubelet ∧ (m.removeFiles p as).queued = m.queued := by
  induction as generalizing m with
  | nil => exact ⟨rfl, rfl, rfl, rfl, rfl⟩
  | cons a rest ih =>
    obtain ⟨h₁, h₂, h₃, h₄, h₅⟩ := removeFile_same (p := p) (m := m) a
    obtain ⟨h₁', h₂', h₃', h₄', h₅'⟩ := ih (m := m.removeFile p a)
    exact ⟨h₁'.trans h₁, h₂'.trans h₂, h₃'.trans h₃, h₄'.trans h₄, h₅'.trans h₅⟩

theorem removeDirectory_directory (d x : Directory) : (m.removeDirectory p d).directory x =
    if x = d ∧ p.directory d = .absent then false else m.directory x := by
  by_cases habsent : p.directory d = .absent
  · simp [Machine.removeDirectory, habsent, Function.update_apply]
  · simp [Machine.removeDirectory, habsent]

theorem removeDirectory_same (d : Directory) : (m.removeDirectory p d).file = m.file ∧
    (m.removeDirectory p d).enabled = m.enabled ∧ (m.removeDirectory p d).guard = m.guard ∧
    (m.removeDirectory p d).kubelet = m.kubelet ∧ (m.removeDirectory p d).queued = m.queued := by
  rw [Machine.removeDirectory]
  split_ifs <;> exact ⟨rfl, rfl, rfl, rfl, rfl⟩

/-! ## Each part keeps the machine undoable -/

theorem Undoable.removeFile (h : Undoable p m) (a : Artifact)
    (hstopped : a = .unit → m.guard = false ∧ m.queued = false) : Undoable p (m.removeFile p a) := by
  obtain ⟨hdirectory, henabled, hguard, hkubelet, hqueued⟩ := removeFile_same (p := p) (m := m) a
  have hfile : ∀ x, (m.removeFile p a).file x ≠ .absent → m.file x ≠ .absent := by
    intro x hx habsent
    rw [removeFile_file] at hx
    split_ifs at hx
    exacts [hx rfl, hx habsent]
  constructor
  · exact h.prestate
  · constructor
    · intro x d hd hx
      rw [hdirectory]
      exact h.machine.file x d hd (hfile x hx)
    · intro d d' hd hpresent
      rw [hdirectory] at hpresent ⊢
      exact h.machine.directory d d' hd hpresent
    · intro hunit
      rw [hguard, hqueued]
      rw [removeFile_file] at hunit
      split_ifs at hunit with hremoved
      · exact hstopped hremoved.1.symm
      · exact h.machine.stopped hunit
  · intro x
    rw [removeFile_file]
    split_ifs
    · simp
    · exact h.known x
  · intro x hx
    rw [removeFile_file, if_neg]
    · exact h.file x hx
    · rintro ⟨rfl, habsent⟩
      simp [hx] at habsent
  · rw [hdirectory]
    exact h.directory
  · rw [henabled]
    exact h.enabled
  · rw [hkubelet]
    exact h.kubelet

theorem Undoable.removeDirectory (h : Undoable p m) (d : Directory)
    (hempty : p.directory d = .absent → m.isOccupied d = false) :
    Undoable p (m.removeDirectory p d) := by
  obtain ⟨hfile, henabled, hguard, hkubelet, hqueued⟩ := removeDirectory_same (p := p) (m := m) d
  constructor
  · exact h.prestate
  · constructor
    · intro a x hx ha
      rw [hfile] at ha
      rw [removeDirectory_directory, if_neg]
      · exact h.machine.file a x hx ha
      · rintro ⟨rfl, habsent⟩
        have hoccupied := hempty habsent
        simp only [Machine.isOccupied, Bool.or_eq_false_iff, List.any_eq_false] at hoccupied
        cases a <;> simp [Artifact.directory?] at hx <;> subst hx <;>
          simp_all [Artifact.directory?]
    · intro x x' hx hpresent
      rw [removeDirectory_directory] at hpresent ⊢
      split_ifs at hpresent with hgone
      rw [if_neg]
      · exact h.machine.directory x x' hx hpresent
      · rintro ⟨rfl, habsent⟩
        have hoccupied := hempty habsent
        cases x <;> simp [Directory.parent?] at hx
        subst hx
        simp [Machine.isOccupied, Directory.parent?, hpresent] at hoccupied
    · rw [hfile, hguard, hqueued]
      exact h.machine.stopped
  · rw [hfile]
    exact h.known
  · rw [hfile]
    exact h.file
  · intro x hx
    rw [removeDirectory_directory, if_neg]
    · exact h.directory x hx
    · rintro ⟨rfl, habsent⟩
      simp [hx] at habsent
  · rw [henabled]
    exact h.enabled
  · rw [hkubelet]
    exact h.kubelet

/-- Units do not matter, as long as the kubelet is not started beyond its prestate. -/
theorem Undoable.units (h : Undoable p m) {enabled guard kubelet queued : Bool}
    (henabled : p.enabled = true → enabled = true) (hkubelet : kubelet = true → p.kubelet = true)
    (hstopped : m.file .unit = .absent → guard = false ∧ queued = false) :
    Undoable p { m with enabled, guard, kubelet, queued } :=
  ⟨h.prestate, ⟨h.machine.file, h.machine.directory, hstopped⟩, h.known, h.file, h.directory,
    henabled, hkubelet⟩

end Removal

/-! ## Documents -/

section Documents

variable {ε : Type} {e : ε} {name : ReceiptName} {payload : Document} {s : Host}

/-- A step of a publication that shows nothing but the document. -/
def Writes (name : ReceiptName) (payload : Document) (s t : Host) : Prop :=
  (∀ d, s.receipts name ≠ .published d) ∧
    ∃ slot, slot.Shows payload ∧ t = s.setReceipt name slot

theorem createDocument_noFault (hnot : ∀ d, s.receipts name ≠ .published d) :
    Holds noFault (Writes name payload) (fun _ t => t = s.setReceipt name (.published payload))
      (fun _ _ => False) (createDocument name payload e) s := by
  have hnext : ∀ slot slot' : Slot, (∀ d, slot ≠ .published d) → slot'.Shows payload →
      Writes name payload (s.setReceipt name slot) (s.setReceipt name slot') := by
    intro slot slot' hslot hshows
    refine ⟨by rwa [setReceipt_self], slot', hshows, ?_⟩
    rw [setReceipt_setReceipt]
  simp only [createDocument, holds_bind, holds_modify, holds_orExit, setReceipt_setReceipt]
  have htemporary : Writes name payload s (s.setReceipt name (.temporary none)) :=
    ⟨hnot, .temporary none, trivial, rfl⟩
  have hwritten := hnext (.temporary none) (.temporary (some payload)) (by simp) trivial
  have hlinked := hnext (.temporary (some payload)) (.linked payload) (by simp) rfl
  have hpublished := hnext (.linked payload) (.published payload) (by simp) rfl
  exact ⟨htemporary, ⟨hwritten, ⟨hlinked, ⟨hpublished, trivial, fun h => h⟩, fun h => h⟩,
    fun h => h⟩, fun h => h⟩

/-- Where the receipt shows nothing else, it is published, whatever was left of it. -/
theorem immutableDocument_noFault (hshows : (s.receipts name).Shows payload) :
    Holds noFault (Writes name payload) (fun _ t => t = s.setReceipt name (.published payload))
      (fun _ _ => False) (immutableDocument name payload e) s := by
  simp only [immutableDocument, holds_bind, holds_orExit, holds_get]
  refine ⟨?_, fun h => h⟩
  cases hslot : s.receipts name with
  | absent => exact createDocument_noFault (by simp [hslot])
  | temporary content =>
    simp only [holds_bind, holds_modify, holds_orExit]
    refine ⟨⟨by simp [hslot], .absent, trivial, rfl⟩, ?_, fun h => h⟩
    have hcreate : Holds noFault (Writes name payload)
        (fun _ t => t = (s.setReceipt name .absent).setReceipt name (.published payload))
        (fun _ _ => False) (createDocument name payload e) (s.setReceipt name .absent) :=
      createDocument_noFault (by simp)
    exact hcreate.weaken (fun _ _ h => by simpa using h) fun _ _ h => h
  | linked observed =>
    rw [hslot] at hshows
    obtain rfl : observed = payload := hshows
    simp only [holds_bind, holds_modify, holds_orExit, holds_require]
    exact ⟨⟨by simp [hslot], .published observed, rfl, rfl⟩, by simp, fun h => h⟩
  | published observed =>
    rw [hslot] at hshows
    obtain rfl : observed = payload := hshows
    simp only [holds_require, decide_true, if_true]
    rw [← hslot, setReceipt_eq]
  | collided observed =>
    rw [hslot] at hshows
    exact hshows.elim

/-- The receipt of the transaction for each result. -/
def mainReceipt (j : Journal) : Result → Document
  | .pass => receiptDocument j .pass "verified" "verified" "verified" "not-needed"
  | .pendingReboot => receiptDocument j .pendingReboot "verified" "pending" "pending" "not-needed"
  | .rollbackVerified => receiptDocument j .rollbackVerified "absent" "restored" "restored" "verified"
  | .recoveryRequired =>
    receiptDocument j .recoveryRequired "unverified" "unverified" "unverified" "required"

/-- A change of the records of a load that leaves the table alone. -/
def RecordChange (a : Attempt) (b : ℕ) (s t : Host) : Prop := LoadChange a b s t ∧ t.table = s.table

theorem writeReceipt_noFault {j : Journal} {result : Result} {guardState persistence dependency
    rollback : String}
    (hdocument : receiptDocument j result guardState persistence dependency rollback = mainReceipt j result)
    (hshows : (s.receipts (receiptPath j result)).Shows (mainReceipt j result)) :
    Holds noFault (Writes (receiptPath j result) (mainReceipt j result))
      (fun d t => d = mainReceipt j result ∧
        t = s.setReceipt (receiptPath j result) (.published (mainReceipt j result)))
      (fun _ _ => False) (writeReceipt j result guardState persistence dependency rollback e) s := by
  rw [writeReceipt, hdocument]
  refine (immutableDocument_noFault hshows).seq (fun _ _ h => h) fun _ t ht => ?_
  simp only [holds_bind, holds_orExit, holds_pure]
  exact ⟨⟨trivial, ht⟩, fun h => h⟩

theorem writeLoadReceipt_noFault {a : Attempt} {b : ℕ} {result : Result} {tableState rollback : String}
    (hdocument : loadReceiptDocument a b result tableState rollback = loadReceipt a b result)
    (hshows : (s.receipts (loadReceiptPath a result)).Shows (loadReceipt a b result)) :
    Holds noFault (RecordChange a b)
      (fun d t => d = loadReceipt a b result ∧
        t = s.setReceipt (loadReceiptPath a result) (.published (loadReceipt a b result)))
      (fun _ _ => False) (writeLoadReceipt a b result tableState rollback e) s := by
  have hchange : ∀ s t, Writes (loadReceiptPath a result) (loadReceipt a b result) s t →
      RecordChange a b s t := by
    rintro s _ ⟨hnot, slot, hslot, rfl⟩
    exact ⟨loadChange_receipt hnot fun _ => hslot, rfl⟩
  rw [writeLoadReceipt, hdocument]
  refine ((immutableDocument_noFault hshows).mono hchange (fun _ _ h => h) fun _ _ h => h).seq
    (fun _ _ h => h) fun _ t ht => ?_
  simp only [holds_bind, holds_orExit, holds_pure]
  exact ⟨⟨trivial, ht⟩, fun h => h⟩

theorem writeLoadJournalRecord_noFault {a : Attempt} {b : ℕ} {l : LoadJournal} (ha : l.attempt = a)
    (hb : l.boot = b) (hl : l.IsSound s) :
    Holds noFault (RecordChange a b) (fun _ t => t = { s with loadJournal := some l })
      (fun _ _ => False) (writeLoadJournalRecord l e) s := by
  have hchange : LoadChange a b s { s with loadJournal := some l } :=
    { toLoadFrame := ⟨rfl, rfl, rfl, fun _ _ => rfl⟩
      receipt := fun _ => .inl rfl
      loadJournal := .inr ⟨l, rfl, ha, hb, hl⟩
      table := .inl rfl }
  simp only [writeLoadJournalRecord, holds_bind, holds_orExit, holds_modify]
  exact ⟨⟨⟨hchange, rfl⟩, trivial, fun h => h⟩, fun h => h⟩

end Documents

/-! ## The load journal -/

section LoadJournal

variable {s : Host} {l : LoadJournal}

/-- The receipt of a result is published, and the phase that records it is written. -/
theorem recordLoad_noFault {result : Result} {phase : LoadPhase} {tableState rollback : String}
    (hs : LoadSound s) (hl : s.loadJournal = some l) (hresult : phase.result? = some result)
    (hdocument : loadReceiptDocument l.attempt l.boot result tableState rollback =
      loadReceipt l.attempt l.boot result) :
    Holds noFault (RecordChange l.attempt l.boot)
      (fun _ t => t.table = s.table ∧ LoadFrame s t ∧
        ∃ l', t.loadJournal = some l' ∧ l'.attempt = l.attempt ∧ l'.phase = phase)
      (fun _ _ => False) (do
        let receipt ← writeLoadReceipt l.attempt l.boot result tableState rollback ()
        writeLoadJournalRecord { l with phase, receipt := some receipt } () : Recovery Unit) s := by
  refine (writeLoadReceipt_noFault hdocument (hs.contents l hl result)).seq (fun _ _ h => h) ?_
  rintro d t ⟨hd, rfl⟩
  have hsound : LoadJournal.IsSound { l with phase, receipt := some d }
      (s.setReceipt (loadReceiptPath l.attempt result)
        (.published (loadReceipt l.attempt l.boot result))) := by
    refine ⟨(hs.journal l hl).prestate, fun hnone => ?_, fun result' hresult' => ?_⟩
    · simp [hresult] at hnone
    · obtain rfl := Option.some.inj (hresult'.symm.trans hresult)
      exact ⟨d, by rw [setReceipt_self, hd], rfl⟩
  refine (writeLoadJournalRecord_noFault rfl rfl hsound).weaken ?_ fun _ _ h => h
  rintro _ t rfl
  refine ⟨rfl, ⟨rfl, rfl, rfl, fun name hname => ?_⟩, _, rfl, rfl, rfl⟩
  refine setReceipt_of_ne s _ fun heq => ?_
  exact hname (by rw [heq]; rfl)

/-- A closed load journal is verified, and nothing is changed. -/
theorem verifyClosedLoadReceipt_noFault {faulty : Host → Prop} (hfaulty : ∀ s, ¬ faulty s)
    (hs : LoadSound s) (hl : s.loadJournal = some l) (hclosed : l.phase.result?.isSome = true) :
    Holds faulty (fun _ _ => False) (fun _ t => t = s) (fun _ _ => False)
      (verifyClosedLoadReceipt l () : Recovery Unit) s := by
  have hverify : ∀ (result : Result) (tableState rollback : String),
      l.phase.result? = some result →
      loadReceiptDocument l.attempt l.boot result tableState rollback =
        loadReceipt l.attempt l.boot result →
      Holds faulty (fun _ _ => False) (fun _ t => t = s) (fun _ _ => False) (do
        let s ← Prog.get
        Prog.require (s.receipts (loadReceiptPath l.attempt result)).rootFile?.isSome ()
        let observed ← writeLoadReceipt l.attempt l.boot result tableState rollback ()
        Prog.require (some observed = l.receipt) () : Recovery Unit) s := by
    intro result tableState rollback hresult hdocument
    obtain ⟨d, hpublished, hd⟩ := (hs.journal l hl).closed result hresult
    have hshows := hs.contents l hl result
    rw [hpublished] at hshows
    obtain rfl : d = loadReceipt l.attempt l.boot result := hshows
    simp only [writeLoadReceipt, immutableDocument, holds_bind, holds_get, holds_require, holds_orExit,
      hpublished, hdocument, Slot.rootFile?, Option.isSome_some, if_true, decide_true, holds_pure, hd]
    exact ⟨⟨trivial, fun h => hfaulty _ h⟩, fun h => hfaulty _ h⟩
  rw [verifyClosedLoadReceipt]
  cases hphase : l.phase with
  | committed => exact hverify .pass _ _ (by rw [hphase]; rfl) rfl
  | rolledBack => exact hverify .rollbackVerified _ _ (by rw [hphase]; rfl) rfl
  | recoveryRequired => exact hverify .recoveryRequired _ _ (by rw [hphase]; rfl) rfl
  | prepared | applyIntent | applied | commitIntent | rollbackIntent =>
    simp [hphase, LoadPhase.result?] at hclosed

/-- No pass of a load is left to be committed. -/
def Reconciled (s : Host) : Prop := ∀ l, s.loadJournal = some l → l.phase = .commitIntent →
  (s.receipts (loadReceiptPath l.attempt .pass)).exists = false

/-- What the parts of a rollback that work on the load journal do. -/
def LoadOnly (s t : Host) : Prop := LoadKeeps s t ∧ t.table = s.table

theorem LoadOnly.refl (hs : LoadSound s) : LoadOnly s s := ⟨⟨.refl s, hs, .inl rfl⟩, rfl⟩

theorem discardUnpublishedTemp_noFault {ε : Type} {e : ε} {name : ReceiptName}
    (hnot : (s.receipts name).exists = false) :
    Holds noFault (fun s t => (∀ d, s.receipts name ≠ .published d) ∧ t = s.setReceipt name .absent)
      (fun _ t => t = s.setReceipt name .absent) (fun _ _ => False)
      (discardUnpublishedTemp name e) s := by
  simp only [discardUnpublishedTemp, holds_bind, holds_orExit, holds_get]
  refine ⟨?_, fun h => h⟩
  cases hslot : s.receipts name with
  | absent =>
    have hsame : s = s.setReceipt name .absent := by rw [← hslot, setReceipt_eq]
    exact hsame
  | temporary content =>
    simp only [holds_bind, holds_modify, holds_orExit]
    exact ⟨⟨by simp [hslot], trivial⟩, trivial, fun h => h⟩
  | linked observed | published observed | collided observed => simp [hslot, Slot.exists] at hnot

/-- A program on the load of the journal that leaves the table alone. -/
theorem load_only {α : Type} {p : Recovery α} {post : α → Host → Prop} (hs : LoadSound s)
    (hl : s.loadJournal = some l)
    (hp : Holds noFault (RecordChange l.attempt l.boot) post (fun _ _ => False) p s) :
    Holds noFault LoadOnly (fun r t => post r t ∧ LoadSound t) (fun _ _ => False) p s := by
  have hcarried := hp.carry (hs.attempts hl) fun _ _ hs h => h.1.attempts hs
  exact hcarried.mono (fun _ _ h => ⟨h.1.1.keeps h.2.2, h.1.2⟩) (fun _ _ h => ⟨h.1, h.2.sound⟩)
    fun _ _ h => h.1

theorem reconcile_noFault (hs : LoadSound s) :
    Holds noFault LoadOnly
      (fun _ t => LoadSound t ∧ Reconciled t ∧ LoadFrame s t ∧ t.table = s.table)
      (fun _ _ => False) reconcilePublishedLoadCommit s := by
  rw [reconcilePublishedLoadCommit]
  refine holds_bind.mpr (holds_get.mpr ?_)
  cases hl : s.loadJournal with
  | none => exact ⟨hs, fun l' hl' => by simp [hl] at hl', .refl s, rfl⟩
  | some l =>
    have hstay : l.phase ≠ .commitIntent ∨ (s.receipts (loadReceiptPath l.attempt .pass)).exists = false →
        LoadSound s ∧ Reconciled s ∧ LoadFrame s s ∧ s.table = s.table := by
      intro h
      refine ⟨hs, fun l' hl' hphase => ?_, .refl s, rfl⟩
      obtain rfl := Option.some.inj (hl'.symm.trans hl)
      exact h.resolve_left (absurd hphase)
    refine holds_bind.mpr (holds_require.mpr ?_)
    rw [decide_eq_true (hs.journal l hl).prestate, if_pos rfl]
    cases hphase : l.phase with
    | committed | rolledBack | recoveryRequired =>
      have hclosed : l.phase.result?.isSome = true := by rw [hphase]; rfl
      refine (verifyClosedLoadReceipt_noFault (fun _ h => h) hs hl hclosed).mono
        (fun _ _ h => h.elim) ?_ fun _ _ h => h
      rintro _ t rfl
      exact hstay (.inl (by simp [hphase]))
    | prepared | applyIntent | applied | rollbackIntent => exact hstay (.inl (by simp [hphase]))
    | commitIntent =>
      dsimp only
      by_cases hexists : (s.receipts (loadReceiptPath l.attempt .pass)).exists = true
      · rw [if_pos hexists]
        have hrecord := @recordLoad_noFault s l .pass .committed "verified" "not-needed" hs hl rfl rfl
        refine (load_only hs hl hrecord).weaken ?_ fun _ _ h => h
        rintro _ t ⟨⟨htable, hframe, l', hl', -, hcommitted⟩, ht⟩
        refine ⟨ht, fun l'' hl'' hphase'' => ?_, hframe, htable⟩
        obtain rfl := Option.some.inj (hl''.symm.trans hl')
        simp [hcommitted] at hphase''
      · rw [if_neg hexists]
        exact hstay (.inr (by simpa using hexists))

/-- Every load is closed. -/
def LoadsClosed (s : Host) : Prop := ∀ l, s.loadJournal = some l → l.phase.result?.isSome = true

theorem closeLoad_noFault (hs : LoadSound s) (hreconciled : Reconciled s) :
    Holds noFault LoadOnly
      (fun _ t => LoadSound t ∧ LoadsClosed t ∧ LoadFrame s t ∧ t.table = s.table)
      (fun _ _ => False) closeLoadJournalAfterAbsence s := by
  rw [closeLoadJournalAfterAbsence]
  refine holds_bind.mpr (holds_get.mpr ?_)
  cases hl : s.loadJournal with
  | none => exact ⟨hs, fun l' hl' => by simp [hl] at hl', .refl s, rfl⟩
  | some l =>
    -- the record of the rollback, from a state with the same journal
    have hclose : ∀ t, LoadSound t → t.loadJournal = some l → LoadFrame s t → t.table = s.table →
        Holds noFault LoadOnly
          (fun _ t => LoadSound t ∧ LoadsClosed t ∧ LoadFrame s t ∧ t.table = s.table)
          (fun _ _ => False) (do
            let receipt ← writeLoadReceipt l.attempt l.boot .rollbackVerified "absent" "verified" ()
            writeLoadJournalRecord { l with phase := .rolledBack, receipt := some receipt } ()) t := by
      intro t ht hload hframe htable
      have hrecord := @recordLoad_noFault t l .rollbackVerified .rolledBack "absent" "verified" ht hload rfl rfl
      refine (load_only ht hload hrecord).weaken ?_ fun _ _ h => h
      rintro _ t' ⟨⟨htable', hframe', l', hl', -, hrolled⟩, ht'⟩
      refine ⟨ht', fun l'' hl'' => ?_, hframe.trans hframe', htable'.trans htable⟩
      obtain rfl := Option.some.inj (hl''.symm.trans hl')
      rw [hrolled]
      rfl
    refine holds_bind.mpr (holds_require.mpr ?_)
    rw [decide_eq_true (hs.journal l hl).prestate, if_pos rfl]
    cases hphase : l.phase with
    | committed | rolledBack | recoveryRequired =>
      have hclosed : l.phase.result?.isSome = true := by rw [hphase]; rfl
      refine (verifyClosedLoadReceipt_noFault (fun _ h => h) hs hl hclosed).mono
        (fun _ _ h => h.elim) ?_ fun _ _ h => h
      rintro _ t rfl
      refine ⟨hs, fun l' hl' => ?_, .refl t, rfl⟩
      obtain rfl := Option.some.inj (hl'.symm.trans hl)
      exact hclosed
    | prepared | applyIntent | applied | rollbackIntent => exact hclose s hs hl (.refl s) rfl
    | commitIntent =>
      have hexists := hreconciled l hl hphase
      simp only [if_true]
      refine holds_bind.mpr (holds_require.mpr ?_)
      rw [hexists, Bool.not_false, if_pos rfl]
      split
      · have hdiscard : Holds noFault (RecordChange l.attempt l.boot)
            (fun _ t => t = s.setReceipt (loadReceiptPath l.attempt .pass) .absent) (fun _ _ => False)
            (discardUnpublishedTemp (loadReceiptPath l.attempt .pass) () : Recovery Unit) s := by
          refine (discardUnpublishedTemp_noFault hexists).mono ?_ (fun _ _ h => h) fun _ _ h => h
          rintro s t ⟨hnot, rfl⟩
          exact ⟨loadChange_receipt hnot fun _ => trivial, rfl⟩
        refine (load_only hs hl hdiscard).seq (fun _ _ h => h) ?_
        rintro _ t ⟨rfl, ht⟩
        refine hclose _ ht hl ⟨rfl, rfl, rfl, fun name hname => ?_⟩ rfl
        refine setReceipt_of_ne s _ fun heq => ?_
        exact hname (by rw [heq]; rfl)
      · exact hclose s hs hl (.refl s) rfl

end LoadJournal

end GuardTransaction
