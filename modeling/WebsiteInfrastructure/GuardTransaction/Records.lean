import Mathlib
import WebsiteInfrastructure.GuardTransaction.Host

/-!
# What every change of the records respects

An invariant of the journals and the receipts, and the changes that the scripts are admitted: one
guarantee for all of them.
-/

namespace GuardTransaction

open Crash

/-- A receipt under its final name. -/
def Host.IsPublished (s : Host) (name : ReceiptName) : Prop := (s.receipts name).exists = true

abbrev passReceipt (mode : Mode) (a : Attempt) : ReceiptName := ⟨.transaction mode, a, .pass⟩

abbrev rollbackReceipt (mode : Mode) (a : Attempt) : ReceiptName :=
  ⟨.transaction mode, a, .rollbackVerified⟩

abbrev loadPassReceipt (a : Attempt) : ReceiptName := ⟨.load, a, .pass⟩

abbrev loadRollbackReceipt (a : Attempt) : ReceiptName := ⟨.load, a, .rollbackVerified⟩

/-- The phases of a transaction whose pass receipt may be published. -/
def Phase.isCommit : Phase → Bool
  | .commitIntent | .committed => true
  | _ => false

/-- The phases of a transaction whose rollback may be recorded. -/
def Phase.isRollback : Phase → Bool
  | .rollbackIntent | .rolledBack | .recoveryRequired => true
  | _ => false

def Phase.isClosed : Phase → Bool
  | .committed | .rolledBack => true
  | _ => false

def LoadPhase.isCommit : LoadPhase → Bool
  | .commitIntent | .committed => true
  | _ => false

/-- The phases of a load whose table may exist. -/
def LoadPhase.mayOwnTable : LoadPhase → Bool
  | .prepared | .rolledBack => false
  | _ => true

/-- The invariant of the records. -/
structure Recorded (s : Host) : Prop where
  journal_lt : ∀ j, s.journal = some j → j.attempt < s.uuid
  load_lt : ∀ l, s.loadJournal = some l → l.attempt < s.uuid
  receipt_lt : ∀ name, s.receipts name ≠ .absent → name.attempt < s.uuid
  /-- A published pass is that of the current attempt, which stays with it. -/
  pass : ∀ mode a, s.IsPublished (passReceipt mode a) →
    ∃ j, s.journal = some j ∧ j.mode = mode ∧ j.attempt = a ∧ j.phase.isCommit = true
  rollback : ∀ mode j, s.journal = some j → s.IsPublished (rollbackReceipt mode j.attempt) →
    j.phase.isRollback = true
  loadPass : ∀ l, s.loadJournal = some l → s.IsPublished (loadPassReceipt l.attempt) →
    l.phase.isCommit = true
  loadExclusive : ∀ a, s.IsPublished (loadPassReceipt a) → ¬ s.IsPublished (loadRollbackReceipt a)
  /-- The table of an attempt is covered by its journal. -/
  table : ∀ a, s.table = .exact (some a) → ∃ l, s.loadJournal = some l ∧ l.attempt = a ∧
    l.prestate = .absent ∧ l.phase.mayOwnTable = true

/-- An attempt of which there is no trace. -/
def Host.IsFresh (s : Host) (a : Attempt) : Prop :=
  (∀ name, name.attempt = a → s.receipts name = .absent) ∧
  (∀ j, s.journal = some j → j.attempt ≠ a) ∧ ∀ l, s.loadJournal = some l → l.attempt ≠ a

/-- What a change leaves to those before it. -/
structure Kept (s t : Host) : Prop where
  /-- Nothing published is taken back. -/
  published : ∀ name, s.IsPublished name → t.IsPublished name
  /-- A passed attempt is only ever committed. -/
  pass : ∀ mode a, s.IsPublished (passReceipt mode a) →
    t.journal = s.journal ∨
      ∃ j', t.journal = some j' ∧ j'.mode = mode ∧ j'.attempt = a ∧ j'.phase = .committed
  /-- What a passed attempt has done to the machine stays. -/
  machine : ∀ mode a, s.IsPublished (passReceipt mode a) → t.machine.file = s.machine.file ∧
    t.machine.directory = s.machine.directory ∧ t.machine.enabled = s.machine.enabled
  /-- A passed load is only ever committed, or followed by a fresh one. -/
  loadPass : ∀ l, s.loadJournal = some l → s.IsPublished (loadPassReceipt l.attempt) →
    t.loadJournal = s.loadJournal ∨ ∃ l', t.loadJournal = some l' ∧
      (l'.attempt = l.attempt ∧ l'.phase = .committed ∨ l'.phase = .prepared ∧ s.IsFresh l'.attempt)
  /-- A table is removed by the rollback of a transaction, or of a load that has not passed. -/
  table : s.table ≠ .absent → t.table ≠ s.table → s.table.isExact = true ∧
    ((∃ j, s.journal = some j ∧ j.phase = .rollbackIntent) ∨
      ∃ l, s.loadJournal = some l ∧ l.phase = .rollbackIntent ∧
        ¬ s.IsPublished (loadPassReceipt l.attempt))

/-- What a change may do. -/
structure Admitted (s t : Host) : Prop extends Kept s t where
  /-- A closed journal is only ever replaced by that of a fresh attempt. -/
  closed : ∀ j, s.journal = some j → j.phase.isClosed = true →
    t.journal = s.journal ∨ ∃ j', t.journal = some j' ∧ j'.phase = .prepared ∧ s.IsFresh j'.attempt

/-- What the scripts guarantee of each change. -/
def Guarantee (s t : Host) : Prop := Recorded t ∧ Admitted s t

/-- What remains of it where a closed attempt may be reopened. -/
def Upheld (s t : Host) : Prop := Recorded t ∧ Kept s t

theorem Guarantee.upheld {s t : Host} (h : Guarantee s t) : Upheld s t := ⟨h.1, h.2.toKept⟩

/-! ## Changes beside the records -/

/-- The records and the table are the same. -/
structure SameRecords (s t : Host) : Prop where
  journal : t.journal = s.journal
  loadJournal : t.loadJournal = s.loadJournal
  receipts : t.receipts = s.receipts
  table : t.table = s.table
  uuid : s.uuid ≤ t.uuid

theorem SameRecords.recorded {s t : Host} (h : SameRecords s t) (hs : Recorded s) : Recorded t where
  journal_lt j hj := (hs.journal_lt j (h.journal ▸ hj)).trans_le h.uuid
  load_lt l hl := (hs.load_lt l (h.loadJournal ▸ hl)).trans_le h.uuid
  receipt_lt name hname := (hs.receipt_lt name (h.receipts ▸ hname)).trans_le h.uuid
  pass mode a hp := by
    rw [Host.IsPublished, h.receipts] at hp
    rw [h.journal]
    exact hs.pass mode a hp
  rollback mode j hj hp := by
    rw [Host.IsPublished, h.receipts] at hp
    exact hs.rollback mode j (h.journal ▸ hj) hp
  loadPass l hl hp := by
    rw [Host.IsPublished, h.receipts] at hp
    exact hs.loadPass l (h.loadJournal ▸ hl) hp
  loadExclusive a hp := by
    rw [Host.IsPublished, h.receipts] at hp ⊢
    exact hs.loadExclusive a hp
  table a ha := by
    rw [h.loadJournal]
    exact hs.table a (h.table ▸ ha)

/-- The machine may change as long as no attempt has passed. -/
theorem SameRecords.guarantee {s t : Host} (h : SameRecords s t) (hs : Recorded s)
    (hmachine : ∀ mode a, s.IsPublished (passReceipt mode a) → t.machine.file = s.machine.file ∧
      t.machine.directory = s.machine.directory ∧ t.machine.enabled = s.machine.enabled) :
    Guarantee s t := by
  refine ⟨h.recorded hs, ?_⟩
  exact {
    published := fun name hp => by rwa [Host.IsPublished, h.receipts]
    closed := fun _ _ _ => .inl h.journal
    pass := fun _ _ _ => .inl h.journal
    machine := hmachine
    loadPass := fun _ _ _ => .inl h.loadJournal
    table := fun _ hne => absurd h.table hne }

/-- No attempt has passed while the current one is in another phase. -/
theorem Recorded.not_pass {s : Host} (hs : Recorded s) {j : Journal} (hj : s.journal = some j)
    (hphase : j.phase.isCommit = false) (mode : Mode) (a : Attempt) :
    ¬ s.IsPublished (passReceipt mode a) := by
  intro hp
  obtain ⟨j', hj', -, -, hcommit⟩ := hs.pass mode a hp
  obtain rfl := Option.some.inj (hj'.symm.trans hj)
  simp [hphase] at hcommit

/-! ## Journals -/

/-- The current journal moves on. -/
theorem journal_upheld {s : Host} (hs : Recorded s) {j j' : Journal} (hj : s.journal = some j)
    (hmode : j'.mode = j.mode) (hattempt : j'.attempt = j.attempt)
    (hpass : s.IsPublished (passReceipt j.mode j.attempt) → j'.phase = .committed)
    (hrollback : j.phase.isRollback = true → j'.phase.isRollback = true) :
    Upheld s { s with journal := some j' } := by
  have hcurrent : ∀ mode a, s.IsPublished (passReceipt mode a) →
      j.mode = mode ∧ j.attempt = a ∧ j'.phase = .committed := by
    intro mode a hp
    obtain ⟨j₀, hj₀, rfl, rfl, -⟩ := hs.pass mode a hp
    obtain rfl := Option.some.inj (hj₀.symm.trans hj)
    exact ⟨rfl, rfl, hpass hp⟩
  constructor
  · exact {
      journal_lt := by
        rintro _ ⟨⟩
        rw [hattempt]
        exact hs.journal_lt j hj
      load_lt := hs.load_lt
      receipt_lt := hs.receipt_lt
      pass := by
        intro mode a hp
        obtain ⟨hm, ha, hc⟩ := hcurrent mode a hp
        exact ⟨j', rfl, hmode.trans hm, hattempt.trans ha, by rw [hc]; rfl⟩
      rollback := by
        rintro mode _ ⟨⟩ hp
        have hp' : s.IsPublished (rollbackReceipt mode j.attempt) := by rwa [← hattempt]
        exact hrollback (hs.rollback mode j hj hp')
      loadPass := hs.loadPass
      loadExclusive := hs.loadExclusive
      table := hs.table }
  · exact {
      published := fun _ hp => hp
      pass := by
        intro mode a hp
        obtain ⟨hm, ha, hc⟩ := hcurrent mode a hp
        exact .inr ⟨j', rfl, hmode.trans hm, hattempt.trans ha, hc⟩
      machine := fun _ _ _ => ⟨rfl, rfl, rfl⟩
      loadPass := fun _ _ _ => .inl rfl
      table := fun _ hne => absurd rfl hne }

/-- An open journal moves on. -/
theorem journal_guarantee {s : Host} (hs : Recorded s) {j j' : Journal} (hj : s.journal = some j)
    (hmode : j'.mode = j.mode) (hattempt : j'.attempt = j.attempt)
    (hclosed : j.phase.isClosed = false)
    (hpass : s.IsPublished (passReceipt j.mode j.attempt) → j'.phase = .committed)
    (hrollback : j.phase.isRollback = true → j'.phase.isRollback = true) :
    Guarantee s { s with journal := some j' } := by
  have hupheld := journal_upheld hs hj hmode hattempt hpass hrollback
  refine ⟨hupheld.1, { hupheld.2 with closed := ?_ }⟩
  intro j₀ hj₀ hc
  obtain rfl := Option.some.inj (hj₀.symm.trans hj)
  simp [hclosed] at hc

/-- A fresh attempt starts where there was none, or where the last one was rolled back. -/
theorem fresh_journal_guarantee {s : Host} (hs : Recorded s) {j' : Journal}
    (hprevious : ∀ j, s.journal = some j → j.phase = .rolledBack)
    (hphase : j'.phase = .prepared) (hlt : j'.attempt < s.uuid) (hfresh : s.IsFresh j'.attempt) :
    Guarantee s { s with journal := some j' } := by
  have hnone : ∀ mode a, ¬ s.IsPublished (passReceipt mode a) := by
    intro mode a hp
    obtain ⟨j, hj, -, -, hcommit⟩ := hs.pass mode a hp
    simp [hprevious j hj, Phase.isCommit] at hcommit
  constructor
  · exact {
      journal_lt := by
        rintro _ ⟨⟩
        exact hlt
      load_lt := hs.load_lt
      receipt_lt := hs.receipt_lt
      pass := fun mode a hp => absurd hp (hnone mode a)
      rollback := by
        rintro mode _ ⟨⟩ hp
        have habsent := hfresh.1 (rollbackReceipt mode j'.attempt) rfl
        simp [Host.IsPublished, habsent, Slot.exists] at hp
      loadPass := hs.loadPass
      loadExclusive := hs.loadExclusive
      table := hs.table }
  · exact {
      published := fun _ hp => hp
      closed := fun _ _ _ => .inr ⟨j', rfl, hphase, hfresh⟩
      pass := fun mode a hp => absurd hp (hnone mode a)
      machine := fun _ _ _ => ⟨rfl, rfl, rfl⟩
      loadPass := fun _ _ _ => .inl rfl
      table := fun _ hne => absurd rfl hne }

/-- The current load journal moves on. -/
theorem loadJournal_guarantee {s : Host} (hs : Recorded s) {l l' : LoadJournal}
    (hl : s.loadJournal = some l) (hattempt : l'.attempt = l.attempt)
    (hprestate : l.prestate = .absent → l'.prestate = .absent)
    (hpass : s.IsPublished (loadPassReceipt l.attempt) → l'.phase = .committed)
    (htable : ∀ a, s.table = .exact (some a) → l'.phase.mayOwnTable = true) :
    Guarantee s { s with loadJournal := some l' } := by
  constructor
  · exact {
      journal_lt := hs.journal_lt
      load_lt := by
        rintro _ ⟨⟩
        rw [hattempt]
        exact hs.load_lt l hl
      receipt_lt := hs.receipt_lt
      pass := hs.pass
      rollback := hs.rollback
      loadPass := by
        rintro _ ⟨⟩ hp
        have hp' : s.IsPublished (loadPassReceipt l.attempt) := by rwa [← hattempt]
        rw [hpass hp']
        rfl
      loadExclusive := hs.loadExclusive
      table := by
        intro a ha
        obtain ⟨l₀, hl₀, hla, hpre, -⟩ := hs.table a ha
        obtain rfl := Option.some.inj (hl₀.symm.trans hl)
        exact ⟨l', rfl, hattempt.trans hla, hprestate hpre, htable a ha⟩ }
  · exact {
      published := fun _ hp => hp
      closed := fun _ _ _ => .inl rfl
      pass := fun _ _ _ => .inl rfl
      machine := fun _ _ _ => ⟨rfl, rfl, rfl⟩
      loadPass := by
        intro l₀ hl₀ hp
        obtain rfl := Option.some.inj (hl₀.symm.trans hl)
        exact .inr ⟨l', rfl, .inl ⟨hattempt, hpass hp⟩⟩
      table := fun _ hne => absurd rfl hne }

/-- A fresh load starts where there is no table. -/
theorem fresh_loadJournal_guarantee {s : Host} (hs : Recorded s) {l' : LoadJournal}
    (hphase : l'.phase = .prepared) (hlt : l'.attempt < s.uuid) (hfresh : s.IsFresh l'.attempt)
    (htable : s.table = .absent) : Guarantee s { s with loadJournal := some l' } := by
  constructor
  · exact {
      journal_lt := hs.journal_lt
      load_lt := by
        rintro _ ⟨⟩
        exact hlt
      receipt_lt := hs.receipt_lt
      pass := hs.pass
      rollback := hs.rollback
      loadPass := by
        rintro _ ⟨⟩ hp
        have habsent := hfresh.1 (loadPassReceipt l'.attempt) rfl
        simp [Host.IsPublished, habsent, Slot.exists] at hp
      loadExclusive := hs.loadExclusive
      table := fun a ha => by simp [htable] at ha }
  · exact {
      published := fun _ hp => hp
      closed := fun _ _ _ => .inl rfl
      pass := fun _ _ _ => .inl rfl
      machine := fun _ _ _ => ⟨rfl, rfl, rfl⟩
      loadPass := fun _ _ _ => .inr ⟨l', rfl, .inr ⟨hphase, hfresh⟩⟩
      table := fun _ hne => absurd rfl hne }

/-! ## The table -/

/-- An exact table is removed. -/
theorem remove_table_guarantee {s : Host} (hs : Recorded s) (hexact : s.table.isExact = true)
    (hrollback : (∃ j, s.journal = some j ∧ j.phase = .rollbackIntent) ∨
      ∃ l, s.loadJournal = some l ∧ l.phase = .rollbackIntent ∧
        ¬ s.IsPublished (loadPassReceipt l.attempt)) :
    Guarantee s { s with table := .absent } := by
  constructor
  · exact { hs with
      table := fun a ha => by cases ha }
  · exact {
      published := fun _ hp => hp
      closed := fun _ _ _ => .inl rfl
      pass := fun _ _ _ => .inl rfl
      machine := fun _ _ _ => ⟨rfl, rfl, rfl⟩
      loadPass := fun _ _ _ => .inl rfl
      table := fun _ _ => ⟨hexact, hrollback⟩ }

/-- A table is created under the intent of its load. -/
theorem create_table_guarantee {s : Host} (hs : Recorded s) {l : LoadJournal}
    (hl : s.loadJournal = some l) (hprestate : l.prestate = .absent)
    (hphase : l.phase.mayOwnTable = true) (habsent : s.table = .absent) :
    Guarantee s { s with table := .exact (some l.attempt) } := by
  constructor
  · exact { hs with
      table := by
        rintro a ⟨⟩
        exact ⟨l, hl, rfl, hprestate, hphase⟩ }
  · exact {
      published := fun _ hp => hp
      closed := fun _ _ _ => .inl rfl
      pass := fun _ _ _ => .inl rfl
      machine := fun _ _ _ => ⟨rfl, rfl, rfl⟩
      loadPass := fun _ _ _ => .inl rfl
      table := fun hne => absurd habsent hne }

/-! ## Receipts -/

/-- A receipt that the records have room for. -/
structure Publishable (s : Host) (name : ReceiptName) : Prop where
  lt : name.attempt < s.uuid
  pass : ∀ mode a, name = passReceipt mode a →
    ∃ j, s.journal = some j ∧ j.mode = mode ∧ j.attempt = a ∧ j.phase.isCommit = true
  rollback : ∀ mode j, s.journal = some j → name = rollbackReceipt mode j.attempt →
    j.phase.isRollback = true
  loadPass : ∀ a, name = loadPassReceipt a → ¬ s.IsPublished (loadRollbackReceipt a) ∧
    ∀ l, s.loadJournal = some l → l.attempt = a → l.phase.isCommit = true
  loadRollback : ∀ a, name = loadRollbackReceipt a → ¬ s.IsPublished (loadPassReceipt a)

/-- What is published can be written again. -/
theorem publishable_again {s : Host} (hs : Recorded s) {name : ReceiptName}
    (hp : s.IsPublished name) : Publishable s name where
  lt := hs.receipt_lt name fun habsent => by simp [Host.IsPublished, habsent, Slot.exists] at hp
  pass mode a heq := by
    subst heq
    exact hs.pass mode a hp
  rollback mode j hj heq := by
    subst heq
    exact hs.rollback mode j hj hp
  loadPass a heq := by
    subst heq
    refine ⟨hs.loadExclusive a hp, fun l hl ha => ?_⟩
    subst ha
    exact hs.loadPass l hl hp
  loadRollback a heq := by
    subst heq
    exact fun hpass => hs.loadExclusive a hpass hp

@[simp] theorem setReceipt_self (s : Host) (name : ReceiptName) (slot : Slot) :
    (s.setReceipt name slot).receipts name = slot := by simp [Host.setReceipt]

@[simp] theorem setReceipt_setReceipt (s : Host) (name : ReceiptName) (slot slot' : Slot) :
    (s.setReceipt name slot).setReceipt name slot' = s.setReceipt name slot' := by
  simp [Host.setReceipt]

@[simp] theorem setReceipt_eq (s : Host) (name : ReceiptName) :
    s.setReceipt name (s.receipts name) = s := by simp [Host.setReceipt]

theorem setReceipt_of_ne (s : Host) {name other : ReceiptName} (slot : Slot) (h : other ≠ name) :
    (s.setReceipt name slot).receipts other = s.receipts other := by
  simp [Host.setReceipt, Function.update_of_ne h]

theorem isPublished_setReceipt_of_ne {s : Host} {name other : ReceiptName} {slot : Slot}
    (h : other ≠ name) : (s.setReceipt name slot).IsPublished other ↔ s.IsPublished other := by
  rw [Host.IsPublished, setReceipt_of_ne s slot h, Host.IsPublished]

/-- Only this receipt, or one that was published before. -/
theorem isPublished_setReceipt {s : Host} {name other : ReceiptName} {slot : Slot}
    (h : (s.setReceipt name slot).IsPublished other) : other = name ∨ s.IsPublished other := by
  by_cases heq : other = name
  · exact .inl heq
  · exact .inr ((isPublished_setReceipt_of_ne heq).mp h)

theorem Publishable.setReceipt {s : Host} {name : ReceiptName} (h : Publishable s name)
    (slot : Slot) : Publishable (s.setReceipt name slot) name where
  lt := h.lt
  pass := h.pass
  rollback := h.rollback
  loadPass a ha := by
    subst ha
    obtain ⟨hnot, hcommit⟩ := h.loadPass a rfl
    exact ⟨fun hp => hnot ((isPublished_setReceipt_of_ne (by simp)).mp hp), hcommit⟩
  loadRollback a ha := by
    subst ha
    exact fun hp => h.loadRollback a rfl ((isPublished_setReceipt_of_ne (by simp)).mp hp)

/-- Whatever happens to one receipt, short of taking it back. -/
theorem receipt_guarantee {s : Host} (hs : Recorded s) {name : ReceiptName} {slot : Slot}
    (hlt : name.attempt < s.uuid) (hname : slot.exists = true → Publishable s name)
    (hkeep : (s.receipts name).exists = true → slot.exists = true) :
    Guarantee s (s.setReceipt name slot) := by
  have hmono : ∀ other, s.IsPublished other → (s.setReceipt name slot).IsPublished other := by
    intro other hp
    by_cases heq : other = name
    · subst heq
      rw [Host.IsPublished, setReceipt_self]
      exact hkeep hp
    · exact (isPublished_setReceipt_of_ne heq).mpr hp
  -- either this receipt, which then may be published, or one from before
  have hcases : ∀ other, (s.setReceipt name slot).IsPublished other →
      (other = name ∧ Publishable s name) ∨ s.IsPublished other := by
    intro other hp
    by_cases heq : other = name
    · subst heq
      rw [Host.IsPublished, setReceipt_self] at hp
      exact .inl ⟨rfl, hname hp⟩
    · exact .inr ((isPublished_setReceipt_of_ne heq).mp hp)
  constructor
  · exact {
      journal_lt := hs.journal_lt
      load_lt := hs.load_lt
      receipt_lt := by
        intro other hother
        by_cases heq : other = name
        · subst heq
          exact hlt
        · rw [setReceipt_of_ne s slot heq] at hother
          exact hs.receipt_lt other hother
      pass := by
        intro mode a hp
        rcases hcases _ hp with ⟨heq, hok⟩ | hp
        · exact hok.pass mode a heq.symm
        · exact hs.pass mode a hp
      rollback := by
        intro mode j hj hp
        rcases hcases _ hp with ⟨heq, hok⟩ | hp
        · exact hok.rollback mode j hj heq.symm
        · exact hs.rollback mode j hj hp
      loadPass := by
        intro l hl hp
        rcases hcases _ hp with ⟨heq, hok⟩ | hp
        · exact (hok.loadPass l.attempt heq.symm).2 l hl rfl
        · exact hs.loadPass l hl hp
      loadExclusive := by
        intro a hp hr
        rcases hcases _ hp with ⟨heq, hok⟩ | hp
        · refine (hok.loadPass a heq.symm).1 ?_
          exact (isPublished_setReceipt_of_ne (by simp [← heq])).mp hr
        · rcases hcases _ hr with ⟨heq, hok⟩ | hr
          · exact hok.loadRollback a heq.symm hp
          · exact hs.loadExclusive a hp hr
      table := hs.table }
  · exact {
      published := hmono
      closed := fun _ _ _ => .inl rfl
      pass := fun _ _ _ => .inl rfl
      machine := fun _ _ _ => ⟨rfl, rfl, rfl⟩
      loadPass := fun _ _ _ => .inl rfl
      table := fun _ hne => absurd rfl hne }

/-! ## Documents -/

variable {ε : Type} {e : ε} {name : ReceiptName} {payload : Document} {s : Host}

/-- What is left of an interrupted publication: this receipt, not taken back. -/
def Interrupted (s : Host) (name : ReceiptName) (t : Host) : Prop :=
  Recorded t ∧ ∃ slot, t = s.setReceipt name slot ∧
    ((s.receipts name).exists = true → slot.exists = true)

theorem Interrupted.refl (hs : Recorded s) : Interrupted s name s :=
  ⟨hs, s.receipts name, (setReceipt_eq s name).symm, id⟩

/-- The next step of a publication. -/
theorem next_receipt_guarantee {slot slot' : Slot} (hs : Recorded (s.setReceipt name slot))
    (hname : Publishable s name) (hkeep : slot.exists = true → slot'.exists = true) :
    Guarantee (s.setReceipt name slot) (s.setReceipt name slot') := by
  have h := @receipt_guarantee _ hs name slot' hname.lt (fun _ => hname.setReceipt slot)
  rw [setReceipt_setReceipt, setReceipt_self] at h
  exact h hkeep

theorem createDocument_holds (hs : Recorded s) (hname : Publishable s name)
    (hnew : (s.receipts name).exists = false) :
    Holds anyFault Guarantee
      (fun _ t => Recorded t ∧ t = s.setReceipt name (.published payload))
      (fun e' t => e' = e ∧ Interrupted s name t) (createDocument name payload e) s := by
  have htemporary : Guarantee s (s.setReceipt name (.temporary none)) :=
    receipt_guarantee hs hname.lt (fun _ => hname) (by simp [hnew])
  have hwritten : Guarantee (s.setReceipt name (.temporary none))
      (s.setReceipt name (.temporary (some payload))) :=
    next_receipt_guarantee htemporary.1 hname (by simp [Slot.exists])
  have hlinked : Guarantee (s.setReceipt name (.temporary (some payload)))
      (s.setReceipt name (.linked payload)) :=
    next_receipt_guarantee hwritten.1 hname (by simp [Slot.exists])
  have hpublished : Guarantee (s.setReceipt name (.linked payload))
      (s.setReceipt name (.published payload)) :=
    next_receipt_guarantee hlinked.1 hname (by simp [Slot.exists])
  have hleft : ∀ slot, Recorded (s.setReceipt name slot) →
      Interrupted s name (s.setReceipt name slot) := fun slot h => ⟨h, slot, rfl, by simp [hnew]⟩
  simp only [createDocument, holds_bind, holds_modify, holds_orExit, setReceipt_setReceipt, true_and,
    and_true]
  exact ⟨htemporary, ⟨hwritten, ⟨hlinked, ⟨hpublished, hpublished.1,
    fun _ => hleft _ hpublished.1⟩, fun _ => hleft _ hlinked.1⟩, fun _ => hleft _ hwritten.1⟩,
    fun _ => hleft _ htemporary.1⟩

theorem immutableDocument_holds (hs : Recorded s) (hname : Publishable s name) :
    Holds anyFault Guarantee
      (fun _ t => Recorded t ∧ t = s.setReceipt name (.published payload))
      (fun e' t => e' = e ∧ Interrupted s name t) (immutableDocument name payload e) s := by
  simp only [immutableDocument, holds_bind, holds_orExit, holds_get, true_and]
  refine ⟨?_, fun _ => .refl hs⟩
  cases hslot : s.receipts name with
  | absent => exact createDocument_holds hs hname (by simp [hslot, Slot.exists])
  | temporary content =>
    have habsent : Guarantee s (s.setReceipt name .absent) :=
      receipt_guarantee hs hname.lt (fun _ => hname) (by simp [hslot, Slot.exists])
    simp only [holds_bind, holds_modify, holds_orExit, true_and]
    refine ⟨habsent, ?_, fun _ => ⟨habsent.1, _, rfl, by simp [hslot, Slot.exists]⟩⟩
    have hcreate : Holds anyFault Guarantee
        (fun _ t => Recorded t ∧ t = (s.setReceipt name .absent).setReceipt name (.published payload))
        (fun e' t => e' = e ∧ Interrupted (s.setReceipt name .absent) name t)
        (createDocument name payload e) (s.setReceipt name .absent) :=
      createDocument_holds habsent.1 (hname.setReceipt _) (by simp [Slot.exists])
    refine hcreate.mono (fun _ _ h => h) (fun _ t h => by simpa using h) fun _ t h => ?_
    obtain ⟨he, ht, slot, rfl, -⟩ := h
    exact ⟨he, ht, slot, setReceipt_setReceipt _ _ _ _, by simp [hslot, Slot.exists]⟩
  | linked observed =>
    have hhealed : Guarantee s (s.setReceipt name (.published observed)) :=
      receipt_guarantee hs hname.lt (fun _ => hname) (by simp [Slot.exists])
    have hleft : Interrupted s name (s.setReceipt name (.published observed)) :=
      ⟨hhealed.1, _, rfl, by simp [Slot.exists]⟩
    simp only [holds_bind, holds_modify, holds_orExit, holds_require, decide_eq_true_eq, true_and]
    refine ⟨hhealed, ?_, fun _ => hleft⟩
    split_ifs with heq
    · subst heq
      exact ⟨hhealed.1, rfl⟩
    · exact hleft
  | published observed =>
    simp only [holds_require, decide_eq_true_eq, true_and]
    split_ifs with heq
    · subst heq
      exact ⟨hs, by rw [← hslot, setReceipt_eq]⟩
    · exact .refl hs
  | collided observed => exact ⟨rfl, .refl hs⟩

theorem discardUnpublishedTemp_holds (hs : Recorded s) :
    Holds anyFault Guarantee
      (fun _ t => Recorded t ∧ t = s.setReceipt name .absent)
      (fun e' t => e' = e ∧ Interrupted s name t) (discardUnpublishedTemp name e) s := by
  simp only [discardUnpublishedTemp, holds_bind, holds_orExit, holds_get, true_and]
  refine ⟨?_, fun _ => .refl hs⟩
  cases hslot : s.receipts name with
  | absent => exact ⟨hs, by rw [← hslot, setReceipt_eq]⟩
  | temporary content =>
    have hlt : name.attempt < s.uuid := hs.receipt_lt name (by simp [hslot])
    have habsent : Guarantee s (s.setReceipt name .absent) :=
      receipt_guarantee hs hlt (by simp [Slot.exists]) (by simp [hslot, Slot.exists])
    simp only [holds_bind, holds_modify, holds_orExit, true_and, and_true]
    exact ⟨habsent, habsent.1,
      fun _ => ⟨habsent.1, _, rfl, by simp [hslot, Slot.exists]⟩⟩
  | linked observed => exact ⟨rfl, .refl hs⟩
  | published observed => exact ⟨rfl, .refl hs⟩
  | collided observed => exact ⟨rfl, .refl hs⟩

theorem writeReceipt_holds {j : Journal} {result : Result}
    {guardState persistence dependency rollback : String} (hs : Recorded s)
    (hname : Publishable s (receiptPath j result)) :
    Holds anyFault Guarantee
      (fun d t => Recorded t ∧ t = s.setReceipt (receiptPath j result) (.published d))
      (fun e' t => e' = e ∧ Interrupted s (receiptPath j result) t)
      (writeReceipt j result guardState persistence dependency rollback e) s := by
  refine (immutableDocument_holds hs hname).seq (fun _ _ h => h) ?_
  rintro _ t ⟨ht, rfl⟩
  simp only [holds_bind, holds_orExit, holds_pure, true_and, and_true]
  exact ⟨ht, fun _ => ⟨ht, _, rfl, by simp [Slot.exists]⟩⟩

theorem writeLoadReceipt_holds {a : Attempt} {boot : ℕ} {result : Result}
    {tableState rollback : String} (hs : Recorded s)
    (hname : Publishable s (loadReceiptPath a result)) :
    Holds anyFault Guarantee
      (fun d t => Recorded t ∧ t = s.setReceipt (loadReceiptPath a result) (.published d))
      (fun e' t => e' = e ∧ Interrupted s (loadReceiptPath a result) t)
      (writeLoadReceipt a boot result tableState rollback e) s := by
  refine (immutableDocument_holds hs hname).seq (fun _ _ h => h) ?_
  rintro _ t ⟨ht, rfl⟩
  simp only [holds_bind, holds_orExit, holds_pure, true_and, and_true]
  exact ⟨ht, fun _ => ⟨ht, _, rfl, by simp [Slot.exists]⟩⟩

/-! ## Journals and table -/

theorem journalWrite_holds {j : Journal} (hs : Recorded s)
    (h : Guarantee s { s with journal := some j }) :
    Holds anyFault Guarantee
      (fun _ t => Recorded t ∧ t = { s with journal := some j })
      (fun e' t => e' = e ∧ Recorded t ∧ (t = s ∨ t = { s with journal := some j })) (journalWrite j e) s := by
  simp only [journalWrite, holds_bind, holds_orExit, holds_modify, true_and, and_true, or_true,
    true_or]
  exact ⟨⟨h, h.1, fun _ => h.1⟩, fun _ => hs⟩

theorem writeLoadJournalRecord_holds {l : LoadJournal} (hs : Recorded s)
    (h : Guarantee s { s with loadJournal := some l }) :
    Holds anyFault Guarantee
      (fun _ t => Recorded t ∧ t = { s with loadJournal := some l })
      (fun e' t => e' = e ∧ Recorded t ∧ (t = s ∨ t = { s with loadJournal := some l }))
      (writeLoadJournalRecord l e) s := by
  simp only [writeLoadJournalRecord, holds_bind, holds_orExit, holds_modify, true_and, and_true,
    or_true, true_or]
  exact ⟨⟨h, h.1, fun _ => h.1⟩, fun _ => hs⟩

section Captures

variable {faulty : Host → Prop} {guarantee : Host → Host → Prop} {post : Bool → Host → Prop}
  {onExit : ε → Host → Prop}

@[simp] theorem holds_verifyAbsentCapture :
    Holds faulty guarantee post onExit verifyAbsentCapture s ↔
      post (decide (s.table = .absent)) s ∧ (faulty s → post false s) := by
  simp [verifyAbsentCapture]

@[simp] theorem holds_verifyLiveCapture :
    Holds faulty guarantee post onExit verifyLiveCapture s ↔
      post s.table.isExact s ∧ (faulty s → post false s) := by
  simp [verifyLiveCapture]

end Captures

theorem nft_holds {f : Host → Host} (hs : Recorded s) (h : Guarantee s (f s))
    {onExit : ε → Host → Prop} :
    Holds anyFault Guarantee (fun done t => Recorded t ∧ (t = f s ∨ done = false ∧ t = s)) onExit
      (nft f) s := by
  simp only [nft, holds_bind, holds_succeeds, holds_ite, holds_modify, holds_pure, if_true,
    Bool.false_eq_true, if_false]
  exact ⟨⟨h, h.1, .inl trivial⟩, fun _ => ⟨⟨h, h.1, .inl trivial⟩, fun _ => ⟨hs, .inr ⟨trivial, trivial⟩⟩⟩⟩

/-- The table is removed or nothing is changed, and it is gone where that is proved. -/
theorem deleteOwnedTable_holds {onExit : ε → Host → Prop} (hs : Recorded s)
    (htable : s.table ≠ .other)
    (hrollback : (∃ j, s.journal = some j ∧ j.phase = .rollbackIntent) ∨
      ∃ l, s.loadJournal = some l ∧ l.phase = .rollbackIntent ∧
        ¬ s.IsPublished (loadPassReceipt l.attempt)) :
    Holds anyFault Guarantee
      (fun done t => Recorded t ∧ (t = s ∨ t = { s with table := .absent }) ∧
        (done = true → t.table = .absent)) onExit deleteOwnedTableAndProveAbsent s := by
  simp only [deleteOwnedTableAndProveAbsent, holds_bind, holds_get, holds_ite, holds_pure]
  split_ifs with habsent
  · exact ⟨hs, .inl trivial, by simp⟩
  · have hexact : s.table.isExact = true := by
      cases ht : s.table <;> simp_all [Table.isExact]
    have hremove := remove_table_guarantee hs hexact hrollback
    refine (nft_holds hs hremove).weaken (fun done t h => ?_) fun _ _ h => h
    obtain ⟨ht, hdone⟩ := h
    cases done with
    | false =>
      refine ⟨ht, ?_, by simp⟩
      exact hdone.elim .inr fun h => .inl h.2
    | true =>
      obtain rfl : t = { s with table := .absent } := hdone.resolve_right (by simp)
      simp [ht]

end GuardTransaction
