import Mathlib
import WebsiteInfrastructure.GuardTransaction.InstallRecords

/-!
# Processes that share the global lock

Any number of transactions, recoveries and loads in any order. A process runs while it holds the
lock; an installation or a retrofit lets it go once, and goes on with the journal it remembers.
-/

namespace GuardTransaction

open Crash

/-! ## Programs under the lock -/

/-- A program under the lock; one that hands the lock over returns the journal it will go on with. -/
abbrev Locked := Prog Host Unit (Option Journal)

def toTheEnd {α : Type} (p : Prog Host Unit α) : Locked := do
  let _ ← p
  return none

inductive Entry
  | prepare (mode : Mode) (bundle : Bundle) (scope : Option String)
  | closeAfterReboot (bundle : Bundle)
  | recover (bundle : Bundle) (automatic : Bool)
  | load

def Entry.program : Entry → Locked
  | .prepare mode bundle scope => do
    let j ← GuardTransaction.prepare mode bundle scope
    return some j
  | .closeAfterReboot bundle => toTheEnd (GuardTransaction.closeAfterReboot bundle)
  | .recover bundle automatic => toTheEnd (GuardTransaction.recover bundle automatic)
  | .load => toTheEnd GuardTransaction.load

/-- A process that holds the lock, with what is left of its program. -/
structure Holder where
  /-- The host as a recovery found it. -/
  recovery : Option Host
  program : Locked

def Entry.holder (e : Entry) (s : Host) : Holder where
  recovery := match e with
    | .recover _ _ => some s
    | _ => none
  program := e.program

/-! ## The system -/

structure System where
  host : Host
  holder : Option Holder
  /-- The journals that processes without the lock will go on with. -/
  waiting : List Journal

/-- What systemd does while the lock is free: units start and stop. -/
def Host.serve (s : Host) (guard kubelet queued : Bool) : Host :=
  { s with machine := { s.machine with guard, kubelet, queued } }

/-- Another boot, without the table. -/
def Host.reboot (s : Host) (kubelet : Bool) : Host :=
  { s with
    table := .absent
    machine := { s.machine with guard := false, kubelet, queued := false }
    boot := s.boot + 1 }

inductive Move
  | enter (e : Entry)
  | resume (j : Journal)
  | run
  | fault
  | leave
  | kill
  | abandon (j : Journal)
  | serve (guard kubelet queued : Bool)
  | reboot (kubelet : Bool)

inductive SystemStep : System → Move → System → Prop
  | enter {s : Host} {w : List Journal} (e : Entry) :
    SystemStep ⟨s, none, w⟩ (.enter e) ⟨s, some (e.holder s), w⟩
  | resume {s : Host} {w w' : List Journal} {j : Journal} :
    SystemStep ⟨s, none, w ++ j :: w'⟩ (.resume j)
      ⟨s, some ⟨none, toTheEnd (complete j)⟩, w ++ w'⟩
  | run {s t : Host} {r : Option Host} {p q : Locked} {w : List Journal} :
    Step noFault (p, s) (q, t) → SystemStep ⟨s, some ⟨r, p⟩, w⟩ .run ⟨t, some ⟨r, q⟩, w⟩
  | fault {s : Host} {r : Option Host} {p : Bool → Locked} {w : List Journal} :
    SystemStep ⟨s, some ⟨r, .call p⟩, w⟩ .fault ⟨s, some ⟨r, p false⟩, w⟩
  | leave {s : Host} {r : Option Host} {o : Option Journal} {w : List Journal} :
    SystemStep ⟨s, some ⟨r, .ret o⟩, w⟩ .leave ⟨s, none, o.toList ++ w⟩
  | kill {s : Host} {h : Holder} {w : List Journal} :
    SystemStep ⟨s, some h, w⟩ .kill ⟨s, none, w⟩
  | abandon {s : Host} {h : Option Holder} {w w' : List Journal} {j : Journal} :
    SystemStep ⟨s, h, w ++ j :: w'⟩ (.abandon j) ⟨s, h, w ++ w'⟩
  | serve {s : Host} {w : List Journal} (guard kubelet queued : Bool) :
    SystemStep ⟨s, none, w⟩ (.serve guard kubelet queued) ⟨s.serve guard kubelet queued, none, w⟩
  | reboot {s : Host} {h : Option Holder} {w : List Journal} (kubelet : Bool) :
    SystemStep ⟨s, h, w⟩ (.reboot kubelet) ⟨s.reboot kubelet, none, []⟩

/-- No transaction and no load has been here. -/
structure Host.IsBlank (s : Host) : Prop where
  journal : s.journal = none
  loadJournal : s.loadJournal = none
  receipts : ∀ name, s.receipts name = .absent
  table : ∀ a, s.table ≠ .exact (some a)

inductive Reachable (allowed : System → Move → Prop) : System → Prop
  | start {s : Host} : s.IsBlank → Reachable allowed ⟨s, none, []⟩
  | step {s t : System} {m : Move} : Reachable allowed s → allowed s m → SystemStep s m t →
    Reachable allowed t

def Run (allowed : System → Move → Prop) : System → System → Prop :=
  Relation.ReflTransGen fun s t => ∃ m, allowed s m ∧ SystemStep s m t

theorem Reachable.run {allowed : System → Move → Prop} {s t : System} (hs : Reachable allowed s)
    (hrun : Run allowed s t) : Reachable allowed t := by
  induction hrun with
  | refl => exact hs
  | tail _ hstep ih =>
    obtain ⟨m, hm, hstep⟩ := hstep
    exact .step ih hm hstep

/-- Every order of steps. -/
def anyMove : System → Move → Prop := fun _ _ => True

/-- The lock is taken again only where the journal is still the one that was left there, and no
command fails in a recovery that has closed the attempt it found open. -/
def orderly (s : System) : Move → Prop
  | .resume j => s.host.journal = some j
  | .fault => ∀ h started, s.holder = some h → h.recovery = some started →
    beforeClosing started s.host
  | _ => True

/-! ## What the steps preserve -/

/-- A closed journal is only ever replaced by that of a fresh attempt. -/
def StaysClosed (s t : Host) : Prop :=
  ∀ j, s.journal = some j → j.phase.isClosed = true →
    t.journal = s.journal ∨ ∃ j', t.journal = some j' ∧ j'.phase = .prepared ∧ s.IsFresh j'.attempt

/-- A pass and a recorded rollback of one attempt. -/
def Host.IsTorn (s : Host) (a : Attempt) : Prop :=
  (∃ mode mode', s.IsPublished (passReceipt mode a) ∧ s.IsPublished (rollbackReceipt mode' a)) ∨
    s.IsPublished (loadPassReceipt a) ∧ s.IsPublished (loadRollbackReceipt a)

theorem StaysClosed.refl (s : Host) : StaysClosed s s := fun _ _ _ => .inl rfl

theorem Recorded.not_isTorn {s : Host} (hs : Recorded s) (a : Attempt) : ¬ s.IsTorn a := by
  rintro (⟨mode, mode', hp, hr⟩ | ⟨hp, hr⟩)
  · obtain ⟨j, hj, -, rfl, hcommit⟩ := hs.pass mode a hp
    have hphase := hs.rollback mode' j hj hr
    cases h : j.phase <;> simp_all [Phase.isCommit, Phase.isRollback]
  · exact hs.loadExclusive a hp hr

theorem Host.IsBlank.recorded {s : Host} (hs : s.IsBlank) : Recorded s where
  journal_lt j hj := by simp [hs.journal] at hj
  load_lt l hl := by simp [hs.loadJournal] at hl
  receipt_lt name hname := absurd (hs.receipts name) hname
  pass mode a hp := by simp [Host.IsPublished, hs.receipts, Slot.exists] at hp
  rollback mode j hj := by simp [hs.journal] at hj
  loadPass l hl := by simp [hs.loadJournal] at hl
  loadExclusive a hp := by simp [Host.IsPublished, hs.receipts, Slot.exists] at hp
  table a ha := absurd ha (hs.table a)

theorem serve_sameRecords (s : Host) (guard kubelet queued : Bool) :
    SameRecords s (s.serve guard kubelet queued) := ⟨rfl, rfl, rfl, rfl, le_rfl⟩

theorem reboot_recorded {s : Host} (hs : Recorded s) (kubelet : Bool) : Recorded (s.reboot kubelet) :=
  { journal_lt := hs.journal_lt
    load_lt := hs.load_lt
    receipt_lt := hs.receipt_lt
    pass := hs.pass
    rollback := hs.rollback
    loadPass := hs.loadPass
    loadExclusive := hs.loadExclusive
    table := fun a ha => by cases ha }

/-- Where the commands of a process may fail. -/
def Holder.faults (h : Holder) (s : Host) : Prop := ∀ started, h.recovery = some started →
  beforeClosing started s

/-- What a process leaves when it lets the lock go. -/
def Released (o : Option Journal) (s : Host) : Prop :=
  Recorded s ∧ ∀ j, o = some j → j.phase = .guardStartIntent

/-- The rest of the program makes admitted changes only. -/
def Holder.Behaves (h : Holder) (s : Host) : Prop :=
  Holds h.faults Guarantee Released (fun _ => Recorded) h.program s

/-- The invariant of the system. -/
structure Sound (s : System) : Prop where
  recorded : Recorded s.host
  holder : ∀ h, s.holder = some h → h.Behaves s.host
  waiting : ∀ j ∈ s.waiting, j.phase = .guardStartIntent

theorem toTheEnd_holds {α : Type} {faulty : Host → Prop} {p : Prog Host Unit α} {s : Host}
    (h : Holds faulty Guarantee (fun _ t => Recorded t) (fun _ t => Recorded t) p s) :
    Holds faulty Guarantee Released (fun _ => Recorded) (toTheEnd p) s := by
  refine h.seq (fun _ _ ht => ht) fun _ t ht => ?_
  exact ⟨ht, by simp⟩

theorem entry_behaves {s : Host} (hs : Recorded s) (e : Entry) : (e.holder s).Behaves s := by
  cases e with
  | prepare mode bundle scope =>
    refine Holds.restrict ?_ fun _ _ => trivial
    refine (prepare_holds hs mode bundle scope).seq (fun _ _ ht => ht) fun j t ht => ?_
    refine ⟨ht.1.1, ?_⟩
    rintro _ ⟨⟩
    exact ht.2
  | closeAfterReboot bundle =>
    exact (toTheEnd_holds (closeAfterReboot_holds hs bundle)).restrict fun _ _ => trivial
  | recover bundle automatic =>
    exact (toTheEnd_holds (recover_holds hs bundle automatic)).restrict fun t ht => ht s rfl
  | load =>
    exact (toTheEnd_holds (load_holds hs)).restrict fun _ _ => trivial

/-- One step: the invariant is kept, and so is a closed attempt. -/
theorem sound_step {s t : System} {m : Move} (hs : Sound s) (hm : orderly s m)
    (hstep : SystemStep s m t) : Sound t ∧ StaysClosed s.host t.host := by
  cases hstep with
  | enter e =>
    refine ⟨⟨hs.recorded, ?_, hs.waiting⟩, .refl _⟩
    rintro _ ⟨⟩
    exact entry_behaves hs.recorded e
  | @resume s w w' j =>
    refine ⟨⟨hs.recorded, ?_, fun j' hj' => hs.waiting j' ?_⟩, .refl _⟩
    · rintro _ ⟨⟩
      have hjournal : s.journal = some j := hm
      have hphase := hs.waiting j (by simp)
      exact (toTheEnd_holds (complete_holds ⟨⟨hs.recorded, hjournal⟩, hphase⟩)).restrict
        fun _ _ => trivial
    · simp only [List.mem_append, List.mem_cons] at hj' ⊢
      exact hj'.imp_right .inr
  | @run s t r p q w hrun =>
    have hbehaves : Holds (Holder.faults ⟨r, p⟩) Guarantee Released (fun _ => Recorded) p s :=
      hs.holder ⟨r, p⟩ rfl
    obtain ⟨hchange, hrest⟩ := hbehaves.step (hrun.mono fun _ h => h.elim)
    rcases hchange with rfl | hchange
    · refine ⟨⟨hs.recorded, ?_, hs.waiting⟩, .refl _⟩
      rintro _ ⟨⟩
      exact hrest
    · refine ⟨⟨hchange.1, ?_, hs.waiting⟩, hchange.2.closed⟩
      rintro _ ⟨⟩
      exact hrest
  | @fault s r p w =>
    have hbehaves : Holds (Holder.faults ⟨r, .call p⟩) Guarantee Released (fun _ => Recorded)
        (.call p) s := hs.holder ⟨r, .call p⟩ rfl
    refine ⟨⟨hs.recorded, ?_, hs.waiting⟩, .refl _⟩
    rintro _ ⟨⟩
    exact hbehaves.2 (hm ⟨r, .call p⟩ · rfl)
  | @leave s r o w =>
    have hreleased : Released o s := hs.holder ⟨r, .ret o⟩ rfl
    refine ⟨⟨hs.recorded, fun h hh => by simp at hh, fun j hj => ?_⟩, .refl _⟩
    rcases List.mem_append.mp hj with hj | hj
    · exact hreleased.2 j (by simpa using hj)
    · exact hs.waiting j hj
  | kill => exact ⟨⟨hs.recorded, fun h hh => by simp at hh, hs.waiting⟩, .refl _⟩
  | @abandon s h w w' j =>
    refine ⟨⟨hs.recorded, hs.holder, fun j' hj' => hs.waiting j' ?_⟩, .refl _⟩
    simp only [List.mem_append, List.mem_cons] at hj' ⊢
    exact hj'.imp_right .inr
  | @serve s w guard kubelet queued =>
    have hsame := serve_sameRecords s guard kubelet queued
    exact ⟨⟨hsame.recorded hs.recorded, fun h hh => by simp at hh, hs.waiting⟩,
      fun _ _ _ => .inl rfl⟩
  | @reboot s h w kubelet =>
    exact ⟨⟨reboot_recorded hs.recorded kubelet, fun h hh => by simp at hh, by simp⟩,
      fun _ _ _ => .inl rfl⟩

theorem Reachable.sound {s : System} (h : Reachable orderly s) : Sound s := by
  induction h with
  | start hblank =>
    exact ⟨hblank.recorded, fun h hh => by simp at hh, by simp⟩
  | step _ hm hstep ih => exact (sound_step ih hm hstep).1

/-- A process that is not disturbed. -/
theorem Run.runs {allowed : System → Move → Prop} {s t : Host} {r : Option Host} {p q : Locked}
    {w : List Journal} (hallowed : ∀ s, allowed s .run) (hruns : Reaches noFault (p, s) (q, t)) :
    Run allowed ⟨s, some ⟨r, p⟩, w⟩ ⟨t, some ⟨r, q⟩, w⟩ := by
  generalize hfinal : (q, t) = final at hruns
  induction hruns generalizing q t with
  | refl =>
    cases hfinal
    exact .refl
  | @tail mid final _ hstep ih =>
    obtain ⟨q', u⟩ := mid
    subst hfinal
    exact (ih rfl).tail ⟨.run, hallowed _, .run hstep⟩

theorem Reachable.runs {allowed : System → Move → Prop} {s t : Host} {r : Option Host}
    {p q : Locked} {w : List Journal} (h : Reachable allowed ⟨s, some ⟨r, p⟩, w⟩)
    (hallowed : ∀ s, allowed s .run) (hruns : Reaches noFault (p, s) (q, t)) :
    Reachable allowed ⟨t, some ⟨r, q⟩, w⟩ := h.run (Run.runs hallowed hruns)

/-- Moves of processes that nobody disturbs, and of systemd. -/
def Quiet (allowed : System → Move → Prop) : Prop := ∀ s : System, allowed s .run ∧
  allowed s .leave ∧ allowed s (.enter .load) ∧ ∀ guard kubelet queued, allowed s (.serve guard kubelet queued)

/-- A process that enters and is not disturbed. -/
theorem Reachable.process {allowed : System → Move → Prop} {s t : Host} {w : List Journal}
    {o : Option Journal} (h : Reachable allowed ⟨s, none, w⟩) (hquiet : Quiet allowed) (e : Entry)
    (henter : allowed ⟨s, none, w⟩ (.enter e)) (hrun : e.program.run s = (.inr o, t)) :
    Reachable allowed ⟨t, none, o.toList ++ w⟩ := by
  have hentered : Reachable allowed ⟨s, some (e.holder s), w⟩ := .step h henter (.enter e)
  have hruns : Reaches noFault (e.program, s) (.ret o, t) := by
    have h := @reaches_run _ _ _ noFault e.program s
    rwa [hrun] at h
  exact .step (hentered.runs (fun s => (hquiet s).1) hruns) (hquiet _).2.1 .leave

section Installation

/-- A host on which nothing of the guard is installed. -/
def bareHost : Host where
  journal := none
  loadJournal := none
  receipts _ := .absent
  table := .absent
  machine :=
    { file := fun _ => .absent
      directory := fun _ => false
      enabled := false
      guard := false
      kubelet := false
      queued := false }
  uuid := 0
  boot := 0

def someBundle : Bundle := ⟨"revision", "manifest", "custody"⟩

/-- The journal of an installation on it, when the lock is handed over. -/
def handedOver : Journal :=
  { freshJournal .offline someBundle none bareHost with phase := .guardStartIntent }

def handedHost : Host := ((Entry.prepare .offline someBundle none).program.run bareHost).2

def loadedHost : Host := (Entry.load.program.run handedHost).2

/-- The guard is active, and a recovery has rolled the installation back before it goes on. -/
def startedHost : Host := loadedHost.serve true false false

def recoveredHost : Host := ((Entry.recover someBundle false).program.run startedHost).2

theorem bareHost_isBlank : bareHost.IsBlank where
  journal := rfl
  loadJournal := rfl
  receipts _ := rfl
  table _ h := by cases h

/-- The installer waits for the lock, and the guard is started. -/
theorem reachable_startedHost {allowed : System → Move → Prop} (hquiet : Quiet allowed)
    (henter : allowed ⟨bareHost, none, []⟩ (.enter (.prepare .offline someBundle none))) :
    Reachable allowed ⟨startedHost, none, [handedOver]⟩ := by
  have hbare : Reachable allowed ⟨bareHost, none, []⟩ := .start bareHost_isBlank
  have hhanded : Reachable allowed ⟨handedHost, none, [handedOver]⟩ :=
    hbare.process hquiet (.prepare .offline someBundle none) henter rfl
  have hloaded : Reachable allowed ⟨loadedHost, none, [handedOver]⟩ :=
    hhanded.process hquiet .load (hquiet _).2.2.1 rfl
  exact .step hloaded ((hquiet _).2.2.2 true false false) (.serve true false false)

/-- A recovery whose last command fails reports that recovery is required, over the rollback that
it has recorded. -/
theorem stopped_recovery_reopens :
    ¬ ∀ (s t : System) (m : Move), Reachable (fun s m => orderly s m ∨ m = .fault) s →
      (orderly s m ∨ m = .fault) → SystemStep s m t → StaysClosed s.host t.host := by
  intro hclaim
  have hquiet : Quiet fun s m => orderly s m ∨ m = .fault := fun s =>
    ⟨.inl trivial, .inl trivial, .inl trivial, fun _ _ _ => .inl trivial⟩
  have hrun : ∀ s, orderly s .run ∨ Move.run = .fault := fun s => .inl trivial
  have hentered : Reachable (fun s m => orderly s m ∨ m = .fault)
      ⟨startedHost, some ((Entry.recover someBundle false).holder startedHost), [handedOver]⟩ := by
    refine .step (reachable_startedHost hquiet (.inl trivial)) ?_ (.enter (.recover someBundle false))
    exact .inl trivial
  -- the last command of the recovery follows its closed journal
  have hclosed := hentered.runs hrun
    (reaches_advance 108 (Entry.recover someBundle false).program startedHost)
  have hfailed : Reachable (fun s m => orderly s m ∨ m = .fault) _ :=
    .step hclosed (.inr rfl) .fault
  have hwriting := hfailed.runs hrun (reaches_advance 12 _ _)
  have hwritten := hclaim _ _ .run hwriting (hrun _) (.run .act)
  obtain h | ⟨j, h, hphase, -⟩ := hwritten _ rfl rfl
  · have hphases : some Phase.recoveryRequired = some Phase.rolledBack :=
      congrArg (Option.map Journal.phase) h
    simp at hphases
  · have hphases : some Phase.recoveryRequired = some j.phase :=
      congrArg (Option.map Journal.phase) h
    simp [hphase] at hphases

end Installation

end GuardTransaction
