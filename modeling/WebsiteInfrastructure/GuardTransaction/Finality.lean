import Mathlib
import WebsiteInfrastructure.GuardTransaction.System
import WebsiteInfrastructure.GuardTransaction.LoaderFrame

/-!
# A published pass is final

As long as one process runs at a time, and whatever fails or is killed.
-/

namespace GuardTransaction

open Crash

/-! ## One process at a time -/

/-- Only the loader, as a service, runs while an installation or a retrofit waits. -/
def alone (s : System) : Move → Prop
  | .enter .load => True
  | .enter _ => s.waiting = []
  | _ => True

/-- What a process leaves when it lets the lock go: its own journal, where it comes back. -/
def ReleasedOwn (o : Option Journal) (s : Host) : Prop :=
  Recorded s ∧ ∀ j, o = some j → HandedOver j s

/-- The invariant of a system with one process at a time. -/
structure Alone (s : System) : Prop where
  recorded : Recorded s.host
  holder : ∀ h, s.holder = some h →
    Holds anyFault Upheld ReleasedOwn (fun _ => Recorded) h.program s.host
  /-- While a process waits, its journal stays, and any other process is a load. -/
  waiting : s.waiting = [] ∨ ∃ j, s.waiting = [j] ∧ HandedOver j s.host ∧ ∀ h, s.holder = some h →
    Holds anyFault LoadFrame (fun o _ => o = none) (fun _ _ => True) h.program s.host

theorem toTheEnd_holds_alone {α : Type} {p : Prog Host Unit α} {s : Host}
    (h : Holds anyFault Upheld (fun _ t => Recorded t) (fun _ t => Recorded t) p s) :
    Holds anyFault Upheld ReleasedOwn (fun _ => Recorded) (toTheEnd p) s := by
  refine h.seq (fun _ _ ht => ht) fun _ t ht => ?_
  exact ⟨ht, by simp⟩

theorem entry_alone {s : Host} (hs : Recorded s) (e : Entry) :
    Holds anyFault Upheld ReleasedOwn (fun _ => Recorded) e.program s := by
  have hweak : ∀ s t, Guarantee s t → Upheld s t := fun _ _ h => h.upheld
  cases e with
  | prepare mode bundle scope =>
    refine ((prepare_holds hs mode bundle scope).mono hweak (fun _ _ h => h) fun _ _ h => h).seq
      (fun _ _ ht => ht) fun j t ht => ?_
    refine ⟨ht.1.1, ?_⟩
    rintro _ ⟨⟩
    exact ht
  | closeAfterReboot bundle =>
    exact toTheEnd_holds_alone
      ((closeAfterReboot_holds hs bundle).mono hweak (fun _ _ h => h) fun _ _ h => h)
  | recover bundle automatic => exact toTheEnd_holds_alone (recover_holds_upheld hs bundle automatic)
  | load => exact toTheEnd_holds_alone ((load_holds hs).mono hweak (fun _ _ h => h) fun _ _ h => h)

theorem HandedOver.frame {j : Journal} {s t : Host} (h : HandedOver j s) (ht : Recorded t)
    (hframe : LoadFrame s t) : HandedOver j t :=
  ⟨⟨ht, hframe.journal.trans h.1.2⟩, h.2⟩

/-- One step: the invariant is kept, and what has passed is upheld or the host reboots. -/
theorem alone_step {s t : System} {m : Move} (hs : Alone s) (hm : alone s m)
    (hstep : SystemStep s m t) :
    Alone t ∧ (t.host = s.host ∨ Kept s.host t.host ∨ ∃ k, m = .reboot k) := by
  cases hstep with
  | @enter s w e =>
    refine ⟨⟨hs.recorded, ?_, ?_⟩, .inl rfl⟩
    · rintro _ ⟨⟩
      exact entry_alone hs.recorded e
    · cases e with
      | load =>
        refine hs.waiting.imp_right fun ⟨j, hw, hj, _⟩ => ⟨j, hw, hj, ?_⟩
        rintro _ ⟨⟩
        exact (load_frame s).seq (fun _ _ h => h) fun _ _ _ => rfl
      | prepare mode bundle scope => exact .inl hm
      | closeAfterReboot bundle => exact .inl hm
      | recover bundle automatic => exact .inl hm
  | @resume s w w' j =>
    obtain hw | ⟨j', hw, hj, -⟩ := hs.waiting
    · simp at hw
    · -- the only journal that waits
      obtain ⟨rfl, rfl, rfl⟩ : w = [] ∧ j = j' ∧ w' = [] := by
        simpa [List.append_eq_singleton_iff] using hw
      refine ⟨⟨hs.recorded, ?_, .inl rfl⟩, .inl rfl⟩
      rintro _ ⟨⟩
      exact toTheEnd_holds_alone
        ((complete_holds hj).mono (fun _ _ h => h.upheld) (fun _ _ h => h) fun _ _ h => h)
  | @run s t r p q w hrun =>
    have hany : Step anyFault (p, s) (q, t) := hrun.mono fun _ h => h.elim
    have hupheld : Holds anyFault Upheld ReleasedOwn (fun _ => Recorded) p s := hs.holder ⟨r, p⟩ rfl
    obtain ⟨hchange, hrest⟩ := hupheld.step hany
    have hrecorded : Recorded t := by
      rcases hchange with rfl | hchange
      exacts [hs.recorded, hchange.1]
    refine ⟨⟨hrecorded, ?_, hs.waiting.imp_right fun ⟨j, hw, hj, hload⟩ => ⟨j, hw, ?_⟩⟩,
      hchange.imp_right fun h => .inl h.2⟩
    · rintro _ ⟨⟩
      exact hrest
    · have hframe : Holds anyFault LoadFrame (fun o _ => o = none) (fun _ _ => True) p s :=
        hload ⟨r, p⟩ rfl
      obtain ⟨hsame, hrest'⟩ := hframe.step hany
      refine ⟨?_, ?_⟩
      · rcases hsame with rfl | hsame
        exacts [hj, hj.frame hrecorded hsame]
      · rintro _ ⟨⟩
        exact hrest'
  | @fault s r p w =>
    have hupheld : Holds anyFault Upheld ReleasedOwn (fun _ => Recorded) (.call p) s :=
      hs.holder ⟨r, .call p⟩ rfl
    refine ⟨⟨hs.recorded, ?_, hs.waiting.imp_right fun ⟨j, hw, hj, hload⟩ => ⟨j, hw, hj, ?_⟩⟩, .inl rfl⟩
    · rintro _ ⟨⟩
      exact hupheld.2 trivial
    · rintro _ ⟨⟩
      have hframe : Holds anyFault LoadFrame (fun o _ => o = none) (fun _ _ => True) (.call p) s :=
        hload ⟨r, .call p⟩ rfl
      exact hframe.2 trivial
  | @leave s r o w =>
    have hreleased : ReleasedOwn o s := hs.holder ⟨r, .ret o⟩ rfl
    refine ⟨⟨hs.recorded, fun h hh => by simp at hh, ?_⟩, .inl rfl⟩
    obtain hw | ⟨j, hw, hj, hload⟩ := hs.waiting
    · obtain rfl : w = [] := hw
      cases o with
      | none => exact .inl rfl
      | some j => exact .inr ⟨j, rfl, hreleased.2 j rfl, fun h hh => by simp at hh⟩
    · have hnone : o = none := hload ⟨r, .ret o⟩ rfl
      subst hnone
      exact .inr ⟨j, hw, hj, fun h hh => by simp at hh⟩
  | kill =>
    refine ⟨⟨hs.recorded, fun h hh => by simp at hh, ?_⟩, .inl rfl⟩
    exact hs.waiting.imp_right fun ⟨j, hw, hj, _⟩ => ⟨j, hw, hj, fun h hh => by simp at hh⟩
  | @abandon s h w w' j =>
    refine ⟨⟨hs.recorded, hs.holder, .inl ?_⟩, .inl rfl⟩
    obtain hw | ⟨j', hw, -⟩ := hs.waiting
    · simp at hw
    · obtain ⟨rfl, -, rfl⟩ : w = [] ∧ j = j' ∧ w' = [] := by
        simpa [List.append_eq_singleton_iff] using hw
      rfl
  | @serve s w guard kubelet queued =>
    have hsame := serve_sameRecords s guard kubelet queued
    have hrecorded := hsame.recorded hs.recorded
    refine ⟨⟨hrecorded, fun h hh => by simp at hh, ?_⟩, .inr (.inl ?_)⟩
    · exact hs.waiting.imp_right fun ⟨j, hw, hj, _⟩ =>
        ⟨j, hw, ⟨⟨hrecorded, hj.1.2⟩, hj.2⟩, fun h hh => by simp at hh⟩
    · exact (hsame.guarantee hs.recorded fun _ _ _ => ⟨rfl, rfl, rfl⟩).2.toKept
  | @reboot s h w kubelet =>
    exact ⟨⟨reboot_recorded hs.recorded kubelet, fun h hh => by simp at hh, .inl rfl⟩,
      .inr (.inr ⟨kubelet, rfl⟩)⟩

theorem Reachable.alone {s : System} (h : Reachable alone s) : Alone s := by
  induction h with
  | start hblank => exact ⟨hblank.recorded, fun h hh => by simp at hh, .inl rfl⟩
  | step _ hm hstep ih => exact (alone_step ih hm hstep).1

/-! ## Passed attempts -/

/-- What is left of a passed transaction later on. -/
structure PassStands (mode : Mode) (a : Attempt) (s t : Host) : Prop where
  published : t.IsPublished (passReceipt mode a)
  journal : ∃ j, t.journal = some j ∧ j.mode = mode ∧ j.attempt = a ∧
    (t.journal = s.journal ∨ j.phase = .committed)
  file : t.machine.file = s.machine.file
  directory : t.machine.directory = s.machine.directory
  enabled : t.machine.enabled = s.machine.enabled

/-- What is left of a passed load later on. -/
structure LoadPassStands (a : Attempt) (t : Host) : Prop where
  published : t.IsPublished (loadPassReceipt a)
  unrolled : ¬ t.IsPublished (loadRollbackReceipt a)
  journal : ∀ l, t.loadJournal = some l → l.attempt = a → l.phase.isCommit = true

theorem PassStands.start {mode : Mode} {a : Attempt} {s : Host} (hs : Recorded s)
    (hp : s.IsPublished (passReceipt mode a)) : PassStands mode a s s := by
  obtain ⟨j, hj, hmode, hattempt, -⟩ := hs.pass mode a hp
  exact ⟨hp, ⟨j, hj, hmode, hattempt, .inl rfl⟩, rfl, rfl, rfl⟩

theorem PassStands.kept {mode : Mode} {a : Attempt} {s t u : Host} (h : PassStands mode a s t)
    (hk : Kept t u) : PassStands mode a s u := by
  obtain ⟨hfile, hdirectory, henabled⟩ := hk.machine mode a h.published
  refine ⟨hk.published _ h.published, ?_, hfile.trans h.file, hdirectory.trans h.directory,
    henabled.trans h.enabled⟩
  obtain ⟨j, hj, hmode, hattempt, hphase⟩ := h.journal
  obtain hsame | ⟨j', hj', hmode', hattempt', hcommitted⟩ := hk.pass mode a h.published
  · exact ⟨j, hsame.trans hj, hmode, hattempt, hphase.imp_left hsame.trans⟩
  · exact ⟨j', hj', hmode', hattempt', .inr hcommitted⟩

theorem PassStands.reboot {mode : Mode} {a : Attempt} {s t : Host} (h : PassStands mode a s t)
    (kubelet : Bool) : PassStands mode a s (t.reboot kubelet) :=
  ⟨h.published, h.journal, h.file, h.directory, h.enabled⟩

theorem Recorded.loadPassStands {t : Host} {a : Attempt} (ht : Recorded t)
    (hp : t.IsPublished (loadPassReceipt a)) : LoadPassStands a t := by
  refine ⟨hp, ht.loadExclusive a hp, fun l hl hla => ?_⟩
  subst hla
  exact ht.loadPass l hl hp

theorem run_host {s t : System} {m : Move} (hs : Reachable alone s) (hm : alone s m)
    (hstep : SystemStep s m t) :
    t.host = s.host ∨ Kept s.host t.host ∨ ∃ k, t.host = s.host.reboot k := by
  obtain h | h | ⟨k, rfl⟩ := (alone_step hs.alone hm hstep).2
  · exact .inl h
  · exact .inr (.inl h)
  · cases hstep with
    | reboot => exact .inr (.inr ⟨k, rfl⟩)

theorem pass_stands {s t : System} (hs : Reachable alone s) (hrun : Run alone s t) {mode : Mode}
    {a : Attempt} (hp : s.host.IsPublished (passReceipt mode a)) :
    PassStands mode a s.host t.host := by
  induction hrun with
  | refl => exact .start hs.alone.recorded hp
  | @tail t u hrun hstep ih =>
    obtain ⟨m, hm, hstep⟩ := hstep
    obtain h | h | ⟨k, h⟩ := run_host (hs.run hrun) hm hstep
    · rwa [h]
    · exact ih.kept h
    · rw [h]
      exact ih.reboot k

theorem load_pass_stands {s t : System} (hs : Reachable alone s) (hrun : Run alone s t)
    {a : Attempt} (hp : s.host.IsPublished (loadPassReceipt a)) : LoadPassStands a t.host := by
  refine (hs.run hrun).alone.recorded.loadPassStands ?_
  induction hrun with
  | refl => exact hp
  | @tail t u hrun hstep ih =>
    obtain ⟨m, hm, hstep⟩ := hstep
    obtain h | h | ⟨k, h⟩ := run_host (hs.run hrun) hm hstep
    · rwa [h]
    · exact h.published _ ih
    · rw [h]
      exact ih

/-- A published pass is final: in every run of one process after another, whatever fails, is killed
or reboots, the attempt is only ever committed and what it did to the machine stays. A passed load
is only ever committed or followed by a fresh one, and its table is removed by the rollback of an
enclosing transaction alone, if not by a reboot. -/
theorem passed_attempts_are_final {s t u : System} {m : Move} (hs : Reachable alone s)
    (hrun : Run alone s t) (hm : alone t m) (hstep : SystemStep t m u) :
    (∀ mode a, s.host.IsPublished (passReceipt mode a) →
      PassStands mode a s.host t.host ∧
        (t.host.table ≠ .absent → u.host.table ≠ t.host.table → (∃ k, m = .reboot k) ∨
          ∃ l, t.host.loadJournal = some l ∧ l.phase = .rollbackIntent ∧
            ¬ t.host.IsPublished (loadPassReceipt l.attempt))) ∧
    ∀ a, s.host.IsPublished (loadPassReceipt a) →
      LoadPassStands a t.host ∧
        (∀ l, t.host.loadJournal = some l → l.attempt = a → u.host.loadJournal = t.host.loadJournal ∨
          ∃ l', u.host.loadJournal = some l' ∧ (l'.attempt = a ∧ l'.phase = .committed ∨
            l'.phase = .prepared ∧ t.host.IsFresh l'.attempt)) ∧
        (t.host.table = .exact (some a) → u.host.table = t.host.table ∨ (∃ k, m = .reboot k) ∨
          ∃ j, t.host.journal = some j ∧ j.phase = .rollbackIntent) := by
  have ht := hs.run hrun
  have hrecorded := ht.alone.recorded
  have hchange := (alone_step ht.alone hm hstep).2
  constructor
  · intro mode a hp
    have hstands := pass_stands hs hrun hp
    refine ⟨hstands, fun habsent hne => ?_⟩
    obtain h | h | h := hchange
    · exact absurd (congrArg Host.table h) hne
    · obtain ⟨j, hj, hrollback⟩ | hload := (h.table habsent hne).2
      · exact absurd hstands.published (hrecorded.not_pass hj (by rw [hrollback]; rfl) _ _)
      · exact .inr hload
    · exact .inl h
  · intro a hp
    have hstands := load_pass_stands hs hrun hp
    refine ⟨hstands, fun l hl hla => ?_, fun htable => ?_⟩
    · subst hla
      obtain h | h | ⟨k, rfl⟩ := hchange
      · exact .inl (congrArg Host.loadJournal h)
      · exact h.loadPass l hl hstands.published
      · cases hstep with
        | reboot => exact .inl rfl
    · obtain h | h | h := hchange
      · exact .inl (congrArg Host.table h)
      · by_cases hne : u.host.table = t.host.table
        · exact .inl hne
        · obtain hmain | ⟨l, hl, hrollback, hunpassed⟩ := (h.table (by simp [htable]) hne).2
          · exact .inr (.inr hmain)
          · -- the load that owns the table has passed
            obtain ⟨l', hl', hla, -⟩ := hrecorded.table a htable
            obtain rfl := Option.some.inj (hl'.symm.trans hl)
            rw [hla] at hunpassed
            exact absurd hstands.published hunpassed
      · exact .inr (.inl h)

/-! ## A passed load in a transaction that is rolled back -/

theorem alone_quiet : Quiet alone := fun _ => ⟨trivial, trivial, trivial, fun _ _ _ => trivial⟩

/-- The installer is gone, its guard is started. -/
theorem reachable_abandoned : Reachable alone ⟨startedHost, none, []⟩ := by
  refine .step (reachable_startedHost alone_quiet rfl) ?_
    (@SystemStep.abandon startedHost none [] [] handedOver)
  trivial

theorem startedHost_passed : startedHost.IsPublished (loadPassReceipt 1) := by
  rfl

/-- Recovery as it is about to delete the table of the load. -/
theorem reachable_deleting : Reachable alone
    ⟨((Entry.recover someBundle false).program.advance 29 startedHost).2,
      some ⟨some startedHost, ((Entry.recover someBundle false).program.advance 29 startedHost).1⟩,
      []⟩ := by
  have hentered : Reachable alone
      ⟨startedHost, some ((Entry.recover someBundle false).holder startedHost), []⟩ := by
    refine .step reachable_abandoned ?_ (.enter (.recover someBundle false))
    rfl
  exact hentered.runs (fun _ => trivial) (reaches_advance 29 _ startedHost)

/-- The table of a passed load goes with the transaction. -/
theorem passed_load_is_undone :
    ¬ ∀ (s t : System) (m : Move), Reachable alone s → alone s m → SystemStep s m t →
      (∀ k, m ≠ .reboot k) → ∀ a, s.host.IsPublished (loadPassReceipt a) →
        s.host.table = .exact (some a) → t.host.table = s.host.table := by
  intro hclaim
  have hsame := hclaim _ _ .run reachable_deleting trivial (.run .act) (by simp) 1 rfl rfl
  have hkinds : Table.absent = Table.exact (some 1) := hsame
  simp at hkinds

/-- The final receipt of an installation that nobody disturbs. -/
def committedHost : Host := ((toTheEnd (complete handedOver)).run startedHost).2

theorem committed_run : ((toTheEnd (complete handedOver)).run startedHost).1 = .inr none := by
  rfl

theorem reachable_committed : Reachable alone ⟨committedHost, none, []⟩ := by
  have hresumed : Reachable alone
      ⟨startedHost, some ⟨none, toTheEnd (complete handedOver)⟩, []⟩ := by
    refine .step (reachable_startedHost alone_quiet rfl) ?_
      (@SystemStep.resume startedHost [] [] handedOver)
    trivial
  have hruns : Reaches noFault (toTheEnd (complete handedOver), startedHost)
      (.ret none, committedHost) := by
    have h := @reaches_run _ _ _ noFault (toTheEnd (complete handedOver)) startedHost
    rwa [committed_run] at h
  exact .step (hresumed.runs (fun _ => trivial) hruns) (alone_quiet _).2.1 .leave

/-- The pass of that installation, as a recovery enters. -/
theorem passed_attempts_are_final_committed :
    PassStands .offline 0 committedHost committedHost := by
  have hidle : alone ⟨committedHost, none, []⟩ (.enter (.recover someBundle false)) := by
    rfl
  have hfinal := passed_attempts_are_final reachable_committed .refl hidle
    (.enter (.recover someBundle false))
  exact (hfinal.1 .offline 0 rfl).1

end GuardTransaction
