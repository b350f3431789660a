import Mathlib
import WebsiteInfrastructure.GuardTransaction.Tending
import WebsiteInfrastructure.GuardTransaction.LoaderRuns

/-!
# Interrupted publications

A receipt that decides an intent is published in several steps. The next run of the entrypoint that
owns the intent completes it where the receipt is published, and rolls it back where the receipt is
not there yet.
-/

namespace GuardTransaction

open Crash

variable {j : Journal} {s : Host}

/-- The phase that a published decision leads to. -/
def Phase.decided : Phase → Phase
  | .commitIntent => .committed
  | .awaitingRebootIntent => .awaitingReboot
  | phase => phase

theorem completeIntent_ends (h : Ready j s) {result : Result} {d : Document}
    {persistence dependency : String} {phase : Phase}
    (hpublished : s.receipts (receiptPath j result) = .published d)
    (hdocument : receiptDocument j result "verified" persistence dependency "not-needed" =
      mainReceipt j result) :
    Ends (completeIntent j result persistence dependency phase) s (fun done t =>
      done = true ∧ t.journal = some { j with phase, receipt := some d }) := by
  have hshows := h.contents result
  have hd : d = mainReceipt j result := by
    rw [hpublished] at hshows
    exact hshows
  rw [completeIntent]
  refine holds_bind.mpr (holds_get.mpr ?_)
  rw [hpublished]
  refine holds_bind.mpr (ends_require rfl ?_)
  have hwrite : Ends (writeReceipt j result "verified" persistence dependency "not-needed" () :
      Recovery Document) s (fun document _ => document = d) := by
    refine (writeReceipt_noFault hdocument hshows).mono (fun _ _ _ => trivial) ?_ fun _ _ h => h
    rintro _ t ⟨rfl, -⟩
    exact hd.symm
  refine hwrite.seq ?_
  rintro _ t rfl
  simp only [Ends, journalWrite, holds_bind, holds_orExit, holds_modify, holds_pure]
  exact ⟨⟨trivial, ⟨trivial, trivial⟩, fun h => h⟩, fun h => h⟩

theorem recover_decided (h : Working j s) {result : Result} {d : Document}
    (hresult : j.phase.decision? = some result)
    (hpublished : s.receipts (receiptPath j result) = .published d) (automatic : Bool) :
    ∃ status t, (recover j.bundle automatic).run s = (.inr status, t) ∧
      t.journal = some { j with phase := j.phase.decided, receipt := some d } := by
  have hends : Ends (recover j.bundle automatic) s (fun _ t =>
      t.journal = some { j with phase := j.phase.decided, receipt := some d }) := by
    rw [recover]
    refine holds_bind.mpr (ends_orExit ?_)
    refine holds_bind.mpr (holds_get.mpr ?_)
    rw [h.journal]
    refine holds_bind.mpr (ends_require (by simp) ?_)
    refine holds_bind.mpr (ends_orExit ?_)
    have hcarried := (reconcile_noFault h.ready.loads).carry h.ready fun _ _ h hkeeps =>
      h.loadKeeps hkeeps.1
    refine Ends.seq (hcarried.mono (fun _ _ _ => trivial) (fun _ _ h => h) fun _ _ h => h.1) ?_
    rintro _ t ⟨⟨-, -, hframe, -⟩, ht⟩
    have hpublished' : t.receipts (receiptPath j result) = .published d := by
      rwa [hframe.receipts _ (by simp [receiptPath])]
    cases hphase : j.phase with
    | commitIntent =>
      obtain rfl : .pass = result := by simpa [hphase, Phase.decision?] using hresult
      refine (completeIntent_ends ht hpublished' rfl).seq ?_
      rintro _ u ⟨rfl, hu⟩
      exact hu
    | awaitingRebootIntent =>
      obtain rfl : .pendingReboot = result := by simpa [hphase, Phase.decision?] using hresult
      refine (completeIntent_ends ht hpublished' rfl).seq ?_
      rintro _ u ⟨rfl, hu⟩
      exact hu
    | prepared | artifactsInstalled | guardStartIntent | guardActive | dropinInstalled
    | kubeletRestartIntent | awaitingReboot | committed | rollbackIntent | rolledBack
    | recoveryRequired => simp [hphase, Phase.decision?] at hresult
  obtain ⟨status, hrun, hjournal⟩ := hends.run_ret
  exact ⟨status, _, hrun, hjournal⟩

/-- A publication that has not come to its link. -/
def Slot.IsUnlinked : Slot → Prop
  | .absent | .temporary _ => True
  | _ => False

theorem Slot.IsUnlinked.not_exists {slot : Slot} (h : slot.IsUnlinked) : slot.exists = false := by
  cases slot <;> first | rfl | exact h.elim

/-- In every state that an undisturbed run can leave behind: a decision that is published is
completed by the next recovery, and one that is not linked is discarded and rolled back with the
attempt. The loader does the same with its own, and goes on to an exact table. -/
theorem interrupted_publications_are_resolved {s₀ : Host} {s : System} (hblank : s₀.IsBlank)
    (hsound : s₀.machine.IsSound) (hrun : Run calm ⟨s₀, none, []⟩ s) :
    (∀ j result, s.host.journal = some j → j.phase.decision? = some result → ∀ automatic,
      (∀ d, s.host.receipts (receiptPath j result) = .published d →
        ∃ status t, (recover j.bundle automatic).run s.host = (.inr status, t) ∧
          t.journal = some { j with phase := j.phase.decided, receipt := some d }) ∧
      ((s.host.receipts (receiptPath j result)).IsUnlinked →
        ∃ t receipt, (recover j.bundle automatic).run s.host = (.inr 0, t) ∧
          t.journal = some { j with phase := .rolledBack, receipt := some receipt } ∧
          Restored j.prestate t)) ∧
    ∀ l, s.host.loadJournal = some l → l.phase = .commitIntent → s.host.table ≠ .other →
      (∀ d, s.host.receipts (loadReceiptPath l.attempt .pass) = .published d →
        ∃ t u, Leaves noFault load s.host t ∧ load.run s.host = (.inr (), u) ∧
          t.loadJournal = some { l with phase := .committed, receipt := some d } ∧
          t.table = s.host.table ∧ u.table.isExact = true) ∧
      ((s.host.receipts (loadReceiptPath l.attempt .pass)).IsUnlinked →
        ∃ t u, Leaves noFault load s.host t ∧ load.run s.host = (.inr (), u) ∧
          (∃ receipt, t.loadJournal = some { l with phase := .rolledBack, receipt := some receipt }) ∧
          t.table = .absent ∧ u.table.isExact = true) := by
  obtain ⟨hrecorded, htended⟩ := calm_run hblank hsound hrun
  constructor
  · intro j result hj hresult automatic
    have hopen : j.phase.isClosed = false := by
      cases hphase : j.phase <;> simp_all [Phase.decision?, Phase.isClosed]
    refine ⟨fun d hd => ?_, fun hunlinked => ?_⟩
    · exact recover_decided ⟨htended.journal j hj hopen, hj⟩ hresult hd automatic
    · have hundecided : IsUndecided j s.host := by
        intro result' hresult'
        obtain rfl := Option.some.inj (hresult'.symm.trans hresult)
        simp [Host.IsPublished, hunlinked.not_exists]
      obtain ⟨t, receipt, ht, hjournal, hrestored, -⟩ :=
        rollback_is_exact hblank hsound hrun hj hopen hundecided .refl automatic
      exact ⟨t, receipt, ht, hjournal, hrestored⟩
  · intro l hl hphase htable
    have hprestate := (htended.loads.journal l hl).prestate
    have hresolves := fun hlinked => load_resolves hrecorded htended.loads hl htable hlinked
    simp only [Resolves, hphase] at hresolves
    refine ⟨fun d hd => ?_, fun hunlinked => ?_⟩
    · have hcontents := htended.loads.contents l hl .pass
      rw [hd] at hcontents
      obtain rfl : d = loadReceipt l.attempt l.boot .pass := hcontents
      obtain ⟨t, u, hleaves, hcommitted, hload, hexact⟩ := hresolves fun _ d' => by simp [hd]
      rw [hd] at hcommitted
      obtain ⟨hclosed, hsame⟩ : LoadClosed l.attempt l.boot .committed .pass t ∧
        t.table = s.host.table := hcommitted
      refine ⟨t, u, hleaves, hload, ?_, hsame, hexact⟩
      rw [hclosed.journal, hprestate]
    · obtain ⟨t, u, hleaves, hrolled, hload, hexact⟩ := hresolves fun _ d hd => by
        rw [hd] at hunlinked
        exact hunlinked
      rw [hunlinked.not_exists, if_neg (by simp)] at hrolled
      refine ⟨t, u, hleaves, hload, ⟨loadReceipt l.attempt l.boot .rollbackVerified, ?_⟩,
        hrolled.2, hexact⟩
      rw [hrolled.1.journal, hprestate]

/-! ## An installation on a bare host -/

/-- Where the lock is handed over. -/
theorem run_handedHost : Run calm ⟨bareHost, none, []⟩ ⟨handedHost, none, [handedOver]⟩ := by
  have hentered : Run calm ⟨bareHost, none, []⟩
      ⟨bareHost, some ((Entry.prepare .offline someBundle none).holder bareHost), []⟩ :=
    .single ⟨.enter (.prepare .offline someBundle none), rfl, .enter _⟩
  have hruns : Reaches noFault ((Entry.prepare .offline someBundle none).program, bareHost)
      (.ret (some handedOver), handedHost) := by
    exact @reaches_run _ _ _ noFault (Entry.prepare .offline someBundle none).program bareHost
  exact (hentered.trans (Run.runs (fun _ => trivial) hruns)).tail ⟨.leave, trivial, .leave⟩

/-- The loader of the guard, after some steps. -/
theorem run_loading (n : ℕ) : Run calm ⟨bareHost, none, []⟩
    ⟨(Entry.load.program.advance n handedHost).2,
      some ⟨none, (Entry.load.program.advance n handedHost).1⟩, [handedOver]⟩ := by
  have hentered : Run calm ⟨handedHost, none, [handedOver]⟩
      ⟨handedHost, some (Entry.load.holder handedHost), [handedOver]⟩ :=
    .single ⟨.enter .load, trivial, .enter _⟩
  exact (run_handedHost.trans hentered).trans (Run.runs (fun _ => trivial) (reaches_advance n _ _))

theorem run_startedHost : Run calm ⟨bareHost, none, []⟩ ⟨startedHost, none, [handedOver]⟩ := by
  have hentered : Run calm ⟨handedHost, none, [handedOver]⟩
      ⟨handedHost, some (Entry.load.holder handedHost), [handedOver]⟩ :=
    .single ⟨.enter .load, trivial, .enter _⟩
  have hruns : Reaches noFault (Entry.load.program, handedHost) (.ret none, loadedHost) := by
    exact @reaches_run _ _ _ noFault Entry.load.program handedHost
  have hleft : Run calm ⟨bareHost, none, []⟩ ⟨loadedHost, none, [handedOver]⟩ :=
    ((run_handedHost.trans hentered).trans (Run.runs (fun _ => trivial) hruns)).tail
      ⟨.leave, trivial, .leave⟩
  have hunit : loadedHost.machine.file .unit = .exact := rfl
  have hserves : calm ⟨loadedHost, none, [handedOver]⟩ (.serve true false false) := by
    constructor
    · rintro _ - - ⟨⟩
    · intro habsent
      rw [hunit] at habsent
      cases habsent
  exact hleft.tail ⟨.serve true false false, hserves, .serve _ _ _⟩

/-- The rest of the installation, after some steps. -/
theorem run_completing (n : ℕ) : Run calm ⟨bareHost, none, []⟩
    ⟨((toTheEnd (complete handedOver)).advance n startedHost).2,
      some ⟨none, ((toTheEnd (complete handedOver)).advance n startedHost).1⟩, []⟩ := by
  have hresumed : Run calm ⟨startedHost, none, [handedOver]⟩
      ⟨startedHost, some ⟨none, toTheEnd (complete handedOver)⟩, []⟩ :=
    .single ⟨.resume handedOver, trivial, @SystemStep.resume startedHost [] [] handedOver⟩
  exact (run_startedHost.trans hresumed).trans (Run.runs (fun _ => trivial) (reaches_advance n _ _))

/-- Killed with a temporary file, the attempt is rolled back; killed between the link and the
unlink, recovery and loader stop. -/
theorem interrupted_publications_strand :
    (¬ ∀ s j result automatic, Run calm ⟨bareHost, none, []⟩ s → s.host.journal = some j →
      j.phase.decision? = some result → (s.host.receipts (receiptPath j result)).IsUnlinked →
        ∀ j', ((recover j.bundle automatic).run s.host).2.journal = some j' →
          j'.phase = j.phase.decided) ∧
    (¬ ∀ s j result automatic, Run calm ⟨bareHost, none, []⟩ s → s.host.journal = some j →
      j.phase.decision? = some result → ((recover j.bundle automatic).run s.host).1.isRight = true) ∧
    ¬ ∀ s l, Run calm ⟨bareHost, none, []⟩ s → s.host.loadJournal = some l →
      l.phase = .commitIntent → (load.run s.host).1.isRight = true := by
  refine ⟨fun hclaim => ?_, fun hclaim => ?_, fun hclaim => ?_⟩
  · have hphase := hclaim _ { handedOver with phase := .commitIntent } .pass false (run_completing 14)
      rfl rfl trivial _ rfl
    cases hphase
  · have hreturned := hclaim _ { handedOver with phase := .commitIntent } .pass false
      (run_completing 16) rfl rfl
    cases hreturned
  · have hreturned := hclaim _ ⟨.commitIntent, .absent, 1, 0, none⟩ (run_loading 34) rfl rfl
    cases hreturned

/-- An installer killed right after it has published its pass. -/
theorem interrupted_publications_are_resolved_published : ∃ status t,
    (recover someBundle true).run ((toTheEnd (complete handedOver)).advance 18 startedHost).2 =
      (.inr status, t) ∧
    t.journal = some { handedOver with
      phase := .committed, receipt := some (mainReceipt handedOver .pass) } := by
  have hresolved := (interrupted_publications_are_resolved bareHost_isBlank bareHost_isSound
    (run_completing 18)).1 { handedOver with phase := .commitIntent } .pass rfl rfl true
  exact hresolved.1 (mainReceipt handedOver .pass) rfl

end GuardTransaction
