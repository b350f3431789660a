import Mathlib
import WebsiteInfrastructure.DestructiveFixture.Recovery

/-!
# Histories of runs and recoveries

Each invocation ends by itself, is killed at one of its steps, or handles a signal there and may be
killed while it does. The claims about every one of them hold if and only if no interruption falls
where the root holds what a recovery does not accept.
-/

namespace DestructiveFixture

open Crash

variable {s t : Root}

/-! ## Signals -/

/-- Where a signal may arrive: no record is being published, and a journal exists or the handler
publishes one. -/
def Interruptible (wait : Wait) (root : Root) : Prop :=
  NoTemporary root ∧ (Name.journal ∈ root ∨
    Name.receipt ∉ root ∧ Name.cleanupStarted ∉ root ∧ wait.cleanup root ≤ rto)

theorem cleanup_insert (wait : Wait) (content : Content) :
    wait.cleanup (s.insert .cleanupStarted content) = wait.cleanup s := by
  simp [Wait.cleanup]

theorem Acceptable.journal (h : Acceptable s) : Name.journal ∈ s := by
  obtain hsettled | ⟨-, hprepared, -⟩ := h
  · simp [hsettled.mem_iff]
  · exact Finmap.mem_of_lookup_eq_some hprepared

/-- A root from which the markers were removed. -/
theorem Acceptable.of_lookup (h : Acceptable s)
    (hlookup : ∀ n, n ∉ transientNames → t.lookup n = s.lookup n)
    (hmarkers : ∀ n, n ∈ transientNames → n ∉ t) : Acceptable t := by
  have hmem (n : Name) (hn : n ∉ transientNames) : n ∈ t ↔ n ∈ s := by
    rw [← Finmap.lookup_isSome, ← Finmap.lookup_isSome, hlookup n hn]
  obtain hsettled | ⟨htemporary, hprepared, hreceipt⟩ := h
  · left
    have heq : t = s := by
      apply Finmap.ext_lookup
      intro n
      by_cases hn : n ∈ transientNames
      · rw [Finmap.lookup_eq_none.mpr (hmarkers n hn), eq_comm, Finmap.lookup_eq_none, hsettled.mem_iff]
        rintro (rfl | rfl | rfl) <;> exact absurd hn (by decide)
      · exact hlookup n hn
    rw [heq]
    exact hsettled
  · refine .inr ⟨fun path pid => ?_, ?_, ?_⟩
    · rw [hmem _ (by simp [transientNames])]
      exact htemporary path pid
    · rw [Prepared, hlookup _ (by decide)]
      exact hprepared
    · rw [hmem _ (by decide)]
      exact hreceipt

/-- What a handler that is not killed leaves. -/
theorem handleSignal_ends (hs : Forward s) (htemporary : NoTemporary s) (pid : ℕ) (signum : Signal)
    (wait : Wait) : Ends ((handleSignal pid signum wait).run s).2 ↔ Interruptible wait s := by
  have hacceptable : Name.journal ∈ s → Acceptable s := fun hjournal =>
    (hs.journal hjournal).elim (fun h => .inr ⟨htemporary, h.1, h.2⟩) .inl
  let marked := wait.root (s.insert .cleanupStarted (.text "cleanup-started\n"))
  have hmarked (n : Name) (hn : n ∉ transientNames) : (swept marked).lookup n = s.lookup n := by
    rw [lookup_swept hn]
    simp only [transientNames, List.mem_cons, List.not_mem_nil, or_false, not_or] at hn
    simp only [marked, Wait.root]
    split <;> simp [hn]
  have hmem (n : Name) (hn : n ∉ transientNames) : n ∈ swept marked ↔ n ∈ s := by
    rw [← Finmap.lookup_isSome, ← Finmap.lookup_isSome, hmarked n hn]
  have hswept : Acceptable s → Acceptable (swept marked) := fun h => by
    apply h.of_lookup hmarked
    intro n hn
    rw [mem_swept]
    exact fun h => h.1 hn
  have hhandler : Holds noFault (fun _ _ => True) (fun _ _ => False)
      (fun _ t => Name.sentinel ∈ t ∧ (Acceptable t ↔ Interruptible wait s))
      (handleSignal pid signum wait) s := by
    simp only [handleSignal, holds_bind]
    rw [holds_writeBytes (htemporary _ _)]
    refine ⟨trivial, trivial, ?_⟩
    by_cases hstarted : Name.cleanupStarted ∈ s
    · -- The marker of an earlier handler is not replaced.
      simp only [hstarted, decide_true, Bool.not_false, Bool.and_self, if_true]
      refine ⟨trivial, hs.sentinel, ?_⟩
      simp only [Interruptible, htemporary, hstarted, not_true_eq_false, false_and, and_false, or_false,
        true_and]
      exact ⟨Acceptable.journal, hacceptable⟩
    · simp only [hstarted, decide_false, Bool.and_false, Bool.false_eq_true, if_false,
        holds_awaitContinue, holds_exit, cleanup_insert]
      refine ⟨trivial, trivial, ?_⟩
      have hsentinel : Name.sentinel ∈ marked := by
        simp [marked, wait.mem_root, hs.sentinel]
      have hfree : NoTemporary marked := by
        intro path pid
        simp [marked, wait.mem_root, htemporary path pid]
      have hsame : Name.receipt ∈ marked ↔ Name.receipt ∈ s := by
        simp [marked, wait.mem_root]
      apply finishCleanup_holds hsentinel hfree trivial
      · exact fun _ _ _ _ => trivial
      · exact fun _ _ _ _ _ => trivial
      · intro hlate _
        refine ⟨mem_swept.mpr ⟨by decide, hsentinel⟩, ?_⟩
        simp only [Interruptible, htemporary, true_and, not_le.mpr hlate, and_false, or_false]
        exact ⟨fun h => (hmem _ (by decide)).mp h.journal, fun h => hswept (hacceptable h)⟩
      · intro hreceipt _
        refine ⟨mem_swept.mpr ⟨by decide, hsentinel⟩, ?_⟩
        simp only [Interruptible, htemporary, true_and, hsame.mp hreceipt, not_true_eq_false, false_and,
          or_false]
        exact ⟨fun h => (hmem _ (by decide)).mp h.journal, fun h => hswept (hacceptable h)⟩
      · intro hintime hreceipt
        have hsettled := settled_cleaned hsentinel hfree hreceipt (signal_trigger signum) hintime
        rw [hsame] at hreceipt
        refine ⟨trivial, trivial, ?_, fun _ => ⟨htemporary, .inr ⟨hreceipt, hstarted, hintime⟩⟩,
          fun _ => .inl hsettled⟩
        simp [hsettled.mem_iff]
  rw [holds_noFault_iff] at hhandler
  cases hrun : ((handleSignal pid signum wait).run s).1 with
  | inl e =>
    rw [hrun] at hhandler
    rw [ends_iff_acceptable hhandler.1]
    exact hhandler.2
  | inr result =>
    rw [hrun] at hhandler
    exact hhandler.elim

/-! ## Forward steps -/

theorem Forward.of_fresh (hsentinel : Name.sentinel ∈ s) (hreceipt : Name.receipt ∉ s)
    (hprepared : Name.journal ∈ s → Prepared s) : Forward s :=
  ⟨hsentinel, fun hjournal => .inl ⟨hprepared hjournal, hreceipt⟩⟩

/-- A run that is not signalled. -/
theorem run_holds (pid : ℕ) : Holds noFault (fun _ t => Forward t) (fun _ _ => False)
    (fun _ t => t = s ∨ Forward t ∧ NoTemporary t ∧ Prepared t ∧ Name.receipt ∉ t) (run pid) s := by
  simp only [run, prepare, holds_bind, holds_get, holds_require, decide_eq_true_eq, holds_exit]
  split
  · rename_i hkeys
    have hmem (n : Name) : n ∈ s ↔ n = .sentinel := by
      rw [← Finmap.mem_keys, hkeys]
      simp
    have hfree (path : Name) : .temporary path pid ∉ s := by
      simp [hmem]
    rw [holds_writeBytes (hfree _)]
    simp only [hmem, reduceCtorEq, decide_false, Bool.and_false, Bool.false_eq_true, if_false]
    refine ⟨?_, ?_, ?_, ?_⟩
    · exact .of_fresh (by simp [hmem]) (by simp [hmem]) (by simp [hmem])
    · exact .of_fresh (by simp [hmem]) (by simp [hmem]) (by simp [hmem])
    · exact .of_fresh (by simp [hmem]) (by simp [hmem]) (by simp [Prepared])
    rw [holds_writeBytes (by simp [hmem])]
    simp only [Finmap.mem_insert, hmem, reduceCtorEq, or_self, decide_false, Bool.and_false,
      Bool.false_eq_true, if_false]
    refine ⟨?_, ?_, ?_, ?_⟩
    · exact .of_fresh (by simp [hmem]) (by simp [hmem]) (by simp [Prepared])
    · exact .of_fresh (by simp [hmem]) (by simp [hmem]) (by simp [Prepared])
    · exact .of_fresh (by simp [hmem]) (by simp [hmem]) (by simp [Prepared])
    rw [holds_writeBytes (by simp [hmem])]
    simp only [Finmap.mem_insert, hmem, reduceCtorEq, or_self, decide_false, Bool.and_false,
      Bool.false_eq_true, if_false]
    refine ⟨?_, ?_, ?_, .inr ⟨?_, ?_, ?_, ?_⟩⟩
    · exact .of_fresh (by simp [hmem]) (by simp [hmem]) (by simp [Prepared])
    · exact .of_fresh (by simp [hmem]) (by simp [hmem]) (by simp [Prepared])
    · exact .of_fresh (by simp [hmem]) (by simp [hmem]) (by simp [Prepared])
    · exact .of_fresh (by simp [hmem]) (by simp [hmem]) (by simp [Prepared])
    · intro path owner
      simp [hmem]
    · simp [Prepared]
    · simp
  · exact .inl trivial

/-! ## Histories -/

inductive Stop
  | none
  | killed (step : ℕ)
  | signalled (step : ℕ) (signum : Signal) (wait : Wait) (killed : Option ℕ)

inductive Invocation
  | runMode (pid : ℕ) (stop : Stop)
  | recoverMode (pid elapsed : ℕ) (killed : Option ℕ)

/-- The root after a program, or after those of its steps that came before a kill. -/
def rootAfter {α : Type} (p : Program α) (killed : Option ℕ) (root : Root) : Root :=
  match killed with
  | some step => (p.advance step root).2
  | none => (p.run root).2

def Invocation.leaves : Invocation → Root → Root
  | .runMode pid .none, root => ((run pid).run root).2
  | .runMode pid (.killed step), root => ((run pid).advance step root).2
  | .runMode pid (.signalled step signum wait killed), root =>
    rootAfter (handleSignal pid signum wait) killed ((run pid).advance step root).2
  | .recoverMode pid elapsed killed, root => rootAfter (recover pid elapsed) killed root

/-- A signalled run that is not killed, or any invocation after the journal was published, leaves
a transaction that is closed or that a later recovery closes. -/
def Invocation.Recovers (invocation : Invocation) (root : Root) : Prop :=
  match invocation with
  | .runMode _ (.signalled _ _ _ none) => Ends (invocation.leaves root)
  | _ => Name.journal ∈ invocation.leaves root → Ends (invocation.leaves root)

/-- A kill or a signal falls where the root holds what a recovery accepts. -/
def Invocation.Undisturbed (invocation : Invocation) (root : Root) : Prop :=
  match invocation with
  | .runMode _ .none => True
  | .runMode pid (.signalled step _ wait none) =>
    Interruptible wait ((run pid).advance step root).2
  | .recoverMode _ _ none => True
  | _ => Name.journal ∈ invocation.leaves root → Quiet (invocation.leaves root)

/-- A condition on every invocation of a history. -/
def Through (condition : Invocation → Root → Prop) : List Invocation → Root → Prop
  | [], _ => True
  | invocation :: history, root =>
    condition invocation root ∧ Through condition history (invocation.leaves root)

/-- What holds between the invocations of a history that recovers. -/
structure Sound (root : Root) : Prop where
  sentinel : Name.sentinel ∈ root
  acceptable : Name.journal ∈ root → Acceptable root

theorem Sound.forward (h : Sound s) : Forward s :=
  ⟨h.sentinel, fun hjournal => (h.acceptable hjournal).symm.imp_left fun hprepared => hprepared.2⟩

theorem rootAfter_always {α : Type} {p : Program α} {invariant : Root → Prop}
    (h : Always noFault invariant p s) (hs : invariant s) (killed : Option ℕ) :
    invariant (rootAfter p killed s) := by
  cases killed with
  | none => exact h.run hs
  | some step => exact h.advance hs step

theorem run_forward (hs : Forward s) (pid step : ℕ) : Forward ((run pid).advance step s).2 := by
  have hrun : Always noFault Forward (run pid) s := by
    apply (run_holds pid).weaken
    · exact fun _ _ h => h.elim
    · rintro _ t (rfl | h)
      · exact hs
      · exact h.1
  exact hrun.advance hs step

/-- A run that ends without a signal. -/
theorem run_acceptable (hs : Sound s) (pid : ℕ) (hjournal : Name.journal ∈ ((run pid).run s).2) :
    Acceptable ((run pid).run s).2 := by
  have hrun := (run_holds (s := s) pid).mono (fun _ _ _ => trivial) (fun _ _ h => h) fun _ _ h => h
  rw [holds_noFault_iff] at hrun
  cases hresult : ((run pid).run s).1 with
  | inl e =>
    rw [hresult] at hrun
    obtain hsame | ⟨-, haccept⟩ := hrun
    · rw [hsame] at hjournal ⊢
      exact hs.acceptable hjournal
    · exact .inr haccept
  | inr result =>
    rw [hresult] at hrun
    exact hrun.elim

/-- A recovery that is not killed. -/
theorem recover_acceptable (hs : Sound s) (pid elapsed : ℕ)
    (hjournal : Name.journal ∈ ((recover pid elapsed).run s).2) :
    Acceptable ((recover pid elapsed).run s).2 := by
  have hrecover : Holds noFault (fun _ _ => True) (fun _ t => Name.journal ∈ t → Acceptable t)
      (fun _ t => Name.journal ∈ t → Acceptable t) (recover pid elapsed) s := by
    apply recover_holds (fun _ => hs.acceptable) hs.acceptable
    intro hprepared hreceipt
    have haccept := hs.acceptable (Finmap.mem_of_lookup_eq_some hprepared)
    have htemporary : NoTemporary s := by
      refine (haccept.resolve_left fun hsettled => hreceipt ?_).1
      simp [hsettled.mem_iff]
    have hswept : Acceptable (swept s) := by
      apply haccept.of_lookup fun n hn => lookup_swept hn
      intro n hn
      rw [mem_swept]
      exact fun h => h.1 hn
    apply finishCleanup_holds hs.sentinel htemporary trivial
    · exact fun _ _ _ _ => trivial
    · exact fun _ _ _ _ _ => trivial
    · exact fun _ _ _ => hswept
    · exact fun _ _ _ => hswept
    · intro hintime _
      exact ⟨trivial, trivial, fun _ => .inl
        (settled_cleaned hs.sentinel htemporary hreceipt (by decide) hintime)⟩
  rw [holds_noFault_iff] at hrecover
  cases hresult : ((recover pid elapsed).run s).1 with
  | inl e =>
    rw [hresult] at hrecover
    exact hrecover hjournal
  | inr result =>
    rw [hresult] at hrecover
    exact hrecover hjournal

theorem sentinel_leaves (hs : Name.sentinel ∈ s) (invocation : Invocation) :
    Name.sentinel ∈ invocation.leaves s := by
  have hkept : Name.sentinel ∉ transientNames := by decide
  cases invocation with
  | runMode pid stop =>
    cases stop with
    | none => exact (run_keeps hs pid).run hs
    | killed step => exact (run_keeps hs pid).advance hs step
    | signalled step signum wait killed =>
      have hsignalled := (run_keeps hs pid).advance hs step
      exact rootAfter_always (handleSignal_keeps hsignalled hkept _ _ _) hsignalled _
  | recoverMode pid elapsed killed =>
    exact rootAfter_always (recover_keeps hs hkept _ _) hs _

theorem NoTemporary.of_keeps {α : Type} {p : Program α} {killed : Option ℕ}
    (hkeeps : ∀ n, n ∈ s → n ∉ transientNames → Always noFault (n ∈ ·) p s)
    (h : NoTemporary (rootAfter p killed s)) : NoTemporary s := by
  intro path pid hpresent
  exact h path pid (rootAfter_always (hkeeps _ hpresent (by simp [transientNames])) hpresent _)

/-- What one invocation leaves can be recovered if and only if it was not disturbed. -/
theorem recovers_iff_undisturbed (hs : Sound s) (invocation : Invocation) :
    invocation.Recovers s ↔ invocation.Undisturbed s := by
  have hsentinel := sentinel_leaves hs.sentinel invocation
  have hkilled (htracked : NoTemporary (invocation.leaves s) → Tracked (invocation.leaves s)) :
      (Name.journal ∈ invocation.leaves s → Ends (invocation.leaves s)) ↔
        (Name.journal ∈ invocation.leaves s → Quiet (invocation.leaves s)) :=
    imp_congr_right fun hjournal => ends_iff_quiet hsentinel hjournal htracked
  cases invocation with
  | runMode pid stop =>
    cases stop with
    | none =>
      refine iff_of_true (fun hjournal => ?_) trivial
      exact (ends_iff_acceptable hsentinel).mpr (run_acceptable hs pid hjournal)
    | killed step => exact hkilled fun _ => (run_forward hs.forward pid step).tracked
    | signalled step signum wait killed =>
      have hforward := run_forward hs.forward pid step
      have hkeeps := fun n hn hkept => handleSignal_keeps (n := n) (s := ((run pid).advance step s).2)
        hn hkept pid signum wait
      cases killed with
      | some kill =>
        refine hkilled fun htemporary => ?_
        have hfree := NoTemporary.of_keeps hkeeps htemporary
        exact rootAfter_always (handleSignal_tracked hforward.sentinel hfree hforward.tracked _ _ _)
          hforward.tracked _
      | none =>
        by_cases htemporary : NoTemporary ((run pid).advance step s).2
        · exact handleSignal_ends hforward htemporary pid signum wait
        · refine iff_of_false (fun hends => htemporary ?_) fun h => htemporary h.1
          have haccept := (ends_iff_acceptable hsentinel).mp hends
          have hfree : NoTemporary
              (rootAfter (handleSignal pid signum wait) none ((run pid).advance step s).2) :=
            haccept.elim (fun h => h.noTemporary) fun h => h.1
          exact NoTemporary.of_keeps hkeeps hfree
  | recoverMode pid elapsed killed =>
    cases killed with
    | none =>
      refine iff_of_true (fun hjournal => ?_) trivial
      exact (ends_iff_acceptable hsentinel).mpr (recover_acceptable hs pid elapsed hjournal)
    | some kill =>
      refine hkilled fun htemporary => ?_
      have hfree := NoTemporary.of_keeps (fun n hn hkept => recover_keeps hn hkept pid elapsed) htemporary
      exact rootAfter_always (recover_tracked hs.sentinel hfree hs.forward.tracked _ _)
        hs.forward.tracked _

theorem Invocation.Recovers.ends {invocation : Invocation} (h : invocation.Recovers s)
    (hjournal : Name.journal ∈ invocation.leaves s) : Ends (invocation.leaves s) := by
  unfold Invocation.Recovers at h
  split at h
  · exact h
  · exact h hjournal

theorem through_recovers_iff (history : List Invocation) (hs : Sound s) :
    Through Invocation.Recovers history s ↔ Through Invocation.Undisturbed history s := by
  induction history generalizing s with
  | nil => exact Iff.rfl
  | cons invocation history ih =>
    have hsentinel := sentinel_leaves hs.sentinel invocation
    simp only [Through, ← recovers_iff_undisturbed hs invocation]
    refine and_congr_right fun hrecovers => ih ⟨hsentinel, fun hjournal => ?_⟩
    exact (ends_iff_acceptable hsentinel).mp (hrecovers.ends hjournal)

theorem recover_closed (h : Closed s) (pid elapsed : ℕ) (killed : Option ℕ) :
    rootAfter (recover pid elapsed) killed s = s := by
  have hsame : Always noFault (· = s) (recover pid elapsed) s :=
    recover_holds (fun _ => rfl) rfl fun hprepared => absurd h hprepared.not_closed
  exact rootAfter_always hsame rfl killed

theorem sound_freshRoot : Sound freshRoot where
  sentinel := by decide
  acceptable := fun h => absurd h (by decide)

/-- Every invocation of a history recovers if and only if no interruption of it falls where the root
holds what a recovery does not accept; and a recovery of a closed transaction changes nothing. -/
theorem recovers_iff_quiet (history : List Invocation) :
    (Through Invocation.Recovers history freshRoot ↔ Through Invocation.Undisturbed history freshRoot) ∧
      ∀ root pid elapsed killed, Closed root →
        rootAfter (recover pid elapsed) killed root = root :=
  ⟨through_recovers_iff history sound_freshRoot, fun _ pid elapsed killed h =>
    recover_closed h pid elapsed killed⟩

/-- HUP after the temporary file of the mutation was opened. -/
def publicationSignal : List Invocation :=
  [.runMode 4711 (.signalled 8 .hup ⟨true, 10 ^ 6⟩ none)]

theorem publication_signal_is_stuck : ¬ Through Invocation.Recovers publicationSignal freshRoot := by
  intro h
  rw [through_recovers_iff _ sound_freshRoot] at h
  have hopened : .temporary .mutation 4711 ∈ ((run 4711).advance 8 freshRoot).2 := by decide
  exact h.1.1 _ _ hopened

/-- HUP when the marker is ready -/
def readySignal : List Invocation :=
  [.runMode 4711 (.signalled 17 .hup ⟨true, 10 ^ 6⟩ none), .recoverMode 4712 0 none]

theorem ready_signal_recovers : Through Invocation.Recovers readySignal freshRoot := by
  have hkeys : ((run 4711).advance 17 freshRoot).2.keys = {.sentinel, .journal, .mutation, .ready} := by
    decide
  have hmem (n : Name) : n ∈ ((run 4711).advance 17 freshRoot).2 ↔
      n = .sentinel ∨ n = .journal ∨ n = .mutation ∨ n = .ready := by
    rw [← Finmap.mem_keys, hkeys]
    simp
  have hquiet : NoTemporary ((run 4711).advance 17 freshRoot).2 := by
    intro path pid
    simp [hmem]
  have hjournal : Name.journal ∈ ((run 4711).advance 17 freshRoot).2 := by
    simp [hmem]
  exact (recovers_iff_quiet readySignal).1.mpr ⟨⟨hquiet, .inl hjournal⟩, trivial, trivial⟩

end DestructiveFixture
