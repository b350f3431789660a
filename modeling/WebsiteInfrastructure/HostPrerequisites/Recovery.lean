import Mathlib
import WebsiteInfrastructure.HostPrerequisites.Coverage

/-!
# When a rollback gets through

After a kill or a loss of power the rollback of the transaction that is held succeeds, unless the
pending state is still empty, a setting of a module that is gone is to be written, or a swap is on
that the transaction has not saved.
-/

namespace HostPrerequisites

open Crash

variable {site : Site} {base : Option Managed} {s t u : Host} {i : Id} {p : Saved}

/-! ## Outages -/

/-- A run of a script that ends, is killed, or is cut off by a loss of power. After the reboot the
modules are those that are named or that the system loads, and swaps come from `/etc/fstab`. -/
inductive Outage (site : Site) : Host → Host → Prop
  | kill {s t : Host} (h : Attempt site s t) : Outage site s t
  | powerLoss {s t : Host} (h : Attempt site s t) (overlay bridge : Bool) (values : SysctlKey → ℕ)
      (swaps : Finset Source) (hswaps : swaps ⊆ site.fstabSwaps t.fstab) :
      Outage site s (t.reboot site overlay bridge values swaps)

/-- A rollback of the transaction that is held succeeds, and so does a rollback, or there may be
another application, where the pending state is empty. Every command succeeds on what exists. -/
def Recoverable (s : Host) : Prop :=
  (∀ i, s.Names i → ((rollback i).run s).1 = .inr ()) ∧
    (s.pending = some none → (∃ i, ((rollback i).run s).1 = .inr ()) ∨ applyAdmitted s = true)

/-- The kernel has what the transaction is restored to. -/
structure Resumable (s : Host) (i : Id) : Prop where
  swaps : s.swaps ⊆ (s.transaction i).activeSwapsPre.getD ∅
  bridge : ∀ k n, k.moduleGated = true →
    transactionOldSysctlValue (s.transaction i) k = .value n → s.bridge = true

theorem covered_reboot (h : Covered site none s) (overlay bridge : Bool) (values : SysctlKey → ℕ)
    (swaps : Finset Source) : Covered site none (s.reboot site overlay bridge values swaps) := by
  cases h with
  | inl hclosed => exact .inl ⟨hclosed.active, hclosed.pending, fun b hb => by cases hb⟩
  | inr hopen =>
    obtain ⟨i, p, hopen, hheld⟩ := hopen
    refine .inr ⟨i, p, ⟨hopen.stored, hopen.valid, hopen.machine, hopen.modules, hopen.sysctlFile,
      hopen.fstab, fun b hb => by cases hb⟩, ?_⟩
    cases hheld with
    | pending hpending hactive => exact .pending hpending hactive
    | active hactive hcomplete hpending => exact .active hactive hcomplete hpending

theorem covered_of_outages (h : Relation.ReflTransGen (Outage site) s t)
    (hs : Covered site none s) : Covered site none t := by
  induction h with
  | refl => exact hs
  | tail _ houtage ih =>
    cases houtage with
    | kill hattempt => exact hattempt.covered ih
    | powerLoss hattempt overlay bridge values swaps =>
      exact covered_reboot (hattempt.covered ih) overlay bridge values swaps

/-! ## Admission -/

theorem Open.manifest_eq (h : Open site base s i p) : s.manifest i = p.lines site i := by
  simp [Host.manifest, Host.transaction, h.stored, Saved.files]

theorem Open.transaction_eq (h : Open site base s i p) : s.transaction i = p.files site i := by
  simp [Host.transaction, h.stored]

theorem validActiveLines_saved (h : Open site base s i p) (hcomplete : p.Complete) :
    validActiveLines s (p.activeLines site i) i = true := by
  have hvalid := validateTransaction_saved h.stored h.valid
  have hlate : unavailableKeys (p.lines site i) = [] ∨
      isTagged ((p.lines site i).dataValue .lateSysctlsState) = true := by
    cases hcomplete with
    | inl hnone => exact .inl (by rw [Saved.unavailableKeys_lines, hnone])
    | inr htagged => exact .inr (by simp [Saved.lateState, htagged, isTagged])
  have hkeys : ((p.activeLines site i).all fun line => line.1 ∈ requiredActiveKeys) = true := by
    simp [Saved.activeLines, requiredActiveKeys, activeHashKeys]
  have hcounts : (requiredActiveKeys.all fun key =>
      ((p.activeLines site i).dataValue key).length = 1) = true := rfl
  have hhashes : (activeHashKeys.all fun key =>
      isHash ((p.activeLines site i).dataValue key)) = true := rfl
  have hsame : ((activeHashKeys ++ [Key.swapAction]).all fun key =>
      (p.activeLines site i).dataValue key = (p.lines site i).dataValue key) = true := by
    simp only [List.all_eq_true, decide_eq_true_eq]
    intro key hkey
    simp only [activeHashKeys, List.cons_append, List.nil_append, List.mem_cons,
      List.not_mem_nil, or_false] at hkey
    rcases hkey with rfl | rfl | rfl | rfl | rfl | rfl <;> rfl
  have hmachine : (p.activeLines site i).dataValue .machineIdSha256 =
      [.digest (.machine s.machineId)] := by
    rw [h.machine]
    rfl
  unfold validActiveLines
  rw [h.manifest_eq, hkeys, hcounts, hhashes, hsame, hvalid]
  have hversion : (p.activeLines site i).dataValue .stateVersion = [.number 1] := rfl
  have hstatus : (p.activeLines site i).dataValue .status = [.active] := rfl
  have haction : isSwapAction ((p.activeLines site i).dataValue .swapAction) = true := rfl
  simpa [hversion, hstatus, haction, hmachine] using hlate

theorem rollbackAdmitted_of_held (h : Open site base s i p) (hheld : Held site s i p) :
    rollbackAdmitted s i = true := by
  unfold rollbackAdmitted
  cases hheld with
  | pending hpending hactive => simp [hpending, hactive]
  | active hactive hcomplete hpending =>
    have hvalid := validActiveLines_saved h hcomplete
    have hid : (p.activeLines site i).dataValue .transactionId = [.transaction i] := rfl
    have hnames : s.ActiveNames i := ⟨_, hactive, hid⟩
    cases hpending with
    | inl hpending => simp [hpending, hactive, validateActiveState, hid, hvalid, hnames]
    | inr hpending => simp [hpending, hactive, validateActiveState, hid, hvalid, hnames]

theorem rollbackReady_of_open (h : Open site base s i p) (hswaps : s.swaps ⊆ p.swaps) :
    checkTransactionRollbackReady s i = true := by
  have hvalid := validateTransaction_saved h.stored h.valid
  have hmodules : undrifted (p.lines site i) .modulesPrestate .desiredModulesSha256 s.modules =
      true := by
    unfold undrifted
    cases h.modules with
    | inl hsame => simp [hsame]
    | inr hnew => simp [hnew]
  have hsysctl : undrifted (p.lines site i) .sysctlPrestate .desiredSysctlSha256 s.sysctlFile =
      true := by
    unfold undrifted
    cases h.sysctlFile with
    | inl hsame => simp [hsame]
    | inr hnew => simp [hnew]
  have hfstab : p.fstab = s.fstab ∨ p.fstabPost = s.fstab := h.fstab.imp Eq.symm Eq.symm
  unfold checkTransactionRollbackReady
  rw [h.manifest_eq, h.transaction_eq]
  simp [hvalid, hmodules, hsysctl, hfstab, h.machine, Saved.files, hswaps]

/-! ## A restoration that gets through -/

theorem restoreSysctls_succeeds (keys : List SysctlKey) (s : Host)
    (hbridge : ∀ k n, k.moduleGated = true → p.old k = .value n → s.bridge = true)
    (hvalid : p.Valid) :
    Holds noFault (fun _ _ => True)
      (fun ok u => ok = true ∧ (∃ v, u = { s with values := v }) ∧
        ∀ k n, p.old k = .value n → k ∈ keys ∨ s.value? k = some n → u.value? k = some n)
      (fun _ _ => False) (restoreSysctls (p.files site i) keys) s := by
  induction keys generalizing s with
  | nil => exact ⟨rfl, ⟨s.values, rfl⟩, fun k n _ h => h.resolve_left List.not_mem_nil⟩
  | cons k keys ih =>
    unfold restoreSysctls
    rw [Saved.transactionOldSysctlValue_files]
    cases hold : p.old k with
    | invalid => exact absurd hold (Saved.old_ne_invalid hvalid k)
    | uncaptured =>
      rw [holds_bind]
      apply (ih s hbridge).seq
      · exact fun _ _ hfalse => hfalse
      · rintro rest u ⟨rfl, hframe, hvalues⟩
        refine ⟨rfl, hframe, fun k' n' hold' h => hvalues k' n' hold' ?_⟩
        rcases h with hmem | hset
        · rcases List.mem_cons.mp hmem with rfl | hmem
          · rw [hold] at hold'
            cases hold'
          · exact .inl hmem
        · exact .inr hset
    | value n =>
      have hset : (s.value? k).isSome = true := by
        cases hgated : k.moduleGated with
        | false => simp [Host.value?, hgated]
        | true => simp [Host.value?, hbridge k n hgated hold]
      have hwritten := Host.value?_setValue n hset
      simp only [writeSysctl, holds_bind, holds_succeeds, holds_get, hset, Bool.and_true, holds_ite,
        holds_modify, holds_pure, if_true]
      refine ⟨⟨trivial, ?_⟩, fun hf => hf.elim⟩
      apply (ih (s.setValue k n) hbridge).weaken
      · rintro rest u ⟨rfl, ⟨v, hframe⟩, hvalues⟩
        refine ⟨rfl, ⟨v, by rw [hframe]; rfl⟩, fun k' n' hold' h => hvalues k' n' hold' ?_⟩
        by_cases hk : k' = k
        · subst hk
          rw [hold] at hold'
          cases hold'
          exact .inr hwritten
        · rcases h with hmem | hset'
          · exact .inl (List.mem_of_ne_of_mem hk hmem)
          · exact .inr (by rwa [Host.value?_setValue_of_ne n hk])
      · exact fun _ _ hfalse => hfalse

theorem restoreSwaps_succeeds (sources : List Source) (s : Host) :
    Holds noFault (fun _ _ => True)
      (fun ok u => ok = true ∧ u = { s with swaps := sources.toFinset ∪ s.swaps })
      (fun _ _ => False) (restoreSwaps sources) s := by
  induction sources generalizing s with
  | nil => simp [restoreSwaps]
  | cons source sources ih =>
    simp only [restoreSwaps, swapon, holds_bind, holds_succeeds, if_true, holds_modify, holds_pure]
    refine ⟨⟨trivial, ?_⟩, fun hf => hf.elim⟩
    apply (ih _).weaken
    · rintro rest u ⟨rfl, rfl⟩
      simp [Finset.insert_union]
    · exact fun _ _ hfalse => hfalse

/-- With the modules that are needed, everything saved is restored. -/
theorem restoreHost_succeeds (hvalid : p.Valid) (hswaps : s.swaps ⊆ p.swaps)
    (hbridge : ∀ k n, k.moduleGated = true → p.old k = .value n → s.bridge = true) :
    Holds noFault (fun _ _ => True)
      (fun ok u => ok = true ∧ restored u (p.files site i) = true) (fun _ _ => False)
      (restoreHost (p.files site i)) s := by
  unfold restoreHost
  rw [restoreModules_files, restoreSysctlFile_files, restoreFstab_files]
  simp only [holds_bind, holds_modify, true_and]
  have hsettings := @restoreSysctls_succeeds site i p sysctlKeys
    { s with modules := p.modules, sysctlFile := p.sysctlFile, fstab := p.fstab } hbridge hvalid
  apply hsettings.weaken
  · rintro ok u ⟨rfl, ⟨v, hframe⟩, hvalues⟩
    rw [holds_get]
    apply (restoreSwaps_succeeds _ u).weaken
    · rintro ok' w ⟨rfl, rfl⟩
      refine ⟨rfl, restored_files.mpr ⟨by rw [hframe], by rw [hframe], by rw [hframe], ?_, ?_⟩⟩
      · have hold : u.swaps = s.swaps := by rw [hframe]
        simp [hold, Saved.files, Finset.sdiff_union_of_subset hswaps]
      · intro k
        have hset : ∀ n, p.old k = .value n → u.value? k = some n := fun n hn =>
          hvalues k n hn (.inl (SysctlKey.mem_sysctlKeys k))
        exact sysctlRestored_files.mpr ⟨Saved.old_ne_invalid hvalid k, hset⟩
    · exact fun _ _ hfalse => hfalse
  · exact fun _ _ hfalse => hfalse

theorem resumable_iff (h : Open site base s i p) : Resumable s i ↔ s.swaps ⊆ p.swaps ∧
    ∀ k n, k.moduleGated = true → p.old k = .value n → s.bridge = true := by
  have hold : ∀ k, transactionOldSysctlValue (s.transaction i) k = p.old k := by
    intro k
    rw [h.transaction_eq, Saved.transactionOldSysctlValue_files]
  have hsaved : (s.transaction i).activeSwapsPre.getD ∅ = p.swaps := by
    rw [h.transaction_eq]
    rfl
  constructor
  · rintro ⟨hswaps, hbridge⟩
    rw [hsaved] at hswaps
    exact ⟨hswaps, fun k n hgated hk => hbridge k n hgated (by rw [hold, hk])⟩
  · rintro ⟨hswaps, hbridge⟩
    refine ⟨by rwa [hsaved], fun k n hgated hk => hbridge k n hgated ?_⟩
    rwa [hold] at hk

theorem rollback_succeeds (h : Open site base s i p) (hheld : Held site s i p)
    (hresumable : Resumable s i) : ((rollback i).run s).1 = .inr () := by
  obtain ⟨hswaps, hbridge⟩ := (resumable_iff h).mp hresumable
  have hadmitted := rollbackAdmitted_of_held h hheld
  have hready := rollbackReady_of_open h hswaps
  have hholds : Holds noFault (fun _ _ => True) (fun _ _ => True) (fun _ _ => False)
      (rollback i) s := by
    unfold rollback restoreTransaction
    simp only [holds_bind, holds_get, holds_require, holds_orExit, hadmitted, hready, if_true,
      holds_ite, h.transaction_eq]
    refine ⟨?_, fun hf => hf⟩
    apply (restoreHost_succeeds h.valid hswaps hbridge).weaken
    · rintro ok u ⟨rfl, hrestored⟩
      simp [hrestored, removeActive, removePending, noteRolledBack]
    · exact fun _ _ hfalse => hfalse
  obtain ⟨a, hrun, -⟩ := hholds.run_ret
  rw [hrun]

/-- A rollback that returns had what it needs. -/
theorem rollback_needs (h : Open site base s i p) :
    Holds noFault (fun _ _ => True) (fun _ _ => Resumable s i) (fun _ _ => True) (rollback i) s := by
  unfold rollback
  simp only [holds_bind, holds_get, holds_require, holds_orExit]
  by_cases hadmitted : rollbackAdmitted s i = true
  · rw [if_pos hadmitted]
    by_cases hready : checkTransactionRollbackReady s i = true
    · rw [if_pos hready, if_pos hready]
      refine ⟨?_, fun _ => trivial⟩
      have hswaps : s.swaps ⊆ (s.transaction i).activeSwapsPre.getD ∅ := by
        simp only [checkTransactionRollbackReady, Bool.and_eq_true] at hready
        simpa [h.transaction_eq, Saved.files] using hready.2
      have hbridge : Holds noFault (fun u v => v.bridge = u.bridge) (fun _ _ => True)
          (fun _ _ => True) (restoreTransaction i) s := restoreTransaction_bridge h.stored
      have hstart : (fun u : Host => u.bridge = s.bridge) s := rfl
      have hkept := hbridge.carry hstart fun u v hu hv => hv.trans hu
      apply ((restoreTransaction_post s i).and hkept).mono
      · exact fun _ _ _ => trivial
      · rintro ok u ⟨hpost, -, hsame⟩
        split_ifs with hok
        · have hrecorded := (hpost hok).1
          refine ⟨hswaps, fun k n hgated hold => ?_⟩
          have hset := hrecorded.values k n hold
          rw [← hsame]
          by_contra hgone
          simp [Host.value?, hgated, hgone] at hset
      · exact fun _ _ _ => trivial
    · rw [if_neg hready]
      trivial
  · rw [if_neg hadmitted]
    trivial

theorem resumable_of_rollback (h : Open site base s i p)
    (hrun : ((rollback i).run s).1 = .inr ()) : Resumable s i := by
  have hneeds := (rollback_needs h).run
  rw [hrun] at hneeds
  exact hneeds

/-- No rollback is admitted by a pending state without content. -/
theorem rollback_refused (hpending : s.pending = some none) (i : Id) :
    ((rollback i).run s).1 ≠ .inr () := by
  have hadmitted : rollbackAdmitted s i = false := by simp [rollbackAdmitted, hpending]
  have hexits : Holds noFault (fun _ _ => True) (fun _ _ => False) (fun _ _ => True)
      (rollback i) s := by
    simp [rollback, hadmitted]
  intro hrun
  have hresult := hexits.run
  rw [hrun] at hresult
  exact hresult

theorem rollback_recovers_iff (site : Site) (s t : Host) (hs : applyAdmitted s = true)
    (ht : Relation.ReflTransGen (Outage site) s t) :
    Recoverable t ↔ t.pending ≠ some none ∧ ∀ i, t.Names i → Resumable t i := by
  have hstart := @closed_of_applyAdmitted site s hs
  have hcovered := covered_of_outages ht
    (.inl ⟨hstart.active, hstart.pending, fun b hb => by cases hb⟩)
  have hopened : ∀ i, t.Names i → ∃ p, Open site none t i p ∧ Held site t i p := by
    intro i hnames
    cases hcovered with
    | inl hclosed => exact absurd hnames (hclosed.not_names i)
    | inr hopen =>
      obtain ⟨j, p, hopen, hheld⟩ := hopen
      have hid : i = j := hheld.names_iff.mp hnames
      subst hid
      exact ⟨p, hopen, hheld⟩
  constructor
  · rintro ⟨hnamed, hempty⟩
    refine ⟨fun hpending => ?_, fun i hnames => ?_⟩
    · cases hempty hpending with
      | inl hrollback =>
        obtain ⟨i, hrun⟩ := hrollback
        exact rollback_refused hpending i hrun
      | inr hadmitted => simp [applyAdmitted, hpending] at hadmitted
    · obtain ⟨p, hopen, -⟩ := hopened i hnames
      exact resumable_of_rollback hopen (hnamed i hnames)
  · rintro ⟨hpending, hresumable⟩
    refine ⟨fun i hnames => ?_, fun hempty => absurd hempty hpending⟩
    obtain ⟨p, hopen, hheld⟩ := hopened i hnames
    exact rollback_succeeds hopen hheld (hresumable i hnames)

/-- An application killed with the pending state written, on the sample host. -/
theorem rollback_recovers_iff_sample :
    Recoverable (killedApply 13) ↔ (killedApply 13).pending ≠ some none ∧
      ∀ i, (killedApply 13).Names i → Resumable (killedApply 13) i :=
  rollback_recovers_iff sampleSite sampleHost (killedApply 13) (by decide)
    (.single (.kill (attempt_killedApply 13)))

/-- An application killed between the opening and the filling of the pending state leaves a host
on which no rollback succeeds and no application is admitted. -/
theorem empty_pending_is_stuck : ∃ site s t, applyAdmitted s = true ∧ Outage site s t ∧
    ¬ Recoverable t := by
  refine ⟨sampleSite, sampleHost, killedApply 12, by decide,
    .kill (attempt_killedApply 12), ?_⟩
  have hpending : (killedApply 12).pending = some none := by decide
  rintro ⟨-, hempty⟩
  cases hempty hpending with
  | inl hrollback =>
    obtain ⟨i, hrun⟩ := hrollback
    exact rollback_refused hpending i hrun
  | inr hadmitted => simp [applyAdmitted, hpending] at hadmitted

end HostPrerequisites
