import Mathlib
import WebsiteInfrastructure.HostPrerequisites.Records

/-!
# Restoring a transaction

A transaction is held by a state file from before the first change until everything is back. The
invariant is the same for a run of the scripts and for a host on which they were killed.
-/

namespace HostPrerequisites

open Crash

/-! ## What is managed -/

/-- The managed files, settings and swaps. -/
structure Managed where
  modules : Option Content
  sysctlFile : Option Content
  fstab : Content
  swaps : Finset Source
  values : SysctlKey → ℕ

namespace Host

variable (site : Site) (s : Host)

/-- The value of a setting, or the one that it gets when its module is loaded. -/
def settled (k : SysctlKey) : ℕ :=
  if k.moduleGated && !s.bridge then site.loadedValue k else s.values k

def managed : Managed := ⟨s.modules, s.sysctlFile, s.fstab, s.swaps, s.settled site⟩

variable {site s}

theorem settled_of_value? {k : SysctlKey} {n : ℕ} (h : s.value? k = some n) :
    s.settled site k = n := by
  unfold value? at h
  unfold settled
  split_ifs at h ⊢ with hgated
  simpa using h

theorem settled_loadBridge : (s.loadBridge site).settled site = s.settled site := by
  funext k
  by_cases hbridge : s.bridge
  · simp [loadBridge, hbridge]
  · by_cases hgated : k.moduleGated <;> simp [loadBridge, settled, hbridge, hgated]

theorem managed_loadBridge : (s.loadBridge site).managed site = s.managed site := by
  unfold managed
  rw [settled_loadBridge]
  by_cases hbridge : s.bridge <;> simp [loadBridge, hbridge]

theorem settled_setValue_of_ne {k k' : SysctlKey} (n : ℕ) (h : k' ≠ k) :
    (s.setValue k n).settled site k' = s.settled site k' := by
  simp [settled, setValue, Function.update_of_ne h]

theorem value?_setValue {k : SysctlKey} (n : ℕ) (h : (s.value? k).isSome = true) :
    (s.setValue k n).value? k = some n := by
  by_cases hgated : (k.moduleGated && !s.bridge) = true
  · simp [value?, hgated] at h
  · simp [value?, setValue, hgated]

theorem value?_setValue_of_ne {k k' : SysctlKey} (n : ℕ) (h : k' ≠ k) :
    (s.setValue k n).value? k' = s.value? k' := by
  simp [value?, setValue, Function.update_of_ne h]

end Host

theorem fileState_injective : Function.Injective fileState := by
  intro c d h
  cases c <;> cases d <;> simp_all [fileState]

/-! ## The invariant -/

variable {site : Site} {base : Option Managed} {s t u : Host} {i : Id} {p : Saved}

/-- What is saved is what was managed. -/
structure Saved.Saves (p : Saved) (site : Site) (b : Managed) (s : Host) : Prop where
  modules : p.modules = b.modules
  sysctlFile : p.sysctlFile = b.sysctlFile
  fstab : p.fstab = b.fstab
  swaps : p.swaps = b.swaps
  captured : ∀ k n, p.old k = .value n → b.values k = n
  /-- Before its value is captured, a setting is not changed. -/
  uncaptured : ∀ k, p.old k = .uncaptured → s.settled site k = b.values k

/-- A transaction that can be restored, on a host that is nowhere else than before it or after it. -/
structure Open (site : Site) (base : Option Managed) (s : Host) (i : Id) (p : Saved) : Prop where
  stored : s.transactions i = some (p.files site i)
  valid : p.Valid
  machine : s.machineId = p.machineId
  modules : s.modules = p.modules ∨ s.modules = some site.modulesSource
  sysctlFile : s.sysctlFile = p.sysctlFile ∨ s.sysctlFile = some site.sysctlSource
  fstab : s.fstab = p.fstab ∨ s.fstab = p.fstabPost
  saves : ∀ b ∈ base, p.Saves site b s

/-- The active state of a transaction. -/
def Saved.activeLines (p : Saved) (site : Site) (i : Id) : Lines :=
  [(.stateVersion, .number 1), (.status, .active), (.transactionId, .transaction i),
    (.planSha256, .digest (.plan p.planNumber)), (.machineIdSha256, .digest (.machine p.machineId)),
    (.appliedBootIdSha256, .digest (.boot p.bootId)),
    (.desiredModulesSha256, .digest (.file site.modulesSource)),
    (.desiredSysctlSha256, .digest (.file site.sysctlSource)),
    (.swapAction, .swapAction p.swapAction)]

/-- Every late value is captured. -/
def Saved.Complete (p : Saved) : Prop := p.unavailable = [] ∨ p.tagged = true

/-- The state files name the transaction. -/
inductive Held (site : Site) (s : Host) (i : Id) (p : Saved) : Prop
  | pending (hpending : s.pending = some (some i)) (hactive : s.active = none)
  | active (hactive : s.active = some (p.activeLines site i)) (hcomplete : p.Complete)
      (hpending : s.pending = some (some i) ∨ s.pending = none)

/-- No transaction is held, and everything managed is as it was. -/
structure Closed (site : Site) (base : Option Managed) (s : Host) : Prop where
  active : s.active = none
  pending : s.pending = none ∨ s.pending = some none
  managed : ∀ b ∈ base, s.managed site = b

/-- A transaction that was prepared and that may be over. -/
structure Kept (site : Site) (base : Option Managed) (i : Id) (p : Saved) (s : Host) : Prop where
  opened : Open site base s i p
  files : Held site s i p ∨ Closed site base s

/-- Either nothing is changed or the change can be taken back. -/
def Covered (site : Site) (base : Option Managed) (s : Host) : Prop :=
  Closed site base s ∨ ∃ i p, Open site base s i p ∧ Held site s i p

theorem Kept.covered (h : Kept site base i p s) : Covered site base s := by
  cases h.files with
  | inl hheld => exact .inr ⟨i, p, h.opened, hheld⟩
  | inr hclosed => exact .inl hclosed

theorem Held.names (h : Held site s i p) : s.Names i := by
  cases h with
  | pending hpending => exact .inl hpending
  | active hactive => exact .inr ⟨_, hactive, rfl⟩

theorem Closed.not_names (h : Closed site base s) (j : Id) : ¬ s.Names j := by
  have hactive := h.active
  rintro (hpending | ⟨lines, hlines, -⟩)
  · cases h.pending <;> simp_all
  · simp_all

theorem Held.names_iff (h : Held site s i p) {j : Id} : s.Names j ↔ j = i := by
  constructor
  · rintro (hpending | ⟨lines, hlines, hid⟩)
    · cases h with
      | pending hi => simp_all
      | active _ _ hi => cases hi <;> simp_all
    · cases h with
      | pending _ hnone => simp_all
      | active hi _ _ =>
        have heq : p.activeLines site i = lines := by simpa [hi] using hlines
        subst heq
        have hvalue : (p.activeLines site i).dataValue .transactionId = [.transaction i] := rfl
        simpa [hvalue, eq_comm] using hid
  · rintro rfl
    exact h.names

/-! ## Changes of a restoration -/

/-- A change goes back to the saved prestate, and leaves everything else. -/
structure Restores (site : Site) (p : Saved) (s t : Host) : Prop where
  modules : t.modules = s.modules ∨ t.modules = p.modules
  sysctlFile : t.sysctlFile = s.sysctlFile ∨ t.sysctlFile = p.sysctlFile
  fstab : t.fstab = s.fstab ∨ t.fstab = p.fstab
  swaps : t.swaps = s.swaps ∨ ∃ w ∈ p.swaps, t.swaps = insert w s.swaps
  values : ∀ k, t.settled site k = s.settled site k ∨ p.old k = .value (t.settled site k)
  transactions : t.transactions = s.transactions
  pending : t.pending = s.pending
  active : t.active = s.active
  machine : t.machineId = s.machineId
  bridge : t.bridge = s.bridge

theorem Restores.saves {b : Managed} (h : Restores site p s t) (hs : p.Saves site b s) :
    p.Saves site b t where
  modules := hs.modules
  sysctlFile := hs.sysctlFile
  fstab := hs.fstab
  swaps := hs.swaps
  captured := hs.captured
  uncaptured k hk := by
    cases h.values k with
    | inl hsame => rw [hsame, hs.uncaptured k hk]
    | inr hvalue => rw [hk] at hvalue; cases hvalue

theorem Restores.opened (h : Restores site p s t) (hs : Open site base s i p) :
    Open site base t i p where
  stored := by rw [h.transactions, hs.stored]
  valid := hs.valid
  machine := by rw [h.machine, hs.machine]
  modules := by
    cases h.modules with
    | inl hsame => rw [hsame]; exact hs.modules
    | inr hback => exact .inl hback
  sysctlFile := by
    cases h.sysctlFile with
    | inl hsame => rw [hsame]; exact hs.sysctlFile
    | inr hback => exact .inl hback
  fstab := by
    cases h.fstab with
    | inl hsame => rw [hsame]; exact hs.fstab
    | inr hback => exact .inl hback
  saves b hb := h.saves (hs.saves b hb)

/-- Where everything is back, a restoration changes nothing. -/
theorem Restores.managed {b : Managed} (h : Restores site p s t) (hsaves : p.Saves site b s)
    (hs : s.managed site = b) : t.managed site = b := by
  subst hs
  have hmodules : t.modules = s.modules := by
    cases h.modules with
    | inl hsame => exact hsame
    | inr hback => exact hback.trans hsaves.modules
  have hsysctl : t.sysctlFile = s.sysctlFile := by
    cases h.sysctlFile with
    | inl hsame => exact hsame
    | inr hback => exact hback.trans hsaves.sysctlFile
  have hfstab : t.fstab = s.fstab := by
    cases h.fstab with
    | inl hsame => exact hsame
    | inr hback => exact hback.trans hsaves.fstab
  have hswaps : t.swaps = s.swaps := by
    cases h.swaps with
    | inl hsame => exact hsame
    | inr hadd =>
      obtain ⟨w, hw, hadd⟩ := hadd
      rw [hsaves.swaps] at hw
      exact hadd.trans (Finset.insert_eq_of_mem hw)
  have hvalues : t.settled site = s.settled site := by
    funext k
    cases h.values k with
    | inl hsame => exact hsame
    | inr hvalue => exact (hsaves.captured k _ hvalue).symm
  simp [Host.managed, hmodules, hsysctl, hfstab, hswaps, hvalues]

theorem Restores.held (h : Restores site p s t) (hs : Held site s i p) : Held site t i p := by
  cases hs with
  | pending hpending hactive => exact .pending (h.pending.trans hpending) (h.active.trans hactive)
  | active hactive hcomplete hpending =>
    exact .active (h.active.trans hactive) hcomplete (by rwa [h.pending])

theorem Restores.kept (h : Restores site p s t) (hs : Kept site base i p s) :
    Kept site base i p t where
  opened := h.opened hs.opened
  files := by
    cases hs.files with
    | inl hheld => exact .inl (h.held hheld)
    | inr hclosed =>
      have hmanaged : ∀ b ∈ base, t.managed site = b := fun b hb =>
        h.managed (hs.opened.saves b hb) (hclosed.managed b hb)
      exact .inr ⟨h.active.trans hclosed.active, by rw [h.pending]; exact hclosed.pending, hmanaged⟩

theorem Restores.refl (site : Site) (p : Saved) (s : Host) : Restores site p s s :=
  ⟨.inl rfl, .inl rfl, .inl rfl, .inl rfl, fun _ => .inl rfl, rfl, rfl, rfl, rfl, rfl⟩

theorem restores_setValue {k : SysctlKey} {n : ℕ} (hold : p.old k = .value n)
    (hset : (s.value? k).isSome = true) : Restores site p s (s.setValue k n) := by
  have hvalues : ∀ k', (s.setValue k n).settled site k' = s.settled site k' ∨
      p.old k' = .value ((s.setValue k n).settled site k') := by
    intro k'
    by_cases hk : k' = k
    · subst hk
      rw [Host.settled_of_value? (Host.value?_setValue n hset)]
      exact .inr hold
    · exact .inl (Host.settled_setValue_of_ne n hk)
  exact { Restores.refl site p s with values := hvalues }

theorem restores_swapon {w : Source} (hw : w ∈ p.swaps) :
    Restores site p s { s with swaps := insert w s.swaps } :=
  { Restores.refl site p s with swaps := .inr ⟨w, hw, rfl⟩ }

/-! ## The programs -/

variable {faulty : Host → Prop}

theorem restoreModules_files : restoreModules (p.files site i) =
    Prog.modify fun s => { s with modules := p.modules } := by
  unfold restoreModules
  rw [Saved.files_manifest]
  cases hmodules : p.modules <;> simp [fileState, hmodules, Saved.files]

theorem restoreSysctlFile_files : restoreSysctlFile (p.files site i) =
    Prog.modify fun s => { s with sysctlFile := p.sysctlFile } := by
  unfold restoreSysctlFile
  rw [Saved.files_manifest]
  cases hsysctl : p.sysctlFile <;> simp [fileState, hsysctl, Saved.files]

theorem restoreFstab_files : restoreFstab (p.files site i) =
    Prog.modify fun s => { s with fstab := p.fstab } := rfl

theorem writeSysctl_holds {k : SysctlKey} {n : ℕ} (hold : p.old k = .value n) (s : Host) :
    Holds faulty (Restores site p) (fun _ _ => True) (fun _ _ => False) (writeSysctl k n) s := by
  have hwrite : ∀ b, (b && (s.value? k).isSome) = true → Restores site p s (s.setValue k n) := by
    intro b hb
    exact restores_setValue hold (by simp_all)
  cases hset : (s.value? k).isSome <;> simp_all [writeSysctl]

theorem restoreSysctls_holds (keys : List SysctlKey) (s : Host) :
    Holds faulty (Restores site p) (fun _ _ => True) (fun _ _ => False)
      (restoreSysctls (p.files site i) keys) s := by
  induction keys generalizing s with
  | nil => simp [restoreSysctls]
  | cons k keys ih =>
    have hrest : ∀ (ok : Bool) (u : Host), Holds faulty (Restores site p) (fun _ _ => True)
        (fun _ _ => False) (do
          let rest ← restoreSysctls (p.files site i) keys
          return ok && rest) u := by
      intro ok u
      apply (ih u).seq
      · simp
      · simp
    unfold restoreSysctls
    rw [Saved.transactionOldSysctlValue_files]
    cases hold : p.old k with
    | value n => exact (writeSysctl_holds hold s).seq (fun _ _ h => h) fun ok u _ => hrest ok u
    | uncaptured => exact hrest true s
    | invalid => exact hrest false s

theorem swapon_holds {w : Source} (hw : w ∈ p.swaps) (s : Host) :
    Holds faulty (Restores site p) (fun _ _ => True) (fun _ _ => False) (swapon w) s := by
  simp [swapon, restores_swapon hw]

theorem restoreSwaps_holds (sources : List Source) (h : ∀ w ∈ sources, w ∈ p.swaps) (s : Host) :
    Holds faulty (Restores site p) (fun _ _ => True) (fun _ _ => False) (restoreSwaps sources) s := by
  induction sources generalizing s with
  | nil => simp [restoreSwaps]
  | cons w sources ih =>
    have hrest : ∀ u, Holds faulty (Restores site p) (fun _ _ => True) (fun _ _ => False)
        (restoreSwaps sources) u := ih fun w' hw' => h w' (by simp [hw'])
    apply (swapon_holds (h w (by simp)) s).seq
    · simp
    · intro ok u _
      apply (hrest u).seq
      · simp
      · simp

theorem restoreHost_holds (s : Host) :
    Holds faulty (Restores site p) (fun _ _ => True) (fun _ _ => False)
      (restoreHost (p.files site i)) s := by
  unfold restoreHost
  rw [restoreModules_files, restoreSysctlFile_files, restoreFstab_files]
  simp only [holds_bind, holds_modify]
  refine ⟨{ Restores.refl site p s with modules := .inr rfl },
    { Restores.refl site p _ with sysctlFile := .inr rfl },
    { Restores.refl site p _ with fstab := .inr rfl }, ?_⟩
  apply (restoreSysctls_holds _ _).weaken
  · intro ok u _
    simp only [holds_get]
    have hsources : ∀ w ∈ ((p.files site i).activeSwapsPre.getD ∅ \ u.swaps).sort (· ≤ ·),
        w ∈ p.swaps := by
      intro w hw
      exact (Finset.mem_sdiff.mp ((Finset.mem_sort _).mp hw)).1
    apply (restoreSwaps_holds _ hsources u).weaken
    · simp
    · simp
  · simp

/-! ## What a restoration leaves -/

theorem Saved.old_ne_invalid (h : p.Valid) (k : SysctlKey) : p.old k ≠ .invalid := by
  have hallowed := h.allowed k
  unfold Saved.old
  cases hcurrent : p.current k with
  | number n => simp
  | unavailable =>
    cases hlate : p.late with
    | none => simp
    | some l =>
      have hcaptures := h.captures l hlate
      have hlength := hcaptures.length_lateValues ((Saved.mem_unavailable h).mpr hcurrent)
      obtain ⟨n, hn⟩ := List.length_eq_one_iff.mp hlength
      have hmem : n ∈ lateValues l k := by simp [hn]
      have hline : (k, n) ∈ l := by simpa [lateValues] using hmem
      have hallows := hcaptures.allowed (k, n) hline
      simp only at hallows
      simp [hn, hallows]
  | _ => simp [hcurrent, oldSysctlValueAllowed] at hallowed

theorem restored_files : restored u (p.files site i) = true ↔
    u.modules = p.modules ∧ u.sysctlFile = p.sysctlFile ∧ u.fstab = p.fstab ∧ u.swaps = p.swaps ∧
      ∀ k, sysctlRestored u (p.files site i) k = true := by
  unfold restored
  rw [Saved.files_manifest]
  simp [fileState_injective.eq_iff, SysctlKey.mem_sysctlKeys, and_assoc,
    @eq_comm _ u.modules, @eq_comm _ u.sysctlFile, @eq_comm _ u.fstab, @eq_comm _ u.swaps]

theorem sysctlRestored_files {k : SysctlKey} : sysctlRestored u (p.files site i) k = true ↔
    p.old k ≠ .invalid ∧ ∀ n, p.old k = .value n → u.value? k = some n := by
  unfold sysctlRestored
  rw [Saved.transactionOldSysctlValue_files]
  cases p.old k <;> simp

/-- What is found restored is what was managed. -/
theorem Open.managed_eq (h : Open site base u i p) (hr : restored u (p.files site i) = true) :
    ∀ b ∈ base, u.managed site = b := by
  intro b hb
  have hsaves := h.saves b hb
  obtain ⟨hmodules, hsysctl, hfstab, hswaps, hsettings⟩ := restored_files.mp hr
  have hvalues : u.settled site = b.values := by
    funext k
    cases hold : p.old k with
    | value n =>
      have hset := (sysctlRestored_files.mp (hsettings k)).2 n hold
      rw [Host.settled_of_value? hset, hsaves.captured k n hold]
    | uncaptured => exact hsaves.uncaptured k hold
    | invalid => exact absurd hold (Saved.old_ne_invalid h.valid k)
  unfold Host.managed
  rw [hmodules, hsysctl, hfstab, hswaps, hvalues, hsaves.modules, hsaves.sysctlFile, hsaves.fstab,
    hsaves.swaps]

/-! ## The whole restoration -/

/-- Only the state files change. -/
theorem Open.withFiles (h : Open site base u i p) (active : Option Lines)
    (pending : Option (Option Id)) : Open site base { u with active, pending } i p :=
  ⟨h.stored, h.valid, h.machine, h.modules, h.sysctlFile, h.fstab, fun b hb =>
    let hs := h.saves b hb
    ⟨hs.modules, hs.sysctlFile, hs.fstab, hs.swaps, hs.captured, hs.uncaptured⟩⟩

theorem Kept.without_active (h : Kept site base i p u) (hmanaged : ∀ b ∈ base, u.managed site = b) :
    Kept site base i p (if u.ActiveNames i then { u with active := none } else u) := by
  split_ifs with hnames
  · refine ⟨h.opened.withFiles none u.pending, ?_⟩
    cases h.files with
    | inr hclosed => exact absurd (.inr hnames) (hclosed.not_names i)
    | inl hheld =>
      cases hheld with
      | pending hpending => exact .inl (.pending hpending rfl)
      | active _ _ hpending =>
        cases hpending with
        | inl hpending => exact .inl (.pending hpending rfl)
        | inr hpending => exact .inr ⟨rfl, .inl hpending, hmanaged⟩
  · exact h

theorem Kept.without_pending (h : Kept site base i p u) (hactive : ¬ u.ActiveNames i)
    (hmanaged : ∀ b ∈ base, u.managed site = b) :
    Kept site base i p (if u.pending = some (some i) then { u with pending := none } else u) := by
  split_ifs with hpending
  · refine ⟨h.opened.withFiles u.active none, .inr ⟨?_, .inl rfl, hmanaged⟩⟩
    cases h.files with
    | inr hclosed => exact hclosed.active
    | inl hheld =>
      cases hheld with
      | pending _ hnone => exact hnone
      | active hlines => exact absurd ⟨_, hlines, rfl⟩ hactive
  · exact h

theorem Kept.rolled_back (h : Kept site base i p u) :
    Kept site base i { p with rolledBack := true }
      (u.withTransaction i { u.transaction i with rolledBack := true }) where
  opened := by
    have hstored : u.transaction i = p.files site i := by
      simp [Host.transaction, h.opened.stored]
    have hopen := h.opened
    refine ⟨?_, ⟨hopen.valid.allowed, fun l hl => ?_, hopen.valid.tagged⟩, hopen.machine,
      hopen.modules, hopen.sysctlFile, hopen.fstab, fun b hb => ?_⟩
    · rw [hstored]
      simp [Host.withTransaction, Saved.files, Saved.lines, Saved.lateState]
    · have hcaptures := hopen.valid.captures l hl
      exact ⟨hcaptures.nonempty, hcaptures.keys, hcaptures.allowed⟩
    · have hs := hopen.saves b hb
      exact ⟨hs.modules, hs.sysctlFile, hs.fstab, hs.swaps, hs.captured, hs.uncaptured⟩
  files := by
    cases h.files with
    | inl hheld =>
      refine .inl ?_
      cases hheld with
      | pending hpending hactive => exact .pending hpending hactive
      | active hactive hcomplete hpending => exact .active hactive hcomplete hpending
    | inr hclosed => exact .inr ⟨hclosed.active, hclosed.pending, hclosed.managed⟩

/-- A host that is back may lose its state files. -/
theorem Kept.close_holds (h : Kept site base i p u) (hmanaged : ∀ b ∈ base, u.managed site = b) :
    Holds faulty (fun _ t => Covered site base t) (fun _ t => ∃ p', Kept site base i p' t)
      (fun _ _ => False) (do
        removeActive i
        removePending i
        noteRolledBack i
        return true) u := by
  have hfirst := h.without_active hmanaged
  set v := if u.ActiveNames i then { u with active := none } else u with hv
  have hactive : ¬ v.ActiveNames i := by
    rw [hv]
    split_ifs with hnames
    · simp [Host.ActiveNames]
    · exact hnames
  have hmanaged' : ∀ b ∈ base, v.managed site = b := by
    intro b hb
    rw [hv, ← hmanaged b hb]
    split_ifs <;> rfl
  have hsecond := hfirst.without_pending hactive hmanaged'
  have hthird := hsecond.rolled_back
  simp only [removeActive, removePending, noteRolledBack, holds_bind, holds_modify, holds_pure, ← hv]
  exact ⟨hfirst.covered, hsecond.covered, hthird.covered, _, hthird⟩

/-- Whatever is killed or fails, a transaction that is restored remains one that can be. -/
theorem restoreTransaction_holds (h : Kept site base i p s) :
    Holds faulty (fun _ t => Covered site base t) (fun _ t => ∃ p', Kept site base i p' t)
      (fun _ _ => False) (restoreTransaction i) s := by
  have hstored : s.transaction i = p.files site i := by
    simp [Host.transaction, h.opened.stored]
  unfold restoreTransaction
  simp only [holds_bind, holds_get, holds_ite]
  split_ifs with hready
  · rw [hstored]
    have hrestores : Holds faulty (Restores site p) (fun _ _ => True) (fun _ _ => False)
        (restoreHost (p.files site i)) s := restoreHost_holds s
    have hhost := hrestores.carry h fun s t hs hr => hr.kept hs
    apply hhost.mono
    · intro s t hr
      exact hr.2.2.covered
    · intro ok u hu
      have hkept := hu.2
      split_ifs with hok
      · have hrestored : restored u (p.files site i) = true := by simp_all
        have hmanaged := hkept.opened.managed_eq hrestored
        have hclose := @Kept.close_holds site base u i p faulty hkept hmanaged
        simp only [holds_bind] at hclose
        exact hclose
      · exact ⟨p, hkept⟩
    · simp
  · exact ⟨p, h⟩

/-! ## What success means -/

/-- Everything managed is as a transaction directory has it. -/
structure AsRecorded (u : Host) (t : Transaction) : Prop where
  modules : u.modules = t.modulesPre
  sysctlFile : u.sysctlFile = t.sysctlPre
  fstab : t.fstabPre = some u.fstab
  swaps : t.activeSwapsPre = some u.swaps
  values : ∀ k n, transactionOldSysctlValue t k = .value n → u.value? k = some n

/-- What is verified at the end is enough, for the files were compared with the manifest before. -/
theorem asRecorded_of_restored (hvalid : validateTransaction s i = true)
    (hr : restored u (s.transaction i) = true) : AsRecorded u (s.transaction i) := by
  obtain ⟨t, hstored, hmanifest⟩ := (Option.any_eq_true ..).mp hvalid
  obtain ⟨m, hm, hchecks⟩ := (Option.any_eq_true ..).mp hmanifest
  have htransaction : s.transaction i = t := by simp [Host.transaction, hstored]
  have hlines : t.manifest.getD [] = m := by simp [hm]
  rw [htransaction] at hr ⊢
  simp only [restored, hlines, Bool.and_eq_true, decide_eq_true_eq, List.all_eq_true] at hr
  simp only [validManifest, validBackup, Bool.and_eq_true, decide_eq_true_eq, Option.any_eq_true]
    at hchecks
  obtain ⟨⟨⟨⟨hmodules, hsysctl⟩, hfstab⟩, hswaps⟩, hsettings⟩ := hr
  obtain ⟨⟨⟨⟨-, c, hc, hfstab'⟩, w, hw, hswaps'⟩, hmodules'⟩, hsysctl'⟩ := hchecks
  constructor
  · have heq := hmodules.symm.trans hmodules'
    exact fileState_injective (by simpa using heq)
  · have heq := hsysctl.symm.trans hsysctl'
    exact fileState_injective (by simpa using heq)
  · have heq := hfstab.symm.trans hfstab'
    simp_all
  · have heq := hswaps.symm.trans hswaps'
    simp_all
  · intro k n hold
    have hset := hsettings k (SysctlKey.mem_sysctlKeys k)
    simpa [sysctlRestored, hold] using hset

/-- Whatever the host was, a restoration that succeeds has restored it and released it. -/
theorem restoreTransaction_post (s : Host) (i : Id) :
    Holds faulty (fun _ _ => True)
      (fun ok u => ok = true → AsRecorded u (s.transaction i) ∧ ¬ u.Names i) (fun _ _ => True)
      (restoreTransaction i) s := by
  unfold restoreTransaction
  simp only [holds_bind, holds_get, holds_ite]
  split_ifs with hready
  · apply (holds_true (restoreHost (s.transaction i)) s).weaken
    · intro ok u _
      split_ifs with hok
      · have hvalid : validateTransaction s i = true := by
          simp only [checkTransactionRollbackReady, Bool.and_eq_true] at hready
          exact hready.1.1.1.1.1
        have hrestored : restored u (s.transaction i) = true := by simp_all
        have hrecorded := asRecorded_of_restored hvalid hrestored
        simp only [removeActive, removePending, noteRolledBack, holds_modify, holds_pure, true_and]
        intro _
        refine ⟨?_, ?_⟩
        · have hmodules := hrecorded.modules
          have hsysctl := hrecorded.sysctlFile
          have hfstab := hrecorded.fstab
          have hswaps := hrecorded.swaps
          have hvalues := hrecorded.values
          split_ifs <;> exact ⟨hmodules, hsysctl, hfstab, hswaps, hvalues⟩
        · rintro (hpending | ⟨lines, hlines, hid⟩)
          · split_ifs at hpending <;> simp_all [Host.withTransaction]
          · split_ifs at hlines <;> simp_all [Host.withTransaction, Host.ActiveNames]
      · simp
    · simp
  · simp

/-- A restoration loads no module. -/
theorem restoreTransaction_bridge (hstored : s.transactions i = some (p.files site i)) :
    Holds faulty (fun u v => v.bridge = u.bridge) (fun _ _ => True) (fun _ _ => True)
      (restoreTransaction i) s := by
  have hfiles : s.transaction i = p.files site i := by simp [Host.transaction, hstored]
  unfold restoreTransaction
  simp only [holds_bind, holds_get, holds_ite]
  split_ifs with hready
  · rw [hfiles]
    apply (restoreHost_holds s).mono
    · exact fun u v h => h.bridge
    · intro ok u _
      split_ifs
      · simp only [removeActive, removePending, noteRolledBack, holds_modify, holds_pure, and_true]
        refine ⟨?_, ?_, rfl⟩ <;> split_ifs <;> rfl
      · trivial
    · exact fun _ _ hfalse => hfalse.elim
  · trivial

end HostPrerequisites
