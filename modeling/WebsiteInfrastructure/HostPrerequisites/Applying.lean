import Mathlib
import WebsiteInfrastructure.HostPrerequisites.Restoring

/-!
# Applying under a transaction

The preparation changes nothing that is managed, and every change after it is covered. The values
that a module brings along are captured before any setting is written.
-/

namespace HostPrerequisites

open Crash

variable {site : Site} {plan : Plan} {base : Option Managed} {s t u : Host} {i : Id} {p : Saved}
  {faulty : Host → Prop}

/-! ## Preparation -/

/-- What a transaction saves when it is made. -/
def Saved.fresh (site : Site) (plan : Plan) (s : Host) : Saved where
  modules := s.modules
  sysctlFile := s.sysctlFile
  fstab := s.fstab
  fstabPost := HostPrerequisites.fstabPost site plan s.fstab
  swaps := s.swaps
  swapAction := plan.swapAction
  current := plan.current
  planNumber := plan.number
  machineId := s.machineId
  bootId := s.bootId
  late := none
  tagged := false
  rolledBack := false

theorem manifestLines_eq (i : Id) (s : Host) :
    manifestLines site plan i s = (Saved.fresh site plan s).lines site i := rfl

theorem fresh_valid (h : checkHostAgainstPlan site s plan = true) :
    (Saved.fresh site plan s).Valid where
  allowed k := by
    simp only [checkHostAgainstPlan, Bool.and_eq_true, List.all_eq_true] at h
    exact h.1.1.1.1.1.1.1.1.1.1.1 k (SysctlKey.mem_sysctlKeys k)
  captures l hl := by simp [Saved.fresh] at hl
  tagged ht := by simp [Saved.fresh] at ht

theorem current_eq_observed (h : checkHostAgainstPlan site s plan = true) (k : SysctlKey) :
    plan.current k = s.observed k := by
  simp only [checkHostAgainstPlan, Bool.and_eq_true, List.all_eq_true, decide_eq_true_eq] at h
  exact h.1.1.1.2 k (SysctlKey.mem_sysctlKeys k)

/-- The plan says what the settings are. -/
theorem fresh_saves (h : checkHostAgainstPlan site s plan = true) :
    (Saved.fresh site plan s).Saves site (s.managed site) s where
  modules := rfl
  sysctlFile := rfl
  fstab := rfl
  swaps := rfl
  captured k n hold := by
    have hcurrent : (Saved.fresh site plan s).current k = s.observed k := current_eq_observed h k
    have hlate : (Saved.fresh site plan s).late = none := rfl
    unfold Saved.old at hold
    rw [hcurrent, hlate] at hold
    cases hvalue : s.value? k with
    | none => simp [Host.observed, hvalue] at hold
    | some m =>
      simp [Host.observed, hvalue] at hold
      subst hold
      exact Host.settled_of_value? hvalue
  uncaptured k _ := rfl

/-- A prepared transaction, before its first change. -/
structure Prepared (site : Site) (plan : Plan) (base : Option Managed) (i : Id) (p : Saved)
    (s : Host) : Prop where
  opened : Open site base s i p
  pending : s.pending = some (some i)
  active : s.active = none
  boot : s.bootId = p.bootId
  planNumber : p.planNumber = plan.number
  swapAction : p.swapAction = plan.swapAction

theorem Prepared.kept (h : Prepared site plan base i p s) : Kept site base i p s :=
  ⟨h.opened, .inl (.pending h.pending h.active)⟩

theorem Closed.withTransaction (h : Closed site base s) (i : Id) (t : Transaction) :
    Closed site base (s.withTransaction i t) :=
  ⟨h.active, h.pending, h.managed⟩

/-- The directory with everything but the manifest. -/
theorem writeBackups_holds (h : Closed site base u) (hu : u.transaction i = .empty) :
    Holds faulty (fun _ t => Closed site base t)
      (fun _ t => t = u.withTransaction i
        { (Saved.fresh site plan s).files site i with manifest := none })
      (fun _ _ => False) (writeBackups site plan i s) u := by
  simp only [writeBackups, writeFile, holds_bind, holds_modify, hu,
    Host.transaction_withTransaction, Host.withTransaction_withTransaction]
  refine ⟨h.withTransaction _ _, h.withTransaction _ _, h.withTransaction _ _,
    h.withTransaction _ _, h.withTransaction _ _, rfl⟩

theorem Covered.closed (h : Covered site base s) (hactive : s.active = none)
    (hpending : s.pending = none) : Closed site base s := by
  cases h with
  | inl hclosed => exact hclosed
  | inr hopen =>
    obtain ⟨i, p, -, hheld⟩ := hopen
    cases hheld with
    | pending hsome => simp [hpending] at hsome
    | active hsome => simp [hactive] at hsome

theorem writePending_holds (h : Closed site base u)
    (hstored : u.transactions i = some ((Saved.fresh site plan u).files site i))
    (hchecked : checkHostAgainstPlan site u plan = true) :
    Holds faulty (fun _ t => Covered site base t)
      (fun _ t => ∃ p, Prepared site plan base i p t ∧ p.late = none ∧ p.tagged = false)
      (fun _ _ => False) (writePending i) u := by
  have hsaves : ∀ b ∈ base, (Saved.fresh site plan u).Saves site b u := by
    intro b hb
    rw [← h.managed b hb]
    exact fresh_saves hchecked
  have hopen : Open site base u i (Saved.fresh site plan u) :=
    ⟨hstored, fresh_valid hchecked, rfl, .inl rfl, .inl rfl, .inl rfl, hsaves⟩
  have hprepared : Prepared site plan base i (Saved.fresh site plan u)
      { u with pending := some (some i) } :=
    ⟨hopen.withFiles u.active (some (some i)), rfl, h.active, rfl, rfl, rfl⟩
  simp only [writePending, holds_bind, holds_modify]
  exact ⟨.inl ⟨h.active, .inr rfl, h.managed⟩, hprepared.kept.covered, _, hprepared, rfl, rfl⟩

/-- Up to the pending state, no file or setting that is managed is touched. -/
theorem prepare_holds (h : Covered site base s) :
    Holds faulty (fun _ t => Covered site base t)
      (fun i t => ∃ p, Prepared site plan base i p t ∧ p.late = none ∧ p.tagged = false)
      (fun _ t => Covered site base t) (prepare site plan) s := by
  unfold prepare
  simp only [holds_bind, holds_get, holds_require, holds_orExit]
  by_cases hchecked : checkHostAgainstPlan site s plan = true
  · rw [if_pos hchecked]
    refine ⟨?_, fun _ => h⟩
    by_cases hadmitted : applyAdmitted s = true
    · rw [if_pos hadmitted]
      have hnone : s.active = none ∧ s.pending = none := by
        simpa [applyAdmitted] using hadmitted
      have hclosed := h.closed hnone.1 hnone.2
      rw [makeDirectory, holds_modify]
      set v : Host := { s.withTransaction s.nextId .empty with nextId := s.nextId + 1 } with hv
      have hdirectory : Closed site base v := ⟨hclosed.active, hclosed.pending, hclosed.managed⟩
      refine ⟨.inl hdirectory, ?_⟩
      have hempty : v.transaction s.nextId = .empty := by
        simp [hv, Host.transaction, Host.withTransaction]
      apply (writeBackups_holds hdirectory hempty).mono
      · exact fun _ t ht => .inl ht
      · rintro _ t rfl
        have hbackups := hdirectory.withTransaction s.nextId
          { (Saved.fresh site plan s).files site s.nextId with manifest := none }
        split_ifs with hcandidate
        · refine ⟨?_, fun _ => .inl hbackups⟩
          simp only [writeFile, holds_modify, Host.transaction_withTransaction,
            Host.withTransaction_withTransaction]
          set w : Host := v.withTransaction s.nextId ((Saved.fresh site plan s).files site s.nextId)
            with hw
          have hfiles : Closed site base w := hdirectory.withTransaction _ _
          refine ⟨.inl hfiles, ?_⟩
          change if validateTransaction w s.nextId = true then Holds _ _ _ _ (writePending _) w else _
          by_cases hvalid : validateTransaction w s.nextId = true
          · rw [if_pos hvalid]
            have hstored : w.transactions s.nextId =
                some ((Saved.fresh site plan w).files site s.nextId) := Function.update_self ..
            apply (writePending_holds hfiles hstored hchecked).weaken
            · exact fun _ t ht => ht
            · exact fun _ _ hfalse => hfalse.elim
          · rw [if_neg hvalid]
            exact .inl hfiles
        · exact .inl hbackups
      · exact fun _ _ hfalse => hfalse.elim
    · rw [if_neg hadmitted]
      exact h
  · rw [if_neg hchecked]
    exact h

/-! ## The capture of late values -/

theorem readSysctl_holds (k : SysctlKey) (s : Host) :
    Holds faulty (fun _ _ => False) (fun v t => t = s ∧ ∀ n, v = some n → s.value? k = some n)
      (fun _ _ => False) (readSysctl k) s := by
  simp [readSysctl]

/-- What is captured before anything is written: the present values of the keys that were not
available. -/
theorem captureLate_holds (hstored : s.transactions i = some (p.files site i))
    (keys : List SysctlKey) :
    Holds faulty (fun _ _ => False)
      (fun l t => t = s ∧ l.map Prod.fst = keys.filter (fun k => p.current k = .unavailable) ∧
        ∀ line ∈ l, line.1.allows line.2 = true ∧ s.value? line.1 = some line.2)
      (fun _ t => t = s) (captureLate i keys) s := by
  have hmanifest : s.manifest i = p.lines site i := by
    simp [Host.manifest, Host.transaction, hstored, Saved.files]
  induction keys with
  | nil => simp [captureLate]
  | cons k keys ih =>
    unfold captureLate
    simp only [holds_bind, holds_get, hmanifest, Saved.dataValue_lines, Saved.recorded,
      Option.toList_some, List.cons.injEq, and_true]
    by_cases hlate : p.current k = .unavailable
    · rw [if_pos hlate]
      apply (readSysctl_holds k s).seq
      · exact fun _ _ hfalse => hfalse.elim
      · rintro value t ⟨rfl, hvalue⟩
        cases value with
        | none => simp
        | some n =>
          have hn : t.value? k = some n := (hvalue n rfl)
          simp only [holds_bind, holds_require]
          split_ifs with hallowed
          · apply ih.weaken
            · rintro l u ⟨rfl, hkeys, hl⟩
              refine ⟨rfl, by simp [hkeys, hlate], ?_⟩
              intro line hline
              cases List.mem_cons.mp hline with
              | inl heq =>
                subst heq
                exact ⟨hallowed, hn⟩
              | inr hmem => exact hl line hmem
            · exact fun _ u hu => hu
    · rw [if_neg hlate]
      simpa [hlate] using ih

/-- The late values, before the manifest has their digest. -/
def Saved.capture (p : Saved) (l : List LateLine) : Saved := { p with late := some l }

/-- The late values under the digest of the manifest. -/
def Saved.tag (p : Saved) : Saved := { p with tagged := true }

theorem files_capture (l : List LateLine) (h : p.tagged = false) :
    (p.capture l).files site i = { p.files site i with moduleLoadSysctlsPre := some l } := by
  simp [Saved.files, Saved.capture, Saved.lines, Saved.lateState, h]

theorem rewriteManifest_lines (l : List LateLine) :
    rewriteManifest l ((p.capture l).lines site i) = (p.capture l).tag.lines site i := by
  simp [rewriteManifest, Saved.lines, Saved.capture, Saved.tag, Saved.lateState, sysctlKeys]

theorem files_tag (l : List LateLine) : (p.capture l).tag.files site i =
    { (p.capture l).files site i with
      manifest := ((p.capture l).files site i).manifest.map (rewriteManifest l) } := by
  have hlines := @rewriteManifest_lines site i p l
  simp only [Saved.files, Option.map_some, hlines]
  rfl

/-- The lines that were captured belong to the transaction. -/
structure Fits (p : Saved) (l : List LateLine) (s : Host) : Prop where
  keys : l.map Prod.fst = p.unavailable
  allowed : ∀ line ∈ l, line.1.allows line.2 = true
  values : ∀ line ∈ l, s.value? line.1 = some line.2

theorem valid_capture {l : List LateLine} (h : p.Valid) (hcaptures : p.Captures l) :
    (p.capture l).Valid where
  allowed := h.allowed
  captures l' hl' := by
    have heq : l = l' := by simpa [Saved.capture] using hl'
    subst heq
    exact ⟨hcaptures.nonempty, hcaptures.keys, hcaptures.allowed⟩
  tagged _ := rfl

theorem old_capture_ne_uncaptured (l : List LateLine) (k : SysctlKey) :
    (p.capture l).old k ≠ .uncaptured := by
  unfold Saved.old Saved.capture
  cases p.current k with
  | unavailable =>
    cases hvalues : lateValues l k with
    | nil => simp [hvalues]
    | cons n rest =>
      cases rest with
      | nil => by_cases hallowed : k.allows n = true <;> simp [hvalues, hallowed]
      | cons m rest => simp [hvalues]
  | _ => simp

/-- A value after the capture was one before it, or it is in a captured line. -/
theorem old_capture {l : List LateLine} (hlate : p.late = none) {k : SysctlKey} {n : ℕ}
    (h : (p.capture l).old k = .value n) :
    p.old k = .value n ∨ p.old k = .uncaptured ∧ (k, n) ∈ l := by
  unfold Saved.capture at h
  cases hcurrent : p.current k with
  | number m =>
    left
    simpa [Saved.old, hcurrent] using h
  | unavailable =>
    right
    refine ⟨by simp [Saved.old, hcurrent, hlate], ?_⟩
    unfold Saved.old at h
    cases hvalues : lateValues l k with
    | nil => simp [hcurrent, hvalues] at h
    | cons m rest =>
      cases rest with
      | cons m' rest => simp [hcurrent, hvalues] at h
      | nil =>
        have hmem : m ∈ lateValues l k := by simp [hvalues]
        have hline : (k, m) ∈ l := by simpa [lateValues] using hmem
        by_cases hallowed : k.allows m = true
        · have heq : m = n := by simpa [hcurrent, hvalues, hallowed] using h
          rwa [← heq]
        · simp [hcurrent, hvalues, hallowed] at h
  | _ => simp [Saved.old, hcurrent] at h

theorem saves_capture {b : Managed} {l : List LateLine} (h : p.Saves site b s) (hlate : p.late = none)
    (hfits : Fits p l s) : (p.capture l).Saves site b s where
  modules := h.modules
  sysctlFile := h.sysctlFile
  fstab := h.fstab
  swaps := h.swaps
  captured k n hold := by
    cases old_capture hlate hold with
    | inl hbefore => exact h.captured k n hbefore
    | inr hline =>
      have hsettled : s.settled site k = n := Host.settled_of_value? (hfits.values _ hline.2)
      rw [← h.uncaptured k hline.1]
      exact hsettled
  uncaptured k hold := absurd hold (old_capture_ne_uncaptured l k)

/-- The two forms of a transaction directory that lie between the capture and its end. -/
theorem Prepared.capture {l : List LateLine} (h : Prepared site plan base i p s)
    (hlate : p.late = none) (htagged : p.tagged = false) (hfits : Fits p l s) (hne : l ≠ []) :
    Prepared site plan base i (p.capture l)
      (s.withTransaction i { s.transaction i with moduleLoadSysctlsPre := some l }) := by
  have hopen := h.opened
  have hstored : s.transaction i = p.files site i := by
    simp [Host.transaction, hopen.stored]
  rw [hstored, ← files_capture l htagged]
  refine ⟨⟨Function.update_self .., valid_capture hopen.valid ⟨hne, hfits.keys, hfits.allowed⟩, hopen.machine,
    hopen.modules, hopen.sysctlFile, hopen.fstab, fun b hb => ?_⟩, h.pending, h.active, h.boot,
    h.planNumber, h.swapAction⟩
  have hsaves := saves_capture (hopen.saves b hb) hlate hfits
  exact ⟨hsaves.modules, hsaves.sysctlFile, hsaves.fstab, hsaves.swaps, hsaves.captured,
    hsaves.uncaptured⟩

theorem Prepared.tag {l : List LateLine} (h : Prepared site plan base i (p.capture l) s) :
    Prepared site plan base i (p.capture l).tag
      (s.withTransaction i
        { s.transaction i with manifest := (s.transaction i).manifest.map (rewriteManifest l) }) := by
  have hopen := h.opened
  have hstored : s.transaction i = (p.capture l).files site i := by
    simp [Host.transaction, hopen.stored]
  rw [hstored, ← files_tag]
  refine ⟨⟨Function.update_self .., ⟨hopen.valid.allowed, fun l' hl' => ?_, fun _ => rfl⟩,
    hopen.machine, hopen.modules, hopen.sysctlFile, hopen.fstab, fun b hb => ?_⟩, h.pending,
    h.active, h.boot, h.planNumber, h.swapAction⟩
  · have hcaptures := hopen.valid.captures l' hl'
    exact ⟨hcaptures.nonempty, hcaptures.keys, hcaptures.allowed⟩
  · have hsaves := hopen.saves b hb
    exact ⟨hsaves.modules, hsaves.sysctlFile, hsaves.fstab, hsaves.swaps, hsaves.captured,
      hsaves.uncaptured⟩

/-- A transaction in which no setting is left to be captured. -/
structure Captured (site : Site) (plan : Plan) (base : Option Managed) (i : Id) (p : Saved)
    (s : Host) : Prop extends Prepared site plan base i p s where
  complete : p.Complete
  captured : ∀ k, p.old k ≠ .uncaptured

theorem writeLate_holds {l : List LateLine} (h : Prepared site plan base i p s)
    (hlate : p.late = none) (htagged : p.tagged = false) (hfits : Fits p l s) :
    Holds faulty (fun _ t => Covered site base t) (fun _ t => ∃ p', Captured site plan base i p' t)
      (fun _ _ => False) (writeLate i l) s := by
  unfold writeLate
  split_ifs with hne
  · have hcapture := h.capture hlate htagged hfits hne
    have htag := hcapture.tag
    simp only [writeFile, holds_bind, holds_modify]
    exact ⟨hcapture.kept.covered, htag.kept.covered, _, htag, .inr rfl,
      fun k => old_capture_ne_uncaptured l k⟩
  · have hnone : p.unavailable = [] := by
      rw [← hfits.keys]
      simpa using hne
    refine ⟨p, h, .inl hnone, fun k hold => ?_⟩
    have hcurrent : p.current k = .unavailable := by
      unfold Saved.old at hold
      cases hk : p.current k <;> simp_all
    have hmem := (Saved.mem_unavailable h.opened.valid).mpr hcurrent
    simp [hnone] at hmem

/-! ## The changes -/

/-- A change of what is managed, towards what is installed. -/
structure Installs (site : Site) (p : Saved) (s t : Host) : Prop where
  modules : t.modules = s.modules ∨ t.modules = some site.modulesSource
  sysctlFile : t.sysctlFile = s.sysctlFile ∨ t.sysctlFile = some site.sysctlSource
  fstab : t.fstab = s.fstab ∨ t.fstab = p.fstabPost
  settled : ∀ k, p.old k = .uncaptured → t.settled site k = s.settled site k
  transactions : t.transactions = s.transactions
  pending : t.pending = s.pending
  active : t.active = s.active
  machine : t.machineId = s.machineId
  boot : t.bootId = s.bootId

theorem Installs.refl (site : Site) (p : Saved) (s : Host) : Installs site p s s :=
  ⟨.inl rfl, .inl rfl, .inl rfl, fun _ _ => rfl, rfl, rfl, rfl, rfl, rfl⟩

theorem Installs.prepared (h : Installs site p s t) (hs : Prepared site plan base i p s) :
    Prepared site plan base i p t where
  opened := {
    stored := by rw [h.transactions, hs.opened.stored]
    valid := hs.opened.valid
    machine := by rw [h.machine, hs.opened.machine]
    modules := by
      cases h.modules with
      | inl hsame => rw [hsame]; exact hs.opened.modules
      | inr hnew => exact .inr hnew
    sysctlFile := by
      cases h.sysctlFile with
      | inl hsame => rw [hsame]; exact hs.opened.sysctlFile
      | inr hnew => exact .inr hnew
    fstab := by
      cases h.fstab with
      | inl hsame => rw [hsame]; exact hs.opened.fstab
      | inr hnew => exact .inr hnew
    saves := fun b hb =>
      let hsaves := hs.opened.saves b hb
      ⟨hsaves.modules, hsaves.sysctlFile, hsaves.fstab, hsaves.swaps, hsaves.captured,
        fun k hk => (h.settled k hk).trans (hsaves.uncaptured k hk)⟩ }
  pending := h.pending.trans hs.pending
  active := h.active.trans hs.active
  boot := h.boot.trans hs.boot
  planNumber := hs.planNumber
  swapAction := hs.swapAction

theorem installs_loadBridge (s : Host) : Installs site p s (s.loadBridge site) := by
  have hsettled : ∀ k, p.old k = .uncaptured →
      (s.loadBridge site).settled site k = s.settled site k := by
    intro k _
    rw [Host.settled_loadBridge]
  by_cases hbridge : s.bridge = true
  · have hsame : s.loadBridge site = s := by simp [Host.loadBridge, hbridge]
    rw [hsame]
    exact .refl site p s
  · constructor <;> simp_all [Host.loadBridge]

/-- Once every late value is captured, any setting may be written. -/
theorem installs_setValue (hcaptured : ∀ k, p.old k ≠ .uncaptured) (k : SysctlKey) (n : ℕ) (s : Host) :
    Installs site p s (s.setValue k n) :=
  { Installs.refl site p s with settled := fun k' hk' => absurd hk' (hcaptured k') }

theorem applySysctls_holds (hcaptured : ∀ k, p.old k ≠ .uncaptured) (keys : List SysctlKey)
    (s : Host) :
    Holds faulty (Installs site p) (fun _ _ => True) (fun _ _ => False) (applySysctls keys) s := by
  induction keys generalizing s with
  | nil => simp [applySysctls]
  | cons k keys ih =>
    have hwrite : Holds faulty (Installs site p) (fun _ _ => True) (fun _ _ => False)
        (writeSysctl k k.desiredValue) s := by
      have hset := @installs_setValue site p hcaptured k k.desiredValue s
      simp only [writeSysctl, holds_bind, holds_succeeds, holds_get, holds_ite, holds_modify]
      split_ifs <;> simp [hset]
    apply hwrite.seq
    · exact fun _ _ hfalse => hfalse
    · intro ok u _
      apply (ih u).seq
      · exact fun _ _ hfalse => hfalse
      · simp

theorem swapoffAll_holds (sources : List Source) (s : Host) :
    Holds faulty (Installs site p) (fun _ _ => True) (fun _ _ => True) (swapoffAll sources) s := by
  induction sources generalizing s with
  | nil => simp [swapoffAll]
  | cons source sources ih =>
    have hoff : Installs site p s { s with swaps := s.swaps.erase source } :=
      { Installs.refl site p s with }
    simp only [swapoffAll, swapoff, holds_bind, holds_orExit, holds_modify]
    exact ⟨⟨hoff, ih _⟩, fun _ => trivial⟩

theorem disableSwap_holds (hstored : s.transactions i = some (p.files site i)) :
    Holds faulty (Installs site p) (fun _ _ => True) (fun _ _ => True) (disableSwap plan i) s := by
  unfold disableSwap
  split_ifs with haction
  · have hfiles : s.transaction i = p.files site i := by simp [Host.transaction, hstored]
    have hfstab : Installs site p s { s with fstab := p.fstabPost } :=
      { Installs.refl site p s with fstab := .inr rfl }
    simp only [holds_bind, holds_get, holds_modify, hfiles]
    exact ⟨hfstab, swapoffAll_holds _ _⟩
  · simp

theorem Prepared.carry {α : Type} {script : Script α} {post : α → Host → Prop}
    {onExit : Failure → Host → Prop} (h : Prepared site plan base i p s)
    (hscript : Holds faulty (Installs site p) post onExit script s) :
    Holds faulty (fun _ t => Covered site base t) (fun _ t => Prepared site plan base i p t)
      (fun _ t => Prepared site plan base i p t) script s := by
  apply (hscript.carry h fun s t hs ht => ht.prepared hs).mono
  · exact fun _ t ht => ht.2.2.kept.covered
  · exact fun _ t ht => ht.2
  · exact fun _ t ht => ht.2

/-- The captured values of a prepared transaction are those of its keys. -/
theorem fits_of_captureLate {l : List LateLine} (hvalid : p.Valid)
    (hkeys : l.map Prod.fst = sysctlKeys.filter fun k => p.current k = .unavailable)
    (hlines : ∀ line ∈ l, line.1.allows line.2 = true ∧ s.value? line.1 = some line.2) :
    Fits p l s where
  keys := by
    have hungated : ∀ k : SysctlKey, k.moduleGated = false → p.current k ≠ .unavailable := by
      intro k hk hcurrent
      have hallowed := hvalid.allowed k
      rw [hcurrent] at hallowed
      simp [oldSysctlValueAllowed, hk] at hallowed
    have hsplit : sysctlKeys = sysctlKeys.take 7 ++
        [.netBridgeNfCallIptables, .netBridgeNfCallIp6tables] := rfl
    have hnone : (sysctlKeys.take 7).filter (fun k => p.current k = .unavailable) = [] := by
      apply List.filter_eq_nil_iff.mpr
      intro k hk
      have hfree : ∀ k ∈ sysctlKeys.take 7, k.moduleGated = false := by decide
      simpa using hungated k (hfree k hk)
    rw [hkeys, hsplit, List.filter_append, hnone, List.nil_append]
    rfl
  allowed line hline := (hlines line hline).1
  values line hline := (hlines line hline).2

/-- The end of the changes: the active state replaces the pending one. -/
theorem activate_holds (h : Captured site plan base i p s) :
    Holds faulty (fun _ t => Covered site base t) (fun _ t => Covered site base t)
      (fun _ t => ∃ p', Kept site base i p' t) (do
        Prog.modify fun s => { s with active := some (activeLines site plan i s) }
        Prog.modify fun s => { s with pending := none }
        verifyPostApply site) s := by
  have hopen := h.opened
  have hlines : activeLines site plan i s = p.activeLines site i := by
    simp [activeLines, Saved.activeLines, h.planNumber, h.swapAction, h.boot, hopen.machine]
  have hfirst : Kept site base i p { s with active := some (activeLines site plan i s) } := by
    refine ⟨hopen.withFiles _ s.pending, .inl (.active ?_ h.complete (.inl h.pending))⟩
    rw [hlines]
  have hsecond : Kept site base i p
      { s with active := some (activeLines site plan i s), pending := none } := by
    refine ⟨hopen.withFiles _ none, .inl (.active ?_ h.complete (.inr rfl))⟩
    rw [hlines]
  simp only [verifyPostApply, holds_bind, holds_modify, holds_get, holds_require, holds_orExit]
  refine ⟨hfirst.covered, hsecond.covered, ?_⟩
  split_ifs
  · exact ⟨hsecond.covered, fun _ => ⟨p, hsecond⟩⟩
  · exact ⟨p, hsecond⟩

theorem loadOverlay_holds (s : Host) :
    Holds faulty (Installs site p) (fun _ _ => True) (fun _ _ => True) loadOverlay s := by
  have hload : Installs site p s { s with overlay := true } := { Installs.refl site p s with }
  simp [loadOverlay, hload]

theorem loadBridge_holds (s : Host) :
    Holds faulty (Installs site p) (fun _ _ => True) (fun _ _ => True) (loadBridge site) s := by
  simp [loadBridge, installs_loadBridge]

/-- From the captured values to the end, where any setting may be written. -/
theorem finish_holds (h : Captured site plan base i p s) :
    Holds faulty (fun _ t => Covered site base t) (fun _ t => Covered site base t)
      (fun _ t => ∃ p', Kept site base i p' t) (do
        let s ← Prog.get
        Prog.require (validateTransaction s i) .error
        let ok ← applySysctls sysctlKeys
        Prog.require ok .error
        disableSwap plan i
        let u ← Prog.get
        Prog.require (verifyDesiredHostContract site u) .error
        Prog.orExit .error
        Prog.modify fun s => { s with active := some (activeLines site plan i s) }
        Prog.modify fun s => { s with pending := none }
        verifyPostApply site) s := by
  have hexit : ∀ (_ : Failure) (t : Host), Prepared site plan base i p t →
      ∃ p', Kept site base i p' t := fun _ t ht => ⟨p, ht.kept⟩
  have hprepared := h.toPrepared
  rw [holds_bind, holds_get, holds_bind, holds_require]
  split_ifs with hvalid
  · apply (hprepared.carry (applySysctls_holds h.captured sysctlKeys s)).seq hexit
    intro ok t ht
    rw [holds_bind, holds_require]
    split_ifs with hok
    · apply (ht.carry (disableSwap_holds ht.opened.stored)).seq hexit
      intro _ u hu
      rw [holds_bind, holds_get, holds_bind, holds_require]
      split_ifs with hverified
      · rw [holds_bind, holds_orExit]
        exact ⟨activate_holds ⟨hu, h.complete, h.captured⟩, fun _ => hexit .error u hu⟩
      · exact hexit .error u hu
    · exact hexit .error t ht
  · exact hexit .error s hprepared

theorem mutate_holds (h : Prepared site plan base i p s) (hlate : p.late = none)
    (htagged : p.tagged = false) :
    Holds faulty (fun _ t => Covered site base t) (fun _ t => Covered site base t)
      (fun _ t => ∃ p', Kept site base i p' t) (mutate site plan i) s := by
  have hexit : ∀ (_ : Failure) (t : Host), Prepared site plan base i p t →
      ∃ p', Kept site base i p' t := fun _ t ht => ⟨p, ht.kept⟩
  have hmodules : Prepared site plan base i p { s with modules := some site.modulesSource } :=
    Installs.prepared { Installs.refl site p s with modules := .inr rfl } h
  have hsysctl : Prepared site plan base i p
      { s with modules := some site.modulesSource, sysctlFile := some site.sysctlSource } :=
    Installs.prepared (s := { s with modules := some site.modulesSource })
      { Installs.refl site p _ with sysctlFile := .inr rfl } hmodules
  unfold mutate
  rw [holds_bind, holds_modify]
  refine ⟨hmodules.kept.covered, ?_⟩
  rw [holds_bind, holds_modify]
  refine ⟨hsysctl.kept.covered, ?_⟩
  generalize { s with modules := some site.modulesSource, sysctlFile := some site.sysctlSource } = t
    at hsysctl ⊢
  apply (hsysctl.carry (loadOverlay_holds t)).seq hexit
  intro _ t ht
  apply (ht.carry (loadBridge_holds t)).seq hexit
  intro _ t ht
  rw [holds_bind]
  apply (captureLate_holds ht.opened.stored sysctlKeys).mono
  · exact fun _ _ hfalse => hfalse.elim
  · rintro l u ⟨rfl, hkeys, hlines⟩
    have hfits := fits_of_captureLate ht.opened.valid hkeys hlines
    rw [holds_bind]
    apply (writeLate_holds ht hlate htagged hfits).weaken
    · rintro _ v ⟨p', hv⟩
      exact finish_holds hv
    · exact fun _ _ hfalse => hfalse.elim
  · rintro _ u rfl
    exact hexit .error u ht

theorem apply_holds (h : Covered site base s) :
    Holds faulty (fun _ t => Covered site base t) (fun _ t => Covered site base t)
      (fun _ t => Covered site base t) (apply site plan) s := by
  have hrestore : ∀ i t, (∃ p, Kept site base i p t) →
      Holds faulty (fun _ u => Covered site base u) (fun _ u => ∃ p, Kept site base i p u)
        (fun _ u => Covered site base u) (restoreTransaction i) t := by
    rintro i t ⟨p, hp⟩
    apply (restoreTransaction_holds hp).weaken
    · exact fun _ _ hu => hu
    · exact fun _ _ hfalse => hfalse.elim
  unfold apply
  rw [holds_bind]
  apply (prepare_holds h).weaken
  · rintro i t ⟨p, hp, hlate, htagged⟩
    rw [holds_trap]
    apply (mutate_holds hp hlate htagged).weaken
    · exact fun _ _ ht => ht
    · intro failure u hu
      unfold onApplyError
      split_ifs with hnested
      · apply (hrestore i u hu).seq
        · exact fun _ _ hv => hv
        · intro _ v hv
          apply (hrestore i v hv).seq
          · exact fun _ _ hw => hw
          · rintro _ w ⟨p, hw⟩
            exact hw.covered
      · apply (hrestore i u hu).seq
        · exact fun _ _ hv => hv
        · rintro _ v ⟨p, hv⟩
          exact hv.covered
  · exact fun _ _ ht => ht

/-- A rollback is admitted for the transaction that is held. -/
theorem names_of_rollbackAdmitted (h : rollbackAdmitted s i = true) : s.Names i := by
  unfold rollbackAdmitted at h
  cases hpending : s.pending with
  | none => simp_all [Host.Names]
  | some content => simp_all [Host.Names]

theorem rollback_holds (i : Id) (h : Covered site base s) :
    Holds faulty (fun _ t => Covered site base t) (fun _ t => Covered site base t)
      (fun _ t => Covered site base t) (rollback i) s := by
  unfold rollback
  simp only [holds_bind, holds_get, holds_require, holds_orExit]
  by_cases hadmitted : rollbackAdmitted s i = true
  · rw [if_pos hadmitted]
    have hnames := names_of_rollbackAdmitted hadmitted
    have hkept : ∃ p, Kept site base i p s := by
      cases h with
      | inl hclosed => exact absurd hnames (hclosed.not_names i)
      | inr hopen =>
        obtain ⟨j, p, hopen, hheld⟩ := hopen
        have hid : i = j := hheld.names_iff.mp hnames
        subst hid
        exact ⟨p, hopen, .inl hheld⟩
    obtain ⟨p, hp⟩ := hkept
    split_ifs with hready
    · refine ⟨?_, fun _ => h⟩
      apply (restoreTransaction_holds hp).weaken
      · rintro ok t ⟨p', ht⟩
        split_ifs
        · exact ht.covered
        · exact ht.covered
      · exact fun _ _ hfalse => hfalse.elim
    · exact h
  · rw [if_neg hadmitted]
    exact h

end HostPrerequisites
