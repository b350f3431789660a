import Mathlib
import WebsiteInfrastructure.HostPrerequisites.Applying

/-!
# Every change is covered by a transaction

Wherever the two scripts are killed, a host that differs from what it was names a valid
transaction, and a restoration that succeeds gives the host back.
-/

namespace HostPrerequisites

open Crash

variable {site : Site} {base : Option Managed} {s t u : Host} {i : Id} {p : Saved}

/-- One run of a script, to its end or to where it is killed; its commands may fail. -/
inductive Attempt (site : Site) : Host → Host → Prop
  | apply {s t : Host} (plan : Plan) (h : Leaves anyFault (apply site plan) s t) : Attempt site s t
  | rollback {s t : Host} (i : Id) (h : Leaves anyFault (rollback i) s t) : Attempt site s t

theorem covered_of_leaves {α : Type} {script : Script α} {post : α → Host → Prop}
    {onExit : Failure → Host → Prop} (hs : Covered site base s)
    (h : Holds anyFault (fun _ t => Covered site base t) post onExit script s)
    (hl : Leaves anyFault script s t) : Covered site base t := by
  have hchanges := h.leaves hl
  cases Relation.ReflTransGen.cases_tail hchanges with
  | inl hsame => rwa [hsame]
  | inr hlast =>
    obtain ⟨u, -, ht⟩ := hlast
    exact ht

theorem Attempt.covered (h : Attempt site s t) (hs : Covered site base s) : Covered site base t := by
  cases h with
  | apply plan hl => exact covered_of_leaves hs (apply_holds hs) hl
  | rollback i hl => exact covered_of_leaves hs (rollback_holds i hs) hl

theorem covered_of_attempts (h : Relation.ReflTransGen (Attempt site) s t)
    (hs : Covered site base s) : Covered site base t := by
  induction h with
  | refl => exact hs
  | tail _ hattempt ih => exact hattempt.covered ih

/-- A host on which no transaction is open is closed over what it has. -/
theorem closed_of_applyAdmitted (h : applyAdmitted s = true) :
    Closed site (some (s.managed site)) s := by
  have hnone : s.active = none ∧ s.pending = none := by
    simpa [applyAdmitted] using h
  exact ⟨hnone.1, .inl hnone.2, fun b hb => by simpa using hb⟩

/-- A restoration that succeeds gives back a host on which its transaction is held. -/
theorem managed_of_restored (h : Kept site base i p s)
    (hr : Reaches anyFault (restoreTransaction i, s) (.ret true, u)) :
    ∀ b ∈ base, u.managed site = b := by
  have hpost := ((restoreTransaction_post s i).reaches hr).2
  have hreleased : ¬ u.Names i := (hpost rfl).2
  obtain ⟨p', hkept⟩ := ((restoreTransaction_holds h).reaches hr).2
  cases hkept.files with
  | inl hheld => exact absurd hheld.names hreleased
  | inr hclosed => exact hclosed.managed

theorem changes_are_covered (site : Site) (s t : Host) (hs : applyAdmitted s = true)
    (ht : Relation.ReflTransGen (Attempt site) s t) :
    (t.managed site ≠ s.managed site → ∃ i, t.Names i ∧ validateTransaction t i = true) ∧
      ∀ i u, Reaches anyFault (restoreTransaction i, t) (.ret true, u) →
        AsRecorded u (t.transaction i) ∧ ¬ u.Names i ∧
          (t.Names i → u.managed site = s.managed site) := by
  have hcovered := covered_of_attempts ht (.inl (closed_of_applyAdmitted hs))
  refine ⟨fun hchanged => ?_, fun i u hr => ?_⟩
  · cases hcovered with
    | inl hclosed => exact absurd (hclosed.managed _ rfl) hchanged
    | inr hopen =>
      obtain ⟨i, p, hopen, hheld⟩ := hopen
      exact ⟨i, hheld.names, validateTransaction_saved hopen.stored hopen.valid⟩
  · have hpost := ((restoreTransaction_post t i).reaches hr).2
    obtain ⟨hrecorded, hreleased⟩ := hpost rfl
    refine ⟨hrecorded, hreleased, fun hnames => ?_⟩
    cases hcovered with
    | inl hclosed => exact absurd hnames (hclosed.not_names i)
    | inr hopen =>
      obtain ⟨j, p, hopen, hheld⟩ := hopen
      have hid : i = j := hheld.names_iff.mp hnames
      subst hid
      exact managed_of_restored ⟨hopen, .inl hheld⟩ hr _ rfl

/-! ## A sample host -/

def sampleSite : Site where
  modulesSource := "m"
  sysctlSource := "s"
  loadedValue _ := 1
  namesOverlay _ := true
  namesBridge _ := true
  fstabSwaps _ := ∅
  disableSwaps fstab := fstab

/-- A host without the managed files and without `br_netfilter`. -/
def sampleHost : Host where
  modules := none
  sysctlFile := none
  fstab := ""
  values _ := 1
  overlay := false
  bridge := false
  swaps := ∅
  machineId := 0
  bootId := 0
  transactions _ := none
  nextId := 0
  pending := none
  active := none

def samplePlan : Plan where
  number := 0
  machineId := 0
  bootId := 0
  modulesTargetState := .absent
  sysctlTargetState := .absent
  fstab := ""
  activeSwaps := ∅
  desiredModules := "m"
  desiredSysctl := "s"
  current k := if k.moduleGated then .unavailable else .number 1
  swapMechanism := .none
  swapAction := .none

/-- The sample host, with an application killed after a number of steps. -/
def killedApply (n : ℕ) : Host := ((apply sampleSite samplePlan).advance n sampleHost).2

theorem attempt_killedApply (n : ℕ) : Attempt sampleSite sampleHost (killedApply n) :=
  .apply samplePlan ⟨_, reaches_advance n _ _⟩

/-- The managed files are there, and nothing else is done yet. -/
theorem changes_are_covered_sample :
    ∃ i, (killedApply 20).Names i ∧ validateTransaction (killedApply 20) i = true := by
  have hchanged : (killedApply 20).managed sampleSite ≠ sampleHost.managed sampleSite := by
    intro heq
    have hmodules : (killedApply 20).modules = sampleHost.modules := congrArg Managed.modules heq
    exact absurd hmodules (by decide)
  exact (changes_are_covered sampleSite sampleHost (killedApply 20) (by decide)
    (.single (attempt_killedApply 20))).1 hchanged

end HostPrerequisites
