import Mathlib
import WebsiteInfrastructure.DestructiveLedger.Ledger

/-!
# The checks one by one

What each check has established where it passes, and what it raises on.
-/

namespace DestructiveLedger

open Json Raising

variable {F : Type} [Floats F] {document v : Value F} {metrics : Metrics} {target : Text}

theorem denied_ne_raised {reason : String} : deny reason ≠ .raised := by
  intro h
  cases h

/-! ## Numbers -/

/-- The number that a value stands for; a truth value is none here. -/
def number? : Value F → Option ℚ
  | .int n => some n
  | .float x => Floats.exact x
  | _ => none

/-- An integer that `math.isfinite` raises on. -/
def overflows : Value F → Bool
  | .int n => !fitsFloat n
  | _ => false

/-- `_metric` holds of the value, which is the number. -/
structure HasMetric (percent : Bool) (v : Value F) (q : ℚ) : Prop where
  fits : overflows v = false
  number : number? v = some q
  inMetric : inMetric percent q = true

/-- A metric that is at most the bound. -/
def Within (v : Value F) (bound : ℚ) : Prop := ∃ q, HasMetric false v q ∧ q ≤ bound

theorem metric_eq_ok {percent : Bool} {q : ℚ} :
    metric percent v = .ok (some q) ↔ HasMetric percent v q := by
  constructor
  · intro h
    cases v with
    | int n =>
      simp only [metric] at h
      split_ifs at h with hfits hmetric
      · cases h
        exact ⟨by simp [overflows, hfits], rfl, hmetric⟩
      · cases h
    | float x =>
      obtain ⟨hexact, hmetric⟩ := Option.filter_eq_some_iff.mp (Except.ok.inj h)
      exact ⟨rfl, hexact, hmetric⟩
    | _ => cases h
  · rintro ⟨hfits, hnumber, hmetric⟩
    cases v with
    | int n =>
      simp only [overflows, Bool.not_eq_false'] at hfits
      cases hnumber
      rw [metric, if_pos hfits, if_pos hmetric]
    | float x => exact congrArg _ (Option.filter_eq_some_iff.mpr ⟨hnumber, hmetric⟩)
    | _ => cases hnumber

theorem metric_eq_raised {percent : Bool} :
    metric percent v = .error .raised ↔ overflows v = true := by
  cases v with
  | int n =>
    simp only [metric]
    split_ifs with hfits <;> simp [overflows, hfits]
  | _ => simp [metric, overflows]

theorem checkWithin_eq_ok {bound : ℚ} {stop : Stop} {u : Unit} :
    checkWithin v bound stop = .ok u ↔ Within v bound := by
  simp only [checkWithin, bind_eq_ok, raiseIf_eq_ok, not_not]
  constructor
  · rintro ⟨observed, hobserved, q, rfl, hle⟩
    exact ⟨q, metric_eq_ok.mp hobserved, hle⟩
  · rintro ⟨q, hmetric, hle⟩
    exact ⟨some q, metric_eq_ok.mpr hmetric, q, rfl, hle⟩

theorem checkWithin_eq_raised {bound : ℚ} {stop : Stop} (hstop : stop ≠ .raised) :
    checkWithin v bound stop = .error .raised ↔ overflows v = true := by
  simp only [checkWithin, bind_eq_error, raiseIf_eq_error, metric_eq_raised, hstop, and_false,
    exists_false, or_false]

/-! ## Sets of names -/

theorem equalsSet_eq_ok {members : List (Value F)} {names : List String} :
    equalsSet members names = .ok true ↔
      (∀ v ∈ members, ∃ name ∈ names, v = .text name) ∧ ∀ name ∈ names, .text name ∈ members := by
  have hequal : (members.all (fun v => names.any fun name => v.eq (.text name)) &&
      names.all fun name => members.any fun v => v.eq (.text name)) = true ↔
      (∀ v ∈ members, ∃ name ∈ names, v = .text name) ∧
        ∀ name ∈ names, .text name ∈ members := by
    simp only [Bool.and_eq_true, List.all_eq_true, List.any_eq_true, Value.eq_text,
      exists_eq_right]
  unfold equalsSet
  split_ifs with hhash
  · rw [Except.ok.injEq, hequal]
  · simp only [false_iff]
    rintro ⟨hmembers, -⟩
    apply hhash
    rw [List.all_eq_true]
    intro v hv
    obtain ⟨name, -, rfl⟩ := hmembers v hv
    rfl

theorem equalsSet_eq_raised {members : List (Value F)} {names : List String} :
    equalsSet members names = .error .raised ↔ ∃ v ∈ members, v.hashable = false := by
  unfold equalsSet
  split_ifs with hhash
  · simp only [false_iff, not_exists, not_and, Bool.not_eq_false]
    exact List.all_eq_true.mp hhash
  · simpa using hhash

omit [Floats F] in
/-- Values that are these names, each of them at least once and no more than the names, are the
names in some order. -/
theorem perm_of_equalsSet {members : List (Value F)} {names : List String} (hnodup : names.Nodup)
    (hlength : members.length ≤ names.length) (h : ∀ name ∈ names, .text name ∈ members) :
    members.Perm (names.map .text) := by
  have hsubset : names.map Value.text ⊆ members := by
    intro v hv
    obtain ⟨name, hname, rfl⟩ := List.mem_map.mp hv
    exact h name hname
  have hinjective : Function.Injective (Value.text : String → Value F) :=
    fun _ _ hst => Value.text_inj.mp hst
  have hsubperm := (hnodup.map hinjective).subperm hsubset
  exact (hsubperm.perm_of_length_le (by simpa using hlength)).symm

/-! ## The head of the document -/

structure HeadPassed (document : Value F) : Prop where
  fields : document.hasExactly topLevelFields = true
  schemaVersion : (document.get "schema_version").eq (.int 1) = true
  authorization : document.get "authorization" = .text "explicit-owner-window"
  classification : document.get "classification" = .text "ephemeral-disposable"
  externalized : (document.get "externalized_state").isTrue = true
  desiredState : isHash (document.get "desired_state_sha256") = true
  artifact : isHash (document.get "artifact_sha256") = true

theorem checkHead_eq_ok {u : Unit} : checkHead document = .ok u ↔ HeadPassed document := by
  simp only [checkHead, raiseIf_bind_eq_ok, raiseIf_eq_ok, not_or, Bool.not_eq_false,
    Value.eq_text]
  constructor
  · rintro ⟨hfields, hschema, hauthorization, hclass, hexternal, hstate, hartifact⟩
    exact ⟨hfields, hschema, hauthorization, hclass, hexternal, hstate, hartifact⟩
  · rintro ⟨hfields, hschema, hauthorization, hclass, hexternal, hstate, hartifact⟩
    exact ⟨hfields, hschema, hauthorization, hclass, hexternal, hstate, hartifact⟩

theorem checkHead_not_raised : checkHead document ≠ .error .raised := by
  simp only [checkHead, ne_eq, bind_eq_error, raiseIf_eq_error, denied_ne_raised, and_false,
    exists_false, or_false, not_false_eq_true]

/-! ## The inventory -/

/-- The text of a field that the inventory identifies a resource by. -/
def textOf (resource : Value F) (key : String) : Text :=
  ((resource.get key).filled?).getD (.scalar "")

def uidOf (resource : Value F) : Text := textOf resource "uid"

def identityOf (resource : Value F) : List Text := identityKeys.map (textOf resource)

def targetsOf (inventory : List (Value F)) : List Text :=
  (inventory.filter fun resource => (resource.get "fault_target").isTrue).map uidOf

structure ResourcePassed (resource : Value F) : Prop where
  fields : resource.hasExactly inventoryFields = true
  identity : ∀ key ∈ identityKeys, ((resource.get key).filled?).isSome = true
  kind : isAllowedKind resource = true
  scope : resource.get "scope" = .text "Namespaced"
  classification : resource.get "classification" = .text "ephemeral-workload"
  target : isBool (resource.get "fault_target") = true

def Seen.extend (seen : Seen) (resource : Value F) : Seen where
  identities := seen.identities ++ [identityOf resource]
  uids := seen.uids ++ [uidOf resource]
  faultTargets := seen.faultTargets ++ targetsOf [resource]

omit [Floats F] in
theorem mapM_filled {resource : Value F} {keys : List String} {fields : List Text} :
    keys.mapM (fun key => (resource.get key).filled?) = some fields ↔
      (∀ key ∈ keys, ((resource.get key).filled?).isSome = true) ∧
        keys.map (textOf resource) = fields := by
  induction keys generalizing fields with
  | nil => simp
  | cons key keys ih =>
    rw [List.mapM_cons, List.forall_mem_cons, List.map_cons, textOf]
    cases hkey : (resource.get key).filled? with
    | none => simp
    | some text =>
      simp only [Option.bind_eq_bind, Option.bind_some, Option.bind_eq_some_iff, ih]
      constructor
      · rintro ⟨rest, ⟨hall, rfl⟩, hfields⟩
        exact ⟨⟨rfl, hall⟩, Option.some.inj hfields⟩
      · rintro ⟨⟨-, hall⟩, hfields⟩
        exact ⟨_, ⟨hall, rfl⟩, congrArg some hfields⟩

theorem targetsOf_singleton {resource : Value F} (h : isBool (resource.get "fault_target") = true) :
    targetsOf [resource] =
      if (resource.get "fault_target").truthy then [uidOf resource] else [] := by
  rw [targetsOf, List.filter_singleton]
  cases htarget : resource.get "fault_target" with
  | bool b => cases b <;> rfl
  | _ =>
    rw [htarget] at h
    cases h

theorem checkResource_eq_ok {seen next : Seen} {resource : Value F} :
    checkResource seen resource = .ok next ↔ ResourcePassed resource ∧
      identityOf resource ∉ seen.identities ∧ uidOf resource ∉ seen.uids ∧
      seen.extend resource = next := by
  have hstep : ∀ uid, (resource.get "uid").filled? = some uid → uid = uidOf resource := by
    intro uid huid
    rw [uidOf, textOf, huid, Option.getD_some]
  unfold checkResource
  rw [raiseIf_bind_eq_ok]
  split
  · next fields uid hfields huid =>
    obtain ⟨hall, rfl⟩ := mapM_filled.mp hfields
    cases hstep uid huid
    simp only [raiseIf_bind_eq_ok, Except.ok.injEq, not_or, Bool.not_eq_false, Value.eq_text]
    constructor
    · rintro ⟨hkeys, hidentity, hfresh, hkind, ⟨hscope, hclass⟩, htarget, rfl⟩
      refine ⟨⟨hkeys, hall, hkind, hscope, hclass, htarget⟩, hidentity, hfresh, ?_⟩
      rw [Seen.extend, targetsOf_singleton htarget]
      rfl
    · rintro ⟨⟨hkeys, -, hkind, hscope, hclass, htarget⟩, hidentity, hfresh, rfl⟩
      refine ⟨hkeys, hidentity, hfresh, hkind, ⟨hscope, hclass⟩, htarget, ?_⟩
      rw [Seen.extend, targetsOf_singleton htarget]
      rfl
  · next hnone =>
    simp only [reduceCtorEq, and_false, false_iff]
    rintro ⟨⟨-, hall, -⟩, -⟩
    have huid := hall "uid" (by simp [identityKeys])
    obtain ⟨uid, huid⟩ := Option.isSome_iff_exists.mp huid
    exact hnone _ _ (mapM_filled.mpr ⟨hall, rfl⟩) huid

theorem checkResource_not_raised {seen : Seen} {resource : Value F} :
    checkResource seen resource ≠ .error .raised := by
  unfold checkResource
  split <;>
  simp only [ne_eq, bind_eq_error, raiseIf_eq_error, denied_ne_raised, and_false, exists_false,
    or_false, not_false_eq_true, reduceCtorEq, Except.error.injEq]

omit [Floats F] in
theorem targetsOf_cons (resource : Value F) (inventory : List (Value F)) :
    targetsOf (resource :: inventory) = targetsOf [resource] ++ targetsOf inventory := by
  rw [targetsOf, ← List.singleton_append, List.filter_append, List.map_append]
  rfl

/-- What has been seen behind these resources. -/
def Seen.extendAll (seen : Seen) (inventory : List (Value F)) : Seen where
  identities := seen.identities ++ inventory.map identityOf
  uids := seen.uids ++ inventory.map uidOf
  faultTargets := seen.faultTargets ++ targetsOf inventory

omit [Floats F] in
theorem extendAll_cons (seen : Seen) (resource : Value F) (inventory : List (Value F)) :
    seen.extendAll (resource :: inventory) = (seen.extend resource).extendAll inventory := by
  simp [Seen.extendAll, Seen.extend, targetsOf_cons resource inventory]

/-- The loop over the inventory passes where the resources pass and no identifier comes twice; with
one identity one identifier comes twice. -/
theorem carry_checkResource {seen next : Seen} {inventory : List (Value F)}
    (hseen : ∀ fields ∈ seen.identities, ∀ uid ∈ fields.getLast?, uid ∈ seen.uids) :
    carry checkResource seen inventory = .ok next ↔
      (∀ resource ∈ inventory, ResourcePassed resource) ∧ (inventory.map uidOf).Nodup ∧
        (∀ resource ∈ inventory, uidOf resource ∉ seen.uids) ∧
        seen.extendAll inventory = next := by
  induction inventory generalizing seen with
  | nil =>
    have hnil : seen.extendAll ([] : List (Value F)) = seen := by
      simp [Seen.extendAll, targetsOf]
    simp [carry, hnil]
  | cons resource inventory ih =>
    have hlast : (identityOf resource).getLast? = some (uidOf resource) := rfl
    have hnext : ∀ fields ∈ (seen.extend resource).identities, ∀ uid ∈ fields.getLast?,
        uid ∈ (seen.extend resource).uids := by
      intro fields hfields uid huid
      rcases List.mem_append.mp hfields with hold | hnew
      · exact List.mem_append_left _ (hseen fields hold uid huid)
      · rw [List.mem_singleton.mp hnew, hlast, Option.mem_some_iff] at huid
        exact List.mem_append_right _ (by simp [huid])
    rw [carry, bind_eq_ok, List.forall_mem_cons, List.forall_mem_cons, List.map_cons,
      List.nodup_cons, extendAll_cons]
    constructor
    · rintro ⟨_, hstep, hrest⟩
      obtain ⟨hpassed, -, hfresh, rfl⟩ := checkResource_eq_ok.mp hstep
      obtain ⟨hall, hnodup, hapart, hfinal⟩ := (ih hnext).mp hrest
      have hout : ∀ other ∈ inventory, uidOf other ∉ seen.uids ∧ uidOf other ≠ uidOf resource := by
        intro other hother
        have h := hapart other hother
        simp only [Seen.extend, List.mem_append, List.mem_singleton, not_or] at h
        exact h
      refine ⟨⟨hpassed, hall⟩, ⟨fun hmem => ?_, hnodup⟩, ⟨hfresh, fun r hr => (hout r hr).1⟩,
        hfinal⟩
      obtain ⟨other, hother, hsame⟩ := List.mem_map.mp hmem
      exact (hout other hother).2 hsame
    · rintro ⟨⟨hpassed, hall⟩, ⟨hnot, hnodup⟩, ⟨hfresh, hapart⟩, hfinal⟩
      refine ⟨_, checkResource_eq_ok.mpr ⟨hpassed, fun hmem => ?_, hfresh, rfl⟩,
        (ih hnext).mpr ⟨hall, hnodup, fun other hother => ?_, hfinal⟩⟩
      · exact hfresh (hseen _ hmem _ hlast)
      · simp only [Seen.extend, List.mem_append, List.mem_singleton, not_or]
        refine ⟨hapart other hother, fun hsame => ?_⟩
        exact hnot (List.mem_map.mpr ⟨other, hother, hsame⟩)

theorem carry_not_raised {seen : Seen} {inventory : List (Value F)} :
    carry checkResource seen inventory ≠ .error .raised := by
  induction inventory generalizing seen with
  | nil => simp [carry]
  | cons resource inventory ih =>
    rw [carry, ne_eq, bind_eq_error, not_or]
    refine ⟨checkResource_not_raised, ?_⟩
    rintro ⟨next, -, h⟩
    exact ih h

/-- The resources pass, with distinct identifiers, and one of them is the fault target. -/
structure InventoryPassed (document : Value F) (target : Text) (inventory : List (Value F)) :
    Prop where
  listed : items? (document.get "inventory") = some inventory
  nonempty : 1 ≤ inventory.length
  bounded : inventory.length ≤ maxInventory
  passed : ∀ resource ∈ inventory, ResourcePassed resource
  distinct : (inventory.map uidOf).Nodup
  target : targetsOf inventory = [target]

theorem checkInventory_eq_ok : checkInventory document = .ok target ↔
    ∃ inventory, InventoryPassed document target inventory := by
  unfold checkInventory
  split
  · next hnone =>
    simp only [reduceCtorEq, false_iff, not_exists]
    intro inventory h
    rw [h.listed] at hnone
    cases hnone
  · next inventory hlisted =>
    have hempty : ∀ fields ∈ (⟨[], [], []⟩ : Seen).identities, ∀ uid ∈ fields.getLast?,
        uid ∈ (⟨[], [], []⟩ : Seen).uids := by simp
    rw [raiseIf_bind_eq_ok, bind_eq_ok]
    constructor
    · rintro ⟨hbounds, seen, hseen, htarget⟩
      obtain ⟨hpassed, hnodup, -, rfl⟩ := (carry_checkResource hempty).mp hseen
      rw [not_or, not_lt, not_lt] at hbounds
      split at htarget
      · next found hfound =>
        cases htarget
        exact ⟨inventory, hlisted, hbounds.1, hbounds.2, hpassed, hnodup, hfound⟩
      · cases htarget
    · rintro ⟨_, h⟩
      obtain rfl := Option.some.inj (hlisted.symm.trans h.listed)
      have hnot : ¬ (inventory.length < 1 ∨ maxInventory < inventory.length) := by
        rw [not_or, not_lt, not_lt]
        exact ⟨h.nonempty, h.bounded⟩
      refine ⟨hnot, _, (carry_checkResource hempty).mpr ⟨h.passed, h.distinct, by simp, rfl⟩, ?_⟩
      have htargets : ((⟨[], [], []⟩ : Seen).extendAll inventory).faultTargets = [target] :=
        h.target
      simp only [htargets]

theorem checkInventory_not_raised : checkInventory document ≠ .error .raised := by
  unfold checkInventory
  split
  · simp [deny]
  · rw [ne_eq, bind_eq_error, raiseIf_eq_error, not_or]
    refine ⟨fun h => denied_ne_raised h.2, ?_⟩
    rintro ⟨_, -, h⟩
    rcases bind_eq_error.mp h with h | ⟨seen, -, h⟩
    · exact carry_not_raised h
    · split at h
      · cases h
      · cases h

/-! ## The exclusions and the metrics -/

/-- The exclusions are the required ones, each of them once. -/
def ExclusionsPassed (document : Value F) : Prop :=
  ∃ exclusions, items? (document.get "protected_exclusions") = some exclusions ∧
    exclusions.Perm (protectedExclusions.map .text)

/-- An exclusion is a list or an object. -/
def ExclusionsRaise (document : Value F) : Prop :=
  ∃ exclusions, items? (document.get "protected_exclusions") = some exclusions ∧
    ∃ v ∈ exclusions, v.hashable = false

theorem checkExclusions_eq_ok {u : Unit} :
    checkExclusions document = .ok u ↔ ExclusionsPassed document := by
  unfold checkExclusions
  split
  · next hnone => simp [ExclusionsPassed, hnone]
  · next exclusions hlisted =>
    simp only [bind_eq_ok, raiseIf_eq_ok, not_or, Bool.not_eq_false, not_ne_iff]
    constructor
    · rintro ⟨_, hsame, rfl, hlength⟩
      obtain ⟨-, hnames⟩ := equalsSet_eq_ok.mp hsame
      exact ⟨exclusions, hlisted, perm_of_equalsSet (by decide) hlength.le hnames⟩
    · rintro ⟨_, hlisted', hperm⟩
      obtain rfl := Option.some.inj (hlisted.symm.trans hlisted')
      refine ⟨true, equalsSet_eq_ok.mpr ⟨fun v hv => ?_, fun name hname => ?_⟩, rfl, ?_⟩
      · obtain ⟨name, hname, hv⟩ := List.mem_map.mp (hperm.mem_iff.mp hv)
        exact ⟨name, hname, hv.symm⟩
      · exact hperm.mem_iff.mpr (List.mem_map.mpr ⟨name, hname, rfl⟩)
      · rw [hperm.length_eq, List.length_map]

theorem checkExclusions_eq_raised :
    checkExclusions document = .error .raised ↔ ExclusionsRaise document := by
  unfold checkExclusions
  split
  · next hnone => simp [ExclusionsRaise, hnone, deny]
  · next exclusions hlisted =>
    simp only [bind_eq_error, equalsSet_eq_raised, raiseIf_eq_error, denied_ne_raised, and_false,
      exists_false, or_false, ExclusionsRaise, hlisted, Option.some.injEq, exists_eq_left']

def metricKeys : List String :=
  ["expected_downtime_seconds", "rto_seconds", "readiness_seconds", "availability_percent"]

/-- The metrics are numbers in their range. -/
structure MetricsPassed (document : Value F) (metrics : Metrics) : Prop where
  fields : (document.get "acceptance_metrics").hasExactly metricFields = true
  expectedDowntime : HasMetric false ((document.get "acceptance_metrics").get
    "expected_downtime_seconds") metrics.expectedDowntime
  rto : HasMetric false ((document.get "acceptance_metrics").get "rto_seconds") metrics.rto
  readiness : HasMetric false ((document.get "acceptance_metrics").get "readiness_seconds")
    metrics.readiness
  availability : HasMetric true ((document.get "acceptance_metrics").get "availability_percent")
    metrics.availability
  rto_pos : 0 < metrics.rto
  readiness_pos : 0 < metrics.readiness

/-- Of values that are read one after the other, the first that is not as required overflows. -/
def FirstOverflows : List (Value F × Prop) → Prop
  | [] => False
  | (v, passes) :: later => overflows v = true ∨ passes ∧ FirstOverflows later

/-- A metric overflows, and those before it are numbers in their range. -/
def MetricsRaise (document : Value F) : Prop :=
  (document.get "acceptance_metrics").hasExactly metricFields = true ∧
    FirstOverflows (metricKeys.map fun key =>
      ((document.get "acceptance_metrics").get key,
        ∃ q, HasMetric (key = "availability_percent")
          ((document.get "acceptance_metrics").get key) q))

theorem checkMetric_eq_ok {key : String} {q : ℚ} : checkMetric v key = .ok q ↔
    HasMetric (key = "availability_percent") (v.get key) q := by
  rw [← metric_eq_ok, checkMetric, bind_eq_ok]
  constructor
  · rintro ⟨value, hvalue, h⟩
    cases value with
    | none => cases h
    | some found =>
      cases h
      exact hvalue
  · exact fun h => ⟨some q, h, rfl⟩

theorem checkMetric_eq_raised {key : String} :
    checkMetric v key = .error .raised ↔ overflows (v.get key) = true := by
  rw [checkMetric, bind_eq_error, metric_eq_raised]
  constructor
  · rintro (h | ⟨value, -, h⟩)
    · exact h
    · cases value <;> cases h
  · exact .inl

theorem checkMetrics_eq_ok :
    checkMetrics document = .ok metrics ↔ MetricsPassed document metrics := by
  simp only [checkMetrics, bind_eq_ok, raiseIf_eq_ok, exists_const, checkMetric_eq_ok, not_or,
    not_le, Bool.not_eq_false, Except.ok.injEq]
  constructor
  · rintro ⟨hfields, _, hdowntime, _, hrto, _, hready, _, havailable, ⟨hpos, hpos'⟩, rfl⟩
    exact ⟨hfields, hdowntime, hrto, hready, havailable, hpos, hpos'⟩
  · rintro ⟨hfields, hdowntime, hrto, hready, havailable, hpos, hpos'⟩
    exact ⟨hfields, _, hdowntime, _, hrto, _, hready, _, havailable, ⟨hpos, hpos'⟩, rfl⟩

theorem checkMetrics_eq_raised :
    checkMetrics document = .error .raised ↔ MetricsRaise document := by
  simp only [checkMetrics, bind_eq_error, raiseIf_eq_error, denied_ne_raised, and_false, false_or,
    raiseIf_eq_ok, exists_const, Bool.not_eq_false, checkMetric_eq_raised, checkMetric_eq_ok,
    reduceCtorEq, or_false, exists_and_right, MetricsRaise, metricKeys,
    List.map_cons, List.map_nil, FirstOverflows]

end DestructiveLedger
