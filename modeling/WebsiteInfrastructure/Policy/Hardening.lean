import Mathlib
import WebsiteInfrastructure.Policy.Connectors

/-!
# The hardening of containers

What a container may do as the API server reads it, where null is absent, and what of it the deny
rules can see.
-/

namespace Policy

open Rego

variable {input : Term} {eager : Bool}

/-! ## Dangers -/

section Dangers

variable (container : Term)

def securityField (key : String) : Ref := Ref.path container ["securityContext", key]

def capabilityField (key : String) : Ref :=
  Ref.path container ["securityContext", "capabilities", key]

def MayEscalate : Prop := securityField container "allowPrivilegeEscalation" ≠ some (.bool false)

def WritesRoot : Prop := securityField container "readOnlyRootFilesystem" ≠ some (.bool true)

def IsPrivileged : Prop := securityField container "privileged" = some (.bool true)

def AddsCapability : Prop := (capabilityField container "add").count.any (0 < ·) = true

def KeepsCapabilities : Prop := .str "ALL" ∉ (capabilityField container "drop").each

/-- An image that is no approved reference with a digest, nor that of the reviewed proxy. -/
def UnapprovedImage (input container : Term) : Prop :=
  (Ref.dot container "image").any approvedWorkloadImage = false ∧
    validObsyncProxyContainer input container = false

/-- Whatever a container is not to do. -/
def DangerousContainer (input container : Term) : Prop :=
  MayEscalate container ∨ WritesRoot container ∨ IsPrivileged container ∨
    AddsCapability container ∨ KeepsCapabilities container ∨ UnapprovedImage input container

/-- The regular and the init containers. -/
def hardened (input : Term) : List Term :=
  itemsOf ((podSpec input).dot "containers") ++ itemsOf ((podSpec input).dot "initContainers")

def Dangerous (input : Term) : Prop := ∃ c ∈ hardened input, DangerousContainer input c

/-! ## What the deny rules can see -/

/-- A field that is absent or an object. -/
def Readable (r : Ref) : Prop := ∀ t, r = some t → t.isObject = true

def SecurityReadable : Prop :=
  container.isObject = true ∧ Readable (Ref.dot container "securityContext")

def CapabilitiesReadable : Prop :=
  SecurityReadable container ∧ Readable (securityField container "capabilities")

/-- A danger that a deny rule can see. Whether a negated test of something undefined holds is up to
the compiler. -/
inductive Shown (input : Term) (eager : Bool) (container : Term) : Prop
  | security (hread : SecurityReadable container)
      (hdanger : MayEscalate container ∨ WritesRoot container ∨ IsPrivileged container)
  | capabilities (hread : CapabilitiesReadable container)
      (hdanger : AddsCapability container ∨ KeepsCapabilities container)
  | image (hpresent : (Ref.dot container "image").isSome = true)
      (hdanger : UnapprovedImage input container)
  | unread (hlazy : eager = false) (hread : ¬ CapabilitiesReadable container)
  | imageless (hlazy : eager = false) (habsent : Ref.dot container "image" = none)
      (hdanger : UnapprovedImage input container)

/-- Whether some named container shows a danger, of three lists that are all lists. -/
def Shows (input : Term) (eager : Bool) : Prop :=
  ∃ c ∈ (containers input).each, named c = true ∧ Shown input eager c

end Dangers

/-! ## Reading fields -/

variable {c : Term}

/-- A field behind readable parents is what the policy reads, or its default. -/
theorem get_of_readable {r : Ref} (hobj : ∃ t, r = some t ∧ t.isObject = true) (key : String)
    (default : Term) : r.get key default = some ((r.dot key).getD default) := by
  obtain ⟨t, rfl, ht⟩ := hobj
  cases t with
  | obj fields => rfl
  | _ => cases ht

theorem get_of_not_object {t : Term} (h : t.isObject = false) (key : String) (default : Term) :
    Ref.get t key default = none := by
  cases t with
  | obj fields => cases h
  | _ => rfl

theorem security_of_readable (h : SecurityReadable c) :
    ∃ t, security c = some t ∧ t.isObject = true := by
  obtain ⟨hobj, hread⟩ := h
  rw [security, get_of_readable ⟨c, rfl, hobj⟩]
  cases hdot : Ref.dot c "securityContext" with
  | none => exact ⟨_, rfl, rfl⟩
  | some t => exact ⟨t, rfl, hread t hdot⟩

/-- A readable `securityContext` that is absent has no fields. -/
theorem security_dot (h : SecurityReadable c) (key : String) :
    (security c).dot key = securityField c key := by
  have hpath : securityField c key = (Ref.dot c "securityContext").dot key := rfl
  rw [hpath, security, get_of_readable ⟨c, rfl, h.1⟩]
  cases hdot : Ref.dot c "securityContext" with
  | none => rfl
  | some t => rfl

theorem security_get (h : SecurityReadable c) (key : String) (default : Term) :
    (security c).get key default = some ((securityField c key).getD default) := by
  rw [get_of_readable (security_of_readable h), security_dot h]

theorem security_get_unread (h : ¬ SecurityReadable c) (key : String) (default : Term) :
    (security c).get key default = none := by
  rw [SecurityReadable, not_and_or] at h
  cases hobj : c.isObject with
  | false =>
    rw [security, get_of_not_object hobj]
    rfl
  | true =>
    have hread := h.resolve_left (not_not.mpr hobj)
    rw [Readable, not_forall] at hread
    obtain ⟨t, ht⟩ := hread
    obtain ⟨hdot, hnot⟩ := Classical.not_imp.mp ht
    rw [security, Ref.get_of_dot hdot]
    exact get_of_not_object (by simpa using hnot) _ _

theorem capabilities_of_readable (h : CapabilitiesReadable c) :
    ∃ t, capabilities c = some t ∧ t.isObject = true := by
  obtain ⟨hsecurity, hread⟩ := h
  rw [capabilities, security_get hsecurity]
  cases hdot : securityField c "capabilities" with
  | none => exact ⟨_, rfl, rfl⟩
  | some t => exact ⟨t, rfl, hread t hdot⟩

theorem capabilities_get (h : CapabilitiesReadable c) (key : String) :
    (capabilities c).get key (.arr []) = some ((capabilityField c key).getD (.arr [])) := by
  have hpath : capabilityField c key = (securityField c "capabilities").dot key := rfl
  rw [get_of_readable (capabilities_of_readable h), hpath, capabilities, security_get h.1]
  cases hdot : securityField c "capabilities" with
  | none => rfl
  | some t => rfl

theorem capabilities_get_unread (h : ¬ CapabilitiesReadable c) (key : String) :
    (capabilities c).get key (.arr []) = none := by
  by_cases hsecurity : SecurityReadable c
  · have hread : ¬ Readable (securityField c "capabilities") := fun hread => h ⟨hsecurity, hread⟩
    rw [Readable, not_forall] at hread
    obtain ⟨t, ht⟩ := hread
    obtain ⟨hdot, hnot⟩ := Classical.not_imp.mp ht
    rw [capabilities, security_get hsecurity, hdot, Option.getD_some]
    exact get_of_not_object (by simpa using hnot) _ _
  · rw [capabilities, security_get_unread hsecurity]
    rfl

/-! ## What each rule sees of a container -/

theorem differs_security {key : String} {default expected : Term} (hdefault : default ≠ expected) :
    holds (((security c).get key default).differs expected) = true ↔
      SecurityReadable c ∧ securityField c key ≠ some expected := by
  by_cases h : SecurityReadable c
  · rw [security_get h]
    cases securityField c key with
    | none => simp [Ref.differs, h, hdefault]
    | some t => simp [Ref.differs, h]
  · rw [security_get_unread h]
    simp [Ref.differs, h]

theorem equals_security {key : String} {default expected : Term} (hdefault : default ≠ expected) :
    holds (((security c).get key default).equals expected) = true ↔
      SecurityReadable c ∧ securityField c key = some expected := by
  by_cases h : SecurityReadable c
  · rw [security_get h]
    cases securityField c key with
    | none => simp [Ref.equals, h, hdefault]
    | some t => simp [Ref.equals, h]
  · rw [security_get_unread h]
    simp [Ref.equals, h]

theorem kept_capabilities :
    holdsNot eager (((capabilities c).get "drop" (.arr [])).contains (.str "ALL")) = true ↔
      CapabilitiesReadable c ∧ KeepsCapabilities c ∨ eager = false ∧ ¬ CapabilitiesReadable c := by
  by_cases h : CapabilitiesReadable c
  · have heach : (capabilityField c "drop").each =
        ((capabilityField c "drop").getD (.arr [])).elements := by
      cases capabilityField c "drop" <;> rfl
    rw [capabilities_get h, KeepsCapabilities, heach]
    simp [Ref.contains, h]
  · rw [capabilities_get_unread h]
    simp [Ref.contains, holdsNot, h]

theorem added_capabilities :
    ((capabilities c).get "add" (.arr [])).count.any (0 < ·) = true ↔
      CapabilitiesReadable c ∧ AddsCapability c := by
  by_cases h : CapabilitiesReadable c
  · rw [capabilities_get h, AddsCapability]
    cases capabilityField c "add" with
    | none => simp [Ref.count, h]
    | some t => simp [h]
  · rw [capabilities_get_unread h]
    simp [Ref.count, h]

theorem unapproved_image :
    (holdsNot eager ((Ref.dot c "image").map approvedWorkloadImage) &&
      !validObsyncProxyContainer input c) = true ↔
      UnapprovedImage input c ∧ ((Ref.dot c "image").isSome = true ∨ eager = false) := by
  rw [UnapprovedImage]
  cases Ref.dot c "image" with
  | none =>
    simp [holdsNot]
    tauto
  | some t => simp

/-! ## What the rules see of a workload -/

theorem anyContainer_eq_true {p : Term → Bool} : anyContainer input p = true ↔
    isWorkload input = true ∧ ∃ c ∈ (containers input).each, p c = true := by
  rw [anyContainer, Bool.and_eq_true, List.any_eq_true]

/-- The rules on containers fire for what shows, and for nothing else. -/
theorem denyContainer_iff : denyContainer input eager = true ↔
    isWorkload input = true ∧ Shows input eager := by
  simp only [denyContainer, denyEscalation, denyWritableRoot, denyPrivileged, denyKeptCapabilities,
    denyAddedCapabilities, denyImage, Bool.or_eq_true, anyContainer_eq_true, ← and_or_left,
    ← exists_or]
  refine and_congr_right fun _ => exists_congr fun c => and_congr_right fun _ => ?_
  simp only [Bool.and_eq_true (b := named c), and_comm (b := named c = true), ← and_or_left]
  refine and_congr_right fun _ => ?_
  rw [differs_security (by simp), differs_security (by simp), equals_security (by simp),
    kept_capabilities, added_capabilities, unapproved_image]
  constructor
  · rintro (((((⟨hread, h⟩ | ⟨hread, h⟩) | ⟨hread, h⟩) | h) | ⟨hread, h⟩) | ⟨h, hpresent⟩)
    · exact .security hread (.inl h)
    · exact .security hread (.inr (.inl h))
    · exact .security hread (.inr (.inr h))
    · rcases h with ⟨hread, h⟩ | ⟨hlazy, hread⟩
      · exact .capabilities hread (.inr h)
      · exact .unread hlazy hread
    · exact .capabilities hread (.inl h)
    · rcases hpresent with hpresent | hlazy
      · exact .image hpresent h
      · cases hdot : Ref.dot c "image" with
        | none => exact .imageless hlazy hdot h
        | some t => exact .image (by simp [hdot]) h
  · intro hshown
    cases hshown with
    | security hread hdanger => rcases hdanger with h | h | h <;> tauto
    | capabilities hread hdanger => tauto
    | image hpresent hdanger => tauto
    | unread hlazy hread => tauto
    | imageless hlazy habsent hdanger => tauto

/-! ## Dangers that pass -/

/-- A document that the rules on containers can read. -/
structure Legible (input : Term) : Prop where
  lists : ∃ found, containers input = some found
  containers : ∀ c ∈ hardened input,
    named c = true ∧ CapabilitiesReadable c ∧ (Ref.dot c "image").isSome = true

theorem mem_containers_of_hardened {found : Term} (hfound : containers input = some found)
    (hc : c ∈ hardened input) : c ∈ found.elements := by
  apply mem_containers hfound
  rcases List.mem_append.mp hc with h | h
  · simp [containersOf, h]
  · simp [containersOf, h]

theorem Shown.of_legible (hread : CapabilitiesReadable c)
    (himage : (Ref.dot c "image").isSome = true) (hdanger : DangerousContainer input c) :
    Shown input eager c := by
  rcases hdanger with h | h | h | h | h | h
  · exact .security hread.1 (.inl h)
  · exact .security hread.1 (.inr (.inl h))
  · exact .security hread.1 (.inr (.inr h))
  · exact .capabilities hread (.inl h)
  · exact .capabilities hread (.inr h)
  · exact .image himage h

/-- Of a document they can read, the rules on containers miss no danger. -/
theorem Legible.denied (h : Legible input) (hworkload : isWorkload input = true)
    (hdanger : Dangerous input) : denyContainer input eager = true := by
  obtain ⟨c, hc, hdanger⟩ := hdanger
  obtain ⟨found, hfound⟩ := h.lists
  obtain ⟨hnamed, hread, himage⟩ := h.containers c hc
  have hmem : c ∈ (Policy.containers input).each := by
    rw [hfound]
    exact mem_containers_of_hardened hfound hc
  exact denyContainer_iff.mpr ⟨hworkload, c, hmem, hnamed, .of_legible hread himage hdanger⟩

/-- A workload is denied its dangers exactly when it has none, when one shows, or when it is denied
for something else. -/
theorem dangers_denied_iff (hworkload : isWorkload input = true) :
    (Dangerous input → denyWorkload input eager = true) ↔
      ¬ Dangerous input ∨ Shows input eager ∨ denyElse input eager = true := by
  have hcontainer : denyContainer input eager = true ↔ Shows input eager := by
    rw [denyContainer_iff, and_iff_right hworkload]
  rw [imp_iff_not_or, denyWorkload, Bool.or_eq_true, hcontainer]

/-- A Deployment of one container, with a list of init containers. -/
def sampleDeployment (privileged : Bool) (initContainers : Term) : Term :=
  .obj [("kind", .str "Deployment"),
    ("metadata", .obj [("name", .str "app"), ("namespace", .str "default")]),
    ("spec", .obj [("template", .obj [("spec", .obj [
      ("containers", .arr [.obj [
        ("image", .str ("ghcr.io/snaraj/app@sha256:" ++
          "1111111111111111111111111111111111111111111111111111111111111111")),
        ("name", .str "app"),
        ("securityContext", .obj [("allowPrivilegeEscalation", .bool false),
          ("capabilities", .obj [("drop", .strings ["ALL"])]), ("privileged", .bool privileged),
          ("readOnlyRootFilesystem", .bool true)])]]),
      ("initContainers", initContainers),
      ("securityContext", .obj [("runAsNonRoot", .bool true),
        ("seccompProfile", .obj [("type", .str "RuntimeDefault")])])])])])]

theorem dangers_denied_iff_deployment :
    (Dangerous (sampleDeployment true (.arr [])) →
      denyWorkload (sampleDeployment true (.arr [])) false = true) ↔
      ¬ Dangerous (sampleDeployment true (.arr [])) ∨ Shows (sampleDeployment true (.arr [])) false ∨
        denyElse (sampleDeployment true (.arr [])) false = true :=
  dangers_denied_iff (by decide)

/-- With `initContainers: null` no rule on containers fires. -/
theorem null_hides_privilege :
    isWorkload (sampleDeployment true .null) = true ∧ Dangerous (sampleDeployment true .null) ∧
      ∀ eager, denyWorkload (sampleDeployment true .null) eager = false := by
  refine ⟨by decide, ?_, by decide⟩
  have hprivileged : ∃ c ∈ hardened (sampleDeployment true .null), IsPrivileged c :=
    ⟨_, .head _, rfl⟩
  obtain ⟨c, hc, h⟩ := hprivileged
  exact ⟨c, hc, .inr (.inr (.inl h))⟩

/-- With an empty list it is denied, and without the privilege it passes. -/
example : (∀ eager, denyWorkload (sampleDeployment true (.arr [])) eager = true) ∧
    ∀ eager, denyWorkload (sampleDeployment false (.arr [])) eager = false := by
  decide

end Policy
