import Mathlib
import WebsiteInfrastructure.Inventory.Acceptance

/-!
# The ownership closure of an accepted inventory

Every captured Pod is a mirror of a static manifest or belongs to one captured controller.
-/

namespace RuntimeInventory

open Json Raising

variable {F : Type}

/-! ## UIDs of the controllers -/

/-- The last object with a UID is the object itself, for each object. -/
def Resolved (entries : List (Identity × Value F)) : Prop :=
  ∀ e ∈ entries, ∃ u, uid? e.2 = some u ∧ (identityByUid entries).lookup u = some e.1

theorem eq_of_key {entries : List (Identity × Value F)} (h : (entries.map Prod.fst).Nodup)
    {e e' : Identity × Value F} (he : e ∈ entries) (he' : e' ∈ entries) (heq : e.1 = e'.1) :
    e = e' :=
  List.inj_on_of_nodup_map h he he' heq

/-- If each object is what some UID stands for, the UIDs differ. -/
theorem resolved_of_found {entries : List (Identity × Value F)} (h : (entries.map Prod.fst).Nodup)
    (hfound : ∀ e ∈ entries, ∃ u, (identityByUid entries).lookup u = some e.1) :
    Resolved entries := by
  intro e he
  obtain ⟨u, hu⟩ := hfound e he
  obtain ⟨e', he', huid, hkey⟩ := identityByUid_lookup hu
  rw [eq_of_key h he' he hkey] at huid
  exact ⟨u, huid, hu⟩

theorem Resolved.key_eq {entries : List (Identity × Value F)} (h : Resolved entries)
    {e : Identity × Value F} (he : e ∈ entries) {u : Text} (hu : uid? e.2 = some u) :
    (identityByUid entries).lookup u = some e.1 := by
  obtain ⟨u', hu', hlookup⟩ := h e he
  rwa [Option.some.inj (hu.symm.trans hu')]

theorem Resolved.eq_of_uid {entries : List (Identity × Value F)} (h : Resolved entries)
    (hkeys : (entries.map Prod.fst).Nodup) {e e' : Identity × Value F} (he : e ∈ entries)
    (he' : e' ∈ entries) (heq : uid? e.2 = uid? e'.2) : e = e' := by
  obtain ⟨u, hu, hlookup⟩ := h e he
  have hlookup' := h.key_eq he' (heq ▸ hu)
  exact eq_of_key hkeys he he' (Option.some.inj (hlookup.symm.trans hlookup'))

theorem Resolved.nodup {entries : List (Identity × Value F)} (h : Resolved entries)
    (hkeys : (entries.map Prod.fst).Nodup) : (entries.map fun e => uid? e.2).Nodup := by
  refine List.Nodup.map_on (fun e he e' he' heq => ?_) hkeys.of_map
  exact h.eq_of_uid hkeys he he' heq

/-! ## Items and entries -/

theorem Listed.identities {items : List (Value F)} {entries : List (Identity × Value F)}
    (h : Listed items entries) : items.map identity? = (entries.map Prod.fst).map some := by
  rw [← h.items, List.map_map, List.map_map]
  exact List.map_congr_left h.identity

theorem Listed.perm {items : List (Value F)} {entries : List (Identity × Value F)}
    (h : Listed items entries) {expected : List Identity} (hnodup : expected.Nodup)
    (hkeys : ∀ i, i ∈ entries.map Prod.fst ↔ i ∈ expected) :
    (items.map identity?).Perm (expected.map some) := by
  rw [h.identities]
  exact ((List.perm_ext_iff_of_nodup h.nodup hnodup).mpr hkeys).map _

theorem Listed.uids {items : List (Value F)} {entries : List (Identity × Value F)}
    (h : Listed items entries) : items.map uid? = entries.map fun e => uid? e.2 := by
  rw [← h.items, List.map_map]
  rfl

/-- A statement about each entry is one about each item. -/
theorem Listed.forall_items {items : List (Value F)} {entries : List (Identity × Value F)}
    (h : Listed items entries) {P : Value F → Prop} (hP : ∀ e ∈ entries, P e.2) :
    ∀ item ∈ items, P item := by
  rw [← h.items]
  exact List.forall_mem_map.mpr hP

theorem Listed.mem_items {items : List (Value F)} {entries : List (Identity × Value F)}
    (h : Listed items entries) {e : Identity × Value F} (he : e ∈ entries) : e.2 ∈ items :=
  h.items ▸ List.mem_map_of_mem he

theorem Listed.exists_entry {items : List (Value F)} {entries : List (Identity × Value F)}
    (h : Listed items entries) {item : Value F} (hitem : item ∈ items) :
    ∃ e ∈ entries, e.2 = item :=
  List.mem_map.mp (h.items ▸ hitem)

/-! ## What is claimed of the captures -/

variable [Interpreter F]

/-- Whether a ReplicaSet asks for Pods. -/
def Active (r : Value F) : Prop := ∃ n, replicas? r = some n ∧ n ≠ 0

/-- Whether a Pod belongs to a Deployment through one of the captured ReplicaSets. -/
def runsFor (replicasets : List (Value F)) (d pod : Value F) : Bool :=
  replicasets.any fun r => owns "Deployment" d r && owns "ReplicaSet" r pod

/-- The chain of owners from a Pod over the single active ReplicaSet of a Deployment. -/
structure RunsThrough (replicasets : List (Value F)) (d r pod : Value F) : Prop where
  captured : r ∈ replicasets
  active : Active r
  owned : owns "Deployment" d r = true
  single : ∀ r' ∈ replicasets, Active r' → owns "Deployment" d r' = true → r' = r
  owner : owns "ReplicaSet" r pod = true

/-- The closure: which Pods and ReplicaSets there are, and whose. -/
structure Closed (node : Text) (deployments daemonsets replicasets pods : List (Value F)) :
    Prop where
  listed : ∃ p, (p = cilium ∨ p = calico) ∧
    (deployments.map identity?).Perm (p.deployments.map some) ∧
    (daemonsets.map identity?).Perm (p.daemonsets.map some)
  told : (deployments.map uid?).Nodup ∧ (daemonsets.map uid?).Nodup ∧
    (replicasets.map uid?).Nodup ∧ (pods.map uid?).Nodup
  standing : ∀ pod ∈ pods, Mirrors node pod ∧ Unowned pod ∨
    (∃! s, s ∈ daemonsets ∧ owns "DaemonSet" s pod = true) ∧ controllerUid "ReplicaSet" pod = none ∨
    (∃! d, d ∈ deployments ∧ runsFor replicasets d pod = true) ∧
      (∀ d ∈ deployments, runsFor replicasets d pod = true → ∃ r, RunsThrough replicasets d r pod) ∧
      controllerUid "DaemonSet" pod = none
  mirrors : ∀ i ∈ staticExpected node, ∃! pod, pod ∈ pods ∧ identity? pod = some i ∧ Unowned pod
  desired : ∀ s ∈ daemonsets, desired? s = some (pods.countP (owns "DaemonSet" s) : ℤ)
  replicas : ∀ d ∈ deployments, replicas? d = some (pods.countP (runsFor replicasets d) : ℤ)
  active : ∀ r ∈ replicasets, Active r → ∃! d, d ∈ deployments ∧ owns "Deployment" d r = true
  single : ∀ d ∈ deployments, ∃! r, r ∈ replicasets ∧ Active r ∧ owns "Deployment" d r = true

section Accepted

variable {pins : Pins} {captures : Captures F} {p : Provider} {c : Controllers F} {chain : Chain}
  {replicasets : List (Identity × Value F)} {tally : Tally}

theorem Inventoried.tallied (h : Inventoried pins captures p c chain replicasets tally) :
    Tallied c chain (itemsOf captures "pods.json") tally := by
  exact carry_invariant (Tallied c chain) (fun _ _ _ _ => tallied_step)
    ⟨rfl, by simp, by simp, rfl, by simp, by simp⟩ h.carried

theorem Inventoried.resolved (h : Inventoried pins captures p c chain replicasets tally) :
    Resolved c.deployments := by
  refine resolved_of_found h.established.deployments.nodup fun e he => ?_
  obtain ⟨a, ha, hkey⟩ := List.mem_map.mp (h.covered e he)
  obtain ⟨r, -, n, -, hlink⟩ := h.chained.active a ha
  obtain ⟨u, -, hlookup⟩ := hlink.owner
  exact ⟨u, hkey ▸ hlookup⟩

/-- The counted Pods of each controller are as many as it asks for. -/
theorem Inventoried.count_eq (h : Inventoried pins captures p c chain replicasets tally) :
    (c.deployments.map fun d => (d.1, (((itemsOf captures "pods.json").countP fun pod =>
      parentOf c chain pod = some d.1 : ℕ) : ℤ))) = c.deploymentReplicas ∧
    (c.daemonsets.map fun d => (d.1, (((itemsOf captures "pods.json").countP fun pod =>
      parentOf c chain pod = some d.1 : ℕ) : ℤ))) = c.daemonsetDesired := by
  have hcounts := h.tallied.counts
  rw [h.counts, List.map_append] at hcounts
  have hlength := h.established.replicas.length_eq
  obtain ⟨hreplicas, hdesired⟩ := List.append_inj hcounts (by simp [hlength])
  exact ⟨hreplicas.symm, hdesired.symm⟩

theorem Inventoried.replicas_eq (h : Inventoried pins captures p c chain replicasets tally)
    {d : Identity × Value F} (hd : d ∈ c.deployments) :
    replicas? d.2 = some (((itemsOf captures "pods.json").countP fun pod =>
      parentOf c chain pod = some d.1 : ℕ) : ℤ) := by
  have hforall := h.established.replicas
  rw [← h.count_eq.1, List.forall₂_map_right_iff, List.forall₂_same] at hforall
  exact (checkDeployment_eq_ok (hforall d hd)).2.1

theorem Inventoried.desired_eq (h : Inventoried pins captures p c chain replicasets tally)
    {d : Identity × Value F} (hd : d ∈ c.daemonsets) :
    desired? d.2 = some (((itemsOf captures "pods.json").countP fun pod =>
        parentOf c chain pod = some d.1 : ℕ) : ℤ) ∧
      ((itemsOf captures "pods.json").countP fun pod => parentOf c chain pod = some d.1) = 1 := by
  have hforall := h.established.desired
  rw [← h.count_eq.2, List.forall₂_map_right_iff, List.forall₂_same] at hforall
  obtain ⟨-, ⟨hdesired, hone⟩, -⟩ := checkDaemonset_eq_ok (hforall d hd)
  have hcount : (((itemsOf captures "pods.json").countP fun pod =>
      parentOf c chain pod = some d.1 : ℕ) : ℤ) = 1 := hone
  exact ⟨hdesired, by exact_mod_cast hcount⟩

theorem Inventoried.not_both (h : Inventoried pins captures p c chain replicasets tally)
    {i : Identity} (hd : i ∈ c.deployments.map Prod.fst) : i ∉ c.daemonsets.map Prod.fst := by
  rw [h.established.isDaemonset]
  exact (nodup_controllers h.established.provider).2.2 i ((h.established.isDeployment i).mp hd)

theorem Inventoried.daemons_resolved (h : Inventoried pins captures p c chain replicasets tally) :
    Resolved c.daemonsets := by
  refine resolved_of_found h.established.daemonsets.nodup fun e he => ?_
  have hpos : 0 < (itemsOf captures "pods.json").countP fun pod =>
      parentOf c chain pod = some e.1 := by
    rw [(h.desired_eq he).2]
    exact one_pos
  obtain ⟨pod, hpod, hparent⟩ := List.countP_pos_iff.mp hpos
  have hparent := of_decide_eq_true hparent
  rcases h.tallied.standing pod hpod with ⟨-, hunowned⟩ | ⟨parent, hr | hs⟩
  · rw [parentOf_of_unowned hunowned] at hparent
    cases hparent
  · rw [hr.parentOf_eq] at hparent
    obtain rfl := Option.some.inj hparent
    exact absurd (List.mem_map_of_mem he) (h.not_both hr.listed)
  · rw [hs.parentOf_eq] at hparent
    obtain rfl := Option.some.inj hparent
    obtain ⟨u, -, hlookup⟩ := hs.owner
    exact ⟨u, hlookup⟩

/-! ## Links -/

theorem Inventoried.replicaset_eq (h : Inventoried pins captures p c chain replicasets tally)
    {r r' : Identity × Value F} (hr : r ∈ replicasets) (hr' : r' ∈ replicasets)
    (heq : uid? r.2 = uid? r'.2) : r = r' :=
  List.inj_on_of_nodup_map h.stable hr hr' heq

/-- A Deployment owns a ReplicaSet exactly when the ReplicaSet is linked to it. -/
theorem Inventoried.owns_iff (h : Inventoried pins captures p c chain replicasets tally)
    {d r : Identity × Value F} (hd : d ∈ c.deployments) {parent : Identity} {uid : Text} {n : ℤ}
    (hlink : Link c r parent uid n) : owns "Deployment" d.2 r.2 = true ↔ parent = d.1 := by
  obtain ⟨u, hu, hlookup⟩ := hlink.owner
  rw [owns_eq_true]
  constructor
  · rintro ⟨u', hd', hu'⟩
    obtain rfl := Option.some.inj (hu.symm.trans hu')
    exact Option.some.inj (hlookup.symm.trans (h.resolved.key_eq hd hd'))
  · rintro rfl
    obtain ⟨e, he, huid, hkey⟩ := identityByUid_lookup hlookup
    rw [eq_of_key h.established.deployments.nodup he hd hkey] at huid
    exact ⟨u, huid, hu⟩

theorem Link.active_iff {r : Identity × Value F} {parent : Identity} {uid : Text} {n : ℤ}
    (hlink : Link c r parent uid n) : Active r.2 ↔ n ≠ 0 := by
  constructor
  · rintro ⟨m, hm, hne⟩
    rwa [Option.some.inj (hlink.replicas.symm.trans hm)]
  · exact fun hne => ⟨n, hlink.replicas, hne⟩

theorem Inventoried.parentOf_daemonset (h : Inventoried pins captures p c chain replicasets tally)
    {s : Identity × Value F} (hs : s ∈ c.daemonsets) {pod : Value F}
    (hpod : pod ∈ itemsOf captures "pods.json") :
    parentOf c chain pod = some s.1 ↔ owns "DaemonSet" s.2 pod = true := by
  rw [owns_eq_true]
  rcases h.tallied.standing pod hpod with ⟨-, hunowned⟩ | ⟨parent, hr | hd⟩
  · rw [parentOf_of_unowned hunowned, hunowned.2]
    simp
  · rw [hr.parentOf_eq, hr.other]
    have hne : parent ≠ s.1 := by
      rintro rfl
      exact h.not_both hr.listed (List.mem_map_of_mem hs)
    simp [hne]
  · rw [hd.parentOf_eq]
    obtain ⟨u, hu, hlookup⟩ := hd.owner
    rw [hu]
    constructor
    · intro heq
      obtain rfl := Option.some.inj heq
      obtain ⟨e, he, huid, hkey⟩ := identityByUid_lookup hlookup
      rw [eq_of_key h.established.daemonsets.nodup he hs hkey] at huid
      exact ⟨u, huid, rfl⟩
    · rintro ⟨u', hs', hu'⟩
      obtain rfl := Option.some.inj hu'
      rw [← hlookup]
      exact h.daemons_resolved.key_eq hs hs'

/-- The ReplicaSet that a counted Pod of a Deployment names. -/
theorem Inventoried.replicaset_of (h : Inventoried pins captures p c chain replicasets tally)
    {pod : Value F} {parent : Identity} (hpod : OfReplicaset c chain pod parent) :
    ∃ r ∈ replicasets, ∃ u n, n ≠ 0 ∧ controllerUid "ReplicaSet" pod = some u ∧
      Link c r parent u n := by
  obtain ⟨u, hu, -, hactive⟩ := hpod.owner
  obtain ⟨r, hr, n, hn, hlink⟩ := h.chained.active _ (mem_of_lookup hactive)
  exact ⟨r, hr, u, n, hn, hu, hlink⟩

theorem runsFor_eq_true {d pod : Value F} {items : List (Value F)} : runsFor items d pod = true ↔
    ∃ r ∈ items, owns "Deployment" d r = true ∧ owns "ReplicaSet" r pod = true := by
  simp [runsFor]

theorem Inventoried.parentOf_deployment (h : Inventoried pins captures p c chain replicasets tally)
    {d : Identity × Value F} (hd : d ∈ c.deployments) {pod : Value F}
    (hpod : pod ∈ itemsOf captures "pods.json") :
    parentOf c chain pod = some d.1 ↔
      runsFor (itemsOf captures "replicasets.json") d.2 pod = true := by
  rw [runsFor_eq_true, ← h.listed.items]
  simp only [List.mem_map, exists_exists_and_eq_and]
  rcases h.tallied.standing pod hpod with ⟨-, hunowned⟩ | ⟨parent, hr | hs⟩
  · rw [parentOf_of_unowned hunowned]
    simp [owns_eq_true, hunowned.1]
  · rw [hr.parentOf_eq, Option.some.injEq]
    obtain ⟨r, hmem, u, n, -, hu, hlink⟩ := h.replicaset_of hr
    constructor
    · intro heq
      exact ⟨r, hmem, (h.owns_iff hd hlink).mpr heq, owns_eq_true.mpr ⟨u, hlink.uid, hu⟩⟩
    · rintro ⟨r', hmem', hown, hself⟩
      obtain ⟨u', hu', hpod'⟩ := owns_eq_true.mp hself
      obtain rfl := Option.some.inj (hu.symm.trans hpod')
      obtain rfl := h.replicaset_eq hmem hmem' (hlink.uid.trans hu'.symm)
      exact (h.owns_iff hd hlink).mp hown
  · rw [hs.parentOf_eq]
    have hne : parent ≠ d.1 := by
      rintro rfl
      obtain ⟨u, -, hlookup⟩ := hs.owner
      obtain ⟨e, he, -, hkey⟩ := identityByUid_lookup hlookup
      exact h.not_both (List.mem_map_of_mem hd) (hkey ▸ List.mem_map_of_mem he)
    simp [owns_eq_true, hs.other, hne]

/-- Each Deployment has one ReplicaSet with replicas. -/
theorem Inventoried.single_active (h : Inventoried pins captures p c chain replicasets tally)
    {d : Identity × Value F} (hd : d ∈ c.deployments) :
    ∃ r ∈ replicasets, (Active r.2 ∧ owns "Deployment" d.2 r.2 = true) ∧
      ∀ r' ∈ replicasets, Active r'.2 → owns "Deployment" d.2 r'.2 = true → r' = r := by
  obtain ⟨a, ha, hkey⟩ := List.mem_map.mp (h.covered d hd)
  obtain ⟨r, hr, n, hn, hlink⟩ := h.chained.active a ha
  refine ⟨r, hr, ⟨hlink.active_iff.mpr hn, (h.owns_iff hd hlink).mpr hkey⟩, ?_⟩
  intro r' hr' hactive hown
  obtain ⟨parent, uid, n', hlink', hin⟩ := h.chained.linked r' hr'
  obtain rfl := (h.owns_iff hd hlink').mp hown
  -- Both are active for the same Deployment, which has one entry in the chain.
  have hsame : (d.1, uid) = a :=
    List.inj_on_of_nodup_map h.chained.single (hin (hlink'.active_iff.mp hactive)) ha hkey.symm
  refine h.replicaset_eq hr' hr ?_
  rw [hlink'.uid, hlink.uid, ← hsame]

/-- The chain of owners of a Pod of a Deployment. -/
theorem Inventoried.runs_through (h : Inventoried pins captures p c chain replicasets tally)
    {d : Identity × Value F} (hd : d ∈ c.deployments) {pod : Value F}
    (hpod : OfReplicaset c chain pod d.1) :
    ∃ r, RunsThrough (itemsOf captures "replicasets.json") d.2 r pod := by
  obtain ⟨r, hr, u, n, hn, hu, hlink⟩ := h.replicaset_of hpod
  have hactive := hlink.active_iff.mpr hn
  have hown : owns "Deployment" d.2 r.2 = true := (h.owns_iff hd hlink).mpr rfl
  obtain ⟨r₀, -, -, hsingle⟩ := h.single_active hd
  have hfirst := hsingle r hr hactive hown
  refine ⟨r.2, h.listed.mem_items hr, hactive, hown, ?_, owns_eq_true.mpr ⟨u, hlink.uid, hu⟩⟩
  refine h.listed.forall_items fun r' hr' hactive' hown' => ?_
  rw [hsingle r' hr' hactive' hown', hfirst]

theorem Inventoried.standing (h : Inventoried pins captures p c chain replicasets tally)
    {pod : Value F} (hpod : pod ∈ itemsOf captures "pods.json") :
    Mirrors c.node.1 pod ∧ Unowned pod ∨
    (∃! s, s ∈ itemsOf captures "daemonsets.json" ∧ owns "DaemonSet" s pod = true) ∧
      controllerUid "ReplicaSet" pod = none ∨
    (∃! d, d ∈ itemsOf captures "deployments.json" ∧
        runsFor (itemsOf captures "replicasets.json") d pod = true) ∧
      (∀ d ∈ itemsOf captures "deployments.json",
        runsFor (itemsOf captures "replicasets.json") d pod = true →
          ∃ r, RunsThrough (itemsOf captures "replicasets.json") d r pod) ∧
      controllerUid "DaemonSet" pod = none := by
  have hdeployments := h.established.deployments
  have hdaemonsets := h.established.daemonsets
  rcases h.tallied.standing pod hpod with hmirror | ⟨parent, hr | hs⟩
  · exact .inl hmirror
  · refine .inr (.inr ⟨?_, ?_, hr.other⟩)
    · obtain ⟨d, hd, rfl⟩ := List.mem_map.mp hr.listed
      refine ⟨d.2, ⟨hdeployments.mem_items hd, (h.parentOf_deployment hd hpod).mp hr.parentOf_eq⟩, ?_⟩
      rintro item ⟨hitem, hruns⟩
      obtain ⟨e, he, rfl⟩ := hdeployments.exists_entry hitem
      have heq := (h.parentOf_deployment he hpod).mpr hruns
      rw [hr.parentOf_eq] at heq
      rw [eq_of_key hdeployments.nodup he hd (Option.some.inj heq).symm]
    · refine hdeployments.forall_items fun d hd hruns => ?_
      have heq := (h.parentOf_deployment hd hpod).mpr hruns
      rw [hr.parentOf_eq] at heq
      obtain rfl := Option.some.inj heq
      exact h.runs_through hd hr
  · refine .inr (.inl ⟨?_, hs.other⟩)
    obtain ⟨u, hu, hlookup⟩ := hs.owner
    obtain ⟨s, hs', -, rfl⟩ := identityByUid_lookup hlookup
    refine ⟨s.2, ⟨hdaemonsets.mem_items hs', (h.parentOf_daemonset hs' hpod).mp hs.parentOf_eq⟩, ?_⟩
    rintro item ⟨hitem, howns⟩
    obtain ⟨e, he, rfl⟩ := hdaemonsets.exists_entry hitem
    have heq := (h.parentOf_daemonset he hpod).mpr howns
    rw [hs.parentOf_eq] at heq
    rw [eq_of_key hdaemonsets.nodup he hs' (Option.some.inj heq).symm]

/-- Each static manifest has one mirror. -/
theorem Inventoried.mirrors (h : Inventoried pins captures p c chain replicasets tally)
    {i : Identity} (hi : i ∈ staticExpected c.node.1) :
    ∃! pod, pod ∈ itemsOf captures "pods.json" ∧ identity? pod = some i ∧ Unowned pod := by
  have hstatics := h.tallied.statics
  have hnodup : (((itemsOf captures "pods.json").filter fun pod =>
      parentOf c chain pod = none).map identity?).Nodup := by
    rw [hstatics]
    exact h.tallied.once.map (Option.some_injective _)
  have hmem : some i ∈ ((itemsOf captures "pods.json").filter fun pod =>
      parentOf c chain pod = none).map identity? := by
    rw [hstatics]
    exact List.mem_map_of_mem (h.static i hi)
  obtain ⟨pod, hpod, hid⟩ := List.mem_map.mp hmem
  obtain ⟨hin, hnone⟩ := List.mem_filter.mp hpod
  have hnone := of_decide_eq_true hnone
  have hunowned : Unowned pod := by
    rcases h.tallied.standing pod hin with ⟨-, hunowned⟩ | ⟨parent, hr | hs⟩
    · exact hunowned
    · rw [hr.parentOf_eq] at hnone
      cases hnone
    · rw [hs.parentOf_eq] at hnone
      cases hnone
  refine ⟨pod, ⟨hin, hid, hunowned⟩, ?_⟩
  rintro pod' ⟨hin', hid', hunowned'⟩
  have hpod' : pod' ∈ (itemsOf captures "pods.json").filter fun pod => parentOf c chain pod = none :=
    List.mem_filter.mpr ⟨hin', decide_eq_true (parentOf_of_unowned hunowned')⟩
  exact List.inj_on_of_nodup_map hnodup hpod' hpod (hid'.trans hid.symm)

theorem Inventoried.closed (h : Inventoried pins captures p c chain replicasets tally) :
    Closed c.node.1 (itemsOf captures "deployments.json") (itemsOf captures "daemonsets.json")
      (itemsOf captures "replicasets.json") (itemsOf captures "pods.json") := by
  have hdeployments := h.established.deployments
  have hdaemonsets := h.established.daemonsets
  obtain ⟨hnodup, hnodup', -⟩ := nodup_controllers h.established.provider
  refine {
    listed := ⟨p, h.established.provider, hdeployments.perm hnodup h.established.isDeployment,
      hdaemonsets.perm hnodup' h.established.isDaemonset⟩
    told := ?_
    standing := fun pod hpod => h.standing hpod
    mirrors := fun i hi => h.mirrors hi
    desired := hdaemonsets.forall_items fun s hs => ?_
    replicas := hdeployments.forall_items fun d hd => ?_
    active := h.listed.forall_items fun r hr hactive => ?_
    single := hdeployments.forall_items fun d hd => ?_ }
  · rw [hdeployments.uids, hdaemonsets.uids, h.listed.uids, h.tallied.uids]
    exact ⟨h.resolved.nodup hdeployments.nodup, h.daemons_resolved.nodup hdaemonsets.nodup,
      h.stable, h.tallied.unique.map (Option.some_injective _)⟩
  · rw [(h.desired_eq hs).1]
    congr 2
    refine List.countP_congr fun pod hpod => ?_
    rw [decide_eq_true_iff]
    exact h.parentOf_daemonset hs hpod
  · rw [h.replicas_eq hd]
    congr 2
    refine List.countP_congr fun pod hpod => ?_
    rw [decide_eq_true_iff]
    exact h.parentOf_deployment hd hpod
  · obtain ⟨parent, uid, n, hlink, -⟩ := h.chained.linked r hr
    obtain ⟨u, -, hlookup⟩ := hlink.owner
    obtain ⟨d, hd, -, hkey⟩ := identityByUid_lookup hlookup
    refine ⟨d.2, ⟨hdeployments.mem_items hd, (h.owns_iff hd hlink).mpr hkey.symm⟩, ?_⟩
    rintro item ⟨hitem, hown⟩
    obtain ⟨e, he, rfl⟩ := hdeployments.exists_entry hitem
    have heq := (h.owns_iff he hlink).mp hown
    rw [eq_of_key hdeployments.nodup he hd (heq.symm.trans hkey.symm)]
  · obtain ⟨r, hr, ⟨hactive, hown⟩, hsingle⟩ := h.single_active hd
    refine ⟨r.2, ⟨h.listed.mem_items hr, hactive, hown⟩, ?_⟩
    rintro item ⟨hitem, hactive', hown'⟩
    obtain ⟨e, he, rfl⟩ := h.listed.exists_entry hitem
    rw [hsingle e he hactive' hown']

end Accepted

/-! ## A cluster with the cilium provider -/

/-- A dict. -/
def record (fields : List (String × Value F)) : Value F :=
  .obj (fields.map fun f => (.scalar f.1, f.2))

/-- The metadata of an object, with its UID the name behind a letter. -/
def sampleMetadata (i : Identity) (letter tail : String) (owner : List (String × Value F)) : Value F :=
  record ([("annotations", record [("kubernetes.io/config.mirror", .text "1")]),
    ("generation", .int 1), ("name", .str (i.2.append (.scalar tail))), ("namespace", .str i.1)] ++
    owner ++ [("uid", .str ((Text.scalar letter).append i.2))])

def sampleOwner (apiVersion kind letter : String) (name owner : Text) : String × Value F :=
  ("ownerReferences", .arr [record [("apiVersion", .text apiVersion), ("controller", .bool true),
    ("kind", .text kind), ("name", .str owner), ("uid", .str ((Text.scalar letter).append name))]])

def sampleSpec (name : String) (image : Text) (extra : List (String × Value F)) : Value F :=
  record ([("containers", .arr [record [("image", .str image), ("name", .text name)]])] ++ extra)

def sampleTemplate (labels : List (String × Value F)) (image : Text) : Value F :=
  record [("metadata", record [("labels", record labels)]), ("spec", sampleSpec "main" image [])]

def sampleSelector (labels : List (String × Value F)) : Value F :=
  record [("matchLabels", record labels)]

def sampleStatus (fields : List String) : Value F := record (fields.map fun f => (f, .int 1))

def sampleDeployment (d : Identity × Text) : Value F :=
  record [("metadata", sampleMetadata d.1 "d-" "" []),
    ("spec", record [("replicas", .int 1), ("selector", sampleSelector [("app", .str d.1.2)]),
      ("template", sampleTemplate [("app", .str d.1.2)] d.2)]),
    ("status", sampleStatus ["availableReplicas", "observedGeneration", "readyReplicas", "replicas",
      "updatedReplicas"])]

def sampleReplicaset (d : Identity × Text) : Value F :=
  let labels := [("app", .str d.1.2), ("pod-template-hash", .text "1")]
  record [("metadata", sampleMetadata d.1 "r-" "-1"
      [sampleOwner "apps/v1" "Deployment" "d-" d.1.2 d.1.2]),
    ("spec", record [("replicas", .int 1), ("selector", sampleSelector labels),
      ("template", sampleTemplate labels d.2)]),
    ("status", sampleStatus ["availableReplicas", "readyReplicas"])]

def sampleDaemonset (d : Identity × Text) : Value F :=
  record [("metadata", sampleMetadata d.1 "s-" "" []),
    ("spec", record [("template", sampleTemplate [] d.2)]),
    ("status", sampleStatus ["currentNumberScheduled", "desiredNumberScheduled", "numberAvailable",
      "numberReady", "observedGeneration", "updatedNumberScheduled"])]

/-- A ready Pod on the node. -/
def samplePod (d : Identity × Text) (tail name : String) (owner extra : List (String × Value F)) :
    Value F :=
  record [("metadata", sampleMetadata d.1 "p-" tail owner),
    ("spec", sampleSpec name d.2 (extra ++ [("nodeName", .text "pi")])),
    ("status", record [("conditions", .arr [record [("status", .text "True"), ("type", .text "Ready")]]),
      ("phase", .text "Running")])]

def samplePins : Pins where
  naranjoImage := .scalar "naranjo"
  liderseaImage := .scalar "lidersea"
  cloudflaredImage := .scalar "cloudflared"
  fluxSourceImage := .scalar "source"
  fluxKustomizeImage := .scalar "kustomize"
  fluxHelmImage := .scalar "helm"
  kubernetesVersion := .scalar "v1"
  corednsImage := .scalar "coredns"
  etcdImage := .scalar "etcd"

def sampleImage : Text :=
  .scalar "quay.io/cilium/cilium@sha256:1111111111111111111111111111111111111111111111111111111111111111"

def sampleDeployments : List (Identity × Text) :=
  samplePins.expectedDeploymentImages ++ [(cilium.deployment, sampleImage)]

def sampleDaemonsets : List (Identity × Text) :=
  [(kubeProxy, samplePins.kubernetesImage "kube-proxy"), (cilium.daemonset, sampleImage)]

/-- The Pods, those of the Deployments with a named container and more in their specification. -/
def samplePods (name : String) (extra : List (String × Value F)) : List (Value F) :=
  (sampleDeployments.map fun d => samplePod d "-1-a" name
    [sampleOwner "apps/v1" "ReplicaSet" "r-" d.1.2 (d.1.2.append (.scalar "-1"))] extra) ++
  (sampleDaemonsets.map fun d => samplePod d "-a" "main"
    [sampleOwner "apps/v1" "DaemonSet" "s-" d.1.2 d.1.2] []) ++
  samplePins.components.map fun e => samplePod (named "kube-system" e.1, e.2) "-pi" "main" [] []

/-- The files of the cluster. -/
def sampleCaptures (name : String) (extra : List (String × Value F)) : Captures F := fun file =>
  let items : List (Value F) := match file with
    | "namespaces.json" => expectedNamespaces.map fun ns =>
        record [("metadata", record [("name", .text ns)]), ("status", record [("phase", .text "Active")])]
    | "nodes.json" => [record [("metadata", record [("name", .text "pi"), ("uid", .text "n")])]]
    | "deployments.json" => sampleDeployments.map sampleDeployment
    | "daemonsets.json" => sampleDaemonsets.map sampleDaemonset
    | "replicasets.json" => sampleDeployments.map sampleReplicaset
    | "pods.json" => samplePods name extra
    | "services.json" => expectedServices.map fun i => record [("metadata", sampleMetadata i "v-" "" [])]
    | _ => []
  record [("items", .arr items)]

theorem sampleCaptures_validate :
    validate samplePins (sampleCaptures (F := List Char) "main" []) = .ok () := by
  decide +kernel

/-- Captures the validator accepts are closed under ownership. -/
theorem ownership_is_closed {pins : Pins} {captures : Captures F}
    (h : validate pins captures = .ok ()) : ∃ node, productionNode captures = .ok node ∧
      Closed node.1 (itemsOf captures "deployments.json") (itemsOf captures "daemonsets.json")
        (itemsOf captures "replicasets.json") (itemsOf captures "pods.json") := by
  obtain ⟨p, c, chain, replicasets, tally, hinv⟩ := validate_eq_ok h
  exact ⟨c.node, hinv.established.node, hinv.closed⟩

theorem ownership_is_closed_sample : ∃ node,
    productionNode (sampleCaptures (F := List Char) "main" []) = .ok node ∧
      Closed node.1 (itemsOf (sampleCaptures (F := List Char) "main" []) "deployments.json")
        (itemsOf (sampleCaptures "main" []) "daemonsets.json")
        (itemsOf (sampleCaptures "main" []) "replicasets.json")
        (itemsOf (sampleCaptures "main" []) "pods.json") :=
  ownership_is_closed sampleCaptures_validate

end RuntimeInventory
