import Mathlib
import WebsiteInfrastructure.Inventory.Validation

/-!
# What an accepted inventory has been held to

One lemma for each step of the validator, and the invariants of its loops.
-/

namespace RuntimeInventory

open Json Raising

variable {F : Type}

/-! ## Maps by identity -/

/-- A map by identity of the items it was made from. -/
structure Listed (items : List (Value F)) (entries : List (Identity × Value F)) : Prop where
  items : entries.map Prod.snd = items
  identity : ∀ e ∈ entries, identity? e.2 = some e.1
  uid : ∀ e ∈ entries, ∃ uid, uid? e.2 = some uid
  nodup : (entries.map Prod.fst).Nodup

theorem identity?_eq_some {item : Value F} {i : Identity} : identity? item = some i ↔
    namespacedIdentity item = (.str i.1, .str i.2) := by
  obtain ⟨ns, name⟩ := i
  rw [identity?, namespacedIdentity]
  simp [Option.bind_eq_some_iff, Value.str?_eq_some]

theorem identitiesAre_eq_ok {items : List (Value F)} {expected : List Identity} {b : Bool}
    (h : identitiesAre items expected = .ok b) : b = true ↔
      (∀ i ∈ items, ∃ e ∈ expected, identity? i = some e) ∧
        ∀ e ∈ expected, ∃ i ∈ items, identity? i = some e := by
  unfold identitiesAre at h
  split at h
  · obtain rfl := Except.ok.inj h
    simp only [Bool.and_eq_true, List.all_eq_true, List.any_eq_true, Option.any_eq_true,
      decide_eq_true_eq]
    grind
  · cases h

/-- As many items as identities, and each identity among them: each once. -/
theorem nodup_identities {items : List (Value F)} {expected : List Identity}
    (hlength : items.length = expected.length) (hnodup : expected.Nodup)
    (hall : ∀ e ∈ expected, ∃ i ∈ items, identity? i = some e) :
    (items.map identity?).Nodup := by
  have hsub : expected.map some ⊆ items.map identity? := by
    intro o ho
    obtain ⟨e, he, rfl⟩ := List.mem_map.mp ho
    obtain ⟨i, hi, hid⟩ := hall e he
    exact List.mem_map.mpr ⟨i, hi, hid⟩
  have hsome : (expected.map some).Nodup := hnodup.map (Option.some_injective _)
  have hperm : (expected.map some).Subperm (items.map identity?) := hsome.subperm hsub
  have hlen : (items.map identity?).length ≤ (expected.map some).length := by
    simp [hlength]
  exact (hperm.perm_of_length_le hlen).nodup_iff.mp hsome

theorem keyed_eq_ok {kind : String} {item : Value F} {e : Identity × Value F}
    (h : keyed kind item = .ok e) :
    identity? item = some e.1 ∧ (∃ uid, uid? item = some uid) ∧ e.2 = item := by
  unfold keyed at h
  split at h
  · cases h
  · rename_i i hi
    obtain ⟨huid, he⟩ := raiseIf_bind_eq_ok.mp h
    obtain rfl := Except.ok.inj he
    exact ⟨hi, Option.ne_none_iff_exists'.mp huid, rfl⟩

theorem forall₂_snd {f : Value F → Check (Identity × Value F)} {items : List (Value F)}
    {entries : List (Identity × Value F)}
    (h : List.Forall₂ (fun i e => f i = .ok e) items entries)
    (hsnd : ∀ i e, f i = .ok e → e.2 = i) :
    entries.map Prod.snd = items ∧ ∀ e ∈ entries, f e.2 = .ok e := by
  induction h with
  | nil => simp
  | @cons i e items entries he _ ih =>
    obtain rfl := hsnd i e he
    exact ⟨by rw [List.map_cons, ih.1], List.forall_mem_cons.mpr ⟨he, ih.2⟩⟩

theorem exactNamespacedMap_eq_ok {items : List (Value F)} {expected : List Identity}
    {kind : String} {entries : List (Identity × Value F)} (hnodup : expected.Nodup)
    (h : exactNamespacedMap items expected kind = .ok entries) :
    Listed items entries ∧ ∀ i, i ∈ entries.map Prod.fst ↔ i ∈ expected := by
  obtain ⟨hlength, hrest⟩ := raiseIf_bind_eq_ok.mp h
  obtain ⟨same, hsame, hrest⟩ := bind_eq_ok.mp hrest
  obtain ⟨htrue, hcollect⟩ := raiseIf_bind_eq_ok.mp hrest
  obtain ⟨hmem, hall⟩ := (identitiesAre_eq_ok hsame).mp (by simpa using htrue)
  obtain ⟨hsnd, hkeyed⟩ := forall₂_snd (collect_eq_ok.mp hcollect) fun i e he => (keyed_eq_ok he).2.2
  have hidentity : ∀ e ∈ entries, identity? e.2 = some e.1 :=
    fun e he => (keyed_eq_ok (hkeyed e he)).1
  have hmap : items.map identity? = (entries.map Prod.fst).map some := by
    rw [← hsnd, List.map_map, List.map_map]
    exact List.map_congr_left hidentity
  refine ⟨⟨hsnd, hidentity, fun e he => (keyed_eq_ok (hkeyed e he)).2.1, ?_⟩, fun i => ?_⟩
  · have hitems := nodup_identities (by simpa using hlength) hnodup hall
    rw [hmap] at hitems
    exact hitems.of_map _
  · constructor
    · intro hi
      obtain ⟨e, he, rfl⟩ := List.mem_map.mp hi
      obtain ⟨e', he', hid⟩ := hmem e.2 (hsnd ▸ List.mem_map_of_mem he)
      rwa [Option.some.inj ((hidentity e he).symm.trans hid)]
    · intro hi
      obtain ⟨item, hitem, hid⟩ := hall i hi
      have : some i ∈ items.map identity? := List.mem_map.mpr ⟨item, hitem, hid⟩
      rw [hmap] at this
      simpa using this

theorem nodup_append_singleton {α : Type} {l : List α} {a : α} :
    (l ++ [a]).Nodup ↔ a ∉ l ∧ l.Nodup := by
  rw [← List.concat_eq_append, List.nodup_concat]

/-- The entries of a map by identity with the UIDs told apart. -/
theorem dynamicNamespacedMap_eq_ok {items : List (Value F)} {kind : String}
    {entries : List (Identity × Value F)} (h : dynamicNamespacedMap items kind = .ok entries) :
    Listed items entries ∧ (entries.map fun e => uid? e.2).Nodup := by
  apply carry_invariant
    (fun seen entries => Listed seen entries ∧ (entries.map fun e => uid? e.2).Nodup) _
    ⟨⟨rfl, by simp, by simp, by simp⟩, by simp⟩ h
  · rintro seen entries item entries' ⟨hlisted, huids⟩ hstep
    unfold dynamicEntry at hstep
    dsimp only at hstep
    split at hstep
    · rename_i ns name uid hns hname huid
      obtain ⟨hnew, hentries⟩ := raiseIf_bind_eq_ok.mp hstep
      obtain rfl := Except.ok.inj hentries
      obtain ⟨hidentity, huidnew⟩ := not_or.mp hnew
      have hid : identity? item = some (ns, name) := by
        rw [identity?_eq_some]
        exact Prod.ext (Value.filled?_eq_some.mp hns).1 (Value.filled?_eq_some.mp hname).1
      refine ⟨⟨?_, ?_, ?_, ?_⟩, ?_⟩
      · rw [List.map_append, hlisted.items, List.map_singleton]
      · simp only [List.forall_mem_append, List.forall_mem_singleton]
        exact ⟨hlisted.identity, hid⟩
      · simp only [List.forall_mem_append, List.forall_mem_singleton]
        exact ⟨hlisted.uid, uid, huid⟩
      · rw [List.map_append, List.map_singleton, nodup_append_singleton]
        simp only [List.any_eq_true, decide_eq_true_eq, not_exists, not_and] at hidentity
        refine ⟨fun hmem => ?_, hlisted.nodup⟩
        obtain ⟨e, he, heq⟩ := List.mem_map.mp hmem
        exact hidentity e he heq
      · rw [List.map_append, List.map_singleton, nodup_append_singleton, huid]
        simp only [List.any_eq_true, decide_eq_true_eq, not_exists, not_and] at huidnew
        refine ⟨fun hmem => ?_, huids⟩
        obtain ⟨e, he, heq⟩ := List.mem_map.mp hmem
        exact huidnew e he heq
    · cases hstep

/-! ## Files -/

/-- The items of a file. -/
def itemsOf (captures : Captures F) (name : String) : List (Value F) :=
  match (captures name).get "items" with
  | .arr items => items
  | _ => []

theorem loadItems_eq_ok {captures : Captures F} {name : String} {items : List (Value F)}
    (h : loadItems captures name = .ok items) : itemsOf captures name = items := by
  obtain ⟨found, hfound, hrest⟩ := bind_eq_ok.mp h
  cases found with
  | arr found =>
    obtain ⟨-, hrest⟩ := raiseIf_bind_eq_ok.mp hrest
    rw [itemsOf, Value.get_of_getOr hfound, ← Except.ok.inj hrest]
  | _ => cases hrest

theorem selectProvider_eq_ok {deployments daemonsets : List (Value F)} {p : Provider}
    (h : selectProvider deployments daemonsets = .ok p) : p = cilium ∨ p = calico := by
  obtain ⟨_, -, hrest⟩ := bind_eq_ok.mp h
  obtain ⟨_, -, hrest⟩ := bind_eq_ok.mp hrest
  split at hrest
  · exact .inl (Except.ok.inj hrest).symm
  · split at hrest
    · exact .inr (Except.ok.inj hrest).symm
    · cases hrest

/-! ## Owners -/

theorem oneControllerOwner_eq_ok {item owner : Value F} {kind : String} {i : Identity}
    (h : oneControllerOwner item kind i = .ok owner) :
    ownerReferences item = .arr [owner] ∧ (owner.get "controller").isTrue = true := by
  unfold oneControllerOwner at h
  split at h
  · rename_i o ho
    split at h
    · rename_i hcond
      obtain rfl := Except.ok.inj h
      exact ⟨ho, (Bool.and_eq_true_iff.mp hcond).2⟩
    · cases h
  · cases h
  · cases h

theorem lookupUid_eq_ok {α : Type} {uids : List (Text × α)} {v : Value F} {a : α}
    (h : lookupUid uids v = .ok (some a)) : ∃ uid, v = .str uid ∧ uids.lookup uid = some a := by
  unfold lookupUid at h
  split at h
  · obtain ⟨uid, huid, ha⟩ := Option.bind_eq_some_iff.mp (Except.ok.inj h)
    exact ⟨uid, Value.str?_eq_some.mp huid, ha⟩
  · cases h

theorem identityByUid_lookup {entries : List (Identity × Value F)} {uid : Text} {i : Identity}
    (h : (identityByUid entries).lookup uid = some i) :
    ∃ e ∈ entries, uid? e.2 = some uid ∧ e.1 = i := by
  have hmem := mem_of_lookup h
  simp only [identityByUid, List.mem_reverse, List.mem_filterMap, Option.map_eq_some_iff,
    Prod.mk.injEq] at hmem
  obtain ⟨e, he, u, hu, rfl, rfl⟩ := hmem
  exact ⟨e, he, hu, rfl⟩

variable [Interpreter F]

/-! ## What the captures say -/

/-- `spec.replicas` -/
def replicas? (item : Value F) : Option ℤ := ((item.get "spec").get "replicas").int?

/-- `status.desiredNumberScheduled` -/
def desired? (item : Value F) : Option ℤ := ((item.get "status").get "desiredNumberScheduled").int?

/-- The UID of the only owner of an object, if that is a controller of this kind. -/
def controllerUid (kind : String) (item : Value F) : Option Text :=
  match ownerReferences item with
  | .arr [owner] =>
    if (owner.get "controller").isTrue && (owner.get "apiVersion").eq (.text "apps/v1") &&
        (owner.get "kind").eq (.text kind) then (owner.get "uid").str?
    else none
  | _ => none

/-- Whether an object owns another one as a controller. -/
def owns (kind : String) (owner item : Value F) : Bool :=
  (uid? owner).any fun uid => controllerUid kind item = some uid

/-- Whether a Pod mirrors a kubeadm static manifest of the node. -/
def Mirrors (node : Text) (pod : Value F) : Prop :=
  ∃ i ∈ staticExpected node, identity? pod = some i ∧
    (((metadata pod).get "annotations").get "kubernetes.io/config.mirror").inSet
      [.null, .text ""] = .ok false

/-! ## The chain of ReplicaSets -/

theorem owns_eq_true {kind : String} {owner item : Value F} : owns kind owner item = true ↔
    ∃ uid, uid? owner = some uid ∧ controllerUid kind item = some uid := by
  simp [owns, Option.any_eq_true]

theorem controllerUid_of_owner {item owner : Value F} {kind : String} {uid : Text}
    (h : ownerReferences item = .arr [owner]) (hcontroller : (owner.get "controller").isTrue = true)
    (hversion : owner.get "apiVersion" = .text "apps/v1") (hkind : owner.get "kind" = .text kind)
    (huid : owner.get "uid" = .str uid) : controllerUid kind item = some uid := by
  rw [controllerUid, h]
  simp [hcontroller, hversion, hkind, huid, Value.str?]

theorem controllerUid_of_other {item owner : Value F} {kind : String}
    (h : ownerReferences item = .arr [owner])
    (hother : owner.get "apiVersion" ≠ .text "apps/v1" ∨ owner.get "kind" ≠ .text kind) :
    controllerUid kind item = none := by
  rw [controllerUid, h]
  refine if_neg fun hcond => ?_
  simp only [Bool.and_eq_true, Value.eq_text] at hcond
  rcases hother with hne | hne
  · exact hne hcond.1.2
  · exact hne hcond.2

/-- What one ReplicaSet says of itself: its Deployment, its UID and its replicas. -/
structure Link (c : Controllers F) (r : Identity × Value F) (parent : Identity) (uid : Text)
    (n : ℤ) : Prop where
  uid : uid? r.2 = some uid
  replicas : replicas? r.2 = some n
  owner : ∃ u, controllerUid "Deployment" r.2 = some u ∧
    (identityByUid c.deployments).lookup u = some parent
  exact : n ≠ 0 → ∃ e ∈ c.deploymentReplicas, e = (parent, n)

theorem replicasetParent_eq_ok {c : Controllers F} {r : Identity × Value F} {parent : Identity}
    (h : replicasetParent c r = .ok parent) : ∃ u, controllerUid "Deployment" r.2 = some u ∧
      (identityByUid c.deployments).lookup u = some parent := by
  obtain ⟨owner, howner, hrest⟩ := bind_eq_ok.mp h
  obtain ⟨hsingle, hcontroller⟩ := oneControllerOwner_eq_ok howner
  obtain ⟨found, hfound, hrest⟩ := bind_eq_ok.mp hrest
  obtain ⟨hversion, hrest⟩ := raiseIf_bind_eq_ok.mp hrest
  obtain ⟨hkind, hrest⟩ := raiseIf_bind_eq_ok.mp hrest
  cases found with
  | none => cases hrest
  | some p =>
    obtain ⟨-, hrest⟩ := raiseIf_bind_eq_ok.mp hrest
    obtain ⟨-, hrest⟩ := raiseIf_bind_eq_ok.mp hrest
    obtain ⟨-, hrest⟩ := raiseIf_bind_eq_ok.mp hrest
    obtain rfl := Except.ok.inj hrest
    obtain ⟨u, hu, hlookup⟩ := lookupUid_eq_ok hfound
    refine ⟨u, controllerUid_of_owner hsingle hcontroller ?_ ?_ hu, hlookup⟩
    · simpa using hversion
    · simpa using hkind

theorem checkActive_eq_ok {c : Controllers F} {r : Identity × Value F} {parent : Identity} {n : ℤ}
    {u : Unit} (h : checkActive c r parent n = .ok u) : c.deploymentReplicas.lookup parent = some n := by
  unfold checkActive at h
  dsimp only at h
  split at h
  · rename_i deployment desired _ hdesired
    simp only [bind_eq_ok, raiseIf_eq_ok, not_not] at h
    obtain ⟨_, -, _, -, _, -, _, -, _, -, _, -, _, -, _, -, _, -, _, -, _, rfl, -⟩ := h
    exact hdesired
  · cases h

theorem checkReplicaset_eq_ok {c : Controllers F} {chain chain' : Chain} {r : Identity × Value F}
    (h : checkReplicaset c chain r = .ok chain') : ∃ parent uid n, Link c r parent uid n ∧
      (n = 0 ∧ chain' = chain.learn uid parent r.1 ∨
        n ≠ 0 ∧ parent ∉ chain.active.map Prod.fst ∧
          chain' = (chain.learn uid parent r.1).activate parent uid) := by
  obtain ⟨parent, hparent, hrest⟩ := bind_eq_ok.mp h
  obtain ⟨spec, hspec, hrest⟩ := bind_eq_ok.mp hrest
  obtain ⟨replicas, hreplicas, hrest⟩ := bind_eq_ok.mp hrest
  have howner := replicasetParent_eq_ok hparent
  split at hrest
  · rename_i n uid hn huid
    obtain ⟨-, hrest⟩ := raiseIf_bind_eq_ok.mp hrest
    have hself : replicas? r.2 = some n := by
      rw [replicas?, Value.get_get_of_getOr (Value.dig_singleton hspec) hreplicas, hn]
    split at hrest
    · rename_i hne
      obtain ⟨_, hactive, hrest⟩ := bind_eq_ok.mp hrest
      obtain ⟨hsingle, hrest⟩ := raiseIf_bind_eq_ok.mp hrest
      obtain rfl := Except.ok.inj hrest
      refine ⟨parent, uid, n, ⟨huid, hself, howner, fun _ => ?_⟩, .inr ⟨hne, ?_, rfl⟩⟩
      · exact ⟨_, mem_of_lookup (checkActive_eq_ok hactive), rfl⟩
      · simpa using hsingle
    · rename_i hzero
      obtain ⟨status, -, hrest⟩ := bind_eq_ok.mp hrest
      obtain ⟨_, -, hrest⟩ := bind_eq_ok.mp hrest
      obtain rfl := Except.ok.inj hrest
      exact ⟨parent, uid, n, ⟨huid, hself, howner, fun h => absurd h hzero⟩, .inl ⟨not_not.mp hzero, rfl⟩⟩
  · cases hrest

/-- What the chain holds after the ReplicaSets seen so far. -/
structure Chained (c : Controllers F) (seen : List (Identity × Value F)) (chain : Chain) :
    Prop where
  linked : ∀ r ∈ seen, ∃ parent uid n, Link c r parent uid n ∧
    (n ≠ 0 → (parent, uid) ∈ chain.active)
  parent : ∀ e ∈ chain.parent, ∃ r ∈ seen, ∃ n, Link c r e.2 e.1 n
  active : ∀ e ∈ chain.active, ∃ r ∈ seen, ∃ n, n ≠ 0 ∧ Link c r e.1 e.2 n
  single : (chain.active.map Prod.fst).Nodup

theorem chained_step {c : Controllers F} {seen : List (Identity × Value F)} {chain chain' : Chain}
    {r : Identity × Value F} (h : Chained c seen chain) (hstep : checkReplicaset c chain r = .ok chain') :
    Chained c (seen ++ [r]) chain' := by
  obtain ⟨parent, uid, n, hlink, hcase⟩ := checkReplicaset_eq_ok hstep
  -- What was linked before stays linked: the chain only grows.
  have hactive : ∀ e ∈ chain.active, e ∈ chain'.active := by
    rcases hcase with ⟨-, rfl⟩ | ⟨-, -, rfl⟩
    · exact fun e he => he
    · exact fun e he => List.mem_append_left _ he
  have hself : n ≠ 0 → (parent, uid) ∈ chain'.active := by
    rcases hcase with ⟨rfl, -⟩ | ⟨-, -, rfl⟩
    · exact fun h => absurd rfl h
    · exact fun _ => List.mem_append_right _ (List.mem_singleton.mpr rfl)
  have hparent : chain'.parent = chain.parent ++ [(uid, parent)] := by
    rcases hcase with ⟨-, rfl⟩ | ⟨-, -, rfl⟩ <;> rfl
  refine ⟨?_, ?_, ?_, ?_⟩
  · simp only [List.forall_mem_append, List.forall_mem_singleton]
    refine ⟨fun r' hr' => ?_, parent, uid, n, hlink, hself⟩
    obtain ⟨parent', uid', n', hlink', hin⟩ := h.linked r' hr'
    exact ⟨parent', uid', n', hlink', fun hn => hactive _ (hin hn)⟩
  · rw [hparent]
    simp only [List.forall_mem_append, List.forall_mem_singleton]
    refine ⟨fun e he => ?_, r, by simp, n, hlink⟩
    obtain ⟨r', hr', n', hlink'⟩ := h.parent e he
    exact ⟨r', List.mem_append_left _ hr', n', hlink'⟩
  · have hold : ∀ e ∈ chain.active, ∃ r' ∈ seen ++ [r], ∃ n, n ≠ 0 ∧ Link c r' e.1 e.2 n := by
      intro e he
      obtain ⟨r', hr', hlink'⟩ := h.active e he
      exact ⟨r', List.mem_append_left _ hr', hlink'⟩
    rcases hcase with ⟨-, rfl⟩ | ⟨hn, -, rfl⟩
    · exact hold
    · refine List.forall_mem_append.mpr ⟨hold, ?_⟩
      simp only [List.forall_mem_singleton]
      exact ⟨r, by simp, n, hn, hlink⟩
  · rcases hcase with ⟨-, rfl⟩ | ⟨-, hnew, rfl⟩
    · exact h.single
    · rw [Chain.activate, Chain.learn, List.map_append, List.map_singleton, nodup_append_singleton]
      exact ⟨hnew, h.single⟩

/-- The chain of an accepted inventory. -/
theorem checkReplicasets_eq_ok {c : Controllers F} {items : List (Value F)} {chain : Chain}
    (h : checkReplicasets c items = .ok chain) : ∃ replicasets, Listed items replicasets ∧
      (replicasets.map fun e => uid? e.2).Nodup ∧ Chained c replicasets chain ∧
        ∀ d ∈ c.deployments, d.1 ∈ chain.active.map Prod.fst := by
  obtain ⟨replicasets, hmap, hrest⟩ := bind_eq_ok.mp h
  obtain ⟨chain', hcarry, hrest⟩ := bind_eq_ok.mp hrest
  obtain ⟨hall, hrest⟩ := raiseIf_bind_eq_ok.mp hrest
  obtain rfl := Except.ok.inj hrest
  obtain ⟨hlisted, huids⟩ := dynamicNamespacedMap_eq_ok hmap
  have hchained := carry_invariant (Chained c) (fun _ _ _ _ => chained_step)
    ⟨by simp, by simp, by simp, by simp⟩ hcarry
  refine ⟨replicasets, hlisted, huids, hchained, fun d hd => ?_⟩
  have hboth := Bool.eq_true_of_not_eq_false hall
  obtain ⟨-, hdeployments⟩ := Bool.and_eq_true_iff.mp hboth
  have hany := List.all_eq_true.mp hdeployments d hd
  obtain ⟨a, ha, heq⟩ := List.any_eq_true.mp hany
  exact List.mem_map.mpr ⟨a, ha, of_decide_eq_true heq⟩

/-! ## The count of Pods -/

/-- The controller a Pod counts for. -/
def parentOf (c : Controllers F) (chain : Chain) (pod : Value F) : Option Identity :=
  ((controllerUid "ReplicaSet" pod).bind (chain.parent.lookup ·)).or
    ((controllerUid "DaemonSet" pod).bind ((identityByUid c.daemonsets).lookup ·))

/-- A Pod that no Deployment and no DaemonSet controls. -/
def Unowned (pod : Value F) : Prop :=
  controllerUid "ReplicaSet" pod = none ∧ controllerUid "DaemonSet" pod = none

/-- A Pod of a Deployment. -/
structure OfReplicaset (c : Controllers F) (chain : Chain) (pod : Value F) (parent : Identity) :
    Prop where
  listed : parent ∈ c.deployments.map Prod.fst
  owner : ∃ u, controllerUid "ReplicaSet" pod = some u ∧ chain.parent.lookup u = some parent ∧
    chain.active.lookup parent = some u
  other : controllerUid "DaemonSet" pod = none

/-- A Pod of a DaemonSet. -/
structure OfDaemonset (c : Controllers F) (pod : Value F) (parent : Identity) : Prop where
  owner : ∃ u, controllerUid "DaemonSet" pod = some u ∧
    (identityByUid c.daemonsets).lookup u = some parent
  other : controllerUid "ReplicaSet" pod = none

theorem unowned_of_falsy {pod : Value F} (h : (ownerReferences pod).truthy = false) : Unowned pod := by
  have hnone : ∀ kind, controllerUid kind pod = none := by
    intro kind
    unfold controllerUid
    split
    · rename_i owner howner
      rw [howner] at h
      cases h
    · rfl
  exact ⟨hnone _, hnone _⟩

/-- The images of the static manifest a name of the node stands for. -/
def manifestImages (pins : Pins) (node : Text) (name : Text) : Option (List Text) :=
  (pins.components.find? fun e => .scalar e.1 =
    Text.ofPoints (name.points.take (name.points.length - (node.points.length + 1)))).map fun e => [e.2]

/-- What a mirror Pod is held to. -/
structure MirrorStanding (pins : Pins) (c : Controllers F) (tally : Tally) (i : Identity)
    (pod : Value F) (standing : Standing) : Prop where
  unowned : Unowned pod
  once : i ∉ tally.staticSeen
  tally : standing.tally = tally.seeStatic i
  elevated : standing.elevated = true
  images : standing.expectedImages = manifestImages pins c.node.1 i.2
  alone : ((podSpec pod).get "initContainers").truthy = false ∧
    ((podSpec pod).get "ephemeralContainers").truthy = false

/-- What a controller's template asks of a Pod. -/
def FromTemplate (entries : List (Identity × Value F)) (parent : Identity) (standing : Standing) :
    Prop :=
  ∃ e ∈ entries, e.1 = parent ∧ ∃ template, templateSpec e.2 = .ok template ∧
    containerImages template = .ok standing.expectedImages

/-- What a Pod of a controller is held to. -/
structure OwnedStanding (c : Controllers F) (chain : Chain) (tally : Tally) (pod : Value F)
    (parent : Identity) (standing : Standing) : Prop where
  kind : OfReplicaset c chain pod parent ∧ FromTemplate c.deployments parent standing ∧
      standing.elevated = false ∧ standing.capabilities = allowedCapabilities parent ∨
    OfDaemonset c pod parent ∧ FromTemplate c.daemonsets parent standing ∧ standing.elevated = true
  tally : standing.tally = tally.bump parent

theorem mirrorPod_eq_ok {pins : Pins} {c : Controllers F} {tally : Tally} {i : Identity}
    {pod : Value F} {standing : Standing} (h : mirrorPod pins c tally i pod = .ok standing) :
    MirrorStanding pins c tally i pod standing := by
  obtain ⟨_, howner, hrest⟩ := bind_eq_ok.mp h
  obtain ⟨hnew, hrest⟩ := raiseIf_bind_eq_ok.mp hrest
  obtain ⟨-, hrest⟩ := raiseIf_bind_eq_ok.mp hrest
  obtain ⟨hinit, hrest⟩ := raiseIf_bind_eq_ok.mp hrest
  obtain ⟨hephemeral, hrest⟩ := raiseIf_bind_eq_ok.mp hrest
  obtain rfl := Except.ok.inj hrest
  refine ⟨?_, hnew, rfl, rfl, rfl, by simpa using hinit, by simpa using hephemeral⟩
  cases htruthy : (ownerReferences pod).truthy with
  | false => exact unowned_of_falsy htruthy
  | true =>
    obtain ⟨owner, hsingle, his⟩ := bind_eq_ok.mp (doIf_eq_ok.mp howner htruthy)
    have hversion := each_eq_ok.mp his ("apiVersion", .scalar "v1") (by simp)
    have hv1 : owner.get "apiVersion" = .text "v1" := by simpa [Value.text] using hversion
    have hother : owner.get "apiVersion" ≠ .text "apps/v1" := by
      rw [hv1, ne_eq, Value.text_inj]
      decide
    obtain ⟨hrefs, -⟩ := oneControllerOwner_eq_ok hsingle
    exact ⟨controllerUid_of_other hrefs (.inl hother), controllerUid_of_other hrefs (.inl hother)⟩

theorem replicasetPod_eq_ok {c : Controllers F} {chain : Chain} {tally : Tally} {i : Identity}
    {pod owner : Value F} {standing : Standing} (hrefs : ownerReferences pod = .arr [owner])
    (hcontroller : (owner.get "controller").isTrue = true)
    (hversion : owner.get "apiVersion" = .text "apps/v1")
    (hkind : owner.get "kind" = .text "ReplicaSet")
    (h : replicasetPod c chain tally i owner = .ok standing) :
    ∃ parent, OwnedStanding c chain tally pod parent standing := by
  obtain ⟨found, hfound, hrest⟩ := bind_eq_ok.mp h
  cases found with
  | none => cases hrest
  | some parent =>
    obtain ⟨u, hu, hparent⟩ := lookupUid_eq_ok hfound
    obtain ⟨hany, hrest⟩ := raiseIf_bind_eq_ok.mp hrest
    have hactive : chain.active.lookup parent = some u := by
      rw [Bool.not_eq_false, Option.any_eq_true] at hany
      obtain ⟨active, hlookup, heq⟩ := hany
      rw [Value.eq_str, hu] at heq
      rw [hlookup, Value.str.inj heq]
    obtain ⟨-, hrest⟩ := raiseIf_bind_eq_ok.mp hrest
    obtain ⟨-, hrest⟩ := raiseIf_bind_eq_ok.mp hrest
    obtain ⟨_, -, hrest⟩ := bind_eq_ok.mp hrest
    obtain ⟨_, -, hrest⟩ := bind_eq_ok.mp hrest
    obtain ⟨-, hrest⟩ := raiseIf_bind_eq_ok.mp hrest
    split at hrest
    · cases hrest
    · rename_i deployment hdeployment
      obtain ⟨template, htemplate, hrest⟩ := bind_eq_ok.mp hrest
      obtain ⟨images, himages, hrest⟩ := bind_eq_ok.mp hrest
      obtain rfl := Except.ok.inj hrest
      have hmem := mem_of_lookup hdeployment
      have hother : owner.get "kind" ≠ .text "DaemonSet" := by
        rw [hkind, ne_eq, Value.text_inj]
        decide
      refine ⟨parent, .inl ⟨⟨List.mem_map_of_mem hmem, ⟨u, ?_, hparent, hactive⟩, ?_⟩,
        ⟨_, hmem, rfl, template, htemplate, himages⟩, rfl, rfl⟩, rfl⟩
      · exact controllerUid_of_owner hrefs hcontroller hversion hkind hu
      · exact controllerUid_of_other hrefs (.inr hother)

theorem daemonsetPod_eq_ok {c : Controllers F} {chain : Chain} {tally : Tally} {i : Identity}
    {pod owner : Value F} {standing : Standing} (hrefs : ownerReferences pod = .arr [owner])
    (hcontroller : (owner.get "controller").isTrue = true)
    (hversion : owner.get "apiVersion" = .text "apps/v1")
    (hkind : owner.get "kind" = .text "DaemonSet")
    (h : daemonsetPod c tally i owner = .ok standing) :
    ∃ parent, OwnedStanding c chain tally pod parent standing := by
  obtain ⟨found, hfound, hrest⟩ := bind_eq_ok.mp h
  cases found with
  | none => cases hrest
  | some parent =>
    obtain ⟨u, hu, hparent⟩ := lookupUid_eq_ok hfound
    obtain ⟨-, hrest⟩ := raiseIf_bind_eq_ok.mp hrest
    obtain ⟨-, hrest⟩ := raiseIf_bind_eq_ok.mp hrest
    obtain ⟨-, hrest⟩ := raiseIf_bind_eq_ok.mp hrest
    split at hrest
    · cases hrest
    · rename_i daemonset hdaemonset
      obtain ⟨template, htemplate, hrest⟩ := bind_eq_ok.mp hrest
      obtain ⟨images, himages, hrest⟩ := bind_eq_ok.mp hrest
      obtain rfl := Except.ok.inj hrest
      have hother : owner.get "kind" ≠ .text "ReplicaSet" := by
        rw [hkind, ne_eq, Value.text_inj]
        decide
      refine ⟨parent, .inr ⟨⟨⟨u, ?_, hparent⟩, ?_⟩,
        ⟨_, mem_of_lookup hdaemonset, rfl, template, htemplate, himages⟩, rfl⟩, rfl⟩
      · exact controllerUid_of_owner hrefs hcontroller hversion hkind hu
      · exact controllerUid_of_other hrefs (.inr hother)

theorem controlledPod_eq_ok {c : Controllers F} {chain : Chain} {tally : Tally} {i : Identity}
    {pod : Value F} {standing : Standing} (h : controlledPod c chain tally i pod = .ok standing) :
    ∃ parent, OwnedStanding c chain tally pod parent standing := by
  obtain ⟨-, hrest⟩ := raiseIf_bind_eq_ok.mp h
  obtain ⟨owner, howner, hrest⟩ := bind_eq_ok.mp hrest
  obtain ⟨hversion, hrest⟩ := raiseIf_bind_eq_ok.mp hrest
  obtain ⟨approved, hin, hrest⟩ := bind_eq_ok.mp hrest
  obtain ⟨happroved, hrest⟩ := raiseIf_bind_eq_ok.mp hrest
  obtain ⟨hrefs, hcontroller⟩ := oneControllerOwner_eq_ok howner
  rw [Bool.not_eq_false, Value.eq_text] at hversion
  split at hrest
  · rename_i hkind
    exact replicasetPod_eq_ok hrefs hcontroller hversion (Value.eq_text.mp hkind) hrest
  · rename_i hkind
    -- An approved kind that is no ReplicaSet is a DaemonSet.
    have hdaemonset : owner.get "kind" = .text "DaemonSet" := by
      unfold Value.inSet at hin
      split at hin
      · rw [← Except.ok.inj hin] at happroved
        simpa [hkind] using happroved
      · cases hin
    exact daemonsetPod_eq_ok hrefs hcontroller hversion hdaemonset hrest

theorem mirrored_eq_ok {c : Controllers F} {i : Identity} {pod : Value F}
    (hid : identity? pod = some i) (h : mirrored c i pod = .ok true) : Mirrors c.node.1 pod := by
  obtain ⟨annotations, hannotations, hrest⟩ := bind_eq_ok.mp h
  obtain ⟨mark, hmark, hrest⟩ := bind_eq_ok.mp hrest
  split at hrest
  · rename_i hstatic
    obtain ⟨absent, habsent, hnot⟩ := bind_eq_ok.mp hrest
    have hfalse : absent = false := by simpa using Except.ok.inj hnot
    rw [hfalse] at habsent
    refine ⟨i, hstatic, hid, ?_⟩
    rwa [Value.get_get_of_getOr (Value.dig_singleton hannotations) hmark]
  · cases hrest

/-- Everything one accepted Pod has been held to. -/
structure Accepted (pins : Pins) (c : Controllers F) (chain : Chain) (tally tally' : Tally)
    (pod : Value F) (i : Identity) (uid : Text) (standing : Standing) : Prop where
  identity : identity? pod = some i
  new : uid ∉ tally.podUids
  stable : uid? pod = some uid
  images : ∃ images, containerImages (podSpec pod) = .ok (some images) ∧
    standing.expectedImages = some images
  kind : Mirrors c.node.1 pod ∧ MirrorStanding pins c (tally.seeUid uid) i pod standing ∨
    ∃ parent, OwnedStanding c chain (tally.seeUid uid) pod parent standing
  restricted : standing.elevated = false → assertRestrictedSpec (podSpec pod)
    [.scalar "Pod ", i.1, .scalar "/", i.2] standing.capabilities = .ok ()
  tally : tally' = standing.tally

theorem podIdentity_eq_ok {tally : Tally} {pod : Value F} {known : Identity × Text}
    (h : podIdentity tally pod = .ok known) :
    identity? pod = some known.1 ∧ uid? pod = some known.2 ∧ known.2 ∉ tally.podUids := by
  obtain ⟨_, -, hrest⟩ := bind_eq_ok.mp h
  obtain ⟨-, hrest⟩ := raiseIf_bind_eq_ok.mp hrest
  split at hrest
  · rename_i ns name uid hns hname huid
    obtain ⟨hnew, hrest⟩ := raiseIf_bind_eq_ok.mp hrest
    obtain ⟨-, hrest⟩ := raiseIf_bind_eq_ok.mp hrest
    obtain rfl := Except.ok.inj hrest
    refine ⟨?_, huid, hnew⟩
    rw [identity?_eq_some]
    exact Prod.ext (Value.str?_eq_some.mp hns) (Value.filled?_eq_some.mp hname).1
  · cases hrest

theorem checkPod_eq_ok {pins : Pins} {c : Controllers F} {chain : Chain} {tally tally' : Tally}
    {pod : Value F} (h : checkPod pins c chain tally pod = .ok tally') :
    ∃ i uid standing, Accepted pins c chain tally tally' pod i uid standing := by
  obtain ⟨known, hknown, hrest⟩ := bind_eq_ok.mp h
  obtain ⟨images, himages, hrest⟩ := bind_eq_ok.mp hrest
  obtain ⟨hvalid, hrest⟩ := raiseIf_bind_eq_ok.mp hrest
  obtain ⟨standing, hwhole, hrest⟩ := bind_eq_ok.mp hrest
  obtain ⟨hsame, hrest⟩ := raiseIf_bind_eq_ok.mp hrest
  obtain ⟨_, -, hrest⟩ := bind_eq_ok.mp hrest
  obtain ⟨_, -, hrest⟩ := bind_eq_ok.mp hrest
  obtain ⟨_, hrestricted, hrest⟩ := bind_eq_ok.mp hrest
  obtain ⟨hid, huid, hnew⟩ := podIdentity_eq_ok hknown
  obtain ⟨mirror, hmirror, hstanding⟩ := bind_eq_ok.mp hwhole
  obtain ⟨imageList, hlist⟩ := Option.ne_none_iff_exists'.mp hvalid
  rw [hlist] at himages hsame
  refine ⟨known.1, known.2, standing, hid, hnew, huid, ⟨imageList, himages, (not_not.mp hsame).symm⟩,
    ?_, fun helevated => doIf_eq_ok.mp hrestricted helevated, (Except.ok.inj hrest).symm⟩
  cases mirror with
  | true => exact .inl ⟨mirrored_eq_ok hid hmirror, mirrorPod_eq_ok hstanding⟩
  | false => exact .inr (controlledPod_eq_ok hstanding)

/-- What the tally holds after the Pods seen so far. -/
structure Tallied (c : Controllers F) (chain : Chain) (seen : List (Value F)) (tally : Tally) :
    Prop where
  uids : seen.map uid? = tally.podUids.map some
  unique : tally.podUids.Nodup
  standing : ∀ pod ∈ seen, Mirrors c.node.1 pod ∧ Unowned pod ∨
    ∃ parent, OfReplicaset c chain pod parent ∨ OfDaemonset c pod parent
  statics : (seen.filter fun pod => parentOf c chain pod = none).map identity? =
    tally.staticSeen.map some
  once : tally.staticSeen.Nodup
  counts : tally.podCounts = (c.deployments ++ c.daemonsets).map fun d =>
    (d.1, ((seen.countP fun pod => parentOf c chain pod = some d.1 : ℕ) : ℤ))

theorem parentOf_of_unowned {c : Controllers F} {chain : Chain} {pod : Value F} (h : Unowned pod) :
    parentOf c chain pod = none := by
  rw [parentOf, h.1, h.2]
  rfl

theorem OfReplicaset.parentOf_eq {c : Controllers F} {chain : Chain} {pod : Value F}
    {parent : Identity} (h : OfReplicaset c chain pod parent) : parentOf c chain pod = some parent := by
  obtain ⟨u, hu, hparent, -⟩ := h.owner
  rw [parentOf, hu, Option.bind_some, hparent, Option.some_or]

theorem OfDaemonset.parentOf_eq {c : Controllers F} {chain : Chain} {pod : Value F}
    {parent : Identity} (h : OfDaemonset c pod parent) : parentOf c chain pod = some parent := by
  obtain ⟨u, hu, hparent⟩ := h.owner
  rw [parentOf, h.other, hu, Option.bind_none, Option.bind_some, hparent, Option.none_or]

theorem bump_counts {entries : List (Identity × Value F)} {seen : List (Value F)} {c : Controllers F}
    {chain : Chain} {pod : Value F} {parent : Identity} (h : parentOf c chain pod = some parent) :
    (entries.map fun d => (d.1, ((seen.countP fun pod => parentOf c chain pod = some d.1 : ℕ) : ℤ))).map
      (fun count => if count.1 = parent then (count.1, count.2 + 1) else count) =
    entries.map fun d =>
      (d.1, (((seen ++ [pod]).countP fun pod => parentOf c chain pod = some d.1 : ℕ) : ℤ)) := by
  rw [List.map_map]
  refine List.map_congr_left fun d _ => ?_
  rw [Function.comp_apply, List.countP_append, List.countP_singleton, h]
  by_cases hd : d.1 = parent
  · simp [hd]
  · have hne : ¬ parent = d.1 := fun heq => hd heq.symm
    simp [hd, hne]

theorem tallied_step {pins : Pins} {c : Controllers F} {chain : Chain} {seen : List (Value F)}
    {tally tally' : Tally} {pod : Value F} (h : Tallied c chain seen tally)
    (hstep : checkPod pins c chain tally pod = .ok tally') : Tallied c chain (seen ++ [pod]) tally' := by
  obtain ⟨i, uid, standing, hpod⟩ := checkPod_eq_ok hstep
  have huids : (seen ++ [pod]).map uid? = (tally.podUids ++ [uid]).map some := by
    rw [List.map_append, List.map_append, h.uids, List.map_singleton, List.map_singleton, hpod.stable]
  have hunique : (tally.podUids ++ [uid]).Nodup := nodup_append_singleton.mpr ⟨hpod.new, h.unique⟩
  have hcases := hpod.kind
  rw [hpod.tally]
  rcases hcases with ⟨hmirror, hs⟩ | ⟨parent, hs⟩
  · have hnone : parentOf c chain pod = none := parentOf_of_unowned hs.unowned
    rw [hs.tally]
    refine ⟨huids, hunique, ?_, ?_, nodup_append_singleton.mpr ⟨hs.once, h.once⟩, ?_⟩
    · simp only [List.forall_mem_append, List.forall_mem_singleton]
      exact ⟨h.standing, .inl ⟨hmirror, hs.unowned⟩⟩
    · rw [List.filter_append, List.map_append, h.statics, Tally.seeStatic, Tally.seeUid]
      simp [hnone, hpod.identity]
    · rw [Tally.seeStatic, Tally.seeUid, h.counts]
      refine List.map_congr_left fun d _ => ?_
      simp [hnone]
  · have hparent : parentOf c chain pod = some parent := by
      rcases hs.kind with ⟨hr, -⟩ | ⟨hd, -⟩
      · exact hr.parentOf_eq
      · exact hd.parentOf_eq
    rw [hs.tally]
    refine ⟨huids, hunique, ?_, ?_, h.once, ?_⟩
    · simp only [List.forall_mem_append, List.forall_mem_singleton]
      refine ⟨h.standing, .inr ⟨parent, ?_⟩⟩
      rcases hs.kind with ⟨hr, -⟩ | ⟨hd, -⟩
      · exact .inl hr
      · exact .inr hd
    · rw [List.filter_append, List.map_append, h.statics]
      simp [hparent, Tally.bump, Tally.seeUid]
    · rw [Tally.bump, Tally.seeUid, h.counts, bump_counts hparent]

/-! ## The controllers -/

theorem stableDeployment_eq_ok {item : Value F} {i : Identity} {n : ℤ}
    (h : stableDeployment item i = .ok n) : replicas? item = some n := by
  obtain ⟨spec, hspec, hrest⟩ := bind_eq_ok.mp h
  obtain ⟨status, -, hrest⟩ := bind_eq_ok.mp hrest
  obtain ⟨replicas, hreplicas, hrest⟩ := bind_eq_ok.mp hrest
  split at hrest
  · rename_i m generation hm _
    obtain ⟨-, hrest⟩ := raiseIf_bind_eq_ok.mp hrest
    obtain ⟨_, -, hrest⟩ := bind_eq_ok.mp hrest
    obtain ⟨-, hrest⟩ := raiseIf_bind_eq_ok.mp hrest
    obtain ⟨_, -, hrest⟩ := bind_eq_ok.mp hrest
    obtain ⟨_, -, hrest⟩ := bind_eq_ok.mp hrest
    obtain ⟨-, hrest⟩ := raiseIf_bind_eq_ok.mp hrest
    rw [replicas?, Value.get_get_of_getOr hspec hreplicas, hm, ← Except.ok.inj hrest]
  · cases hrest

theorem stableDaemonset_eq_ok {item : Value F} {i : Identity} {n : ℤ}
    (h : stableDaemonset item i = .ok n) : desired? item = some n ∧ n = 1 := by
  obtain ⟨status, hstatus, hrest⟩ := bind_eq_ok.mp h
  obtain ⟨desired, hdesired, hrest⟩ := bind_eq_ok.mp hrest
  split at hrest
  · rename_i generation m _ hm
    obtain ⟨-, hrest⟩ := raiseIf_bind_eq_ok.mp hrest
    obtain ⟨-, hrest⟩ := raiseIf_bind_eq_ok.mp hrest
    obtain ⟨hone, hrest⟩ := raiseIf_bind_eq_ok.mp hrest
    obtain ⟨_, -, hrest⟩ := bind_eq_ok.mp hrest
    obtain ⟨_, -, hrest⟩ := bind_eq_ok.mp hrest
    rw [desired?, Value.get_get_of_getOr hstatus hdesired, hm, ← Except.ok.inj hrest]
    exact ⟨rfl, not_not.mp hone⟩
  · cases hrest

/-- The template of a controller, with images its pins allow. -/
def Pinned (allows : List Text → Prop) (item : Value F) : Prop :=
  ∃ template images, templateSpec item = .ok template ∧
    containerImages template = .ok (some images) ∧ allows images

theorem checkDeployment_eq_ok {pins : Pins} {p : Provider} {d : Identity × Value F}
    {r : Identity × ℤ} (h : checkDeployment pins p d = .ok r) :
    r.1 = d.1 ∧ replicas? d.2 = some r.2 ∧
      Pinned (fun images => checkDeploymentImages pins p d.1 images = .ok ()) d.2 := by
  obtain ⟨n, hn, hrest⟩ := bind_eq_ok.mp h
  obtain ⟨template, htemplate, hrest⟩ := bind_eq_ok.mp hrest
  obtain ⟨images, himages, hrest⟩ := bind_eq_ok.mp hrest
  cases images with
  | none => cases hrest
  | some images =>
    obtain ⟨_, hpinned, hrest⟩ := bind_eq_ok.mp hrest
    obtain ⟨_, -, hrest⟩ := bind_eq_ok.mp hrest
    obtain rfl := Except.ok.inj hrest
    exact ⟨rfl, stableDeployment_eq_ok hn, template, images, htemplate, himages, hpinned⟩

theorem checkDaemonset_eq_ok {pins : Pins} {p : Provider} {d : Identity × Value F}
    {r : Identity × ℤ} (h : checkDaemonset pins p d = .ok r) :
    r.1 = d.1 ∧ (desired? d.2 = some r.2 ∧ r.2 = 1) ∧
      Pinned (fun images => checkDaemonsetImages pins p d.1 images = .ok ()) d.2 := by
  obtain ⟨n, hn, hrest⟩ := bind_eq_ok.mp h
  obtain ⟨template, htemplate, hrest⟩ := bind_eq_ok.mp hrest
  obtain ⟨images, himages, hrest⟩ := bind_eq_ok.mp hrest
  cases images with
  | none => cases hrest
  | some images =>
    obtain ⟨_, hpinned, hrest⟩ := bind_eq_ok.mp hrest
    obtain ⟨_, -, hrest⟩ := bind_eq_ok.mp hrest
    obtain rfl := Except.ok.inj hrest
    exact ⟨rfl, stableDaemonset_eq_ok hn, template, images, htemplate, himages, hpinned⟩

/-- What the controllers have been held to. -/
structure Established (pins : Pins) (captures : Captures F) (p : Provider) (c : Controllers F) :
    Prop where
  provider : p = cilium ∨ p = calico
  node : productionNode captures = .ok c.node
  deployments : Listed (itemsOf captures "deployments.json") c.deployments
  daemonsets : Listed (itemsOf captures "daemonsets.json") c.daemonsets
  isDeployment : ∀ i, i ∈ c.deployments.map Prod.fst ↔ i ∈ p.deployments
  isDaemonset : ∀ i, i ∈ c.daemonsets.map Prod.fst ↔ i ∈ p.daemonsets
  replicas : List.Forall₂ (fun d r => checkDeployment pins p d = .ok r) c.deployments
    c.deploymentReplicas
  desired : List.Forall₂ (fun d r => checkDaemonset pins p d = .ok r) c.daemonsets
    c.daemonsetDesired

theorem nodup_controllers {p : Provider} (h : p = cilium ∨ p = calico) :
    p.deployments.Nodup ∧ p.daemonsets.Nodup ∧ ∀ i ∈ p.deployments, i ∉ p.daemonsets := by
  rcases h with rfl | rfl <;> decide

theorem checkControllers_eq_ok {pins : Pins} {captures : Captures F} {c : Controllers F}
    (h : checkControllers pins captures = .ok c) : ∃ p, Established pins captures p c := by
  obtain ⟨node, hnode, hrest⟩ := bind_eq_ok.mp h
  obtain ⟨deploymentItems, hdeploymentItems, hrest⟩ := bind_eq_ok.mp hrest
  obtain ⟨daemonsetItems, hdaemonsetItems, hrest⟩ := bind_eq_ok.mp hrest
  obtain ⟨p, hp, hrest⟩ := bind_eq_ok.mp hrest
  obtain ⟨deployments, hdeployments, hrest⟩ := bind_eq_ok.mp hrest
  obtain ⟨daemonsets, hdaemonsets, hrest⟩ := bind_eq_ok.mp hrest
  obtain ⟨_, -, hrest⟩ := bind_eq_ok.mp hrest
  obtain ⟨replicas, hreplicas, hrest⟩ := bind_eq_ok.mp hrest
  obtain ⟨desired, hdesired, hrest⟩ := bind_eq_ok.mp hrest
  obtain rfl := Except.ok.inj hrest
  have hprovider := selectProvider_eq_ok hp
  obtain ⟨hnodup, hnodup', -⟩ := nodup_controllers hprovider
  obtain ⟨hlisted, hkeys⟩ := exactNamespacedMap_eq_ok hnodup hdeployments
  obtain ⟨hlisted', hkeys'⟩ := exactNamespacedMap_eq_ok hnodup' hdaemonsets
  exact ⟨p, hprovider, hnode, loadItems_eq_ok hdeploymentItems ▸ hlisted,
    loadItems_eq_ok hdaemonsetItems ▸ hlisted', hkeys, hkeys', collect_eq_ok.mp hreplicas,
    collect_eq_ok.mp hdesired⟩

/-- What the whole inventory has been held to. -/
structure Inventoried (pins : Pins) (captures : Captures F) (p : Provider) (c : Controllers F)
    (chain : Chain) (replicasets : List (Identity × Value F)) (tally : Tally) : Prop where
  established : Established pins captures p c
  listed : Listed (itemsOf captures "replicasets.json") replicasets
  stable : (replicasets.map fun e => uid? e.2).Nodup
  chained : Chained c replicasets chain
  covered : ∀ d ∈ c.deployments, d.1 ∈ chain.active.map Prod.fst
  carried : carry (checkPod pins c chain)
    ⟨(c.deployments ++ c.daemonsets).map fun d => (d.1, (0 : ℤ)), [], []⟩
    (itemsOf captures "pods.json") = .ok tally
  static : ∀ i ∈ staticExpected c.node.1, i ∈ tally.staticSeen
  counts : tally.podCounts = c.deploymentReplicas ++ c.daemonsetDesired

theorem validate_eq_ok {pins : Pins} {captures : Captures F} (h : validate pins captures = .ok ()) :
    ∃ p c chain replicasets tally, Inventoried pins captures p c chain replicasets tally := by
  obtain ⟨_, -, hrest⟩ := bind_eq_ok.mp h
  obtain ⟨c, hc, hrest⟩ := bind_eq_ok.mp hrest
  obtain ⟨items, hitems, hrest⟩ := bind_eq_ok.mp hrest
  obtain ⟨chain, hchain, hrest⟩ := bind_eq_ok.mp hrest
  obtain ⟨pods, hpods, hrest⟩ := bind_eq_ok.mp hrest
  obtain ⟨_, hcheck, -⟩ := bind_eq_ok.mp hrest
  obtain ⟨p, hp⟩ := checkControllers_eq_ok hc
  obtain ⟨replicasets, hlisted, huids, hchained, hcovered⟩ := checkReplicasets_eq_ok hchain
  obtain ⟨tally, hcarry, hrest⟩ := bind_eq_ok.mp hcheck
  obtain ⟨hstatic, hrest⟩ := raiseIf_bind_eq_ok.mp hrest
  have hcounts := raiseIf_eq_ok.mp hrest
  refine ⟨p, c, chain, replicasets, tally, hp, loadItems_eq_ok hitems ▸ hlisted, huids, hchained,
    hcovered, loadItems_eq_ok hpods ▸ hcarry, ?_, not_not.mp hcounts⟩
  simpa [List.all_eq_true] using hstatic

end RuntimeInventory
