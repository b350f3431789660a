import Mathlib
import WebsiteInfrastructure.Policy.Workloads

/-!
# The tokens of the connectors

A workload in the namespace of the connectors reads the token of its instance label. Only of a
Deployment is the label bound to the name.
-/

namespace Policy

open Rego

variable {input : Term} {eager : Bool}

/-! ## Which Secrets a workload reads -/

/-- The items of a list; a null or a missing list has none. -/
def itemsOf : Ref → List Term
  | some (.arr items) => items
  | _ => []

/-- The containers of all three lists. -/
def containersOf (spec : Ref) : List Term :=
  ["containers", "initContainers", "ephemeralContainers"].flatMap fun field => itemsOf (spec.dot field)

/-- The name in a reference to a Secret. -/
def secretName (field : String) : Ref → Option String
  | some (.obj fields) => match fields.lookup field with
    | some (.str name) => some name
    | _ => some ""
  | _ => none

def envSecrets (container : Term) : List String :=
  (itemsOf (Ref.dot container "env")).filterMap
      (fun (entry : Term) => secretName "name" (Ref.path entry ["valueFrom", "secretKeyRef"])) ++
    (itemsOf (Ref.dot container "envFrom")).filterMap
      fun (entry : Term) => secretName "name" (Ref.dot entry "secretRef")

/-- The Secrets of a volume, whichever source names them. -/
def volumeSecrets (volume : Term) : List String :=
  ([["secret"], ["azureFile"]].filterMap fun keys => secretName "secretName" (Ref.path volume keys)) ++
    ([["csi", "nodePublishSecretRef"], ["flexVolume", "secretRef"], ["cephfs", "secretRef"],
      ["iscsi", "secretRef"], ["rbd", "secretRef"], ["scaleIO", "secretRef"],
      ["storageos", "secretRef"]].filterMap fun keys => secretName "name" (Ref.path volume keys)) ++
    (itemsOf (Ref.path volume ["projected", "sources"])).filterMap
      fun (source : Term) => secretName "name" (Ref.dot source "secret")

/-- The Secrets the containers of a workload can read. A volume without a name cannot be mounted. -/
def secretsOf (input : Term) : List String :=
  (containersOf (podSpec input)).flatMap envSecrets ++
    ((itemsOf ((podSpec input).dot "volumes")).filter named).flatMap volumeSecrets

/-- A workload is a reviewed connector and reads its own token. -/
def Isolated (input : Term) : Prop :=
  ∃ name ∈ connectorDeployments, inp input ["metadata", "name"] = some (.str name) ∧
    ∀ secret ∈ secretsOf input, secret = name ++ "-token"

instance : Decidable (Isolated input) :=
  inferInstanceAs (Decidable (∃ name ∈ connectorDeployments, _ ∧ ∀ secret ∈ secretsOf input, _))

/-- The name of a workload decides which token it reads. -/
def Rooted (input : Term) : Prop :=
  kindIs input ["Deployment"] = true ∨
    ∃ name ∈ connectorDeployments, inp input ["metadata", "name"] = some (.str name) ∧
      (connectorInstance input = some (.str name) ∨ secretsOf input = [])

/-! ## The namespace of the connectors -/

/-- A document in the namespace of the connectors. -/
structure Public (input : Term) : Prop where
  workload : isWorkload input = true
  ns : inp input ["metadata", "namespace"] = some (.str "cloudflare-public")

namespace Public

theorem metadata (h : Public input) : ∃ fields, inp input ["metadata"] = some (.obj fields) ∧
    fields.lookup "namespace" = some (.str "cloudflare-public") :=
  Ref.dot_eq_some.mp h.ns

theorem namespaceOr_eq (h : Public input) (default : String) :
    namespaceOr input default = some (.str "cloudflare-public") := by
  obtain ⟨fields, hmetadata, -⟩ := h.metadata
  have hdot : Ref.dot input "metadata" = some (.obj fields) := hmetadata
  rw [namespaceOr, Ref.get_of_dot hdot]
  exact Ref.get_of_dot (hmetadata ▸ h.ns) _

theorem formats_name (h : Public input) :
    formats [(inp input ["metadata"]).get "name" (.str "")] = true := by
  obtain ⟨fields, hmetadata, -⟩ := h.metadata
  simp [hmetadata, formats, Ref.get]

theorem restricted (h : Public input) : restrictedNamespace input = true := by
  rw [restrictedNamespace, h.namespaceOr_eq]
  decide

end Public

/-! ## What a workload that passes reads -/

/-- What a connector that passes has been held to. -/
structure Bound (input : Term) (instanceName : String) : Prop where
  reviewed : instanceName ∈ connectorDeployments
  label : connectorInstance input = some (.str instanceName)
  env : ∃ found, containers input = some found ∧
    ∀ c ∈ found.elements, validConnectorContainerEnv instanceName c = true
  mounts : ∀ volume ∈ volumes input, named volume = true → volume = tunnelTokenVolume instanceName

theorem reviewedInstance_eq_some {name : String} (h : reviewedInstance input = some name) :
    name ∈ connectorDeployments ∧ connectorInstance input = some (.str name) :=
  ⟨List.mem_of_find?_eq_some h, by simpa using List.find?_some h⟩

theorem bound_of_denyWorkload (h : Public input) (hdeny : denyWorkload input eager = false) :
    ∃ name, Bound input name := by
  simp only [denyWorkload, denyElse, Bool.or_eq_false_iff] at hdeny
  have henv : denyConnectorSecretEnv input = false := by tauto
  have hvolume : denyTenantVolume input = false := by tauto
  have hworkload : publicConnectorWorkload input = true := by
    rw [publicConnectorWorkload, h.workload, h.namespaceOr_eq]
    decide
  rw [denyConnectorSecretEnv, hworkload, h.formats_name, Bool.true_and, Bool.and_true,
    Bool.not_eq_false', connectorSecretEnvBindingIsOwnInstance, Option.any_eq_true] at henv
  obtain ⟨name, hname, henv⟩ := henv
  obtain ⟨found, hfound, hall⟩ := Option.any_eq_true _ _ |>.mp henv
  obtain ⟨hreviewed, hlabel⟩ := reviewedInstance_eq_some hname
  refine ⟨name, hreviewed, hlabel, ⟨found, hfound, List.all_eq_true.mp hall⟩, fun volume hmem hnamed => ?_⟩
  rw [denyTenantVolume, h.workload, h.restricted, h.ns] at hvolume
  simp only [Bool.true_and, Option.any_some, List.any_eq_false] at hvolume
  have hvalid := hvolume volume hmem
  simpa [validTenantVolume, siteNamespaces, hname, hnamed] using hvalid

theorem mem_itemsOf {r : Ref} {t : Term} (h : t ∈ itemsOf r) : ∃ items, r = some (.arr items) ∧ t ∈ items := by
  unfold itemsOf at h
  split at h
  · exact ⟨_, rfl, h⟩
  · simp at h

/-- The containers the policy goes through are all there are. -/
theorem mem_containers {found c : Term} (hfound : containers input = some found)
    (hc : c ∈ containersOf (podSpec input)) : c ∈ found.elements := by
  obtain ⟨xs, ephemeral, hxs, hephemeral, rfl⟩ := Ref.concat_eq_some hfound
  obtain ⟨init, regular, hinit, hregular, hboth⟩ := Ref.concat_eq_some hxs
  obtain rfl := Term.arr.inj hboth
  have hlist : ∀ field items, podList input field = some (.arr items) →
      c ∈ itemsOf ((podSpec input).dot field) → c ∈ items := by
    intro field items hitems hmem
    obtain ⟨items', hdot, hmem⟩ := mem_itemsOf hmem
    have hget := Ref.get_of_dot hdot (.arr [])
    have heq : Term.arr items' = .arr items := Option.some.inj (hget.symm.trans hitems)
    exact Term.arr.inj heq ▸ hmem
  simp only [containersOf, List.mem_flatMap, List.mem_cons, List.not_mem_nil, or_false,
    exists_eq_or_imp, exists_eq_left] at hc
  simp only [Term.elements, List.mem_append]
  rcases hc with hc | hc | hc
  · exact .inl (.inr (hlist _ _ hregular hc))
  · exact .inl (.inl (hlist _ _ hinit hc))
  · exact .inr (hlist _ _ hephemeral hc)

theorem entry_secret {name secret : String} {entry : Term}
    (h : validConnectorEnvEntry name entry = true)
    (hsecret : secretName "name" (Ref.path entry ["valueFrom", "secretKeyRef"]) = some secret) :
    secret = name ++ "-token" := by
  have hpath : Ref.path entry ["valueFrom", "secretKeyRef"] =
      (Ref.dot entry "valueFrom").dot "secretKeyRef" := rfl
  rw [hpath] at hsecret
  rw [validConnectorEnvEntry, Bool.and_eq_true, Option.any_eq_true] at h
  obtain ⟨-, valueFrom, hvalue, hrest⟩ := h
  obtain ⟨-, hrest⟩ := Bool.and_eq_true_iff.mp hrest
  cases hdot : Ref.dot entry "valueFrom" with
  | none =>
    rw [hdot] at hsecret
    cases hsecret
  | some v =>
    obtain rfl : v = valueFrom := Option.some.inj ((Ref.get_of_dot hdot _).symm.trans hvalue)
    rw [hdot] at hsecret
    rcases Bool.or_eq_true_iff.mp hrest with hnone | hown
    · rw [Ref.dot_eq_none hnone] at hsecret
      cases hsecret
    · rw [holds_eq_true, Ref.equals_eq_some] at hown
      cases hkey : Ref.dot v "secretKeyRef" with
      | none =>
        rw [hkey] at hsecret
        cases hsecret
      | some key =>
        obtain rfl : key = ownTokenKey name :=
          Option.some.inj ((Ref.get_of_dot hkey _).symm.trans hown)
        rw [hkey] at hsecret
        exact (Option.some.inj hsecret).symm

theorem container_secret {name secret : String} {c : Term}
    (h : validConnectorContainerEnv name c = true) (hsecret : secret ∈ envSecrets c) :
    secret = name ++ "-token" := by
  rw [validConnectorContainerEnv, Bool.and_eq_true, Bool.and_eq_true] at h
  obtain ⟨⟨-, hfrom⟩, henv⟩ := h
  rw [envSecrets, Ref.dot_eq_none hfrom] at hsecret
  simp only [itemsOf, List.filterMap_nil, List.append_nil, List.mem_filterMap] at hsecret
  obtain ⟨entry, hentry, hname⟩ := hsecret
  obtain ⟨items, hitems, hmem⟩ := mem_itemsOf hentry
  rw [Ref.get_of_dot hitems, Option.any_some, Bool.and_eq_true] at henv
  exact entry_secret (List.all_eq_true.mp henv.2 entry hmem) hname

theorem volumeSecrets_tunnelToken {name : String} :
    volumeSecrets (tunnelTokenVolume name) = [name ++ "-token"] := rfl

/-- A workload that passes reads no other Secret than the token of its label. -/
theorem Bound.secret_eq {name : String} (h : Bound input name) {secret : String}
    (hsecret : secret ∈ secretsOf input) : secret = name ++ "-token" := by
  rcases List.mem_append.mp hsecret with hsecret | hsecret
  · obtain ⟨c, hc, hsecret⟩ := List.mem_flatMap.mp hsecret
    obtain ⟨found, hfound, hvalid⟩ := h.env
    exact container_secret (hvalid c (mem_containers hfound hc)) hsecret
  · obtain ⟨volume, hvolume, hsecret⟩ := List.mem_flatMap.mp hsecret
    obtain ⟨hitem, hnamed⟩ := List.mem_filter.mp hvolume
    obtain ⟨items, hitems, hmem⟩ := mem_itemsOf hitem
    have hvolumes : volume ∈ volumes input := by
      rw [volumes, podList, Ref.get_of_dot hitems]
      exact hmem
    rw [h.mounts volume hvolumes hnamed, volumeSecrets_tunnelToken] at hsecret
    exact List.mem_singleton.mp hsecret

/-! ## Deployments -/

/-- A Deployment that passes is a reviewed connector, labelled with its name. -/
theorem deployment_rooted (h : Public input) (hkind : kindIs input ["Deployment"] = true)
    (hdeny : denyWorkload input eager = false) : ∃ name ∈ connectorDeployments,
      inp input ["metadata", "name"] = some (.str name) ∧ connectorInstance input = some (.str name) := by
  simp only [denyWorkload, denyElse, Bool.or_eq_false_iff] at hdeny
  have hinventory : denyConnectorInventory input eager = false := by tauto
  have hidentity : denyConnectorIdentity input = false := by tauto
  have hpublic : publicConnectorDeployment input = true := by
    obtain ⟨fields, hmetadata, hns⟩ := h.metadata
    have hget : (inp input ["metadata"]).get "namespace" (.str "") =
        some (.str "cloudflare-public") := by
      rw [hmetadata]
      simp [Ref.get, hns]
    rw [publicConnectorDeployment, hkind, hget]
    decide
  rw [denyConnectorIdentity, hpublic, h.formats_name, Bool.true_and, Bool.and_true,
    Bool.not_eq_false', connectorIdentityRootedInName] at hidentity
  simp only [List.all_cons, List.all_nil, Bool.and_true, Bool.and_eq_true, Option.any_eq_true,
    holds_eq_true, Ref.equals_eq_some] at hidentity
  obtain ⟨-, -, name, hname, hlabel⟩ := hidentity
  rw [denyConnectorInventory, hpublic, h.formats_name, Bool.true_and, Bool.and_true,
    Ref.get_of_dot (r := inp input ["metadata"]) hname] at hinventory
  simp only [Ref.isIn, Option.map_some, holdsNot_some, Bool.not_eq_false', List.any_eq_true,
    decide_eq_true_eq] at hinventory
  obtain ⟨n, hn, rfl⟩ := hinventory
  refine ⟨n, hn, hname, ?_⟩
  have htemplate : template input = inp input ["spec", "template"] := by
    simp only [kindIs, holds_eq_true, Ref.isIn_eq_some, List.mem_singleton, exists_eq_left] at hkind
    rw [template, kindIs, kindIs, kindIs, hkind]
    rfl
  have hlabels : (((inp input ["spec", "template"]).dot "metadata").dot "labels").dot
      "app.kubernetes.io/instance" = some (.str n) := hlabel
  obtain ⟨labels, hfound, -⟩ := Ref.dot_eq_some.mp hlabels
  rw [connectorInstance, podMetadata, htemplate, Ref.get_eq_dot hfound, Ref.get_eq_dot hlabels]
  exact Ref.get_of_dot hlabels _

/-- A workload other than a Pod that passes in the namespace of the connectors is isolated exactly
when its name decides which token it reads. -/
theorem isolated_iff_rooted (hworkload : isWorkload input = true)
    (hns : namespaceIs input ["cloudflare-public"] = true)
    (hdeny : denyWorkload input eager = false) : Isolated input ↔ Rooted input := by
  have hpublic : Public input := by
    simp only [namespaceIs, holds_eq_true, Ref.isIn_eq_some, List.mem_singleton,
      exists_eq_left] at hns
    exact ⟨hworkload, hns⟩
  obtain ⟨instanceName, hbound⟩ := bound_of_denyWorkload hpublic hdeny
  constructor
  · rintro ⟨name, hname, hmetadata, hsecrets⟩
    refine .inr ⟨name, hname, hmetadata, ?_⟩
    rcases List.eq_nil_or_concat (secretsOf input) with hnil | ⟨rest, secret, hconcat⟩
    · exact .inr hnil
    · have hmem : secret ∈ secretsOf input := by
        simp [hconcat]
      have heq := (hbound.secret_eq hmem).symm.trans (hsecrets secret hmem)
      have hsame : instanceName = name := (String.append_left_inj "-token").mp heq
      exact .inl (hsame ▸ hbound.label)
  · intro hrooted
    rcases hrooted with hkind | ⟨name, hname, hmetadata, hlabel | hnone⟩
    · obtain ⟨name, hname, hmetadata, hlabel⟩ := deployment_rooted hpublic hkind hdeny
      obtain rfl := Term.str.inj (Option.some.inj (hbound.label.symm.trans hlabel))
      exact ⟨_, hname, hmetadata, fun _ => hbound.secret_eq⟩
    · obtain rfl := Term.str.inj (Option.some.inj (hbound.label.symm.trans hlabel))
      exact ⟨_, hname, hmetadata, fun _ => hbound.secret_eq⟩
    · exact ⟨name, hname, hmetadata, by simp [hnone]⟩

/-- A hardened container that reads the token of a connector. -/
def sampleContainer (instanceName : String) : Term :=
  .obj [("env", .arr [.obj [("name", .str "TUNNEL_TOKEN"),
      ("valueFrom", .obj [("secretKeyRef", ownTokenKey instanceName)])]]),
    ("image", .str ("cloudflare/cloudflared:v1@sha256:" ++
      "1111111111111111111111111111111111111111111111111111111111111111")),
    ("name", .str "cloudflared"),
    ("resources", .obj [("limits", .obj [("cpu", .str "1"), ("memory", .str "64Mi")]),
      ("requests", .obj [("cpu", .str "1"), ("memory", .str "64Mi")])]),
    ("securityContext", .obj [("allowPrivilegeEscalation", .bool false),
      ("capabilities", .obj [("drop", .strings ["ALL"])]), ("readOnlyRootFilesystem", .bool true)])]

/-- A Pod template of a connector, by its label. -/
def sampleConnectorTemplate (labels : Term) (instanceName : String) : Term :=
  .obj [("metadata", .obj [("labels", labels)]),
    ("spec", .obj [("automountServiceAccountToken", .bool false),
      ("containers", .arr [sampleContainer instanceName]),
      ("securityContext", .obj [("runAsNonRoot", .bool true),
        ("seccompProfile", .obj [("type", .str "RuntimeDefault")])]),
      ("serviceAccountName", .str "cloudflared")])]

/-- A workload in the namespace of the connectors. -/
def sampleConnector (kind name instanceName : String) : Term :=
  let labels : Term := .obj [("app.kubernetes.io/instance", .str instanceName)]
  .obj [("kind", .str kind),
    ("metadata", .obj [("labels", labels), ("name", .str name),
      ("namespace", .str "cloudflare-public")]),
    ("spec", .obj [("selector", .obj [("matchLabels", labels)]),
      ("template", sampleConnectorTemplate labels instanceName)])]

theorem isolated_iff_rooted_connector :
    Isolated (sampleConnector "Deployment" "lidersea-com-tunnel" "lidersea-com-tunnel") ↔
      Rooted (sampleConnector "Deployment" "lidersea-com-tunnel" "lidersea-com-tunnel") :=
  have hpasses : denyWorkload (sampleConnector "Deployment" "lidersea-com-tunnel"
      "lidersea-com-tunnel") true = false := by decide
  isolated_iff_rooted (by decide) (by decide) hpasses

/-- A DaemonSet of any name may read the token of a connector. -/
theorem daemonset_reads_token :
    (∀ eager, denyWorkload (sampleConnector "DaemonSet" "intruder" "lidersea-com-tunnel") eager =
      false) ∧ ¬ Isolated (sampleConnector "DaemonSet" "intruder" "lidersea-com-tunnel") := by
  decide

end Policy
