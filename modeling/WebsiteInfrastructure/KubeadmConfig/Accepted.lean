import Mathlib
import WebsiteInfrastructure.KubeadmConfig.Validator
import WebsiteInfrastructure.KubeadmConfig.Rendering
import WebsiteInfrastructure.Library.IndentedMapping

/-!
# What is accepted

The documents of an accepted text are closed: each has the reviewed keys and no others, and so has
each mapping in it. A field of one of these mappings stands nowhere else in the margin or one level
further in.
-/

namespace KubeadmConfig

open Raising

/-! ## Documents by their kinds -/

/-- Each document is a mapping, under its own kind, and no kind comes twice. -/
structure ByKind (documents : Documents) : Prop where
  nodup : (documents.map Prod.fst).Nodup
  kind : ∀ d ∈ documents, d.2.get? "kind" = some (.scalar d.1)
  distinct : ∀ d ∈ documents, Distinct d.2

theorem ByKind.add {documents next : Documents} (h : ByKind documents) {chunk : Text × ℕ}
    (hnext : addDocument documents chunk = .ok next) : ByKind next := by
  obtain ⟨parsed, hparsed, hnext⟩ := bind_eq_ok.mp hnext
  obtain ⟨-, -, -, -, hdistinct⟩ := parseChunk_reads hparsed
  split at hnext
  · split at hnext
    · next kind hkind =>
      obtain ⟨hnew, hnext⟩ := raiseIf_bind_eq_ok.mp hnext
      obtain rfl := Except.ok.inj hnext
      refine ⟨nodup_concat h.nodup hnew _, ?_, ?_⟩
      · exact List.forall_mem_append.mpr ⟨h.kind, List.forall_mem_singleton.mpr hkind⟩
      · exact List.forall_mem_append.mpr ⟨h.distinct, List.forall_mem_singleton.mpr hdistinct⟩
    · cases hnext
  · cases hnext

theorem ByKind.addAll {documents result : Documents} (h : ByKind documents)
    {chunks : List (Text × ℕ)} (hresult : addDocuments documents chunks = .ok result) :
    ByKind result := by
  induction chunks generalizing documents with
  | nil => exact Except.ok.inj hresult ▸ h
  | cons chunk chunks ih =>
    obtain ⟨next, hnext, hresult⟩ := bind_eq_ok.mp hresult
    exact ih (h.add hnext) hresult

theorem byKind_of_parseDocuments {text : Text} {documents : Documents}
    (h : parseDocuments text = .ok documents) : ByKind documents := by
  apply ByKind.addAll _ h
  exact ⟨by simp, by simp, by simp⟩

/-! ## Closed mappings -/

structure Accepted (text : Text) (documents : Documents) : Prop where
  parsed : parseDocuments text = .ok documents
  closed : documentErrors documents = []
  init : initErrors documents = []
  cluster : clusterErrors documents = []
  kubelet : kubeletErrors documents = []
  proxy : proxyErrors documents = some []

theorem accepted_of_validate [Regex.Characters] {text : Text} (h : validate text = some []) :
    ∃ documents, Accepted text documents := by
  unfold validate at h
  split at h
  · next message =>
    have hlength := congrArg List.length (Option.some.inj h)
    rw [List.length_append] at hlength
    cases hlength
  · cases h
  · next documents hparsed =>
    obtain ⟨proxy, hproxy, h⟩ := Option.bind_eq_some_iff.mp h
    have hnil := List.flatten_eq_nil_iff.mp (Option.some.inj h)
    simp only [List.forall_mem_cons] at hnil
    obtain ⟨-, hdocuments, hinit, hcluster, hkubelet, rfl, -⟩ := hnil
    exact ⟨documents, hparsed, hdocuments, hinit, hcluster, hkubelet, hproxy⟩

theorem isScalar_of_requireScalar {mapping : Entries} {key expected label : String}
    (h : requireScalar mapping key expected label = []) :
    isScalar (mapping.lookup key.toList) expected.toList = true := by
  unfold requireScalar at h
  split at h
  · assumption
  · cases h

theorem keys_of_requireKeys {mapping : Entries} {expected : List String} {label : String}
    (h : requireKeys mapping expected label = []) :
    ∀ e ∈ mapping, e.1 ∈ expected.map String.toList := by
  unfold requireKeys at h
  dsimp only at h
  split at h
  · next hclosed =>
    have hnone := List.filter_eq_nil_iff.mp (List.length_eq_zero_iff.mp hclosed.2)
    intro e he
    simpa using hnone e he
  · cases h

def isMapping : Option Value → Bool
  | some (.mapping _) => true
  | _ => false

theorem isMapping_of_isScalar {value : Option Value} {s : Text} (h : isScalar value s = true) :
    isMapping value = false := by
  unfold isScalar at h
  split at h
  · rfl
  · cases h

theorem isMapping_of_scalar? {value : Option Value} {s : Text} (h : scalar? value = some s) :
    isMapping value = false := by
  unfold scalar? at h
  split at h
  · rfl
  · cases h

/-- The mappings one level further in, with the keys to which they are held -/
def innerMappings : List (String × String × List String) :=
  [("InitConfiguration", "nodeRegistration",
      ["criSocket", "imagePullPolicy", "imagePullSerial", "name", "taints", "kubeletExtraArgs"]),
    ("InitConfiguration", "localAPIEndpoint", ["advertiseAddress", "bindPort"]),
    ("ClusterConfiguration", "networking", ["dnsDomain", "podSubnet", "serviceSubnet"]),
    ("ClusterConfiguration", "etcd", ["local"]),
    ("ClusterConfiguration", "apiServer", ["certSANs", "extraArgs", "extraVolumes"]),
    ("KubeletConfiguration", "authentication", ["anonymous", "webhook"]),
    ("KubeletConfiguration", "authorization", ["mode"])]

/-- What a text holds at a field of a mapping in a document -/
def heldAt (documents : Documents) (kind key field : String) : Option Value :=
  (asMapping ((document documents kind).lookup key.toList)).lookup field.toList

namespace Accepted

variable {text : Text} {documents : Documents}

/-- The parts of the list of messages that an accepted text leaves empty -/
theorem parts (h : Accepted text documents) : (∀ d ∈ documents,
    d.1 ∈ expectedDocuments.map (·.kind.toList)) ∧ ∀ e ∈ expectedDocuments,
      requireKeys (document documents e.kind) e.keys e.kind = [] ∧
        isScalar ((document documents e.kind).lookup "apiVersion".toList) e.apiVersion.toList = true := by
  have hdocuments := h.closed
  unfold documentErrors at hdocuments
  obtain ⟨hkinds, hrows⟩ := List.append_eq_nil_iff.mp hdocuments
  constructor
  · split at hkinds
    · next hclosed =>
      have hnone := List.filter_eq_nil_iff.mp (List.length_eq_zero_iff.mp hclosed.2)
      intro d hd
      simpa using hnone d hd
    · cases hkinds
  · intro e he
    obtain ⟨hkeys, hversion⟩ := List.append_eq_nil_iff.mp (List.flatMap_eq_nil_iff.mp hrows e he)
    refine ⟨hkeys, ?_⟩
    split at hversion
    · assumption
    · cases hversion

theorem innerKeys (h : Accepted text documents) : ∀ row ∈ innerMappings,
    ∀ e ∈ asMapping ((document documents row.1).lookup row.2.1.toList),
      e.1 ∈ row.2.2.map String.toList := by
  have hinit := List.flatten_eq_nil_iff.mp h.init
  have hcluster := List.flatten_eq_nil_iff.mp h.cluster
  have hkubelet := List.flatten_eq_nil_iff.mp h.kubelet
  simp only [List.forall_mem_cons] at hinit hcluster hkubelet
  obtain ⟨hnode, -, -, -, -, -, hendpoint, -⟩ := hinit
  obtain ⟨-, -, -, -, -, hnetworking, -, -, -, -, -, hetcd, -, -, -, -, hserver, -⟩ := hcluster
  obtain ⟨-, hauthentication, -, -, -, -, hauthorization, -⟩ := hkubelet
  unfold innerMappings
  simp only [List.forall_mem_cons]
  exact ⟨keys_of_requireKeys hnode, keys_of_requireKeys hendpoint, keys_of_requireKeys hnetworking,
    keys_of_requireKeys hetcd, keys_of_requireKeys hserver, keys_of_requireKeys hauthentication,
    keys_of_requireKeys hauthorization, by simp⟩

/-- A value that is asked for as a scalar is no mapping. -/
theorem not_mapping {p : Prop} {value : Option Value} (h : isMapping value = true)
    (hno : isMapping value = false) : p := by
  rw [h] at hno
  cases hno

/-- One of the listed inner mappings -/
def IsInner (kind key : String) : Prop :=
  key = "kind" ∨ ∃ row ∈ innerMappings, row.1 = kind ∧ row.2.1 = key

theorem isInner_of_mem {kind key : String} {keys : List String}
    (h : (kind, key, keys) ∈ innerMappings) : IsInner kind key := .inr ⟨_, h, rfl, rfl⟩

theorem init_mapping
    (hversion : isMapping ((document documents "InitConfiguration").lookup "apiVersion".toList) = false) :
    ∀ key ∈ ["apiVersion", "kind", "localAPIEndpoint", "nodeRegistration"],
      isMapping ((document documents "InitConfiguration").lookup key.toList) = true →
        IsInner "InitConfiguration" key := by
  simp only [List.forall_mem_cons]
  exact ⟨fun hm => not_mapping hm hversion, fun _ => .inl rfl,
    fun _ => isInner_of_mem (.tail _ (.head _)), fun _ => isInner_of_mem (.head _), by simp⟩

theorem cluster_mapping (h : Accepted text documents)
    (hversion :
      isMapping ((document documents "ClusterConfiguration").lookup "apiVersion".toList) = false) :
    ∀ key ∈ ["apiVersion", "kind", "clusterName", "kubernetesVersion", "controlPlaneEndpoint",
        "imageRepository", "certificatesDir", "networking", "apiServer", "etcd"],
      isMapping ((document documents "ClusterConfiguration").lookup key.toList) = true →
        IsInner "ClusterConfiguration" key := by
  have hnil := List.flatten_eq_nil_iff.mp h.cluster
  simp only [List.forall_mem_cons] at hnil ⊢
  obtain ⟨hname, hkubernetes, himage, hcertificates, hcontrol, -⟩ := hnil
  have hendpoint : isMapping
      ((document documents "ClusterConfiguration").lookup "controlPlaneEndpoint".toList) = false := by
    split at hcontrol
    · next hsome =>
      obtain ⟨control, hcontrol⟩ := Option.isSome_iff_exists.mp hsome.1
      obtain ⟨endpoint, hscalar, -⟩ := Option.bind_eq_some_iff.mp hcontrol
      exact isMapping_of_scalar? hscalar
    · cases hcontrol
  have hscalar : ∀ {key expected label : String},
      requireScalar (document documents "ClusterConfiguration") key expected label = [] →
        isMapping ((document documents "ClusterConfiguration").lookup key.toList) = false :=
    fun hrequired => isMapping_of_isScalar (isScalar_of_requireScalar hrequired)
  exact ⟨fun hm => not_mapping hm hversion, fun _ => .inl rfl,
    fun hm => not_mapping hm (hscalar hname), fun hm => not_mapping hm (hscalar hkubernetes),
    fun hm => not_mapping hm hendpoint, fun hm => not_mapping hm (hscalar himage),
    fun hm => not_mapping hm (hscalar hcertificates),
    fun _ => isInner_of_mem (.tail _ (.tail _ (.head _))),
    fun _ => isInner_of_mem (.tail _ (.tail _ (.tail _ (.tail _ (.head _))))),
    fun _ => isInner_of_mem (.tail _ (.tail _ (.tail _ (.head _)))), by simp⟩

theorem kubelet_mapping (h : Accepted text documents)
    (hversion :
      isMapping ((document documents "KubeletConfiguration").lookup "apiVersion".toList) = false) :
    ∀ key ∈ ["apiVersion", "kind", "cgroupDriver", "failSwapOn", "failCgroupV1",
        "protectKernelDefaults", "readOnlyPort", "authentication", "authorization",
        "rotateCertificates", "seccompDefault", "serverTLSBootstrap", "enforceNodeAllocatable",
        "containerLogMaxFiles", "containerLogMaxSize"],
      isMapping ((document documents "KubeletConfiguration").lookup key.toList) = true →
        IsInner "KubeletConfiguration" key := by
  have hnil := List.flatten_eq_nil_iff.mp h.kubelet
  simp only [List.forall_mem_cons] at hnil
  obtain ⟨hscalars, -, -, -, -, -, -, -, hpods, -⟩ := hnil
  have hscalar := List.flatMap_eq_nil_iff.mp hscalars
  have hno : ∀ {key expected label : String},
      requireScalar (document documents "KubeletConfiguration") key expected label = [] →
        isMapping ((document documents "KubeletConfiguration").lookup key.toList) = false :=
    fun hrequired => isMapping_of_isScalar (isScalar_of_requireScalar hrequired)
  have hlist : isMapping
      ((document documents "KubeletConfiguration").lookup "enforceNodeAllocatable".toList) = false := by
    split at hpods
    · next hvalue => rw [hvalue]; rfl
    · cases hpods
  simp only [List.forall_mem_cons] at hscalar ⊢
  obtain ⟨hcgroup, hswap, hv1, hprotect, hport, hrotate, hseccomp, hbootstrap, hfiles, hsize, -⟩ := hscalar
  exact ⟨fun hm => not_mapping hm hversion, fun _ => .inl rfl, fun hm => not_mapping hm (hno hcgroup),
    fun hm => not_mapping hm (hno hswap), fun hm => not_mapping hm (hno hv1), fun hm => not_mapping hm (hno hprotect),
    fun hm => not_mapping hm (hno hport),
    fun _ => isInner_of_mem (.tail _ (.tail _ (.tail _ (.tail _ (.tail _ (.head _)))))),
    fun _ => isInner_of_mem (.tail _ (.tail _ (.tail _ (.tail _ (.tail _ (.tail _ (.head _))))))),
    fun hm => not_mapping hm (hno hrotate), fun hm => not_mapping hm (hno hseccomp),
    fun hm => not_mapping hm (hno hbootstrap), fun hm => not_mapping hm hlist,
    fun hm => not_mapping hm (hno hfiles), fun hm => not_mapping hm (hno hsize), by simp⟩

theorem proxy_mapping (h : Accepted text documents)
    (hversion :
      isMapping ((document documents "KubeProxyConfiguration").lookup "apiVersion".toList) = false) :
    ∀ key ∈ ["apiVersion", "kind", "mode", "clusterCIDR", "detectLocalMode"],
      isMapping ((document documents "KubeProxyConfiguration").lookup key.toList) = true →
        IsInner "KubeProxyConfiguration" key := by
  have hproxy := h.proxy
  unfold proxyErrors at hproxy
  dsimp only at hproxy
  split at hproxy
  · cases hproxy
  · have hnil := List.flatten_eq_nil_iff.mp (Option.some.inj hproxy)
    simp only [List.forall_mem_cons] at hnil ⊢
    obtain ⟨hmode, hdetect, hcidr, -⟩ := hnil
    have hmodeScalar :
        isMapping ((document documents "KubeProxyConfiguration").lookup "mode".toList) = false := by
      split at hmode
      · next hone =>
        rcases Bool.or_eq_true_iff.mp hone with hone | hone <;> exact isMapping_of_isScalar hone
      · cases hmode
    have hcidrScalar : isMapping
        ((document documents "KubeProxyConfiguration").lookup "clusterCIDR".toList) = false := by
      split at hcidr
      · next hany =>
        obtain ⟨pod, -, hpod⟩ := (Option.any_eq_true _ _).mp hany
        exact isMapping_of_isScalar hpod
      · cases hcidr
    exact ⟨fun hm => not_mapping hm hversion, fun _ => .inl rfl,
      fun hm => not_mapping hm hmodeScalar, fun hm => not_mapping hm hcidrScalar,
      fun hm => not_mapping hm (isMapping_of_isScalar (isScalar_of_requireScalar hdetect)), by simp⟩

/-- Every other value of a document is a scalar or a list. -/
theorem isInner_of_isMapping (h : Accepted text documents) {e : ExpectedDocument}
    (he : e ∈ expectedDocuments) {key : String} (hkey : key ∈ e.keys)
    (hmapping : isMapping ((document documents e.kind).lookup key.toList) = true) :
    IsInner e.kind key := by
  have hversion := isMapping_of_isScalar (h.parts.2 e he).2
  unfold expectedDocuments at he
  simp only [List.mem_cons, List.not_mem_nil, or_false] at he
  rcases he with rfl | rfl | rfl | rfl
  · exact init_mapping hversion key hkey hmapping
  · exact h.cluster_mapping hversion key hkey hmapping
  · exact h.kubelet_mapping hversion key hkey hmapping
  · exact h.proxy_mapping hversion key hkey hmapping

/-- A document is of an expected kind. -/
theorem expected (h : Accepted text documents) {kind : Text} {value : Value}
    (hd : (kind, value) ∈ documents) : ∃ e ∈ expectedDocuments, e.kind.toList = kind := by
  obtain ⟨e, he, hkind⟩ := List.mem_map.mp (h.parts.1 _ hd)
  exact ⟨e, he, hkind⟩

theorem document_eq (h : Accepted text documents) {kind : String} {entries : Entries}
    (hd : (kind.toList, .mapping entries) ∈ documents) : document documents kind = entries := by
  have hlookup := (Indented.lookup_eq_some (byKind_of_parseDocuments h.parsed).nodup).mpr hd
  rw [document, hlookup, asMapping]

/-- The keys at the margin are the reviewed ones. -/
theorem key_mem (h : Accepted text documents) {kind : Text} {entries : Entries}
    (hd : (kind, .mapping entries) ∈ documents) {e : Text × Value} (he : e ∈ entries) :
    ∃ expected ∈ expectedDocuments, ∃ key ∈ expected.keys, e.1 = key.toList := by
  obtain ⟨expected, hexpected, rfl⟩ := h.expected hd
  have hkeys := keys_of_requireKeys (h.parts.2 expected hexpected).1
  rw [h.document_eq hd] at hkeys
  obtain ⟨key, hkey, heq⟩ := List.mem_map.mp (hkeys e he)
  exact ⟨expected, hexpected, key, hkey, heq.symm⟩

/-- A mapping one level further in is one of the reviewed ones, and what it has is held there. -/
theorem inner_mem (h : Accepted text documents) {kind key : Text} {entries inner : Entries}
    (hd : (kind, .mapping entries) ∈ documents) (hkey : (key, .mapping inner) ∈ entries) :
    ∃ row ∈ innerMappings, row.1.toList = kind ∧ ∀ field : String, ∀ value,
      (field.toList, value) ∈ inner →
        field ∈ row.2.2 ∧ heldAt documents row.1 row.2.1 field = some value := by
  obtain ⟨expected, hexpected, rfl⟩ := h.expected hd
  have hkeys := keys_of_requireKeys (h.parts.2 expected hexpected).1
  rw [h.document_eq hd] at hkeys
  obtain ⟨name, hname, rfl⟩ := List.mem_map.mp (hkeys _ hkey)
  have hbyKind := byKind_of_parseDocuments h.parsed
  obtain ⟨hnodup, hvalues⟩ : (entries.map Prod.fst).Nodup ∧ ∀ e ∈ entries, Distinct e.2 := by
    cases hbyKind.distinct _ hd with
    | mapping hnodup hvalues => exact ⟨hnodup, hvalues⟩
  have hlookup := (Indented.lookup_eq_some hnodup).mpr hkey
  have hmapping : isMapping ((document documents expected.kind).lookup name.toList) = true := by
    rw [h.document_eq hd, hlookup]
    rfl
  rcases h.isInner_of_isMapping hexpected hname hmapping with rfl | ⟨row, hrow, hkind, rfl⟩
  · have hscalar : entries.lookup "kind".toList = some (.scalar _) := hbyKind.kind _ hd
    rw [hlookup] at hscalar
    cases hscalar
  · refine ⟨row, hrow, by rw [hkind], fun field value hfield => ?_⟩
    have hinner : asMapping ((document documents row.1).lookup row.2.1.toList) = inner := by
      rw [hkind, h.document_eq hd, hlookup, asMapping]
    have hclosed := h.innerKeys row hrow
    rw [hinner] at hclosed
    constructor
    · obtain ⟨name, hmem, heq⟩ := List.mem_map.mp (hclosed _ hfield)
      rwa [← String.toList_inj.mp heq]
    · cases hvalues _ hkey with
      | mapping hinnerNodup _ =>
        rw [heldAt, hinner]
        exact (Indented.lookup_eq_some hinnerNodup).mpr hfield

end Accepted

end KubeadmConfig
