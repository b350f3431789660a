import Mathlib
import WebsiteInfrastructure.KubeadmConfig.Parser
import WebsiteInfrastructure.Library.Ipv4
import WebsiteInfrastructure.Library.RegexMatches

/-!
# The validator of the kubeadm configuration

`validate` of `validate_kubeadm_config.py`: the messages about a text, none for an accepted one. An
address or a network of version 6 is refused wherever one of version 4 must stand.
-/

namespace KubeadmConfig

open Ipv4 (Address Network)

/-! ## Constants -/

/-- `CRI_SOCKET` -/
def criSocket : String := "unix:///run/containerd/containerd.sock"

/-- `KUBERNETES_VERSION` -/
def kubernetesVersion : String := "v1.36.4"

/-- `IMAGE_REPOSITORY` -/
def imageRepository : String := "registry.k8s.io"

/-- `API_SERVER_ARGS` -/
def apiServerArgs : List (String × String) :=
  [("admission-control-config-file", "/etc/kubernetes/admission/psa.yaml"),
    ("audit-policy-file", "/etc/kubernetes/audit/audit-policy.yaml"),
    ("audit-log-path", "/var/log/kubernetes/audit/audit.log"),
    ("audit-log-maxage", "30"),
    ("audit-log-maxbackup", "10"),
    ("audit-log-maxsize", "100"),
    ("encryption-provider-config", "/etc/kubernetes/encryption/encryption-config.yaml"),
    ("encryption-provider-config-automatic-reload", "true"),
    ("service-account-extend-token-expiration", "false")]

def volume (path readOnly pathType : String) : List (String × String) :=
  [("hostPath", path), ("mountPath", path), ("readOnly", readOnly), ("pathType", pathType)]

/-- `API_SERVER_VOLUMES` -/
def apiServerVolumes : List (String × List (String × String)) :=
  [("psa-config", volume "/etc/kubernetes/admission/psa.yaml" "true" "File"),
    ("audit-policy", volume "/etc/kubernetes/audit/audit-policy.yaml" "true" "File"),
    ("audit-log", volume "/var/log/kubernetes/audit" "false" "DirectoryOrCreate"),
    ("encryption-config", volume "/etc/kubernetes/encryption/encryption-config.yaml" "true" "File")]

/-- `ETCD_ARGS` -/
def etcdArgs : List (String × String) :=
  [("auto-compaction-mode", "periodic"), ("auto-compaction-retention", "1h"),
    ("quota-backend-bytes", "8589934592")]

/-- A row of `DOCUMENT_KEYS` and `EXPECTED_DOCUMENTS` -/
structure ExpectedDocument where
  kind : String
  apiVersion : String
  keys : List String

def expectedDocuments : List ExpectedDocument :=
  [⟨"InitConfiguration", "kubeadm.k8s.io/v1beta4",
      ["apiVersion", "kind", "localAPIEndpoint", "nodeRegistration"]⟩,
    ⟨"ClusterConfiguration", "kubeadm.k8s.io/v1beta4",
      ["apiVersion", "kind", "clusterName", "kubernetesVersion", "controlPlaneEndpoint",
        "imageRepository", "certificatesDir", "networking", "apiServer", "etcd"]⟩,
    ⟨"KubeletConfiguration", "kubelet.config.k8s.io/v1beta1",
      ["apiVersion", "kind", "cgroupDriver", "failSwapOn", "failCgroupV1", "protectKernelDefaults",
        "readOnlyPort", "authentication", "authorization", "rotateCertificates", "seccompDefault",
        "serverTLSBootstrap", "enforceNodeAllocatable", "containerLogMaxFiles",
        "containerLogMaxSize"]⟩,
    ⟨"KubeProxyConfiguration", "kubeproxy.config.k8s.io/v1alpha1",
      ["apiVersion", "kind", "mode", "clusterCIDR", "detectLocalMode"]⟩]

/-- `RFC1918` -/
def rfc1918 : List Network := Ipv4.rfc1918

/-! ## Values -/

/-- `_mapping` -/
def asMapping : Option Value → Entries
  | some (.mapping entries) => entries
  | _ => []

/-- `value == "..."` -/
def isScalar (value : Option Value) (expected : Text) : Bool :=
  match value with
  | some (.scalar s) => s = expected
  | _ => false

def scalar? : Option Value → Option Text
  | some (.scalar s) => some s
  | _ => none

/-- `_private_ipv4` -/
def privateIpv4 (value : Text) : Option Address :=
  (Ipv4.addressOf value).filter fun a => rfc1918.any (·.contains a)

/-- `_private_network` -/
def privateNetwork (value : Text) : Option Network :=
  (Ipv4.networkOf value).filter fun n => rfc1918.any n.subnetOf

/-- A dict equals the expected one. -/
def hasFields {α β : Type} (equal : α → β → Bool) (entries : List (Text × α))
    (expected : List (String × β)) : Bool :=
  entries.length == expected.length &&
    expected.all fun e => (entries.lookup e.1.toList).any (equal · e.2)

/-! ## Messages -/

/-- `_require_scalar` -/
def requireScalar (mapping : Entries) (key expected label : String) : List String :=
  if isScalar (mapping.lookup key.toList) expected.toList then []
  else [s!"{label}.{key} must be {expected}"]

/-- `_require_keys` of a dict: nobody calls it with anything else. -/
def requireKeys (mapping : Entries) (expected : List String) (label : String) : List String :=
  let missing := expected.filter fun key => key.toList ∉ mapping.map Prod.fst
  let unexpected := mapping.filter fun e => e.1 ∉ expected.map String.toList
  if missing = [] ∧ unexpected.length = 0 then []
  else
    let detail :=
      (if missing = [] then []
        else ["missing " ++ ", ".intercalate (missing.mergeSort fun a b => a ≤ b)]) ++
      (if unexpected.length = 0 then [] else [s!"{unexpected.length} unexpected field(s)"])
    let details := "; ".intercalate detail
    [s!"{label} must contain exactly the reviewed fields ({details})"]

/-- The names so far, with the other entries of their items -/
abbrev Named := List (Text × Entries)

/-- One turn of the loop of `_named_list` -/
def addNamed (result : Named) (item : Entries) : Option Named :=
  match scalar? (item.lookup "name".toList) with
  | none => none
  | some name =>
    if name ∈ result.map Prod.fst then none
    else some (result ++ [(name, item.filter fun e => e.1 ≠ "name".toList)])

/-- `_named_list`, or a message -/
def namedList (value : Option Value) (label : String) : Except String Named :=
  let entries : Value → Option Entries
    | .mapping entries => some entries
    | _ => none
  match value with
  | some (.list items) =>
    match items.mapM entries with
    | none => .error s!"{label} must be a list of name/value mappings"
    | some mappings =>
      match mappings.foldlM addNamed [] with
      | none => .error s!"{label} contains a missing or duplicate name"
      | some result => .ok result
  | _ => .error s!"{label} must be a list of name/value mappings"

/-- `_flatten_named_values`, or a message -/
def flattenNamedValues (value : Option Value) (label : String) :
    Except String (List (Text × Text)) := do
  let named ← namedList value label
  let flatten : Text × Entries → Option (Text × Text)
    | (name, [(key, .scalar s)]) => if key = "value".toList then some (name, s) else none
    | _ => none
  match named.mapM flatten with
  | none => .error s!"{label} entries must contain exactly name and scalar value"
  | some flattened => .ok flattened

/-- The message of a failed reading, or that of a wrong value -/
def messages {α : Type} (read : Except String α) (right : α → Bool) (wrong : String) : List String :=
  match read with
  | .error message => [message]
  | .ok value => if right value then [] else [wrong]

/-- `[a-z0-9](?:[a-z0-9.-]{0,251}[a-z0-9])?` -/
def isDnsName (t : Text) : Bool :=
  let edge (c : Char) : Bool := c.isLower || c.isDigit
  t.length ≤ 253 && t.head?.any edge && t.getLast?.any edge &&
    t.all fun c => edge c || c = '.' || c = '-'

/-! ## The documents -/

section Documents

variable (documents : Documents)

def document (kind : String) : Entries := asMapping (documents.lookup kind.toList)

/-- What all documents are held to -/
def documentErrors : List String :=
  let missing := expectedDocuments.filter fun e => e.kind.toList ∉ documents.map Prod.fst
  let unexpected := documents.filter fun d => d.1 ∉ expectedDocuments.map (·.kind.toList)
  (if missing.length = 0 ∧ unexpected.length = 0 then []
    else
      let names := ", ".intercalate ((missing.map (·.kind)).mergeSort fun a b => a ≤ b)
      ["configuration must contain exactly the four reviewed document kinds" ++
        (if missing.length = 0 then "" else s!"; missing {names}") ++
        (if unexpected.length = 0 then ""
          else s!"; {unexpected.length} unexpected document kind(s)")]) ++
    expectedDocuments.flatMap fun e =>
      requireKeys (document documents e.kind) e.keys e.kind ++
        if isScalar ((document documents e.kind).lookup "apiVersion".toList) e.apiVersion.toList then []
        else [s!"{e.kind} apiVersion must be {e.apiVersion}"]

def nodeRegistration : Entries :=
  asMapping ((document documents "InitConfiguration").lookup "nodeRegistration".toList)

def localAPIEndpoint : Entries :=
  asMapping ((document documents "InitConfiguration").lookup "localAPIEndpoint".toList)

/-- The advertised address, if it is a private one -/
def advertised : Option Address :=
  (scalar? ((localAPIEndpoint documents).lookup "advertiseAddress".toList)).bind privateIpv4

def initErrors : List String :=
  let node := nodeRegistration documents
  let endpoint := localAPIEndpoint documents
  let advertise := advertised documents
  List.flatten
    [requireKeys node
        ["criSocket", "imagePullPolicy", "imagePullSerial", "name", "taints", "kubeletExtraArgs"]
        "nodeRegistration",
      requireScalar node "criSocket" criSocket "nodeRegistration",
      requireScalar node "imagePullPolicy" "IfNotPresent" "nodeRegistration",
      requireScalar node "imagePullSerial" "true" "nodeRegistration",
      (match node.lookup "taints".toList with
        | some (.list []) => []
        | _ => ["nodeRegistration.taints must be [] so the reviewed single node is schedulable"]),
      (if (scalar? (node.lookup "name".toList)).any isDnsName then []
        else ["nodeRegistration.name must be a normalized DNS name"]),
      requireKeys endpoint ["advertiseAddress", "bindPort"] "localAPIEndpoint",
      (if advertise.isSome then []
        else ["localAPIEndpoint.advertiseAddress must be one explicit RFC1918 IPv4 address"]),
      requireScalar endpoint "bindPort" "6443" "localAPIEndpoint",
      messages
        (flattenNamedValues (node.lookup "kubeletExtraArgs".toList) "nodeRegistration.kubeletExtraArgs")
        (fun args => advertise.any fun a => args = [("node-ip".toList, Ipv4.addressText a)])
        ("nodeRegistration.kubeletExtraArgs must contain only node-ip matching " ++
          "advertiseAddress")]

def networking : Entries :=
  asMapping ((document documents "ClusterConfiguration").lookup "networking".toList)

/-- A network of the cluster, if it is a private one -/
def clusterNetwork (key : String) : Option Network :=
  (scalar? ((networking documents).lookup key.toList)).bind privateNetwork

def etcd : Entries := asMapping ((document documents "ClusterConfiguration").lookup "etcd".toList)

def apiServer : Entries :=
  asMapping ((document documents "ClusterConfiguration").lookup "apiServer".toList)

/-- The address in front of `:6443` -/
def controlAddress (endpoint : Text) : Option Address :=
  let port := ":6443".toList
  let group := endpoint.take (endpoint.length - port.length)
  if endpoint = group ++ port ∧ group ≠ [] ∧ group.all fun c => c.isDigit || c = '.' then
    privateIpv4 group
  else none

def certSansErrors (certSans : Option Value) (advertise : Option Address) : List String :=
  match certSans with
  | some (.list [.scalar address, .scalar privateDns]) =>
    if (advertise.any fun a => address = Ipv4.addressText a) && isDnsName privateDns &&
        (privateIpv4 privateDns).isNone then []
    else
      ["apiServer.certSANs must contain exactly the advertise IP and one normalized private DNS name"]
  | _ => ["apiServer.certSANs must contain exactly the advertise IP and one private DNS name"]

def clusterErrors : List String :=
  let cluster := document documents "ClusterConfiguration"
  let advertise := advertised documents
  let network := networking documents
  let podNetwork := clusterNetwork documents "podSubnet"
  let serviceNetwork := clusterNetwork documents "serviceSubnet"
  let store := etcd documents
  let localEtcd := asMapping (store.lookup "local".toList)
  let server := apiServer documents
  let control := (scalar? (cluster.lookup "controlPlaneEndpoint".toList)).bind controlAddress
  List.flatten
    [requireScalar cluster "clusterName" "pi-production" "ClusterConfiguration",
      requireScalar cluster "kubernetesVersion" kubernetesVersion "ClusterConfiguration",
      requireScalar cluster "imageRepository" imageRepository "ClusterConfiguration",
      requireScalar cluster "certificatesDir" "/etc/kubernetes/pki" "ClusterConfiguration",
      (if control.isSome ∧ control = advertise then []
        else ["controlPlaneEndpoint must match the RFC1918 advertise address on port 6443"]),
      requireKeys network ["dnsDomain", "podSubnet", "serviceSubnet"] "networking",
      requireScalar network "dnsDomain" "cluster.local" "networking",
      (if podNetwork.isSome then []
        else ["networking.podSubnet must be one canonical RFC1918 IPv4 CIDR"]),
      (if serviceNetwork.isSome then []
        else ["networking.serviceSubnet must be one canonical RFC1918 IPv4 CIDR"]),
      (if podNetwork.any fun pod => serviceNetwork.any pod.overlaps then
          ["podSubnet and serviceSubnet must not overlap"]
        else []),
      (if advertise.any fun a => podNetwork.any (·.contains a) || serviceNetwork.any (·.contains a) then
          ["the API advertise address must not fall inside a pod or service CIDR"]
        else []),
      requireKeys store ["local"] "etcd",
      (if (store.map Prod.fst).all (· = "local".toList) ∧ store ≠ [] then []
        else ["etcd must use only the reviewed stacked local configuration"]),
      requireKeys localEtcd ["dataDir", "extraArgs"] "etcd.local",
      requireScalar localEtcd "dataDir" "/var/lib/etcd" "etcd.local",
      messages (flattenNamedValues (localEtcd.lookup "extraArgs".toList) "etcd.local.extraArgs")
        (hasFields (fun a b => a = b.toList) · etcdArgs)
        "etcd.local.extraArgs must exactly match the reviewed local maintenance settings",
      requireKeys server ["certSANs", "extraArgs", "extraVolumes"] "apiServer",
      certSansErrors (server.lookup "certSANs".toList) advertise,
      messages (flattenNamedValues (server.lookup "extraArgs".toList) "apiServer.extraArgs")
        (hasFields (fun a b => a = b.toList) · apiServerArgs)
        ("apiServer.extraArgs must exactly match the reviewed PSA, audit, encryption, " ++
          "and token flags"),
      messages (namedList (server.lookup "extraVolumes".toList) "apiServer.extraVolumes")
        (hasFields (hasFields fun value expected => isScalar (some value) expected.toList) ·
          apiServerVolumes)
        ("apiServer.extraVolumes must exactly match the reviewed read-only configs and " ++
          "writable audit log")]

def kubeletErrors : List String :=
  let kubelet := document documents "KubeletConfiguration"
  let authentication := asMapping (kubelet.lookup "authentication".toList)
  let anonymous := asMapping (authentication.lookup "anonymous".toList)
  let webhook := asMapping (authentication.lookup "webhook".toList)
  let authorization := asMapping (kubelet.lookup "authorization".toList)
  List.flatten
    [[("cgroupDriver", "systemd"), ("failSwapOn", "true"), ("failCgroupV1", "true"),
        ("protectKernelDefaults", "true"), ("readOnlyPort", "0"), ("rotateCertificates", "true"),
        ("seccompDefault", "true"), ("serverTLSBootstrap", "false"), ("containerLogMaxFiles", "5"),
        ("containerLogMaxSize", "10Mi")].flatMap fun (key, expected) =>
          requireScalar kubelet key expected "KubeletConfiguration",
      requireKeys authentication ["anonymous", "webhook"] "authentication",
      requireKeys anonymous ["enabled"] "authentication.anonymous",
      requireKeys webhook ["enabled"] "authentication.webhook",
      requireScalar anonymous "enabled" "false" "authentication.anonymous",
      requireScalar webhook "enabled" "true" "authentication.webhook",
      requireKeys authorization ["mode"] "authorization",
      requireScalar authorization "mode" "Webhook" "authorization",
      (match kubelet.lookup "enforceNodeAllocatable".toList with
        | some (.list [.scalar item]) =>
          if item = "pods".toList then []
          else ["KubeletConfiguration.enforceNodeAllocatable must be exactly [pods]"]
        | _ => ["KubeletConfiguration.enforceNodeAllocatable must be exactly [pods]"])]

/-- A mode that is a list or a mapping cannot be looked up in a set: a `TypeError`. -/
def proxyErrors : Option (List String) :=
  let proxy := document documents "KubeProxyConfiguration"
  let mode := proxy.lookup "mode".toList
  let unhashable := mode.isSome && (scalar? mode).isNone
  if unhashable then none
  else
    some (List.flatten
      [if isScalar mode "iptables".toList || isScalar mode "nftables".toList then []
        else ["KubeProxyConfiguration.mode must be explicitly iptables or nftables"],
        requireScalar proxy "detectLocalMode" "ClusterCIDR" "KubeProxyConfiguration",
        if (clusterNetwork documents "podSubnet").any fun pod =>
            isScalar (proxy.lookup "clusterCIDR".toList) (Ipv4.networkText pod) then []
        else ["KubeProxyConfiguration.clusterCIDR must exactly match networking.podSubnet"]])

end Documents

/-! ## The text -/

section Texts

open Regex Pattern

variable [Characters]

/-- `(?:REPLACE_|UNRESOLVED)` -/
def sentinelPattern : Pattern := alt (litFolded "REPLACE_") (litFolded "UNRESOLVED")

/-- `^\s*(?:ignorePreflightErrors|skipPhases)\s*:` -/
def skippedPattern : Pattern :=
  all [bol, spaces, alt (lit "ignorePreflightErrors") (lit "skipPhases"), spaces, lit ":"]

def textErrors (text : Text) : List String :=
  (if sentinelPattern.found text then ["replacement sentinel remains"] else []) ++
    if skippedPattern.found text then
      ["ignored preflight errors and skipped phases are forbidden"]
    else []

/-- `validate`: the messages, or nothing where it raises -/
def validate (text : Text) : Option (List String) :=
  match parseDocuments text with
  | .error (.configSyntax message) => some (textErrors text ++ [message])
  | .error .calls => none
  | .ok documents => do
    let proxy ← proxyErrors documents
    some (List.flatten [textErrors text, documentErrors documents, initErrors documents,
      clusterErrors documents, kubeletErrors documents, proxy])

end Texts

end KubeadmConfig
