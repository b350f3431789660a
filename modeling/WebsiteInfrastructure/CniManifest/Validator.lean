import Mathlib
import WebsiteInfrastructure.CniManifest.Text
import WebsiteInfrastructure.Library.Ipv4
import WebsiteInfrastructure.Library.RegexMatches
import WebsiteInfrastructure.Library.Sha256
import WebsiteInfrastructure.ProtectedHost.MountInfo

/-!
# The CNI manifest gate

`validate` of `validate_cni_manifest.py`, with its tables of reviewed resources.
-/

namespace CniManifest

open PythonText Regex Regex.Pattern ProtectedHost

/-- Text for `format`. -/
def shown (value : Option Text) : String := value.elim "None" String.ofList

/-! ## Reviewed resources -/

structure Identity where
  apiVersion : Text
  kind : Text
  «namespace» : Option Text
  name : Text
  deriving DecidableEq

/-- `_namespaced_id` -/
def namespacedId (apiVersion kind name : String) : Identity :=
  ⟨apiVersion.toList, kind.toList, some "kube-system".toList, name.toList⟩

/-- `_cluster_id` -/
def clusterId (apiVersion kind name : String) : Identity :=
  ⟨apiVersion.toList, kind.toList, none, name.toList⟩

def ciliumCrds : List String := [
  "ciliumbgpadvertisements.cilium.io",
  "ciliumbgpclusterconfigs.cilium.io",
  "ciliumbgpnodeconfigoverrides.cilium.io",
  "ciliumbgpnodeconfigs.cilium.io",
  "ciliumbgppeerconfigs.cilium.io",
  "ciliumcidrgroups.cilium.io",
  "ciliumclusterwideenvoyconfigs.cilium.io",
  "ciliumclusterwidenetworkpolicies.cilium.io",
  "ciliumdatapathplugins.cilium.io",
  "ciliumegressgatewaypolicies.cilium.io",
  "ciliumendpoints.cilium.io",
  "ciliumendpointslices.cilium.io",
  "ciliumenvoyconfigs.cilium.io",
  "ciliumgatewayclassconfigs.cilium.io",
  "ciliumidentities.cilium.io",
  "ciliuml2announcementpolicies.cilium.io",
  "ciliumloadbalancerippools.cilium.io",
  "ciliumlocalredirectpolicies.cilium.io",
  "ciliumnetworkpolicies.cilium.io",
  "ciliumnodeconfigs.cilium.io",
  "ciliumnodes.cilium.io",
  "ciliumpodippools.cilium.io"]

def calicoCrds : List String := [
  "bgpconfigurations.crd.projectcalico.org",
  "bgpfilters.crd.projectcalico.org",
  "bgppeers.crd.projectcalico.org",
  "blockaffinities.crd.projectcalico.org",
  "caliconodestatuses.crd.projectcalico.org",
  "clusterinformations.crd.projectcalico.org",
  "clusternetworkpolicies.policy.networking.k8s.io",
  "felixconfigurations.crd.projectcalico.org",
  "globalnetworkpolicies.crd.projectcalico.org",
  "globalnetworksets.crd.projectcalico.org",
  "hostendpoints.crd.projectcalico.org",
  "ipamblocks.crd.projectcalico.org",
  "ipamconfigs.crd.projectcalico.org",
  "ipamhandles.crd.projectcalico.org",
  "ippools.crd.projectcalico.org",
  "ipreservations.crd.projectcalico.org",
  "kubecontrollersconfigurations.crd.projectcalico.org",
  "networkpolicies.crd.projectcalico.org",
  "networksets.crd.projectcalico.org",
  "stagedglobalnetworkpolicies.crd.projectcalico.org",
  "stagedkubernetesnetworkpolicies.crd.projectcalico.org",
  "stagednetworkpolicies.crd.projectcalico.org",
  "tiers.crd.projectcalico.org"]

def rbacApi : String := "rbac.authorization.k8s.io/v1"

def crdIdentity (name : String) : Identity :=
  clusterId "apiextensions.k8s.io/v1" "CustomResourceDefinition" name

def ciliumContract : List Identity := [
  namespacedId "v1" "ConfigMap" "cilium-config",
  namespacedId "v1" "ServiceAccount" "cilium",
  namespacedId "v1" "ServiceAccount" "cilium-operator",
  namespacedId "apps/v1" "DaemonSet" "cilium",
  namespacedId "apps/v1" "Deployment" "cilium-operator",
  namespacedId "policy/v1" "PodDisruptionBudget" "cilium-operator",
  namespacedId rbacApi "Role" "cilium-config-agent",
  namespacedId rbacApi "RoleBinding" "cilium-config-agent",
  clusterId rbacApi "ClusterRole" "cilium",
  clusterId rbacApi "ClusterRole" "cilium-operator",
  clusterId rbacApi "ClusterRoleBinding" "cilium",
  clusterId rbacApi "ClusterRoleBinding" "cilium-operator"] ++ ciliumCrds.map crdIdentity

def calicoContract : List Identity := [
  namespacedId "v1" "ConfigMap" "calico-config",
  namespacedId "v1" "ServiceAccount" "calico-cni-plugin",
  namespacedId "v1" "ServiceAccount" "calico-kube-controllers",
  namespacedId "v1" "ServiceAccount" "calico-node",
  namespacedId "apps/v1" "DaemonSet" "calico-node",
  namespacedId "apps/v1" "Deployment" "calico-kube-controllers",
  namespacedId "policy/v1" "PodDisruptionBudget" "calico-kube-controllers",
  clusterId rbacApi "ClusterRole" "calico-cni-plugin",
  clusterId rbacApi "ClusterRole" "calico-kube-controllers",
  clusterId rbacApi "ClusterRole" "calico-node",
  clusterId rbacApi "ClusterRole" "calico-tier-getter",
  clusterId rbacApi "ClusterRoleBinding" "calico-cni-plugin",
  clusterId rbacApi "ClusterRoleBinding" "calico-kube-controllers",
  clusterId rbacApi "ClusterRoleBinding" "calico-node",
  clusterId rbacApi "ClusterRoleBinding" "calico-tier-getter"] ++ calicoCrds.map crdIdentity

def cilium : Text := spelled "cilium" rfl

def calico : Text := spelled "calico" rfl

/-- `RESOURCE_CONTRACTS.get(provider)` -/
def resourceContract (provider : Option Text) : Option (List Identity) :=
  if provider = some cilium then some ciliumContract
  else if provider = some calico then some calicoContract
  else none

structure Resource where
  apiVersion : Option Text
  kind : Option Text
  name : Option Text
  «namespace» : Option Text
  document : Text
  index : ℕ

/-- `_metadata` -/
def metadata (document : Text) : Mapping := directMapping document (spelled "metadata" rfl)

/-- One turn of the loop of `_resource_index`. -/
def resourceOf (document : Text) (index : ℕ) : Resource where
  apiVersion := topScalar document (spelled "apiVersion" rfl)
  kind := topScalar document (spelled "kind" rfl)
  name := (metadata document).get? (spelled "name" rfl)
  «namespace» := (metadata document).get? (spelled "namespace" rfl)
  document := document
  index := index

/-- `_resource_index` -/
def resourceIndex (manifest : Text) : List Resource :=
  ((documents manifest).zipIdx 1).map fun d => resourceOf d.1 d.2

def resourceIndexErrors (manifest : Text) : List String :=
  (documents manifest).flatMap fun d =>
    topScalarErrors d (spelled "apiVersion" rfl) ++ topScalarErrors d (spelled "kind" rfl) ++
      (metadata d).errors

def Resource.identity (r : Resource) : Option Identity :=
  r.apiVersion.bind fun apiVersion => r.kind.bind fun kind => r.name.map fun name =>
    ⟨apiVersion, kind, r.namespace, name⟩

/-- The loop of `_validate_resource_contract`; `seen` are the identities so far. -/
def contractErrors (contract : List Identity) (provider : Option Text) :
    List Identity → List Resource → List String
  | _, [] => []
  | seen, r :: rs =>
    match r.identity with
    | none =>
      s!"CNI document {r.index} must define scalar apiVersion, kind, and metadata.name" ::
        contractErrors contract provider seen rs
    | some id =>
      if id ∉ contract then
        let scope := (id.namespace.filter (· ≠ [])).elim "<cluster>" String.ofList
        s!"{String.ofList id.apiVersion}/{String.ofList id.kind}/{scope}/{String.ofList id.name} is outside the strict {shown provider} raw-manifest resource contract" ::
          contractErrors contract provider seen rs
      else
        (if id ∈ seen then
          [s!"{String.ofList id.kind}/{String.ofList id.name} resource identity occurs more than once"]
        else []) ++ contractErrors contract provider (id :: seen) rs

/-- `_validate_resource_contract` -/
def validateResourceContract (resources : List Resource) (provider : Option Text) : List String :=
  match resourceContract provider with
  | none => []
  | some contract => contractErrors contract provider [] resources

/-- `_resource` -/
def resource (resources : List Resource) (kind name : Text) : Option Resource :=
  match resources.filter fun r => r.kind = some kind && r.name = some name with
  | [r] => some r
  | _ => none

def resourceErrors (resources : List Resource) (kind name : Text) : List String :=
  match resource resources kind name with
  | none =>
    [s!"manifest must contain exactly one {String.ofList kind}/{String.ofList name} resource"]
  | some r =>
    if r.namespace ≠ some (spelled "kube-system" rfl) then
      [s!"{String.ofList kind}/{String.ofList name} must explicitly use namespace kube-system"]
    else []

/-! ## Decisions -/

section Patterns

variable [Characters]

/-- `[A-Za-z0-9]` and what it takes under `(?i)` -/
def isFoldedAlphanum (c : Char) : Bool :=
  c.isDigit || (spelled "ABCDEFGHIJKLMNOPQRSTUVWXYZ" rfl).any fun a => Characters.folds a c

/-- `SENTINEL` -/
def sentinel : Pattern :=
  alt (alt (alt (litFolded "REPLACE_") (litFolded "UNRESOLVED"))
    (all [lit "_", plus (lit "_"), char isFoldedAlphanum,
      star (char fun c => isFoldedAlphanum c || c = '_'), lit "_", plus (lit "_")]))
    (all [plus (lit "<"), litFolded "REPLACE", star (char (· ≠ '>')), plus (lit ">")])

end Patterns

abbrev Decisions := List (Text × Text)

/-- `DECISION_LINE.fullmatch(line)` -/
def decisionOf (line : Text) : Option (Text × Text) :=
  let isKeyChar (c : Char) : Bool := c.isUpper || c.isDigit || c = '_'
  match line.takeWhile isKeyChar, line.dropWhile isKeyChar with
  | key, '=' :: value =>
    if key.head?.any Char.isUpper ∧ value ≠ [] ∧
        value.all fun c => !isSpace c && c ≠ '#' && c ≠ '=' then
      some (key, value)
    else none
  | _, _ => none

/-- The decisions so far, and the errors met on the way to them. -/
structure DecisionState where
  decisions : Decisions
  errors : List String

/-- One turn of the loop of `_parse_decisions`. -/
def DecisionState.addLine (s : DecisionState) (line : Text × ℕ) : DecisionState :=
  if line.1 = [] ∨ line.1.head? = some '#' then s
  else match decisionOf line.1 with
    | none => { s with errors := s.errors ++ [s!"decisions contain a malformed line at {line.2}"] }
    | some (key, value) =>
      if (s.decisions.lookup key).isSome then
        { s with errors := s.errors ++ [s!"decision {String.ofList key} occurs more than once"] }
      else { s with decisions := s.decisions ++ [(key, value)] }

/-- `REQUIRED_DECISIONS`, sorted -/
def requiredDecisions : List Text := [
  spelled "CNI_DATAPLANE" rfl, spelled "CNI_HOST_NETWORK_REQUIREMENTS" rfl,
  spelled "CNI_MANIFEST_SHA256" rfl, spelled "CNI_MTU" rfl,
  spelled "CNI_NETWORK_POLICY_PROVEN" rfl, spelled "CNI_PROVIDER" rfl,
  spelled "CNI_TUNNEL_MODE" rfl, spelled "CNI_VERSION" rfl,
  spelled "KUBE_PROXY_OPERATION" rfl, spelled "POD_CIDR" rfl]

/-- The decisions of a text, without the sentinel and without the missing ones. -/
def readDecisions (text : Text) : DecisionState :=
  ((splitlines text).zipIdx 1).foldl DecisionState.addLine ⟨[], []⟩

/-- The value of `_parse_decisions` -/
def parseDecisions (text : Text) : Decisions := (readDecisions text).decisions

section Decisions

variable [Characters]

/-- The errors of `_parse_decisions` -/
def parseDecisionsErrors (text : Text) : List String :=
  let missing := requiredDecisions.filter fun key => ((parseDecisions text).lookup key).isNone
  (if sentinel.found text then ["decisions contain an unresolved replacement sentinel"] else []) ++
    (readDecisions text).errors ++
    if missing ≠ [] then
      ["decisions are missing required CNI fields: " ++
        ", ".intercalate (missing.map String.ofList)]
    else []

end Decisions

def podCidr (d : Decisions) : Option Text := d.lookup (spelled "POD_CIDR" rfl)

def cniProvider (d : Decisions) : Option Text := d.lookup (spelled "CNI_PROVIDER" rfl)

def cniTunnel (d : Decisions) : Option Text := d.lookup (spelled "CNI_TUNNEL_MODE" rfl)

def cniVersion (d : Decisions) : Text := (d.lookup (spelled "CNI_VERSION" rfl)).getD []

def cniMtu (d : Decisions) : Option Text := d.lookup (spelled "CNI_MTU" rfl)

/-- `HOST_REQUIREMENTS` -/
def hostRequirements : List ((Text × Text) × Text) := [
  ((cilium, spelled "vxlan" rfl), spelled "udp:8472" rfl),
  ((cilium, spelled "geneve" rfl), spelled "udp:6081" rfl),
  ((cilium, spelled "native" rfl), spelled "none" rfl),
  ((calico, spelled "vxlan" rfl), spelled "udp:4789" rfl),
  ((calico, spelled "ipip" rfl), spelled "ip-proto:4" rfl),
  ((calico, spelled "bgp" rfl), spelled "tcp:179" rfl)]

/-- `HOST_REQUIREMENTS.get((provider, tunnel))` -/
def hostRequirement (provider tunnel : Option Text) : Option Text :=
  provider.bind fun provider => tunnel.bind fun tunnel => hostRequirements.lookup (provider, tunnel)

/-- `SEMVER.fullmatch(version)` -/
def isSemver (version : Text) : Bool :=
  match (if version.head? = some 'v' then version.drop 1 else version).splitOn '.' with
  | [major, minor, patch] => [major, minor, patch].all fun part => part ≠ [] && part.all Char.isDigit
  | _ => false

/-- `RFC1918` -/
def rfc1918 : List Ipv4.Network := Ipv4.rfc1918

def isPrivateCidr (text : Text) : Bool :=
  (Ipv4.networkOf text).any fun cidr => rfc1918.any fun n => cidr.subnetOf n

/-- An error where a condition fails. -/
def errorUnless (condition : Bool) (error : String) : List String := if condition then [] else [error]

/-- `not mtu.isdigit() or not 576 <= int(mtu) <= 9000`, unless `int` raises -/
def isForeignMtu [UnicodeDigits] (mtu : Text) : Option Bool :=
  if isDigits mtu then (intOf mtu).map fun n => !(576 ≤ n && n ≤ 9000) else some true

/-- `_validate_decision_contract`; `none` where `int` raises `ValueError`. -/
def validateDecisionContract [UnicodeDigits] (d : Decisions) : Option (List String) :=
  (isForeignMtu ((cniMtu d).getD [])).map fun foreignMtu =>
    let provider := cniProvider d
    let tunnel := cniTunnel d
    errorUnless (provider = some cilium || provider = some calico)
        "CNI_PROVIDER must be exactly cilium or calico" ++
      errorUnless (isSemver (cniVersion d)) "CNI_VERSION must be one exact semantic-version token" ++
      errorUnless (d.lookup (spelled "KUBE_PROXY_OPERATION" rfl) = some (spelled "installed" rfl))
        "KUBE_PROXY_OPERATION must be installed" ++
      errorUnless (d.lookup (spelled "CNI_DATAPLANE" rfl) = some (spelled "kube-proxy" rfl))
        "CNI_DATAPLANE must be kube-proxy; replacement is forbidden" ++
      (match hostRequirement provider tunnel with
      | none => ["CNI provider/tunnel pair is outside the reviewed matrix"]
      | some expected =>
        errorUnless (d.lookup (spelled "CNI_HOST_NETWORK_REQUIREMENTS" rfl) = some expected)
          s!"CNI_HOST_NETWORK_REQUIREMENTS must be {String.ofList expected} for {shown provider}/{shown tunnel}") ++
      errorUnless (!foreignMtu) "CNI_MTU must be an integer from 576 through 9000" ++
      errorUnless (d.lookup (spelled "CNI_NETWORK_POLICY_PROVEN" rfl) = some (spelled "yes" rfl))
        "CNI_NETWORK_POLICY_PROVEN must be yes" ++
      errorUnless (isPrivateCidr ((podCidr d).getD []))
        "POD_CIDR must be one canonical RFC1918 IPv4 network"

/-! ## Images -/

/-- `[a-z0-9]+(?:[._-][a-z0-9]+)*` -/
def pathPart : Pattern :=
  let lower : Pattern := plus (char fun c => c.isLower || c.isDigit)
  seq lower (star (seq (char fun c => c ∈ ['.', '_', '-']) lower))

/-- `[0-9a-f]` -/
def isHexDigit (c : Char) : Bool := c.isDigit || 'a' ≤ c && c ≤ 'f'

def repositoryPart : Pattern :=
  group "repository" (all [pathPart, opt (seq (lit ":") (plus (char Char.isDigit))),
    plus (seq (lit "/") pathPart)])

/-- `r{0,n}` -/
def atMost (r : Pattern) : ℕ → Pattern
  | 0 => eps
  | n + 1 => opt (seq r (atMost r n))

def tagPart : Pattern :=
  opt (seq (lit ":") (group "tag" (seq (char Char.isAlphanum) (atMost (char isNameChar) 127))))

def digestPart : Pattern := group "digest" ((char isHexDigit).times 64 0)

/-- `IMAGE` -/
def image : Pattern := all [repositoryPart, tagPart, lit "@sha256:", digestPart]

/-- `IMAGE.fullmatch(value)`, by its groups -/
def imageGroups (value : Text) : Option (List (String × Text)) :=
  ((image.ends (.ofText value)).find? fun d => d.rest.isEmpty).map Cursor.groups

/-- `(?:\{|,)\s*image\s*:` -/
def flowImage : Pattern :=
  all [char fun c => c = '\x7b' || c = ',', spaces, lit "image", spaces, lit ":"]

/-- The errors of `_image_records` -/
def imageRecordsErrors (manifest : Text) : List String :=
  tabErrors manifest ++
    errorUnless (!(cleanLines manifest).any fun l => opensInlineImage l.content)
      "container image fields must not use inline list-item YAML" ++
    errorUnless (!flowImage.found manifest) "container image fields must not use flow-style YAML" ++
    (imageRecords manifest).flatMap Record.errors

/-- The name of the DaemonSet of a provider. -/
def daemonName (provider : Option Text) : Text :=
  if provider = some cilium then cilium else spelled "calico-node" rfl

/-- What `_validate_images` says of the images of the DaemonSet. -/
def coreImageErrors (daemon : Resource) (provider : Option Text) (version : Text) : List String :=
  let key := spelled "image" rfl
  let suffix := if provider = some cilium then spelled "/cilium" rfl else spelled "/node" rfl
  let core := ((lineScalars daemon.document key).filterMap imageGroups).filter fun groups =>
    suffix.isSuffixOf ((groups.lookup "repository").getD [])
  lineScalarsErrors daemon.document key ++
    if core = [] then
      [s!"DaemonSet/{String.ofList (daemonName provider)} contains no reviewed core {shown provider} image"]
    else errorUnless (core.all fun groups => groups.lookup "tag" = some version)
      s!"core {shown provider} image tag must exactly match CNI_VERSION {String.ofList version}"

/-- `_validate_images` -/
def validateImages (manifest : Text) (resources : List Resource) (provider : Option Text)
    (version : Text) : List String :=
  let records := imageRecords manifest
  let repositories := (records.filterMap fun r => imageGroups r.image).map fun groups =>
    (groups.lookup "repository").getD []
  let names (part : Text) : Bool := repositories.any fun name => part <:+: name
  imageRecordsErrors manifest ++
    if records = [] then ["manifest contains no container images"]
    else
      (records.flatMap fun r => errorUnless (imageGroups r.image).isSome
        s!"container image is not one immutable digest reference: {String.ofList r.image}") ++
      errorUnless (records.all fun r => r.policy = some (spelled "IfNotPresent" rfl))
        "every container image must explicitly use imagePullPolicy IfNotPresent" ++
      match resources.find? fun r =>
          r.kind = some (spelled "DaemonSet" rfl) && r.name = some (daemonName provider) with
      | none => []
      | some daemon =>
        coreImageErrors daemon provider version ++
          errorUnless (!(provider = some cilium &&
              (names (spelled "/calico/" rfl) || names (spelled "/tigera/" rfl))))
            "Cilium manifest contains an opposite-provider image" ++
          errorUnless (!(provider = some calico && names (spelled "/cilium/" rfl)))
            "Calico manifest contains an opposite-provider image"

/-! ## Providers -/

/-- `_require_mapping_value` -/
def requireMappingValue (m : Mapping) (label : String) (key : Text) (expected : Option Text) :
    List String :=
  errorUnless (m.get? key = expected)
    s!"{label}.{String.ofList key} must be exactly {shown expected}"

/-- `_validate_cilium` -/
def validateCilium (resources : List Resource) (d : Decisions) : List String :=
  let config := spelled "cilium-config" rfl
  let mismatch (data : Mapping) (key : Text) (value : Option Text) : List String :=
    requireMappingValue data "cilium-config.data" key value
  resourceErrors resources (spelled "DaemonSet" rfl) cilium ++
    resourceErrors resources (spelled "ConfigMap" rfl) config ++
    match resource resources (spelled "DaemonSet" rfl) cilium,
        resource resources (spelled "ConfigMap" rfl) config with
    | some _, some configResource =>
      let data := directMapping configResource.document (spelled "data" rfl)
      data.errors ++
        mismatch data (spelled "ipam" rfl) (some (spelled "cluster-pool" rfl)) ++
        mismatch data (spelled "cluster-pool-ipv4-cidr" rfl) (podCidr d) ++
        mismatch data (spelled "mtu" rfl) (cniMtu d) ++
        mismatch data (spelled "kube-proxy-replacement" rfl) (some (spelled "false" rfl)) ++
        mismatch data (spelled "enable-node-port" rfl) (some (spelled "false" rfl)) ++
        mismatch data (spelled "bpf-lb-sock" rfl) (some (spelled "false" rfl)) ++
        mismatch data (spelled "enable-policy" rfl) (some (spelled "default" rfl)) ++
        if cniTunnel d = some (spelled "vxlan" rfl) ∨ cniTunnel d = some (spelled "geneve" rfl) then
          mismatch data (spelled "routing-mode" rfl) (some (spelled "tunnel" rfl)) ++
            mismatch data (spelled "tunnel-protocol" rfl) (cniTunnel d) ++
            mismatch data (spelled "tunnel-port" rfl)
              (some (if cniTunnel d = some (spelled "vxlan" rfl) then spelled "8472" rfl
                else spelled "6081" rfl))
        else if cniTunnel d = some (spelled "native" rfl) then
          mismatch data (spelled "routing-mode" rfl) (some (spelled "native" rfl)) ++
            mismatch data (spelled "ipv4-native-routing-cidr" rfl) (podCidr d)
        else []
    | _, _ => []

/-- `_require_named_value`, for the items of the document of the DaemonSet -/
def requireNamedValue (document key : Text) (expected : Option Text) : List String :=
  errorUnless (namedOccurrences document key = 1 &&
      (namedScalarValues document key).map some = [expected])
    s!"calico-node env {String.ofList key} must occur once with value {shown expected}"

/-- The modes of `_validate_calico`: IP-in-IP and VXLAN -/
def calicoModes : List (Text × Text × Text) := [
  (spelled "vxlan" rfl, spelled "Never" rfl, spelled "Always" rfl),
  (spelled "ipip" rfl, spelled "Always" rfl, spelled "Never" rfl),
  (spelled "bgp" rfl, spelled "Never" rfl, spelled "Never" rfl)]

/-- `_validate_calico` -/
def validateCalico (resources : List Resource) (d : Decisions) : List String :=
  let node := spelled "calico-node" rfl
  let config := spelled "calico-config" rfl
  resourceErrors resources (spelled "DaemonSet" rfl) node ++
    resourceErrors resources (spelled "ConfigMap" rfl) config ++
    match resource resources (spelled "DaemonSet" rfl) node,
        resource resources (spelled "ConfigMap" rfl) config with
    | some daemon, some configResource =>
      let data := directMapping configResource.document (spelled "data" rfl)
      let vxlan := cniTunnel d = some (spelled "vxlan" rfl)
      data.errors ++
        requireMappingValue data "calico-config.data" (spelled "calico_backend" rfl)
          (some (if vxlan then spelled "vxlan" rfl else spelled "bird" rfl)) ++
        requireMappingValue data "calico-config.data" (spelled "veth_mtu" rfl) (cniMtu d) ++
        tabErrors daemon.document ++ tabErrors daemon.document ++
        requireNamedValue daemon.document (spelled "CALICO_IPV4POOL_CIDR" rfl) (podCidr d) ++
        requireNamedValue daemon.document (spelled "FELIX_BPFENABLED" rfl)
          (some (spelled "false" rfl)) ++
        (match (cniTunnel d).bind fun tunnel => calicoModes.lookup tunnel with
        | some (ipip, encapsulated) =>
          requireNamedValue daemon.document (spelled "CALICO_IPV4POOL_IPIP" rfl) (some ipip) ++
            requireNamedValue daemon.document (spelled "CALICO_IPV4POOL_VXLAN" rfl)
              (some encapsulated)
        | none => []) ++
        if vxlan then
          requireNamedValue daemon.document (spelled "FELIX_VXLANPORT" rfl)
            (some (spelled "4789" rfl))
        else []
    | _, _ => []

/-- `"\n".join(_without_comment(line) for line in manifest.splitlines())` -/
def cleanText (manifest : Text) : Text :=
  ['\n'].intercalate ((splitlines manifest).map withoutComment)

/-- `_reject_alternate_configuration_sources` -/
def rejectAlternateConfigurationSources (resources : List Resource) (provider : Option Text) :
    List String :=
  -- in the order of `sorted`
  let forbidden : List Text :=
    if provider = some cilium then [spelled "CiliumNodeConfig" rfl]
    else if provider = some calico then
      [spelled "BGPConfiguration" rfl, spelled "FelixConfiguration" rfl, spelled "IPPool" rfl,
        spelled "Installation" rfl]
    else []
  let found := forbidden.filter fun kind => resources.any fun r => r.kind = some kind
  errorUnless (found = []) ("manifest contains alternate provider configuration sources: " ++
    ", ".intercalate (found.map String.ofList))

section Rejections

variable [Characters]

/-- `^`, of the whole text -/
def textStart : Pattern := edge fun before _ => before.isNone

/-- `$` -/
def textEnd : Pattern := edge fun _ next => next.isNone

/-- `(?:^|[-.])name(?:[-.]|$)`; a name has no line feed. -/
def namePart (name : Pattern) : Pattern :=
  let separator : Pattern := char fun c => c = '-' || c = '.'
  all [alt textStart separator, name, alt separator textEnd]

/-- `opposite_name` -/
def oppositeName (provider : Option Text) : Pattern :=
  if provider = some cilium then namePart (alt (litFolded "calico") (litFolded "tigera"))
  else namePart (litFolded "cilium")

/-- `opposite_api`; a line feed is no letter, so that the last one of the text is no case apart. -/
def oppositeApi (provider : Option Text) : Pattern :=
  if provider = some cilium then
    alt (all [litFolded "projectcalico", lit ".", litFolded "org"])
      (all [litFolded "operator", lit ".", litFolded "tigera", lit ".", litFolded "io"])
  else
    let separator : Pattern := char fun c => !isFoldedAlphanum c
    all [alt textStart separator, litFolded "cilium", lit ".", litFolded "io",
      alt separator textEnd]

/-- `_reject_opposite_provider` -/
def rejectOppositeProvider (resources : List Resource) (provider : Option Text) (manifest : Text) :
    List String :=
  let names := (resources.filterMap Resource.name).filter (· ≠ [])
  errorUnless (!(names.any (oppositeName provider).found || (oppositeApi provider).found (cleanText manifest)))
    "manifest contains opposite-provider resource markers"

/-- `['\"]?` -/
def quotation : Pattern := opt (char fun c => c = '\'' || c = '"')

/-- `([^\s'\"]+)` -/
def argument : Pattern :=
  group "1" (plus (char fun c => !isSpace c && c ≠ '\'' && c ≠ '"'))

def replacementField : Pattern :=
  all [bol, spaces, alt (litFolded "kubeProxyReplacement") (litFolded "kube-proxy-replacement"),
    lit ":", spaces, quotation, argument]

def replacementArgument : Pattern :=
  all [litFolded "--kube-proxy-replacement", alt (lit "=") (plus space), argument]

def bpfField : Pattern :=
  all [bol, spaces, alt (alt (litFolded "bpfEnabled") (litFolded "bpf-enabled"))
      (litFolded "linuxDataplane"),
    lit ":", spaces, quotation, alt (litFolded "true") (litFolded "BPF"), quotation, spaces, eol]

/-- `value.lower()`, as far as it can become a word of ASCII without `i` and `k`. -/
def lower (value : Text) : Text := value.map Char.toLower

/-- `_reject_replacement_modes` -/
def rejectReplacementModes (manifest : Text) : List String :=
  let clean := cleanText manifest
  ((replacementField.findAll clean).flatMap fun m =>
    errorUnless (lower (m.group "1") = spelled "false" rfl)
      "Cilium kube-proxy replacement must remain false") ++
  ((replacementArgument.findAll clean).flatMap fun m =>
    errorUnless (lower (m.group "1") = spelled "false" rfl)
      "Cilium kube-proxy replacement command argument is forbidden") ++
  errorUnless (!bpfField.found clean) "Calico BPF dataplane is forbidden" ++
  tabErrors manifest ++
  errorUnless (!(namedScalarValues manifest (spelled "FELIX_BPFENABLED" rfl)).any fun value =>
      lower value = spelled "true" rfl)
    "Calico FELIX_BPFENABLED=true is forbidden"

end Rejections

/-! ## The gate -/

variable [Characters] [UnicodeDigits]

/-- `hashlib.sha256(manifest.encode("utf-8")).hexdigest()` -/
def manifestDigest (manifest : Text) : Text :=
  (Sha256.hexdigest (Utf8.encode (String.ofList manifest))).toList

/-- What `validate` says of the digest. -/
def digestErrors (manifest : Text) (d : Decisions) (actualManifestSha256 : Option Text) :
    List String :=
  let expected := (d.lookup (spelled "CNI_MANIFEST_SHA256" rfl)).getD []
  let actual := (actualManifestSha256.filter (· ≠ [])).getD (manifestDigest manifest)
  if ¬(expected.length = 64 ∧ expected.all isHexDigit) then
    ["CNI_MANIFEST_SHA256 must be one lowercase SHA-256 digest"]
  else errorUnless (expected = actual) "rendered CNI manifest SHA-256 does not match decisions"

/-- `validate`; `none` where it raises `ValueError`. -/
def validate (manifest decisionText : Text) (actualManifestSha256 : Option Text) :
    Option (List String) :=
  let d := parseDecisions decisionText
  let provider := cniProvider d
  let resources := resourceIndex manifest
  (validateDecisionContract d).map fun contractErrors =>
    errorUnless (!sentinel.found manifest) "manifest contains an unresolved replacement sentinel" ++
      parseDecisionsErrors decisionText ++ contractErrors ++
      digestErrors manifest d actualManifestSha256 ++ resourceIndexErrors manifest ++
      validateResourceContract resources provider ++ rejectReplacementModes manifest ++
      rejectOppositeProvider resources provider manifest ++
      rejectAlternateConfigurationSources resources provider ++
      (if provider = some cilium then validateCilium resources d
      else if provider = some calico then validateCalico resources d
      else []) ++
      validateImages manifest resources provider (cniVersion d)

end CniManifest
