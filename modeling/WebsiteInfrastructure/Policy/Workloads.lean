import Mathlib
import WebsiteInfrastructure.Library.ImageReference
import WebsiteInfrastructure.Policy.Documents

/-!
# The deny rules for workloads

Every other deny rule of the policy asks for another kind first.
-/

namespace Policy

open Rego ImageReference

def workloadKinds : List String :=
  ["Pod", "Deployment", "ReplicaSet", "DaemonSet", "StatefulSet", "Job", "CronJob"]

def templateKinds : List String := ["Deployment", "ReplicaSet", "DaemonSet", "StatefulSet", "Job"]

def singleWriterNamespaces : List String := ["obsidian"]

def podVolumeNonSourceFields : List String := ["name"]

def admittedPodVolumeSources : List String :=
  ["emptyDir", "configMap", "secret", "projected", "downwardAPI"]

def siteWorkloadAccounts : List (String × String) :=
  [("naranjo-online", "naranjo-online"), ("lidersea-com", "lidersea-com"), ("obsidian", "obsync")]

def connectorInstances : List (String × String) :=
  [("naranjo-online", "naranjo-online-tunnel"), ("lidersea-com", "lidersea-com-tunnel"),
    ("obsidian", "obsync-tunnel")]

/-- The instances of the namespaces with a published chart. -/
def connectorDeployments : List String :=
  chartSourceNamespaces.filterMap fun ns => connectorInstances.lookup ns

section

variable (input : Term)

def isWorkload : Bool := kindIs input workloadKinds

/-- Where a workload keeps its Pod template. -/
def template : Ref :=
  if kindIs input ["Pod"] then input
  else if kindIs input ["CronJob"] then inp input ["spec", "jobTemplate", "spec", "template"]
  else if kindIs input templateKinds then inp input ["spec", "template"]
  else none

def podSpec : Ref := (template input).dot "spec"

def podMetadata : Ref := (template input).get "metadata" (.obj [])

def connectorInstance : Ref :=
  ((podMetadata input).get "labels" (.obj [])).get "app.kubernetes.io/instance" (.str "")

/-- `object.get(object.get(input, "metadata", {}), "namespace", default)` -/
def namespaceOr (default : String) : Ref :=
  (Ref.get input "metadata" (.obj [])).get "namespace" (.str default)

def restrictedNamespace : Bool := holds ((namespaceOr input "default").isIn tenantNamespaces)

/-- `object.get(pod_spec, field, [])` -/
def podList (field : String) : Ref := (podSpec input).get field (.arr [])

def regularAndInitContainers : Ref :=
  Ref.concat (podList input "initContainers") (podList input "containers")

def containers : Ref :=
  Ref.concat (regularAndInitContainers input) (podList input "ephemeralContainers")

def volumes : List Term := (podList input "volumes").each

/-- `some container in containers` -/
def anyContainer (p : Term → Bool) : Bool := isWorkload input && (containers input).each.any p

def security (container : Term) : Ref := Ref.get container "securityContext" (.obj [])

def capabilities (container : Term) : Ref := (security container).get "capabilities" (.obj [])

/-- Whether a message can name a part of the document. -/
def named (part : Term) : Bool := formats [Ref.dot part "name"]

/-- `is_workload`, with a message that names the document -/
def ofWorkload (condition : Bool) : Bool := isWorkload input && condition && hasName input

/-! ## The proxy of obsync -/

def obsyncProxyLabels : Term :=
  .obj [("app.kubernetes.io/instance", .str "obsync-tls-proxy"),
    ("app.kubernetes.io/name", .str "obsync-tls-proxy")]

def obsyncProxyImage : String := "docker.io/nginxinc/nginx-unprivileged:1.30.4-alpine" ++
  "@sha256:442753882674b49ae2c1de83ed67896131c0777f56df5005e356e62bc3f7e7ce"

def obsyncProxyDeployment : Bool :=
  kindIs input ["Deployment"] && namespaceIs input ["obsidian"] && nameIs input ["obsync-tls-proxy"]

def obsyncProxyContainer : Term :=
  .obj [
    ("args", .strings ["-c", "/etc/obsync-proxy/nginx.conf", "-g", "daemon off;", "-e", "/dev/null"]),
    ("command", .strings ["nginx"]),
    ("image", .str obsyncProxyImage),
    ("imagePullPolicy", .str "IfNotPresent"),
    ("livenessProbe", .obj [("periodSeconds", .num 30), ("tcpSocket", .obj [("port", .str "https")]),
      ("timeoutSeconds", .num 1)]),
    ("name", .str "nginx"),
    ("ports", .arr [.obj [("containerPort", .num 8443), ("name", .str "https"),
      ("protocol", .str "TCP")]]),
    ("readinessProbe", .obj [("httpGet", .obj [("path", .str "/readyz"), ("port", .str "https"),
      ("scheme", .str "HTTPS")]), ("periodSeconds", .num 10), ("timeoutSeconds", .num 2)]),
    ("resources", .obj [("limits", .obj [("cpu", .str "500m"), ("memory", .str "256Mi")]),
      ("requests", .obj [("cpu", .str "125m"), ("memory", .str "128Mi")])]),
    ("securityContext", .obj [("allowPrivilegeEscalation", .bool false),
      ("capabilities", .obj [("drop", .strings ["ALL"])]), ("readOnlyRootFilesystem", .bool true)]),
    ("startupProbe", .obj [("failureThreshold", .num 30), ("periodSeconds", .num 2),
      ("tcpSocket", .obj [("port", .str "https")]), ("timeoutSeconds", .num 1)]),
    ("volumeMounts", .arr [
      .obj [("mountPath", .str "/etc/obsync-proxy"), ("name", .str "config"), ("readOnly", .bool true)],
      .obj [("mountPath", .str "/etc/obsync-tls"), ("name", .str "leaf"), ("readOnly", .bool true)],
      .obj [("mountPath", .str "/tmp"), ("name", .str "runtime")]])]

def obsyncProxyPod (configName : Term) : Term :=
  .obj [
    ("automountServiceAccountToken", .bool false),
    ("containers", .arr [obsyncProxyContainer]),
    ("securityContext", .obj [("fsGroup", .num 101), ("runAsGroup", .num 101),
      ("runAsNonRoot", .bool true), ("runAsUser", .num 101),
      ("seccompProfile", .obj [("type", .str "RuntimeDefault")])]),
    ("serviceAccountName", .str "obsync-tls-proxy"),
    ("terminationGracePeriodSeconds", .num 30),
    ("volumes", .arr [
      .obj [("configMap", .obj [("name", configName)]), ("name", .str "config")],
      .obj [("name", .str "leaf"), ("secret", .obj [("defaultMode", .num 288),
        ("items", .arr [.obj [("key", .str "tls.crt"), ("path", .str "tls.crt")],
          .obj [("key", .str "tls.key"), ("path", .str "tls.key")]]),
        ("secretName", .str "obsync-tls-leaf")])],
      .obj [("emptyDir", .obj [("medium", .str "Memory"), ("sizeLimit", .str "16Mi")]),
        ("name", .str "runtime")]])]

/-- `regex.match("^obsync-tls-proxy-config-[a-z0-9]{10}$", name)` -/
def isConfigName : Term → Bool
  | .str s => (after "obsync-tls-proxy-config-" s.toList).any fun tail =>
      tail.length = 10 && tail.all fun c => c.isDigit || c.isLower
  | _ => false

def validObsyncProxyPod : Bool :=
  obsyncProxyDeployment input &&
    holds ((inp input ["spec", "selector"]).equals (.obj [("matchLabels", obsyncProxyLabels)])) &&
    holds ((inp input ["spec", "template", "metadata"]).equals (.obj [("labels", obsyncProxyLabels)])) &&
    ((((podSpec input).dot "volumes").nth 0).path ["configMap", "name"]).any fun configName =>
      isConfigName configName && holds ((podSpec input).equals (obsyncProxyPod configName))

def validObsyncProxyContainer (container : Term) : Bool :=
  validObsyncProxyPod input && holds ((((podSpec input).dot "containers").nth 0).equals container)

def denyObsyncProxy : Bool := obsyncProxyDeployment input && !validObsyncProxyPod input

/-! ## Flux controllers and single writers -/

/-- `startswith(value, start)` -/
def startsWith (value : Term) (start : String) : Bool :=
  match value with
  | .str s => start.toList.isPrefixOf s.toList
  | _ => false

def fluxControllerIs (names : List String) : Bool :=
  kindIs input ["Deployment"] && namespaceIs input ["flux-system"] && nameIs input names

def validSourceControllerStorage : Bool :=
  let spec := inp input ["spec", "template", "spec"]
  let found := spec.get "containers" (.arr [])
  let manager := found.nth 0
  let resources := manager.get "resources" (.obj [])
  let mounted := spec.get "volumes" (.arr [])
  found.count = some 1 && holds ((manager.dot "name").equals (.str "manager")) &&
    holds (((resources.get "requests" (.obj [])).get "ephemeral-storage" (.str "")).equals
      (.str "128Mi")) &&
    holds (((resources.get "limits" (.obj [])).get "ephemeral-storage" (.str "")).equals
      (.str "1Gi")) &&
    (["--no-cross-namespace-refs", "--default-service-account", "--no-remote-bases",
      "--feature-gates="].all fun start =>
        (manager.get "args" (.arr [])).each.all fun flag => !startsWith flag start) &&
    mounted.count = some 2 &&
    mounted.each.any (· = .obj [("emptyDir", .obj [("sizeLimit", .str "768Mi")]),
      ("name", .str "data")]) &&
    mounted.each.any (· = .obj [("emptyDir", .obj [("sizeLimit", .str "128Mi")]),
      ("name", .str "tmp")])

def denySourceControllerStorage : Bool :=
  fluxControllerIs input ["source-controller"] && !validSourceControllerStorage input

def validReconcilerConfigWatcherGate : Bool :=
  let managers : List Term := ((inp input ["spec", "template", "spec"]).get "containers" (.arr [])).each.filter
    fun container => holds ((Ref.get container "name" (.str "")).equals (.str "manager"))
  let arguments := (Ref.get managers[0]? "args" (.arr [])).each
  managers.length = 1 &&
    arguments.filter (startsWith · "--feature-gates=") =
      [.str "--feature-gates=DisableConfigWatchers=true"]

def denyConfigWatchers : Bool :=
  fluxControllerIs input ["kustomize-controller", "helm-controller"] &&
    !validReconcilerConfigWatcherGate input

def singleWriter (condition : Option Bool) : Bool :=
  kindIs input ["Deployment"] && namespaceIs input singleWriterNamespaces && holds condition &&
    hasNamespaceAndName input

def denyReplicas : Bool :=
  singleWriter input (((inp input ["spec"]).get "replicas" (.num 1)).differs (.num 1))

def denyStrategy : Bool :=
  singleWriter input ((((inp input ["spec"]).get "strategy" (.obj [])).get "type" (.str "")).differs
    (.str "Recreate"))

/-! ## The Pod -/

def denyReplicaset : Bool :=
  kindIs input ["ReplicaSet"] && namespaceIs input tenantNamespaces && hasNamespaceAndName input

/-- `object.get(pod_spec, field, false)` -/
def denyHost (field : String) : Bool :=
  ofWorkload input (((podSpec input).get field (.bool false)).any (· ≠ .bool false))

def denyHostNetwork : Bool := denyHost input "hostNetwork"

def denyHostPid : Bool := denyHost input "hostPID"

def denyHostIpc : Bool := denyHost input "hostIPC"

def denyAutomount : Bool :=
  restrictedNamespace input && ofWorkload input (holds
    (((podSpec input).get "automountServiceAccountToken" (.bool true)).differs (.bool false)))

def denyServiceAccount : Bool :=
  restrictedNamespace input && ofWorkload input
    ((Ref.among (siteWorkloadAccounts ++ [("cloudflare-public", "cloudflared")])
      (inp input ["metadata", "namespace"])).any fun expected =>
        holds (((podSpec input).get "serviceAccountName" (.str "")).differs (.str expected)) &&
          !validObsyncProxyPod input)

/-- The `securityContext` of the Pod. -/
def podSecurity : Ref := (podSpec input).get "securityContext" (.obj [])

def denyRoot : Bool :=
  ofWorkload input (holds (((podSecurity input).get "runAsNonRoot" (.bool false)).differs (.bool true)))

def denySeccomp : Bool :=
  ofWorkload input (holds ((((podSecurity input).get "seccompProfile" (.obj [])).get "type"
    (.str "")).differs (.str "RuntimeDefault")))

def denyDiskPressure : Bool :=
  ofWorkload input ((podList input "tolerations").each.any fun toleration =>
    holds ((Ref.get toleration "key" (.str "")).equals (.str "node.kubernetes.io/disk-pressure")))

def denyWildcardToleration : Bool :=
  ofWorkload input ((podList input "tolerations").each.any fun toleration =>
    holds ((Ref.get toleration "key" (.str "")).equals (.str "")) &&
      holds ((Ref.get toleration "operator" (.str "Equal")).equals (.str "Exists")))

def denyClaimTemplates : Bool :=
  kindIs input ["StatefulSet"] &&
    (((inp input ["spec"]).get "volumeClaimTemplates" (.arr [])).count.any (0 < ·)) && hasName input

/-! ## Volumes -/

/-- `some field, _ in volume`, of fields that are no name -/
def podVolumeSources : Term → List Term
  | .obj fields => (fields.map fun f => .str f.1).filter fun field =>
      podVolumeNonSourceFields.all fun name => field ≠ .str name
  | .arr items => (List.range items.length).map fun i => .num i
  | _ => []

/-- The labels both selectors of the obsync Deployment state. -/
def obsyncLabels : Term :=
  .obj [("app.kubernetes.io/instance", .str "obsync"), ("app.kubernetes.io/name", .str "obsync")]

def obsyncClaimPairAllowed : Bool :=
  let labels := inp input ["spec", "template", "metadata", "labels"]
  let container := ((podSpec input).dot "containers").nth 0
  kindIs input ["Deployment"] && namespaceIs input ["obsidian"] && nameIs input ["obsync"] &&
    holds ((inp input ["spec", "selector", "matchLabels"]).equals obsyncLabels) &&
    holds ((labels.dot "app.kubernetes.io/name").equals (.str "obsync")) &&
    holds ((labels.dot "app.kubernetes.io/instance").equals (.str "obsync")) &&
    holds (((podSpec input).dot "serviceAccountName").equals (.str "obsync")) &&
    holds ((podList input "initContainers").equals (.arr [])) &&
    holds ((podList input "ephemeralContainers").equals (.arr [])) &&
    ((podSpec input).dot "containers").count = some 1 &&
    holds ((container.dot "name").equals (.str "obsync")) &&
    holds ((container.dot "volumeMounts").equals (.arr [
      .obj [("mountPath", .str "/data/blobs"), ("name", .str "blobs")],
      .obj [("mountPath", .str "/data/journal"), ("name", .str "journal")]])) &&
    holds (((podSpec input).dot "volumes").equals (.arr [
      .obj [("name", .str "blobs"),
        ("persistentVolumeClaim", .obj [("claimName", .str "obsync-blobs")])],
      .obj [("name", .str "journal"),
        ("persistentVolumeClaim", .obj [("claimName", .str "obsync-journal")])]]))

def denyVolumeCount : Bool :=
  isWorkload input && (volumes input).any fun volume => (podVolumeSources volume).length ≠ 1

def denyVolumeSource : Bool :=
  isWorkload input && (volumes input).any fun volume => (podVolumeSources volume).any fun source =>
    (admittedPodVolumeSources.all fun name => source ≠ .str name) && !obsyncClaimPairAllowed input

def denyHostPath : Bool :=
  isWorkload input && (volumes input).any fun volume =>
    holds ((Ref.get volume "hostPath" .null).differs .null) && named volume

def denyProjectedToken : Bool :=
  isWorkload input && restrictedNamespace input && (volumes input).any fun volume =>
    (((Ref.get volume "projected" (.obj [])).get "sources" (.arr [])).each.any fun source =>
      holds ((Ref.get source "serviceAccountToken" .null).differs .null)) && named volume

/-- The volume a connector may mount. -/
def tunnelTokenVolume (instanceName : String) : Term :=
  .obj [("name", .str "tunnel-token"), ("secret", .obj [("defaultMode", .num 288),
    ("items", .arr [.obj [("key", .str "token"), ("path", .str "token")]]),
    ("secretName", .str (instanceName ++ "-token"))])]

/-- The instance label, if it is that of a reviewed connector. -/
def reviewedInstance : Option String :=
  connectorDeployments.find? fun name => connectorInstance input = some (.str name)

def validTenantVolume (ns volume : Term) : Bool :=
  siteNamespaces.any (fun name => ns = .str name) && volume = .obj [("emptyDir",
      .obj [("medium", .str "Memory"), ("sizeLimit", .str "16Mi")]), ("name", .str "tmp")] ||
    ns = .str "obsidian" && (obsyncClaimPairAllowed input || validObsyncProxyPod input) &&
      holds (((podSpec input).dot "volumes").contains volume) ||
    ns = .str "cloudflare-public" &&
      (reviewedInstance input).any fun name => volume = tunnelTokenVolume name

def denyTenantVolume : Bool :=
  isWorkload input && restrictedNamespace input &&
    (inp input ["metadata", "namespace"]).any fun ns =>
      (volumes input).any fun volume => !validTenantVolume input ns volume && named volume

def denyVolumeShape (eager : Bool) : Bool :=
  isWorkload input && restrictedNamespace input &&
    holdsNot eager ((podList input "volumes").map Term.isArray) && hasNamespaceAndName input

/-! ## Connectors -/

def publicConnectorDeployment : Bool :=
  kindIs input ["Deployment"] &&
    holds (((inp input ["metadata"]).get "namespace" (.str "")).equals (.str "cloudflare-public"))

def publicConnectorWorkload : Bool :=
  isWorkload input && holds ((namespaceOr input "").equals (.str "cloudflare-public"))

/-- The Secret key a connector may read. -/
def ownTokenKey (instanceName : String) : Term :=
  .obj [("key", .str "token"), ("name", .str (instanceName ++ "-token"))]

/-- An entry that reads no Secret, or the connector's own token. -/
def validConnectorEnvEntry (instanceName : String) (entry : Term) : Bool :=
  entry.isObject && (Ref.get entry "valueFrom" (.obj [])).any fun (valueFrom : Term) =>
    valueFrom.isObject &&
      ((Ref.keys valueFrom).any (fun keys => "secretKeyRef" ∉ keys) ||
        holds ((Ref.get valueFrom "secretKeyRef" (.obj [])).equals (ownTokenKey instanceName)))

def validConnectorContainerEnv (instanceName : String) (container : Term) : Bool :=
  container.isObject && (Ref.keys container).any (fun keys => "envFrom" ∉ keys) &&
    (Ref.get container "env" (.arr [])).any fun env =>
      env.isArray && env.elements.all (validConnectorEnvEntry instanceName)

def connectorSecretEnvBindingIsOwnInstance : Bool :=
  (reviewedInstance input).any fun name =>
    (containers input).any fun found => found.elements.all (validConnectorContainerEnv name)

def connectorIdentityRootedInName : Bool :=
  [["metadata", "labels"], ["spec", "selector", "matchLabels"],
    ["spec", "template", "metadata", "labels"]].all fun keys =>
      (inp input ["metadata", "name"]).any fun name =>
        holds (((inp input keys).dot "app.kubernetes.io/instance").equals name)

def denyConnectorInventory (eager : Bool) : Bool :=
  publicConnectorDeployment input &&
    holdsNot eager (((inp input ["metadata"]).get "name" (.str "")).isIn connectorDeployments) &&
    formats [(inp input ["metadata"]).get "name" (.str "")]

def denyConnectorIdentity : Bool :=
  publicConnectorDeployment input && !connectorIdentityRootedInName input &&
    formats [(inp input ["metadata"]).get "name" (.str "")]

def denyConnectorSecretEnv : Bool :=
  publicConnectorWorkload input && !connectorSecretEnvBindingIsOwnInstance input &&
    formats [(inp input ["metadata"]).get "name" (.str "")]

/-! ## Containers -/

def denyEscalation : Bool :=
  anyContainer input fun c =>
    holds (((security c).get "allowPrivilegeEscalation" (.bool true)).differs (.bool false)) && named c

def denyWritableRoot : Bool :=
  anyContainer input fun c =>
    holds (((security c).get "readOnlyRootFilesystem" (.bool false)).differs (.bool true)) && named c

def denyPrivileged : Bool :=
  anyContainer input fun c =>
    holds (((security c).get "privileged" (.bool false)).equals (.bool true)) && named c

def denyKeptCapabilities (eager : Bool) : Bool :=
  anyContainer input fun c =>
    holdsNot eager (((capabilities c).get "drop" (.arr [])).contains (.str "ALL")) && named c

def denyAddedCapabilities : Bool :=
  anyContainer input fun c =>
    ((capabilities c).get "add" (.arr [])).count.any (0 < ·) && named c

/-- `object.get(port, "hostPort", 0) > 0`, where any string or collection is above a number -/
def bindsHost (port : Term) : Bool :=
  (Ref.get port "hostPort" (.num 0)).any fun
    | .null | .bool _ => false
    | .num q => 0 < q
    | _ => true

def denyHostPort : Bool :=
  anyContainer input fun c => (Ref.get c "ports" (.arr [])).each.any fun port =>
    bindsHost port && named c

/-- The `containers` alone have to state their resources. -/
def denyResources (field : String) : Bool :=
  isWorkload input && restrictedNamespace input && (podList input "containers").each.any fun c =>
    ["cpu", "memory"].any fun resource =>
      holds ((((Ref.get c "resources" (.obj [])).get field (.obj [])).get resource
        (.str "")).equals (.str "")) && named c

def denyRequests : Bool := denyResources input "requests"

def denyLimits : Bool := denyResources input "limits"

/-- An image of the approved registries with a digest, or the one of the API canary. -/
def approvedWorkloadImage : Term → Bool
  | .str s =>
    (after "ghcr.io/snaraj/" s.toList).any isPinnedPath ||
      (after "ghcr.io/fluxcd/" s.toList).any isPinnedPath ||
      (after "cloudflare/cloudflared:" s.toList).any isPinnedTag ||
      s = "registry.k8s.io/kubectl:v1.36.4@sha256:" ++
        "b8d523e7b8cdc5e3caa0f8891ee9f504abf137dec786e6e0ddd33e4f272c2f13"
  | _ => false

/-- The canonical repository of each tenant namespace, as what its images have to be. -/
def canonicalImage : List (String × (List Char → Bool)) :=
  [("naranjo-online", fun cs => (after "ghcr.io/snaraj/naranjo-online" cs).any isPinnedRelease),
    ("lidersea-com", fun cs => (after "ghcr.io/snaraj/lidersea-com" cs).any isPinnedRelease),
    ("obsidian", fun cs => (after "ghcr.io/snaraj/obsync" cs).any isPinnedRelease),
    ("cloudflare-public", fun cs => (after "cloudflare/cloudflared:" cs).any isPinnedTag)]

/-- `regex.match(pattern, image)`, which no other value than a string satisfies -/
def imageMatches (pattern : List Char → Bool) (image : Ref) : Option Bool :=
  image.map fun
    | .str s => pattern s.toList
    | _ => false

def denyCanonicalImage (eager : Bool) : Bool :=
  restrictedNamespace input &&
    (Ref.among canonicalImage (inp input ["metadata", "namespace"])).any fun pattern =>
      anyContainer input fun c => holdsNot eager (imageMatches pattern (Ref.dot c "image")) &&
        !validObsyncProxyContainer input c && named c

def denyImage (eager : Bool) : Bool :=
  anyContainer input fun c =>
    holdsNot eager ((Ref.dot c "image").map approvedWorkloadImage) &&
      !validObsyncProxyContainer input c && named c

/-! ## All rules -/

/-- The rules about what a container may do. -/
def denyContainer (eager : Bool) : Bool :=
  denyEscalation input || denyWritableRoot input || denyPrivileged input ||
    denyKeptCapabilities input eager || denyAddedCapabilities input || denyImage input eager

/-- The rules about everything else. -/
def denyElse (eager : Bool) : Bool :=
  denyReplicaset input || denySourceControllerStorage input || denyConfigWatchers input ||
    denyHostNetwork input || denyHostPid input || denyHostIpc input || denyAutomount input ||
    denyServiceAccount input || denyReplicas input || denyStrategy input ||
    denyProjectedToken input || denyClaimTemplates input || denyVolumeCount input ||
    denyVolumeSource input || denyDiskPressure input || denyWildcardToleration input ||
    denyTenantVolume input || denyVolumeShape input eager || denyConnectorInventory input eager ||
    denyConnectorIdentity input || denyConnectorSecretEnv input || denyRoot input ||
    denyCanonicalImage input eager || denySeccomp input || denyRequests input ||
    denyLimits input || denyHostPort input || denyHostPath input || denyObsyncProxy input

/-- Whether some deny rule fires on a workload. -/
def denyWorkload (eager : Bool) : Bool := denyContainer input eager || denyElse input eager

end

end Policy
