import Mathlib
import WebsiteInfrastructure.Inventory.Objects
import WebsiteInfrastructure.Library.ImageReference

/-!
# Validation of the captured runtime inventory

The captures are the documents the files parse to. A dict by identity is a list of its entries
in the order of insertion, and the copies made through `json.dumps` are the values themselves.
-/

namespace RuntimeInventory

open Json Raising

/-- The pinned images and the Kubernetes version. -/
structure Pins where
  naranjoImage : Text
  liderseaImage : Text
  cloudflaredImage : Text
  fluxSourceImage : Text
  fluxKustomizeImage : Text
  fluxHelmImage : Text
  kubernetesVersion : Text
  corednsImage : Text
  etcdImage : Text

/-- The document of each file. -/
abbrev Captures (F : Type) := String → Value F

variable {F : Type} [Interpreter F]

def loadItems (captures : Captures F) (name : String) : Check (List (Value F)) := do
  let items ← (captures name).getOr "items" .null
  match items with
  | .arr items => do
    raiseIf (items.any (fun i => !i.isObject) = true)
      (told [.scalar s!"{name} contains a non-object item"])
    return items
  | _ => .error (told [.scalar s!"{name} does not contain one Kubernetes item list"])

/-! ## Namespaces, the node and the provider -/

def expectedNamespaces : List String :=
  ["default", "kube-node-lease", "kube-public", "kube-system", "flux-system",
    "cloudflare-public", "naranjo-online", "lidersea-com"]

def checkNamespaces (captures : Captures F) : Check Unit := do
  let differs := told [.scalar "live Namespace inventory differs from the exact release set"]
  let items ← loadItems captures "namespaces.json"
  let names := items.map fun i => (metadata i).get "name"
  raiseIf (names.length ≠ expectedNamespaces.length) differs
  raiseIf (names.all Value.hashable = false) .raised
  raiseIf ((names.all (fun n => expectedNamespaces.any fun e => n.eq (.text e)) &&
    expectedNamespaces.all fun e => names.any fun n => n.eq (.text e)) = false) differs
  each (fun i => do
    let phase ← i.dig ["status"]
    let phase ← phase.getOr "phase" .null
    raiseIf (phase.eq (.text "Active") = false ∨ ((metadata i).get "deletionTimestamp").isNone = false)
      (told [.scalar "an expected Namespace is not exactly Active"])) items

/-- Name and UID of the only node. -/
def productionNode (captures : Captures F) : Check (Text × Text) := do
  let nodes ← loadItems captures "nodes.json"
  match nodes with
  | [node] =>
    match ((metadata node).get "name").filled?, uid? node with
    | some name, some uid => return (name, uid)
    | _, _ => .error (told [.scalar "production node identity is unavailable"])
  | _ => .error (told [.scalar "global inventory requires exactly one production node"])

def baseDeployments : List Identity :=
  [named "naranjo-online" "naranjo-online", named "lidersea-com" "lidersea-com",
    named "cloudflare-public" "cloudflared", named "flux-system" "source-controller",
    named "flux-system" "kustomize-controller", named "flux-system" "helm-controller",
    named "kube-system" "coredns"]

def kubeProxy : Identity := named "kube-system" "kube-proxy"

/-- A network provider: its controllers and where its images come from. -/
structure Provider where
  deployment : Identity
  daemonset : Identity
  registry : String

def cilium : Provider where
  deployment := named "kube-system" "cilium-operator"
  daemonset := named "kube-system" "cilium"
  registry := "quay.io/cilium/"

def calico : Provider where
  deployment := named "kube-system" "calico-kube-controllers"
  daemonset := named "kube-system" "calico-node"
  registry := "docker.io/calico/"

namespace Provider

def deployments (p : Provider) : List Identity := baseDeployments ++ [p.deployment]

def daemonsets (p : Provider) : List Identity := [kubeProxy, p.daemonset]

/-- Whether the captured controllers are those of the provider. -/
def runs (p : Provider) (deployments daemonsets : List (Value F)) : Check Bool := do
  let deployed ← identitiesAre deployments p.deployments
  let daemons ← identitiesAre daemonsets p.daemonsets
  return deployed && daemons

/-- The registry, a path, an optional tag and a digest. -/
def pinnedImage (p : Provider) (image : Text) : Bool :=
  match image with
  | .scalar s => (ImageReference.after p.registry s.toList).any ImageReference.isPinnedPath
  | .lone _ _ => false

/-- `image.endswith("@sha256:" + "0" * 64)` -/
def zeroDigest (image : Text) : Bool :=
  ((Text.scalar "@sha256:").points ++ List.replicate 64 48).isSuffixOf image.points

/-- Whether one of the images is no reviewed image of the provider. -/
def strays (p : Provider) (images : List Text) : Bool :=
  images.any fun image => !p.pinnedImage image || zeroDigest image

end Provider

def selectProvider (deployments daemonsets : List (Value F)) : Check Provider := do
  let runsCilium ← cilium.runs deployments daemonsets
  let runsCalico ← calico.runs deployments daemonsets
  if runsCilium then return cilium
  else if runsCalico then return calico
  else .error (told [.scalar
    "live Deployment/DaemonSet inventory is outside the exact kubeadm/CNI release variants"])

def checkEmpty (captures : Captures F) (filename kind : String) : Check Unit := do
  let items ← loadItems captures filename
  raiseIf (items.isEmpty = false) (told [.scalar s!"live {kind} inventory must be empty"])

/-! ## Deployments and DaemonSets -/

namespace Pins

def expectedDeploymentImages (pins : Pins) : List (Identity × Text) :=
  [(named "naranjo-online" "naranjo-online", pins.naranjoImage),
    (named "lidersea-com" "lidersea-com", pins.liderseaImage),
    (named "cloudflare-public" "cloudflared", pins.cloudflaredImage),
    (named "flux-system" "source-controller", pins.fluxSourceImage),
    (named "flux-system" "kustomize-controller", pins.fluxKustomizeImage),
    (named "flux-system" "helm-controller", pins.fluxHelmImage),
    (named "kube-system" "coredns", pins.corednsImage)]

/-- A component of the pinned Kubernetes version. -/
def kubernetesImage (pins : Pins) (component : String) : Text :=
  (Text.scalar s!"registry.k8s.io/{component}:").append pins.kubernetesVersion

end Pins

/-- `item.get("spec", {}).get("template", {}).get("spec", {})` -/
def templateSpec (item : Value F) : Check (Value F) := item.dig ["spec", "template", "spec"]

def allowedCapabilities (i : Identity) : List Text :=
  if i = named "kube-system" "coredns" then [.scalar "NET_BIND_SERVICE"] else []

/-- The images of a Deployment. -/
def checkDeploymentImages (pins : Pins) (p : Provider) (i : Identity) (images : List Text) :
    Check Unit :=
  if i = p.deployment then
    raiseIf (p.strays images = true) (told [.scalar
      "CNI controller Deployment image is outside the reviewed provider registry/digest contract"])
  else
    match pins.expectedDeploymentImages.lookup i with
    | none => .error .raised
    | some image =>
      raiseIf (images ≠ [image])
        (about "Deployment" i " image inventory differs from exact desired state")

/-- One Deployment and its replicas. -/
def checkDeployment (pins : Pins) (p : Provider) (d : Identity × Value F) : Check (Identity × ℤ) := do
  let replicas ← stableDeployment d.2 d.1
  let template ← templateSpec d.2
  let images ← containerImages template
  match images with
  | none => .error (about "Deployment" d.1 " has invalid container images")
  | some images => do
    checkDeploymentImages pins p d.1 images
    assertRestrictedSpec template
      [.scalar "Deployment ", d.1.1, .scalar "/", d.1.2, .scalar " template"] (allowedCapabilities d.1)
    return (d.1, replicas)

/-- The images of a DaemonSet. -/
def checkDaemonsetImages (pins : Pins) (p : Provider) (i : Identity) (images : List Text) :
    Check Unit :=
  if i = kubeProxy then
    raiseIf (images ≠ [pins.kubernetesImage "kube-proxy"]) (told [.scalar
      "kube-proxy image differs from the exact reviewed Kubernetes version"])
  else
    raiseIf (p.strays images = true) (told [.scalar
      "CNI DaemonSet image is outside the reviewed provider registry/digest contract"])

/-- One DaemonSet and its desired number of Pods. -/
def checkDaemonset (pins : Pins) (p : Provider) (d : Identity × Value F) : Check (Identity × ℤ) := do
  let desired ← stableDaemonset d.2 d.1
  let template ← templateSpec d.2
  let images ← containerImages template
  match images with
  | none => .error (about "DaemonSet" d.1 " has invalid container images")
  | some images => do
    checkDaemonsetImages pins p d.1 images
    assertNoHostPort template
      [.scalar "DaemonSet ", d.1.1, .scalar "/", d.1.2, .scalar " template"]
    return (d.1, desired)

/-- A dict by UID of a map by identity: of two objects with one UID the last counts. -/
def identityByUid (entries : List (Identity × Value F)) : List (Text × Identity) :=
  (entries.filterMap fun e => (uid? e.2).map (·, e.1)).reverse

/-- `uids.get(value)` -/
def lookupUid {α : Type} (uids : List (Text × α)) (value : Value F) : Check (Option α) :=
  if value.hashable then return value.str?.bind (uids.lookup ·) else .error .raised

/-- The controllers all Pods have to come from. -/
structure Controllers (F : Type) where
  node : Text × Text
  deployments : List (Identity × Value F)
  daemonsets : List (Identity × Value F)
  deploymentReplicas : List (Identity × ℤ)
  daemonsetDesired : List (Identity × ℤ)

/-! ## ReplicaSets -/

/-- What the ReplicaSets seen so far add to the chain of owners. -/
structure Chain where
  active : List (Identity × Text)
  parent : List (Text × Identity)
  identity : List (Text × Identity)

namespace Chain

/-- `active_replicasets[parent] = uid` -/
def activate (chain : Chain) (parent : Identity) (uid : Text) : Chain :=
  { chain with active := chain.active ++ [(parent, uid)] }

/-- `replicaset_parent[uid] = parent` and `replicaset_identity_by_uid[uid] = identity` -/
def learn (chain : Chain) (uid : Text) (parent i : Identity) : Chain :=
  { chain with
    parent := chain.parent ++ [(uid, parent)]
    identity := chain.identity ++ [(uid, i)] }

end Chain

/-- The value at a path of dicts, and the record without it, as `pop(key, None)` leaves it. -/
def popped : Value F → List String → String → Check (Value F × Value F)
  | .obj fields, [], key =>
    return ((Value.obj fields).get key, .obj (fields.filter fun f => f.1 ≠ .scalar key))
  | .obj fields, k :: ks, key =>
    match fields.lookup (.scalar k) with
    | none => return (.null, .obj fields)
    | some inner => do
      let taken ← popped inner ks key
      return (taken.1, .obj (fields.map fun f => if f.1 = .scalar k then (f.1, taken.2) else f))
  | _, _, _ => .error .raised

/-- The Deployment a ReplicaSet names as its controller. -/
def replicasetParent (c : Controllers F) (r : Identity × Value F) : Check Identity := do
  let outside := about "ReplicaSet" r.1 " is outside the exact Deployment UID chain"
  let owner ← oneControllerOwner r.2 "ReplicaSet" r.1
  let parent ← lookupUid (identityByUid c.deployments) (owner.get "uid")
  raiseIf ((owner.get "apiVersion").eq (.text "apps/v1") = false) outside
  raiseIf ((owner.get "kind").eq (.text "Deployment") = false) outside
  match parent with
  | none => .error outside
  | some parent => do
    raiseIf ((owner.get "name").eq (.str parent.2) = false) outside
    raiseIf (r.1.1 ≠ parent.1) outside
    raiseIf (r.1.2.startsWith (parent.2.append (.scalar "-")) = false) outside
    return parent

/-- An active ReplicaSet against its Deployment. -/
def checkActive (c : Controllers F) (r : Identity × Value F) (parent : Identity) (replicas : ℤ) :
    Check Unit := do
  let differs := about "active ReplicaSet" r.1 " differs from its exact stable Deployment"
  match c.deployments.lookup parent, c.deploymentReplicas.lookup parent with
  | some deployment, some desired => do
    let deploymentSelector ← deployment.dig ["spec", "selector"]
    let replicasetSelector ← r.2.dig ["spec", "selector"]
    let deploymentTemplate ← deployment.dig ["spec", "template"]
    let replicasetTemplate ← r.2.dig ["spec", "template"]
    let selector ← popped replicasetSelector ["matchLabels"] "pod-template-hash"
    let template ← popped replicasetTemplate ["metadata", "labels"] "pod-template-hash"
    raiseIf (selector.1.filled? = none) differs
    raiseIf (template.1.eq selector.1 = false) differs
    raiseIf (selector.2.eq deploymentSelector = false) differs
    raiseIf (template.2.eq deploymentTemplate = false) differs
    raiseIf (replicas ≠ desired) differs
    let status ← r.2.dig ["status"]
    each (fun field => do
      let ready ← status.getOr field .null
      raiseIf (ready.eq (.int replicas) = false) differs) ["readyReplicas", "availableReplicas"]
  | _, _ => .error .raised

/-- One ReplicaSet. -/
def checkReplicaset (c : Controllers F) (chain : Chain) (r : Identity × Value F) : Check Chain := do
  let parent ← replicasetParent c r
  let spec ← r.2.dig ["spec"]
  let replicas ← spec.getOr "replicas" .null
  match replicas.int?, uid? r.2 with
  | some replicas, some uid => do
    raiseIf (replicas < 0) (about "ReplicaSet" r.1 " has an invalid replica count")
    if replicas ≠ 0 then do
      checkActive c r parent replicas
      raiseIf (chain.active.any (fun a => a.1 = parent) = true)
        (about "Deployment" parent " has more than one active ReplicaSet")
      return (chain.learn uid parent r.1).activate parent uid
    else do
      let status ← r.2.dig ["status"]
      each (fun field => do
        let live ← status.getOr field (.int 0)
        let none' ← noneOrZero live
        raiseIf (none' = false) (about "inactive ReplicaSet" r.1 " still has live replicas"))
        ["replicas", "readyReplicas", "availableReplicas"]
      return chain.learn uid parent r.1
  | _, _ => .error (about "ReplicaSet" r.1 " has an invalid replica count")

def checkReplicasets (c : Controllers F) (items : List (Value F)) : Check Chain := do
  let replicasets ← dynamicNamespacedMap items "ReplicaSet"
  let chain ← carry (checkReplicaset c) ⟨[], [], []⟩ replicasets
  raiseIf ((chain.active.all (fun a => c.deployments.any fun d => d.1 = a.1) &&
      c.deployments.all fun d => chain.active.any fun a => a.1 = d.1) = false)
    (told [.scalar "each exact Deployment must have one and only one active ReplicaSet"])
  return chain

/-! ## Pods -/

/-- The kubeadm components that run from static manifests, with their images. -/
def Pins.components (pins : Pins) : List (String × Text) :=
  [("etcd", pins.etcdImage), ("kube-apiserver", pins.kubernetesImage "kube-apiserver"),
    ("kube-controller-manager", pins.kubernetesImage "kube-controller-manager"),
    ("kube-scheduler", pins.kubernetesImage "kube-scheduler")]

def staticExpected (node : Text) : List Identity :=
  ["etcd", "kube-apiserver", "kube-controller-manager", "kube-scheduler"].map fun component =>
    (.scalar "kube-system", (Text.scalar s!"{component}-").append node)

/-- What the Pods seen so far have counted up to. -/
structure Tally where
  podCounts : List (Identity × ℤ)
  staticSeen : List Identity
  podUids : List Text

namespace Tally

/-- `pod_counts[parent] += 1` -/
def bump (tally : Tally) (parent : Identity) : Tally :=
  { tally with
    podCounts := tally.podCounts.map fun count =>
      if count.1 = parent then (count.1, count.2 + 1) else count }

def seeStatic (tally : Tally) (i : Identity) : Tally :=
  { tally with staticSeen := tally.staticSeen ++ [i] }

def seeUid (tally : Tally) (uid : Text) : Tally :=
  { tally with podUids := tally.podUids ++ [uid] }

end Tally

/-- What the controller of a Pod asks of it. -/
structure Standing where
  expectedImages : Option (List Text)
  elevated : Bool
  capabilities : List Text
  tally : Tally

/-- `if owner.get(...) != ...: raise error`, of texts -/
def ownerIs (owner : Value F) (fields : List (String × Text)) (error : Failure) : Check Unit :=
  each (fun f => raiseIf ((owner.get f.1).eq (.str f.2) = false) error) fields

/-- A Pod that the kubelet mirrors from a static manifest. -/
def mirrorPod (pins : Pins) (c : Controllers F) (tally : Tally) (i : Identity) (pod : Value F) :
    Check Standing := do
  let unowned := about "unowned Pod" i " is not one exact kubeadm mirror Pod"
  doIf ((ownerReferences pod).truthy = true) (do
    let owner ← oneControllerOwner pod "mirror Pod" i
    ownerIs owner [("apiVersion", .scalar "v1"), ("kind", .scalar "Node"), ("name", c.node.1),
      ("uid", c.node.2)] (about "mirror Pod" i " has an unexpected Node owner"))
  let spec := podSpec pod
  raiseIf (i ∈ tally.staticSeen) unowned
  raiseIf ((spec.get "nodeName").eq (.str c.node.1) = false) unowned
  raiseIf ((spec.get "initContainers").truthy = true) unowned
  raiseIf ((spec.get "ephemeralContainers").truthy = true) unowned
  let component := Text.ofPoints (i.2.points.take (i.2.points.length - (c.node.1.points.length + 1)))
  return {
    expectedImages := (pins.components.find? fun e => .scalar e.1 = component).map fun e => [e.2]
    elevated := true
    capabilities := []
    tally := tally.seeStatic i }

/-- `replicaset_identity_by_uid.get(owner_uid, (None, None))[1]` -/
def replicasetName (chain : Chain) (uid : Value F) : Value F :=
  match uid.str?.bind (chain.identity.lookup ·) with
  | none => .null
  | some r => .str r.2

/-- A Pod of a ReplicaSet. -/
def replicasetPod (c : Controllers F) (chain : Chain) (tally : Tally) (i : Identity)
    (owner : Value F) : Check Standing := do
  let outside := about "Pod" i " is outside the active Deployment UID chain"
  let uid := owner.get "uid"
  let parent ← lookupUid chain.parent uid
  match parent with
  | none => .error outside
  | some parent => do
    raiseIf ((chain.active.lookup parent).any (fun active => uid.eq (.str active)) = false) outside
    raiseIf ((owner.get "name").eq (replicasetName chain uid) = false) outside
    raiseIf (i.1 ≠ parent.1) outside
    let name ← owner.getOr "name" (.text "")
    let start ← name.plus (.scalar "-")
    raiseIf (i.2.startsWith start = false) outside
    match c.deployments.lookup parent with
    | none => .error .raised
    | some deployment => do
      let template ← templateSpec deployment
      let images ← containerImages template
      return {
        expectedImages := images
        elevated := false
        capabilities := allowedCapabilities parent
        tally := tally.bump parent }

/-- A Pod of a DaemonSet. -/
def daemonsetPod (c : Controllers F) (tally : Tally) (i : Identity) (owner : Value F) :
    Check Standing := do
  let outside := about "Pod" i " is outside the exact DaemonSet UID chain"
  let parent ← lookupUid (identityByUid c.daemonsets) (owner.get "uid")
  match parent with
  | none => .error outside
  | some parent => do
    raiseIf ((owner.get "name").eq (.str parent.2) = false) outside
    raiseIf (i.1 ≠ parent.1) outside
    raiseIf (i.2.startsWith (parent.2.append (.scalar "-")) = false) outside
    match c.daemonsets.lookup parent with
    | none => .error .raised
    | some daemonset => do
      let template ← templateSpec daemonset
      let images ← containerImages template
      return {
        expectedImages := images
        elevated := true
        capabilities := []
        tally := tally.bump parent }

/-- A Pod with a controller. -/
def controlledPod (c : Controllers F) (chain : Chain) (tally : Tally) (i : Identity)
    (pod : Value F) : Check Standing := do
  let unapproved := about "Pod" i " has an unapproved controller kind"
  raiseIf ((ownerReferences pod).truthy = false)
    (about "unowned Pod" i " is not one exact kubeadm mirror Pod")
  let owner ← oneControllerOwner pod "Pod" i
  raiseIf ((owner.get "apiVersion").eq (.text "apps/v1") = false) unapproved
  let approved ← (owner.get "kind").inSet [.text "ReplicaSet", .text "DaemonSet"]
  raiseIf (approved = false) unapproved
  if (owner.get "kind").eq (.text "ReplicaSet") then replicasetPod c chain tally i owner
  else daemonsetPod c tally i owner

/-- Whether a static Pod carries the annotation of a mirror. -/
def mirrored (c : Controllers F) (i : Identity) (pod : Value F) : Check Bool := do
  let annotations ← (metadata pod).dig ["annotations"]
  let annotation ← annotations.getOr "kubernetes.io/config.mirror" .null
  if i ∈ staticExpected c.node.1 then do
    let absent ← annotation.inSet [.null, .text ""]
    return !absent
  else return false

/-- What is asked of a Pod, by what controls it. -/
def standingOf (pins : Pins) (c : Controllers F) (chain : Chain) (tally : Tally) (i : Identity)
    (pod : Value F) : Check Standing := do
  let mirror ← mirrored c i pod
  if mirror then mirrorPod pins c tally i pod else controlledPod c chain tally i pod

/-- The condition that a Pod is ready. -/
def checkReady (i : Identity) (pod : Value F) : Check Unit := do
  let unready := about "Pod" i " is not exactly Ready"
  let status ← pod.dig ["status"]
  let phase ← status.getOr "phase" .null
  raiseIf (phase.eq (.text "Running") = false) (about "Pod" i " is not Running")
  let conditions ← status.getOr "conditions" (.arr [])
  let conditions ← conditions.iterate
  match conditions.filter fun c => c.isObject && (c.get "type").eq (.text "Ready") with
  | [ready] => raiseIf ((ready.get "status").eq (.text "True") = false) unready
  | _ => .error unready

/-- The name, the namespace and the UID of a Pod. -/
def podIdentity (tally : Tally) (pod : Value F) : Check (Identity × Text) := do
  let invalid := told [.scalar "live Pod inventory has an invalid, duplicate, or deleting identity"]
  let known ← ((metadata pod).get "namespace").inSet (expectedNamespaces.map .text)
  raiseIf (known = false) invalid
  match ((metadata pod).get "namespace").str?, ((metadata pod).get "name").filled?, uid? pod with
  | some ns, some name, some uid => do
    raiseIf (uid ∈ tally.podUids) invalid
    raiseIf (((metadata pod).get "deletionTimestamp").isNone = false) invalid
    return ((ns, name), uid)
  | _, _, _ => .error invalid

/-- One Pod. -/
def checkPod (pins : Pins) (c : Controllers F) (chain : Chain) (tally : Tally) (pod : Value F) :
    Check Tally := do
  let known ← podIdentity tally pod
  let i := known.1
  let spec := podSpec pod
  let label := [.scalar "Pod ", i.1, .scalar "/", i.2]
  let images ← containerImages spec
  raiseIf (images = none) (about "Pod" i " has invalid container images")
  let standing ← standingOf pins c chain (tally.seeUid known.2) i pod
  raiseIf (images ≠ standing.expectedImages)
    (about "Pod" i " image inventory differs from its exact controller")
  checkReady i pod
  assertNoHostPort spec label
  doIf (standing.elevated = false) (assertRestrictedSpec spec label standing.capabilities)
  return standing.tally

/-- All Pods, and the counts they have to reach. -/
def checkPods (pins : Pins) (c : Controllers F) (chain : Chain) (pods : List (Value F)) :
    Check Unit := do
  let counts := (c.deployments ++ c.daemonsets).map fun d => (d.1, (0 : ℤ))
  let tally ← carry (checkPod pins c chain) ⟨counts, [], []⟩ pods
  raiseIf ((staticExpected c.node.1).all (· ∈ tally.staticSeen) = false)
    (told [.scalar "live kubeadm mirror Pod inventory is incomplete"])
  raiseIf (tally.podCounts ≠ c.deploymentReplicas ++ c.daemonsetDesired)
    (told [.scalar "live controller-owned Pod counts differ from exact stable controller replicas"])

/-! ## Services -/

def expectedServices : List Identity :=
  [named "default" "kubernetes", named "kube-system" "kube-dns",
    named "flux-system" "source-controller", named "naranjo-online" "naranjo-online",
    named "lidersea-com" "lidersea-com"]

/-- One Service. -/
def checkService (s : Identity × Value F) : Check Unit := do
  let exposed := about "Service" s.1 " has a direct-origin exposure field"
  let spec ← s.2.dig ["spec"]
  let type ← spec.getOr "type" (.text "ClusterIP")
  raiseIf (type.eq (.text "ClusterIP") = false) exposed
  raiseIf ((spec.get "externalIPs").truthy = true) exposed
  raiseIf ((spec.get "externalName").truthy = true) exposed
  let unchecked ← noneOrZero (spec.get "healthCheckNodePort")
  raiseIf (unchecked = false) exposed
  let ports ← spec.getOr "ports" (.arr [])
  let ports ← ports.iterate
  each (fun port => do
    let nodePort ← port.getOr "nodePort" .null
    let unbound ← noneOrZero nodePort
    raiseIf (unbound = false) exposed) ports

/-! ## The whole inventory -/

/-- The controllers of the captures. -/
def checkControllers (pins : Pins) (captures : Captures F) : Check (Controllers F) := do
  let node ← productionNode captures
  let deploymentItems ← loadItems captures "deployments.json"
  let daemonsetItems ← loadItems captures "daemonsets.json"
  let p ← selectProvider deploymentItems daemonsetItems
  let deployments ← exactNamespacedMap deploymentItems p.deployments "Deployment"
  let daemonsets ← exactNamespacedMap daemonsetItems p.daemonsets "DaemonSet"
  each (fun f => checkEmpty captures f.1 f.2)
    [("statefulsets.json", "StatefulSet"), ("replicationcontrollers.json", "ReplicationController"),
      ("jobs.json", "Job"), ("cronjobs.json", "CronJob"),
      ("horizontalpodautoscalers.json", "HorizontalPodAutoscaler")]
  let replicas ← collect (checkDeployment pins p) deployments
  let desired ← collect (checkDaemonset pins p) daemonsets
  return ⟨node, deployments, daemonsets, replicas, desired⟩

/-- The validator. -/
def validate (pins : Pins) (captures : Captures F) : Check Unit := do
  checkNamespaces captures
  let c ← checkControllers pins captures
  let replicasets ← loadItems captures "replicasets.json"
  let chain ← checkReplicasets c replicasets
  let pods ← loadItems captures "pods.json"
  checkPods pins c chain pods
  let services ← loadItems captures "services.json"
  let services ← exactNamespacedMap services expectedServices "Service"
  each checkService services
  checkEmpty captures "mutatingwebhooks.json" "MutatingWebhookConfiguration"
  checkEmpty captures "webhooks.json" "ValidatingWebhookConfiguration"

end RuntimeInventory
