import Mathlib
import WebsiteInfrastructure.Library.PythonObjects

/-!
# Objects of the runtime inventory

The helpers of the validator: identities, owners, images and the restricted Pod specification.
-/

namespace RuntimeInventory

open Json Raising

variable {F : Type} [Interpreter F]

/-- Namespace and name. -/
abbrev Identity := Text × Text

instance : LawfulBEq Identity := inferInstance

def named (ns name : String) : Identity := (.scalar ns, .scalar name)

def metadata (item : Value F) : Value F :=
  match item.get? "metadata" with
  | some (.obj fields) => .obj fields
  | _ => .obj []

def namespacedIdentity (item : Value F) : Value F × Value F :=
  ((metadata item).get "namespace", (metadata item).get "name")

/-- An identity of two strings. -/
def identity? (item : Value F) : Option Identity := do
  let ns ← ((metadata item).get "namespace").str?
  let name ← ((metadata item).get "name").str?
  return (ns, name)

/-- A stable UID. -/
def uid? (item : Value F) : Option Text := ((metadata item).get "uid").filled?

/-- `set(identities) == expected` -/
def identitiesAre (items : List (Value F)) (expected : List Identity) : Check Bool :=
  if items.all fun i => (namespacedIdentity i).1.hashable && (namespacedIdentity i).2.hashable then
    .ok (items.all (fun i => (identity? i).any (· ∈ expected)) &&
      expected.all fun e => items.any fun i => identity? i = some e)
  else .error .raised

/-- `kind namespace/name tail` -/
def about (kind : String) (i : Identity) (tail : String) : Failure :=
  told [.scalar kind, .scalar " ", i.1, .scalar "/", i.2, .scalar tail]

/-- One entry of a map by identity. -/
def keyed (kind : String) (item : Value F) : Check (Identity × Value F) :=
  match identity? item with
  | none => .error .raised
  | some i => do
    raiseIf (uid? item = none) (about kind i " has no stable UID")
    return (i, item)

/-- `exact_namespaced_map` -/
def exactNamespacedMap (items : List (Value F)) (expected : List Identity) (kind : String) :
    Check (List (Identity × Value F)) := do
  let differs := told [.scalar s!"live {kind} inventory differs from the exact release set"]
  raiseIf (items.length ≠ expected.length) differs
  let same ← identitiesAre items expected
  raiseIf (same = false) differs
  collect (keyed kind) items

/-- One more entry of a map by identity, with the UIDs in it. -/
def dynamicEntry (kind : String) (seen : List (Identity × Value F)) (item : Value F) :
    Check (List (Identity × Value F)) :=
  let invalid := told [.scalar s!"live {kind} inventory has an invalid or duplicate identity"]
  match (namespacedIdentity item).1.filled?, (namespacedIdentity item).2.filled?, uid? item with
  | some ns, some name, some uid => do
    raiseIf (seen.any (fun e => e.1 = (ns, name)) ∨ seen.any (fun e => uid? e.2 = some uid)) invalid
    return seen ++ [((ns, name), item)]
  | _, _, _ => .error invalid

/-- `dynamic_namespaced_map` -/
def dynamicNamespacedMap (items : List (Value F)) (kind : String) :
    Check (List (Identity × Value F)) := carry (dynamicEntry kind) [] items

def ownerReferences (item : Value F) : Value F :=
  ((metadata item).get? "ownerReferences").getD (.arr [])

/-- `one_controller_owner` -/
def oneControllerOwner (item : Value F) (kind : String) (i : Identity) : Check (Value F) :=
  match ownerReferences item with
  | .arr [owner] =>
    if owner.isObject && (owner.get "controller").isTrue then .ok owner
    else .error (about kind i " lacks one exact controller owner")
  | .arr _ => .error (about kind i " lacks one exact controller owner")
  | _ => .error (about kind i " has invalid owner references")

/-- `pod_spec` -/
def podSpec (item : Value F) : Value F :=
  match item.get? "spec" with
  | some (.obj fields) => .obj fields
  | _ => .obj []

/-- The images of a list of containers, `none` where one has none. -/
def imagesOf : List (Value F) → Option (List Text)
  | [] => some []
  | c :: cs => do
    let image ← (c.get "image").filled?
    let images ← imagesOf cs
    return image :: images

/-- `container_images` -/
def containerImages (spec : Value F) : Check (Option (List Text)) := do
  let regular ← spec.getOr "containers" (.arr [])
  let init ← spec.getOr "initContainers" (.arr [])
  match regular, init with
  | .arr (c :: cs), .arr init =>
    if (c :: cs ++ init).all Value.isObject then return imagesOf (c :: cs ++ init) else return none
  | _, _ => return none

/-- `spec.get("containers", []) + spec.get("initContainers", []) + ...`, of lists -/
def allContainers (spec : Value F) : Check (List (Value F)) := do
  let regular ← spec.getOr "containers" (.arr [])
  let init ← spec.getOr "initContainers" (.arr [])
  let ephemeral ← spec.getOr "ephemeralContainers" (.arr [])
  match regular, init, ephemeral with
  | .arr regular, .arr init, .arr ephemeral => return regular ++ init ++ ephemeral
  | _, _, _ => .error .raised

/-- `value in {None, 0}` -/
def noneOrZero (value : Value F) : Check Bool := value.inSet [.null, .int 0]

/-- The ports of one container. -/
def assertNoHostPortIn (label : List Text) (container : Value F) : Check Unit := do
  let ports ← container.getOr "ports" (.arr [])
  let ports ← ports.iterate
  each (fun port => do
    let hostPort ← port.getOr "hostPort" .null
    let absent ← noneOrZero hostPort
    raiseIf (absent = false) (told (label ++ [.scalar " declares a hostPort"]))) ports

/-- `assert_no_host_port` -/
def assertNoHostPort (spec : Value F) (label : List Text) : Check Unit := do
  let containers ← allContainers spec
  each (assertNoHostPortIn label) containers

/-- `any(value not in allowed_capabilities for value in added)`, of a list -/
def addsCapability (allowed : List Text) : List (Value F) → Check Bool
  | [] => .ok false
  | value :: rest => do
    let known ← value.inSet (allowed.map .str)
    if known then addsCapability allowed rest else return true

/-- The capabilities of one container. -/
def assertRestrictedContainer (label : List Text) (allowed : List Text) (container : Value F) :
    Check Unit := do
  let privileged := told (label ++ [.scalar " contains a privileged container capability"])
  let security ← container.getOr "securityContext" (.obj [])
  let capabilities ← security.getOr "capabilities" (.obj [])
  let added ← capabilities.getOr "add" (.arr [])
  raiseIf ((security.get "privileged").isTrue = true) privileged
  raiseIf ((security.get "allowPrivilegeEscalation").isTrue = true) privileged
  raiseIf ((security.get "procMount").eq (.text "Unmasked") = true) privileged
  match added with
  | .arr added =>
    let adds ← addsCapability allowed added
    raiseIf (adds = true) privileged
  | _ => .error privileged

/-- `assert_restricted_spec` -/
def assertRestrictedSpec (spec : Value F) (label : List Text) (allowed : List Text) : Check Unit := do
  each (fun field => do
    let value ← spec.getOr field .null
    raiseIf (value.isTrue = true) (told (label ++ [.scalar " enters a host namespace"])))
    ["hostNetwork", "hostPID", "hostIPC"]
  let volumes ← spec.getOr "volumes" (.arr [])
  let volumes ← volumes.iterate
  each (fun volume => do
    let mounts ← volume.containsText "hostPath"
    raiseIf (mounts = true) (told (label ++ [.scalar " mounts a hostPath"]))) volumes
  let containers ← allContainers spec
  each (assertRestrictedContainer label allowed) containers
  assertNoHostPort spec label

/-- `value != expected` of a number -/
def differs (value : Value F) (expected : ℤ) : Bool := !value.eq (.int expected)

/-- `stable_deployment` -/
def stableDeployment (item : Value F) (i : Identity) : Check ℤ := do
  let unstable := about "Deployment" i " is not exactly stable"
  let spec ← item.getOr "spec" (.obj [])
  let status ← item.getOr "status" (.obj [])
  let replicas ← spec.getOr "replicas" .null
  match replicas.int?, ((metadata item).get "generation").int? with
  | some replicas, some generation => do
    raiseIf (replicas < 1 ∨ generation < 1) unstable
    let observed ← status.getOr "observedGeneration" .null
    raiseIf (differs observed generation = true) unstable
    each (fun field => raiseIf (differs (status.get field) replicas = true) unstable)
      ["replicas", "updatedReplicas", "readyReplicas", "availableReplicas"]
    let available ← noneOrZero (status.get "unavailableReplicas")
    raiseIf (available = false) unstable
    return replicas
  | _, _ => .error unstable

/-- `stable_daemonset` -/
def stableDaemonset (item : Value F) (i : Identity) : Check ℤ := do
  let unstable := about "DaemonSet" i " is not exactly stable"
  let status ← item.getOr "status" (.obj [])
  let desired ← status.getOr "desiredNumberScheduled" .null
  match ((metadata item).get "generation").int?, desired.int? with
  | some generation, some desired => do
    raiseIf (generation < 1) unstable
    raiseIf (differs (status.get "observedGeneration") generation = true) unstable
    raiseIf (desired ≠ 1) unstable
    each (fun field => raiseIf (differs (status.get field) desired = true) unstable)
      ["currentNumberScheduled", "updatedNumberScheduled", "numberReady", "numberAvailable"]
    each (fun field => do
      let none' ← noneOrZero (status.get field)
      raiseIf (none' = false) unstable) ["numberMisscheduled", "numberUnavailable"]
    return desired
  | _, _ => .error unstable

end RuntimeInventory
