import Mathlib
import WebsiteInfrastructure.Policy.Documents
import WebsiteInfrastructure.Library.Rbac

/-!
# The deny rules for Roles and ClusterRoles

Every other deny rule of the policy asks for another kind first.
-/

namespace Policy

open Rego Rbac

def restrictedRoleNamespaces : List String :=
  ["cloudflare-public", "naranjo-online", "lidersea-com", "obsidian"]

def helmReconcilerAccounts : List (String × String) :=
  [("cloudflare-public", "helm-reconciler"), ("naranjo-online", "helm-reconciler"),
    ("lidersea-com", "helm-reconciler"), ("obsidian", "obsync-helm-reconciler")]

def claimLifecycleNamespaces : List String := ["naranjo-online", "obsidian"]

def applicationClaims : List (String × List String) :=
  [("obsidian", ["obsync-blobs", "obsync-journal"])]

def fluxAggregationRoles : List String := ["flux-edit-flux-system", "flux-view-flux-system"]

def fluxRbacNamespaces : List String := ["flux-system", "cloudflare-public"] ++ chartSourceNamespaces

def fluxExecutionApiGroups : List String :=
  ["source.toolkit.fluxcd.io", "kustomize.toolkit.fluxcd.io", "helm.toolkit.fluxcd.io"]

section

variable (input : Term)

/-- `some rule in object.get(input, "rules", [])` -/
def rules : List Term := (Ref.get input "rules" (.arr [])).each

/-- `object.get(rule, field, [])` -/
def listed (rule : Term) (field : String) : Ref := Ref.get rule field (.arr [])

/-- `"text" in object.get(rule, field, [])` -/
def lists (rule : Term) (field text : String) : Bool :=
  holds ((listed rule field).contains (.str text))

/-! ## Reviewed rules -/

/-- A rule that lists exactly these. -/
def ruleOf (apiGroups resources verbs : List String) : Term :=
  .obj [("apiGroups", .strings apiGroups), ("resources", .strings resources),
    ("verbs", .strings verbs)]

/-- `input.metadata.name == helm_reconciler_accounts[input.metadata.namespace]` -/
def namesHelmReconciler : Bool :=
  holds do
    let account ← Ref.among helmReconcilerAccounts (inp input ["metadata", "namespace"])
    (inp input ["metadata", "name"]).equals (.str account)

def validHelmReadbackRule (rule : Term) : Bool :=
  namesHelmReconciler input && namespaceIs input tenantNamespaces &&
    (rule = ruleOf [""] ["pods"] ["get", "list", "watch"] ||
      rule = ruleOf ["apps"] ["replicasets"] ["get", "list", "watch"])

def validClaimLifecycleRule (rule : Term) : Bool :=
  namespaceIs input claimLifecycleNamespaces &&
    (nameIs input ["helm-reconciler"] && rule = ruleOf [""] ["persistentvolumeclaims"]
        ["get", "list", "watch", "create", "update", "patch", "delete"] ||
      namesHelmReconciler input &&
        (rule = ruleOf [""] ["persistentvolumeclaims"] ["list", "watch", "create"] ||
          (Ref.among applicationClaims (inp input ["metadata", "namespace"])).any fun claims =>
            rule = .obj [("apiGroups", .strings [""]), ("resourceNames", .strings claims),
              ("resources", .strings ["persistentvolumeclaims"]),
              ("verbs", .strings ["get", "update", "patch", "delete"])]))

/-- The rules about the API group of sources. -/
def sourceRules : List Term :=
  (rules input).filter fun rule => lists rule "apiGroups" "source.toolkit.fluxcd.io"

def validKustomizeSecondarySourceRules : Bool :=
  sourceRules input = [ruleOf ["source.toolkit.fluxcd.io"]
    ["buckets", "gitrepositories", "ocirepositories"] ["get", "list", "watch"]]

def validHelmSourceRules : Bool :=
  (sourceRules input).length = 2 &&
    (sourceRules input).any (· = ruleOf ["source.toolkit.fluxcd.io"] ["helmcharts"]
      ["get", "list", "watch", "create", "update", "patch", "delete"]) &&
    (sourceRules input).any (· = ruleOf ["source.toolkit.fluxcd.io"] ["ocirepositories"]
      ["get", "list", "watch"])

/-! ## Deny rules -/

def denyClaimLifecycle : Bool :=
  kindIs input ["Role"] && (rules input).any fun rule =>
    lists rule "resources" "persistentvolumeclaims" && !validClaimLifecycleRule input rule &&
      hasNamespaceAndName input

def denyClusterClaims : Bool :=
  kindIs input ["ClusterRole"] && (rules input).any fun rule =>
    lists rule "resources" "persistentvolumeclaims" && hasName input

def denyWorkloadControl : Bool :=
  kindIs input ["Role"] && namespaceIs input restrictedRoleNamespaces &&
    (rules input).any fun rule => (listed rule "resources").each.any fun resource =>
      holds (Ref.isIn resource ["pods", "pods/exec", "replicasets", "daemonsets", "statefulsets",
        "jobs", "cronjobs"]) &&
      !validHelmReadbackRule input rule && hasNamespaceAndName input

/-- A wildcard in one of the fields of a rule. -/
def wildcard (rule : Term) : Bool :=
  ["apiGroups", "resources", "verbs"].any fun field => lists rule field "*"

def denyClusterWildcard (eager : Bool) : Bool :=
  kindIs input ["ClusterRole"] &&
    holdsNot eager ((inp input ["metadata", "name"]).isIn fluxAggregationRoles) &&
    (rules input).any fun rule => wildcard rule && hasName input

def denyWildcard : Bool :=
  kindIs input ["Role"] && namespaceIs input fluxRbacNamespaces &&
    (rules input).any fun rule => wildcard rule && hasNamespaceAndName input

def denyUnrestrictedImpersonation : Bool :=
  kindIs input ["Role", "ClusterRole"] && (rules input).any fun rule =>
    lists rule "verbs" "impersonate" && (listed rule "resourceNames").count = some 0 && hasName input

def denyClusterImpersonation : Bool :=
  kindIs input ["ClusterRole"] && (rules input).any fun rule =>
    lists rule "verbs" "impersonate" && hasName input

def denyTokenCreation : Bool :=
  kindIs input ["Role", "ClusterRole"] && (rules input).any fun rule =>
    lists rule "resources" "serviceaccounts/token" && hasName input

def denyFluxSecrets : Bool :=
  kindIs input ["Role"] && namespaceIs input ["flux-system"] && (rules input).any fun rule =>
    lists rule "resources" "secrets" && hasName input

def denyClusterSecrets : Bool :=
  kindIs input ["ClusterRole"] && (rules input).any fun rule =>
    lists rule "resources" "secrets" && hasName input

def denyClusterSecretWrites : Bool :=
  kindIs input ["ClusterRole"] && (rules input).any fun rule =>
    lists rule "resources" "secrets" && (listed rule "verbs").each.any fun verb =>
      holds (Ref.isIn verb ["create", "update", "patch", "delete", "deletecollection"]) &&
        hasName input

def denySharedExecution : Bool :=
  kindIs input ["ClusterRole"] && nameIs input ["crd-controller-flux-system"] &&
    (rules input).any fun rule => (listed rule "apiGroups").each.any fun group =>
      holds (Ref.isIn group fluxExecutionApiGroups)

def denyKustomizeSources : Bool :=
  kindIs input ["ClusterRole"] && nameIs input ["crd-controller-kustomize-flux-system"] &&
    !validKustomizeSecondarySourceRules input

def denyHelmSources : Bool :=
  kindIs input ["ClusterRole"] && nameIs input ["crd-controller-helm-flux-system"] &&
    !validHelmSourceRules input

/-- Whether some deny rule fires on a Role or a ClusterRole. -/
def denyRole (eager : Bool) : Bool :=
  denyClaimLifecycle input || denyClusterClaims input || denyWorkloadControl input ||
    denyClusterWildcard input eager || denyWildcard input ||
    denyUnrestrictedImpersonation input || denyClusterImpersonation input ||
    denyTokenCreation input || denyFluxSecrets input || denyClusterSecrets input ||
    denyClusterSecretWrites input || denySharedExecution input || denyKustomizeSources input ||
    denyHelmSources input

end

/-! ## What a document grants -/

/-- A list of strings as the API server decodes it; a null item is the empty string. -/
def decodeStrings : Ref → Option (List String)
  | none | some .null => some []
  | some (.arr items) => items.mapM fun
    | .str s => some s
    | .null => some ""
    | _ => none
  | _ => none

/-- A rule as the API server decodes it. -/
def decodeRule : Term → Option PolicyRule
  | .null => some ⟨[], [], [], []⟩
  | .obj fields => do
    return {
      verbs := ← decodeStrings (fields.lookup "verbs")
      apiGroups := ← decodeStrings (fields.lookup "apiGroups")
      resources := ← decodeStrings (fields.lookup "resources")
      resourceNames := ← decodeStrings (fields.lookup "resourceNames") }
  | _ => none

/-- The rules of a document, each beside what it decodes to. A document the API server cannot
decode grants nothing. -/
def decodeRules (input : Term) : List (Term × PolicyRule) :=
  match Ref.dot input "rules" with
  | some (.arr items) => (items.mapM fun t => (decodeRule t).map (t, ·)).getD []
  | _ => []

/-- Where no wildcard and no access to Secrets is to be granted. -/
def SecretsClosed (input : Term) : Prop :=
  kindIs input ["Role"] = true ∧ namespaceIs input ["flux-system"] = true ∨
    kindIs input ["ClusterRole"] = true ∧ nameIs input fluxAggregationRoles = false

/-- What Roles and ClusterRoles are to keep to. -/
structure Safe (input : Term) : Prop where
  impersonate : ∀ e ∈ decodeRules input, e.2.Grants "impersonate" →
    kindIs input ["Role"] = true ∧ e.2.resourceNames ≠ []
  secrets : SecretsClosed input → ∀ e ∈ decodeRules input, ∀ verb, ¬ e.2.GrantsOn verb "" "secrets"
  token : ∀ e ∈ decodeRules input, ¬ e.2.GrantsOnSub "create" "" "serviceaccounts" "token"

end Policy
