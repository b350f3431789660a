import Mathlib
import WebsiteInfrastructure.Library.Regex
import WebsiteInfrastructure.Repository.Tree

/-!
# The egress of the Flux controllers

The fail-closed NetworkPolicies of `flux-system`, the patch that closes the generated blanket rule
and the canary that proves the path to the API server.
-/

namespace Repository

open Regex Pattern

def fluxEgressPolicies : List String :=
  ["default-deny", "flux-controllers-dns", "flux-controllers-artifacts",
    "flux-controllers-public-https", "flux-controllers-kube-apiserver"]

def fluxControlPlaneSentinel : String := "sentinel-until-private-calico-api-endpoint-set"

def fluxApiCanaryName : String := "flux-api-reachability-canary"

def egressPoliciesPath : Path := ["kubernetes", "flux-system", "egress", "network-policies.yaml"]

def controllersPath (rest : Path) : Path := ["kubernetes", "flux-system", "controllers"] ++ rest

def canaryPath (name : String) : Path := ["kubernetes", "flux-system", "canary", name]

def fluxRootPath : Path := ["kubernetes", "flux-system", "kustomization.yaml"]

/-- `^\s*key:\s*value\s*$` -/
def fieldLine (key value : String) : Pattern := line [lit (key ++ ":"), spaces, lit value]

/-- `^\s*-\s+name\s*(?:#.*)?$` -/
def resourceLine (name : String) : Pattern :=
  all [bol, spaces, lit "-", plus space, lit name, spaces,
    opt (seq (lit "#") (star (char (· ≠ '\n')))), eol]

def activeKustomizationResource (text : Text) (name : String) : Bool := (resourceLine name).found text

/-- `^---\s*$` -/
def documentMark : Pattern := all [bol, lit "---", spaces, eol]

/-- `^\s*policyTypes:\s*\n\s*-\s*Ingress\s*\n\s*-\s*Egress\s*$` -/
def bothPolicyTypes : Pattern :=
  line [lit "policyTypes:", spaces, lit "\n", spaces, lit "-", spaces, lit "Ingress", spaces,
    lit "\n", spaces, lit "-", spaces, lit "Egress"]

/-- The errors about the policies themselves. -/
def policyErrors (text : Text) : List String :=
  let exactDefaultDeny := (documentMark.split text).filter fun doc =>
    (fieldLine "name" "default-deny").found doc && (fieldLine "namespace" "flux-system").found doc &&
      bothPolicyTypes.found doc
  ((fluxEgressPolicies.filter fun name => !(fieldLine "name" name).found text).map
      ("required flux-system egress NetworkPolicy missing: " ++ ·)) ++
    flag (exactDefaultDeny.length ≠ 1) "exact ingress+egress default-deny missing for flux-system" ++
    flag (!includes text fluxControlPlaneSentinel)
      "flux-system API-server egress must keep its unresolved control-plane sentinel"

def allowEgressErrors (tree : Tree) : Check (List String) :=
  let patch := controllersPath ["patches", "allow-egress.yaml"]
  if !tree.isFile patch then .ok ["generated allow-egress blanket rule is not patched away"]
  else do
    let text ← tree.read patch
    return flag
      (!(all [bol, lit "-", spaces, lit "op:", spaces, lit "remove", spaces, eol]).found text ||
        !includes text "path: /spec/egress")
      "allow-egress patch must remove /spec/egress and nothing else"

def namespacePatchErrors (tree : Tree) : Check (List String) :=
  let patch := controllersPath ["patches", "namespace.yaml"]
  if !tree.isFile patch then .ok ["flux-system Pod Security enforcement patch is missing"]
  else do
    let text ← tree.read patch
    let fragments := ["pod-security.kubernetes.io~1enforce", "value: restricted", "value: v1.36"]
    return (fragments.filter fun fragment => !includes text fragment).map
      ("flux-system Pod Security patch must enforce restricted at a pinned version: " ++ ·)

def installRootErrors (tree : Tree) : Check (List String) :=
  let index := controllersPath ["kustomization.yaml"]
  if !tree.isFile index then .ok ["Flux controller install root is missing"]
  else do
    let text ← tree.read index
    return (["patches/allow-egress.yaml", "patches/namespace.yaml"].filter fun referenced =>
      !includes text referenced).map ("Flux controller install root does not apply " ++ ·)

def egressIndexErrors (tree : Tree) : Check (List String) :=
  let index := ["kubernetes", "flux-system", "egress", "kustomization.yaml"]
  if !tree.isFile index then .ok ["Flux egress Kustomization root is missing"]
  else do
    let text ← tree.read index
    return flag (!activeKustomizationResource text "network-policies.yaml")
      "Flux egress resource is not reachable from its root"

def requiredCanaryFragments : List String :=
  ["kind: Pod", "name: " ++ fluxApiCanaryName, "namespace: flux-system", "app: source-controller",
    "app.kubernetes.io/part-of: flux", "serviceAccountName: source-controller",
    "value: kubernetes.default.svc", "- --raw=/api", "automountServiceAccountToken: true",
    "readOnlyRootFilesystem: true", "allowPrivilegeEscalation: false"]

/-- The errors about the image of the canary. -/
def canaryImageErrors (versions canary : Text) : List String :=
  let pin := all [bol, lit "FLUX_API_CANARY_IMAGE=", group "image" word, eol]
  match pin.search versions with
  | none => ["versions.env is missing FLUX_API_CANARY_IMAGE"]
  | some m => flag (!includes canary (String.ofList ("image: ".toList ++ m.group "image")))
      "Flux API-path canary image does not match versions.env"

def canaryErrors (tree : Tree) : Check (List String) :=
  if !tree.isFile (canaryPath "kustomization.yaml") || !tree.isFile (canaryPath "pod.yaml") then
    .ok ["Flux API-path canary root or Pod is missing"]
  else do
    let index ← tree.read (canaryPath "kustomization.yaml")
    let canary ← tree.read (canaryPath "pod.yaml")
    let versions ← tree.readOr ["versions.env"]
    let entersHost := ["hostNetwork", "hostPID", "hostIPC"].any fun field =>
      (fieldLine field "true").found canary
    return flag (!activeKustomizationResource index "pod.yaml")
        "Flux API-path canary Pod is not reachable from its own root" ++
      ((requiredCanaryFragments.filter fun fragment => !includes canary fragment).map
        ("Flux API-path canary is missing: " ++ ·)) ++
      canaryImageErrors versions canary ++
      flag entersHost "Flux API-path canary must not enter a host namespace"

def rendererErrors (tree : Tree) : Check (List String) :=
  if !tree.isFile ["scripts", "render-manifests.sh"] then .ok ["canonical renderer is missing"]
  else do
    let text ← tree.read ["scripts", "render-manifests.sh"]
    return flag (!(line [lit "kubernetes/flux-system/egress"]).found text)
        "flux-system egress overlay is not a rendered target" ++
      flag (!(line [lit "kubernetes/flux-system/canary"]).found text)
        "flux-system API-path canary is not a rendered target"

def rootIndexErrors (tree : Tree) : Check (List String) :=
  if !tree.isFile fluxRootPath then .ok []
  else do
    let text ← tree.read fluxRootPath
    return flag (activeKustomizationResource text "egress")
        "flux-system egress must not be reachable from the unsuspended bootstrap root" ++
      flag (activeKustomizationResource text "canary")
        "flux-system API-path canary must not be reachable from the bootstrap root"

def fluxEgressContractErrors (tree : Tree) : Check (List String) :=
  if !tree.isFile egressPoliciesPath then
    .ok ["fail-closed flux-system egress NetworkPolicies are missing"]
  else do
    let text ← tree.read egressPoliciesPath
    let allowEgress ← allowEgressErrors tree
    let namespacePatch ← namespacePatchErrors tree
    let installRoot ← installRootErrors tree
    let egressIndex ← egressIndexErrors tree
    let canary ← canaryErrors tree
    let renderer ← rendererErrors tree
    let rootIndex ← rootIndexErrors tree
    return policyErrors text ++ allowEgress ++ namespacePatch ++ installRoot ++ egressIndex ++
      canary ++ renderer ++ rootIndex

/-- A tree without egress errors keeps the sentinel. -/
theorem sentinel_of_fluxEgressContractErrors {tree : Tree}
    (h : fluxEgressContractErrors tree = .ok []) : tree.isFile egressPoliciesPath = true ∧
      ∃ text, tree.read egressPoliciesPath = .ok text ∧
        includes text fluxControlPlaneSentinel = true := by
  unfold fluxEgressContractErrors at h
  split at h
  · cases h
  · rename_i hfile
    refine ⟨by simpa using hfile, ?_⟩
    obtain ⟨text, htext, hrest⟩ := Raising.bind_eq_ok.mp h
    refine ⟨text, htext, ?_⟩
    simp only [Raising.bind_eq_ok] at hrest
    obtain ⟨_, -, _, -, _, -, _, -, _, -, _, -, _, -, hnil⟩ := hrest
    have herrors := Except.ok.inj hnil
    simp only [List.append_eq_nil_iff, policyErrors, flag_eq_nil, Bool.not_eq_false'] at herrors
    tauto

end Repository
