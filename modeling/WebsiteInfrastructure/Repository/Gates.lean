import Mathlib
import WebsiteInfrastructure.Repository.Egress

/-!
# The gates of a release

The checks of the validator as its entry point runs them. A tree passes the check of the manifests
only with the sentinel that the check of a release refuses.
-/

namespace Repository

open Raising

def directWorkloadNamespaces : List String := ["naranjo-online", "lidersea-com", "obsidian"]

def publicConnectorSites : List String := ["naranjo-online", "lidersea-com", "obsync"]

def disableConfigWatchersFlag : String := "--feature-gates=DisableConfigWatchers=true"

/-- What a release of a chart has been parsed to. -/
structure HelmReleaseState where
  suspended : Bool
  /-- `values.get(("connectors", site, "tokenRevision"))` -/
  tokenRevision : String → Option String

/-- The checks that the gates run besides their own, of which nothing is assumed. -/
structure Contracts where
  checkLayout : Tree → Check (List String)
  checkDependabot : Tree → Check (List String)
  checkPrivacy : Tree → Check (List String)
  checkMedia : Tree → Check (List String)
  checkSecrets : Tree → Check (List String)
  checkWorkflows : Tree → Check (List String)
  reviewedSourcePatchErrors : Tree → Check (List String)
  /-- The forbidden fields, bindings and images of the hand-written manifests. -/
  liveManifestErrors : Tree → Check (List String)
  fluxComponentsErrors : Tree → Check (List String)
  fluxAccessContractErrors : Text → List String
  fluxPerControllerContractErrors : Text → List String
  platformPrerequisiteContractErrors : Tree → Check (List String)
  fluxInstallCeremonyErrors : Tree → Check (List String)
  fluxRbacContractErrors : Tree → Check (List String)
  fluxSystemKustomizationErrors : Text → List String
  loadHelmRelease : Tree → Check HelmReleaseState
  requireSecretlessPublicRelease : Tree → Check Unit
  reviewedCapacityErrors : Tree → Bool → Check (List String)

section

variable (contracts : Contracts) (tree : Tree)

/-! ## The manifests -/

def signedChartSourceErrors : Check (List String) :=
  if tree.isSymlink fluxRootPath || !tree.isFile fluxRootPath then
    .ok ["Flux bootstrap Kustomization is missing or symbolic"]
  else match tree.read fluxRootPath with
    | .error .unavailable => .ok ["Flux bootstrap Kustomization is unavailable"]
    | .error failure => .error failure
    | .ok text => .ok (flag (contracts.fluxSystemKustomizationErrors text ≠ [])
        "Flux bootstrap Kustomization is non-canonical")

def requiredFragments : List (String × Path × List String) :=
  [("flux-system/controllers/patches/source-controller.yaml",
      controllersPath ["patches", "source-controller.yaml"],
      ["runAsNonRoot", "RuntimeDefault", "requests/ephemeral-storage", "limits/ephemeral-storage",
        "sizeLimit"]),
    ("flux-system/controllers/patches/kustomize-controller.yaml",
      controllersPath ["patches", "kustomize-controller.yaml"],
      ["--no-cross-namespace-refs=true", "--no-remote-bases=true",
        "--default-service-account=default", disableConfigWatchersFlag, "runAsNonRoot",
        "RuntimeDefault"]),
    ("flux-system/controllers/patches/helm-controller.yaml",
      controllersPath ["patches", "helm-controller.yaml"],
      ["--no-cross-namespace-refs=true", "--default-service-account=default",
        disableConfigWatchersFlag, "runAsNonRoot", "RuntimeDefault"]),
    ("flux-system/controllers/patches/allow-egress.yaml",
      controllersPath ["patches", "allow-egress.yaml"], ["- op: remove", "path: /spec/egress"]),
    ("flux-system/access.yaml", ["kubernetes", "flux-system", "access.yaml"],
      "namespace: cloudflare-public" :: directWorkloadNamespaces.map ("namespace: " ++ ·))]

/-- The errors about one file of required fragments. -/
def fragmentErrors (required : String × Path × List String) : Check (List String) :=
  if !tree.isFile required.2.1 then
    .ok ["required Flux hardening file missing: " ++ required.1]
  else do
    let text ← tree.read required.2.1
    return (required.2.2.filter fun fragment => !includes text fragment).map fun fragment =>
      "Flux hardening fragment missing from " ++ required.1 ++ ": " ++ fragment

/-- The errors about a file, if it is there. -/
def contentErrors (path : Path) (errors : Text → List String) : Check (List String) :=
  if tree.isFile path then do
    let text ← tree.read path
    return errors text
  else .ok []

def networkTemplatePath : Path :=
  ["kubernetes", "platform", "cloudflare-public", "chart", "templates", "network-policies.yaml"]

def networkTemplateErrors : Check (List String) := do
  let text ← tree.readOr networkTemplatePath
  let required := ["cloudflared-dns", "cloudflared-edge"] ++
    directWorkloadNamespaces.map ("cloudflared-" ++ ·)
  return (required.filter fun name => !includes text name).map
    ("required scoped NetworkPolicy missing: " ++ ·)

/-- The errors about `flux-system`. -/
def fluxErrors : Check (List String) := do
  let fragments ← collect (fragmentErrors tree) requiredFragments
  let access ← contentErrors tree ["kubernetes", "flux-system", "access.yaml"]
    contracts.fluxAccessContractErrors
  let perController ← contentErrors tree (controllersPath ["per-controller-rbac.yaml"])
    contracts.fluxPerControllerContractErrors
  let prerequisites ← contracts.platformPrerequisiteContractErrors tree
  let templates ← networkTemplateErrors tree
  let egress ← fluxEgressContractErrors tree
  let ceremony ← contracts.fluxInstallCeremonyErrors tree
  let rbac ← contracts.fluxRbacContractErrors tree
  return fragments.flatten ++ access ++ perController ++ prerequisites ++ templates ++ egress ++
    ceremony ++ rbac

/-- `if flux.exists()` -/
def presentFluxErrors : Check (List String) :=
  if tree.isPresent ["kubernetes", "flux-system"] then fluxErrors contracts tree else .ok []

def checkKubernetes : Check (List String) := do
  let patches ← contracts.reviewedSourcePatchErrors tree
  let manifests ← contracts.liveManifestErrors tree
  let components ← contracts.fluxComponentsErrors tree
  let flux ← presentFluxErrors contracts tree
  let signed ← signedChartSourceErrors contracts tree
  return patches ++ manifests ++ components ++ flux ++ signed

/-! ## The release -/

/-- The contract of the connectors names no parent, and a parent at bootstrap neither. -/
def loadParentSuspension : Check Bool :=
  if tree.reconciliation ≠ [] then .error .nonCanonical else .ok true

def sentinelError : String :=
  "flux-system API-server egress still carries the unresolved control-plane sentinel"

def suspendedParentError : String := "parent Kustomization remains suspended: platform-services"

def unavailableReleaseError : String := "public tunnel release state is unavailable or non-canonical"

/-- `^[A-Z0-9_]+=UNRESOLVED$` -/
def unresolvedPin : Regex.Pattern :=
  .all [.bol, .plus (.char fun c => c.isUpper || c.isDigit || c = '_'), .lit "=UNRESOLVED", .eol]

def egressReleaseErrors : Check (List String) :=
  if !tree.isFile egressPoliciesPath then
    .ok ["required reviewed file missing: network-policies.yaml"]
  else do
    let text ← tree.read egressPoliciesPath
    return flag (includes text fluxControlPlaneSentinel) sentinelError

/-- `except (CanonicalYamlError, OSError, UnicodeError)`, with the errors found before. -/
def orUnavailable (found : List String) (rest : Check (List String)) : Check (List String) :=
  match rest with
  | .error .unavailable | .error .nonCanonical => .ok (found ++ [unavailableReleaseError])
  | .error failure => .error failure
  | .ok errors => .ok (found ++ errors)

def tunnelErrors : Check (List String) :=
  orUnavailable [] do
    let release ← contracts.loadHelmRelease tree
    let unresolved := publicConnectorSites.any fun site =>
      release.tokenRevision site ∈ [none, some "not-configured", some "UNRESOLVED"]
    orUnavailable
      (flag release.suspended "HelmRelease remains suspended: cloudflare-public" ++
        flag unresolved "public tunnel tokenRevision is unresolved")
      do
        let suspended ← loadParentSuspension tree
        return flag suspended suspendedParentError

def checkRelease : Check (List String) := do
  let versions ← tree.read ["versions.env"]
  let egress ← egressReleaseErrors tree
  let tunnel ← tunnelErrors contracts tree
  let signed ← signedChartSourceErrors contracts tree
  let capacity ← contracts.reviewedCapacityErrors tree false
  return flag (unresolvedPin.found versions) "versions.env still contains UNRESOLVED pins" ++
    flag (!tree.isFile (controllersPath ["gotk-components.yaml"]))
      "required reviewed/generated file missing: kubernetes/flux-system/controllers/gotk-components.yaml" ++
    egress ++ tunnel ++ signed ++ capacity

/-! ## The transition -/

inductive Phase
  | initial | staged | active
  deriving DecidableEq

inductive Mode
  | scaffold | transition | release
  deriving DecidableEq

structure TransitionPlan where
  mode : Mode
  cloudflarePublic : Phase
  platformSuspended : Bool

def TransitionPlan.anyWorkloadActive (plan : TransitionPlan) : Bool :=
  plan.cloudflarePublic = .active || !plan.platformSuspended

/-- Whether a site has its revision; a missing one raises `KeyError`. -/
def configured (release : HelmReleaseState) (site : String) : Check Bool :=
  match release.tokenRevision site with
  | none => .error .other
  | some revision => .ok (revision ∉ ["not-configured", "UNRESOLVED"])

def cloudflarePhase (platformSuspended : Bool) : Check Phase := do
  let release ← contracts.loadHelmRelease tree
  let flags ← collect (configured release) publicConnectorSites
  raiseIf (true ∈ flags ∧ false ∈ flags) .nonCanonical
  contracts.requireSecretlessPublicRelease tree
  match release.suspended, decide (true ∈ flags) with
  | true, false => return .initial
  | true, true => return .staged
  | false, true => if platformSuspended then .error .nonCanonical else return .active
  | false, false => .error .nonCanonical

def classify : Check TransitionPlan := do
  let platformSuspended ← loadParentSuspension tree
  let phase ← cloudflarePhase contracts tree platformSuspended
  let mode : Mode :=
    if phase = .initial ∧ platformSuspended = true then .scaffold
    else if phase = .active ∧ platformSuspended = false then .release
    else .transition
  return ⟨mode, phase, platformSuspended⟩

def releasePath : Path := ["kubernetes", "platform", "cloudflare-public", "release", "release.yaml"]

/-- Of the one contract, whose parent has no file. -/
def activationRequested : Check Bool :=
  if !tree.isFile releasePath then .ok false
  else match contracts.loadHelmRelease tree with
    | .ok release => .ok (!release.suspended)
    | .error .unavailable | .error .nonCanonical => .ok true
    | .error failure => .error failure

def allowedTransitionReleaseErrors (plan : TransitionPlan) : List String :=
  [sentinelError] ++
    (if plan.cloudflarePublic ≠ .active then
      ["HelmRelease remains suspended: cloudflare-public", suspendedParentError] else []) ++
    (if plan.cloudflarePublic = .initial then ["public tunnel tokenRevision is unresolved"] else [])

def unsafeTransitionError : String := "release transition state is unavailable or unsafe"

/-- The check of a classified tree that claims no release. -/
def checkTransition (plan : TransitionPlan) (activationSignal : Bool) : Check (List String) :=
  if plan.mode = .scaffold then do
    let capacity ← contracts.reviewedCapacityErrors tree true
    return flag activationSignal "scaffold desired state contains a release activation signal" ++
      capacity
  else if !plan.anyWorkloadActive && !activationSignal then .ok []
  else do
    let release ← checkRelease contracts tree
    return (release.filter (· ∉ allowedTransitionReleaseErrors plan)).eraseDups

def checkActivation : Check (List String) :=
  match classify contracts tree with
  | .error .other => .error .other
  | .error _ => .ok [unsafeTransitionError]
  | .ok plan =>
    if plan.mode = .release then checkRelease contracts tree
    else match activationRequested contracts tree with
      | .error .other => .error .other
      | .error _ => .ok [unsafeTransitionError]
      | .ok activationSignal => checkTransition contracts tree plan activationSignal

/-! ## The entry point -/

inductive CheckName
  | layout | dependabot | privacy | media | secrets | workflows | kubernetes | activation | release
  deriving DecidableEq

namespace CheckName

/-- The names of the registry, in its order. -/
def registry : List CheckName :=
  [layout, dependabot, privacy, media, secrets, workflows, kubernetes, activation, release]

def run : CheckName → Check (List String)
  | layout => contracts.checkLayout tree
  | dependabot => contracts.checkDependabot tree
  | privacy => contracts.checkPrivacy tree
  | media => contracts.checkMedia tree
  | secrets => contracts.checkSecrets tree
  | workflows => contracts.checkWorkflows tree
  | kubernetes => checkKubernetes contracts tree
  | activation => checkActivation contracts tree
  | release => checkRelease contracts tree

/-- What the entry point takes from a check: `except (OSError, UnicodeError)`. -/
def outcome (name : CheckName) : Check (List String) :=
  match name.run contracts tree with
  | .error .unavailable => .ok ["safe public file snapshot is unavailable"]
  | result => result

end CheckName

/-- An argument of the entry point: the name of a check, or `all`. -/
abbrev Selection := Option CheckName

/-- The checks to run. -/
def selected (arguments : List Selection) : List CheckName :=
  if arguments = [] ∨ none ∈ arguments then CheckName.registry.filter (· ≠ .release)
  else if some .release ∈ arguments then CheckName.registry.filter (· ≠ .release) ++ [.release]
  else arguments.filterMap id

/-- The exit status. -/
def main (arguments : List Selection) : Check ℕ := do
  let failures ← collect (fun name => name.outcome contracts tree) (selected arguments)
  return if failures.flatten = [] then 0 else 1

/-- An error of a release that some tree gets rid of without an error of the manifests. -/
def Removable (error : String) : Prop :=
  ∃ tree, checkKubernetes contracts tree = .ok [] ∧
    ∃ errors, checkRelease contracts tree = .ok errors ∧ error ∉ errors

end

/-! ## What the gates ask for -/

variable {contracts : Contracts} {tree : Tree} {errors : List String}

theorem fluxRoot_of_signedChartSourceErrors (h : signedChartSourceErrors contracts tree = .ok []) :
    tree.isFile fluxRootPath = true := by
  unfold signedChartSourceErrors at h
  split at h
  · cases h
  · rename_i hfile
    simpa using (not_or.mp (Bool.or_eq_true_iff.not.mp hfile)).2

theorem egress_of_fluxErrors (h : fluxErrors contracts tree = .ok []) :
    fluxEgressContractErrors tree = .ok [] := by
  simp only [fluxErrors, bind_eq_ok] at h
  obtain ⟨_, -, _, -, _, -, _, -, _, -, egress, hegress, _, -, _, -, hnil⟩ := h
  have hnone := Except.ok.inj hnil
  simp only [List.append_eq_nil_iff] at hnone
  obtain ⟨⟨⟨-, rfl⟩, -⟩, -⟩ := hnone
  exact hegress

/-- A tree without errors of the manifests keeps the sentinel. -/
theorem sentinel_of_checkKubernetes (h : checkKubernetes contracts tree = .ok []) :
    tree.isFile egressPoliciesPath = true ∧ ∃ text, tree.read egressPoliciesPath = .ok text ∧
      includes text fluxControlPlaneSentinel = true := by
  simp only [checkKubernetes, bind_eq_ok] at h
  obtain ⟨_, -, _, -, _, -, flux, hflux, signed, hsigned, hnil⟩ := h
  have hnone := Except.ok.inj hnil
  simp only [List.append_eq_nil_iff] at hnone
  obtain ⟨⟨-, rfl⟩, rfl⟩ := hnone
  have hroot := tree.present_of_file _ (fluxRoot_of_signedChartSourceErrors hsigned)
  have hpresent : tree.isPresent ["kubernetes", "flux-system"] = true :=
    tree.present_parent _ "kustomization.yaml" hroot
  rw [presentFluxErrors, if_pos hpresent] at hflux
  exact sentinel_of_fluxEgressContractErrors (egress_of_fluxErrors hflux)

/-- The check of a release refuses the sentinel. -/
theorem sentinelError_mem (hclean : checkKubernetes contracts tree = .ok [])
    (hrelease : checkRelease contracts tree = .ok errors) : sentinelError ∈ errors := by
  obtain ⟨hfile, text, htext, hsentinel⟩ := sentinel_of_checkKubernetes hclean
  simp only [checkRelease, bind_eq_ok] at hrelease
  obtain ⟨_, -, egress, hegress, _, -, _, -, _, -, herrors⟩ := hrelease
  have hsame : egress = [sentinelError] := by
    rw [egressReleaseErrors, hfile, htext] at hegress
    rw [← Except.ok.inj hegress, hsentinel]
    rfl
  rw [← Except.ok.inj herrors, hsame]
  simp

theorem not_removable : ¬ Removable contracts sentinelError := by
  rintro ⟨tree, hclean, errors, hrelease, habsent⟩
  exact habsent (sentinelError_mem hclean hrelease)

/-- Whatever the tree, its parent counts as suspended. -/
theorem loadParentSuspension_ne_false : loadParentSuspension tree ≠ .ok false := by
  unfold loadParentSuspension
  split <;> simp

theorem orUnavailable_ne_nil {found : List String} {rest : Check (List String)}
    (h : rest ≠ .ok []) : orUnavailable found rest ≠ .ok [] := by
  unfold orUnavailable
  split
  · simp
  · simp
  · simp
  · rename_i errors
    have hne : errors ≠ [] := fun hnil => h (by rw [hnil])
    simp [hne]

theorem tunnelErrors_ne_nil : tunnelErrors contracts tree ≠ .ok [] := by
  apply orUnavailable_ne_nil
  intro h
  obtain ⟨release, -, h⟩ := bind_eq_ok.mp h
  apply orUnavailable_ne_nil _ h
  intro h
  obtain ⟨suspended, hsuspended, h⟩ := bind_eq_ok.mp h
  have hfalse : suspended = false := by
    simpa using flag_eq_nil.mp (Except.ok.inj h)
  exact loadParentSuspension_ne_false (hfalse ▸ hsuspended)

theorem checkRelease_ne_nil : checkRelease contracts tree ≠ .ok [] := by
  intro h
  simp only [checkRelease, bind_eq_ok] at h
  obtain ⟨_, -, _, -, tunnel, htunnel, _, -, _, -, hnil⟩ := h
  have hnone := Except.ok.inj hnil
  simp only [List.append_eq_nil_iff] at hnone
  obtain ⟨⟨⟨-, rfl⟩, -⟩, -⟩ := hnone
  exact tunnelErrors_ne_nil htunnel

/-- No tree passes the gates of a release. -/
theorem main_release_ne_zero : main contracts tree [some .release] ≠ .ok 0 := by
  intro h
  obtain ⟨failures, hfailures, hstatus⟩ := bind_eq_ok.mp h
  have hnone : failures.flatten = [] := by
    by_contra hne
    rw [if_neg hne] at hstatus
    cases hstatus
  have hrelease : CheckName.release ∈ selected [some .release] := by decide
  obtain ⟨outcome, hmem, houtcome⟩ := mem_of_collect hfailures _ hrelease
  have hnil : outcome = [] := List.eq_nil_of_subset_nil fun e he =>
    hnone ▸ List.mem_flatten.mpr ⟨outcome, hmem, he⟩
  rw [hnil, CheckName.outcome] at houtcome
  split at houtcome
  · cases houtcome
  · exact checkRelease_ne_nil houtcome

theorem mode_ne_release {plan : TransitionPlan} (h : classify contracts tree = .ok plan) :
    plan.mode ≠ .release := by
  obtain ⟨suspended, hsuspended, h⟩ := bind_eq_ok.mp h
  obtain ⟨phase, -, h⟩ := bind_eq_ok.mp h
  obtain rfl := Except.ok.inj h
  have htrue : suspended = true := by
    by_contra hne
    exact loadParentSuspension_ne_false (Bool.eq_false_of_not_eq_true hne ▸ hsuspended)
  cases phase <;> simp [htrue]

/-- The gates of a release contradict each other, whatever the other checks are: of a tree without
errors of the manifests the check of a release has an error that no such tree gets rid of. -/
theorem release_gates_conflict (hclean : checkKubernetes contracts tree = .ok [])
    (hrelease : checkRelease contracts tree = .ok errors) :
    (sentinelError ∈ errors ∧ ¬ Removable contracts sentinelError) ∧
      (∀ tree, main contracts tree [some .release] ≠ .ok 0) ∧
        ∀ tree plan, classify contracts tree = .ok plan → plan.mode ≠ .release :=
  ⟨⟨sentinelError_mem hclean hrelease, not_removable⟩, fun _ => main_release_ne_zero,
    fun _ _ => mode_ne_release⟩

/-! ## The tree of the repository -/

/-- What the other checks find on the tree of the repository: nothing, of a release that remains
suspended. -/
def sampleContracts : Contracts where
  checkLayout _ := .ok []
  checkDependabot _ := .ok []
  checkPrivacy _ := .ok []
  checkMedia _ := .ok []
  checkSecrets _ := .ok []
  checkWorkflows _ := .ok []
  reviewedSourcePatchErrors _ := .ok []
  liveManifestErrors _ := .ok []
  fluxComponentsErrors _ := .ok []
  fluxAccessContractErrors _ := []
  fluxPerControllerContractErrors _ := []
  platformPrerequisiteContractErrors _ := .ok []
  fluxInstallCeremonyErrors _ := .ok []
  fluxRbacContractErrors _ := .ok []
  fluxSystemKustomizationErrors _ := []
  loadHelmRelease _ := .ok ⟨true, fun _ => some "not-configured"⟩
  requireSecretlessPublicRelease _ := .ok ()
  reviewedCapacityErrors _ _ := .ok []

/-- The egress policies, with the fields the checks look for. -/
def sampleEgressPolicies : List String :=
  ["metadata:", "  name: default-deny", "  namespace: flux-system", "spec:", "  policyTypes:",
    "    - Ingress", "    - Egress", "---", "metadata:", "  name: flux-controllers-dns", "---",
    "metadata:", "  name: flux-controllers-artifacts", "---", "metadata:",
    "  name: flux-controllers-public-https", "---", "metadata:",
    "  name: flux-controllers-kube-apiserver", "  annotations:",
    "    platform.snaraj.dev/readiness: sentinel-until-private-calico-api-endpoint-set"]

def sampleCanaryImage : String := "registry.k8s.io/kubectl:v1.36.4@sha256:" ++
  "b8d523e7b8cdc5e3caa0f8891ee9f504abf137dec786e6e0ddd33e4f272c2f13"

def sampleCanary : List String :=
  ["kind: Pod", "metadata:", "  name: flux-api-reachability-canary", "  namespace: flux-system",
    "  labels:", "    app: source-controller", "    app.kubernetes.io/part-of: flux", "spec:",
    "  automountServiceAccountToken: true", "  serviceAccountName: source-controller",
    "  containers:", "    - image: " ++ sampleCanaryImage, "      env:",
    "        - name: KUBERNETES_SERVICE_HOST", "          value: kubernetes.default.svc",
    "      args:", "        - --raw=/api", "      securityContext:",
    "        allowPrivilegeEscalation: false", "        readOnlyRootFilesystem: true"]

/-- The hardening of a controller, with the arguments it is patched with. -/
def sampleController (arguments : List String) : List String :=
  ["  path: /spec/template/spec/securityContext/runAsNonRoot", "    type: RuntimeDefault"] ++ arguments

/-- The files of the repository that the gates read themselves, without what they do not look at. -/
def sampleTree : Tree := .ofFiles [
  (["versions.env"], ["FLUX_API_CANARY_IMAGE=" ++ sampleCanaryImage]),
  (["scripts", "render-manifests.sh"],
    ["  kubernetes/flux-system/canary", "  kubernetes/flux-system/egress"]),
  (fluxRootPath, ["resources:", "  - controllers", "  - access.yaml"]),
  (["kubernetes", "flux-system", "access.yaml"],
    ["  namespace: cloudflare-public", "  namespace: naranjo-online", "  namespace: lidersea-com",
      "  namespace: obsidian"]),
  (egressPoliciesPath, sampleEgressPolicies),
  (["kubernetes", "flux-system", "egress", "kustomization.yaml"],
    ["resources:", "  - network-policies.yaml"]),
  (canaryPath "kustomization.yaml", ["resources:", "  - pod.yaml"]),
  (canaryPath "pod.yaml", sampleCanary),
  (controllersPath ["gotk-components.yaml"], []),
  (controllersPath ["kustomization.yaml"],
    ["    path: patches/allow-egress.yaml", "    path: patches/namespace.yaml"]),
  (controllersPath ["patches", "source-controller.yaml"], sampleController
    ["  path: /spec/template/spec/containers/0/resources/requests/ephemeral-storage",
      "  path: /spec/template/spec/containers/0/resources/limits/ephemeral-storage",
      "    sizeLimit: 768Mi"]),
  (controllersPath ["patches", "kustomize-controller.yaml"], sampleController
    ["  value: --no-cross-namespace-refs=true", "  value: --no-remote-bases=true",
      "  value: --default-service-account=default",
      "  value: --feature-gates=DisableConfigWatchers=true"]),
  (controllersPath ["patches", "helm-controller.yaml"], sampleController
    ["  value: --no-cross-namespace-refs=true", "  value: --default-service-account=default",
      "  value: --feature-gates=DisableConfigWatchers=true"]),
  (controllersPath ["patches", "allow-egress.yaml"], ["- op: remove", "  path: /spec/egress"]),
  (controllersPath ["patches", "namespace.yaml"],
    ["  path: /metadata/labels/pod-security.kubernetes.io~1enforce", "  value: restricted",
      "  path: /metadata/labels/pod-security.kubernetes.io~1enforce-version", "  value: v1.36"]),
  (networkTemplatePath, ["cloudflared-dns", "cloudflared-edge", "cloudflared-naranjo-online",
    "cloudflared-lidersea-com", "cloudflared-obsidian"])]

/-- What is left for a release of the tree of the repository. -/
def sampleErrors : List String :=
  [sentinelError, "HelmRelease remains suspended: cloudflare-public",
    "public tunnel tokenRevision is unresolved", suspendedParentError]

theorem sample_egress : fluxEgressContractErrors sampleTree = .ok [] := by
  have hindex : sampleTree.read (canaryPath "kustomization.yaml") =
      .ok (["resources:", "  - pod.yaml"].flatMap fun line => line.toList ++ ['\n']) := rfl
  have hpod : sampleTree.read (canaryPath "pod.yaml") =
      .ok (sampleCanary.flatMap fun line => line.toList ++ ['\n']) := rfl
  have hversions : sampleTree.readOr ["versions.env"] =
      .ok (["FLUX_API_CANARY_IMAGE=" ++ sampleCanaryImage].flatMap fun line =>
        line.toList ++ ['\n']) := rfl
  have hread : sampleTree.read egressPoliciesPath =
      .ok (sampleEgressPolicies.flatMap fun line => line.toList ++ ['\n']) := rfl
  -- with their literals spelled out the texts need not be decoded
  rw [sampleCanary] at hpod
  rw [sampleEgressPolicies] at hread
  delta sampleCanaryImage at hpod hversions
  simp only [List.flatMap_cons, List.flatMap_nil, String.toList_append] at hindex hpod hversions hread
  simp (disch := exact rfl) only [PythonText.toList_spelled] at hindex hpod hversions hread
  have hcanary : canaryErrors sampleTree = .ok [] := by
    rw [canaryErrors, if_neg (by decide), hindex, hpod, hversions]
    decide +kernel
  have hothers : allowEgressErrors sampleTree = .ok [] ∧ namespacePatchErrors sampleTree = .ok [] ∧
      installRootErrors sampleTree = .ok [] ∧ egressIndexErrors sampleTree = .ok [] ∧
      rendererErrors sampleTree = .ok [] ∧ rootIndexErrors sampleTree = .ok [] := by
    decide +kernel
  obtain ⟨hallow, hnamespace, hroot, hindex, hrenderer, hrootIndex⟩ := hothers
  rw [fluxEgressContractErrors, if_neg (by decide), hread, hallow, hnamespace, hroot, hindex,
    hcanary, hrenderer, hrootIndex]
  decide +kernel
theorem sample_clean : checkKubernetes sampleContracts sampleTree = .ok [] := by
  have hfragments : collect (fragmentErrors sampleTree) requiredFragments =
      .ok [[], [], [], [], []] := by
    decide +kernel
  have htemplates : networkTemplateErrors sampleTree = .ok [] := by decide +kernel
  have hflux : fluxErrors sampleContracts sampleTree = .ok [] := by
    rw [fluxErrors, hfragments, htemplates, sample_egress]
    rfl
  have hpresent : presentFluxErrors sampleContracts sampleTree = .ok [] := by
    rw [presentFluxErrors, if_pos (by decide), hflux]
  rw [checkKubernetes, hpresent]
  rfl

theorem sample_release : checkRelease sampleContracts sampleTree = .ok sampleErrors := by
  decide +kernel

theorem release_gates_conflict_sample :
    (sentinelError ∈ sampleErrors ∧ ¬ Removable sampleContracts sentinelError) ∧
      (∀ tree, main sampleContracts tree [some .release] ≠ .ok 0) ∧
        ∀ tree plan, classify sampleContracts tree = .ok plan → plan.mode ≠ .release :=
  release_gates_conflict sample_clean sample_release

/-- The errors of the repository's own release cannot all be removed. -/
theorem sentinel_stays : ¬ ∀ tree errors, checkKubernetes sampleContracts tree = .ok [] →
    checkRelease sampleContracts tree = .ok errors →
      ∀ e ∈ errors, Removable sampleContracts e := by
  intro h
  have hmem : sentinelError ∈ sampleErrors := by decide
  exact not_removable (h sampleTree sampleErrors sample_clean sample_release _ hmem)

end Repository
