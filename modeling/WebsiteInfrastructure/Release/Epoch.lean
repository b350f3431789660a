import Mathlib
import WebsiteInfrastructure.Library.Json
import WebsiteInfrastructure.Release.Version

/-!
# The release epochs

The repository changed its name once, and the signed release identity its schema three
times. `publication` admits a writer's edge, `validateIdentity` a signed document; both read
the same closed table of epochs, and they agree up to what the two have to know.
-/

namespace Release

open Json Raising

/-! ## The closed tables -/

def oldRepository : String := "snaraj/website-infrastructure"

def newRepository : String := "snaraj/platform"

def repositoryId : ℤ := 1327645656

def checkpointTag : String := "v0.1.68"

def checkpointSource : String := "b4bf0ac19038b1bca43651b601a348f8a84e7163"

def frozenSelectorDigest : String :=
  "sha256:c104c4b87f9932f08302fd30454605b3326794097cfbe5d4060db8f9cca5c003"

def frozenSelectorSource : String := "ce8598a9f0b4eca52cff231ed94137926df13c08"

def terminalV2Tag : String := "v0.1.77"

def terminalV2Source : String := "7b768d56a50f258ff893410c90e0cfd4401441c0"

/-- `version(FIRST_V3_TAG)` -/
def firstV3 : Version := ⟨0, 1, 78⟩

def workflow : String := ".github/workflows/platform-release.yml@refs/heads/main"

/-- `WORKFLOW.split("@", 1)[0]` -/
def workflowPath : String := ".github/workflows/platform-release.yml"

/-- `version(TERMINAL_V3_TAG)` -/
def terminalV3 : Version := ⟨0, 1, 80⟩

def terminalV3Source : String := "4f9b29339fec6ff06b37ecc0024b48cbe857f96f"

def recoveryWorkflow : String := ".github/workflows/platform-release-recovery.yml"

structure HistoricalRelease where
  sourceSha : String
  treeSha : String
  parentSha : String
  fragmentPath : String
  fragmentSha256 : String
  mainRunId : ℤ
  codeqlRunId : ℤ
  deriving DecidableEq, Repr

/-- `HISTORICAL_RELEASES` -/
def historicalReleases : List HistoricalRelease := [
  { sourceSha := "060c9678e130487b27cdaec395b0f1c5d74b9240"
    treeSha := "3ff155f933aba5e0e528d1f30a36357968031917"
    parentSha := terminalV3Source
    fragmentPath := "changelog.d/362-obsync-private-boundary.md"
    fragmentSha256 := "efcf3d946e417320cc7d75f724cc862470571946cfe5fa760404a240cd150df1"
    mainRunId := 34283118915
    codeqlRunId := 34283118636 },
  { sourceSha := "9cd79f1e69cfa00eb5467822831056101629c8f8"
    treeSha := "360078458d75927170d39c176479d14af0a58928"
    parentSha := "060c9678e130487b27cdaec395b0f1c5d74b9240"
    fragmentPath := "changelog.d/365-obsync-staged-readiness.md"
    fragmentSha256 := "546e5ad23459bd53a94b768668e1faa09ff1500fc1a34b5bf03d98a521d9b44a"
    mainRunId := 34305321734
    codeqlRunId := 34305321809 },
  { sourceSha := "3b7a0532ba5fe2f10037023f3e26ec5876f8d191"
    treeSha := "012b386dacf8dcffde5a78dba9af2897d229859d"
    parentSha := "9cd79f1e69cfa00eb5467822831056101629c8f8"
    fragmentPath := "changelog.d/367-reserved-file-storage.md"
    fragmentSha256 := "90e877f38e58ff5e7c7caa564bc2606c2c7138229b544a59c200ba24154e8009"
    mainRunId := 34638257426
    codeqlRunId := 34638258315 }]

variable {F : Type} [Interpreter F]

/-! ## Tags -/

def invalid {α : Type} (message : String) : Except Failure α :=
  .error (.builtin (.valueError message))

def version (tag : Value F) : Except Failure Version :=
  match tag with
  | .str (.scalar tag) =>
    if tag.length ≤ 64 then
      match matchTag tag with
      | some v => .ok v
      | none => invalid "release tag is malformed"
    else invalid "release tag is malformed"
  | _ => invalid "release tag is malformed"

def nextTag (tag : Value F) : Except Failure String := do
  let v ← version tag
  .ok (nextVersion (some v)).tag

/-- `TERMINAL_V1_TAG = next_tag(CHECKPOINT_TAG)` -/
def terminalV1 : Version := ⟨0, 1, 69⟩

/-- `FIRST_V2_TAG = next_tag(TERMINAL_V1_TAG)` -/
def firstV2 : Version := ⟨0, 1, 70⟩

/-- `FIRST_V4_TAG = next_tag(TERMINAL_V3_TAG)` -/
def firstV4 : Version := ⟨0, 1, 81⟩

/-- The loop of `historical_release`; the candidate tag is written by its version. -/
def historicalLoop (tag : Value F) : Version → List HistoricalRelease → Option HistoricalRelease
  | _, [] => none
  | candidate, source :: rest =>
    if tag.eq (.text candidate.tag) then some source
    else historicalLoop tag (nextVersion (some candidate)) rest

def historicalRelease (tag : Value F) : Option HistoricalRelease :=
  historicalLoop tag firstV4 historicalReleases

/-- The historical source is bound by its tag, not a default-target hint. -/
def releaseTarget (tag : Value F) (sourceSha : String) : Except Failure String :=
  match historicalRelease tag with
  | some frozen => do
    raiseIf (sourceSha ≠ frozen.sourceSha)
      (.builtin (.valueError "recovery target has a foreign source"))
    .ok "main"
  | none => .ok sourceSha

/-! ## Admission of a writer -/

/-- `isinstance(value, str) and re.fullmatch(r"[0-9a-f]{40}", value)` -/
def isShaValue : Value F → Bool
  | .str (.scalar s) => isSha s
  | _ => false

/-- `type(value) is int and value == n` -/
def isExactInt (value : Value F) (n : ℤ) : Bool :=
  match value with
  | .int m => m == n
  | _ => false

/-- `type(value) is int and value > 0` -/
def isPositiveInt : Value F → Bool
  | .int n => 0 < n
  | _ => false

/-- A permitted spelling never authorizes a replacement repository object. -/
def repository (name objectId : Value F) : Except Failure (Value F) := do
  raiseIf (¬ (name.eq (.text oldRepository) ∨ name.eq (.text newRepository)) ∨
      isExactInt objectId repositoryId = false)
    (.builtin (.valueError "repository name or immutable object identity is foreign"))
  .ok name

/-- The dict that `identity` returns; `selector` and `publisher` are pairs of its optional keys. -/
structure EpochIdentity where
  repository : String
  schema : String
  asset : String
  bundle : String
  subject : String
  version : ℕ
  selector : Option (String × String)
  publisher : Option (String × String)
  deriving DecidableEq, Repr

def epochOf (v : Version) : ℕ :=
  if v < firstV2 then 1 else if v < firstV3 then 2 else if v < firstV4 then 3 else 4

def identity (tag : Value F) : Except Failure EpochIdentity := do
  let v ← version tag
  let epoch := epochOf v
  let name := if epoch = 1 then oldRepository else newRepository
  let asset := "platform-release-identity.v" ++ toString epoch ++ ".json"
  let recovering := (historicalRelease tag).isSome
  let workflowOf := if recovering then recoveryWorkflow else workflowPath
  .ok
    { repository := name
      schema := "https://snaraj.dev/schemas/platform-release-identity/v" ++ toString epoch
      asset := asset
      bundle := asset ++ ".sigstore.json"
      subject := if epoch = 4 then
          "https://github.com/" ++ name ++ "/" ++ workflowOf ++ "@refs/heads/main"
        else "https://github.com/" ++ name ++ "/" ++ workflow
      version := epoch
      selector := if epoch < 3 then some (frozenSelectorDigest, frozenSelectorSource) else none
      publisher := if epoch = 4 then
          some (workflowOf, if recovering then "workflow_dispatch" else "workflow_run")
        else none }

/-- The v4 part of `publication`. -/
def publicationSource (tag baseSha sourceSha : Value F) : Except Failure Unit := do
  raiseIf (isShaValue sourceSha = false)
    (.builtin (.valueError "v4 publication requires its exact source SHA"))
  match historicalRelease tag with
  | some frozen =>
    raiseIf (¬ (sourceSha.eq (.text frozen.sourceSha) ∧ baseSha.eq (.text frozen.parentSha)))
      (.builtin (.valueError "historical publication source or predecessor is foreign"))
  | none =>
    raiseIf (∃ entry ∈ historicalReleases, sourceSha.eq (.text entry.sourceSha) = true)
      (.builtin (.valueError "historical source cannot choose another release edge"))

/-- Authorize the name/epoch only after the caller derives the exact edge. -/
def publication (name objectId tag baseTag baseSha sourceSha : Value F) :
    Except Failure EpochIdentity := do
  let _ ← repository name objectId
  raiseIf (isShaValue baseSha = false)
    (.builtin (.valueError "publication predecessor source is malformed"))
  let selected ← identity tag
  raiseIfAny [.ok (!name.eq (.text selected.repository)),
      do let next ← nextTag baseTag; .ok (!tag.eq (.text next))]
    (.builtin (.valueError "repository and release epoch or predecessor disagree"))
  raiseIf (name.eq (.text oldRepository) ∧ ¬ (tag.eq (.text terminalV1.tag) ∧
      baseTag.eq (.text checkpointTag) ∧ baseSha.eq (.text checkpointSource)))
    (.builtin (.valueError "old-name publication is only the terminal v1 edge"))
  raiseIf (tag.eq (.text firstV3.tag) ∧ ¬ (baseTag.eq (.text terminalV2Tag) ∧
      baseSha.eq (.text terminalV2Source)))
    (.builtin (.valueError "first v3 publication has a foreign terminal-v2 predecessor"))
  doIf (selected.version = 4) (publicationSource tag baseSha sourceSha)
  .ok selected

/-! ## Admission of a signed document -/

/-- `record[key]` -/
def item (record : Value F) (key : String) : Except Failure (Value F) :=
  match record with
  | .obj _ =>
    match record.get? key with
    | some value => .ok value
    | none => .error (.builtin .keyError)
  | _ => .error (.builtin .typeError)

/-- `record[key] != value` -/
def itemDiffers (record : Value F) (key : String) (value : Value F) : Except Failure Bool := do
  let actual ← item record key
  .ok (!actual.eq value)

/-- The condition on `execution["main_ci"]`. -/
def executionRunIsExact (run sourceSha : Value F) : Bool :=
  run.hasExactly
      ["conclusion", "event", "head_sha", "ref", "run_attempt", "run_id", "workflow"] &&
    (run.get "conclusion").eq (.text "success") && (run.get "event").eq (.text "push") &&
    (run.get "head_sha").eq sourceSha && (run.get "ref").eq (.text "refs/heads/main") &&
    (run.get "workflow").eq (.text ".github/workflows/pull-request.yml") &&
    isPositiveInt (run.get "run_id") && isPositiveInt (run.get "run_attempt")

/-- Bind current execution separately, only for the finite recovery set. -/
def validateExecution (evidence : Value F) : Except Failure Unit := do
  let execution ← item evidence "execution"
  raiseIf (execution.hasExactly ["source_sha", "tree_sha", "main_ci"] = false)
    (.builtin (.valueError "publication execution fields are foreign"))
  let executor := execution.get "source_sha"
  raiseIf (isShaValue executor = false ∨ isShaValue (execution.get "tree_sha") = false)
    (.builtin (.valueError "publication execution identity is malformed"))
  raiseIf (executionRunIsExact (execution.get "main_ci") executor = false)
    (.builtin (.valueError "publication execution main CI is foreign"))
  let source ← item evidence "source"
  let tag ← item evidence "tag"
  match historicalRelease (← item tag "name") with
  | some frozen =>
    raiseIfAny [
        itemDiffers source "merge_sha" (.text frozen.sourceSha),
        itemDiffers source "tree_sha" (.text frozen.treeSha),
        do itemDiffers (← item evidence "predecessor") "peeled_commit" (.text frozen.parentSha),
        itemDiffers evidence "changelog" (.obj [
          (.scalar "fragment_path", .text frozen.fragmentPath),
          (.scalar "fragment_sha256", .text ("sha256:" ++ frozen.fragmentSha256))]),
        do itemDiffers (← item evidence "main_ci") "run_id" (.int frozen.mainRunId),
        do itemDiffers (← item evidence "main_ci") "run_attempt" (.int 1),
        do itemDiffers (← item evidence "platform_release") "run_attempt" (.int 1),
        .ok (historicalReleases.any fun entry => executor.eq (.text entry.sourceSha)),
        .ok (executor.eq (.text terminalV3Source))]
      (.builtin (.valueError "historical execution or original evidence is foreign"))
  | none =>
    raiseIfAny [
        do .ok (!executor.eq (← item source "merge_sha")),
        do .ok (!(execution.get "tree_sha").eq (← item source "tree_sha")),
        do .ok (!(execution.get "main_ci").eq (← item evidence "main_ci"))]
      (.builtin (.valueError "ordinary publication cannot substitute its executor"))

/-- `predecessor != {"tag": CHECKPOINT_TAG, "peeled_commit": CHECKPOINT_SOURCE}`, negated. -/
def isCheckpoint (predecessor : Value F) : Bool :=
  predecessor.eq (.obj [(.scalar "peeled_commit", .text checkpointSource),
    (.scalar "tag", .text checkpointTag)])

/-- The check of the retired selector lineage. -/
def validateSelectorLineage (evidence : Value F) : Except Failure Unit := do
  let selector ← item evidence "selector"
  let digest ← item selector "digest"
  let provenance ← item selector "provenance"
  let source ← item provenance "source_sha"
  raiseIf (¬ (digest.eq (.text frozenSelectorDigest) ∧ source.eq (.text frozenSelectorSource)))
    (.builtin (.valueError "retired selector lineage changed"))

/-- Keep v1 bytes intact; its existing signed fields bind the terminal edge. -/
def validateIdentity (evidence : Value F) : Except Failure Unit := do
  let tag ← item (← item evidence "tag") "name"
  let selected ← identity tag
  raiseIf (¬ ((evidence.get "schema").eq (.text selected.schema) ∧
      (evidence.get "repository").eq (.text selected.repository)))
    (.builtin (.valueError "signed repository and release epoch disagree"))
  doIf (2 ≤ selected.version) do
    let _ ← repository (evidence.get "repository") (evidence.get "repository_id")
  let predecessor ← item evidence "predecessor"
  let next ← nextTag (← item predecessor "tag")
  raiseIf (tag.eq (.text next) = false)
    (.builtin (.valueError "signed release epoch has a foreign predecessor"))
  raiseIf (tag.eq (.text terminalV1.tag) ∧ isCheckpoint predecessor = false)
    (.builtin (.valueError "terminal v1 identity has a foreign checkpoint"))
  let v ← version tag
  doIf (selected.version < 3 ∧ terminalV1 ≤ v) (validateSelectorLineage evidence)
  doIf (selected.version = 4) (validateExecution evidence)

/-! ## Repository names of older records -/

/-- `None` is the null value. -/
def metadataRepository (tag name objectId : Value F) : Except Failure (Value F) := do
  let selected ← identity tag
  match name, objectId with
  | .null, .null =>
    raiseIf (selected.version ≠ 1)
      (.builtin (.valueError "v2 transport requires immutable repository proof"))
    .ok (.text selected.repository)
  | _, _ =>
    let _ ← repository name objectId
    raiseIf (name.eq (.text oldRepository) ∧ selected.version ≠ 1)
      (.builtin (.valueError "v2 identity cannot use the old repository transport"))
    .ok name

/-- Historical old-name records retain compatibility; aliases need object proof. -/
def runRepository (tag record : Value F) : Except Failure Unit := do
  let v ← version tag
  if v < terminalV1 ∧ (record.get "full_name").eq (.text oldRepository) ∧
      (record.get? "id").isNone then .ok ()
  else
    let _ ← repository (record.get "full_name") (record.get "id")
    let _ ← metadataRepository tag (record.get "full_name") (record.get "id")

end Release
