import Mathlib
import WebsiteInfrastructure.Release.Surface

/-!
# The tag-derived release ledger

`platformTagBoundaries` rebuilds the ledger of releases from the annotated `v*` tags. What
it accepts is stated by `Reads`: the tags, in any order, are exact release tags, and those
from the floor on form one chain of releases that add one fragment each.
-/

namespace Release

open CommitGraph PythonText Raising

def maxTagLedgerEntries : ℕ := 1024

def tagLedgerFloorTag : String := "v0.1.9"

def tagLedgerFloorSha : String := "02863737ec3759e03e032f0a478f4b5298c61a0b"

def releaseTaggerName : String := "github-actions[bot]"

def releaseTaggerEmail : String := "41898282+github-actions[bot]@users.noreply.github.com"

/-- `Version.parse(TAG_LEDGER_FLOOR_TAG.removeprefix("v"))` -/
def floorVersion : Version := ⟨0, 1, 9⟩

theorem tag_floorVersion : floorVersion.tag = tagLedgerFloorTag := by decide

structure TagBoundary where
  version : Version
  tag : String
  sourceSha : String
  deriving DecidableEq, Repr

namespace TagBoundary

/-- The fields in the order in which `dataclass(order=True)` compares them. -/
def key (b : TagBoundary) : Version ×ₗ String ×ₗ String :=
  toLex (b.version, toLex (b.tag, b.sourceSha))

theorem key_injective : Function.Injective key := by
  rintro ⟨a, b, c⟩ ⟨d, e, f⟩ h
  simpa [key] using h

instance : LinearOrder TagBoundary := LinearOrder.lift' key key_injective

theorem lt_of_version_lt {a b : TagBoundary} (h : a.version < b.version) : a < b := by
  change a.key < b.key
  rw [key, key, Prod.Lex.toLex_lt_toLex]
  exact .inl h

end TagBoundary

/-! ## The code -/

namespace Repository

variable (repository : Repository)

def tagFormat : String :=
  "--format=%(objecttype)%00%(*objecttype)%00%(tag)%00%(taggername)%00%(taggeremail)%00" ++
  "%(taggerdate:iso-strict)%00%(contents)%00%(*objectname)%00"

/-- The one `for-each-ref` record of a tag, split and decoded. Git ends each of the eight
fields with a NUL and prints none inside, so the count of fields is always right. -/
def tagMetadata (name : String) : Except Failure (TagFields String) :=
  match repository.firstRef name with
  | none => .error (.contractError ("platform tag " ++ name ++ " metadata is not bounded"))
  | some ref =>
    match repository.store.tagFields ref.oid with
    | none => .error (gitFailed ["for-each-ref", "--count=1", tagFormat, "refs/tags/" ++ name])
    | some fields =>
      match fields.decode with
      | none => .error (.contractError ("platform tag " ++ name ++ " metadata is not UTF-8"))
      | some fields => .ok fields

/-- What the tag object of an exact release of `sourceSha` shows. -/
def exactFields (name sourceSha date : String) : TagFields String where
  objectType := "tag"
  peeledType := "commit"
  embeddedName := name
  taggerName := releaseTaggerName
  taggerEmail := "<" ++ releaseTaggerEmail ++ ">"
  taggerDate := date
  message := "Platform release " ++ name ++ " from " ++ sourceSha
  sourceSha := sourceSha

/-- The body of the loop over the tag names, from the metadata on. -/
def readBoundary (version : Version) (name : String) : Except Failure TagBoundary := do
  let fields ← repository.tagMetadata name
  let sourceSha ← requireSha fields.sourceSha (name ++ " target")
  let expectedDate ← repository.store.showDate sourceSha
  raiseIf (fields ≠ exactFields name sourceSha expectedDate)
    (.contractError ("platform tag " ++ name ++ " metadata is not exact"))
  .ok ⟨version, name, sourceSha⟩

def readBoundaries : List Version → List String → Except Failure (List TagBoundary)
  | _, [] => .ok []
  | seenVersions, name :: names =>
    match matchTag name with
    | none => .error (.contractError ("platform tag is not canonical SemVer: " ++ PythonText.repr name))
    | some version => do
      raiseIf (version ∈ seenVersions) (.contractError "platform tag version is duplicated")
      let boundary ← repository.readBoundary version name
      let boundaries ← readBoundaries (version :: seenVersions) names
      .ok (boundary :: boundaries)

end Repository

/-- The negation of `boundary.source_sha == previous.source_sha or not _is_ancestor(...)`. -/
def isLaterSource (store : ObjectStore) (previous boundary : TagBoundary) : Except Failure Bool :=
  if boundary.sourceSha = previous.sourceSha then .ok false
  else store.isAncestor previous.sourceSha boundary.sourceSha

/-- The body of the loop over neighbouring boundaries. -/
def checkSuccessor (store : ObjectStore) (previous boundary : TagBoundary) :
    Except Failure Unit := do
  raiseIf (boundary.version ≠ nextVersion (some previous.version))
    (.contractError "tag-derived release ledger skips or reverses a patch")
  let later ← isLaterSource store previous boundary
  raiseIf (later = false)
    (.contractError "tag-derived release ledger is not one ancestral sequence")
  let _ ← linearCommits store previous.sourceSha boundary.sourceSha
  let intents ← releaseSurfaceIntents store previous.sourceSha boundary.sourceSha
  raiseIf (intents.length ≠ 1)
    (.contractError "every adjacent tag-derived release must bind exactly one fragment")

def checkLedger (store : ObjectStore) : TagBoundary → List TagBoundary → Except Failure Unit
  | _, [] => .ok ()
  | previous, boundary :: rest => do
    checkSuccessor store previous boundary
    checkLedger store boundary rest

/-- `boundaries.sort()` and the cut at the floor. -/
def cutAtFloor (boundaries : List TagBoundary) : List TagBoundary :=
  (boundaries.insertionSort (· ≤ ·)).filter fun b => floorVersion ≤ b.version

def platformTagBoundaries (repository : Repository) : Except Failure (List TagBoundary) := do
  let names ← repository.tagList
  raiseIf (maxTagLedgerEntries < names.length)
    (.contractError "tag-derived release ledger exceeds the 1024-entry validation bound")
  let boundaries ← repository.readBoundaries [] names
  let ledger := cutAtFloor boundaries
  match ledger with
  | [] => .error (.contractError "tag-derived release ledger has no migration floor")
  | floor :: rest => do
    raiseIf (floor.tag ≠ tagLedgerFloorTag ∨ floor.sourceSha ≠ tagLedgerFloorSha)
      (.contractError "tag-derived release ledger floor is not exact")
    checkLedger repository.store floor rest
    .ok ledger

/-! ## Specification -/

/-- The floor release. -/
def floorBoundary : TagBoundary := ⟨floorVersion, tagLedgerFloorTag, tagLedgerFloorSha⟩

/-- A release directly after another. -/
structure Successor (store : ObjectStore) (previous boundary : TagBoundary) : Prop where
  version : boundary.version = nextVersion (some previous.version)
  adds : ∃ path, Adds store previous.sourceSha boundary.sourceSha {path}

/-- What the code demands of the boundaries from the floor on. -/
structure IsLedger (store : ObjectStore) (ledger : List TagBoundary) : Prop where
  floor : ledger.head? = some floorBoundary
  chain : ledger.IsChain (Successor store)

/-- The tag reference is the exact annotated tag of the boundary. -/
structure ExactTag (store : ObjectStore) (ref : TagRef) (b : TagBoundary) : Prop where
  name : ref.name = .text b.tag
  tag : b.tag = b.version.tag
  sha : isSha b.sourceSha = true
  fields : ∃ date, store.showDate b.sourceSha = .ok date ∧
    (store.tagFields ref.oid).bind TagFields.decode =
      some (Repository.exactFields b.tag b.sourceSha date)

/-- The listed tags are exactly the tags of these boundaries. -/
structure Reads (repository : Repository) (boundaries : List TagBoundary) : Prop where
  exact : List.Forall₂ (ExactTag repository.store) repository.platformTags boundaries
  bound : boundaries.length ≤ maxTagLedgerEntries
  ledger : IsLedger repository.store (cutAtFloor boundaries)

end Release
