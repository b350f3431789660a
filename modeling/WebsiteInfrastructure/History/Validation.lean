import Mathlib
import WebsiteInfrastructure.Library.CommitRange
import WebsiteInfrastructure.Library.Sha256
import WebsiteInfrastructure.History.Predicates

/-!
# Validation of a publication range

What git lists of an object store, and the validator's two passes over every commit of a range.
`none` is a `ValidationFailure`.
-/

namespace History

open Utf8 CommitGraph

/-! ## The object store -/

/-- A subtree, or any other object under its mode, type and name. -/
inductive Node
  | leaf (mode objectType oid : String)
  | tree (children : List (Bytes × Node))

structure Commit where
  object : Bytes
  parents : List String
  tree : List (Bytes × Node)

/-- The full names of objects, SHA-1 or SHA-256. -/
def isObjectId (oid : String) : Bool :=
  let isHex := fun c : Char => ('0' ≤ c && c ≤ '9') || ('a' ≤ c && c ≤ 'f')
  (oid.length = 40 || oid.length = 64) && oid.toList.all isHex

structure Store where
  commit : String → Option Commit
  blob : String → Option Bytes
  depth : String → ℕ
  parent_depth : ∀ {oid c}, commit oid = some c → ∀ p ∈ c.parents, depth p < depth oid

namespace Store

variable (store : Store)

def parents (oid : String) : List String :=
  match store.commit oid with
  | some c => c.parents
  | none => []

theorem parents_depth {oid p : String} (hp : p ∈ store.parents oid) :
    store.depth p < store.depth oid := by
  unfold parents at hp
  split at hp
  · rename_i c hc
    exact store.parent_depth hc p hp
  · simp at hp

def graph : Graph String := ⟨store.parents, store.depth, store.parents_depth⟩

end Store

/-- What `ls-tree -r -z -l` prints of one entry that is no subtree. -/
structure Record where
  mode : String
  objectType : String
  oid : String
  size : Option ℕ
  path : Bytes
  deriving DecidableEq

def slash : Bytes := ascii "/"

/-- A path below a directory; the root has no name. -/
def below (directory name : Bytes) : Bytes :=
  if directory.isEmpty then name else directory ++ slash ++ name

mutual

/-- `ls-tree -r`: subtrees are descended into and not listed themselves. -/
def lsNode (store : Store) (path : Bytes) : Node → List Record
  | .leaf mode objectType oid =>
    [⟨mode, objectType, oid, if objectType = "blob" then (store.blob oid).map List.length else none,
      path⟩]
  | .tree children => lsTree store path children

def lsTree (store : Store) (path : Bytes) : List (Bytes × Node) → List Record
  | [] => []
  | (name, node) :: rest => lsNode store (below path name) node ++ lsTree store path rest

end

/-- Mode, type, name, the size padded to seven columns, the path and the final NUL. -/
def Record.inventoryBytes (r : Record) : ℕ :=
  let sizeText := match r.size with
    | some size => (Nat.toDigits 10 size).length
    | none => if r.objectType = "blob" then 3 else 1
  r.mode.length + 1 + r.objectType.length + 1 + r.oid.length + 1 + max 7 sizeText + 1 +
    r.path.length + 1

/-! ## Findings -/

structure Finding where
  label : String
  commit : String
  path : Option Bytes
  deriving DecidableEq

/-- `_path_digest` -/
def pathDigest (rawPath : Bytes) : String := String.ofList ((Sha256.hexdigest rawPath).toList.take 16)

/-- The lines that are printed: the first findings, and how many more there are. -/
def reported (findings : List Finding) : List String :=
  (findings.take maxFindingsReported).map (fun f =>
    "FAIL publication history: " ++ f.label ++ "; commit=" ++ f.commit ++
      (match f.path with
        | some rawPath => "; path_sha256=" ++ pathDigest rawPath
        | none => "")) ++
  if maxFindingsReported < findings.length then
    ["FAIL publication history: additional findings suppressed; count=" ++
      toString (findings.length - maxFindingsReported)]
  else []

/-! ## Commit objects -/

/-- `raw.split(b"\n\n", 1)` -/
def splitHeader : Bytes → Option (Bytes × Bytes)
  | [] => none
  | 10 :: 10 :: rest => some ([], rest)
  | b :: rest => (splitHeader rest).map fun (header, message) => (b :: header, message)

/-- `bytes.splitlines()` -/
def byteLines : Bytes → List Bytes
  | [] => []
  | 13 :: 10 :: rest => [] :: byteLines rest
  | b :: rest =>
    if b = 10 || b = 13 then [] :: byteLines rest
    else
      match byteLines rest with
      | [] => [[b]]
      | line :: lines => (b :: line) :: lines

def commitMetadata (s : Scans) (store : Store) (commit : String) : Option (List Finding) := do
  let c ← store.commit commit
  let raw := c.object
  if maxCommitObjectBytes < raw.length || raw.contains 0 then none
  else
    let (header, message) ← splitHeader raw
    let lines := byteLines header
    if (lines.filter ((ascii "author ").isPrefixOf ·)).length ≠ 1 ||
        (lines.filter ((ascii "committer ").isPrefixOf ·)).length ≠ 1 then none
    else
      some <|
        (if (decode? raw).isNone then [⟨"commit metadata is not UTF-8", commit, none⟩] else []) ++
        (s.textFindings raw "" false).map (fun label => ⟨"commit metadata " ++ label, commit, none⟩) ++
        (s.opaqueArtifactFinding message "").toList.map fun label =>
          ⟨"commit metadata " ++ label, commit, none⟩

/-! ## Trees -/

structure BlobEntry where
  rawPath : Bytes
  relativePath : String
  oid : String
  size : ℕ

structure TreeScan where
  findings : List Finding := []
  folded : List String := []
  total : ℕ := 0
  entries : List BlobEntry := []

/-- What the path and mode of a record give rise to. -/
def recordFindings (s : Scans) (commit : String) (folded : List String) (r : Record) :
    List Finding :=
  let relativePath := (decode? r.path).getD ""
  let finding := fun label => (⟨label, commit, some r.path⟩ : Finding)
  (if (decode? r.path).isNone then [finding "non-UTF-8 repository path"] else []) ++
  (if folded.contains (s.casefold relativePath) then
    [finding "case-colliding repository path"] else []) ++
  (pathFindings s relativePath).map finding ++
  (s.textFindings (encode relativePath) "" (isTestPath s relativePath)).map (fun label =>
    finding ("repository path " ++ label)) ++
  (if ["100644", "100755"].contains r.mode then []
    else [finding "symbolic or unsupported Git mode"]) ++
  if r.objectType = "blob" then [] else [finding "non-blob Git tree entry"]

def scanRecord (s : Scans) (commit : String) (t : TreeScan) (r : Record) : Option TreeScan :=
  let relativePath := (decode? r.path).getD ""
  let seen : TreeScan := { t with
    findings := t.findings ++ recordFindings s commit t.folded r
    folded := s.casefold relativePath :: t.folded }
  if r.objectType ≠ "blob" then some seen
  else if !isObjectId r.oid then none
  else
    match r.size with
    | none => none
    | some size =>
      if maxBlobBytes < size then
        some { seen with
          findings := seen.findings ++
            [⟨"blob exceeds publication size ceiling", commit, some r.path⟩]
          total := seen.total + size }
      else
        some { seen with
          total := seen.total + size
          entries := seen.entries ++ [⟨r.path, relativePath, r.oid, size⟩] }

/-- Findings, entries and inventory size of a commit's full tree. -/
def parseTree (s : Scans) (store : Store) (commit : String) :
    Option (List Finding × List BlobEntry × ℕ) := do
  let c ← store.commit commit
  let records := lsTree store [] c.tree
  let inventory := (records.map Record.inventoryBytes).sum
  if maxTreeInventoryBytes < inventory || maxTreeEntries < records.length then none
  else
    let t ← records.foldlM (scanRecord s commit) {}
    let oversize := if maxTreeBytes < t.total then
      [⟨"tree exceeds aggregate publication size ceiling", commit, none⟩] else []
    some (t.findings ++ oversize, t.entries, inventory)

/-! ## Blobs -/

/-- `sizes.setdefault(oid, size)`, and the size it must agree with. -/
def addSize (sizes : List (String × ℕ)) (e : BlobEntry) : Option (List (String × ℕ)) :=
  match sizes.lookup e.oid with
  | some previous => if previous = e.size then some sizes else none
  | none => some ((e.oid, e.size) :: sizes)

/-- Every object once, in one batch. -/
def readBlobs (store : Store) (sizes : List (String × ℕ)) : Option (List (String × Bytes)) :=
  if maxUniqueBlobBytes < (sizes.map Prod.snd).sum then none
  else
    sizes.mapM fun (oid, size) =>
      match store.blob oid with
      | some data => if data.length = size then some (oid, data) else none
      | none => none

def isPinnedStructuralSecretExample (s : Scans) (relativePath : String) (data : Bytes) : Bool :=
  s.casefold relativePath = structuralSecretExamplePath &&
    Sha256.hexdigest data = structuralSecretExampleSha256

/-- The asset tree that media at a path counts towards. -/
def mediaScope (s : Scans) (relativePath : String) (data : Bytes) : Option (String × String) :=
  if (mediaSuffixes.contains (s.casefold (pathSuffix relativePath)) || hasMediaMagic data) &&
      !approvedTextBadgePaths.contains (s.casefold relativePath) then assetScope s relativePath
  else none

/-- The labels for the content of one entry. -/
def contentFindings (s : Scans) (relativePath : String) (data : Bytes) : List String :=
  let lowered := s.casefold relativePath
  let suffix := s.casefold (pathSuffix relativePath)
  s.textFindings data relativePath (isTestPath s relativePath) ++
  (s.opaqueArtifactFinding data relativePath).toList ++
  (if mediaSuffixes.contains suffix || hasMediaMagic data then
    if approvedTextBadgePaths.contains lowered then
      if approvedBadgeViolation data then ["approved badge violates the strict text contract"] else []
    else
      match assetScope s relativePath with
      | none => ["media outside approved frontend asset tree"]
      | some _ =>
        if maxUiAssetBytes < data.length then ["frontend media exceeds size ceiling"] else []
  else []) ++
  (if textSuffixes.contains suffix && s.embedsMedia data then ["embedded media data URI"] else []) ++
  if lowered.startsWith "kubernetes/" && (lowered.endsWith ".yaml" || lowered.endsWith ".yml") &&
      s.containsSecretDocument data && !isPinnedStructuralSecretExample s relativePath data then
    ["committed Kubernetes Secret manifest"] else []

/-- The sizes counted per asset tree. -/
def assetTotals (media : List ((String × String) × ℕ)) : List ((String × String) × ℕ) :=
  (media.map Prod.fst).dedup.map fun scope =>
    (scope, ((media.filter (·.1 = scope)).map Prod.snd).sum)

/-- The second pass over one commit. -/
def inspectCommit (s : Scans) (blobs : List (String × Bytes)) (commit : String)
    (entries : List BlobEntry) : Option (List Finding) := do
  let contents ← entries.mapM fun e => (blobs.lookup e.oid).map fun data => (e, data)
  let media := contents.filterMap fun (e, data) =>
    (mediaScope s e.relativePath data).map fun scope => (scope, e.size)
  some <|
    contents.flatMap (fun (e, data) =>
      (contentFindings s e.relativePath data).map fun label => ⟨label, commit, some e.rawPath⟩) ++
    (assetTotals media).filterMap fun (_, total) =>
      if maxAssetTreeBytes < total then
        some ⟨"frontend media tree exceeds aggregate ceiling", commit, none⟩ else none

/-! ## The range -/

/-- `_outgoing_commits` -/
def outgoingCommits (store : Store) (baseline candidate : String) : Option (List String) :=
  let commits := store.graph.outgoing baseline candidate
  if commits.isEmpty || maxOutgoingCommits < commits.length ||
      commits.getLast? ≠ some candidate || !commits.Nodup || !commits.all isObjectId then none
  else some commits

structure Gathered where
  findings : List Finding := []
  commitEntries : List (String × List BlobEntry) := []
  sizes : List (String × ℕ) := []
  entries : ℕ := 0
  inventory : ℕ := 0

/-- The first pass over one commit. -/
def gatherCommit (s : Scans) (store : Store) (g : Gathered) (commit : String) : Option Gathered := do
  let metadata ← commitMetadata s store commit
  let (findings, entries, inventory) ← parseTree s store commit
  if maxAllTreeEntries < g.entries + entries.length ||
      maxAllTreeInventoriesBytes < g.inventory + inventory then none
  else
    let sizes ← entries.foldlM addSize g.sizes
    some ⟨g.findings ++ metadata ++ findings, g.commitEntries ++ [(commit, entries)], sizes,
      g.entries + entries.length, g.inventory + inventory⟩

/-- The findings of a range; it is publishable when there are none. -/
def validate (s : Scans) (store : Store) (baseline candidate : String) : Option (List Finding) := do
  let commits ← outgoingCommits store baseline candidate
  let g ← commits.foldlM (gatherCommit s store) {}
  let blobs ← readBlobs store g.sizes
  let inspected ← g.commitEntries.mapM fun (commit, entries) => inspectCommit s blobs commit entries
  some (g.findings ++ inspected.flatten)

inductive Mode
  | fastForward
  | pullRequest

/-- `_resolve_commit` -/
def resolves (store : Store) (oid : String) : Bool :=
  isObjectId oid && (store.commit oid).isSome

/-- Whether the program exits with 0. -/
def main (s : Scans) (store : Store) (mode : Mode) (baseline candidate : String) : Bool :=
  resolves store baseline && resolves store candidate && baseline ≠ candidate &&
    (match mode with
      | .pullRequest => store.graph.related baseline candidate
      | .fastForward => store.graph.isAncestor baseline candidate) &&
    validate s store baseline candidate = some []

end History
