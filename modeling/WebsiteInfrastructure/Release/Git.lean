import Mathlib
import WebsiteInfrastructure.Library.CommitGraph
import WebsiteInfrastructure.Library.Utf8
import WebsiteInfrastructure.Release.Version

/-!
# What git shows the release tools

A store of commits and tag objects that never changes, the tag references that do, and
the listings that the tools read of both.
-/

namespace Release

open PythonText Raising Utf8

/-! ## Names that git prints -/

/-- Names of references and paths are bytes; most of them decode. -/
inductive GitText
  | text (value : String)
  | undecodable (bytes : Bytes) (invalid : decode? bytes = none)
  deriving DecidableEq

namespace GitText

def startsWith (start : String) : GitText → Bool
  | .text s => start.toList.isPrefixOf s.toList
  | .undecodable bytes _ => (encode start).isPrefixOf bytes

def hasSlash : GitText → Bool
  | .text s => s.toList.contains '/'
  | .undecodable bytes _ => bytes.contains 0x2f

/-- No control character, no blank: what `git check-ref-format` asks and the readers rely on. -/
def isRefText : GitText → Bool
  | .text s => s.toList.all fun c => 0x20 < c.toNat && c.toNat != 0x7f
  | .undecodable bytes _ => bytes.all fun b => 0x20 < b && b != 0x7f

def toText? : GitText → Option String
  | .text s => some s
  | .undecodable _ _ => none

@[simp] theorem toText?_eq_some {name : GitText} {s : String} :
    name.toText? = some s ↔ name = .text s := by
  cases name <;> simp [toText?]

end GitText

/-! ## Commits -/

inductive EntryKind
  | regular
  | executable
  | symlink
  | gitlink
  deriving DecidableEq, Repr

/-- One entry of a full tree listing; the content stands for the object's name. -/
structure Entry where
  kind : EntryKind
  content : Bytes
  deriving DecidableEq

abbrev Tree := AList fun _ : GitText => Entry

structure Commit where
  parents : List String
  committerDate : String
  tree : Tree

/-- The fields that the ledger's `for-each-ref` format asks for, each ended by a NUL. -/
structure TagFields (τ : Type) where
  objectType : τ
  peeledType : τ
  embeddedName : τ
  taggerName : τ
  taggerEmail : τ
  taggerDate : τ
  message : τ
  sourceSha : τ
  deriving DecidableEq

def TagFields.decode (f : TagFields GitText) : Option (TagFields String) := do
  let objectType ← f.objectType.toText?
  let peeledType ← f.peeledType.toText?
  let embeddedName ← f.embeddedName.toText?
  let taggerName ← f.taggerName.toText?
  let taggerEmail ← f.taggerEmail.toText?
  let taggerDate ← f.taggerDate.toText?
  let message ← f.message.toText?
  let sourceSha ← f.sourceSha.toText?
  some ⟨objectType, peeledType, embeddedName, taggerName, taggerEmail, taggerDate, message,
    sourceSha⟩

def TagFields.encode (f : TagFields String) : TagFields GitText :=
  ⟨.text f.objectType, .text f.peeledType, .text f.embeddedName, .text f.taggerName,
    .text f.taggerEmail, .text f.taggerDate, .text f.message, .text f.sourceSha⟩

@[simp] theorem TagFields.decode_encode (f : TagFields String) : f.encode.decode = some f := rfl

/-- Objects by name. Content addressing makes the store one fixed function, and histories
without a first commit do not exist, hence the depth. -/
structure ObjectStore where
  commit : String → Option Commit
  depth : String → ℕ
  parent_depth : ∀ {sha c}, commit sha = some c → ∀ p ∈ c.parents, depth p < depth sha
  /-- What `for-each-ref` prints of a reference to the object; `none` for an unreadable one. -/
  tagFields : String → Option (TagFields GitText)
  /-- The output of `git show -s --format=%cI`. -/
  shown : String → Option GitText
  shown_commit : ∀ {sha c}, commit sha = some c → shown sha = some (.text c.committerDate)

/-- What `_git` raises when the command exits nonzero. -/
def gitFailed (args : List String) : Failure :=
  .contractError ("git " ++ " ".intercalate args ++ " failed")

namespace ObjectStore

variable (store : ObjectStore)

def parents (sha : String) : List String :=
  match store.commit sha with
  | some c => c.parents
  | none => []

theorem parents_depth {sha p : String} (hp : p ∈ store.parents sha) :
    store.depth p < store.depth sha := by
  unfold parents at hp
  split at hp
  · rename_i c hc
    exact store.parent_depth hc p hp
  · simp at hp

def graph : CommitGraph.Graph String := ⟨store.parents, store.depth, store.parents_depth⟩

def tree (sha : String) : Tree :=
  match store.commit sha with
  | some c => c.tree
  | none => ∅

/-- `git show sha:path`, as bytes. -/
def fileBytes (sha path : String) : Except Failure Bytes :=
  match (store.tree sha).lookup (.text path) with
  | some entry => .ok entry.content
  | none => .error (gitFailed ["show", sha ++ ":" ++ path])

def exactCommit (revision field : String) : Except Failure String := do
  let revision ← requireSha revision field
  match store.commit revision with
  | some _ => .ok revision
  | none =>
    let args := ["rev-parse", "--verify", revision ++ "^\x7bcommit\x7d"]
    match store.tagFields revision with
    | some f =>
      -- a tag object resolves to the commit below it, which has another name
      .error (if f.peeledType = .text "commit" then
        .contractError (field ++ " did not resolve exactly") else gitFailed args)
    | none => .error (gitFailed args)

def isAncestor (ancestor descendant : String) : Except Failure Bool :=
  if (store.commit ancestor).isSome ∧ (store.commit descendant).isSome then
    .ok (store.graph.isAncestor ancestor descendant)
  else .error (.contractError "git ancestry check failed")

theorem isAncestor_eq_ok {a d : String} {b : Bool} : store.isAncestor a d = .ok b ↔
    ((store.commit a).isSome ∧ (store.commit d).isSome) ∧ store.graph.isAncestor a d = b := by
  unfold isAncestor
  split <;> simp_all

/-- `_git("show", "-s", "--format=%cI", sha)`. -/
def showDate (sha : String) : Except Failure String :=
  match store.shown sha with
  | some (.text date) => .ok (String.ofList (strip date.toList))
  | some (.undecodable _ _) => .error (.builtin .unicodeDecodeError)
  | none => .error (gitFailed ["show", "-s", "--format=%cI", sha])

end ObjectStore

/-! ## Histories without merges -/

/-- A commit whose only parent is the snapshot before it. -/
structure Snapshot where
  sha : String
  committerDate : String
  tree : Tree

namespace Snapshot

def commitAt (history : List Snapshot) (i : ℕ) : Option Commit :=
  history[i]?.map fun s =>
    ⟨match i with
      | 0 => []
      | k + 1 => (history[k]?.map Snapshot.sha).toList, s.committerDate, s.tree⟩

def commit (history : List Snapshot) (sha : String) : Option Commit :=
  (history.findIdx? (·.sha == sha)).bind (commitAt history)

def depth (history : List Snapshot) (sha : String) : ℕ := history.findIdx (·.sha == sha)

theorem depth_lt {history : List Snapshot} {sha p : String} {c : Commit}
    (hc : commit history sha = some c) (hp : p ∈ c.parents) :
    depth history p < depth history sha := by
  obtain ⟨i, hi, hat⟩ := Option.bind_eq_some_iff.mp hc
  obtain ⟨s, -, rfl⟩ := Option.map_eq_some_iff.mp hat
  rw [depth, depth, (List.findIdx?_eq_some_iff_findIdx_eq.mp hi).2]
  cases i with
  | zero => simp at hp
  | succ k =>
    simp only [Option.mem_toList, Option.map_eq_some_iff] at hp
    obtain ⟨q, hq, rfl⟩ := hp
    obtain ⟨hk, rfl⟩ := List.getElem?_eq_some_iff.mp hq
    have hle : history.findIdx (·.sha == history[k].sha) ≤ k := by
      by_contra hlt
      have := List.not_of_lt_findIdx (not_le.mp hlt)
      simp at this
    omega

end Snapshot

/-- The store of a linear history and some tag objects. -/
def ObjectStore.ofHistory (history : List Snapshot) (tagObjects : List (String × TagFields String)) :
    ObjectStore where
  commit := Snapshot.commit history
  depth := Snapshot.depth history
  parent_depth hc _ hp := Snapshot.depth_lt hc hp
  tagFields oid := (tagObjects.lookup oid).map TagFields.encode
  shown sha := (Snapshot.commit history sha).map fun c => .text c.committerDate
  shown_commit hc := by rw [hc]; rfl

/-! ## References -/

/-- A reference below `refs/tags/`. -/
structure TagRef where
  name : GitText
  oid : String
  isRef : name.isRefText = true
  deriving DecidableEq

/-- The tag references are listed in whatever order git lists them. -/
structure Repository where
  store : ObjectStore
  tags : List TagRef
  nodup : (tags.map TagRef.name).Nodup

namespace Repository

variable (repository : Repository)

/-- The stripped output of a listing with one name a line. -/
def listing (names : List GitText) : Except Failure (List Char) :=
  match names.mapM GitText.toText? with
  | some texts => .ok (strip (unlines (texts.map String.toList)))
  | none => .error (.builtin .unicodeDecodeError)

theorem mapM_toText?_eq_some {names : List GitText} {texts : List String} :
    names.mapM GitText.toText? = some texts ↔ names = texts.map .text := by
  induction names generalizing texts with
  | nil => cases texts <;> simp
  | cons name names ih => cases texts <;> simp [List.mapM_cons, Option.bind_eq_some_iff, ih]

theorem listing_eq_ok {names : List GitText} {raw : List Char} : listing names = .ok raw ↔
    ∃ texts : List String, names = texts.map .text ∧
      raw = strip (unlines (texts.map String.toList)) := by
  simp only [← mapM_toText?_eq_some, listing]
  cases names.mapM GitText.toText? with
  | none => simp
  | some texts => simp [eq_comm]

/-- The references that `git tag --list 'v*'` lists; its pattern matches across `/`. -/
def platformTags : List TagRef := repository.tags.filter fun r => r.name.startsWith "v"

/-- `_git("tag", "--list", "v*")`, split into lines. -/
def tagList : Except Failure (List String) := do
  let raw ← listing (repository.platformTags.map TagRef.name)
  .ok ((splitlines raw).map String.ofList)

theorem tagList_eq_ok {lines : List String} : repository.tagList = .ok lines ↔
    ∃ texts : List String, repository.platformTags.map TagRef.name = texts.map .text ∧
      lines = (readLines (texts.map String.toList)).map String.ofList := by
  simp only [tagList, bind_eq_ok, listing_eq_ok, Except.ok.injEq]
  constructor
  · rintro ⟨_, ⟨texts, htexts, rfl⟩, rfl⟩
    exact ⟨texts, htexts, rfl⟩
  · rintro ⟨texts, htexts, rfl⟩
    exact ⟨_, ⟨texts, htexts, rfl⟩, rfl⟩

/-- The output of `_git("tag", "--points-at", sha)`. -/
def pointsAt (sha : String) : Except Failure (List Char) := do
  let unreadable := repository.tags.any fun r =>
    r.oid != sha && (repository.store.tagFields r.oid).isNone
  raiseIf (unreadable = true) (gitFailed ["tag", "--points-at", sha])
  listing <| (repository.tags.filter fun r => r.oid == sha ||
    (repository.store.tagFields r.oid).any fun f => f.sourceSha == .text sha).map TagRef.name

/-- The reference that `for-each-ref --count=1` prints for a pattern without wildcards: the
reference of that name, or one below it. -/
def firstRef (name : String) : Option TagRef :=
  repository.tags.find? fun r => r.name == .text name || r.name.startsWith (name ++ "/")

end Repository

end Release
