import Mathlib
import WebsiteInfrastructure.Library.JsonWriting
import WebsiteInfrastructure.Library.PythonObjects
import WebsiteInfrastructure.Library.Sha256
import WebsiteInfrastructure.ProtectedHost.Contract
import WebsiteInfrastructure.ProtectedHost.Mounts

/-!
# Bindings of archive roots

`archive_binding_fingerprint` as a function of what its system calls and `findmnt` answer: the
metadata of the root, a manifest of its entries and the identity of its mount are hashed, if
nothing changes in between.
-/

namespace ProtectedHost

open Json Utf8

/-! ## Metadata -/

/-- `_stat_stability_state`: the fields of a `stat_result` that must not change. -/
structure Stat where
  dev : ℕ
  ino : ℕ
  mode : ℕ
  uid : ℕ
  gid : ℕ
  nlink : ℕ
  size : ℕ
  mtimeNs : ℤ
  ctimeNs : ℤ
  deriving DecidableEq

/-- `S_IFMT` -/
def Stat.type (s : Stat) : ℕ := s.mode &&& 0o170000

/-- `S_IMODE` -/
def Stat.permissions (s : Stat) : ℕ := s.mode &&& 0o7777

def Stat.isDir (s : Stat) : Bool := s.type == 0o040000

def Stat.isLnk (s : Stat) : Bool := s.type == 0o120000

/-- `os.major` -/
def major (dev : ℕ) : ℕ := dev >>> 8 &&& 0xfff ||| dev >>> 32 &&& 0xfffff000

/-- `os.minor` -/
def minor (dev : ℕ) : ℕ := dev &&& 0xff ||| dev >>> 12 &&& 0xffffff00

/-- `_archive_device_identity` -/
def archiveDeviceIdentity (s : Stat) : String :=
  toString (major s.dev) ++ ":" ++ toString (minor s.dev)

/-! ## The mount -/

/-- What `_archive_mount_record` reads. -/
structure MountReads where
  namespaceMatches : Bool
  records : Option (List MountInfoRecord)

def archiveMountRecord (value : String) (reads : MountReads) : Selection :=
  if ¬ reads.namespaceMatches then (none, ["must be inspected from the host mount namespace"])
  else match reads.records with
    | none => (none, ["mount topology is unavailable"])
    | some records => mountRecordFromRecords value records

/-- The record, where there are no errors. -/
def selectedRecord (value : String) (reads : MountReads) : Option MountInfoRecord :=
  match archiveMountRecord value reads with
  | (selected, []) => selected
  | _ => none

/-- `str(path)` -/
def pathText (path : PurePosixPath) : String :=
  let anchor := match path.anchor with
    | .relative => ""
    | .root => "/"
    | .doubleRoot => "//"
  let text := anchor ++ "/".intercalate path.names
  if text = "" then "." else text

/-- `str.lower` goes by the tables of the interpreter's Unicode version. No character is left out,
and surrogates stay. -/
class Lowering where
  lower : Text → Text
  lower_ascii : ∀ s : String, (∀ c ∈ s.toList, c.toNat < 128) →
    lower (.scalar s) = .scalar (String.ofList (s.toList.map Char.toLower))
  lower_isJoined : ∀ t, t.isJoined = true → (lower t).isJoined = true

/-- What `findmnt` says of the file system. -/
structure Row where
  target : Text
  source : Text
  fstype : Text
  options : Text
  uuid : Option Text
  partuuid : Option Text
  majorMinor : Text
  deriving DecidableEq

/-- The mount in the payload. -/
structure MountIdentity where
  filesystemType : Text
  options : List Text
  target : Text
  uuid : Option Text
  partuuid : Option Text
  sourceFallback : Option Text
  sourceSubpath : Option Text
  deriving DecidableEq

section Findmnt

variable {F : Type}

/-- `_safe_findmnt_string`, without a value where it raises. -/
def safeFindmntString (value : Value F) : Option Text :=
  match value with
  | .str t =>
    if t = .scalar "" ∨ t = .scalar "-" ∨ t.points.any (fun p => p < 32 || p == 127) then none
    else some t
  | _ => none

/-- `_safe_findmnt_string` with `optional`. -/
def optionalFindmntString (value : Value F) : Option (Option Text) :=
  match value with
  | .null => some none
  | .str t => if t = .scalar "-" then some none else (safeFindmntString value).map some
  | _ => none

def rowKeys : List String := ["target", "source", "fstype", "options", "uuid", "partuuid", "maj:min"]

def onlyFilesystem (document : Value F) : Option (Value F) :=
  match document.get? "filesystems" with
  | some (.arr [record]) => some record
  | _ => none

variable (F) [Interpreter F]

/-- The one row that `findmnt --json` printed. -/
def findmntRow (stdout : Option Bytes) : Option Row := do
  let text ← decode? (← stdout)
  let document ← (loads rejectDuplicates text.toList : Except ReadError (Value F)).toOption
  guard (document.hasExactly ["filesystems"])
  let record ← onlyFilesystem document
  guard (record.hasExactly rowKeys)
  some {
    target := ← safeFindmntString (record.get "target")
    source := ← safeFindmntString (record.get "source")
    fstype := ← safeFindmntString (record.get "fstype")
    options := ← safeFindmntString (record.get "options")
    uuid := ← optionalFindmntString (record.get "uuid")
    partuuid := ← optionalFindmntString (record.get "partuuid")
    majorMinor := ← safeFindmntString (record.get "maj:min") }

end Findmnt

def slash : ℕ := '/'.toNat

/-- `options.split(",")` -/
def Row.optionList (row : Row) : List Text :=
  (row.options.points.splitOn ','.toNat).map Text.ofPoints

/-- `[0-9]+:[0-9]+` -/
def isMajorMinor (t : Text) : Bool :=
  match t.points.splitOn ':'.toNat with
  | [first, second] => first ≠ [] && second ≠ [] &&
      (first ++ second).all fun p => '0'.toNat ≤ p && p ≤ '9'.toNat
  | _ => false

/-- `\[([^\[\]\x00-\x1f]+)\]\Z` -/
def subpathOf (source : Text) : Option Text :=
  match source.points.reverse with
  | 0x5d :: before =>
    let inner := before.takeWhile fun p => p ≠ 0x5b ∧ p ≠ 0x5d ∧ 32 ≤ p
    if inner ≠ [] ∧ (before.drop inner.length).head? = some 0x5b then
      some (.ofPoints inner.reverse)
    else none
  | _ => none

def isAbsoluteNormal (t : Text) : Bool :=
  t.points.head? = some slash && normpath slash '.'.toNat t.points = t.points

section Identity

variable [Lowering]

/-- The identity that a row gives, if it is the expected one. -/
def identityOf (row : Row) (expectedTarget expectedFilesystemType expectedMajorMinor : String) :
    Option MountIdentity := do
  guard (row.target = .scalar expectedTarget ∧ isAbsoluteNormal row.target)
  let filesystemType := Lowering.lower row.fstype
  guard (filesystemType ∈ allowedArchiveFilesystemTypes.map Text.scalar ∧
    filesystemType = Lowering.lower (.scalar expectedFilesystemType))
  guard (isMajorMinor row.majorMinor ∧ row.majorMinor = .scalar expectedMajorMinor)
  guard (Text.scalar "" ∉ row.optionList)
  some {
    filesystemType := filesystemType
    options := row.optionList.insertionSort fun s t => s.points ≤ t.points
    target := row.target
    uuid := row.uuid.map Lowering.lower
    partuuid := row.partuuid.map Lowering.lower
    sourceFallback := if row.uuid = none ∧ row.partuuid = none then some row.source else none
    sourceSubpath := subpathOf row.source }

/-- `_findmnt_identity` -/
def findmntIdentity (F : Type) [Interpreter F] (record : MountInfoRecord) (majorMinor : String)
    (stdout : Option Bytes) : Option MountIdentity := do
  identityOf (← findmntRow F stdout) (pathText record.mountPoint) record.filesystemType majorMinor

end Identity

/-! ## The manifest of the entries -/

/-- Payloads hold no floats. -/
abbrev Payload := Value (List Char)

/-- What the manifest records of an entry besides its name. -/
structure EntryMetadata where
  type : ℕ
  inode : ℕ
  mode : ℕ
  uid : ℕ
  gid : ℕ
  nlink : ℕ
  size : ℕ
  mtimeNs : ℤ
  ctimeNs : ℤ
  deriving DecidableEq

def Stat.recorded (s : Stat) : EntryMetadata where
  type := s.type
  inode := s.ino
  mode := s.permissions
  uid := s.uid
  gid := s.gid
  nlink := s.nlink
  size := s.size
  mtimeNs := s.mtimeNs
  ctimeNs := s.ctimeNs

/-- The record of an entry, its keys in order. -/
def entryRecord (nameSha256 : String) (metadata : EntryMetadata) : Payload :=
  .obj [
    (.scalar "ctime_ns", .int metadata.ctimeNs),
    (.scalar "gid", .int metadata.gid),
    (.scalar "inode", .int metadata.inode),
    (.scalar "mode", .int metadata.mode),
    (.scalar "mtime_ns", .int metadata.mtimeNs),
    (.scalar "name_sha256", .text nameSha256),
    (.scalar "nlink", .int metadata.nlink),
    (.scalar "size", .int metadata.size),
    (.scalar "type", .int metadata.type),
    (.scalar "uid", .int metadata.uid)]

/-- `json.dumps(value, sort_keys=True, separators=(",", ":")).encode("utf-8")` -/
def serialize (value : Payload) : Bytes := encode (String.ofList (write true value))

/-- A tuple of `records`. -/
structure EntryTuple where
  nameSha256 : String
  state : Stat
  serialized : Bytes
  deriving DecidableEq

def entryTuple (name : Bytes) (state : Stat) : EntryTuple where
  nameSha256 := Sha256.hexdigest name
  state := state
  serialized := serialize (entryRecord (Sha256.hexdigest name) state.recorded)

/-- The state as the tuple of integers that is compared. -/
def Stat.tuple (s : Stat) : List ℤ :=
  [s.dev, s.ino, s.mode, s.uid, s.gid, s.nlink, s.size, s.mtimeNs, s.ctimeNs]

/-- Tuples are compared by their components, text by its code points. -/
def EntryTuple.key (t : EntryTuple) : List ℕ ×ₗ List ℤ ×ₗ List ℕ :=
  toLex (t.nameSha256.toList.map Char.toNat,
    toLex (t.state.tuple, t.serialized.map UInt8.toNat))

def sortedRecords (records : List EntryTuple) : List EntryTuple :=
  records.insertionSort fun s t => s.key ≤ t.key

/-- A serialized record behind its length. -/
def framed (serialized : Bytes) : Bytes := Sha256.bigEndian 4 serialized.length ++ serialized

/-- The bytes that `metadata_sha256` hashes. -/
def topLevelManifest (records : List EntryTuple) : Bytes :=
  encode "protected-legacy-top-level-v1" ++ 0 ::
    (sortedRecords records).flatMap fun r => framed r.serialized

structure TopLevel where
  entryCount : ℕ
  metadataSha256 : String
  deriving DecidableEq

/-- What `_archive_top_level_fingerprint` reads through the descriptor of the root. -/
structure DirectoryReads where
  rootBefore : Option Stat
  listing : Option (List Bytes)
  entryBefore : Bytes → Option Stat
  entryAfter : Bytes → Option Stat
  rootAfter : Option Stat

def maxArchiveTopLevelEntries : ℕ := 256

def maxArchiveTopLevelManifestBytes : ℕ := 2 * 1024 * 1024

def isEntryName (name : Bytes) : Bool :=
  name ≠ [] && name ≠ encode "." && name ≠ encode ".." && slash.toUInt8 ∉ name && 0 ∉ name

/-- The record of an entry that is no symbolic link. -/
def readEntry (reads : DirectoryReads) (name : Bytes) : Option EntryTuple := do
  let state ← reads.entryBefore name
  guard (¬ state.isLnk)
  some (entryTuple name state)

/-- The records of all entries, if there are not too many. -/
def topLevelRecords (reads : DirectoryReads) : Option (List EntryTuple) := do
  let names ← reads.listing
  guard (names.length ≤ maxArchiveTopLevelEntries ∧ names.all isEntryName ∧ names ≠ [])
  let records ← names.mapM (readEntry reads)
  guard ((records.map fun r => r.serialized.length + 4).sum ≤ maxArchiveTopLevelManifestBytes)
  some records

def archiveTopLevelFingerprint (reads : DirectoryReads) : Option TopLevel := do
  let rootBefore ← reads.rootBefore
  guard rootBefore.isDir
  let names ← reads.listing
  let records ← topLevelRecords reads
  guard (names.map reads.entryAfter = records.map fun r => some r.state)
  let rootAfter ← reads.rootAfter
  guard (rootBefore = rootAfter)
  some { entryCount := records.length, metadataSha256 := Sha256.hexdigest (topLevelManifest records) }

/-! ## The binding -/

/-- What the payload keeps of the root. -/
structure RootMetadata where
  inode : ℕ
  uid : ℕ
  gid : ℕ
  mode : ℕ
  nlink : ℕ
  mtimeNs : ℤ
  ctimeNs : ℤ
  deriving DecidableEq

def Stat.rootMetadata (s : Stat) : RootMetadata where
  inode := s.ino
  uid := s.uid
  gid := s.gid
  mode := s.permissions
  nlink := s.nlink
  mtimeNs := s.mtimeNs
  ctimeNs := s.ctimeNs

def RootMetadata.toValue (m : RootMetadata) : Payload :=
  .obj [
    (.scalar "ctime_ns", .int m.ctimeNs),
    (.scalar "gid", .int m.gid),
    (.scalar "inode", .int m.inode),
    (.scalar "mode", .int m.mode),
    (.scalar "mtime_ns", .int m.mtimeNs),
    (.scalar "nlink", .int m.nlink),
    (.scalar "uid", .int m.uid)]

/-- An entry of a dict that is there only with a value. -/
def optionalField (key : String) (t : Option Text) : List (Text × Payload) :=
  t.toList.map fun t => (.scalar key, .str t)

def MountIdentity.stableIds (i : MountIdentity) : List (Text × Payload) :=
  optionalField "partuuid" i.partuuid ++ optionalField "uuid" i.uuid

def MountIdentity.toValue (i : MountIdentity) : Payload :=
  .obj ([(.scalar "filesystem_type", .str i.filesystemType),
    (.scalar "options", .arr (i.options.map .str))] ++
    optionalField "source_fallback" i.sourceFallback ++
    optionalField "source_subpath" i.sourceSubpath ++
    (if i.stableIds = [] then [] else [(.scalar "stable_ids", .obj i.stableIds)]) ++
    [(.scalar "target", .str i.target)])

def TopLevel.toValue (t : TopLevel) : Payload :=
  .obj [
    (.scalar "entry_count", .int t.entryCount),
    (.scalar "metadata_sha256", .text t.metadataSha256),
    (.scalar "schema", .text "protected-legacy-top-level-v1")]

/-- `_archive_binding_payload` -/
def archiveBindingPayload (metadata : Stat) (mountIdentity : MountIdentity) (topLevel : TopLevel) :
    Payload :=
  .obj [
    (.scalar "mount", mountIdentity.toValue),
    (.scalar "root", metadata.rootMetadata.toValue),
    (.scalar "schema", .text "protected-legacy-archive-binding-v3"),
    (.scalar "top_level", topLevel.toValue)]

/-- What the binding is the digest of. -/
structure Bound where
  metadata : Stat
  mountIdentity : MountIdentity
  topLevel : TopLevel

def Bound.message (b : Bound) : Bytes :=
  serialize (archiveBindingPayload b.metadata b.mountIdentity b.topLevel)

/-- `_archive_binding_digest` -/
def archiveBindingDigest (b : Bound) : String := Sha256.hexdigest b.message

/-- An open directory, and its entry in the parent directory. -/
structure Opened where
  metadata : Stat
  parentEntry : Stat
  deriving DecidableEq

/-- Everything that `archive_binding_fingerprint` reads, in its order. -/
structure BindingReads where
  opened : Option Opened
  mount : MountReads
  findmnt : Option Bytes
  directory : DirectoryReads
  finalMount : MountReads
  final : Option Opened
  finalFindmnt : Option Bytes
  reopened : Option Opened

/-- What `_open_archive_directory_no_follow` asks of a path. -/
def isOpenable (value : String) : Bool :=
  value.toList.head? = some '/' && value ≠ "/" && isNormal value &&
    (partsOf value).all fun part => part ∉ [[], ['.'], ['.', '.']]

section Fingerprint

variable (F : Type) [Interpreter F] [Lowering]

/-- The checks of `archive_binding_fingerprint`. -/
def archiveBinding (value : String) (reads : BindingReads) : Option Bound := do
  guard (isOpenable value)
  let opened ← reads.opened
  let metadata := opened.metadata
  guard (metadata.isDir ∧ ¬ opened.parentEntry.isLnk ∧ metadata = opened.parentEntry)
  let mountRecord ← selectedRecord value reads.mount
  guard (archiveDeviceIdentity metadata = mountRecord.majorMinor)
  let mountIdentity ← findmntIdentity F mountRecord (archiveDeviceIdentity metadata) reads.findmnt
  let topLevel ← archiveTopLevelFingerprint reads.directory
  let finalMountRecord ← selectedRecord value reads.finalMount
  guard (finalMountRecord = mountRecord)
  let final ← reads.final
  guard (metadata = final.metadata ∧ metadata = final.parentEntry ∧
    archiveDeviceIdentity final.metadata = finalMountRecord.majorMinor)
  guard (findmntIdentity F finalMountRecord (archiveDeviceIdentity final.metadata)
    reads.finalFindmnt = some mountIdentity)
  -- every component of the path is walked once more
  let reopened ← reads.reopened
  guard (metadata = reopened.metadata ∧ metadata = reopened.parentEntry)
  some { metadata := final.metadata, mountIdentity := mountIdentity, topLevel := topLevel }

def archiveBindingFingerprint (value : String) (reads : BindingReads) : Option String :=
  (archiveBinding F value reads).map archiveBindingDigest

end Fingerprint

end ProtectedHost
