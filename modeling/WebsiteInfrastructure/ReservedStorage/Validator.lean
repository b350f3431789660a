import Mathlib
import WebsiteInfrastructure.Library.Intervals
import WebsiteInfrastructure.Library.PythonObjects
import WebsiteInfrastructure.Library.PythonText
import WebsiteInfrastructure.Library.Sha256

/-!
# Evidence of the reserved storage

`validate` of `validate_reserved_storage_evidence.py` on parsed documents. A refusal is its reason.
-/

namespace ReservedStorage

open Json Raising Intervals PythonText

variable {F : Type}

/-! ## Scalars -/

/-- `need` -/
def need (condition : Prop) [Decidable condition] (reason : String) : Except String Unit :=
  raiseIf (¬condition) reason

/-- A string without lone surrogates. -/
def literal? : Value F → Option String
  | .str (.scalar s) => some s
  | _ => none

/-- A condition on the characters of a string. -/
def spells (value : Value F) (p : List Char → Bool) : Bool := (literal? value).any fun s => p s.toList

/-- `shape` -/
def shape (value : Value F) (fields : List String) : Except String Unit :=
  need (value.hasExactly fields = true) "shape"

/-- `number` -/
def number (value : Value F) (minimum : ℤ) : Except String ℤ :=
  match value.int? with
  | some n => if minimum ≤ n ∧ n ≤ 2 ^ 63 - 1 then .ok n else .error "number"
  | none => .error "number"

/-- `[A-Za-z0-9_./:+-]` -/
def isTextChar (c : Char) : Bool := c.isAlphanum || c ∈ ['_', '.', '/', ':', '+', '-']

/-- `text` -/
def text (value : Value F) : Except String Unit :=
  need (spells value fun cs => cs ≠ [] && cs.length ≤ 256 && cs.all isTextChar) "text"

/-- `[0-9a-f]` -/
def isHexDigit (c : Char) : Bool := c.isDigit || 'a' ≤ c && c ≤ 'f'

/-- `digest` -/
def digest (value : Value F) : Except String Unit :=
  need (spells value fun cs =>
    cs.length = 64 && cs.all isHexDigit && cs ≠ List.replicate 64 '0') "digest"

/-- `[0-9a-f]{8}(?:-[0-9a-f]{4}){3}-[0-9a-f]{12}` -/
def isUuid (cs : List Char) : Bool :=
  (cs.splitOn '-').map List.length = [8, 4, 4, 4, 12] &&
    (cs.splitOn '-').all fun group => group.all isHexDigit

/-- `filesystem_uuid` -/
def filesystemUuid (value : Value F) : Except String Unit := do
  need (spells value isUuid) "filesystem_uuid"
  need (spells value fun cs => cs.filter (· ≠ '-') ≠ List.replicate 32 '0') "filesystem_uuid"

/-- `(?:0|[1-9][0-9]*):(?:0|[1-9][0-9]*)` -/
def isDevice (cs : List Char) : Bool :=
  match cs.splitOn ':' with
  | [major, minor] => (canonicalDecimal major).isSome && (canonicalDecimal minor).isSome
  | _ => false

/-- `identity`: a device and an inode -/
def identity (value : Value F) : Except String (String × ℤ) := do
  shape value ["device", "inode"]
  need (spells (value.get "device") isDevice) "device"
  let inode ← number (value.get "inode") 1
  .ok (((literal? (value.get "device")).getD ""), inode)

/-- The values that evidence is compared with. -/
inductive Plain
  | int (n : ℤ)
  | text (s : String)
  | bool (b : Bool)

/-- Whether two values are written alike. -/
def Plain.isWritten : Plain → Value F → Bool
  | .int n, .int m => n = m
  | .text s, .str (.scalar t) => s = t
  | .bool b, .bool c => b = c
  | _, _ => false

/-- `same` -/
def same (value : Value F) (expected : List (String × Plain)) : Bool :=
  value.hasExactly (expected.map Prod.fst) &&
    expected.all fun field => field.2.isWritten (value.get field.1)

/-! ## Extents -/

/-- `disjoint` -/
def disjoint (physical : List Range) (reason : String) : Except String Unit :=
  need (neighboursApart physical = true) reason

/-- Where the next extent has to begin, and the physical ranges so far. -/
structure Coverage where
  cursor : ℤ
  physical : List Range

/-- One turn of the loop of `allocation`. -/
def addExtent (c : Coverage) (extent : Value F) : Except String Coverage := do
  shape extent ["logical", "physical", "length", "state"]
  let offset ← number (extent.get "logical") 0
  let start ← number (extent.get "physical") 1
  let length ← number (extent.get "length") 1
  need (literal? (extent.get "state") = some "written" ∨
    literal? (extent.get "state") = some "unwritten") "extent_state"
  need (offset = c.cursor) "extent_coverage"
  .ok ⟨c.cursor + length, c.physical ++ [(start, start + length)]⟩

/-- `type(value) is list` -/
def items? : Value F → Option (List (Value F))
  | .arr items => some items
  | _ => none

def maxExtents : ℕ := 8192

/-- `allocation` -/
def allocation (observation : Value F) (expectedIdentity : String × ℤ) (size : ℤ) :
    Except String (List Range) := do
  shape observation ["identity", "sizeBytes", "allocatedBytes", "extents"]
  let ident ← identity (observation.get "identity")
  need (ident = expectedIdentity) "backing_identity"
  let observedSize ← number (observation.get "sizeBytes") 1
  need (observedSize = size) "backing_size"
  let allocated ← number (observation.get "allocatedBytes") 0
  need (size ≤ allocated) "physical_allocation"
  let extents := (items? (observation.get "extents")).getD []
  need (1 ≤ extents.length ∧ extents.length ≤ maxExtents) "extent_count"
  let coverage ← carry addExtent ⟨0, []⟩ extents
  need (coverage.cursor = size) "extent_coverage"
  disjoint coverage.physical "extent_alias"
  .ok coverage.physical

/-! ## The ledger -/

/-- `type(value) is dict` -/
def fields? : Value F → Option (List (Text × Value F))
  | .obj fields => some fields
  | _ => none

/-- The entries of a dict. -/
def fieldsOf (value : Value F) : List (Text × Value F) := (fields? value).getD []

/-- The value of a key that is a text of Python. -/
def valueAt (value : Value F) (key : Text) : Value F := ((fieldsOf value).lookup key).getD .null

/-- `set(value) == set(other)` -/
def sameKeys (value other : Value F) : Bool :=
  ((fieldsOf value).all fun f => ((fieldsOf other).lookup f.1).isSome) &&
    (fieldsOf other).all fun f => ((fieldsOf value).lookup f.1).isSome

/-- What the checks of the expected document leave behind. -/
structure Reserves where
  bytes : ℤ
  inodes : ℤ

structure Pool where
  capacity : ℤ
  before : ℤ
  after : ℤ
  beforeInodes : ℤ
  afterInodes : ℤ

structure Ledger where
  identities : List (String × ℤ)
  additional : ℤ
  outstanding : ℤ
  allocatedBefore : ℤ
  allocatedAfter : ℤ

section Checks

variable [Interpreter F]

/-- One turn of the loop over the reservations. -/
def addReservation (expected packet : Value F) (capacity : ℤ) (l : Ledger)
    (entry : Text × Value F) : Except String Ledger := do
  text (.str entry.1 : Value F)
  shape entry.2 ["identity", "reservedBytes"]
  let ident ← identity (entry.2.get "identity")
  need ((expected.get "poolDevice").eq (.text ident.1) = true ∧ ident ∉ l.identities)
    "reservation_identity"
  let reserved ← number (entry.2.get "reservedBytes") 1
  let observed := valueAt (packet.get "reservations") entry.1
  shape observed ["identity", "allocatedBeforeBytes", "allocatedAfterBytes"]
  let observedIdent ← identity (observed.get "identity")
  need (observedIdent = ident) "reservation_binding"
  let before ← number (observed.get "allocatedBeforeBytes") 0
  let after ← number (observed.get "allocatedAfterBytes") 0
  need (before ≤ capacity ∧ after ≤ capacity) "reservation_allocation"
  .ok
    { identities := ident :: l.identities
      additional := l.additional + max 0 (reserved - before)
      outstanding := l.outstanding + max 0 (reserved - after)
      allocatedBefore := l.allocatedBefore + before
      allocatedAfter := l.allocatedAfter + after }

/-! ## Volumes -/

def profile : String := "reserved-file-ext4-v1"

def maxAge : ℤ := 15 * 60

/-- `ROLES` -/
def roles : List (String × ℤ) := [("blobs", 250 * 1024 ^ 3), ("journal", 4 * 1024 ^ 3)]

/-- `PHASES` -/
def phases : List String := ["reserved", "formatted", "restarted", "trimmed"]

/-- What is known of the volumes so far; the physical ranges are those of each phase. -/
structure Volumes (F : Type) where
  filesystemIds : List (Value F)
  mountDevices : List (Value F)
  physical : List (List Range)

/-- The checks of a volume in the expected document; the size of its image and its inodes. -/
def checkConfig (expected config : Value F) (name : String) (claimBytes : ℤ)
    (filesystemIds : List (Value F)) : Except String (ℤ × ℤ) := do
  shape config ["backingFile", "filesystemUuid", "imageBytes", "minimumFreeInodes"]
  need ((config.get "backingFile").eq (.text ("/var/lib/obsync-reserved/" ++ name ++ ".img")) = true)
    "backing_path"
  filesystemUuid (config.get "filesystemUuid")
  need (filesystemIds.any (config.get "filesystemUuid").eq = false) "filesystem_identity"
  let size ← number (config.get "imageBytes") 1
  need (claimBytes < size) "filesystem_overhead"
  let minInodes ← number (config.get "minimumFreeInodes") 1
  need (((expected.get "reservations").get? name).isSome) "volume_reservation"
  need ((((expected.get "reservations").get name).get "reservedBytes").eq (.int size) = true)
    "reserved_size"
  .ok (size, minInodes)

def ownership : List (String × Plain) := [
  ("uid", .int 0), ("gid", .int 0), ("mode", .text "0600"), ("links", .int 1),
  ("type", .text "regular"), ("ancestors", .text "root-owned-no-links-no-write"),
  ("acl", .text "none"), ("workloadHolePunch", .text "denied")]

def fallback : List (String × Plain) := [
  ("uid", .int 0), ("gid", .int 0), ("mode", .text "0000"), ("acl", .text "none"),
  ("layout", .text "absent"), ("workloadWrite", .text "denied"),
  ("ancestors", .text "root-owned-no-links-no-write")]

def recovery : List (String × Plain) := [
  ("missingMount", .text "refused"), ("wrongBacking", .text "refused"),
  ("secondConsumer", .text "refused"), ("restartDurability", .text "verified"),
  ("offlineRestore", .text "verified"), ("quarantineRecovery", .text "verified"),
  ("reconciler", .text "suspended"), ("deploymentReady", .bool false)]

/-- `/dev/loop(?:0|[1-9][0-9]*)` -/
def isLoop (cs : List Char) : Bool :=
  (cs.dropPrefix? (spelled "/dev/loop" rfl)).any fun number => (canonicalDecimal number).isSome

/-- The checks of the mount of a volume. -/
def checkMount (mount config reservation : Value F) (name : String) (claimBytes size minInodes : ℤ)
    (mountDevices : List (Value F)) : Except String Unit := do
  shape mount ["target", "filesystem", "uuid", "sourceDevice", "sourceMajorMinor",
    "backingIdentity", "flags", "topology", "uid", "gid", "mode", "acl", "usableBytes", "freeInodes"]
  need ((mount.get "target").eq (.text ("/mnt/local-pie-ssd-reserved/" ++ name)) = true ∧
    (mount.get "filesystem").eq (.text "ext4") = true ∧
    (mount.get "uuid").eq (config.get "filesystemUuid") = true) "mount_identity"
  need (spells (mount.get "sourceDevice") isLoop) "loop_source"
  need ((mount.get "sourceMajorMinor").eq
      (.text ("7:" ++ String.ofList (((literal? (mount.get "sourceDevice")).getD "").toList.drop 9)))
      = true ∧
    mountDevices.any (mount.get "sourceMajorMinor").eq = false) "loop_device"
  let backing ← identity (mount.get "backingIdentity")
  let reserved ← identity (reservation.get "identity")
  need (backing = reserved) "loop_backing"
  need ((mount.get "flags").eq (.arr [.text "rw", .text "nodev", .text "nosuid", .text "noexec",
      .text "nodiscard"]) = true ∧
    (mount.get "topology").eq (.text "exact-no-bind-no-nested-no-links") = true) "mount_flags"
  need ((mount.get "uid").int? = some 65532 ∧ (mount.get "gid").int? = some 65532 ∧
    (mount.get "mode").eq (.text "0700") = true ∧ (mount.get "acl").eq (.text "none") = true)
    "mount_ownership"
  let usable ← number (mount.get "usableBytes") 0
  need (claimBytes ≤ usable ∧ usable ≤ size) "usable_capacity"
  let free ← number (mount.get "freeInodes") 0
  need (minInodes ≤ free) "usable_capacity"

/-- The checks of what keeps a volume from being trimmed. -/
def checkPrevention (expected prevention : Value F) : Except String Unit := do
  shape prevention ["kernelRelease", "mechanismSha256", "formatDiscard", "loopDiscard",
    "loopZeroUnmap", "restartEnforcement", "explicitTrim"]
  need ((prevention.get "kernelRelease").eq (expected.get "kernelRelease") = true) "kernel_binding"
  digest (prevention.get "mechanismSha256")
  need ((prevention.get "formatDiscard").eq (.text "disabled") = true ∧
    (prevention.get "loopDiscard").eq (.text "blocked") = true ∧
    (prevention.get "loopZeroUnmap").eq (.text "blocked") = true ∧
    (prevention.get "restartEnforcement").eq (.text "verified") = true ∧
    (prevention.get "explicitTrim").eq (.text "blocked-reservation-unchanged") = true)
    "trim_prevention"

/-- The allocation of a volume in one phase. -/
def observe (observations reservation : Value F) (size : ℤ) (phase : String) :
    Except String (List Range) := do
  let ident ← identity (reservation.get "identity")
  allocation (observations.get phase) ident size

/-- One turn of the loop over the volumes. -/
def addVolume (expected packet : Value F) (v : Volumes F) (role : String × ℤ) :
    Except String (Volumes F) := do
  let name := "obsync-" ++ role.1
  let config := (expected.get "volumes").get role.1
  let (size, minInodes) ← checkConfig expected config name role.2 v.filesystemIds
  let reservation := (expected.get "reservations").get name
  let volume := (packet.get "volumes").get role.1
  shape volume ["backing", "ownership", "phases", "mount", "fallback", "prevention"]
  need ((volume.get "backing").eq (config.get "backingFile") = true) "backing_binding"
  need (same (volume.get "ownership") ownership = true) "backing_ownership"
  shape (volume.get "phases") phases
  let physical ← collect (observe (volume.get "phases") reservation size) phases
  need ((((packet.get "reservations").get name).get "allocatedAfterBytes").eq
    (((volume.get "phases").get "trimmed").get "allocatedBytes") = true) "allocation_ledger"
  checkMount (volume.get "mount") config reservation name role.2 size minInodes v.mountDevices
  need (same (volume.get "fallback") fallback = true) "fallback"
  checkPrevention expected (volume.get "prevention")
  .ok
    { filesystemIds := config.get "filesystemUuid" :: v.filesystemIds
      mountDevices := (volume.get "mount").get "sourceMajorMinor" :: v.mountDevices
      physical := List.zipWith (· ++ ·) v.physical physical }

/-! ## The packet -/

/-- The checks of both documents up to the pool. -/
def checkHeads (expectedBytes : Utf8.Bytes) (expected packet : Value F) (now : ℤ) :
    Except String Reserves := do
  shape expected ["schema", "profile", "node", "poolUuid", "poolDevice", "kernelRelease",
    "recoveryDecisionSha256", "hostReserveBytes", "hostReserveInodes", "reservations", "volumes"]
  shape packet ["schema", "profile", "expectedSha256", "capturedAt", "rawEvidenceSha256", "pool",
    "reservations", "volumes", "recovery"]
  need ((expected.get "schema").int? = some 1 ∧ (packet.get "schema").int? = some 1) "schema"
  need ((expected.get "profile").eq (packet.get "profile") = true ∧
    (packet.get "profile").eq (.text profile) = true) "profile"
  need ((packet.get "expectedSha256").eq (.text (Sha256.hexdigest expectedBytes)) = true)
    "expected_binding"
  digest (packet.get "rawEvidenceSha256")
  let capturedAt ← number (packet.get "capturedAt") 0
  need (0 ≤ now - capturedAt ∧ now - capturedAt ≤ maxAge) "freshness"
  each (fun key => text (expected.get key)) ["node", "poolUuid", "poolDevice", "kernelRelease"]
  filesystemUuid (expected.get "poolUuid")
  digest (expected.get "recoveryDecisionSha256")
  let bytes ← number (expected.get "hostReserveBytes") 1
  let inodes ← number (expected.get "hostReserveInodes") 1
  .ok ⟨bytes, inodes⟩

/-- The checks of the pool. -/
def checkPool (expected pool : Value F) : Except String Pool := do
  shape pool ["uuid", "device", "filesystem", "node", "capacityBytes", "availableBeforeBytes",
    "availableAfterBytes", "availableBeforeInodes", "availableAfterInodes", "inventoryComplete"]
  need ((pool.get "uuid").eq (expected.get "poolUuid") = true ∧
    (pool.get "device").eq (expected.get "poolDevice") = true ∧
    (pool.get "node").eq (expected.get "node") = true ∧
    (pool.get "filesystem").eq (.text "ext4") = true) "pool_identity"
  need ((pool.get "inventoryComplete").isTrue = true) "ledger_complete"
  let capacity ← number (pool.get "capacityBytes") 1
  let before ← number (pool.get "availableBeforeBytes") 0
  let after ← number (pool.get "availableAfterBytes") 0
  need (before ≤ capacity ∧ after ≤ capacity) "pool_capacity"
  let beforeInodes ← number (pool.get "availableBeforeInodes") 0
  let afterInodes ← number (pool.get "availableAfterInodes") 0
  .ok ⟨capacity, before, after, beforeInodes, afterInodes⟩

/-- The checks of the reservations against the pool. -/
def checkReservations (expected packet : Value F) (reserves : Reserves) (pool : Pool) :
    Except String Unit := do
  need ((fields? (expected.get "reservations")).isSome = true ∧
    2 ≤ (fieldsOf (expected.get "reservations")).length ∧
    (fieldsOf (expected.get "reservations")).length ≤ 64) "reservation_count"
  need ((fields? (packet.get "reservations")).isSome = true ∧
    sameKeys (packet.get "reservations") (expected.get "reservations") = true)
    "reservation_inventory"
  let l ← carry (addReservation expected packet pool.capacity) ⟨[], 0, 0, 0, 0⟩
    (fieldsOf (expected.get "reservations"))
  need (l.allocatedBefore ≤ pool.capacity - pool.before ∧
    l.allocatedAfter ≤ pool.capacity - pool.after) "ledger_used_bytes"
  need (l.additional + reserves.bytes ≤ pool.before) "capacity_before"
  need (l.outstanding + reserves.bytes ≤ pool.after) "capacity_after"
  need (reserves.inodes + 2 ≤ pool.beforeInodes ∧ reserves.inodes ≤ pool.afterInodes) "pool_inodes"

/-- The checks of the volumes, and of the ranges of both in each phase. -/
def checkVolumes (expected packet : Value F) : Except String Unit := do
  shape (expected.get "volumes") ["blobs", "journal"]
  shape (packet.get "volumes") ["blobs", "journal"]
  let v ← carry (addVolume expected packet) ⟨[expected.get "poolUuid"], [], phases.map fun _ => []⟩
    roles
  each (fun physical => disjoint physical "volume_extent_alias") v.physical

/-- `validate` -/
def validate (expectedBytes : Utf8.Bytes) (expected packet : Value F) (now : ℤ) :
    Except String Unit := do
  let reserves ← checkHeads expectedBytes expected packet now
  let pool ← checkPool expected (packet.get "pool")
  checkReservations expected packet reserves pool
  checkVolumes expected packet
  need (same (packet.get "recovery") recovery = true) "recovery"

end Checks

/-! ## A packet -/

section Sample

def sampleDigest : Value F := .str (.scalar (String.ofList (List.replicate 64 'a')))

def sampleUuid (digit : Char) : Value F :=
  .str (.scalar (String.ofList (List.intercalate ['-']
    ([8, 4, 4, 4, 12].map fun n => List.replicate n digit))))

def samplePlain : Plain → Value F
  | .int n => .int n
  | .text s => .text s
  | .bool b => .bool b

def sampleRecord (fields : List (String × Plain)) : Value F :=
  .obj (fields.map fun field => (.scalar field.1, samplePlain field.2))

def sampleObject (fields : List (String × Value F)) : Value F :=
  .obj (fields.map fun field => (.scalar field.1, field.2))

def sampleIdentity (inode : ℤ) : Value F :=
  sampleObject [("device", .text "8:1"), ("inode", .int inode)]

/-- The size of an image, its inode on the pool and the number of its loop device. -/
structure SampleVolume where
  name : String
  uuid : Char
  size : ℤ
  inode : ℤ
  loop : String

def sampleBlobs : SampleVolume := ⟨"blobs", '1', 250 * 1024 ^ 3 + 4096, 11, "0"⟩

def sampleJournal : SampleVolume := ⟨"journal", '2', 4 * 1024 ^ 3 + 4096, 12, "1"⟩

def SampleVolume.config (v : SampleVolume) : Value F :=
  sampleObject [("backingFile", .text ("/var/lib/obsync-reserved/obsync-" ++ v.name ++ ".img")),
    ("filesystemUuid", sampleUuid v.uuid), ("imageBytes", .int v.size),
    ("minimumFreeInodes", .int 1)]

def SampleVolume.reservation (v : SampleVolume) : Text × Value F :=
  (.scalar ("obsync-" ++ v.name),
    sampleObject [("identity", sampleIdentity v.inode), ("reservedBytes", .int v.size)])

def SampleVolume.observed (v : SampleVolume) : Text × Value F :=
  (.scalar ("obsync-" ++ v.name),
    sampleObject [("identity", sampleIdentity v.inode), ("allocatedBeforeBytes", .int 0),
      ("allocatedAfterBytes", .int v.size)])

/-- Two extents in each phase, the second of them first on the pool. -/
def SampleVolume.evidence (v : SampleVolume) (start : ℤ) : Value F :=
  let phase := sampleObject [("identity", sampleIdentity v.inode), ("sizeBytes", .int v.size),
    ("allocatedBytes", .int v.size), ("extents", .arr [
      sampleObject [("logical", .int 0), ("physical", .int (start + 4096)),
        ("length", .int (v.size - 4096)), ("state", .text "written")],
      sampleObject [("logical", .int (v.size - 4096)), ("physical", .int start),
        ("length", .int 4096), ("state", .text "unwritten")]])]
  sampleObject [
    ("backing", .text ("/var/lib/obsync-reserved/obsync-" ++ v.name ++ ".img")),
    ("ownership", sampleRecord ownership),
    ("phases", sampleObject (phases.map fun name => (name, phase))),
    ("mount", sampleObject [
      ("target", .text ("/mnt/local-pie-ssd-reserved/obsync-" ++ v.name)),
      ("filesystem", .text "ext4"), ("uuid", sampleUuid v.uuid),
      ("sourceDevice", .text ("/dev/loop" ++ v.loop)), ("sourceMajorMinor", .text ("7:" ++ v.loop)),
      ("backingIdentity", sampleIdentity v.inode),
      ("flags", .arr [.text "rw", .text "nodev", .text "nosuid", .text "noexec", .text "nodiscard"]),
      ("topology", .text "exact-no-bind-no-nested-no-links"), ("uid", .int 65532),
      ("gid", .int 65532), ("mode", .text "0700"), ("acl", .text "none"),
      ("usableBytes", .int v.size), ("freeInodes", .int 1)]),
    ("fallback", sampleRecord fallback),
    ("prevention", sampleObject [("kernelRelease", .text "6.8.0"),
      ("mechanismSha256", sampleDigest), ("formatDiscard", .text "disabled"),
      ("loopDiscard", .text "blocked"), ("loopZeroUnmap", .text "blocked"),
      ("restartEnforcement", .text "verified"),
      ("explicitTrim", .text "blocked-reservation-unchanged")])]

def sampleExpected : Value F :=
  sampleObject [("schema", .int 1), ("profile", .text profile), ("node", .text "pie"),
    ("poolUuid", sampleUuid '3'), ("poolDevice", .text "8:1"), ("kernelRelease", .text "6.8.0"),
    ("recoveryDecisionSha256", sampleDigest), ("hostReserveBytes", .int 4096),
    ("hostReserveInodes", .int 1),
    ("reservations", .obj [sampleBlobs.reservation, sampleJournal.reservation]),
    ("volumes", sampleObject [("blobs", sampleBlobs.config), ("journal", sampleJournal.config)])]

/-- Evidence in which the journal begins at a place of the pool. -/
def samplePacket (journalStart : ℤ) : Value F :=
  sampleObject [("schema", .int 1), ("profile", .text profile),
    ("expectedSha256", .text (Sha256.hexdigest [])), ("capturedAt", .int 1000),
    ("rawEvidenceSha256", sampleDigest),
    ("pool", sampleObject [("uuid", sampleUuid '3'), ("device", .text "8:1"),
      ("filesystem", .text "ext4"), ("node", .text "pie"), ("capacityBytes", .int (2 ^ 40)),
      ("availableBeforeBytes", .int (2 ^ 39)), ("availableAfterBytes", .int (2 ^ 38)),
      ("availableBeforeInodes", .int 3), ("availableAfterInodes", .int 1),
      ("inventoryComplete", .bool true)]),
    ("reservations", .obj [sampleBlobs.observed, sampleJournal.observed]),
    ("volumes", sampleObject [("blobs", sampleBlobs.evidence 4096),
      ("journal", sampleJournal.evidence journalStart)]),
    ("recovery", sampleRecord recovery)]

theorem samplePacket_accepted :
    validate [] (sampleExpected : Value (List Char)) (samplePacket (2 ^ 39)) 1000 = .ok () := by
  decide +kernel

end Sample

end ReservedStorage
