import Mathlib
import WebsiteInfrastructure.Library.PurePath

/-!
# The mount of the protected archive

The record of the mount that contains the archive is selected only where no other mount gives a
part of the archive a second name.
-/

namespace ProtectedHost

open PurePosixPath

structure MountInfoRecord where
  mountId : ℤ
  parentId : ℤ
  majorMinor : String
  root : PurePosixPath
  mountPoint : PurePosixPath
  filesystemType : String
  deriving DecidableEq

def allowedArchiveFilesystemTypes : List String := ["btrfs", "ext4", "f2fs", "xfs", "zfs"]

/-- One path contains the other. -/
def pathsOverlap (first second : PurePosixPath) : Bool :=
  first = second || first ∈ second.parents || second ∈ first.parents

/-- The mounts on the way to the target and those below it. -/
def relevantRecords (target : PurePosixPath) (records : List MountInfoRecord) :
    List MountInfoRecord :=
  records.filter fun record => record.mountPoint = target || record.mountPoint ∈ target.parents ||
    target ∈ record.mountPoint.parents

def candidateRecords (target : PurePosixPath) (records : List MountInfoRecord) :
    List MountInfoRecord :=
  (relevantRecords target records).filter fun record =>
    record.mountPoint = target || record.mountPoint ∈ target.parents

/-- The selected record, and the errors. -/
abbrev Selection := Option MountInfoRecord × List String

/-- The checks of the selected record. -/
def checkSelected (target : PurePosixPath) (records : List MountInfoRecord)
    (selected : MountInfoRecord) : Selection :=
  if selected.filesystemType ∉ allowedArchiveFilesystemTypes then
    (none, ["uses an unsupported non-local or non-durable filesystem"])
  else match target.relativeTo selected.mountPoint with
    | none => (none, ["containing mount relationship is invalid"])
    | some relative =>
      let archiveFilesystemRoot :=
        if relative = ofString "." then selected.root else selected.root.joinpath relative
      if records.any fun record => record.mountId ≠ selected.mountId &&
          record.majorMinor = selected.majorMinor &&
          pathsOverlap record.root archiveFilesystemRoot then
        (none, ["has an external mount alias"])
      else (some selected, [])

/-- `_mount_record_from_records` -/
def mountRecordFromRecords (value : String) (records : List MountInfoRecord) : Selection :=
  let target := ofString value
  let relevant := relevantRecords target records
  if ¬ (records.map (·.mountId)).Nodup then
    (none, ["mount topology has duplicate record identifiers"])
  else if ¬ (relevant.map (·.mountPoint)).Nodup then
    (none, ["has an ambiguous stacked mount topology"])
  else if relevant.any fun record => target ∈ record.mountPoint.parents then
    (none, ["contains an undeclared descendant mount"])
  else match (candidateRecords target records).argmax fun record => record.mountPoint.partsLength with
    | none => (none, ["containing mount is unavailable"])
    | some selected => checkSelected target records selected

/-! ## Resolution -/

/-- A path is resolved by a mount with the longest mount point that contains it, to a device and a
path in its file system. -/
def ResolvesTo (records : List MountInfoRecord) (path : PurePosixPath) (device : String)
    (inner : PurePosixPath) : Prop :=
  ∃ mount ∈ records, mount.majorMinor = device ∧
    (∀ other ∈ records, other.mountPoint.Contains path →
      other.mountPoint.names.length ≤ mount.mountPoint.names.length) ∧
    ∃ relative, path.relativeTo mount.mountPoint = some relative ∧
      inner = mount.root.joinpath relative

variable {target path : PurePosixPath} {records : List MountInfoRecord}
  {record selected : MountInfoRecord}

theorem pathsOverlap_iff {p q : PurePosixPath} :
    pathsOverlap p q = true ↔ p.Contains q ∨ q.Contains p := by
  simp only [pathsOverlap, Bool.or_eq_true, decide_eq_true_eq, Contains, @eq_comm _ q p]
  tauto

theorem mem_candidateRecords : record ∈ candidateRecords target records ↔
    record ∈ records ∧ record.mountPoint.Contains target := by
  simp only [candidateRecords, relevantRecords, List.mem_filter, Bool.or_eq_true, decide_eq_true_eq,
    Contains]
  tauto

theorem mem_relevantRecords_of_contains (hmem : record ∈ records)
    (h : record.mountPoint.Contains target) : record ∈ relevantRecords target records :=
  (List.mem_filter.mp (mem_candidateRecords.mpr ⟨hmem, h⟩ :
    record ∈ candidateRecords target records)).1

/-- Everything that was checked about the selected record. -/
structure Selected (target : PurePosixPath) (records : List MountInfoRecord)
    (selected : MountInfoRecord) : Prop where
  mem : selected ∈ records
  contains : selected.mountPoint.Contains target
  longest : ∀ other ∈ records, other.mountPoint.Contains target →
    other.mountPoint.names.length ≤ selected.mountPoint.names.length
  /-- No other record has its mount point. -/
  unique : ∀ other ∈ records, other.mountPoint = selected.mountPoint → other = selected
  /-- No other mount of the device overlaps with the archive. -/
  apart : ∀ other ∈ records, other ≠ selected → other.majorMinor = selected.majorMinor →
    ∀ relative, target.relativeTo selected.mountPoint = some relative →
      pathsOverlap other.root (selected.root.joinpath relative) = false

theorem joinpath_self (root relative : PurePosixPath) :
    (if relative = ofString "." then root else root.joinpath relative) = root.joinpath relative := by
  have hdot : ofString "." = ⟨.relative, []⟩ := by decide
  rw [hdot]
  split_ifs with hself
  · subst hself
    simp [joinpath]
  · rfl

/-- The candidates start like the target, so the number of parts compares the names. -/
theorem names_le_of_argmax (h : selected ∈ (candidateRecords target records).argmax
    fun record => record.mountPoint.partsLength) :
    ∀ other ∈ records, other.mountPoint.Contains target →
      other.mountPoint.names.length ≤ selected.mountPoint.names.length := by
  intro other hother hcontains
  have hselected := (mem_candidateRecords.mp (List.argmax_mem h)).2
  have hle := List.le_of_mem_argmax (mem_candidateRecords.mpr ⟨hother, hcontains⟩) h
  have hanchor := (contains_iff.mp hcontains).1.trans (contains_iff.mp hselected).1.symm
  simp only [partsLength, hanchor] at hle
  omega

theorem checkSelected_eq (h : checkSelected target records record = (some selected, [])) :
    record = selected ∧ ∀ other ∈ records, other.mountId ≠ selected.mountId →
      other.majorMinor = selected.majorMinor → ∀ relative,
        target.relativeTo selected.mountPoint = some relative →
          pathsOverlap other.root (selected.root.joinpath relative) = false := by
  unfold checkSelected at h
  by_cases htype : record.filesystemType ∉ allowedArchiveFilesystemTypes
  · simp [htype] at h
  rw [if_neg htype] at h
  cases hrelative : target.relativeTo record.mountPoint with
  | none => simp [hrelative] at h
  | some relative =>
    simp only [hrelative, joinpath_self] at h
    by_cases halias : (records.any fun other => other.mountId ≠ record.mountId &&
        other.majorMinor = record.majorMinor &&
        pathsOverlap other.root (record.root.joinpath relative)) = true
    · rw [if_pos halias] at h
      cases h
    rw [if_neg halias] at h
    obtain rfl : record = selected := by
      injection h with hsome
      injection hsome
    refine ⟨rfl, fun other hother hid hdevice relative' hrelative' => ?_⟩
    rw [hrelative] at hrelative'
    cases hrelative'
    by_contra hoverlap
    exact halias (List.any_eq_true.mpr ⟨other, hother, by simp [hid, hdevice, hoverlap]⟩)

theorem selected_of_mountRecord {value : String}
    (h : mountRecordFromRecords value records = (some selected, [])) :
    Selected (ofString value) records selected := by
  unfold mountRecordFromRecords at h
  by_cases hids : (records.map (·.mountId)).Nodup
  swap
  · simp [hids] at h
  by_cases hpoints : ((relevantRecords (ofString value) records).map (·.mountPoint)).Nodup
  swap
  · simp [hids, hpoints] at h
  by_cases hbelow : ((relevantRecords (ofString value) records).any fun record =>
      ofString value ∈ record.mountPoint.parents) = true
  · simp only [hids, hpoints, hbelow, not_true_eq_false, if_false, if_true] at h
    cases h
  simp only [hids, hpoints, hbelow, not_true_eq_false, if_false] at h
  cases hmax : (candidateRecords (ofString value) records).argmax
      fun record => record.mountPoint.partsLength with
  | none => simp [hmax] at h
  | some record =>
    simp only [hmax] at h
    obtain ⟨rfl, hapart⟩ := checkSelected_eq h
    have hmem := mem_candidateRecords.mp (List.argmax_mem hmax)
    have hinjective := List.inj_on_of_nodup_map hids
    have hdistinct := List.inj_on_of_nodup_map hpoints
    refine ⟨hmem.1, hmem.2, names_le_of_argmax hmax, fun other hother hpoint => ?_,
      fun other hother hne hdevice => hapart other hother (fun hid => ?_) hdevice⟩
    · have hcontains : other.mountPoint.Contains (ofString value) := hpoint ▸ hmem.2
      exact hdistinct (mem_relevantRecords_of_contains hother hcontains)
        (mem_relevantRecords_of_contains hmem.1 hmem.2) hpoint
    · exact hne (hinjective hother hmem.1 hid)

/-- The selected mount is the only one that resolves the target. -/
theorem Selected.eq_of_resolves (h : Selected target records selected) (hmem : record ∈ records)
    (hcontains : record.mountPoint.Contains target)
    (hlongest : ∀ other ∈ records, other.mountPoint.Contains target →
      other.mountPoint.names.length ≤ record.mountPoint.names.length) : record = selected := by
  have hle := h.longest record hmem hcontains
  have hge := hlongest selected h.mem h.contains
  have hpoint : record.mountPoint = selected.mountPoint :=
    (hcontains.of_length_le h.contains hle).antisymm (h.contains.of_length_le hcontains hge)
  exact h.unique record hmem hpoint

/-- A path inside the archive is reached through the selected mount, below the target. -/
theorem Selected.contains_of_inside (h : Selected target records selected) (hmem : record ∈ records)
    (hdevice : record.majorMinor = selected.majorMinor) {archive relative : PurePosixPath}
    (harchive : target.relativeTo selected.mountPoint = some archive)
    (hrelative : path.relativeTo record.mountPoint = some relative)
    (hinside : (selected.root.joinpath archive).Contains (record.root.joinpath relative)) :
    target.Contains path := by
  have hpath := contains_of_relativeTo hrelative
  rw [relativeTo_eq_some hpath] at hrelative
  cases hrelative
  by_cases hsame : record = selected
  · subst hsame
    rw [relativeTo_eq_some h.contains] at harchive
    cases harchive
    exact (contains_joinpath_drop h.contains hpath).mp hinside
  · -- another mount would have to overlap with the archive
    have hroot : record.root.Contains
        (record.root.joinpath ⟨.relative, path.names.drop record.mountPoint.names.length⟩) :=
      contains_joinpath record.root _
    have hoverlap : pathsOverlap record.root (selected.root.joinpath archive) = true := by
      rw [pathsOverlap_iff]
      cases Nat.le_total record.root.names.length (selected.root.joinpath archive).names.length with
      | inl hle => exact .inl (hroot.of_length_le hinside hle)
      | inr hge => exact .inr (hinside.of_length_le hroot hge)
    rw [h.apart record hmem hsame hdevice archive harchive] at hoverlap
    cases hoverlap

/-- Where a record is selected, the target is resolved, and whatever is resolved to a place inside
its subtree is the target or lies below it. -/
theorem no_alias_escapes (value : String) (records : List MountInfoRecord)
    (selected : MountInfoRecord)
    (h : mountRecordFromRecords value records = (some selected, [])) :
    (∃ archive, ResolvesTo records (ofString value) selected.majorMinor archive) ∧
      ∀ device archive, ResolvesTo records (ofString value) device archive →
        ∀ path inner, ResolvesTo records path device inner → archive.Contains inner →
          (ofString value).Contains path := by
  have hselected := selected_of_mountRecord h
  constructor
  · exact ⟨_, selected, hselected.mem, rfl, hselected.longest, _,
      relativeTo_eq_some hselected.contains, rfl⟩
  · rintro device archive ⟨mount, hmount, rfl, hlongest, below, hbelow, rfl⟩ path inner
      ⟨record, hrecord, hdevice, -, relative, hrelative, rfl⟩ hinside
    have hsame := hselected.eq_of_resolves hmount (contains_of_relativeTo hbelow) hlongest
    subst hsame
    exact hselected.contains_of_inside hrecord hdevice hbelow hrelative hinside

/-- The file system of the archive, with another one below its root. -/
def sampleRecords : List MountInfoRecord :=
  [⟨1, 0, "8:1", ofString "/", ofString "/", "ext4"⟩,
    ⟨2, 1, "8:2", ofString "/data", ofString "/srv", "xfs"⟩,
    ⟨3, 1, "8:2", ofString "/other", ofString "/mnt", "xfs"⟩]

theorem no_alias_escapes_sample :
    ∃ archive, ResolvesTo sampleRecords (ofString "/srv/a") "8:2" archive :=
  (no_alias_escapes "/srv/a" sampleRecords
    ⟨2, 1, "8:2", ofString "/data", ofString "/srv", "xfs"⟩ (by decide)).1

end ProtectedHost
