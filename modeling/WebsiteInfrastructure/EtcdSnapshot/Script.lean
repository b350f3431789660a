import Mathlib
import WebsiteInfrastructure.Library.PythonText
import WebsiteInfrastructure.Library.Raising
import WebsiteInfrastructure.Library.Ranking

/-!
# The etcd snapshot script

`etcd-snapshot.sh --apply` on the snapshot directory: every state that the directory goes through,
and how the run ends. A crash leaves one of these states.
-/

namespace EtcdSnapshot

open Raising Ranking

abbrev Name := List Char

/-- A file of the snapshot directory. -/
structure File where
  regular : Bool
  owner : ℕ
  mode : ℕ
  /-- `etcdutl snapshot status` accepts the content. -/
  verifies : Bool
  /-- The snapshot was written to its end. -/
  complete : Bool
  /-- The creations are numbered in the order in which they happen. -/
  created : ℕ
  deriving DecidableEq

abbrev Directory := List (Name × File)

namespace Directory

def names (d : Directory) : List Name := d.map Prod.fst

def remove (d : Directory) (name : Name) : Directory := d.filter fun e => e.1 ≠ name

def put (d : Directory) (name : Name) (file : File) : Directory := (name, file) :: d.remove name

end Directory

/-! ## Names -/

/-- `[0-9]{8}T[0-9]{6}Z` -/
def isTimestamp (cs : List Char) : Bool :=
  cs.length = 16 && (cs.take 8).all Char.isDigit && cs[8]? = some 'T' &&
    ((cs.drop 9).take 6).all Char.isDigit && cs[15]? = some 'Z'

/-- What `date -u +%Y%m%dT%H%M%SZ` prints. -/
structure Reading where
  timestamp : List Char
  valid : isTimestamp timestamp = true

def snapshotStart : Name := "snapshot-".toList

def snapshotEnd : Name := ".db".toList

/-- `^snapshot-[0-9]{8}T[0-9]{6}Z[.]db$` -/
def isSnapshotName (name : Name) : Bool :=
  name.length = 28 && snapshotStart.isPrefixOf name && isTimestamp ((name.drop 9).take 16) &&
    name.drop 25 = snapshotEnd

/-- `find -name 'snapshot-????????T??????Z.db'` -/
def isListedName (name : Name) : Bool :=
  name.length = 28 && snapshotStart.isPrefixOf name && name[17]? = some 'T' &&
    name[24]? = some 'Z' && name.drop 25 = snapshotEnd

def snapshotName (reading : Reading) : Name := snapshotStart ++ reading.timestamp ++ snapshotEnd

def partialName (reading : Reading) (pid : ℕ) : Name :=
  '.' :: snapshotName reading ++ ".partial.".toList ++ Nat.toDigits 10 pid

/-- `etcdctl` writes to this name and renames the file when it is complete. -/
def partName (reading : Reading) (pid : ℕ) : Name := partialName reading pid ++ ".part".toList

/-! ## What happens around a run -/

/-- How far `etcdctl snapshot save` comes. -/
inductive Save
  | refused
  | cut
  | done (verifies : Bool)

structure Run where
  /-- The decisions, the tools, the TLS files and the directory itself pass their checks. -/
  prepared : Bool
  healthy : Bool
  lockFree : Bool
  reading : Reading
  pid : ℕ
  save : Save
  chmodWorks : Bool
  moveWorks : Bool
  statusWorks : Bool
  removeWorks : Name → Bool

/-! ## Validation -/

/-- `basename`, in a command substitution -/
def baseName (name : Name) : Name := name.rdropWhile (· = '\n')

def text (name : Name) : String := String.ofList name

/-- One turn of the loop in `validate_snapshot_files`. -/
def validateEntry (e : Name × File) : Except String Unit := do
  raiseIf (isSnapshotName (baseName e.1) = false)
    s!"unexpected entry in snapshot directory: {text (baseName e.1)}"
  raiseIf (e.2.regular = false) s!"snapshot entry is not a regular file: {text (baseName e.1)}"
  raiseIf (e.2.owner ≠ 0) s!"snapshot is not owned by root: {text (baseName e.1)}"
  raiseIf (e.2.mode ≠ 600) s!"snapshot mode is not 0600: {text (baseName e.1)}"
  raiseIf (e.2.verifies = false) s!"snapshot verification failed: {text (baseName e.1)}"

/-- The glob lists the entries in the order of their names, hidden ones included. -/
def globbed (d : Directory) : Directory := d.insertionSort fun e f => e.1 ≤ f.1

def validateSnapshotFiles (enforceRetention : Bool) (d : Directory) : Except String Unit := do
  each validateEntry (globbed d)
  raiseIf (enforceRetention = true ∧ d.length = 0) "snapshot retention is empty"
  raiseIf (enforceRetention = true ∧ 14 < d.length)
    s!"snapshot retention exceeds 14 files: {d.length}"

/-! ## The run -/

inductive Outcome
  | passed
  | died (message : String)
  deriving DecidableEq

/-- The states of the directory, and what comes of them. -/
abbrev Trace (α : Type) := List Directory × α

/-- The end of a run after the trap is set: both hidden names are removed. -/
def cleanedUp (r : Run) (d : Directory) (outcome : Outcome) : Trace Outcome :=
  let bare := d.remove (partialName r.reading r.pid)
  ([d, bare, bare.remove (partName r.reading r.pid)], outcome)

/-- The loop over the names beyond the retention; `rm` failing ends the script. -/
def prune (r : Run) : List Name → Directory → Trace (Directory × Outcome)
  | [], d => ([d], d, .passed)
  | name :: names, d =>
    if isSnapshotName name = false then ([d], d, .died "retention selected an unsafe filename")
    else if (d.lookup name).any File.regular = false then
      ([d], d, .died "retention target changed unexpectedly")
    else if r.removeWorks name = false then ([d], d, .died "")
    else
      let (states, rest) := prune r names (d.remove name)
      (d :: states, rest)

/-- The names that `find | sort -r` lists from the fifteenth on. -/
def retired (d : Directory) : List Name :=
  beyond 14 ((d.filter fun e => e.2.regular && isListedName e.1).map Prod.fst)

/-- The retention and the last validation. -/
def retain (r : Run) (d : Directory) : Trace Outcome :=
  let (states, pruned, outcome) := prune r (retired d) d
  match outcome with
  | .died message =>
    let (more, ended) := cleanedUp r pruned (.died message)
    (states ++ more, ended)
  | .passed =>
    match validateSnapshotFiles true pruned with
    | .error message =>
      let (more, ended) := cleanedUp r pruned (.died message)
      (states ++ more, ended)
    | .ok () => (states, .passed)

/-- The file that `etcdctl` writes, from its first byte on. -/
def halfWritten (created : ℕ) : File where
  regular := true
  owner := 0
  mode := 600
  verifies := false
  complete := false
  created := created

def written (verifies : Bool) (created : ℕ) : File :=
  { halfWritten created with verifies := verifies, complete := true }

/-- From the saved file on. -/
def publish (r : Run) (d : Directory) (file : File) : Trace Outcome :=
  let partialPath := partialName r.reading r.pid
  let saved := d.put partialPath file
  if r.chmodWorks = false then cleanedUp r saved (.died "")
  else if file.verifies = false then cleanedUp r saved (.died "new etcd snapshot failed verification")
  else if r.moveWorks = false then cleanedUp r saved (.died "")
  else
    let published := (saved.remove partialPath).put (snapshotName r.reading) file
    if r.statusWorks = false ∧ r.removeWorks (snapshotName r.reading) = false then
      let (states, outcome) := cleanedUp r published (.died "")
      (saved :: states, outcome)
    else if r.statusWorks = false then
      let (states, outcome) := cleanedUp r (published.remove (snapshotName r.reading))
        (.died "installed etcd snapshot failed final verification and was removed")
      (saved :: published :: states, outcome)
    else
      let (states, outcome) := retain r published
      (saved :: states, outcome)

/-- From the lock on. -/
def snapshot (r : Run) (created : ℕ) (d : Directory) : Trace Outcome :=
  match validateSnapshotFiles false d with
  | .error message => ([d], .died message)
  | .ok () =>
    if snapshotName r.reading ∈ d.names then
      ([d], .died s!"snapshot target already exists: {text (snapshotName r.reading)}")
    else
      let part := partName r.reading r.pid
      match r.save with
      | .refused =>
        let (states, outcome) := cleanedUp r d (.died "etcd snapshot save failed")
        (d :: states, outcome)
      | .cut =>
        let (states, outcome) := cleanedUp r (d.put part (halfWritten created))
          (.died "etcd snapshot save failed")
        (d :: states, outcome)
      | .done verifies =>
        let (states, outcome) := publish r d (written verifies created)
        (d :: d.put part (halfWritten created) :: states, outcome)

/-- `etcd-snapshot.sh --apply` -/
def apply (r : Run) (created : ℕ) (d : Directory) : Trace Outcome :=
  if r.prepared = false then ([d], .died "")
  else if r.healthy = false then ([d], .died "local stacked-etcd health check failed")
  else if r.lockFree = false then ([d], .died "another etcd snapshot operation is already running")
  else snapshot r created d

end EtcdSnapshot
