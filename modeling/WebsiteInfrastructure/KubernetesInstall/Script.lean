import Mathlib

/-!
# Installing the Kubernetes runtime

`bootstrap/pi/install-kubernetes.sh --apply`, from `transaction_started` on: the mutation phase,
command by command, and the exit handler. A hash stands for the content of a file.
-/

namespace KubernetesInstall

/-- The components of an absolute path. -/
abbrev Path := List String

def parent (p : Path) : Path := p.dropLast

inductive Kind
  | directory
  | file (hash : String)
  /-- A symbolic link, a device, a socket or a pipe. -/
  | special
deriving DecidableEq

/-- A directory entry, and whether the run made it. -/
structure Entry where
  kind : Kind
  mine : Bool
deriving DecidableEq

abbrev Entries := Finmap fun _ : Path => Entry

def IsDirectory (entries : Entries) (p : Path) : Prop :=
  ∃ mine, entries.lookup p = some ⟨.directory, mine⟩

inductive Service
  | containerd | kubelet
deriving DecidableEq

structure ServiceState where
  active : Bool
  enabled : Bool
deriving DecidableEq

def ServiceState.off : ServiceState := ⟨false, false⟩

structure World where
  entries : Entries
  service : Service → ServiceState
  createdDirectories : List Path
  installedDestinations : List Path
  installedHashes : List String
  pendingDestination : Option Path
  serviceMutationStarted : Bool
  /-- What others have put where nothing was, since the transaction started. -/
  appeared : List (Path × Entry)

structure Target where
  destination : Path
  hash : String

namespace World

/-- Whatever another process puts where nothing was is not of the run. -/
def appear (w : World) (p : Path) (kind : Kind) : World :=
  { w with
    entries := w.entries.insert p ⟨kind, false⟩
    appeared := w.appeared ++ [(p, ⟨kind, false⟩)] }

def make (w : World) (p : Path) (kind : Kind) : World :=
  { w with entries := w.entries.insert p ⟨kind, true⟩ }

def remove (w : World) (p : Path) : World :=
  { w with entries := w.entries.erase p }

end World

/-! ## The mutation phase -/

/-- Where `exclusive_install` is. -/
inductive Stage
  | staging | copying | comparing | linking | recordingDestination | recordingHash | removing | clearing
deriving DecidableEq

inductive Command
  /-- One component of `ensure_directory`; `made` after `install -d` and before the record. -/
  | ensureDirectory (p : Path) (made : Bool)
  | exclusiveInstall (t : Target) (stage : Stage)
  /-- `service_mutation_started='yes'` -/
  | startServices
  /-- `systemctl enable` and `systemctl enable --now` -/
  | changeServices
  /-- `systemctl daemon-reload` and the verification -/
  | check

/-- The directories above and including one, from the top. -/
def chain (directory : Path) : List Path := directory.inits.tail

def targetDirectories : List Path :=
  [["usr", "local", "bin"], ["usr", "local", "sbin"], ["opt", "cni", "bin"], ["etc", "containerd"],
    ["etc", "systemd", "system"]]

def script (targets : List Target) : List Command :=
  (targetDirectories.flatMap chain).map (.ensureDirectory · false) ++
    targets.map (.exclusiveInstall · .staging) ++
    [.check, .startServices, .changeServices, .changeServices] ++ List.replicate 10 .check

/-- A command succeeds; the rest of its function comes next. -/
inductive Command.Runs (w : World) : Command → List Command → World → Prop
  | present {p : Path} {e : Entry} (hentry : w.entries.lookup p = some e)
      (hdirectory : e.kind = .directory) : Runs w (.ensureDirectory p false) [] w
  | makeDirectory {p : Path} (habsent : p ∉ w.entries) (hparent : IsDirectory w.entries (parent p)) :
      Runs w (.ensureDirectory p false) [.ensureDirectory p true] (w.make p .directory)
  | recordDirectory {p : Path} : Runs w (.ensureDirectory p true) []
      { w with createdDirectories := w.createdDirectories ++ [p] }
  /-- `mktemp` makes a new file beside the destination. -/
  | stage {t : Target} {p : Path} (habsent : p ∉ w.entries) (hparent : IsDirectory w.entries (parent p))
      (hbeside : parent p = parent t.destination) :
      Runs w (.exclusiveInstall t .staging) [.exclusiveInstall t .copying]
        { w.make p (.file "") with pendingDestination := some p }
  | copy {t : Target} {p : Path} (hpending : w.pendingDestination = some p) (hash : String) :
      Runs w (.exclusiveInstall t .copying) [.exclusiveInstall t .comparing] (w.make p (.file hash))
  | compare {t : Target} {p : Path} {e : Entry} (hpending : w.pendingDestination = some p)
      (hentry : w.entries.lookup p = some e) (hhash : e.kind = .file t.hash) :
      Runs w (.exclusiveInstall t .comparing) [.exclusiveInstall t .linking] w
  | link {t : Target} (habsent : t.destination ∉ w.entries)
      (hparent : IsDirectory w.entries (parent t.destination)) :
      Runs w (.exclusiveInstall t .linking) [.exclusiveInstall t .recordingDestination]
        (w.make t.destination (.file t.hash))
  | recordDestination {t : Target} :
      Runs w (.exclusiveInstall t .recordingDestination) [.exclusiveInstall t .recordingHash]
        { w with installedDestinations := w.installedDestinations ++ [t.destination] }
  | recordHash {t : Target} :
      Runs w (.exclusiveInstall t .recordingHash) [.exclusiveInstall t .removing]
        { w with installedHashes := w.installedHashes ++ [t.hash] }
  | unlink {t : Target} {p : Path} (hpending : w.pendingDestination = some p) :
      Runs w (.exclusiveInstall t .removing) [.exclusiveInstall t .clearing] (w.remove p)
  | clear {t : Target} :
      Runs w (.exclusiveInstall t .clearing) [] { w with pendingDestination := none }
  | startServices : Runs w .startServices [] { w with serviceMutationStarted := true }
  | changeServices (service : Service → ServiceState) :
      Runs w .changeServices [] { w with service }
  | check : Runs w .check [] w

/-- What a failing or an interrupted command leaves. -/
inductive Command.Fails (w : World) : Command → World → Prop
  | unchanged (c : Command) : Fails w c w
  | makeDirectory {p : Path} (habsent : p ∉ w.entries) (hparent : IsDirectory w.entries (parent p)) :
      Fails w (.ensureDirectory p false) (w.make p .directory)
  /-- `mktemp` makes the file and is interrupted before it prints the name. -/
  | stage {t : Target} {p : Path} (habsent : p ∉ w.entries) (hparent : IsDirectory w.entries (parent p))
      (hbeside : parent p = parent t.destination) :
      Fails w (.exclusiveInstall t .staging) (w.make p (.file ""))
  | copy {t : Target} {p : Path} (hpending : w.pendingDestination = some p) (hash : String) :
      Fails w (.exclusiveInstall t .copying) (w.make p (.file hash))
  | copyRemoved {t : Target} {p : Path} (hpending : w.pendingDestination = some p) :
      Fails w (.exclusiveInstall t .copying) (w.remove p)
  | changeServices (service : Service → ServiceState) : Fails w .changeServices { w with service }

/-- One command, or something another process puts where nothing was. -/
inductive Step : List Command × World → List Command × World → Prop
  | command {c : Command} {next rest : List Command} {w w' : World} (h : c.Runs w next w') :
      Step (c :: rest, w) (next ++ rest, w')
  | appear {commands : List Command} {w : World} {p : Path} (habsent : p ∉ w.entries)
      (hparent : IsDirectory w.entries (parent p)) (kind : Kind) : Step (commands, w) (commands, w.appear p kind)

/-- Where a run can be stopped: by a signal between two commands, the last of them being followed by
`transaction_complete='yes'`, or by a command that fails. -/
inductive Stopped (targets : List Target) (start : World) : World → Prop
  | signal {commands : List Command} {w : World}
      (h : Relation.ReflTransGen Step (script targets, start) (commands, w)) : Stopped targets start w
  | failure {c : Command} {rest : List Command} {w w' : World}
      (h : Relation.ReflTransGen Step (script targets, start) (c :: rest, w))
      (hfails : c.Fails w w') : Stopped targets start w'

/-- The collision checks that every `--apply` makes before its transaction. -/
def collisionFree (targets : List Target) (entries : Entries) (service : Service → ServiceState) :
    Prop :=
  (∀ t ∈ targets, t.destination ∉ entries) ∧ ∀ name, service name = .off

/-- What holds where a transaction starts. -/
structure Start (targets : List Target) (w : World) : Prop where
  collisionFree : collisionFree targets w.entries w.service
  others : ∀ p e, w.entries.lookup p = some e → e.mine = false
  tree : ∀ p, p ∈ w.entries → IsDirectory w.entries (parent p)
  createdDirectories : w.createdDirectories = []
  installedDestinations : w.installedDestinations = []
  installedHashes : w.installedHashes = []
  pendingDestination : w.pendingDestination = none
  serviceMutationStarted : w.serviceMutationStarted = false
  appeared : w.appeared = []

/-! ## The exit handler -/

/-- Which commands of the rollback fail. -/
structure Faults where
  /-- The services after `systemctl disable --now`. -/
  service : Service → ServiceState
  remove : Path → Bool
  rmdir : Path → Bool
  reload : Bool

/-- A world, and whether `rollback_failed` is set. -/
structure Attempt where
  world : World
  failed : Bool

namespace Attempt

def fail (a : Attempt) : Attempt := { a with failed := true }

/-- A removal, or `rollback_failed=1` -/
def removeUnless (a : Attempt) (fails : Bool) (p : Path) : Attempt :=
  if fails then a.fail else { a with world := a.world.remove p }

end Attempt

def Service.all : List Service := [.containerd, .kubelet]

def disableServices (faults : Faults) (w : World) : Attempt :=
  if w.serviceMutationStarted then
    ⟨{ w with service := faults.service }, Service.all.any fun name => faults.service name ≠ .off⟩
  else ⟨w, false⟩

def removePending (faults : Faults) (a : Attempt) : Attempt :=
  match a.world.pendingDestination with
  | none => a
  | some p =>
    match a.world.entries.lookup p with
    | none => a
    | some ⟨.file _, _⟩ => a.removeUnless (faults.remove p) p
    | some _ => a.fail

/-- One round of the loop over `installed_destinations` -/
def removeInstalled (faults : Faults) (a : Attempt) (installed : Path × String) : Attempt :=
  match a.world.entries.lookup installed.1 with
  | none => a
  | some ⟨.file actual, _⟩ =>
    if actual = installed.2 then a.removeUnless (faults.remove installed.1) installed.1 else a.fail
  | some _ => a.fail

/-- No entry is in a directory. -/
def isEmpty (entries : Entries) (directory : Path) : Bool :=
  decide (∀ p ∈ entries.keys, p = [] ∨ parent p ≠ directory)

/-- One round of the loop over `created_directories` -/
def removeCreated (faults : Faults) (a : Attempt) (directory : Path) : Attempt :=
  match a.world.entries.lookup directory with
  | none => a
  | some ⟨.directory, _⟩ =>
    a.removeUnless (faults.rmdir directory || !isEmpty a.world.entries directory) directory
  | some _ => a.fail

/-- `rollback_installation`; `none` when an index without a hash is read, which ends the shell. -/
def rollbackInstallation (faults : Faults) (w : World) : Option Attempt :=
  let unpended := removePending faults (disableServices faults w)
  if w.installedHashes.length < w.installedDestinations.length then none
  else
    let installed := (w.installedDestinations.zip w.installedHashes).reverse
    let uninstalled := installed.foldl (removeInstalled faults) unpended
    let reloaded := if faults.reload then uninstalled.fail else uninstalled
    some (w.createdDirectories.reverse.foldl (removeCreated faults) reloaded)

inductive Message
  | complete | incomplete
deriving DecidableEq

/-- `on_exit`: the entries and services it leaves, and its message. A further signal ends the shell
before it is printed. -/
def onExit (interrupted : Bool) (faults : Faults) (w : World) : Option (Message × World) :=
  if interrupted then none
  else (rollbackInstallation faults w).map fun a =>
    (if a.failed then .incomplete else .complete, a.world)

end KubernetesInstall
