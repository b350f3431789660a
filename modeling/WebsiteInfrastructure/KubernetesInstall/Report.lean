import Mathlib
import WebsiteInfrastructure.KubernetesInstall.Rollback

/-!
# When the report is true

Wherever the mutation phase is stopped, the message of the exit handler is true for every failure
of the rollback, if and only if the records miss nothing that the rollback could not notice.
-/

namespace KubernetesInstall

variable {targets : List Target} {start w after : World} {faults : Faults} {p : Path} {e : Entry}

/-- What `rollback=complete` promises. -/
structure RolledBack (targets : List Target) (start w after : World) : Prop where
  gone : ∀ p e, after.entries.lookup p = some e → e.mine = false
  services : ∀ name, after.service name = .off
  before : ∀ p e, start.entries.lookup p = some e → after.entries.lookup p = some e
  appeared : ∀ x ∈ w.appeared, after.entries.lookup x.1 = some x.2
  /-- Nobody else having taken a destination, the checks of a repeated `--apply` pass again. -/
  retry : (∀ t ∈ targets, ∀ x ∈ w.appeared, x.1 ≠ t.destination) →
    collisionFree targets after.entries after.service

/-- The handler prints one of its messages, and the first one only if it is true. -/
def Truthful (targets : List Target) (start w : World) (interrupted : Bool) (faults : Faults) : Prop :=
  match onExit interrupted faults w with
  | none => False
  | some (.incomplete, _) => True
  | some (.complete, after) => RolledBack targets start w after

/-- Something the run made that it has not recorded, or a file of another process under the name
of the staging file. -/
def Missed (w : World) : Prop :=
  (∃ p e, w.entries.lookup p = some e ∧ e.mine = true ∧ ¬ Recorded w p) ∨
    ∃ p hash, w.pendingDestination = some p ∧ w.entries.lookup p = some ⟨.file hash, false⟩

/-- An entry that is not recorded keeps a recorded directory, or the staging path holds no file. -/
def Noticed (w : World) : Prop :=
  (∃ p, p ∈ w.entries ∧ p ≠ [] ∧ ¬ Recorded w p ∧ parent p ∈ w.createdDirectories) ∨
    ∃ p e, w.pendingDestination = some p ∧ w.entries.lookup p = some e ∧ ∀ hash, e.kind ≠ .file hash

/-- Every destination has its hash, and what is missed is noticed. -/
def Accounted (w : World) : Prop :=
  w.installedDestinations.length ≤ w.installedHashes.length ∧ (Missed w → Noticed w)

theorem noticed_fails (hsound : Sound start w)
    (hlength : w.installedDestinations.length ≤ w.installedHashes.length) (h : Noticed w) :
    (rolledBack faults w).failed = true := by
  by_contra hfailed
  rw [Bool.not_eq_true] at hfailed
  obtain ⟨p, hp, hroot, hrecorded, hparent⟩ | ⟨p, e, hpending, hlookup, hkind⟩ := h
  · -- The directory that holds the entry is still there.
    obtain ⟨e, he⟩ := Finmap.mem_iff.mp hp
    have hkept := @rolledBack_keeps w faults p e he hrecorded
    obtain ⟨mine, hdirectory⟩ := @rolledBack_inDirectories w faults hsound.tree p
      (Finmap.mem_of_lookup_eq_some hkept)
    exact rolledBack_gone hlength hfailed (.inl hparent) (Finmap.mem_of_lookup_eq_some hdirectory)
  · have hunpended := failed_of_onto (onto_uninstalled.trans onto_rolledBack) hfailed
    unfold removePending at hunpended
    rw [disableServices_pending, hpending] at hunpended
    simp only [disableServices_entries, hlookup] at hunpended
    split at hunpended
    · rename_i heq
      cases heq
    · rename_i hash mine heq
      cases heq
      exact hkind hash rfl
    · cases hunpended

theorem rolledBack_complete (hstart : Start targets start) (hsound : Sound start w)
    (hlength : w.installedDestinations.length ≤ w.installedHashes.length) (hmissed : ¬ Missed w)
    (hfailed : (rolledBack faults w).failed = false) :
    RolledBack targets start w (rolledBack faults w).world := by
  have honto : ∀ p e, (rolledBack faults w).world.entries.lookup p = some e →
      w.entries.lookup p = some e := by
    intro p e he
    rw [← @disableServices_entries w faults]
    exact disableServices_onto.lookup p e he
  have hgone : ∀ p e, (rolledBack faults w).world.entries.lookup p = some e → e.mine = false := by
    intro p e he
    by_contra hmine
    rw [Bool.not_eq_false] at hmine
    by_cases hrecorded : Recorded w p
    · exact rolledBack_gone hlength hfailed hrecorded (Finmap.mem_of_lookup_eq_some he)
    · exact hmissed (.inl ⟨p, e, honto p e he, hmine, hrecorded⟩)
  have hothers : ∀ p e, w.entries.lookup p = some e → e.mine = false →
      (rolledBack faults w).world.entries.lookup p = some e := by
    intro p e he hmine
    apply rolledBack_keeps he
    rintro (hcreated | hinstalled | hpending)
    · rw [hsound.created p hcreated] at he
      cases he
      cases hmine
    · obtain ⟨hash, hfile⟩ := hsound.installed p hinstalled
      rw [hfile] at he
      cases he
      cases hmine
    · -- A foreign entry under the staging name is a file, and missed, or makes the rollback fail.
      by_cases hfile : ∃ hash, e.kind = .file hash
      · obtain ⟨hash, hkind⟩ := hfile
        have hform : e = ⟨.file hash, false⟩ := by rw [← hkind, ← hmine]
        exact hmissed (.inr ⟨p, hash, hpending, by rw [he, hform]⟩)
      · have hnoticed : Noticed w := .inr ⟨p, e, hpending, he, fun hash hkind => hfile ⟨hash, hkind⟩⟩
        rw [noticed_fails hsound hlength hnoticed] at hfailed
        cases hfailed
  have hservices : ∀ name, (rolledBack faults w).world.service name = .off := by
    intro name
    rw [disableServices_onto.service]
    exact disableServices_off (failed_of_onto disableServices_onto hfailed) hsound.service name
  refine ⟨hgone, hservices, fun p e he => ?_, fun x hx => ?_, fun hnobody => ⟨fun t ht hmem => ?_, hservices⟩⟩
  · obtain ⟨hlookup, hmine⟩ := hsound.before p e he
    exact hothers p e hlookup hmine
  · obtain ⟨hlookup, hmine⟩ := hsound.appeared x hx
    exact hothers x.1 x.2 hlookup hmine
  · obtain ⟨e, he⟩ := Finmap.mem_iff.mp hmem
    obtain hbefore | happeared := hsound.others _ e (honto _ e he) (hgone _ e he)
    · exact hstart.collisionFree.1 t ht (Finmap.mem_of_lookup_eq_some hbefore)
    · exact hnobody t ht _ happeared rfl

/-- With nothing to notice, a rollback in which no command fails is complete. -/
theorem rolledBack_succeeds (hsound : Sound start w)
    (hlength : w.installedDestinations.length ≤ w.installedHashes.length) (hnoticed : ¬ Noticed w) :
    (rolledBack faultless w).failed = false := by
  have hunpended : (removePending faultless (disableServices faultless w)).failed = false := by
    apply removePending_succeeds (disableServices_succeeds w)
    intro p e hpending he
    rw [disableServices_pending] at hpending
    rw [disableServices_entries] at he
    by_contra hfile
    exact hnoticed (.inr ⟨p, e, hpending, he, fun hash hkind => hfile ⟨hash, hkind⟩⟩)
  have honto : ∀ p e, (removePending faultless (disableServices faultless w)).world.entries.lookup p =
      some e → w.entries.lookup p = some e := by
    intro p e he
    rw [← @disableServices_entries w faultless]
    exact (onto_removePending _).lookup p e he
  have huninstalled : (uninstalled faultless w).failed = false := by
    apply removeInstalled_succeeds hunpended
    intro x hx e he
    have hhashed := hsound.hashed x (List.mem_reverse.mp hx)
    rw [honto _ e he] at hhashed
    cases hhashed
    rfl
  have hbefore : ∀ p e, (uninstalled faultless w).world.entries.lookup p = some e →
      w.entries.lookup p = some e := fun p e he => honto p e (onto_uninstalled.lookup p e he)
  apply removeCreated_succeeds huninstalled
  · intro p hp e he
    have hcreated := hsound.created p (List.mem_reverse.mp hp)
    rw [hbefore p e he] at hcreated
    cases hcreated
    rfl
  · intro p hp hroot hparent
    rw [List.mem_reverse] at hparent ⊢
    obtain ⟨e, he⟩ := Finmap.mem_iff.mp hp
    by_contra hcreated
    by_cases hrecorded : Recorded w p
    · exact uninstalled_gone hlength huninstalled (hrecorded.resolve_left hcreated) hp
    · exact hnoticed (.inl ⟨p, Finmap.mem_of_lookup_eq_some (hbefore p e he), hroot, hrecorded, hparent⟩)
  · rw [List.pairwise_reverse]
    exact hsound.ordered

def sampleRunc : Target := ⟨["usr", "local", "sbin", "runc"], "r"⟩

def sampleTargets : List Target :=
  [sampleRunc, ⟨["opt", "cni", "bin", "bridge"], "b"⟩,
    ⟨["etc", "containerd", "config.toml"], "c"⟩]

/-- A host that has the target directories and nothing in them. -/
def sampleEntries : Entries :=
  ([[], ["usr"], ["usr", "local"], ["usr", "local", "bin"], ["usr", "local", "sbin"], ["opt"],
    ["opt", "cni"], ["opt", "cni", "bin"], ["etc"], ["etc", "containerd"], ["etc", "systemd"],
    ["etc", "systemd", "system"]].map fun p : Path => (⟨p, ⟨.directory, false⟩⟩ : (_ : Path) × Entry)).toFinmap

def sampleStart : World where
  entries := sampleEntries
  service := fun _ => .off
  createdDirectories := []
  installedDestinations := []
  installedHashes := []
  pendingDestination := none
  serviceMutationStarted := false
  appeared := []

theorem sampleEntries_lookup {p : Path} {e : Entry} (h : sampleEntries.lookup p = some e) :
    e = ⟨.directory, false⟩ ∧ IsDirectory sampleEntries (parent p) := by
  have hall : ∀ q ∈ sampleEntries.keys, sampleEntries.lookup q = some ⟨.directory, false⟩ ∧
      sampleEntries.lookup (parent q) = some ⟨.directory, false⟩ := by decide
  obtain ⟨hq, hparent⟩ := hall p (Finmap.mem_keys.mpr (Finmap.mem_of_lookup_eq_some h))
  rw [hq] at h
  cases h
  exact ⟨rfl, false, hparent⟩

theorem sample_start : Start sampleTargets sampleStart where
  collisionFree := ⟨by decide, fun _ => rfl⟩
  others p e h := by rw [(sampleEntries_lookup h).1]
  tree p h := by
    obtain ⟨e, he⟩ := Finmap.mem_iff.mp h
    exact (sampleEntries_lookup he).2
  createdDirectories := rfl
  installedDestinations := rfl
  installedHashes := rfl
  pendingDestination := rfl
  serviceMutationStarted := rfl
  appeared := rfl

/-- Directories that are there already cost one step each. -/
theorem steps_present {directories : List Path} {rest : List Command}
    (h : ∀ p ∈ directories, w.entries.lookup p = some ⟨.directory, false⟩) :
    Relation.ReflTransGen Step (directories.map (.ensureDirectory · false) ++ rest, w) (rest, w) := by
  induction directories with
  | nil => exact .refl
  | cons p directories ih =>
    exact .head (.command (.present (h p (by simp)) rfl)) (ih fun q hq => h q (by simp [hq]))

def samplePending : Path := ["usr", "local", "sbin", ".runc.website-infrastructure.q1Wz8K"]

def sampleStaged : World :=
  { sampleStart.make samplePending (.file "") with pendingDestination := some samplePending }

/-- `runc` is linked, and a signal comes before it is recorded. -/
def sampleLinked : World :=
  (sampleStaged.make samplePending (.file "r")).make ["usr", "local", "sbin", "runc"] (.file "r")

theorem sample_stopped : Stopped sampleTargets sampleStart sampleLinked := by
  have hdirectories : ∀ p ∈ targetDirectories.flatMap chain,
      sampleStart.entries.lookup p = some ⟨.directory, false⟩ := by decide
  let rest : List Command := sampleTargets.tail.map (.exclusiveInstall · .staging) ++
    [.check, .startServices, .changeServices, .changeServices] ++ List.replicate 10 .check
  have hpresent : Relation.ReflTransGen Step (script sampleTargets, sampleStart)
      (.exclusiveInstall sampleRunc .staging :: rest, sampleStart) := steps_present hdirectories
  have hfresh : samplePending ∉ sampleStart.entries := by decide
  have hbeside : sampleStart.entries.lookup (parent samplePending) = some ⟨.directory, false⟩ := by
    decide
  have hstaged : Step (.exclusiveInstall sampleRunc .staging :: rest, sampleStart)
      (.exclusiveInstall sampleRunc .copying :: rest, sampleStaged) :=
    .command (.stage hfresh ⟨false, hbeside⟩ rfl)
  have hcopied : Step (.exclusiveInstall sampleRunc .copying :: rest, sampleStaged)
      (.exclusiveInstall sampleRunc .comparing :: rest, sampleStaged.make samplePending (.file "r")) :=
    .command (.copy rfl "r")
  have hcompared : Step
      (.exclusiveInstall sampleRunc .comparing :: rest, sampleStaged.make samplePending (.file "r"))
      (.exclusiveInstall sampleRunc .linking :: rest, sampleStaged.make samplePending (.file "r")) :=
    .command (.compare rfl (Finmap.lookup_insert _) rfl)
  have habsent : sampleRunc.destination ∉ (sampleStaged.make samplePending (.file "r")).entries := by
    decide
  have hparent : (sampleStaged.make samplePending (.file "r")).entries.lookup
      (parent sampleRunc.destination) = some ⟨.directory, false⟩ := by decide
  have hlinked : Step
      (.exclusiveInstall sampleRunc .linking :: rest, sampleStaged.make samplePending (.file "r"))
      (.exclusiveInstall sampleRunc .recordingDestination :: rest, sampleLinked) :=
    .command (.link habsent ⟨false, hparent⟩)
  exact .signal ((((hpresent.tail hstaged).tail hcopied).tail hcompared).tail hlinked)

end KubernetesInstall
