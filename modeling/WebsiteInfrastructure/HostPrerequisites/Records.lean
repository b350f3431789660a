import Mathlib
import WebsiteInfrastructure.HostPrerequisites.Scripts

/-!
# What the records of a transaction say

The files of a transaction directory are those of one saved prestate. Such a directory is valid
whether or not the late values are captured, and from it a restoration reads the prestate back.
-/

namespace HostPrerequisites

open Crash

/-! ## Saved prestates -/

/-- The host before a transaction, and how far the capture of late values has come. -/
structure Saved where
  modules : Option Content
  sysctlFile : Option Content
  fstab : Content
  fstabPost : Content
  swaps : Finset Source
  swapAction : SwapAction
  current : SysctlKey → Value
  planNumber : ℕ
  machineId : ℕ
  bootId : ℕ
  late : Option (List LateLine)
  /-- The manifest has the digest of the captured values. -/
  tagged : Bool
  rolledBack : Bool

namespace Saved

variable (site : Site) (p : Saved) (i : Id)

def lateState : Value := if p.tagged then .tagged (.late (p.late.getD [])) else .absent

def lines : Lines :=
  [(.manifestVersion, .number 1), (.transactionId, .transaction i),
    (.planSha256, .digest (.plan p.planNumber)), (.machineIdSha256, .digest (.machine p.machineId)),
    (.appliedBootIdSha256, .digest (.boot p.bootId)), (.modulesPrestate, fileState p.modules),
    (.sysctlPrestate, fileState p.sysctlFile), (.fstabPreSha256, .digest (.file p.fstab)),
    (.fstabPostSha256, .digest (.file p.fstabPost)),
    (.activeSwapPreSha256, .digest (.swaps p.swaps)),
    (.desiredModulesSha256, .digest (.file site.modulesSource)),
    (.desiredSysctlSha256, .digest (.file site.sysctlSource)),
    (.swapAction, .swapAction p.swapAction), (.lateSysctlsState, p.lateState)] ++
    sysctlKeys.map fun k => (.old k, p.current k)

/-- The transaction directory. -/
def files : Transaction where
  activeSwapsPre := some p.swaps
  fstabPre := some p.fstab
  modulesPre := p.modules
  sysctlPre := p.sysctlFile
  fstabPost := some p.fstabPost
  manifest := some (p.lines site i)
  moduleLoadSysctlsPre := p.late
  rolledBack := p.rolledBack

/-- The keys that were not available. -/
def unavailable : List SysctlKey :=
  [SysctlKey.netBridgeNfCallIptables, .netBridgeNfCallIp6tables].filter
    fun k => p.current k = .unavailable

/-- The captured lines: one for each key that was not available. -/
structure Captures (l : List LateLine) : Prop where
  nonempty : l ≠ []
  keys : l.map Prod.fst = p.unavailable
  allowed : ∀ line ∈ l, line.1.allows line.2 = true

structure Valid : Prop where
  allowed : ∀ k, oldSysctlValueAllowed k (p.current k) = true
  captures : ∀ l, p.late = some l → p.Captures l
  tagged : p.tagged = true → p.late.isSome = true

/-- The value of a setting that a restoration goes back to. -/
def old (k : SysctlKey) : OldValue :=
  match p.current k with
  | .number n => .value n
  | .unavailable => match p.late with
    | none => .uncaptured
    | some lines => match lateValues lines k with
      | [n] => if k.allows n then .value n else .invalid
      | _ => .invalid
  | _ => .invalid

/-! ## Reading the manifest -/

theorem files_manifest : (p.files site i).manifest.getD [] = p.lines site i := rfl

/-- What the manifest says of a key. -/
@[simp] def recorded : Key → Option Value
  | .manifestVersion => some (.number 1)
  | .transactionId => some (.transaction i)
  | .planSha256 => some (.digest (.plan p.planNumber))
  | .machineIdSha256 => some (.digest (.machine p.machineId))
  | .appliedBootIdSha256 => some (.digest (.boot p.bootId))
  | .modulesPrestate => some (fileState p.modules)
  | .sysctlPrestate => some (fileState p.sysctlFile)
  | .fstabPreSha256 => some (.digest (.file p.fstab))
  | .fstabPostSha256 => some (.digest (.file p.fstabPost))
  | .activeSwapPreSha256 => some (.digest (.swaps p.swaps))
  | .desiredModulesSha256 => some (.digest (.file site.modulesSource))
  | .desiredSysctlSha256 => some (.digest (.file site.sysctlSource))
  | .swapAction => some (.swapAction p.swapAction)
  | .lateSysctlsState => some p.lateState
  | .old k => some (p.current k)
  | .stateVersion | .status => none

@[simp] theorem dataValue_lines (key : Key) :
    (p.lines site i).dataValue key = (p.recorded site i key).toList := by
  cases key with
  | old k => cases k <;> rfl
  | _ => rfl

theorem unavailableKeys_lines : unavailableKeys (p.lines site i) = p.unavailable := by
  simp [unavailableKeys, unavailable]

/-- A restoration reads the saved values. -/
theorem transactionOldSysctlValue_files (k : SysctlKey) :
    transactionOldSysctlValue (p.files site i) k = p.old k := by
  unfold transactionOldSysctlValue old
  rw [files_manifest, dataValue_lines, recorded, Option.toList_some]
  cases p.current k <;> rfl

/-! ## Validity -/

theorem unavailable_nodup : p.unavailable.Nodup := by
  apply List.Nodup.filter
  decide

theorem mem_unavailable {p : Saved} (h : p.Valid) {k : SysctlKey} :
    k ∈ p.unavailable ↔ p.current k = .unavailable := by
  constructor
  · intro hmem
    simpa using (List.mem_filter.mp hmem).2
  · intro hk
    have hgated : k.moduleGated = true := by
      have hallowed := h.allowed k
      rw [hk] at hallowed
      exact hallowed
    have hmember : k ∈ [SysctlKey.netBridgeNfCallIptables, .netBridgeNfCallIp6tables] := by
      cases k <;> simp_all [SysctlKey.moduleGated]
    exact List.mem_filter.mpr ⟨hmember, by simpa using hk⟩

/-- The lines of a key are counted by their keys. -/
theorem length_lateValues (l : List LateLine) (k : SysctlKey) :
    (lateValues l k).length = (l.map Prod.fst).count k := by
  induction l with
  | nil => rfl
  | cons line l ih =>
    by_cases hk : line.1 = k
    · simp [lateValues, hk] at ih ⊢
      exact ih
    · simp [lateValues, hk] at ih ⊢
      exact ih

theorem Captures.length_lateValues {p : Saved} {l : List LateLine} (h : p.Captures l) {k : SysctlKey}
    (hk : k ∈ p.unavailable) : (lateValues l k).length = 1 := by
  rw [Saved.length_lateValues, h.keys]
  exact List.count_eq_one_of_mem p.unavailable_nodup hk

theorem Captures.validLateLines {p : Saved} {l : List LateLine} (h : p.Captures l) :
    validLateLines (p.lines site i) l = true := by
  have hkeys : ∀ line ∈ l, line.1 ∈ p.unavailable := by
    intro line hline
    rw [← h.keys]
    exact List.mem_map_of_mem hline
  have hlength : l.length = p.unavailable.length := by
    rw [← h.keys, List.length_map]
  unfold HostPrerequisites.validLateLines
  rw [unavailableKeys_lines]
  simp only [Bool.and_eq_true, List.all_eq_true, decide_eq_true_eq]
  exact ⟨⟨fun line hline => ⟨hkeys line hline, h.allowed line hline⟩,
    fun k hk => h.length_lateValues hk⟩, hlength⟩

theorem Captures.unavailable_ne_nil {p : Saved} {l : List LateLine} (h : p.Captures l) :
    p.unavailable ≠ [] := by
  rw [← h.keys]
  simpa using h.nonempty

theorem validateLateSysctls_lines {p : Saved} (h : p.Valid) :
    validateLateSysctls (p.lines site i) p.late = true := by
  unfold validateLateSysctls
  rw [dataValue_lines, unavailableKeys_lines, recorded, Option.toList_some]
  cases hlate : p.late with
  | none =>
    have htagged : p.tagged = false := by
      by_contra hne
      have hsome := h.tagged (by simpa using hne)
      simp [hlate] at hsome
    simp [lateState, htagged]
  | some l =>
    have hcaptures := h.captures l hlate
    have hlines := hcaptures.validLateLines site i
    have hne := hcaptures.unavailable_ne_nil
    cases htagged : p.tagged <;> simp [lateState, htagged, hlate, hlines, hne]

theorem validManifest_lines {p : Saved} (h : p.Valid) :
    validManifest i (p.files site i) (p.lines site i) = true := by
  have hlate := validateLateSysctls_lines site i h
  have hkeys : ((p.lines site i).all fun line => line.1 ∈ requiredManifestKeys) = true := by
    simp [lines, requiredManifestKeys, sysctlKeys]
  have hcounts : (requiredManifestKeys.all fun key =>
      ((p.lines site i).dataValue key).length = 1) = true := by
    simp [requiredManifestKeys, sysctlKeys]
  have hprestate : ∀ c : Option Content, isPrestate [fileState c] = true := by
    intro c
    cases c <;> rfl
  have hallowed : (sysctlKeys.all fun k =>
      ((p.lines site i).dataValue (.old k)).all (oldSysctlValueAllowed k)) = true := by
    simp [h.allowed]
  simp only [validManifest, hkeys, hcounts, hallowed]
  simp [isHash, isSwapAction, hprestate, files, hlate, validBackup]

end Saved

/-- A saved prestate makes a valid transaction. -/
theorem validateTransaction_saved {site : Site} {s : Host} {i : Id} {p : Saved}
    (hstored : s.transactions i = some (p.files site i)) (h : p.Valid) :
    validateTransaction s i = true := by
  simp [validateTransaction, hstored, Saved.files, ← Saved.validManifest_lines site i h]

end HostPrerequisites
