import Mathlib
import WebsiteInfrastructure.ProtectedHost.Identification

/-!
# Bindings and the live state

`check_live_state`, and the derivation of bindings by `--emit-bindings`. Bindings that were derived
and added to the contract are the ones that the check finds on the same host.
-/

namespace ProtectedHost

open Json PythonText

/-! ## Units -/

structure UnitState where
  loadState : Option String
  activeState : Option String
  unitFileState : Option String
  controlGroup : Option String
  deriving DecidableEq

/-- `None in state` -/
def UnitState.isUnknown (s : UnitState) : Bool :=
  s.loadState.isNone || s.activeState.isNone || s.unitFileState.isNone || s.controlGroup.isNone

def activeUnitStateErrors (units : List String) (probe : String → UnitState) : List String :=
  numbered units fun index unit =>
    let state := probe unit
    let label := "active unit " ++ toString index
    if state.isUnknown then [label ++ " state is unavailable"]
    else if state.loadState ≠ some "loaded" then [label ++ " is not loaded"]
    else if state.activeState ≠ some "active" then [label ++ " is not exactly active"]
    else []

def legacyUnitStateErrors (units : List String) (probe : String → UnitState) : List String :=
  numbered units fun index unit =>
    let state := probe unit
    let label := "legacy unit " ++ toString index
    if state.isUnknown then [label ++ " state is unavailable"]
    else
      (if state.activeState ≠ some "inactive" then [label ++ " must be exactly inactive"] else []) ++
      (if state.loadState ∉ [some "loaded", some "masked"] then
        [label ++ " load state is not safely classified"]
      else []) ++
      (if state.unitFileState ∉ [some "disabled", some "masked"] then
        [label ++ " must be persistently disabled or masked"]
      else []) ++
      if state.controlGroup ≠ some "" then [label ++ " still has a control group"] else []

/-! ## Archive roots -/

/-- What `archive_root_issues` reads. -/
structure RootReads where
  metadata : Option Stat
  resolved : Option PurePosixPath
  mount : MountReads

def archiveRootIssues (repositoryRoot : PurePosixPath) (value : String) (reads : RootReads) :
    List String :=
  match reads.metadata with
  | none => ["is unavailable"]
  | some metadata =>
    if metadata.isLnk then ["must not be a symbolic link"]
    else if ¬ metadata.isDir then ["must be a directory"]
    else match reads.resolved with
      | none => ["cannot be resolved canonically"]
      | some resolved =>
        let (mountRecord, mountErrors) := archiveMountRecord value reads.mount
        (if pathText resolved ≠ value then
          ["must not traverse a symbolic-link or noncanonical component"]
        else []) ++
        (if metadata.permissions &&& 0o077 ≠ 0 then ["must not grant group or world access"]
        else []) ++
        (if repositoryRoot.Contains resolved ∨ resolved.Contains repositoryRoot then
          ["must be isolated from the public repository"]
        else []) ++
        mountErrors ++
        if mountErrors = [] ∧ mountRecord.any fun record =>
            archiveDeviceIdentity metadata ≠ record.majorMinor then
          ["does not match its containing mount device"]
        else []

/-- The checks of roots with the bindings at their places; a probe without a value raised an
`OSError`. -/
def archiveErrors (contract : ProtectedHostContract) (archiveProbe : String → Option (List String))
    (bindingProbe : String → Option String) : List String :=
  ((contract.archiveRoots.zip contract.archiveBindings).zipIdx 1).flatMap
    fun ((root, expectedBinding), index) =>
      let label := "archive root " ++ toString index
      ((archiveProbe root).getD ["state is unavailable"]).map (label ++ " " ++ ·) ++
        match bindingProbe root with
        | none => [label ++ " binding is unavailable"]
        | some actualBinding =>
          if actualBinding ≠ expectedBinding then [label ++ " binding changed"] else []

/-- `check_live_state` -/
def checkLiveState (contract : ProtectedHostContract) (unitProbe : String → UnitState)
    (archiveProbe : String → Option (List String)) (bindingProbe : String → Option String) :
    List String :=
  activeUnitStateErrors contract.activeUnits unitProbe ++
    legacyUnitStateErrors contract.legacyUnits unitProbe ++
    archiveErrors contract archiveProbe bindingProbe

/-! ## Derivation -/

/-- The binding of a root without issues. -/
def derivedBinding (issues : String → List String) (binding : String → Option String)
    (root : String) : Option String :=
  if issues root = [] then binding root else none

def derivationErrors (contract : ProtectedHostContract) (issues : String → List String)
    (binding : String → Option String) : List String :=
  if contract.archiveBindings ≠ [] then
    ["remove existing archive bindings before deriving replacements"]
  else numbered contract.archiveRoots fun index root =>
    if derivedBinding issues binding root = none then
      ["archive root " ++ toString index ++ " binding cannot be derived safely"]
    else []

/-- `PROTECTED_LEGACY_ARCHIVE_BINDING_SHA256={binding}` -/
def bindingLine (binding : String) : List Char := lineOf (archiveBindingKey, binding)

/-- What `--emit-bindings` prints. -/
def emittedLines (contract : ProtectedHostContract) (issues : String → List String)
    (binding : String → Option String) : List (List Char) :=
  if derivationErrors contract issues binding = [] then
    (contract.archiveRoots.filterMap (derivedBinding issues binding)).map bindingLine
  else []

/-! ## Added lines -/

/-- Lines are put between others, in their order. -/
inductive Added {α : Type} : List α → List α → List α → Prop
  | nil : Added [] [] []
  | keep (x : α) {old new all : List α} : Added old new all → Added (x :: old) new (x :: all)
  | add (x : α) {old new all : List α} : Added old new all → Added old (x :: new) (x :: all)

section Added

variable {α β : Type} {old new all : List α}

theorem Added.filterMap (h : Added old new all) (f : α → Option β) :
    Added (old.filterMap f) (new.filterMap f) (all.filterMap f) := by
  induction h with
  | nil => exact .nil
  | keep x _ ih =>
    cases hx : f x with
    | none => simpa [hx] using ih
    | some y => simpa [hx] using ih.keep y
  | add x _ ih =>
    cases hx : f x with
    | none => simpa [hx] using ih
    | some y => simpa [hx] using ih.add y

theorem Added.eq_old (h : Added old [] all) : all = old := by
  generalize hnew : ([] : List α) = new at h
  induction h with
  | nil => rfl
  | keep x _ ih => rw [ih hnew]
  | add x _ _ => cases hnew

theorem Added.eq_new (h : Added [] new all) : all = new := by
  generalize hold : ([] : List α) = old at h
  induction h with
  | nil => rfl
  | keep x _ _ => cases hold
  | add x _ ih => rw [ih hold]

theorem Added.mem_new (h : Added old new all) {x : α} (hx : x ∈ new) : x ∈ all := by
  induction h with
  | nil => exact hx
  | keep y _ ih => exact List.mem_cons_of_mem y (ih hx)
  | add y _ ih =>
    rcases List.mem_cons.mp hx with rfl | hx
    · exact List.mem_cons_self
    · exact List.mem_cons_of_mem y (ih hx)

theorem Added.append (old new : List α) : Added old new (old ++ new) := by
  induction old with
  | nil =>
    induction new with
    | nil => exact .nil
    | cons x new ih => exact ih.add x
  | cons x old ih => exact ih.keep x

end Added

/-! ## What a contract declares -/

theorem validateEntries_eq_ok {mode : Mode} {entries : Entries} {contract : ProtectedHostContract}
    (h : validateEntries mode entries = .ok contract) : contract = contractOf entries := by
  unfold validateEntries at h
  split at h
  · exact (Except.ok.inj h).symm
  · cases h

/-- A contract that was read has no line with an error. -/
theorem parseContractText_eq_ok {mode : Mode} {text : List Char} {contract : ProtectedHostContract}
    (h : parseContractText mode text = .ok contract) :
    contract = contractOf ((splitlines text).filterMap entryOf) ∧
      ∀ l ∈ splitlines text, ∃ entry, parseLine l = .ok entry := by
  unfold parseContractText at h
  split at h
  · next hnone =>
    refine ⟨validateEntries_eq_ok h, fun l hl => ?_⟩
    obtain ⟨index, hindex⟩ := List.mem_iff_getElem?.mp hl
    have hmem : (l, index + 1) ∈ (splitlines text).zipIdx 1 := by
      rw [List.mk_mem_zipIdx_iff_le_and_getElem?_sub]
      exact ⟨by omega, by simpa using hindex⟩
    cases hline : parseLine l with
    | ok entry => exact ⟨entry, rfl⟩
    | error message =>
      have := List.filterMap_eq_nil_iff.mp hnone _ hmem
      simp [hline] at this
  · cases h

/-- A printed line declares its binding, if it is a line of a contract that was read. -/
theorem entryOf_bindingLine {binding : String}
    (h : ∃ entry, parseLine (bindingLine binding) = .ok entry) :
    entryOf (bindingLine binding) = some (archiveBindingKey, binding) := by
  obtain ⟨entry, hentry⟩ := h
  rw [entryOf, hentry]
  dsimp only
  have hkey : (archiveBindingKey, binding).1 ∈ allowedKeys := by
    simp [allowedKeys]
  obtain ⟨htake, hdrop⟩ := span_lineOf hkey
  rw [bindingLine, parseLine, if_neg (lineOf_head hkey), htake, hdrop] at hentry
  dsimp only [List.tail_cons] at hentry
  split_ifs at hentry
  simpa using (Except.ok.inj hentry).symm

theorem archiveBindingKey_ne : archiveBindingKey ≠ archiveRootKey := by decide

theorem valuesOf_eq (entries : Entries) (key : String) : valuesOf entries key =
    entries.filterMap fun e => if e.1 = key then some e.2 else none := by
  induction entries with
  | nil => rfl
  | cons e entries ih =>
    rw [valuesOf] at ih ⊢
    by_cases he : e.1 = key
    · simp [he, ih]
    · simp [he, ih]

/-- Added bindings are all the bindings of the contract, and its roots are the same. -/
theorem declarations_of_added {mode mode' : Mode} {text text' : List Char}
    {contract contract' : ProtectedHostContract} {bindings : List String}
    (h : parseContractText mode text = .ok contract)
    (h' : parseContractText mode' text' = .ok contract')
    (hadded : Added (splitlines text) (bindings.map bindingLine) (splitlines text'))
    (hnone : contract.archiveBindings = []) :
    contract'.archiveRoots = contract.archiveRoots ∧ contract'.archiveBindings = bindings := by
  obtain ⟨rfl, -⟩ := parseContractText_eq_ok h
  obtain ⟨rfl, hlines⟩ := parseContractText_eq_ok h'
  have hnew : (bindings.map bindingLine).filterMap entryOf =
      bindings.map fun binding => (archiveBindingKey, binding) := by
    rw [List.filterMap_map, ← List.filterMap_eq_map]
    refine List.filterMap_congr fun binding hbinding => ?_
    exact entryOf_bindingLine (hlines _ (hadded.mem_new (List.mem_map_of_mem hbinding)))
  have hentries := hadded.filterMap entryOf
  rw [hnew] at hentries
  have hvalues : ∀ key : String, Added (valuesOf ((splitlines text).filterMap entryOf) key)
      (valuesOf (bindings.map fun binding => (archiveBindingKey, binding)) key)
      (valuesOf ((splitlines text').filterMap entryOf) key) := by
    intro key
    rw [valuesOf_eq, valuesOf_eq, valuesOf_eq]
    exact hentries.filterMap _
  constructor
  · have hroots := hvalues archiveRootKey
    have hempty : valuesOf (bindings.map fun binding => (archiveBindingKey, binding))
        archiveRootKey = [] := by
      simp [valuesOf, List.filter_map, Function.comp_def, archiveBindingKey_ne]
    rw [hempty] at hroots
    exact hroots.eq_old
  · have hbindings := hvalues archiveBindingKey
    have hall : valuesOf (bindings.map fun binding => (archiveBindingKey, binding))
        archiveBindingKey = bindings := by
      simp [valuesOf, List.filter_map, Function.comp_def]
    have hold : valuesOf ((splitlines text).filterMap entryOf) archiveBindingKey = [] := hnone
    rw [hall, hold] at hbindings
    exact hbindings.eq_new

/-! ## Derived bindings are found again -/

section Derivation

variable {contract : ProtectedHostContract} {issues : String → List String}
  {binding : String → Option String}

/-- One line for each root, in the order of the roots. -/
theorem emittedLines_eq (hnone : contract.archiveBindings = [])
    (hpass : ∀ root ∈ contract.archiveRoots, issues root = [] ∧ (binding root).isSome = true) :
    ∃ bindings : List String, emittedLines contract issues binding = bindings.map bindingLine ∧
      contract.archiveRoots.map binding = bindings.map some := by
  have hderived : ∀ root ∈ contract.archiveRoots,
      derivedBinding issues binding root = binding root := by
    intro root hroot
    rw [derivedBinding, if_pos (hpass root hroot).1]
  have hclean : derivationErrors contract issues binding = [] := by
    rw [derivationErrors, if_neg (by simp [hnone]), numbered, List.flatMap_eq_nil_iff]
    intro v hv
    have hroot := List.fst_mem_of_mem_zipIdx hv
    have hsome := (hpass _ hroot).2
    rw [hderived _ hroot, if_neg]
    intro heq
    rw [heq] at hsome
    cases hsome
  rw [emittedLines, if_pos hclean, List.filterMap_congr hderived]
  refine ⟨_, rfl, ?_⟩
  have hsome := fun root hroot => (hpass root hroot).2
  generalize contract.archiveRoots = roots at hsome
  induction roots with
  | nil => rfl
  | cons root roots ih =>
    rw [List.forall_mem_cons] at hsome
    obtain ⟨b, hb⟩ := Option.isSome_iff_exists.mp hsome.1
    rw [List.filterMap_cons_some hb, List.map_cons, List.map_cons, hb, ih hsome.2]

theorem archiveErrors_eq_nil {archiveProbe : String → Option (List String)}
    (hissues : ∀ root ∈ contract.archiveRoots, archiveProbe root = some [])
    (hbindings : contract.archiveRoots.map binding = contract.archiveBindings.map some) :
    archiveErrors contract archiveProbe binding = [] := by
  rw [archiveErrors, List.flatMap_eq_nil_iff]
  rintro ⟨⟨root, expected⟩, index⟩ hmem
  have hzip := List.fst_mem_of_mem_zipIdx hmem
  have hroot := (List.of_mem_zip hzip).1
  have hactual : binding root = some expected := by
    rw [← List.forall₂_eq_eq_eq, List.forall₂_map_left_iff, List.forall₂_map_right_iff,
      List.forall₂_iff_zip] at hbindings
    exact hbindings.2 hzip
  simp [hissues root hroot, hactual]

end Derivation

/-- Two bindings are equal exactly when the metadata of the roots, the recorded entries and the
mount identities are, in whatever order entries and options come. The bindings derived for a
contract without any are those that the check then finds on the unchanged host. -/
theorem bindings_identify (F : Type) [Interpreter F] [Lowering] :
    (∀ (a b : Archive) (reads reads' : BindingReads) (d e : String),
      Sees F reads a → Sees F reads' b →
      archiveBindingFingerprint F a.path reads = some d →
      archiveBindingFingerprint F b.path reads' = some e →
      Set.InjOn Sha256.hexdigest (messages F a.path reads ∪ messages F b.path reads') →
      (d = e ↔ a.root.rootMetadata = b.root.rootMetadata ∧ a.recorded = b.recorded ∧
        a.identity = b.identity)) ∧
    ∀ (mode mode' : Mode) (text text' : List Char) (contract contract' : ProtectedHostContract)
      (archive : String → Archive) (issues : String → List String)
      (reads reads' : String → BindingReads) (unitProbe : String → UnitState),
      parseContractText mode text = .ok contract → contract.archiveBindings = [] →
      (∀ root ∈ contract.archiveRoots, (archive root).path = root ∧
        Sees F (reads root) (archive root) ∧ Sees F (reads' root) (archive root)) →
      (∀ root ∈ contract.archiveRoots, issues root = [] ∧
        (archiveBindingFingerprint F root (reads root)).isSome = true) →
      Added (splitlines text) (emittedLines contract issues fun root =>
        archiveBindingFingerprint F root (reads root)) (splitlines text') →
      parseContractText mode' text' = .ok contract' →
      checkLiveState contract' unitProbe (fun root => some (issues root))
          (fun root => archiveBindingFingerprint F root (reads' root)) =
        activeUnitStateErrors contract'.activeUnits unitProbe ++
          legacyUnitStateErrors contract'.legacyUnits unitProbe := by
  constructor
  · intro a b reads reads' d e h h' hd he hfree
    exact digest_eq_iff h h' hd he hfree
  · intro mode mode' text text' contract contract' archive issues reads reads' unitProbe hcontract
      hnone hsees hpass hadded hcontract'
    obtain ⟨bindings, hlines, hfound⟩ := emittedLines_eq hnone hpass
    rw [hlines] at hadded
    obtain ⟨hroots, hbindings⟩ := declarations_of_added hcontract hcontract' hadded hnone
    have hagain : contract.archiveRoots.map (fun root =>
        archiveBindingFingerprint F root (reads' root)) = bindings.map some := by
      rw [← hfound]
      refine List.map_congr_left fun root hroot => ?_
      obtain ⟨hpath, hfirst, hsecond⟩ := hsees root hroot
      have hsame := fingerprint_eq_of_sees hsecond hfirst
      rwa [hpath] at hsame
    rw [checkLiveState, archiveErrors_eq_nil, List.append_nil]
    · intro root hroot
      rw [hroots] at hroot
      rw [(hpass root hroot).1]
    · rw [hroots, hbindings, hagain]

/-! ## A sample -/

theorem lower_ascii (s : String) (h : ∀ c ∈ s.toList, c.toNat < 128) :
    Text.ofPoints ((Text.scalar s).points.map fun p => if 65 ≤ p ∧ p ≤ 90 then p + 32 else p) =
      .scalar (String.ofList (s.toList.map Char.toLower)) := by
  rw [← Text.ofPoints_toNat, Text.points, List.map_map, List.map_map]
  refine congrArg _ (List.map_congr_left fun c hc => ?_)
  have hlower : ∀ n < 128, (if 65 ≤ n ∧ n ≤ 90 then n + 32 else n) =
      (Char.ofNat n).toLower.toNat := by decide
  have := hlower c.toNat (h c hc)
  rwa [Char.ofNat_toNat] at this

theorem lower_isJoined (t : Text) (h : t.isJoined = true) :
    (Text.ofPoints (t.points.map fun p => if 65 ≤ p ∧ p ≤ 90 then p + 32 else p)).isJoined =
      true := by
  obtain ⟨hrange, hchain⟩ := Text.isJoined_iff.mp h
  have hrange' : ∀ p ∈ t.points.map fun p => if 65 ≤ p ∧ p ≤ 90 then p + 32 else p,
      p < 0x110000 := by
    intro p hp
    obtain ⟨q, hq, rfl⟩ := List.mem_map.mp hp
    have := hrange q hq
    split_ifs <;> omega
  rw [Text.isJoined_iff, points_ofPoints hrange', List.isChain_map]
  refine ⟨hrange', hchain.imp fun hi lo hpair => ?_⟩
  simp only [isPair, Bool.and_eq_false_iff, decide_eq_false_iff_not] at hpair ⊢
  split_ifs <;> omega

/-- Lower case of ASCII letters. -/
@[reducible] def asciiLowering : Lowering where
  lower t := .ofPoints (t.points.map fun p => if 65 ≤ p ∧ p ≤ 90 then p + 32 else p)
  lower_ascii := lower_ascii
  lower_isJoined := lower_isJoined

namespace Sample

open Utf8 Sha256

def root : Stat := ⟨2049, 12, 0o40700, 0, 0, 2, 4096, 5, 5⟩

def file : Stat := ⟨2049, 13, 0o100600, 0, 0, 1, 4, 5, 6⟩

def record : MountInfoRecord := ⟨1, 0, "8:1", .ofString "/", .ofString "/", "ext4"⟩

def mount : MountReads := ⟨true, some [record]⟩

def row (options : String) : Row where
  target := .scalar "/"
  source := .scalar "/dev/sda1"
  fstype := .scalar "ext4"
  options := .scalar options
  uuid := some (.scalar "AB-1")
  partuuid := none
  majorMinor := .scalar "8:1"

/-- One entry of one letter. -/
def archive : Archive where
  path := "/srv/a"
  root := root
  entries name := if name = [97] then some file else none
  mount := mount
  row := row "rw,ro"

/-- What `findmnt` prints. -/
def document (options : String) : Payload :=
  .obj [(.scalar "filesystems", .arr [.obj [
    (.scalar "fstype", .text "ext4"),
    (.scalar "maj:min", .text "8:1"),
    (.scalar "options", .text options),
    (.scalar "partuuid", .null),
    (.scalar "source", .text "/dev/sda1"),
    (.scalar "target", .text "/"),
    (.scalar "uuid", .text "AB-1")]])]

def printed (options : String) : String := String.ofList (write true (document options))

/-- A pass over the archive, with the options in some order. -/
def reads (options : String) : BindingReads where
  opened := some ⟨root, root⟩
  mount := mount
  findmnt := some (encode (printed options))
  directory := {
    rootBefore := some root
    listing := some [[97]]
    entryBefore := archive.entries
    entryAfter := archive.entries
    rootAfter := some root }
  finalMount := mount
  final := some ⟨root, root⟩
  finalFindmnt := some (encode (printed options))
  reopened := some ⟨root, root⟩

def nameSha256 : String := "ca978112ca1bbdcafac231b39a23dc4da786eff8147c4e72b9807785afee48bb"

def manifestSha256 : String := "a4d8a2e6abaab45d66d697cdb6dd4bf4ba20bacf723f512148647460df90bc72"

/-- ASCII text, encoded. -/
def ascii (cs : List Char) : Bytes := cs.map fun c => UInt8.ofNat c.toNat

def isAscii (cs : List Char) : Bool := cs.all fun c => c.toNat < 128

theorem encode_ascii {cs : List Char} (h : isAscii cs = true) :
    encode (String.ofList cs) = ascii cs := by
  rw [isAscii] at h
  rw [encode, String.toList_ofList, ascii]
  induction cs with
  | nil => rfl
  | cons c cs ih =>
    rw [List.all_cons, Bool.and_eq_true, decide_eq_true_eq] at h
    have hc : String.utf8EncodeChar c = [UInt8.ofNat c.toNat] := by
      have hlow : c.toNat ≤ 127 := Nat.lt_succ_iff.mp h.1
      simp [String.utf8EncodeChar, hlow]
    rw [List.flatMap_cons, List.map_cons, ih h.2, hc, List.singleton_append]

def entry : EntryTuple where
  nameSha256 := nameSha256
  state := file
  serialized := ascii (write true (entryRecord nameSha256 file.recorded))

def manifestStart : List Char := "protected-legacy-top-level-v1".toList

def manifest : Bytes := ascii manifestStart ++ 0 :: framed entry.serialized

def identity : MountIdentity where
  filesystemType := .scalar "ext4"
  options := [.scalar "ro", .scalar "rw"]
  target := .scalar "/"
  uuid := some (.scalar "ab-1")
  partuuid := none
  sourceFallback := none
  sourceSubpath := none

def bound : Bound := ⟨root, identity, ⟨1, manifestSha256⟩⟩

def binding : String := "a112ce33755189d9065cc7333935eaf1393b5c7c672134c1412a0190e9cb991e"

def payload : List Char :=
  write true (archiveBindingPayload bound.metadata bound.mountIdentity bound.topLevel)

def entryText : List Char := write true (entryRecord nameSha256 file.recorded)

/-- What the sample computes: its digests, its mount, and what `findmnt` prints of it. -/
theorem computed :
    (hexdigest [97] = nameSha256 ∧ hexdigest manifest = manifestSha256 ∧
      hexdigest (ascii payload) = binding ∧ [nameSha256, manifestSha256, binding].Nodup ∧
      isAscii payload = true ∧ isAscii manifestStart = true ∧ isAscii entryText = true ∧
      ([entry].map fun r => r.serialized.length + 4).sum ≤ maxArchiveTopLevelManifestBytes) ∧
    (selectedRecord "/srv/a" mount = some record ∧
      toString (major 2049) ++ ":" ++ toString (minor 2049) = "8:1" ∧
      @identityOf asciiLowering (row "rw,ro") (pathText record.mountPoint) record.filesystemType
        "8:1" = some identity ∧
      isOpenable "/srv/a" = true ∧ [[97]].all isEntryName = true) ∧
    ∀ options ∈ ["rw,ro", "ro,rw"],
      (document options).isPlain (Interpreter.readDepth (List Char)) = true ∧
      { row options with options := (row "rw,ro").options } = row "rw,ro" ∧
      (row options).optionList.Perm (row "rw,ro").optionList := by
  refine ⟨?_, ?_, ?_⟩
  all_goals decide +kernel

theorem findmntRow_printed : ∀ options ∈ ["rw,ro", "ro,rw"],
    findmntRow (List Char) (some (encode (printed options))) = some (row options) := by
  intro options h
  have hloads := loads_write builds_rejectDuplicates true (computed.2.2 options h).1
  unfold findmntRow printed
  simp only [Option.bind_eq_bind, Option.bind_some, Utf8.decode?_encode, String.toList_ofList,
    hloads]
  clear hloads
  revert options
  decide +kernel

theorem sees : ∀ options ∈ ["rw,ro", "ro,rw"],
    Sees (List Char) (reads options) archive := by
  intro options h
  have hrow : ∃ row, findmntRow (List Char) (some (encode (printed options))) = some row ∧
      row.Reordered archive.row := ⟨_, findmntRow_printed options h, (computed.2.2 options h).2⟩
  refine ⟨rfl, rfl, hrow, rfl, ⟨_, rfl, by simp, fun n => ?_⟩, rfl, rfl, rfl, rfl, rfl, hrow, rfl⟩
  by_cases hn : n = [97] <;> simp [archive, hn]

theorem entryTuple_eq : entryTuple [97] file = entry := by
  have hencode : serialize (entryRecord nameSha256 file.recorded) = ascii entryText :=
    encode_ascii computed.1.2.2.2.2.2.2.1
  rw [entryTuple, computed.1.1, hencode]
  rfl

theorem tuples_eq : archive.tuples [[97]] = [entry] := by
  have htuple : archive.tuple [97] = some entry := by
    rw [← entryTuple_eq]
    rfl
  rw [Archive.tuples, List.filterMap_cons_some htuple]
  rfl

theorem hexdigest_manifest : hexdigest (topLevelManifest [entry]) = manifestSha256 := by
  have heq : topLevelManifest [entry] = manifest := by
    have hascii : isAscii manifestStart = true := computed.1.2.2.2.2.2.1
    have htext : String.ofList manifestStart = "protected-legacy-top-level-v1" :=
      String.ofList_toList
    have hstart : encode "protected-legacy-top-level-v1" = ascii manifestStart :=
      htext ▸ encode_ascii hascii
    have hsorted : sortedRecords [entry] = [entry] := rfl
    rw [topLevelManifest, hstart, hsorted, List.flatMap_singleton, manifest]
  rw [heq, computed.1.2.1]

theorem fine : archive.Fine [[97]] where
  short := by decide
  named := computed.2.1.2.2.2.2
  nonempty := by decide
  regular := by
    intro n hn
    obtain rfl := List.mem_singleton.mp hn
    rfl
  small := by
    rw [tuples_eq]
    exact computed.1.2.2.2.2.2.2.2

theorem identity_eq : @Archive.identity asciiLowering archive = some identity := by
  let _ : Lowering := asciiLowering
  have hdevice : archiveDeviceIdentity root = "8:1" := computed.2.1.2.1
  change (do
    let record ← selectedRecord "/srv/a" mount
    identityOf (row "rw,ro") (pathText record.mountPoint) record.filesystemType
      (archiveDeviceIdentity root)) = some identity
  rw [computed.2.1.1, hdevice]
  exact computed.2.1.2.2.1

theorem binds : @Archive.Binds asciiLowering archive [[97]] bound := by
  let _ : Lowering := asciiLowering
  refine ⟨computed.2.1.2.2.2.1, ?_, ?_, ⟨record, computed.2.1.1, computed.2.1.2.1⟩, fine,
    identity_eq, rfl, ?_⟩
  · change ((0o40700 &&& 0o170000 : ℕ) == 0o040000) = true
    decide
  · change ((0o40700 &&& 0o170000 : ℕ) == 0o120000) = false
    decide
  · rw [tuples_eq, hexdigest_manifest]
    rfl

theorem archiveBindingDigest_bound : archiveBindingDigest bound = binding := by
  have hencode : bound.message = ascii payload := encode_ascii computed.1.2.2.2.2.1
  rw [archiveBindingDigest, hencode, computed.1.2.2.1]

theorem fingerprint_eq : ∀ options ∈ ["rw,ro", "ro,rw"],
    @archiveBindingFingerprint (List Char) _ asciiLowering archive.path (reads options) =
      some binding := by
  intro options h
  let _ : Lowering := asciiLowering
  have hbinding := ((sees options h).archiveBinding_eq_some rfl).mpr binds
  rw [archiveBindingFingerprint, ← archiveBindingDigest_bound]
  exact congrArg (Option.map archiveBindingDigest) hbinding

theorem nodup_digests :
    ([[97], topLevelManifest [entry], bound.message].map hexdigest).Nodup := by
  have hbound : hexdigest bound.message = binding := archiveBindingDigest_bound
  rw [List.map_cons, List.map_cons, List.map_cons, computed.1.1, hexdigest_manifest, hbound]
  exact computed.1.2.2.2.1

theorem mem_messages {options : String} (h : options ∈ ["rw,ro", "ro,rw"]) {m : Bytes}
    (hm : m ∈ @messages asciiLowering (List Char) _ archive.path (reads options)) :
    m ∈ [[97], topLevelManifest [entry], bound.message] := by
  let _ : Lowering := asciiLowering
  have hmem := (sees options h).mem_messages rfl binds hm
  rwa [tuples_eq] at hmem

theorem collisionFree : Set.InjOn hexdigest
    (@messages asciiLowering (List Char) _ archive.path (reads "rw,ro") ∪
      @messages asciiLowering (List Char) _ archive.path (reads "ro,rw")) := by
  have hmem : ∀ m, m ∈ @messages asciiLowering (List Char) _ archive.path (reads "rw,ro") ∪
      @messages asciiLowering (List Char) _ archive.path (reads "ro,rw") →
      m ∈ [[97], topLevelManifest [entry], bound.message] := by
    rintro m (hm | hm)
    · exact mem_messages (by simp) hm
    · exact mem_messages (by simp) hm
  intro x hx y hy heq
  exact List.inj_on_of_nodup_map nodup_digests (hmem x hx) (hmem y hy) heq

/-- A reviewed contract with one root. -/
def declarations : Entries :=
  [("PROTECTED_SERVICES_REVIEWED", "yes"), ("PROTECTED_LEGACY_ARCHIVES_REVIEWED", "yes"),
    ("PROTECTED_LEGACY_ARCHIVES_PRESENT", "yes"),
    ("PROTECTED_LEGACY_RUNTIME_EVIDENCE_SHA256", nameSha256),
    ("PROTECTED_LEGACY_ARCHIVE_ROOT", "/srv/a")] ++
    requiredActivationClasses.map fun value => (activationClassKey, value)

def withBinding : Entries := declarations ++ [(archiveBindingKey, binding)]

def textOf (entries : Entries) : List Char := unlines (entries.map lineOf)

theorem checks : (∀ d ∈ withBinding, isDeclarable d = true) ∧
    entryErrors ⟨true, true⟩ declarations = [] ∧ entryErrors ⟨false, false⟩ withBinding = [] ∧
    (contractOf declarations).archiveRoots = ["/srv/a"] ∧
    (contractOf declarations).archiveBindings = [] := by
  decide +kernel

theorem archiveRoots_eq : (contractOf declarations).archiveRoots = ["/srv/a"] :=
  checks.2.2.2.1

theorem archiveBindings_eq : (contractOf declarations).archiveBindings = [] := checks.2.2.2.2

theorem declarable_declarations : ∀ d ∈ declarations, isDeclarable d = true :=
  fun d hd => checks.1 d (List.mem_append_left _ hd)

theorem parse_declarations :
    parseContractText ⟨true, true⟩ (textOf declarations) = .ok (contractOf declarations) := by
  rw [textOf, parseContractText_unlines _ declarable_declarations, validateEntries, checks.2.1]

theorem parse_withBinding :
    parseContractText ⟨false, false⟩ (textOf withBinding) = .ok (contractOf withBinding) := by
  rw [textOf, parseContractText_unlines _ checks.1, validateEntries, checks.2.2.1]

/-- What is printed where the binding of the root is known. -/
theorem emittedLines_declarations (fingerprint : String → Option String)
    (h : fingerprint "/srv/a" = some binding) :
    emittedLines (contractOf declarations) (fun _ => []) fingerprint = [bindingLine binding] := by
  have hderived : derivedBinding (fun _ => []) fingerprint "/srv/a" = some binding := by
    rw [derivedBinding, if_pos rfl, h]
  have hclean : derivationErrors (contractOf declarations) (fun _ => []) fingerprint = [] := by
    rw [derivationErrors, archiveBindings_eq, archiveRoots_eq]
    simp [numbered, hderived]
  rw [emittedLines, if_pos hclean, archiveRoots_eq, List.filterMap_cons_some hderived]
  rfl

theorem added : Added (splitlines (textOf declarations)) [bindingLine binding]
    (splitlines (textOf withBinding)) := by
  have hold : splitlines (textOf declarations) = declarations.map lineOf :=
    splitlines_lines declarable_declarations
  have hnew : splitlines (textOf withBinding) = withBinding.map lineOf :=
    splitlines_lines checks.1
  rw [hold, hnew, withBinding, List.map_append]
  exact Added.append _ _

end Sample

open Sample in
/-- The binding of an archive is the same with the options in another order, and is found again
where it was added to the contract. -/
theorem bindings_identify_sample :
    (∃ d e, @archiveBindingFingerprint (List Char) _ asciiLowering archive.path (reads "rw,ro") =
        some d ∧
      @archiveBindingFingerprint (List Char) _ asciiLowering archive.path (reads "ro,rw") = some e ∧
      d = e) ∧
    checkLiveState (contractOf withBinding) (fun _ => ⟨none, none, none, none⟩)
      (fun _ => some [])
      (fun root => @archiveBindingFingerprint (List Char) _ asciiLowering root (reads "ro,rw")) =
        [] := by
  let _ : Lowering := asciiLowering
  have hfirst := fingerprint_eq "rw,ro" (by simp)
  have hsecond := fingerprint_eq "ro,rw" (by simp)
  constructor
  · have hiff := (bindings_identify (List Char)).1 archive archive (reads "rw,ro") (reads "ro,rw")
      binding binding (sees _ (by simp)) (sees _ (by simp)) hfirst hsecond collisionFree
    exact ⟨binding, binding, hfirst, hsecond, hiff.mpr ⟨rfl, rfl, rfl⟩⟩
  · have hroots : ∀ root ∈ (contractOf declarations).archiveRoots, root = archive.path := by
      intro root hroot
      rw [archiveRoots_eq] at hroot
      exact List.mem_singleton.mp hroot
    have hemitted := emittedLines_declarations
      (fun root => archiveBindingFingerprint (List Char) root (reads "rw,ro")) hfirst
    have hcheck := (bindings_identify (List Char)).2 ⟨true, true⟩ ⟨false, false⟩
      (textOf declarations) (textOf withBinding) (contractOf declarations) (contractOf withBinding)
      (fun _ => archive) (fun _ => []) (fun _ => reads "rw,ro") (fun _ => reads "ro,rw")
      (fun _ => ⟨none, none, none, none⟩) parse_declarations archiveBindings_eq
      (fun root hroot => ⟨(hroots root hroot).symm, sees _ (by simp), sees _ (by simp)⟩)
      (fun root hroot => by
        rw [hroots root hroot, hfirst]
        exact ⟨rfl, rfl⟩)
      (by
        rw [hemitted]
        exact added)
      parse_withBinding
    rw [hcheck]
    decide +kernel

end ProtectedHost
