import Mathlib
import WebsiteInfrastructure.Library.LineReaders
import WebsiteInfrastructure.Library.PurePath
import WebsiteInfrastructure.Library.PythonText

/-!
# The protected-host contract

The strict `KEY=VALUE` text of `validate_protected_host_contract.py` and the checks of its
declarations.
-/

namespace ProtectedHost

open PythonText

/-! ## Keys -/

def reviewKeys : List String :=
  ["PROTECTED_LEGACY_ARCHIVES_REVIEWED", "PROTECTED_SERVICES_REVIEWED"]

def presenceKey : String := "PROTECTED_LEGACY_ARCHIVES_PRESENT"

def activationClassKey : String := "PROTECTED_LEGACY_ACTIVATION_CLASS_REVIEWED"

def runtimeEvidenceHashKey : String := "PROTECTED_LEGACY_RUNTIME_EVIDENCE_SHA256"

def unitKey : String := "PROTECTED_SYSTEMD_UNIT"

def archiveRootKey : String := "PROTECTED_LEGACY_ARCHIVE_ROOT"

def archiveBindingKey : String := "PROTECTED_LEGACY_ARCHIVE_BINDING_SHA256"

def legacyUnitKey : String := "PROTECTED_LEGACY_SYSTEMD_UNIT"

def allowedKeys : List String := reviewKeys ++ [presenceKey, runtimeEvidenceHashKey, unitKey,
  archiveRootKey, archiveBindingKey, legacyUnitKey, activationClassKey]

def requiredActivationClasses : List String :=
  ["containers", "package-activation", "runtime-exposure", "scheduled-autostart",
    "system-manager-units", "user-manager-units"]

def maxContractEntries : ℕ := 256

/-! ## Forms of values -/

/-- `[0-9a-f]{64}` -/
def isBinding (value : String) : Bool :=
  value.toList.length == 64 && value.toList.all fun c => c.isDigit || ('a' ≤ c && c ≤ 'f')

def isUnitChar (c : Char) : Bool := c.isAlphanum || c ∈ ['_', '.', ':', '@', '-']

/-- A name that starts with a letter, a digit or `_` and ends in one of the suffixes. -/
def isUnit (suffixes : List String) (value : String) : Bool :=
  match value.toList with
  | [] => false
  | c :: rest => (c.isAlphanum || c = '_') && rest.all isUnitChar &&
      suffixes.any fun suffix => suffix.toList.isSuffixOf rest

def isActiveUnit : String → Bool := isUnit [".service"]

def isLegacyUnit : String → Bool := isUnit [".service", ".socket", ".timer", ".path"]

/-- What no unit may have in its name. -/
def hasUnsafePart (value : String) : Bool :=
  "..".toList <:+: value.toList || "@.".toList <:+: value.toList

/-- The parts between the slashes of an absolute path. -/
def partsOf (value : String) : List (List Char) := (value.toList.splitOn '/').tail

def isArchiveRootChar (c : Char) : Bool := c.isAlphanum || c ∈ ['_', '@', '+', '~', '.', '-']

/-- `/[A-Za-z0-9_@+~.-]+(?:/[A-Za-z0-9_@+~.-]+)*` -/
def isArchiveRoot (value : String) : Bool :=
  value.toList.head? = some '/' && (partsOf value).all fun part =>
    part ≠ [] && part.all isArchiveRootChar

/-- `posixpath.normpath`, over an alphabet with a slash and a dot. -/
def normpath {α : Type} [DecidableEq α] (slash dot : α) (path : List α) : List α :=
  let slashes := (path.takeWhile (· = slash)).length
  let initial := if slashes = 0 then 0 else if slashes = 2 then 2 else 1
  let components := (path.splitOn slash).foldl (fun kept component =>
    if component = [] ∨ component = [dot] then kept
    else if component ≠ [dot, dot] ∨ (initial = 0 ∧ kept = []) ∨
      kept.getLast? = some [dot, dot] then kept ++ [component]
    else kept.dropLast) []
  let normal := List.replicate initial slash ++ [slash].intercalate components
  if normal = [] then [dot] else normal

def isNormal (value : String) : Bool := normpath '/' '.' value.toList = value.toList

/-- How many parts, the root included, a root below a top directory has at least. -/
def allowedArchiveRootPrefixParts : List (String × ℕ) :=
  [("home", 4), ("media", 3), ("mnt", 3), ("opt", 3), ("srv", 3)]

/-! ## Declarations -/

/-- The two keyword arguments of the loader. -/
structure Mode where
  allowMissingBindings : Bool
  allowUnreviewed : Bool

structure ProtectedHostContract where
  activeUnits : List String
  legacyArchivesPresent : Bool
  runtimeEvidenceSha256 : Option String
  archiveRoots : List String
  archiveBindings : List String
  legacyUnits : List String
  activationClasses : List String
  deriving DecidableEq

/-- The declarations of a contract in their order. -/
abbrev Entries := List (String × String)

/-- `entries.get(key, [])` -/
def valuesOf (entries : Entries) (key : String) : List String :=
  (entries.filter fun e => e.1 = key).map Prod.snd

/-- Errors about values that are counted from one. -/
def numbered (values : List String) (check : ℕ → String → List String) : List String :=
  (values.zipIdx 1).flatMap fun v => check v.2 v.1

def duplicates (values : List String) (label : String) : List String :=
  numbered values fun index value =>
    if value ∈ values.take (index - 1) then
      [label ++ " " ++ toString index ++ " duplicates an earlier declaration"]
    else []

def reviewErrors (mode : Mode) (entries : Entries) : List String :=
  reviewKeys.flatMap fun key =>
    let allowed := if mode.allowUnreviewed then ["yes", "no"] else ["yes"]
    match valuesOf entries key with
    | [value] => if value ∈ allowed then [] else [key ++ " must occur exactly once and " ++ expectation]
    | _ => [key ++ " must occur exactly once and " ++ expectation]
where
  expectation := if mode.allowUnreviewed then "equal yes or no" else "equal yes"

/-- Whether the declaration of presence has its form, and what it says. -/
def presence (entries : Entries) : Option Bool :=
  match valuesOf entries presenceKey with
  | ["yes"] => some true
  | ["no"] => some false
  | _ => none

def presenceErrors (entries : Entries) : List String :=
  if presence entries = none then [presenceKey ++ " must occur exactly once and equal yes or no"]
  else []

def unitErrors (activeUnits legacyUnits : List String) : List String :=
  (numbered activeUnits fun index unit =>
    if ¬ isActiveUnit unit ∨ hasUnsafePart unit then
      ["active unit " ++ toString index ++ " has an unsafe identifier"]
    else []) ++
  numbered legacyUnits fun index unit =>
    (if ¬ isLegacyUnit unit ∨ hasUnsafePart unit then
      ["legacy unit " ++ toString index ++ " has an unsafe identifier"]
    else []) ++
    if unit ∈ activeUnits then ["legacy unit " ++ toString index ++ " overlaps an active unit"]
    else []

def isCanonicalRoot (value : String) : Bool :=
  isArchiveRoot value && isNormal value &&
    (partsOf value).all fun part => part ∉ [[], ['.'], ['.', '.']]

def rootErrors (index : ℕ) (value : String) : List String :=
  if isCanonicalRoot value then
    let parsed := PurePosixPath.ofString value
    match allowedArchiveRootPrefixParts.lookup (parsed.names.head?.getD "") with
    | some minimum =>
      if parsed.partsLength < minimum then
        ["archive root " ++ toString index ++ " is too broad to be dedicated"]
      else []
    | none => ["archive root " ++ toString index ++ " is too broad to be dedicated"]
  else ["archive root " ++ toString index ++ " must be an absolute canonical path"]

/-- Roots that are no canonical paths overlap with nothing. -/
def overlapErrors (roots : List String) : List String :=
  numbered roots fun index value =>
    let root := PurePosixPath.ofString value
    if isCanonicalRoot value ∧ ((roots.take (index - 1)).filter isCanonicalRoot).any
        (fun earlier => root ∈ (PurePosixPath.ofString earlier).parents ||
          PurePosixPath.ofString earlier ∈ root.parents) then
      ["archive root " ++ toString index ++ " overlaps an earlier archive root"]
    else []

def runtimeEvidenceErrors (mode : Mode) (values : List String) : List String :=
  match values with
  | [value] =>
    if isBinding value then [] else [runtimeEvidenceHashKey ++ " must be a lowercase SHA-256"]
  | [] => if mode.allowMissingBindings then [] else [missing]
  | _ => [missing]
where
  missing := runtimeEvidenceHashKey ++ " must occur exactly once for either archive-presence decision"

def presentErrors (mode : Mode) (present : Bool) (roots bindings legacyUnits : List String) :
    List String :=
  if present then
    (if roots = [] then ["archive presence is yes but no dedicated archive root is declared"]
    else []) ++
    (if ¬ mode.allowMissingBindings ∧ bindings.length ≠ roots.length then
      ["each declared archive root must have one binding SHA-256"]
    else []) ++
    if mode.allowMissingBindings ∧ bindings ≠ [] ∧ bindings.length ≠ roots.length then
      ["archive bindings must be absent or complete while deriving them"]
    else []
  else if roots ≠ [] ∨ bindings ≠ [] ∨ legacyUnits ≠ [] then
    ["archive presence is no but legacy archive declarations are not empty"]
  else []

/-- The contract that the declarations make. -/
def contractOf (entries : Entries) : ProtectedHostContract where
  activeUnits := valuesOf entries unitKey
  legacyArchivesPresent := (presence entries).getD false
  runtimeEvidenceSha256 :=
    match valuesOf entries runtimeEvidenceHashKey with
    | [value] => some value
    | _ => none
  archiveRoots := valuesOf entries archiveRootKey
  archiveBindings := valuesOf entries archiveBindingKey
  legacyUnits := valuesOf entries legacyUnitKey
  activationClasses := valuesOf entries activationClassKey

def entryErrors (mode : Mode) (entries : Entries) : List String :=
  let contract := contractOf entries
  (if entries.length > maxContractEntries then
    ["protected-host contract has too many declarations"] else []) ++
  reviewErrors mode entries ++ presenceErrors entries ++
  duplicates contract.activeUnits "active unit" ++
  duplicates contract.archiveRoots "archive root" ++
  duplicates contract.archiveBindings "archive binding" ++
  duplicates contract.legacyUnits "legacy unit" ++
  duplicates contract.activationClasses "activation class review" ++
  (if contract.activationClasses.Perm requiredActivationClasses then []
  else ["activation class review declarations are incomplete or unsupported"]) ++
  (numbered contract.archiveBindings fun index binding =>
    if isBinding binding then []
    else ["archive binding " ++ toString index ++ " must be a lowercase SHA-256"]) ++
  unitErrors contract.activeUnits contract.legacyUnits ++
  numbered contract.archiveRoots rootErrors ++
  overlapErrors contract.archiveRoots ++
  runtimeEvidenceErrors mode (valuesOf entries runtimeEvidenceHashKey) ++
  presentErrors mode contract.legacyArchivesPresent contract.archiveRoots contract.archiveBindings
    contract.legacyUnits

def validateEntries (mode : Mode) (entries : Entries) :
    Except (List String) ProtectedHostContract :=
  match entryErrors mode entries with
  | [] => .ok (contractOf entries)
  | errors => .error errors

/-! ## Lines -/

/-- What a line declares; blank lines and comments declare nothing. -/
def parseLine (raw : List Char) : Except String (Option (String × String)) :=
  if raw = [] ∨ raw.head? = some '#' then .ok none
  else if raw ≠ strip raw ∨ '=' ∉ raw then .error "expected unindented KEY=VALUE"
  else
    let key := String.ofList (raw.takeWhile (· ≠ '='))
    let value := (raw.dropWhile (· ≠ '=')).tail
    if key ∉ allowedKeys then .error "unsupported key"
    else if value = [] ∨ value.any (fun c => isSpace c || c.toNat < 32) then
      .error "value is empty or contains whitespace/control data"
    else .ok (some (key, String.ofList value))

/-- `{key}={value}` -/
def lineOf (declaration : String × String) : List Char :=
  declaration.1.toList ++ '=' :: declaration.2.toList

/-- The declaration of a line that has one. -/
def entryOf (raw : List Char) : Option (String × String) :=
  match parseLine raw with
  | .ok entry => entry
  | .error _ => none

def lineErrors (lines : List (List Char)) : List String :=
  (lines.zipIdx 1).filterMap fun l =>
    match parseLine l.1 with
    | .ok _ => none
    | .error message => some ("line " ++ toString l.2 ++ ": " ++ message)

def parseContractText (mode : Mode) (text : List Char) :
    Except (List String) ProtectedHostContract :=
  match lineErrors (splitlines text) with
  | [] => validateEntries mode ((splitlines text).filterMap entryOf)
  | errors => .error errors

/-! ## Lines that were written -/

/-- A declaration whose line is read back. -/
def isDeclarable (declaration : String × String) : Bool :=
  declaration.1 ∈ allowedKeys && declaration.2.toList ≠ [] &&
    declaration.2.toList.all fun c => !isSpace c && 32 ≤ c.toNat

theorem key_plain : ∀ key ∈ allowedKeys, key.toList ≠ [] ∧ key.toList.head? ≠ some '#' ∧
    key.toList.all (fun c => c ≠ '=' && !isSpace c) = true := by
  decide +kernel

section Lines

variable {declaration : String × String} {declarations : Entries}

theorem lineOf_no_space (h : isDeclarable declaration = true) :
    ∀ c ∈ lineOf declaration, isSpace c = false := by
  simp only [isDeclarable, Bool.and_eq_true, decide_eq_true_eq, List.all_eq_true,
    Bool.not_eq_true'] at h
  obtain ⟨⟨hkey, -⟩, hvalue⟩ := h
  have hplain := (key_plain _ hkey).2.2
  simp only [List.all_eq_true, Bool.and_eq_true, decide_eq_true_eq, Bool.not_eq_true'] at hplain
  intro c hc
  rcases List.mem_append.mp hc with hc | hc
  · exact (hplain c hc).2
  · rcases List.mem_cons.mp hc with rfl | hc
    · decide
    · exact (hvalue c hc).1

theorem span_lineOf (hkey : declaration.1 ∈ allowedKeys) :
    (lineOf declaration).takeWhile (· ≠ '=') = declaration.1.toList ∧
      (lineOf declaration).dropWhile (· ≠ '=') = '=' :: declaration.2.toList := by
  have hplain := (key_plain _ hkey).2.2
  simp only [List.all_eq_true, Bool.and_eq_true, decide_eq_true_eq] at hplain
  have hne : ∀ c ∈ declaration.1.toList, decide (c ≠ '=') = true :=
    fun c hc => decide_eq_true (hplain c hc).1
  rw [lineOf, List.takeWhile_append_of_pos hne, List.dropWhile_append_of_pos hne]
  simp

theorem lineOf_head (hkey : declaration.1 ∈ allowedKeys) :
    ¬ (lineOf declaration = [] ∨ (lineOf declaration).head? = some '#') := by
  obtain ⟨hne, hhead, -⟩ := key_plain _ hkey
  obtain ⟨c, cs, hcs⟩ := List.exists_cons_of_ne_nil hne
  rw [hcs] at hhead
  simpa [lineOf, hcs] using hhead

theorem parseLine_lineOf (h : isDeclarable declaration = true) :
    parseLine (lineOf declaration) = .ok (some declaration) := by
  have hspace := lineOf_no_space h
  simp only [isDeclarable, Bool.and_eq_true, decide_eq_true_eq, List.all_eq_true,
    Bool.not_eq_true'] at h
  obtain ⟨⟨hkey, hvalue⟩, hchars⟩ := h
  obtain ⟨htake, hdrop⟩ := span_lineOf hkey
  have hequals : '=' ∈ lineOf declaration := by simp [lineOf]
  have hgood : ¬ (declaration.2.toList = [] ∨
      (declaration.2.toList.any fun c => isSpace c || c.toNat < 32) = true) := by
    rintro (hnil | hany)
    · exact hvalue hnil
    · obtain ⟨c, hc, hbad⟩ := List.any_eq_true.mp hany
      obtain ⟨hplain, hlow⟩ := hchars c hc
      rw [hplain, Bool.false_or, decide_eq_true_eq] at hbad
      omega
  rw [parseLine, if_neg (lineOf_head hkey), if_neg]
  · simp only [htake, hdrop, List.tail_cons, String.ofList_toList, hkey, not_true_eq_false, if_false,
      if_neg hgood]
  · rw [strip_of_no_space hspace]
    simp [hequals]

theorem splitlines_lines (h : ∀ d ∈ declarations, isDeclarable d = true) :
    splitlines (unlines (declarations.map lineOf)) = declarations.map lineOf := by
  refine splitlines_unlines fun l hl c hc => ?_
  obtain ⟨d, hd, rfl⟩ := List.mem_map.mp hl
  have hspace := lineOf_no_space (h d hd) c hc
  by_contra hbreak
  rw [isSpace_of_isLineBreak (by simpa using hbreak)] at hspace
  cases hspace

/-- A text of lines that declare something is checked as these declarations. -/
theorem parseContractText_unlines (mode : Mode)
    (h : ∀ d ∈ declarations, isDeclarable d = true) :
    parseContractText mode (unlines (declarations.map lineOf)) =
      validateEntries mode declarations := by
  have hread : ∀ d ∈ declarations, parseLine (lineOf d) = .ok (some d) :=
    fun d hd => parseLine_lineOf (h d hd)
  have herrors : lineErrors (declarations.map lineOf) = [] := by
    rw [lineErrors, List.filterMap_eq_nil_iff]
    intro l hl
    obtain ⟨d, hd, heq⟩ := List.mem_map.mp (List.fst_mem_of_mem_zipIdx hl)
    rw [← heq, hread d hd]
  have hentries : (declarations.map lineOf).filterMap entryOf = declarations := by
    rw [List.filterMap_map]
    refine (List.filterMap_congr fun d hd => ?_).trans List.filterMap_some
    rw [Function.comp_apply, entryOf, hread d hd]
  rw [parseContractText, splitlines_lines h, herrors, hentries]

end Lines

end ProtectedHost
