import Mathlib
import WebsiteInfrastructure.Library.AwkFields
import WebsiteInfrastructure.Library.LineReaders
import WebsiteInfrastructure.Library.Raising

/-!
# The text of the plan

`validate_host_prerequisites_plan.py` reads the plan with universal newlines and `splitlines`, the
shell reads it with awk: which accepted plans are the same for both.
-/

namespace HostPrerequisites

open PythonText Raising ShellText

/-! ## The schema -/

def fixed : List (String × String) :=
  [("PLAN_VERSION", "1"),
    ("MODULES_TARGET", "/etc/modules-load.d/90-website-infrastructure-kubeadm.conf"),
    ("SYSCTL_TARGET", "/etc/sysctl.d/90-website-infrastructure-kubeadm.conf"),
    ("FSTAB_TARGET", "/etc/fstab"),
    ("BACKUP_ROOT", "/var/backups/website-infrastructure/host-prerequisites"),
    ("STATE_ROOT", "/var/lib/website-infrastructure/host-prerequisites"),
    ("DESIRED_MODULES", "overlay,br_netfilter"),
    ("DESIRED_VM_OVERCOMMIT_MEMORY", "1"),
    ("DESIRED_VM_PANIC_ON_OOM", "0"),
    ("DESIRED_KERNEL_PANIC", "10"),
    ("DESIRED_KERNEL_PANIC_ON_OOPS", "1"),
    ("DESIRED_KERNEL_KEYS_ROOT_MAXKEYS", "1000000"),
    ("DESIRED_KERNEL_KEYS_ROOT_MAXBYTES", "25000000"),
    ("DESIRED_NET_IPV4_IP_FORWARD", "1"),
    ("DESIRED_NET_BRIDGE_BRIDGE_NF_CALL_IPTABLES", "1"),
    ("DESIRED_NET_BRIDGE_BRIDGE_NF_CALL_IP6TABLES", "1")]

/-- `MODULE_GATED_CURRENT_KEYS` -/
def moduleGatedCurrentKeys : List String :=
  ["CURRENT_NET_BRIDGE_BRIDGE_NF_CALL_IPTABLES", "CURRENT_NET_BRIDGE_BRIDGE_NF_CALL_IP6TABLES"]

def currentBounds : List (String × ℕ × ℕ) :=
  [("CURRENT_VM_OVERCOMMIT_MEMORY", 0, 2),
    ("CURRENT_VM_PANIC_ON_OOM", 0, 1),
    ("CURRENT_KERNEL_PANIC", 0, 3600),
    ("CURRENT_KERNEL_PANIC_ON_OOPS", 0, 1),
    ("CURRENT_KERNEL_KEYS_ROOT_MAXKEYS", 1, 2000000000),
    ("CURRENT_KERNEL_KEYS_ROOT_MAXBYTES", 1, 2000000000),
    ("CURRENT_NET_IPV4_IP_FORWARD", 0, 1),
    ("CURRENT_NET_BRIDGE_BRIDGE_NF_CALL_IPTABLES", 0, 1),
    ("CURRENT_NET_BRIDGE_BRIDGE_NF_CALL_IP6TABLES", 0, 1)]

def shaKeys : List String :=
  ["EXPECTED_MACHINE_ID_SHA256", "EXPECTED_BOOT_ID_SHA256", "EXPECTED_OS_RELEASE_SHA256",
    "EXPECTED_FSTAB_SHA256", "EXPECTED_ACTIVE_SWAP_SHA256", "DESIRED_MODULES_SHA256",
    "DESIRED_SYSCTL_SHA256"]

def expectedKeys : List String :=
  fixed.map Prod.fst ++ currentBounds.map Prod.fst ++ shaKeys ++
    ["PLAN_STATUS", "EXPECTED_ARCHITECTURE", "EXPECTED_KERNEL_RELEASE",
      "EXPECTED_MODULES_TARGET_STATE", "EXPECTED_SYSCTL_TARGET_STATE", "SWAP_MECHANISM",
      "SWAP_ACTION"]

/-- `[0-9a-f]{64}` -/
def isSha (value : List Char) : Bool :=
  value.length = 64 && value.all fun c => c.isDigit || ('a' ≤ c && c ≤ 'f')

/-- `[A-Za-z0-9][A-Za-z0-9._+~-]{0,127}` -/
def isSafeKernel (value : List Char) : Bool :=
  match value with
  | [] => false
  | c :: rest => c.isAlphanum && rest.length ≤ 127 &&
      rest.all fun d => d.isAlphanum || d ∈ ['.', '_', '+', '~', '-']

/-- `absent|sha256:[0-9a-f]{64}` -/
def isState (value : List Char) : Bool :=
  value = "absent".toList || (value.take 7 = "sha256:".toList && isSha (value.drop 7))

/-- `[A-Z][A-Z0-9_]*` -/
def isPlanKey (key : List Char) : Bool :=
  match key with
  | [] => false
  | c :: rest => c.isUpper && rest.all fun d => d.isUpper || d.isDigit || d = '_'

/-! ## The validator -/

abbrev Values := List (String × String)

/-- What `parse_plan` returns. -/
structure ParsedPlan where
  errors : List String
  values : Values

def ParsedPlan.reject (plan : ParsedPlan) (number : ℕ) (message : String) : ParsedPlan :=
  { plan with errors := plan.errors ++ ["line " ++ toString number ++ ": " ++ message] }

/-- A line that declares nothing: blank, or a comment. -/
def isSkipped (raw : List Char) : Bool := strip raw = [] || (strip raw).head? = some '#'

/-- One turn of the loop over the numbered lines; a line that is not rejected at its ends is its own
`strip`. -/
def parsePlanLine (plan : ParsedPlan) (numbered : List Char × ℕ) : ParsedPlan :=
  let (raw, number) := numbered
  if isSkipped raw then plan
  else if raw ≠ strip raw ∨ '=' ∉ strip raw then
    plan.reject number "expected unindented KEY=VALUE"
  else
    let key := awkKey (strip raw)
    let value := awkValue (strip raw)
    if isPlanKey key = false then plan.reject number "malformed key"
    else if value = [] ∨ value.any isSpace = true then
      plan.reject number "value must be nonempty and contain no whitespace"
    else if String.ofList key ∈ plan.values.map Prod.fst then plan.reject number "duplicate key"
    else { plan with values := plan.values ++ [(String.ofList key, String.ofList value)] }

def parsePlanLines (plan : ParsedPlan) (start : ℕ) (lines : List (List Char)) : ParsedPlan :=
  (lines.zipIdx start).foldl parsePlanLine plan

/-- The file is its decoded text, or the text of the exception that reading it raised. -/
def parsePlan (file : Except String (List Char)) : ParsedPlan :=
  match file with
  | .error exception => ⟨["cannot read plan: " ++ exception], []⟩
  | .ok content => parsePlanLines ⟨[], []⟩ 1 (splitlines (universalNewlines content))

/-- `values[key]`, for a key that is there -/
def planEntry (values : Values) (key : String) : String := (values.lookup key).getD ""

/-- `int` takes at most this many digits, else it raises a `ValueError`. -/
def maxIntDigits : ℕ := 4300

/-- One bound of `CURRENT_BOUNDS`; `none` is the `ValueError` of a number too long. -/
def boundErrors (values : Values) (bound : String × ℕ × ℕ) : Option (List String) :=
  let (key, minimum, maximum) := bound
  let value := (planEntry values key).toList
  if value = "unavailable-until-module-load".toList ∧ key ∈ moduleGatedCurrentKeys then some []
  else if value = [] ∨ value.all Char.isDigit = false then
    some [key ++ " must be an unsigned integer"]
  else if maxIntDigits < value.length then none
  else if minimum ≤ Nat.ofDigitChars 10 value 0 ∧ Nat.ofDigitChars 10 value 0 ≤ maximum then some []
  else some [key ++ " must be between " ++ toString minimum ++ " and " ++ toString maximum]

def expectedAction (mechanism : String) : Option String :=
  [("none", "none"), ("fstab-only", "disable-fstab")].lookup mechanism

def swapErrors (mechanism action : String) : List String :=
  (if mechanism ∉ ["none", "fstab-only"] then
    ["SWAP_MECHANISM must be none or fstab-only; unknown mechanisms are forbidden"] else []) ++
  (if some action ≠ expectedAction mechanism then
    ["SWAP_ACTION must be " ++ (expectedAction mechanism).getD "None" ++ " for SWAP_MECHANISM=" ++
      mechanism] else [])

/-- The checks of values that have exactly the expected keys. -/
def contractErrors (values : Values) : Option (List String) := do
  let bounds ← currentBounds.mapM (boundErrors values)
  return (fixed.filter fun f => planEntry values f.1 ≠ f.2).map
      (fun f => f.1 ++ " must be exactly " ++ f.2) ++
    (if planEntry values "PLAN_STATUS" ≠ "approved-after-host-discovery" then
      ["PLAN_STATUS must be approved-after-host-discovery"] else []) ++
    (if planEntry values "EXPECTED_ARCHITECTURE" ∉ ["aarch64", "arm64"] then
      ["EXPECTED_ARCHITECTURE must be aarch64 or arm64"] else []) ++
    (if isSafeKernel (planEntry values "EXPECTED_KERNEL_RELEASE").toList = false then
      ["EXPECTED_KERNEL_RELEASE is malformed"] else []) ++
    (shaKeys.filter fun key => isSha (planEntry values key).toList = false).map
      (· ++ " must be a lowercase SHA-256") ++
    (["EXPECTED_MODULES_TARGET_STATE", "EXPECTED_SYSCTL_TARGET_STATE"].filter fun key =>
      isState (planEntry values key).toList = false).map
      (· ++ " must be absent or sha256:<lowercase SHA-256>") ++
    bounds.flatten ++
    swapErrors (planEntry values "SWAP_MECHANISM") (planEntry values "SWAP_ACTION")

/-- The keys that are missing and the count of those that are unknown -/
def schemaErrors (values : Values) : List String :=
  let missing := (expectedKeys.filter fun key => key ∉ values.map Prod.fst).mergeSort
  let unknown := (values.map Prod.fst).filter fun key => key ∉ expectedKeys
  (if missing ≠ [] then ["missing keys: " ++ ", ".intercalate missing] else []) ++
    (if unknown ≠ [] then ["unknown keys: " ++ toString unknown.length] else [])

def validatePlan (values : Values) : Option (List String) :=
  if schemaErrors values ≠ [] then some (schemaErrors values) else contractErrors values

/-- `main` returns 0. -/
def passes (file : Except String (List Char)) : Prop :=
  (parsePlan file).errors = [] ∧ validatePlan (parsePlan file).values = some []

/-! ## The shell -/

/-- `plan_value`: the lines that awk prints; its records end at line feeds. -/
def planValue (key : String) (content : List Char) : List (List Char) :=
  awkValues key.toList content

/-- The shell reads one line for every key of the schema, and it is the value that was checked. -/
def SeesTheSame (content : List Char) : Prop :=
  ∀ key ∈ expectedKeys,
    planValue key content = [(planEntry (parsePlan (.ok content)).values key).toList]

/-! ## Entries -/

/-- The line declares this value. -/
structure IsEntry (raw : List Char) (entry : String × String) : Prop where
  text : raw = entry.1.toList ++ '=' :: entry.2.toList
  key : isPlanKey entry.1.toList = true
  value : entry.2.toList ≠ [] ∧ ∀ c ∈ entry.2.toList, isSpace c = false

/-- What a line declares, by the checks of the loop. -/
def entryOf (raw : List Char) : Option (String × String) :=
  if isSkipped raw then none
  else some (String.ofList (awkKey raw), String.ofList (awkValue raw))

theorem isUpper_plain {c : Char} (h : c.isUpper = true) :
    isSpace c = false ∧ c ≠ '#' ∧ c ≠ '=' := by
  simp only [Char.isUpper, decide_eq_true_eq, UInt32.le_iff_toNat_le] at h
  have hrange : 65 ≤ c.toNat ∧ c.toNat ≤ 90 := h
  refine ⟨isSpace_of_printable (by omega), ?_, ?_⟩
  all_goals
    rintro rfl
    revert hrange
    decide

theorem key_plain {key : List Char} (h : isPlanKey key = true) :
    ∀ c ∈ key, isSpace c = false ∧ c ≠ '=' := by
  cases key with
  | nil => cases h
  | cons d rest =>
    simp only [isPlanKey, Bool.and_eq_true, List.all_eq_true, Bool.or_eq_true,
      decide_eq_true_eq] at h
    obtain ⟨hfirst, hrest⟩ := h
    intro c hc
    rcases List.mem_cons.mp hc with rfl | hc
    · exact ⟨(isUpper_plain hfirst).1, (isUpper_plain hfirst).2.2⟩
    · rcases hrest c hc with (hupper | hdigit) | rfl
      · exact ⟨(isUpper_plain hupper).1, (isUpper_plain hupper).2.2⟩
      · simp only [Char.isDigit, Bool.and_eq_true, decide_eq_true_eq,
          UInt32.le_iff_toNat_le] at hdigit
        have hrange : 48 ≤ c.toNat ∧ c.toNat ≤ 57 := hdigit
        refine ⟨isSpace_of_printable (by omega), ?_⟩
        rintro rfl
        revert hrange
        decide
      · decide

/-- A turn skips its line, reports it, or takes an entry whose key is new. -/
theorem parsePlanLine_cases (plan : ParsedPlan) (raw : List Char) (number : ℕ) :
    (isSkipped raw = true ∧ parsePlanLine plan (raw, number) = plan) ∨
      (∃ message, parsePlanLine plan (raw, number) = plan.reject number message) ∨
      ∃ entry, entryOf raw = some entry ∧ IsEntry raw entry ∧ entry.1 ∉ plan.values.map Prod.fst ∧
        parsePlanLine plan (raw, number) = { plan with values := plan.values ++ [entry] } := by
  unfold parsePlanLine
  dsimp only
  split
  · next hskip => exact .inl ⟨hskip, rfl⟩
  · next hskip =>
    right
    split
    · exact .inl ⟨_, rfl⟩
    · next hform =>
      rw [not_or, not_not, not_not] at hform
      obtain ⟨hstrip, hequals⟩ := hform
      rw [← hstrip] at hequals ⊢
      split
      · exact .inl ⟨_, rfl⟩
      · next hkey =>
        split
        · exact .inl ⟨_, rfl⟩
        · next hvalue =>
          split
          · exact .inl ⟨_, rfl⟩
          · next hnew =>
            refine .inr ⟨_, by rw [entryOf, if_neg hskip], ⟨?_, ?_, ?_⟩, hnew, rfl⟩
            · simpa using (awk_pair hequals).symm
            · simpa using hkey
            · simpa [not_or] using hvalue

/-- A loop that reports nothing skips a line or takes what it declares, and takes no key twice. -/
theorem parsePlanLines_spec {lines : List (List Char)} {start : ℕ} {plan : ParsedPlan}
    (h : (parsePlanLines plan start lines).errors = [])
    (hnodup : (plan.values.map Prod.fst).Nodup) :
    plan.errors = [] ∧
      (parsePlanLines plan start lines).values = plan.values ++ lines.filterMap entryOf ∧
      ((parsePlanLines plan start lines).values.map Prod.fst).Nodup ∧
      ∀ raw ∈ lines, isSkipped raw = true ∨ ∃ entry, entryOf raw = some entry ∧ IsEntry raw entry := by
  induction lines generalizing start plan with
  | nil => exact ⟨h, by simp [parsePlanLines], hnodup, by simp⟩
  | cons raw lines ih =>
    have hcons : parsePlanLines plan start (raw :: lines) =
        parsePlanLines (parsePlanLine plan (raw, start)) (start + 1) lines := by
      rw [parsePlanLines, List.zipIdx_cons, List.foldl_cons, parsePlanLines]
    rw [hcons] at h ⊢
    rcases parsePlanLine_cases plan raw start with
      ⟨hskip, hturn⟩ | ⟨message, hturn⟩ | ⟨entry, hentry, hform, hnew, hturn⟩
    · rw [hturn] at h ⊢
      obtain ⟨herrors, hvalues, hkeys, hall⟩ := ih h hnodup
      have hnone : entryOf raw = none := by rw [entryOf, if_pos hskip]
      refine ⟨herrors, ?_, hkeys, List.forall_mem_cons.mpr ⟨.inl hskip, hall⟩⟩
      rw [hvalues, List.filterMap_cons_none hnone]
    · rw [hturn] at h
      have hsound : (plan.reject start message).errors = [] := (ih h hnodup).1
      simp [ParsedPlan.reject] at hsound
    · rw [hturn] at h ⊢
      have hnodup' : ((plan.values ++ [entry]).map Prod.fst).Nodup := by
        rw [List.map_append, List.nodup_append]
        refine ⟨hnodup, by simp, fun a ha b hb heq => hnew ?_⟩
        obtain rfl : b = entry.1 := by simpa using hb
        exact heq ▸ ha
      obtain ⟨herrors, hvalues, hkeys, hall⟩ := ih h hnodup'
      refine ⟨herrors, ?_, hkeys, List.forall_mem_cons.mpr ⟨.inr ⟨entry, hentry, hform⟩, hall⟩⟩
      rw [hvalues, List.filterMap_cons_some hentry]
      simp

/-! ## The lines of both readers -/

/-- The lines of Python in one line of the shell. -/
def pieces (line : List Char) : List (List Char) := splitlines (line ++ ['\n'])

/-- The line of the shell holds a line of Python that declares something. -/
def HoldsEntry (line : List Char) : Prop := ∃ raw ∈ pieces line, isSkipped raw = false

/-- What a line of the shell declares for Python. -/
def entriesOf (line : List Char) : Values := (pieces line).filterMap entryOf

theorem pieces_plain {line : List Char} (h : ∀ c ∈ line, isLineBreak c = false) :
    pieces line = [line] := by
  rw [pieces, splitlines_plain_newline h]

/-- What a validator that passes has read, line by line of the shell. -/
theorem entries_of_passes {content : List Char} (h : passes (.ok content)) :
    (parsePlan (.ok content)).values = (lines content).flatMap entriesOf ∧
      ((parsePlan (.ok content)).values.map Prod.fst).Nodup ∧
      ∀ line ∈ lines content, ∀ raw ∈ pieces line,
        isSkipped raw = true ∨ ∃ entry, entryOf raw = some entry ∧ IsEntry raw entry := by
  have hrun : parsePlan (.ok content) = parsePlanLines ⟨[], []⟩ 1 (splitlines content) := by
    rw [parsePlan, splitlines_universalNewlines]
  have herrors := h.1
  rw [hrun] at herrors ⊢
  obtain ⟨-, hvalues, hnodup, hall⟩ := parsePlanLines_spec herrors (by simp)
  have hblank : isSkipped [] = true := rfl
  have hmem : ∀ line ∈ lines content, ∀ raw ∈ pieces line, raw ∈ splitlines content ∨ raw = [] := by
    intro line hline raw hraw
    have hflat : raw ∈ (lines content).flatMap fun l => splitlines (l ++ ['\n']) :=
      List.mem_flatMap.mpr ⟨line, hline, hraw⟩
    rcases flatMap_lines content with heq | heq
    · exact .inl (heq ▸ hflat)
    · rw [heq] at hflat
      simpa using hflat
  refine ⟨?_, hnodup, fun line hline raw hraw => ?_⟩
  · have hread : (splitlines content).filterMap entryOf = (lines content).flatMap entriesOf := by
      have hflat : ((lines content).flatMap fun l => splitlines (l ++ ['\n'])).filterMap entryOf =
          (splitlines content).filterMap entryOf := by
        rcases flatMap_lines content with heq | heq
        · rw [heq]
        · have hnone : entryOf [] = none := by rw [entryOf, if_pos hblank]
          rw [heq, List.filterMap_append, List.filterMap_cons_none hnone]
          simp
      rw [← hflat, List.filterMap_flatMap]
      rfl
    exact hvalues.trans hread
  · rcases hmem line hline raw hraw with hmem | rfl
    · exact hall raw hmem
    · exact .inl hblank

/-- A line that starts with a key of the schema declares something. -/
theorem isSkipped_of_key {key raw : List Char} (hkey : isPlanKey key = true) (h : key <+: raw) :
    isSkipped raw = false := by
  cases key with
  | nil => cases hkey
  | cons c rest =>
    obtain ⟨more, rfl⟩ := h
    have hupper : c.isUpper = true := by
      rw [isPlanKey, Bool.and_eq_true] at hkey
      exact hkey.1
    obtain ⟨hspace, hhash, -⟩ := isUpper_plain hupper
    have hhead : ∃ tail, strip (c :: rest ++ more) = c :: tail := by
      have hprefix : [c] <+: strip (c :: rest ++ more) := by
        rw [strip, List.cons_append, List.dropWhile_cons_of_neg (by simp [hspace])]
        exact prefix_rdropWhile ⟨rest ++ more, rfl⟩ (by simpa using hspace)
      obtain ⟨tail, htail⟩ := hprefix
      exact ⟨tail, htail.symm⟩
    obtain ⟨tail, htail⟩ := hhead
    rw [isSkipped, htail]
    simp [hhash]

/-- A line whose awk key is a key of the schema holds an entry. -/
theorem holdsEntry_of_awkKey {key line : List Char} (hkey : isPlanKey key = true)
    (h : awkKey line = key) : HoldsEntry line := by
  have hprefix : key <+: line ++ ['\n'] := by
    rw [← h]
    exact (awkKey_begins line).trans (List.prefix_append _ _)
  have hplain : ∀ c ∈ key, (!isLineBreak c) = true := by
    intro c hc
    have hspace := (key_plain hkey c hc).1
    by_contra hbreak
    rw [isSpace_of_isLineBreak (by simpa using hbreak)] at hspace
    cases hspace
  obtain ⟨more, hlines⟩ := splitlines_eq_head (l := line ++ ['\n']) (by simp)
  refine ⟨_, by rw [pieces, hlines]; exact List.mem_cons_self, isSkipped_of_key hkey ?_⟩
  obtain ⟨rest, hrest⟩ := hprefix
  rw [← hrest, List.takeWhile_append_of_pos hplain]
  exact List.prefix_append _ _

/-- An entry that is a whole line of the shell is the same for both readers. -/
theorem entryOf_of_isEntry {raw : List Char} {entry : String × String} (h : IsEntry raw entry) :
    awkKey raw = entry.1.toList ∧ awkValue raw = entry.2.toList ∧
      ∀ c ∈ raw, isLineBreak c = false := by
  have hequals : '=' ∉ entry.1.toList := fun hmem => (key_plain h.key _ hmem).2 rfl
  have hspace : ∀ c ∈ raw, c = '=' ∨ isSpace c = false := by
    intro c hc
    rw [h.text] at hc
    rcases List.mem_append.mp hc with hc | hc
    · exact .inr (key_plain h.key c hc).1
    · rcases List.mem_cons.mp hc with rfl | hc
      · exact .inl rfl
      · exact .inr (h.value.2 c hc)
  refine ⟨by rw [h.text, awkKey_pair hequals], by rw [h.text, awkValue_pair hequals], ?_⟩
  intro c hc
  rcases hspace c hc with rfl | hspace
  · decide
  · by_contra hbreak
    rw [isSpace_of_isLineBreak (by simpa using hbreak)] at hspace
    cases hspace

theorem isPlanKey_of_expected : ∀ key ∈ expectedKeys, isPlanKey key.toList = true := by
  rw [expectedKeys, fixed, currentBounds, shaKeys]
  simp only [List.map_cons, List.map_nil, List.forall_mem_append, List.forall_mem_cons]
  -- with their literals spelled out the keys need not be decoded
  simp (disch := exact rfl) only [toList_spelled]
  decide +kernel

theorem schemaErrors_eq_nil {values : Values} (h : schemaErrors values = []) :
    (∀ key ∈ expectedKeys, key ∈ values.map Prod.fst) ∧
      ∀ key ∈ values.map Prod.fst, key ∈ expectedKeys := by
  rw [schemaErrors, List.append_eq_nil_iff] at h
  obtain ⟨hmissing, hunknown⟩ := h
  constructor
  · intro key hkey
    by_contra habsent
    have hmem : key ∈ (expectedKeys.filter fun key => key ∉ values.map Prod.fst).mergeSort :=
      List.mem_mergeSort.mpr (List.mem_filter.mpr ⟨hkey, decide_eq_true habsent⟩)
    rw [if_pos (List.ne_nil_of_mem hmem)] at hmissing
    cases hmissing
  · intro key hkey
    by_contra hforeign
    have hmem : key ∈ (values.map Prod.fst).filter fun key => key ∉ expectedKeys :=
      List.mem_filter.mpr ⟨hkey, decide_eq_true hforeign⟩
    rw [if_pos (List.ne_nil_of_mem hmem)] at hunknown
    cases hunknown

/-- The values of a validator that passes have exactly the keys of the schema. -/
theorem keys_of_passes {file : Except String (List Char)} (h : passes file) :
    (∀ key ∈ expectedKeys, key ∈ (parsePlan file).values.map Prod.fst) ∧
      ∀ key ∈ (parsePlan file).values.map Prod.fst, key ∈ expectedKeys := by
  apply schemaErrors_eq_nil
  by_contra hne
  have hvalid := h.2
  rw [validatePlan, if_pos hne] at hvalid
  exact hne (Option.some.inj hvalid)

/-- The value of a key that stands once. -/
theorem filter_of_nodup {values : Values} (hnodup : (values.map Prod.fst).Nodup) {key : String}
    (hkey : key ∈ values.map Prod.fst) :
    values.filter (fun e => e.1 = key) = [(key, planEntry values key)] := by
  induction values with
  | nil => cases hkey
  | cons e values ih =>
    obtain ⟨k, v⟩ := e
    rw [List.map_cons, List.nodup_cons] at hnodup
    by_cases hk : k = key
    · subst hk
      have hnone : values.filter (fun e => e.1 = k) = [] := by
        rw [List.filter_eq_nil_iff]
        intro e he heq
        exact hnodup.1 (List.mem_map.mpr ⟨e, he, by simpa using heq⟩)
      simp [hnone, planEntry]
    · have hrest : key ∈ values.map Prod.fst :=
        (List.mem_cons.mp hkey).resolve_left fun heq => hk heq.symm
      have hlookup : planEntry ((k, v) :: values) key = planEntry values key := by
        rw [planEntry, List.lookup_cons, beq_false_of_ne (Ne.symm hk), planEntry]
      rw [List.filter_cons_of_neg (by simpa using hk), ih hnodup.2 hrest, hlookup]

section Readers

variable {content : List Char}

/-- No line of the shell that declares something has another line break in it. -/
def EntriesEndWithFeeds (content : List Char) : Prop :=
  ∀ line ∈ lines content, HoldsEntry line → ∀ c ∈ line, isLineBreak c = false

/-- What awk reads of one line is what the line declares for Python. -/
theorem awk_of_line (h : passes (.ok content)) {line : List Char} (hline : line ∈ lines content)
    (hfeeds : HoldsEntry line → ∀ c ∈ line, isLineBreak c = false) {key : String}
    (hkey : isPlanKey key.toList = true) :
    (if awkKey line = key.toList then [awkValue line] else []) =
      ((entriesOf line).filter fun e => e.1 = key).map fun e => e.2.toList := by
  obtain ⟨-, -, hall⟩ := entries_of_passes h
  by_cases hholds : HoldsEntry line
  · have hpieces := pieces_plain (hfeeds hholds)
    obtain ⟨raw, hraw, hskip⟩ := hholds
    obtain rfl : raw = line := by simpa [hpieces] using hraw
    obtain ⟨entry, hentry, hform⟩ := (hall raw hline raw hraw).resolve_left (by simp [hskip])
    obtain ⟨hawk, hvalue, -⟩ := entryOf_of_isEntry hform
    have hentries : entriesOf raw = [entry] := by
      rw [entriesOf, hpieces, List.filterMap_cons_some hentry, List.filterMap_nil]
    rw [hentries, hawk, hvalue]
    by_cases heq : entry.1 = key
    · simp [heq]
    · have hne : entry.1.toList ≠ key.toList := fun hsame => heq (String.toList_inj.mp hsame)
      simp [heq, hne]
  · have hnone : entriesOf line = [] := by
      rw [entriesOf, List.filterMap_eq_nil_iff]
      intro raw hraw
      have hskip : isSkipped raw = true := by
        by_contra hne
        exact hholds ⟨raw, hraw, by simpa using hne⟩
      rw [entryOf, if_pos hskip]
    have hne : awkKey line ≠ key.toList := fun heq => hholds (holdsEntry_of_awkKey hkey heq)
    rw [if_neg hne, hnone]
    rfl

theorem seesTheSame_of_feeds (h : passes (.ok content)) (hfeeds : EntriesEndWithFeeds content) :
    SeesTheSame content := by
  obtain ⟨hvalues, hnodup, -⟩ := entries_of_passes h
  intro key hkey
  have hplan := isPlanKey_of_expected key hkey
  have hread : planValue key content =
      ((parsePlan (.ok content)).values.filter fun e => e.1 = key).map fun e => e.2.toList := by
    have hlines : planValue key content = (lines content).flatMap fun line =>
        if awkKey line = key.toList then [awkValue line] else [] := by
      rw [planValue, awkValues]
      induction lines content with
      | nil => rfl
      | cons line more ih =>
        by_cases hline : awkKey line = key.toList
        · simp [hline, ih]
        · simp [hline, ih]
    rw [hlines, hvalues, List.filter_flatMap, List.map_flatMap]
    refine List.flatMap_congr fun line hline => ?_
    exact awk_of_line h hline (hfeeds line hline) hplan
  rw [hread, filter_of_nodup hnodup ((keys_of_passes h).1 key hkey)]
  rfl

/-- Two lines of the shell never declare one key. -/
theorem line_of_key (h : passes (.ok content)) {line line' : List Char}
    (hline : line ∈ lines content) (hline' : line' ∈ lines content) {entry entry' : String × String}
    (hentry : entry ∈ entriesOf line) (hentry' : entry' ∈ entriesOf line')
    (hkey : entry.1 = entry'.1) : line = line' := by
  obtain ⟨hvalues, hnodup, -⟩ := entries_of_passes h
  rw [hvalues, List.map_flatMap, List.nodup_flatMap] at hnodup
  by_contra hne
  have hsymm : Std.Symm (Function.onFun List.Disjoint fun l => (entriesOf l).map Prod.fst) :=
    ⟨fun _ _ hdisjoint => hdisjoint.symm⟩
  have hdisjoint := hnodup.2.forall hline hline' hne
  exact hdisjoint (List.mem_map_of_mem hentry) (hkey ▸ List.mem_map_of_mem hentry')

theorem feeds_of_seesTheSame (h : passes (.ok content)) (hsame : SeesTheSame content) :
    EntriesEndWithFeeds content := by
  obtain ⟨hvalues, hnodup, hall⟩ := entries_of_passes h
  rintro line hline ⟨raw, hraw, hskip⟩
  obtain ⟨entry, hentry, hform⟩ := (hall line hline raw hraw).resolve_left (by simp [hskip])
  have hmem : entry ∈ entriesOf line := List.mem_filterMap.mpr ⟨raw, hraw, hentry⟩
  have hvalue : entry ∈ (parsePlan (.ok content)).values := by
    rw [hvalues]
    exact List.mem_flatMap.mpr ⟨line, hline, hmem⟩
  have hkeys : entry.1 ∈ (parsePlan (.ok content)).values.map Prod.fst :=
    List.mem_map_of_mem hvalue
  -- the one line that the shell reads for the key of this entry is this line
  have hshell := hsame entry.1 ((keys_of_passes h).2 _ hkeys)
  have hread : entry.2 = planEntry (parsePlan (.ok content)).values entry.1 := by
    have hfilter := filter_of_nodup hnodup hkeys
    have hin : entry ∈ (parsePlan (.ok content)).values.filter fun e => e.1 = entry.1 :=
      List.mem_filter.mpr ⟨hvalue, by simp⟩
    rw [hfilter] at hin
    exact congrArg Prod.snd (List.mem_singleton.mp hin)
  obtain ⟨line', hline', hawk⟩ : ∃ line' ∈ lines content,
      awkKey line' = entry.1.toList ∧ awkValue line' = entry.2.toList := by
    have hprinted : entry.2.toList ∈ planValue entry.1 content := by
      rw [hshell, hread]
      exact List.mem_singleton_self _
    obtain ⟨line', hfound, hprint⟩ := List.mem_map.mp hprinted
    obtain ⟨hline', hkey⟩ := List.mem_filter.mp hfound
    exact ⟨line', hline', by simpa using hkey, hprint⟩
  have hbreak' := (entryOf_of_isEntry hform).2.2
  have hequals : '=' ∈ line' := by
    by_contra hplain
    obtain ⟨hkey, -⟩ := awk_plain hplain
    -- a line without an equals sign would be rejected
    have hwhole : line' = entry.1.toList := hkey.symm.trans hawk.1
    have hclean : ∀ c ∈ line', isLineBreak c = false := by
      intro c hc
      rw [hwhole] at hc
      exact hbreak' c (by rw [hform.text]; exact List.mem_append_left _ hc)
    have hpiece : line' ∈ pieces line' := by
      rw [pieces_plain hclean]
      exact List.mem_singleton_self _
    have hstarts : isSkipped line' = false :=
      isSkipped_of_key hform.key (by rw [hwhole])
    obtain ⟨other, -, hother⟩ := (hall line' hline' line' hpiece).resolve_left (by simp [hstarts])
    apply hplain
    rw [hother.text]
    simp
  have hsame' : line' = raw := by
    calc line' = awkKey line' ++ '=' :: awkValue line' := (awk_pair hequals).symm
      _ = raw := by rw [hawk.1, hawk.2, ← hform.text]
  subst hsame'
  have hpiece : line' ∈ pieces line' := by
    rw [pieces_plain hbreak']
    exact List.mem_singleton_self _
  have hmem' : entry ∈ entriesOf line' := List.mem_filterMap.mpr ⟨line', hpiece, hentry⟩
  rw [line_of_key h hline hline' hmem hmem' rfl]
  exact hbreak'

end Readers

/-- The shell sees the plan that was checked exactly when every line of it that declares something
ends with a line feed and has no other line break in it. -/
theorem plan_readers_agree_iff {content : List Char} (h : passes (.ok content)) :
    SeesTheSame content ↔ EntriesEndWithFeeds content :=
  ⟨feeds_of_seesTheSame h, seesTheSame_of_feeds h⟩

/-! ## Plans that were written -/

/-- A line of the plan. -/
def lineOf (entry : String × String) : List Char := entry.1.toList ++ '=' :: entry.2.toList

/-- The key has the form of a key, and the value is not empty and without spaces. -/
def isWritable (entry : String × String) : Bool :=
  isPlanKey entry.1.toList && entry.2.toList ≠ [] && entry.2.toList.all fun c => !isSpace c

theorem isEntry_lineOf {entry : String × String} (h : isWritable entry = true) :
    IsEntry (lineOf entry) entry := by
  simp only [isWritable, Bool.and_eq_true, decide_eq_true_eq, List.all_eq_true,
    Bool.not_eq_true'] at h
  exact ⟨rfl, h.1.1, h.1.2, h.2⟩

theorem parsePlanLine_lineOf {entry : String × String} (h : isWritable entry = true)
    {plan : ParsedPlan} (hnew : entry.1 ∉ plan.values.map Prod.fst) (number : ℕ) :
    parsePlanLine plan (lineOf entry, number) = { plan with values := plan.values ++ [entry] } := by
  have hform := isEntry_lineOf h
  obtain ⟨hkey, hvalue, -⟩ := entryOf_of_isEntry hform
  have hspace : ∀ c ∈ lineOf entry, isSpace c = false := by
    intro c hc
    rcases List.mem_append.mp hc with hc | hc
    · exact (key_plain hform.key c hc).1
    · rcases List.mem_cons.mp hc with rfl | hc
      · decide
      · exact hform.value.2 c hc
  have hskip : isSkipped (lineOf entry) = false :=
    isSkipped_of_key hform.key (List.prefix_append _ _)
  have hequals : '=' ∈ lineOf entry := by simp [lineOf]
  have hgood : ¬ (entry.2.toList = [] ∨ entry.2.toList.any isSpace = true) := by
    rintro (hnil | hany)
    · exact hform.value.1 hnil
    · obtain ⟨c, hc, hbad⟩ := List.any_eq_true.mp hany
      rw [hform.value.2 c hc] at hbad
      cases hbad
  simp only [parsePlanLine, strip_of_no_space hspace, hskip, hkey, hvalue, hequals, hform.key,
    String.ofList_toList, if_neg hgood]
  simp [hnew]

/-- The lines of distinct entries are read back, whatever line breaks separate them. -/
theorem parsePlanLines_lineOf {entries : Values} (h : ∀ e ∈ entries, isWritable e = true)
    {plan : ParsedPlan} (hnodup : ((plan.values ++ entries).map Prod.fst).Nodup) (start : ℕ) :
    parsePlanLines plan start (entries.map lineOf) =
      { plan with values := plan.values ++ entries } := by
  induction entries generalizing plan start with
  | nil => simp [parsePlanLines]
  | cons entry entries ih =>
    rw [List.forall_mem_cons] at h
    have hnew : entry.1 ∉ plan.values.map Prod.fst := by
      rw [List.map_append, List.nodup_append] at hnodup
      intro hmem
      exact hnodup.2.2 _ hmem _ List.mem_cons_self rfl
    rw [parsePlanLines, List.map_cons, List.zipIdx_cons, List.foldl_cons,
      parsePlanLine_lineOf h.1 hnew, ← parsePlanLines, ih h.2 (by simpa using hnodup)]
    simp

namespace PlanSample

def digest : String := String.ofList (List.replicate 64 'a')

def values : Values :=
  fixed ++ currentBounds.map (fun bound => (bound.1, toString bound.2.1)) ++
    shaKeys.map (fun key => (key, digest)) ++
    [("PLAN_STATUS", "approved-after-host-discovery"), ("EXPECTED_ARCHITECTURE", "aarch64"),
      ("EXPECTED_KERNEL_RELEASE", "6.8.0"), ("EXPECTED_MODULES_TARGET_STATE", "absent"),
      ("EXPECTED_SYSCTL_TARGET_STATE", "absent"), ("SWAP_MECHANISM", "none"),
      ("SWAP_ACTION", "none")]

/-- A plan whose first line ends with `feed`. -/
def plan (feed : List Char) : List Char :=
  lineOf ("PLAN_VERSION", "1") ++ feed ++ PythonText.unlines (values.tail.map lineOf)

theorem writable : ∀ e ∈ values, isWritable e = true := by
  have hdigest : digest.toList = List.replicate 64 'a' := String.toList_ofList
  rw [values, fixed, currentBounds, shaKeys]
  simp only [List.map_cons, List.map_nil, List.forall_mem_append, List.forall_mem_cons, isWritable,
    hdigest]
  simp (disch := exact rfl) only [toList_spelled]
  decide +kernel

theorem checks : (∀ e ∈ values, isWritable e = true) ∧ (values.map Prod.fst).Nodup ∧
    validatePlan values = some [] := by
  have hplan : (values.map Prod.fst).Nodup ∧ validatePlan values = some [] := by decide +kernel
  exact ⟨writable, hplan⟩

theorem plain {e : String × String} (h : e ∈ values) : ∀ c ∈ lineOf e, isLineBreak c = false :=
  (entryOf_of_isEntry (isEntry_lineOf (checks.1 e h))).2.2

theorem values_eq : values = ("PLAN_VERSION", "1") :: values.tail := rfl

theorem passes_of_lines {content : List Char} (h : splitlines content = values.map lineOf) :
    passes (.ok content) := by
  have hrun : parsePlan (.ok content) = ⟨[], values⟩ := by
    have hread : parsePlanLines ⟨[], []⟩ 1 (values.map lineOf) = ⟨[], [] ++ values⟩ := by
      apply parsePlanLines_lineOf checks.1
      exact checks.2.1
    rw [parsePlan, splitlines_universalNewlines, h, hread, List.nil_append]
  rw [passes, hrun]
  exact ⟨rfl, checks.2.2⟩

theorem tail_lines : splitlines (PythonText.unlines (values.tail.map lineOf)) =
    values.tail.map lineOf := by
  refine splitlines_unlines fun l hl => ?_
  obtain ⟨e, he, rfl⟩ := List.mem_map.mp hl
  exact plain (List.mem_of_mem_tail he)

theorem passes_plan : ∀ feed ∈ [['\n'], ['\r', '\n']], passes (.ok (plan feed)) := by
  intro feed hfeed
  apply passes_of_lines
  have hfirst := plain (values_eq ▸ List.mem_cons_self : ("PLAN_VERSION", "1") ∈ values)
  have hcons : values.map lineOf = lineOf ("PLAN_VERSION", "1") :: values.tail.map lineOf := by
    rw [values_eq, List.map_cons, List.tail_cons]
  rw [hcons]
  simp only [List.mem_cons, List.not_mem_nil, or_false] at hfeed
  rcases hfeed with rfl | rfl
  · rw [plan, List.append_assoc, List.singleton_append, splitlines_append_feed,
      splitlines_plain_newline hfirst, tail_lines]
    rfl
  · rw [plan, List.append_assoc, List.cons_append, List.singleton_append,
      splitlines_append_return_feed hfirst, tail_lines]

end PlanSample

theorem plan_readers_agree_iff_sample : SeesTheSame (PlanSample.plan ['\n']) := by
  apply (plan_readers_agree_iff (PlanSample.passes_plan ['\n'] (by simp))).mpr
  intro line hline _
  have htext : PlanSample.plan ['\n'] = ShellText.unlines (PlanSample.values.map lineOf) := by
    rw [PlanSample.values_eq, PlanSample.plan]
    simp [ShellText.unlines, PythonText.unlines]
  have hplain : ∀ l ∈ PlanSample.values.map lineOf, ∀ c ∈ l, isLineBreak c = false := by
    intro l hl
    obtain ⟨e, he, rfl⟩ := List.mem_map.mp hl
    exact PlanSample.plain he
  rw [htext, lines_unlines] at hline
  · exact hplain line hline
  · intro l hl hmem
    exact absurd (hplain l hl _ hmem) (by decide)

/-- A plan with a carriage return before a line feed passes, and the shell reads another value. -/
theorem return_reaches_the_shell :
    ¬ ∀ content, passes (.ok content) → SeesTheSame content := by
  intro h
  have hpasses := PlanSample.passes_plan ['\r', '\n'] (by simp)
  have hfeeds := feeds_of_seesTheSame hpasses (h _ hpasses)
  have hline : lineOf ("PLAN_VERSION", "1") ++ ['\r'] ∈ lines (PlanSample.plan ['\r', '\n']) := by
    have hnone : '\n' ∉ lineOf ("PLAN_VERSION", "1") ++ ['\r'] := by decide +kernel
    have hsplit : PlanSample.plan ['\r', '\n'] = (lineOf ("PLAN_VERSION", "1") ++ ['\r']) ++ '\n' ::
        PythonText.unlines (PlanSample.values.tail.map lineOf) := by
      simp [PlanSample.plan]
    rw [hsplit, lines_append_feed hnone]
    exact List.mem_cons_self
  have hholds : HoldsEntry (lineOf ("PLAN_VERSION", "1") ++ ['\r']) := by
    apply holdsEntry_of_awkKey (isPlanKey_of_expected "PLAN_VERSION" (by decide +kernel))
    decide +kernel
  have hreturn := hfeeds _ hline hholds '\r' (by simp)
  exact absurd hreturn (by decide)

end HostPrerequisites
