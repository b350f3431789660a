import Mathlib
import WebsiteInfrastructure.Library.Fields
import WebsiteInfrastructure.Library.LineReaders
import WebsiteInfrastructure.Library.Utf8
import WebsiteInfrastructure.ProtectedHost.Contract
import WebsiteInfrastructure.ProtectedHost.Mounts

/-!
# The mount table

The kernel's text of the mount table, and the parser that reads it back.
-/

namespace ProtectedHost

open PythonText

abbrev MountText := List Char

/-! ## The text of the kernel -/

/-- What the kernel writes for a blank or a backslash in a path. -/
def octal : Char → Option MountText
  | ' ' => some ['0', '4', '0']
  | '\t' => some ['0', '1', '1']
  | '\n' => some ['0', '1', '2']
  | '\\' => some ['1', '3', '4']
  | _ => none

def mangleChar (c : Char) : MountText :=
  match octal c with
  | none => [c]
  | some digits => '\\' :: digits

def mangle (text : MountText) : MountText := text.flatMap mangleChar

/-- One mount, as the kernel knows it. The paths, the type and the source are arbitrary texts; the
options are words of the kernel's own. -/
structure KernelMount where
  mountId : ℕ
  parentId : ℕ
  major : ℕ
  minor : ℕ
  root : MountText
  mountPoint : MountText
  options : MountText
  optionalFields : List MountText
  filesystemType : MountText
  source : MountText
  superOptions : MountText
  options_word : IsWord options ∧ options ≠ ['-']
  optional_words : ∀ field ∈ optionalFields, IsWord field ∧ field ≠ ['-']
  super_word : IsWord superOptions

namespace KernelMount

def device (m : KernelMount) : MountText :=
  Nat.toDigits 10 m.major ++ ':' :: Nat.toDigits 10 m.minor

/-- The fields before the dash. -/
def before (m : KernelMount) : List MountText :=
  [Nat.toDigits 10 m.mountId, Nat.toDigits 10 m.parentId, m.device, mangle m.root,
    mangle m.mountPoint, m.options] ++ m.optionalFields

/-- The fields behind it. -/
def behind (m : KernelMount) : List MountText :=
  [mangle m.filesystemType, mangle m.source, m.superOptions]

def line (m : KernelMount) : MountText :=
  [' '].intercalate m.before ++ ([' ', '-', ' '] ++ [' '].intercalate m.behind)

end KernelMount

/-- The bytes of the table, one line for each mount. -/
def encodeMounts (mounts : List KernelMount) : Utf8.Bytes :=
  Utf8.encode (String.ofList (unlines (mounts.map KernelMount.line)))

/-! ## The parser -/

/-- What the interpreter holds for digits beyond ASCII: `str.isdigit`, and the value for `int`. -/
class UnicodeDigits where
  isDigit : Char → Bool
  value : Char → Option ℕ
  isDigit_ascii : ∀ c, c.toNat < 128 → isDigit c = c.isDigit
  value_ascii : ∀ c, c.isDigit = true → value c = some (c.toNat - '0'.toNat)

/-- The table of ASCII. -/
@[reducible] def asciiDigits : UnicodeDigits where
  isDigit c := c.isDigit
  value c := if c.isDigit then some (c.toNat - '0'.toNat) else none
  isDigit_ascii := fun c (_ : c.val.toNat < 128) => rfl
  value_ascii _ h := if_pos h

def maxMountinfoBytes : ℕ := 4 * 1024 * 1024

def maxMountinfoLines : ℕ := 8192

/-- How many digits `int` takes. -/
def maxDigits : ℕ := 4300

/-- `040|011|012|134` -/
def escapes : List MountText :=
  [['0', '4', '0'], ['0', '1', '1'], ['0', '1', '2'], ['1', '3', '4']]

/-- A backslash that begins none of the four escapes. -/
def hasForeignEscape : MountText → Bool
  | [] => false
  | c :: rest =>
    (c = '\\' && !(escapes.any fun digits => digits <+: rest)) ||
      hasForeignEscape rest

def escapedChar : Char → Char → Char → Option Char
  | '0', '4', '0' => some ' '
  | '0', '1', '1' => some '\t'
  | '0', '1', '2' => some '\n'
  | '1', '3', '4' => some '\\'
  | _, _, _ => none

/-- `re.sub(r"\\(040|011|012|134)", …, value)` -/
def replaceEscapes : MountText → MountText
  | '\\' :: x :: y :: z :: rest =>
    match escapedChar x y z with
    | some c => c :: replaceEscapes rest
    | none => '\\' :: replaceEscapes (x :: y :: z :: rest)
  | c :: rest => c :: replaceEscapes rest
  | [] => []

/-- `_mountinfo_unescape` -/
def mountinfoUnescape (value : MountText) : Option MountText :=
  if hasForeignEscape value then none else some (replaceEscapes value)

/-- What becomes of a line or of the table: `None`, a `ValueError` of `int`, or a value. -/
inductive Reading (α : Type)
  | refused
  | raised
  | value (a : α)
  deriving DecidableEq

def isControl (c : Char) : Bool := c.toNat < 32 || c.toNat = 127

/-- A path the parser accepts. -/
def isPlainPath (path : MountText) : Bool :=
  path.head? = some '/' && normpath '/' '.' path = path && !path.any isControl

/-- `[A-Za-z0-9_.+-]{1,64}` -/
def isFilesystemType (name : MountText) : Bool :=
  1 ≤ name.length && name.length ≤ 64 &&
    name.all fun c => c.isAlphanum || c ∈ ['_', '.', '+', '-']

/-- `[0-9]+:[0-9]+` -/
def isDevice (text : MountText) : Bool :=
  match text.splitOn ':' with
  | [major, minor] => major ≠ [] && minor ≠ [] && major.all Char.isDigit && minor.all Char.isDigit
  | _ => false

section Parser

variable [UnicodeDigits]

/-- `text.isdigit()` -/
def isDigits (text : MountText) : Bool := text ≠ [] && text.all UnicodeDigits.isDigit

/-- `int(text)`, without a value where it raises `ValueError` -/
def intOf (text : MountText) : Option ℕ :=
  if maxDigits < text.length then none
  else (text.mapM UnicodeDigits.value).map fun digits => digits.foldl (fun n d => 10 * n + d) 0

/-- The record of the fields of a line. -/
def recordOfFields (mountIds : List ℤ) (mountId parentId : ℕ) (device rawRoot rawPoint
    filesystemType : MountText) : Reading MountInfoRecord :=
  if mountId = 0 ∨ (mountId : ℤ) ∈ mountIds then .refused
  else if !isDevice device then .refused
  else match mountinfoUnescape rawRoot, mountinfoUnescape rawPoint with
    | some root, some mountPoint =>
      if isPlainPath root && isPlainPath mountPoint && isFilesystemType filesystemType then
        .value
          { mountId := mountId, parentId := parentId, majorMinor := String.ofList device
            root := PurePosixPath.ofString (String.ofList root)
            mountPoint := PurePosixPath.ofString (String.ofList mountPoint)
            filesystemType := String.ofList (filesystemType.map Char.toLower) }
      else .refused
    | _, _ => .refused

/-- The record of a line; `mountIds` are those of the lines before. -/
def parseMountLine (mountIds : List ℤ) (line : MountText) : Reading MountInfoRecord :=
  match partition [' ', '-', ' '] line with
  | none => .refused
  | some (left, right) =>
    match fields left, fields right with
    | mountId :: parentId :: device :: rawRoot :: rawPoint :: _ :: _, filesystemType :: _ :: _ :: _ =>
      if !isDigits mountId || !isDigits parentId then .refused
      else match intOf mountId, intOf parentId with
        | some mountId, some parentId =>
          recordOfFields mountIds mountId parentId device rawRoot rawPoint filesystemType
        | _, _ => .raised
    | _, _ => .refused

def mountRecords : List MountInfoRecord → List MountText → Reading (List MountInfoRecord)
  | records, [] => .value records
  | records, line :: lines =>
    match parseMountLine (records.map (·.mountId)) line with
    | .value record => mountRecords (records ++ [record]) lines
    | .refused => .refused
    | .raised => .raised

/-- `_parse_mountinfo_bytes` -/
def parseMountinfoBytes (raw : Utf8.Bytes) : Reading (List MountInfoRecord) :=
  if maxMountinfoBytes < raw.length then .refused
  else match Utf8.decode? raw with
    | none => .refused
    | some text =>
      let lines := splitlines text.toList
      if lines = [] ∨ maxMountinfoLines < lines.length then .refused else mountRecords [] lines

end Parser

/-! ## Back from the text of the kernel -/

variable {m : KernelMount} {mounts : List KernelMount}

theorem mangle_cons (c : Char) (text : MountText) :
    mangle (c :: text) = mangleChar c ++ mangle text := rfl

theorem octal_eq_none {c : Char} (h : octal c = none) : c ≠ ' ' ∧ c ≠ '\n' ∧ c ≠ '\\' := by
  and_intros <;>
  · rintro rfl
    cases h

/-- An escape of the kernel is read back as the character it stands for. -/
theorem octal_eq_some {c : Char} {digits : MountText} (h : octal c = some digits) :
    digits ∈ escapes ∧ ∃ x y z, digits = [x, y, z] ∧ escapedChar x y z = some c := by
  unfold octal at h
  split at h
  · cases h
    exact ⟨by decide, _, _, _, rfl, rfl⟩
  · cases h
    exact ⟨by decide, _, _, _, rfl, rfl⟩
  · cases h
    exact ⟨by decide, _, _, _, rfl, rfl⟩
  · cases h
    exact ⟨by decide, _, _, _, rfl, rfl⟩
  · cases h

theorem replaceEscapes_cons {c : Char} (h : c ≠ '\\') (text : MountText) :
    replaceEscapes (c :: text) = c :: replaceEscapes text := by
  rw [replaceEscapes]
  rintro _ _ _ _ rfl
  exact absurd rfl h

theorem hasForeignEscape_cons {c : Char} (h : c ≠ '\\') (text : MountText) :
    hasForeignEscape (c :: text) = hasForeignEscape text := by
  simp [hasForeignEscape, h]

theorem hasForeignEscape_mangle (text : MountText) : hasForeignEscape (mangle text) = false := by
  induction text with
  | nil => rfl
  | cons c text ih =>
    rw [mangle_cons, mangleChar]
    cases hc : octal c with
    | none => rw [List.singleton_append, hasForeignEscape_cons (octal_eq_none hc).2.2, ih]
    | some digits =>
      obtain ⟨hmem, -⟩ := octal_eq_some hc
      have hfound : escapes.any (fun digits' => digits' <+: digits ++ mangle text) = true :=
        List.any_eq_true.mpr ⟨digits, hmem, by simp⟩
      have hplain : ∀ d ∈ digits, d ≠ '\\' := by
        have hall : ∀ e ∈ escapes, ∀ d ∈ e, d ≠ '\\' := by simp [escapes]
        exact hall digits hmem
      have hskip : ∀ ds : MountText, (∀ d ∈ ds, d ≠ '\\') →
          hasForeignEscape (ds ++ mangle text) = false := by
        intro ds hds
        induction ds with
        | nil => exact ih
        | cons d ds ihds =>
          rw [List.forall_mem_cons] at hds
          rw [List.cons_append, hasForeignEscape_cons hds.1, ihds hds.2]
      show hasForeignEscape ('\\' :: (digits ++ mangle text)) = false
      rw [hasForeignEscape, hfound, hskip digits hplain]
      simp

theorem replaceEscapes_mangle (text : MountText) : replaceEscapes (mangle text) = text := by
  induction text with
  | nil => rfl
  | cons c text ih =>
    rw [mangle_cons, mangleChar]
    cases hc : octal c with
    | none => rw [List.singleton_append, replaceEscapes_cons (octal_eq_none hc).2.2, ih]
    | some digits =>
      obtain ⟨-, x, y, z, rfl, hescaped⟩ := octal_eq_some hc
      show replaceEscapes ('\\' :: x :: y :: z :: mangle text) = c :: text
      rw [replaceEscapes, hescaped, ih]

/-- Every path is read back from what the kernel writes for it. -/
theorem mountinfoUnescape_mangle (text : MountText) : mountinfoUnescape (mangle text) = some text := by
  rw [mountinfoUnescape, if_neg (by simp [hasForeignEscape_mangle]), replaceEscapes_mangle]

theorem mem_mangle {c : Char} {text : MountText} (h : c ∈ mangle text) :
    (c ∈ text ∧ octal c = none) ∨ isSpace c = false := by
  obtain ⟨d, hd, hc⟩ := List.mem_flatMap.mp h
  rw [mangleChar] at hc
  cases hoctal : octal d with
  | none =>
    rw [hoctal, List.mem_singleton] at hc
    subst hc
    exact .inl ⟨hd, hoctal⟩
  | some digits =>
    rw [hoctal] at hc
    have hall : ∀ e ∈ escapes, ∀ x ∈ '\\' :: e, 33 ≤ x.toNat ∧ x.toNat ≤ 126 := by
      simp [escapes]
    exact .inr (isSpace_of_printable (hall digits (octal_eq_some hoctal).1 c hc))

theorem mangle_ne_nil {text : MountText} (h : text ≠ []) : mangle text ≠ [] := by
  obtain ⟨c, rest, rfl⟩ := List.exists_cons_of_ne_nil h
  rw [mangle_cons, mangleChar]
  cases octal c <;> simp

/-! ### Numbers -/

theorem isDigit_of_mem_toDigits {n : ℕ} : ∀ c ∈ Nat.toDigits 10 n, c.isDigit = true :=
  fun _ hc => Nat.isDigit_of_mem_toDigits (by omega) (by omega) hc

section Numbers

variable [UnicodeDigits]

theorem isDigits_toDigits (n : ℕ) : isDigits (Nat.toDigits 10 n) = true := by
  rw [isDigits, Bool.and_eq_true]
  refine ⟨by simp, List.all_eq_true.mpr fun c hc => ?_⟩
  have hdigit := isDigit_of_mem_toDigits c hc
  rw [UnicodeDigits.isDigit_ascii c ?_, hdigit]
  simp only [Char.isDigit, Bool.and_eq_true, decide_eq_true_eq, UInt32.le_iff_toNat_le] at hdigit
  have hrange : 48 ≤ c.toNat ∧ c.toNat ≤ 57 := hdigit
  omega

theorem mapM_value {digits : MountText} (h : ∀ c ∈ digits, c.isDigit = true) :
    digits.mapM UnicodeDigits.value = some (digits.map fun c => c.toNat - '0'.toNat) := by
  induction digits with
  | nil => rfl
  | cons c digits ih =>
    rw [List.forall_mem_cons] at h
    rw [List.mapM_cons, UnicodeDigits.value_ascii c h.1, ih h.2]
    rfl

theorem intOf_toDigits {n : ℕ} (h : (Nat.toDigits 10 n).length ≤ maxDigits) :
    intOf (Nat.toDigits 10 n) = some n := by
  have hvalue : (Nat.toDigits 10 n).foldl (fun m c => 10 * m + (c.toNat - '0'.toNat)) 0 = n := by
    rw [← Nat.ofDigitChars_eq_foldl]
    exact Nat.ofDigitChars_toDigits (by omega) (by omega)
  rw [intOf, if_neg (by omega), mapM_value isDigit_of_mem_toDigits, Option.map_some,
    List.foldl_map, hvalue]

end Numbers

theorem isDevice_device (m : KernelMount) : isDevice m.device = true := by
  have hcolon : ∀ n : ℕ, ':' ∉ Nat.toDigits 10 n := fun n h => by
    have := isDigit_of_mem_toDigits _ h
    cases this
  have hsplit : m.device.splitOn ':' = [Nat.toDigits 10 m.major, Nat.toDigits 10 m.minor] := by
    rw [KernelMount.device, List.splitOn_append_cons_self_of_not_mem (hcolon _),
      List.splitOn_eq_singleton (hcolon _)]
  rw [isDevice, hsplit]
  simp only [ne_eq, Nat.toDigits_ne_nil, not_false_eq_true, decide_true, Bool.true_and,
    Bool.and_eq_true, List.all_eq_true]
  exact ⟨isDigit_of_mem_toDigits, isDigit_of_mem_toDigits⟩

/-! ### A line -/

namespace KernelMount

/-- The texts have no white space beyond what the kernel writes as an escape, the source has no line
boundary of that kind and something that is not white space, and `int` takes the numbers. -/
structure Legible (m : KernelMount) : Prop where
  mountId : (Nat.toDigits 10 m.mountId).length ≤ maxDigits
  parentId : (Nat.toDigits 10 m.parentId).length ≤ maxDigits
  root : m.root.head? = some '/' ∧ ∀ c ∈ m.root, isSpace c = true → c ∈ [' ', '\t', '\n']
  mountPoint :
    m.mountPoint.head? = some '/' ∧ ∀ c ∈ m.mountPoint, isSpace c = true → c ∈ [' ', '\t', '\n']
  filesystemType :
    m.filesystemType ≠ [] ∧ ∀ c ∈ m.filesystemType, isSpace c = true → c ∈ [' ', '\t', '\n']
  source_lines : ∀ c ∈ m.source, isLineBreak c = true → c = '\n'
  source_visible : ∃ c ∈ mangle m.source, isSpace c = false

/-- The mount has an identifier, plain paths and the name of a type. -/
def isPlain (m : KernelMount) : Bool :=
  0 < m.mountId && isPlainPath m.root && isPlainPath m.mountPoint &&
    isFilesystemType m.filesystemType

/-- The record of the mount. -/
def record (m : KernelMount) : MountInfoRecord where
  mountId := m.mountId
  parentId := m.parentId
  majorMinor := String.ofList m.device
  root := PurePosixPath.ofString (String.ofList m.root)
  mountPoint := PurePosixPath.ofString (String.ofList m.mountPoint)
  filesystemType := String.ofList (m.filesystemType.map Char.toLower)

end KernelMount

theorem isWord_toDigits (n : ℕ) : IsWord (Nat.toDigits 10 n) := by
  refine ⟨Nat.toDigits_ne_nil, fun c hc => isSpace_of_alphanum ?_⟩
  simp [Char.isAlphanum, isDigit_of_mem_toDigits c hc]

theorem isWord_mangle {text : MountText} (hne : text ≠ [])
    (h : ∀ c ∈ text, isSpace c = true → c ∈ [' ', '\t', '\n']) : IsWord (mangle text) := by
  refine ⟨mangle_ne_nil hne, fun c hc => ?_⟩
  rcases mem_mangle hc with ⟨hmem, hnone⟩ | hplain
  · rw [← Bool.not_eq_true]
    intro hspace
    have hescaped : ∀ d ∈ [' ', '\t', '\n'], octal d ≠ none := by simp [octal]
    exact hescaped c (h c hmem hspace) hnone
  · exact hplain

theorem mangle_head {text : MountText} (h : text.head? = some '/') :
    (mangle text).head? = some '/' := by
  obtain ⟨rest, rfl⟩ := List.head?_eq_some_iff.mp h
  rfl

theorem mangle_plain {text : MountText} (h : ∀ c ∈ text, octal c = none) : mangle text = text := by
  induction text with
  | nil => rfl
  | cons c text ih =>
    rw [List.forall_mem_cons] at h
    rw [mangle_cons, mangleChar, h.1, ih h.2]
    rfl

theorem octal_of_isFilesystemType {name : MountText} (h : isFilesystemType name = true) :
    ∀ c ∈ name, octal c = none := by
  rw [isFilesystemType, Bool.and_eq_true] at h
  intro c hc
  have hchar := List.all_eq_true.mp h.2 c hc
  unfold octal
  split
  · cases hchar
  · cases hchar
  · cases hchar
  · cases hchar
  · rfl

/-- A type with an escape is none that the parser knows. -/
theorem isFilesystemType_mangle (name : MountText) :
    isFilesystemType (mangle name) = isFilesystemType name := by
  by_cases h : ∀ c ∈ name, octal c = none
  · rw [mangle_plain h]
  · have hname : isFilesystemType name = false := by
      rw [← Bool.not_eq_true]
      exact fun htype => h (octal_of_isFilesystemType htype)
    rw [hname, ← Bool.not_eq_true]
    intro htype
    push Not at h
    obtain ⟨c, hc, hoctal⟩ := h
    obtain ⟨digits, hdigits⟩ := Option.ne_none_iff_exists'.mp hoctal
    have hbackslash : '\\' ∈ mangle name :=
      List.mem_flatMap.mpr ⟨c, hc, by simp [mangleChar, hdigits]⟩
    have := octal_of_isFilesystemType htype _ hbackslash
    cases this

theorem isWord_device (m : KernelMount) : IsWord m.device := by
  refine ⟨by simp [KernelMount.device], fun c hc => ?_⟩
  rw [KernelMount.device, List.mem_append, List.mem_cons] at hc
  rcases hc with hc | rfl | hc
  · exact (isWord_toDigits _).2 c hc
  · decide
  · exact (isWord_toDigits _).2 c hc

theorem not_dash {word : MountText} (h : word.head? ≠ some '-') : word ≠ ['-'] := by
  rintro rfl
  exact h rfl

theorem toDigits_ne_dash (n : ℕ) (rest : MountText) : (Nat.toDigits 10 n ++ rest).head? ≠ some '-' := by
  intro h
  rw [List.head?_append_of_ne_nil _ Nat.toDigits_ne_nil] at h
  have := isDigit_of_mem_toDigits _ (List.mem_of_head? h)
  cases this

theorem head_ne_nil {path : MountText} (h : path.head? = some '/') : path ≠ [] := by
  rintro rfl
  cases h

/-- The fields before the dash are words, and none is a dash. -/
theorem isWord_before (h : m.Legible) : ∀ word ∈ m.before, IsWord word ∧ word ≠ ['-'] := by
  have hpath : ∀ {path : MountText}, path.head? = some '/' ∧
      (∀ c ∈ path, isSpace c = true → c ∈ [' ', '\t', '\n']) →
      IsWord (mangle path) ∧ mangle path ≠ ['-'] := fun {path} hpath =>
    ⟨isWord_mangle (head_ne_nil hpath.1) hpath.2, not_dash (by simp [mangle_head hpath.1])⟩
  have hnumber : ∀ n : ℕ, IsWord (Nat.toDigits 10 n) ∧ Nat.toDigits 10 n ≠ ['-'] := fun n =>
    ⟨isWord_toDigits n, not_dash (by simpa using toDigits_ne_dash n [])⟩
  simp only [KernelMount.before, List.cons_append, List.nil_append, List.forall_mem_cons]
  exact ⟨hnumber _, hnumber _, ⟨isWord_device m, not_dash (toDigits_ne_dash _ _)⟩, hpath h.root,
    hpath h.mountPoint, m.options_word, m.optional_words⟩

/-- The source may show as several fields behind the dash, and as one at least. -/
theorem fields_behind (h : m.Legible) : ∃ first more,
    fields ([' '].intercalate m.behind) = mangle m.filesystemType :: first :: more ++
      [m.superOptions] := by
  obtain ⟨first, more, hsource⟩ := List.exists_cons_of_ne_nil (fields_ne_nil h.source_visible)
  have hjoin : [' '].intercalate m.behind =
      mangle m.filesystemType ++ ' ' :: (mangle m.source ++ ' ' :: m.superOptions) := by
    simp [KernelMount.behind, List.intercalate]
  refine ⟨first, more, ?_⟩
  rw [hjoin, fields_append_space, fields_append_space, hsource, fields_word m.super_word,
    fields_word (isWord_mangle h.filesystemType.1 h.filesystemType.2)]
  rfl

theorem isLineBreak_of_mem_line (h : m.Legible) : ∀ c ∈ m.line, isLineBreak c = false := by
  have hword : ∀ {word : MountText}, IsWord word → ∀ c ∈ word, isLineBreak c = false := by
    intro word hword c hc
    have hplain := hword.2 c hc
    simp only [isSpace, Bool.or_eq_false_iff] at hplain
    exact hplain.1.1
  intro c hc
  rw [KernelMount.line, List.mem_append, List.mem_append] at hc
  rcases hc with hc | hc | hc
  · rcases mem_intercalate_space hc with rfl | ⟨word, hmem, hc⟩
    · decide
    · exact hword (isWord_before h word hmem).1 c hc
  · simp only [List.mem_cons, List.not_mem_nil, or_false] at hc
    rcases hc with rfl | rfl | rfl
    · decide
    · decide
    · decide
  · rcases mem_intercalate_space hc with rfl | ⟨word, hmem, hc⟩
    · decide
    · simp only [KernelMount.behind, List.mem_cons, List.not_mem_nil, or_false] at hmem
      rcases hmem with rfl | rfl | rfl
      · exact hword (isWord_mangle h.filesystemType.1 h.filesystemType.2) c hc
      · rcases mem_mangle hc with ⟨hmem, hnone⟩ | hplain
        · rw [← Bool.not_eq_true]
          intro hbreak
          exact (octal_eq_none hnone).2.1 (h.source_lines c hmem hbreak)
        · simp only [isSpace, Bool.or_eq_false_iff] at hplain
          exact hplain.1.1
      · exact hword m.super_word c hc

/-! ### The table -/

section Table

variable [UnicodeDigits]

/-- A line of the kernel is read as the record of its mount, if that is plain and new. -/
theorem parseMountLine_line (h : m.Legible) (mountIds : List ℤ) :
    parseMountLine mountIds m.line =
      if m.isPlain = true ∧ (m.mountId : ℤ) ∉ mountIds then .value m.record else .refused := by
  obtain ⟨first, more, hbehind⟩ := fields_behind h
  have hbefore : fields ([' '].intercalate m.before) = m.before :=
    fields_intercalate fun word hword => (isWord_before h word hword).1
  have hparts : partition [' ', '-', ' '] m.line =
      some ([' '].intercalate m.before, [' '].intercalate m.behind) := by
    refine partition_dash (by simp [KernelMount.before]) (fun word hword => ?_) _
    obtain ⟨hisWord, hdash⟩ := isWord_before h word hword
    refine ⟨hdash, fun hspace => ?_⟩
    have := hisWord.2 _ hspace
    cases this
  have hrecord : recordOfFields mountIds m.mountId m.parentId m.device (mangle m.root)
      (mangle m.mountPoint) (mangle m.filesystemType) =
      if m.isPlain = true ∧ (m.mountId : ℤ) ∉ mountIds then .value m.record else .refused := by
    rw [recordOfFields, mountinfoUnescape_mangle, mountinfoUnescape_mangle, isDevice_device,
      isFilesystemType_mangle]
    by_cases hid : m.mountId = 0 ∨ (m.mountId : ℤ) ∈ mountIds
    · rw [if_pos hid, if_neg]
      rintro ⟨hplain, hnew⟩
      simp only [KernelMount.isPlain, Bool.and_eq_true, decide_eq_true_eq] at hplain
      rcases hid with hzero | hmem
      · omega
      · exact hnew hmem
    · rw [not_or] at hid
      rw [if_neg (by tauto), if_neg (by simp)]
      dsimp only
      have hplain : m.isPlain = (isPlainPath m.root && isPlainPath m.mountPoint &&
          isFilesystemType m.filesystemType) := by
        rw [KernelMount.isPlain, decide_eq_true (Nat.pos_of_ne_zero hid.1), Bool.true_and]
      rw [hplain]
      split
      · next hpaths =>
        have htype : mangle m.filesystemType = m.filesystemType :=
          mangle_plain (octal_of_isFilesystemType (Bool.and_eq_true _ _ ▸ hpaths).2)
        rw [if_pos ⟨hpaths, hid.2⟩, htype]
        rfl
      · next hpaths => rw [if_neg (by tauto)]
  rw [parseMountLine, hparts]
  dsimp only
  rw [hbefore, hbehind]
  cases hmore : more ++ [m.superOptions] with
  | nil => simp at hmore
  | cons last rest =>
    simp only [KernelMount.before, List.cons_append, List.nil_append, hmore, isDigits_toDigits,
      Bool.not_true, Bool.or_self, Bool.false_eq_true, if_false, intOf_toDigits h.mountId,
      intOf_toDigits h.parentId]
    exact hrecord

/-- The lines of the kernel are read one by one, where every mount is plain and no identifier comes
twice. -/
theorem mountRecords_lines (h : ∀ m ∈ mounts, m.Legible) {records : List MountInfoRecord}
    (hnodup : (records.map (·.mountId)).Nodup) :
    mountRecords records (mounts.map KernelMount.line) =
      if (∀ m ∈ mounts, m.isPlain = true) ∧ ((records ++ mounts.map KernelMount.record).map
        (·.mountId)).Nodup then .value (records ++ mounts.map KernelMount.record)
      else .refused := by
  induction mounts generalizing records with
  | nil => simp [mountRecords, hnodup]
  | cons m mounts ih =>
    rw [List.forall_mem_cons] at h
    rw [List.map_cons, mountRecords, parseMountLine_line h.1, List.map_cons]
    by_cases hnew : m.isPlain = true ∧ (m.mountId : ℤ) ∉ records.map (·.mountId)
    · rw [if_pos hnew]
      dsimp only
      have hids : ((records ++ [m.record]).map (·.mountId)).Nodup := by
        rw [List.map_append, List.nodup_append]
        refine ⟨hnodup, List.nodup_singleton _, fun a ha b hb => ?_⟩
        rw [List.mem_singleton.mp hb]
        rintro rfl
        exact hnew.2 ha
      rw [ih h.2 hids, List.append_assoc, List.singleton_append]
      refine if_congr ?_ rfl rfl
      rw [List.forall_mem_cons, and_iff_right hnew.1]
    · rw [if_neg hnew, if_neg]
      rintro ⟨hplain, hall⟩
      apply hnew
      refine ⟨hplain m List.mem_cons_self, fun hmem => ?_⟩
      rw [List.map_append, List.nodup_append] at hall
      exact hall.2.2 _ hmem _ List.mem_cons_self rfl

end Table

/-! ## Two samples -/

/-- A mount of a disk, by its mount point. -/
def diskMount (mountPoint : MountText) : KernelMount where
  mountId := 36
  parentId := 35
  major := 8
  minor := 2
  root := ['/']
  mountPoint := mountPoint
  options := ['r', 'w']
  optionalFields := []
  filesystemType := ['e', 'x', 't', '4']
  source := ['/', 'd', 'e', 'v']
  superOptions := ['r', 'w']
  options_word := ⟨isWord_of_printable (by simp) (by simp), by simp⟩
  optional_words := by simp
  super_word := isWord_of_printable (by simp) (by simp)

/-- A path with a blank and a backslash. -/
def blankPath : MountText := ['/', 'a', ' ', '\\', 'b']

end ProtectedHost
