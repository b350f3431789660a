import Mathlib
import WebsiteInfrastructure.Library.IndentedMapping
import WebsiteInfrastructure.Library.LineReaders
import WebsiteInfrastructure.Library.Utf8

/-!
# Canonical YAML of the release state

`validate_release_state.py` reads its manifests twice: `canonical_scalar` walks down one path of
keys, `_parse_simple_mapping` takes a whole mapping. Both see the same tree of entries.
-/

namespace ReleaseState

open PythonText ShellText Utf8

/-! ## Admission -/

def maxReleaseYamlBytes : ℕ := 65536

/-- A control character other than the line feed, or a separator of Unicode lines -/
def isForbidden (c : Char) : Bool :=
  (c.toNat < 32 && c ≠ '\n') || (127 ≤ c.toNat && c.toNat ≤ 159) ||
    (c.toNat = 0x2028 || c.toNat = 0x2029)

/-- `[ ]*(?:---|[.][.][.])(?:[ ]+#.*)?` -/
def isDocumentMarker (line : Text) : Bool :=
  let content := line.dropWhile (· = ' ')
  let rest := (content.drop 3).dropWhile (· = ' ')
  (content.take 3 = ['-', '-', '-'] || content.take 3 = ['.', '.', '.']) &&
    (content.length = 3 || ((content.drop 3).head? = some ' ' && rest.head? = some '#'))

/-- What `_read_canonical_text` makes of the bytes of the file. -/
def readCanonicalText (allowDocuments : Bool) (raw : Bytes) : Except String Text :=
  if raw = [] ∨ maxReleaseYamlBytes < raw.length ∨ raw.getLast? ≠ some 10 then
    .error "release YAML must be bounded and LF terminated"
  else
    match decode? raw with
    | none => .error "release YAML must be UTF-8"
    | some text =>
      let text := text.toList
      if text.any isForbidden then
        .error "release YAML must use LF as its only control separator"
      else if !allowDocuments && (text.splitOn '\n').any isDocumentMarker then
        .error "release YAML document markers are forbidden"
      else .ok text

/-! ## Lines -/

/-- `line.lstrip()` -/
def lstrip (line : Text) : Text := line.dropWhile isSpace

/-- `not line.strip() or line.lstrip().startswith("#")` -/
def isSkipped (line : Text) : Bool := strip line = [] || (lstrip line).head? = some '#'

/-- `_indent` -/
def indentOf (line : Text) : ℕ := (line.takeWhile (· = ' ')).length

/-- `[A-Za-z0-9_.-]` -/
def isKeyChar (c : Char) : Bool := c.isAlphanum || c ∈ ['_', '.', '-']

/-- `SCALAR_RE` -/
def isScalar (value : Text) : Bool :=
  value.head?.any (fun c => c.isAlphanum || c ∈ ['.', '/']) &&
    value.all fun c => c.isAlphanum || c ∈ ['_', '.', '/', ':', '@', '+', '-']

/-- `_mapping_entry` -/
def mappingEntry (line : Text) (indent : ℕ) : Except String (Option (Text × Option Text)) :=
  if indentOf line ≠ indent then .ok none
  else
    let content := line.drop indent
    let key := content.takeWhile isKeyChar
    let suffix := (content.drop key.length).drop 1
    if content = ['-', '-', '-'] ∨ content = ['.', '.', '.'] then
      .error "release YAML document markers are forbidden"
    else if key = [] ∨ (content.drop key.length).head? ≠ some ':' ∨ '\n' ∈ suffix then
      .error "release YAML contains a non-canonical mapping line"
    else if suffix = [] then .ok (some (key, none))
    else if suffix ≠ ' ' :: strip (suffix.drop 1) then
      .error "release YAML scalar spacing is not canonical"
    else if isScalar (suffix.drop 1) then .ok (some (key, some (suffix.drop 1)))
    else .error "release YAML contains an unsupported scalar"

/-! ## Walking down a path -/

/-- The entries of a key among the lines, each with the lines after it. -/
def entriesOf (indent : ℕ) (key : Text) : List Text → Except String (List (Option Text × List Text))
  | [] => .ok []
  | line :: lines => do
    if isSkipped line then
      entriesOf indent key lines
    else
      let entry ← mappingEntry line indent
      let found ← entriesOf indent key lines
      match entry with
      | some (other, value) => .ok (if other = key then (value, lines) :: found else found)
      | none => .ok found

/-- The lines up to the next one that is indented no deeper. -/
def nestedLines (indent : ℕ) (lines : List Text) : List Text :=
  lines.takeWhile fun line => isSkipped line || indent < indentOf line

/-- `_child`, on the lines from `start` to `end` -/
def child (lines : List Text) (indent : ℕ) (key : Text) (container : Bool) :
    Except String (Option Text × List Text) := do
  match ← entriesOf indent key lines with
  | [(value, after)] =>
    if container && value.isSome then .error "release YAML mapping field is not a mapping"
    else if !container && value.isNone then .error "release YAML scalar field is not a scalar"
    else .ok (value, nestedLines indent after)
  | _ => .error "release YAML field is missing or duplicated"

/-- The rest of the path, from a section of the lines on. -/
def scalarUnder (lines : List Text) (indent : ℕ) : List Text → Except String Text
  | [] => .error "release YAML path is empty"
  | [key] => do
    match ← child lines indent key false with
    | (some value, _) => .ok value
    | (none, _) => .error "release YAML scalar is unavailable"
  | key :: keys => do
    let (_, nested) ← child lines indent key true
    scalarUnder nested (indent + 2) keys

/-- `canonical_scalar` -/
def canonicalScalar (text : Text) (path : List Text) : Except String Text :=
  scalarUnder (text.splitOn '\n') 0 path

/-- `_mapping_section`: the lines, and how far they are indented -/
def sectionUnder (lines : List Text) (indent : ℕ) : List Text → Except String (List Text × ℕ)
  | [] => .ok (lines, indent)
  | key :: keys => do
    let (_, nested) ← child lines indent key true
    sectionUnder nested (indent + 2) keys

/-! ## Taking a whole mapping -/

/-- `parsed`: the values by their paths, in the order in which they were set -/
abbrev Parsed := Indented.Found Text Text

abbrev Progress := Indented.Progress Text Text

/-- One turn of the loop of `_parse_simple_mapping`. -/
def observeLine (base : ℕ) (progress : Progress) (line : Text) : Except String Progress :=
  if isSkipped line then .ok progress
  else
    let indent := indentOf line
    let contexts := progress.contexts.filter (·.1 ≤ indent)
    if indent < base ∨ (indent - base) % 2 ≠ 0 then
      .error "release values indentation is not canonical"
    else
      match contexts.lookup indent with
      | none => .error "release values indentation jumps a mapping level"
      | some parent => do
        match ← mappingEntry line indent with
        | none => .error "release values contain an unsupported document marker"
        | some (key, value) =>
          let itemPath := parent ++ [key]
          if itemPath ∈ progress.found.map Prod.fst then
            .error "release values contain a duplicate key"
          else
            let others := contexts.filter (·.1 ≠ indent + 2)
            .ok ⟨progress.found ++ [(itemPath, value)],
              if value.isNone then (indent + 2, itemPath) :: others else others⟩

def observeLines (base : ℕ) (progress : Progress) : List Text → Except String Progress
  | [] => .ok progress
  | line :: lines => do
    let progress ← observeLine base progress line
    observeLines base progress lines

/-- `_parse_simple_mapping`, on the lines from `start` to `end` -/
def parseSimpleMapping (lines : List Text) (base : ℕ) : Except String Parsed := do
  let progress ← observeLines base ⟨[], [(base, [])]⟩ lines
  if progress.found = [] then .error "release values mapping is empty"
  else .ok progress.found

/-! ## The entries of the lines -/

/-- What a line that is not skipped says, at its own indentation. -/
def entryOf (line : Text) : Option (Indented.Entry Text Text) :=
  match mappingEntry line (indentOf line) with
  | .ok (some (key, value)) => some ⟨indentOf line, key, value⟩
  | _ => none

/-- The lines that are not skipped are these entries. -/
inductive Reads : List Text → List (Indented.Entry Text Text) → Prop
  | nil : Reads [] []
  | skip {line lines entries} (hskip : isSkipped line = true) (h : Reads lines entries) :
      Reads (line :: lines) entries
  | entry {line lines e entries} (hskip : isSkipped line = false) (he : entryOf line = some e)
      (h : Reads lines entries) : Reads (line :: lines) (e :: entries)

theorem entryOf_eq_some {line : Text} {e : Indented.Entry Text Text} : entryOf line = some e ↔
    e.indent = indentOf line ∧ mappingEntry line (indentOf line) = .ok (some (e.key, e.value)) := by
  unfold entryOf
  constructor
  · intro h
    split at h
    · next key value heq =>
      obtain rfl := Option.some.inj h
      exact ⟨rfl, heq⟩
    · cases h
  · rintro ⟨hindent, heq⟩
    rw [heq, ← hindent]

/-- A line of another indentation is no entry here, and says no error. -/
theorem mappingEntry_of_entry {line : Text} {e : Indented.Entry Text Text}
    (h : entryOf line = some e) (indent : ℕ) :
    mappingEntry line indent = .ok (if e.indent = indent then some (e.key, e.value) else none) := by
  obtain ⟨hindent, heq⟩ := entryOf_eq_some.mp h
  by_cases hsame : e.indent = indent
  · rw [if_pos hsame, ← hsame, hindent, heq]
  · rw [if_neg hsame, mappingEntry, if_pos (hindent ▸ hsame)]

theorem Reads.entriesOf {lines : List Text} {entries : List (Indented.Entry Text Text)}
    (h : Reads lines entries) (indent : ℕ) (key : Text) :
    ∃ found, ReleaseState.entriesOf indent key lines = .ok found ∧
      List.Forall₂ (fun f e => f.1 = e.1 ∧ Reads f.2 e.2) found
        (Indented.ownMatches indent key entries) := by
  induction h with
  | nil => exact ⟨[], rfl, .nil⟩
  | @skip line lines entries hskip _ ih =>
    obtain ⟨found, hfound, hall⟩ := ih
    exact ⟨found, by rw [ReleaseState.entriesOf, if_pos hskip, hfound], hall⟩
  | @entry line lines e entries hskip he hlines ih =>
    obtain ⟨found, hfound, hall⟩ := ih
    have hentry := mappingEntry_of_entry he indent
    rw [ReleaseState.entriesOf, if_neg (by simp [hskip]), hentry, hfound, Indented.ownMatches]
    by_cases hindent : e.indent = indent
    · by_cases hkey : e.key = key
      · rw [if_pos hindent, if_pos ⟨hindent, hkey⟩]
        refine ⟨(e.value, lines) :: found, ?_, .cons ⟨rfl, hlines⟩ hall⟩
        simp [hkey, bind, Except.bind]
      · rw [if_pos hindent, if_neg fun hboth => hkey hboth.2]
        refine ⟨found, ?_, hall⟩
        simp [hkey, bind, Except.bind]
    · rw [if_neg hindent, if_neg fun hboth => hindent hboth.1]
      exact ⟨found, rfl, hall⟩

theorem Reads.nestedLines {lines : List Text} {entries : List (Indented.Entry Text Text)}
    (h : Reads lines entries) (indent : ℕ) :
    Reads (nestedLines indent lines) (entries.takeWhile (indent < ·.indent)) := by
  unfold ReleaseState.nestedLines
  induction h with
  | nil => exact .nil
  | skip hskip _ ih =>
    rw [List.takeWhile_cons_of_pos (by simp [hskip])]
    exact .skip hskip ih
  | @entry line lines e entries hskip he _ ih =>
    have hindent := (entryOf_eq_some.mp he).1
    by_cases hdeep : indent < e.indent
    · rw [List.takeWhile_cons_of_pos (by simp [← hindent, hdeep]),
        List.takeWhile_cons_of_pos (by simpa using hdeep)]
      exact .entry hskip he ih
    · rw [List.takeWhile_cons_of_neg (by simp [hskip, ← hindent, hdeep]),
        List.takeWhile_cons_of_neg (by simpa using hdeep)]
      exact .nil

/-- The child of lines is the child of their entries, of the kind that is asked for. -/
theorem Reads.child {lines : List Text} {entries : List (Indented.Entry Text Text)}
    (h : Reads lines entries) (indent : ℕ) (key : Text) (container : Bool) :
    (∃ error, ReleaseState.child lines indent key container = .error error ∧
      ∀ value nested, Indented.child indent key entries = some (value, nested) →
        value.isSome = container) ∨
    ∃ value nested entries', ReleaseState.child lines indent key container = .ok (value, nested) ∧
      Indented.child indent key entries = some (value, entries') ∧ Reads nested entries' ∧
        value.isNone = container := by
  obtain ⟨found, hfound, hall⟩ := h.entriesOf indent key
  unfold ReleaseState.child Indented.child
  rw [hfound]
  simp only [bind, Except.bind]
  generalize hown : Indented.ownMatches indent key entries = own at hall
  match found, own, hall with
  | [], [], .nil => exact .inl ⟨_, rfl, by simp⟩
  | _ :: _ :: _, _ :: _ :: _, .cons _ (.cons _ _) => exact .inl ⟨_, rfl, by simp⟩
  | [(value, after)], [(value', after')], .cons ⟨hvalue, hafter⟩ .nil =>
    obtain rfl : value = value' := hvalue
    cases value with
    | none =>
      cases container with
      | true => exact .inr ⟨none, _, _, rfl, rfl, hafter.nestedLines indent, rfl⟩
      | false => exact .inl ⟨_, rfl, by simp⟩
    | some scalar =>
      cases container with
      | true => exact .inl ⟨_, rfl, by simp⟩
      | false => exact .inr ⟨some scalar, _, _, rfl, rfl, hafter.nestedLines indent, rfl⟩

/-- What a walk over the lines says of the entries: their scalar, or an error where they have none. -/
def Says (answer : Except String Text) (scalar : Option Text) : Prop :=
  match scalar with
  | some value => answer = .ok value
  | none => ∃ error, answer = .error error

/-- `canonical_scalar` walks down the entries. -/
theorem Reads.scalarUnder {lines : List Text} {entries : List (Indented.Entry Text Text)}
    (h : Reads lines entries) (indent : ℕ) (path : List Text) :
    Says (ReleaseState.scalarUnder lines indent path) (Indented.walk indent path entries) := by
  induction path generalizing lines entries indent with
  | nil => exact ⟨_, rfl⟩
  | cons key keys ih =>
    cases keys with
    | nil =>
      rw [ReleaseState.scalarUnder, Indented.walk]
      rcases h.child indent key false with ⟨error, herror, hother⟩ | ⟨value, nested, entries', hok,
        hchild, -, hvalue⟩
      · rw [herror]
        cases hchild : Indented.child indent key entries with
        | none => exact ⟨error, rfl⟩
        | some found =>
          have hnone := hother found.1 found.2 hchild
          rw [Option.isSome_eq_false_iff, Option.isNone_iff_eq_none] at hnone
          simp only [Option.bind_eq_bind, Option.bind_some, hnone]
          exact ⟨error, rfl⟩
      · rw [hok, hchild]
        cases value with
        | none => cases hvalue
        | some scalar => rfl
    | cons next keys =>
      rw [ReleaseState.scalarUnder, Indented.walk]
      · rcases h.child indent key true with ⟨error, herror, hother⟩ | ⟨value, nested, entries', hok,
          hchild, hnested, hvalue⟩
        · rw [herror]
          cases hchild : Indented.child indent key entries with
          | none => exact ⟨error, rfl⟩
          | some found =>
            have hsome := hother found.1 found.2 hchild
            have hnot : found.1.isNone = false := by
              rw [Option.isNone_eq_false_iff]
              exact hsome
            simp only [Option.bind_eq_bind, Option.bind_some, hnot]
            exact ⟨error, rfl⟩
        · rw [hok, hchild]
          simp only [Option.bind_eq_bind, Option.bind_some, hvalue]
          exact ih hnested (indent + 2)
      all_goals simp

/-! ## The two readers agree -/

/-- A turn that does not fail takes the entry of its line, or skips the line. -/
theorem observeLine_eq_ok {base : ℕ} {progress next : Progress} {line : Text}
    (h : observeLine base progress line = .ok next) :
    (isSkipped line = true ∧ next = progress) ∨
      ∃ e, isSkipped line = false ∧ entryOf line = some e ∧ base ≤ e.indent ∧
        Indented.readEntry progress e = some next := by
  unfold observeLine at h
  split at h
  · next hskip => exact .inl ⟨hskip, (Except.ok.inj h).symm⟩
  · next hskip =>
    dsimp only at h
    split at h
    · cases h
    · next hlevel =>
      split at h
      · cases h
      · next parent hparent =>
        cases hentry : mappingEntry line (indentOf line) with
        | error error =>
          rw [hentry] at h
          cases h
        | ok entry =>
          rw [hentry] at h
          match entry, h with
          | none, h => cases h
          | some (key, value), h =>
            simp only [bind, Except.bind] at h
            split at h
            · cases h
            · next hnew =>
              have heq : entryOf line = some ⟨indentOf line, key, value⟩ :=
                entryOf_eq_some.mpr ⟨rfl, hentry⟩
              have hbase : base ≤ indentOf line := by omega
              refine .inr ⟨_, by simpa using hskip, heq, hbase, ?_⟩
              simp only [Indented.readEntry, hparent, if_neg hnew]
              exact congrArg some (Except.ok.inj h)

/-- What is taken are entries, read with the open mappings. -/
theorem observeLines_eq_ok {base : ℕ} {lines : List Text} {progress last : Progress}
    (h : observeLines base progress lines = .ok last) :
    ∃ entries, Reads lines entries ∧ Indented.readEntries progress entries = some last := by
  induction lines generalizing progress with
  | nil => exact ⟨[], .nil, congrArg some (Except.ok.inj h)⟩
  | cons line lines ih =>
    rw [observeLines] at h
    cases hline : observeLine base progress line with
    | error error =>
      rw [hline] at h
      cases h
    | ok next =>
      rw [hline] at h
      obtain ⟨entries, hreads, hentries⟩ := ih h
      rcases observeLine_eq_ok hline with ⟨hskip, rfl⟩ | ⟨e, hskip, he, -, hread⟩
      · exact ⟨entries, .skip hskip hreads, hentries⟩
      · refine ⟨e :: entries, .entry hskip he hreads, ?_⟩
        rw [Indented.readEntries, hread]
        exact hentries

/-- A mapping that is taken is one block of entries, and no path comes twice in it. -/
theorem parseSimpleMapping_eq_ok {lines : List Text} {base : ℕ} {parsed : Parsed}
    (h : parseSimpleMapping lines base = .ok parsed) :
    (parsed.map Prod.fst).Nodup ∧
      ∃ entries, Reads lines entries ∧ Indented.Block base [] entries parsed := by
  unfold parseSimpleMapping at h
  cases hlines : observeLines base ⟨[], [(base, [])]⟩ lines with
  | error error =>
    rw [hlines] at h
    cases h
  | ok last =>
    rw [hlines] at h
    simp only [bind, Except.bind] at h
    split at h
    · cases h
    · obtain rfl := Except.ok.inj h
      obtain ⟨entries, hreads, hentries⟩ := observeLines_eq_ok hlines
      have hstack : Indented.IsStack base [(base, ([] : List Text))] := ⟨by simp, trivial⟩
      obtain ⟨hnodup, more, hfound, hblocks⟩ :=
        Indented.readEntries_blocks hstack (by simp) hentries
      refine ⟨hnodup, entries, hreads, ?_⟩
      rw [hfound, List.nil_append]
      cases hblocks with
      | cons hblock hrest =>
        cases hrest with
        | nil => simpa using hblock

/-- Where a whole document is one mapping, `canonical_scalar` gives the scalar that this mapping
holds at the path, and fails where it holds a mapping there or nothing. -/
theorem canonicalScalar_agrees {text : Text} {parsed : Parsed}
    (h : parseSimpleMapping (text.splitOn '\n') 0 = .ok parsed) :
    (parsed.map Prod.fst).Nodup ∧
      (∃ entries, Reads (text.splitOn '\n') entries ∧ Indented.Block 0 [] entries parsed) ∧
        ∀ path, Says (canonicalScalar text path) (parsed.lookup path).join := by
  obtain ⟨hnodup, entries, hreads, hblock⟩ := parseSimpleMapping_eq_ok h
  refine ⟨hnodup, ⟨entries, hreads, hblock⟩, fun path => ?_⟩
  have hsays := hreads.scalarUnder 0 path
  have hwalk : Indented.walk 0 path entries = (parsed.lookup path).join := by
    apply Option.ext
    intro value
    rw [hblock.walk_eq_some hnodup, List.nil_append, Option.join_eq_some_iff,
      Indented.lookup_eq_some hnodup]
    constructor
    · exact fun hpath => hpath.2
    · intro hmem
      refine ⟨?_, hmem⟩
      obtain ⟨key, more, hpath, -⟩ := hblock.path_of_mem _ hmem
      rintro rfl
      cases hpath
  rw [← hwalk]
  exact hsays

/-- A mapping of two levels with a comment and a key of the same name further in -/
def nestedText : Text := "kind: A\nspec:\n  # kind: B\n  kind: C\n\n  other: d\n".toList

theorem canonicalScalar_agrees_nested :
    Says (canonicalScalar nestedText ["spec".toList, "kind".toList]) (some "C".toList) := by
  have hparsed : parseSimpleMapping (nestedText.splitOn '\n') 0 =
      .ok [(["kind".toList], some "A".toList), (["spec".toList], none),
        (["spec".toList, "kind".toList], some "C".toList),
        (["spec".toList, "other".toList], some "d".toList)] := by
    decide +kernel
  exact (canonicalScalar_agrees hparsed).2.2 _

/-! ## Lines that are passed over -/

/-- Spaces only, or spaces before a `#`: what YAML passes over -/
def IsInsignificant (line : Text) : Prop :=
  line.dropWhile (· = ' ') = [] ∨ (line.dropWhile (· = ' ')).head? = some '#'

instance (line : Text) : Decidable (IsInsignificant line) := by
  unfold IsInsignificant
  infer_instance

/-- The white space beyond ASCII that an admitted text may contain -/
def isWideSpace (c : Char) : Bool :=
  c ∈ ['\u00a0', '\u1680', '\u202f', '\u205f', '\u3000'] || ('\u2000' ≤ c && c ≤ '\u200a')

/-- A line whose leading white space, with a wide space in it, ends the line or stands before a `#` -/
def HidesContent (line : Text) : Prop :=
  (lstrip line = [] ∨ (lstrip line).head? = some '#') ∧ (line.takeWhile isSpace).any isWideSpace

/-- The readers pass over a line exactly where it leaves what they have read unchanged. -/
theorem isSkipped_iff_observeLine {base : ℕ} {progress : Progress} {line : Text} :
    isSkipped line = true ↔ observeLine base progress line = .ok progress := by
  constructor
  · intro hskip
    rw [observeLine, if_pos hskip]
  · intro h
    rcases observeLine_eq_ok h with ⟨hskip, -⟩ | ⟨e, -, -, -, hread⟩
    · exact hskip
    · unfold Indented.readEntry at hread
      dsimp only at hread
      split at hread
      · cases hread
      · split at hread
        · cases hread
        · have hlength := congrArg (fun p => p.found.length) (Option.some.inj hread)
          simp at hlength

theorem strip_eq_nil_iff {line : Text} : strip line = [] ↔ lstrip line = [] := by
  unfold strip lstrip
  constructor
  · intro h
    rw [List.rdropWhile_eq_nil_iff] at h
    cases hrest : line.dropWhile isSpace with
    | nil => rfl
    | cons c rest =>
      have hhead := List.head?_dropWhile_not isSpace line
      rw [hrest] at h hhead
      have hc := h c List.mem_cons_self
      simp [hc] at hhead
  · intro h
    rw [h]
    rfl

theorem isSkipped_iff {line : Text} :
    isSkipped line = true ↔ lstrip line = [] ∨ (lstrip line).head? = some '#' := by
  simp [isSkipped, strip_eq_nil_iff]

/-- In an admitted text white space is the space, the end of a line, or wide. -/
theorem space_of_admitted {c : Char} (hspace : isSpace c = true) (hfeed : c ≠ '\n')
    (hadmitted : isForbidden c = false) : c = ' ' ∨ isWideSpace c = true := by
  have hcontrol : ∀ d ∈ ['\r', '\x0b', '\x0c', '\x1c', '\x1d', '\x1e', '\u0085', '\u2028', '\u2029',
      '\t', '\x1f'], isForbidden d = true := by
    intro d hd
    fin_cases hd <;> decide
  have hnot : c ∉ ['\r', '\x0b', '\x0c', '\x1c', '\x1d', '\x1e', '\u0085', '\u2028', '\u2029',
      '\t', '\x1f'] := by
    intro hmem
    rw [hcontrol c hmem] at hadmitted
    cases hadmitted
  unfold isSpace isLineBreak at hspace
  unfold isWideSpace
  simp only [List.mem_cons, List.not_mem_nil, or_false, Bool.or_eq_true,
    decide_eq_true_eq] at hspace hnot ⊢
  grind

/-- An admitted line that is passed over is insignificant, unless white space hides its content. -/
theorem isInsignificant_iff {line : Text} (hfeed : '\n' ∉ line)
    (hadmitted : ∀ c ∈ line, isForbidden c = false) (hskip : isSkipped line = true) :
    IsInsignificant line ↔ ¬ HidesContent line := by
  rw [isSkipped_iff] at hskip
  unfold HidesContent IsInsignificant
  unfold lstrip at hskip ⊢
  rw [and_iff_right hskip, Bool.not_eq_true]
  -- the first character that is no space is wide, or it ends the white space
  induction line with
  | nil => simp
  | cons c line ih =>
    rw [List.mem_cons, not_or] at hfeed
    rw [List.forall_mem_cons] at hadmitted
    by_cases hblank : c = ' '
    · subst hblank
      have hspace : isSpace ' ' = true := by decide
      have hwide : isWideSpace ' ' = false := by decide
      rw [List.dropWhile_cons_of_pos hspace] at hskip
      rw [List.dropWhile_cons_of_pos (by simp), List.takeWhile_cons_of_pos hspace, List.any_cons,
        hwide, Bool.false_or]
      exact ih hfeed.2 hadmitted.2 hskip
    · rw [List.dropWhile_cons_of_neg (by simpa using hblank)]
      by_cases hspace : isSpace c = true
      · have hwide := (space_of_admitted hspace (Ne.symm hfeed.1) hadmitted.1).resolve_left hblank
        have hhash : c ≠ '#' := by
          rintro rfl
          cases hspace
        rw [List.takeWhile_cons_of_pos hspace, List.any_cons, hwide]
        simp [hhash]
      · rw [List.dropWhile_cons_of_neg hspace] at hskip
        rw [List.takeWhile_cons_of_neg hspace]
        simp only [List.any_nil, iff_true]
        exact hskip

/-- Of the lines of the text that is read, the readers pass over insignificant ones only. -/
def PassesInsignificantOnly (allowDocuments : Bool) (raw : Bytes) : Prop :=
  ∀ text, readCanonicalText allowDocuments raw = .ok text →
    ∀ line ∈ text.splitOn '\n', isSkipped line = true → IsInsignificant line

theorem admitted_of_read {allowDocuments : Bool} {raw : Bytes} {text : Text}
    (h : readCanonicalText allowDocuments raw = .ok text) : ∀ c ∈ text, isForbidden c = false := by
  unfold readCanonicalText at h
  split at h
  · cases h
  · split at h
    · cases h
    · dsimp only at h
      split at h
      · cases h
      · next decoded hdecoded hforbidden =>
        split at h
        · cases h
        · obtain rfl := Except.ok.inj h
          simpa using hforbidden

theorem readCanonicalText_encode {text : Text}
    (hlength : (text.flatMap String.utf8EncodeChar).length ≤ maxReleaseYamlBytes)
    (hlast : (text.flatMap String.utf8EncodeChar).getLast? = some 10)
    (hchars : text.any isForbidden = false)
    (hmarkers : (text.splitOn '\n').any isDocumentMarker = false) :
    readCanonicalText false (encode (String.ofList text)) = .ok text := by
  have hraw : encode (String.ofList text) = text.flatMap String.utf8EncodeChar := by
    rw [encode, String.toList_ofList]
  rw [← hraw] at hlength hlast
  have hne : encode (String.ofList text) ≠ [] := by
    intro hnil
    rw [hnil] at hlast
    cases hlast
  have hbounded : ¬ (encode (String.ofList text) = [] ∨
      maxReleaseYamlBytes < (encode (String.ofList text)).length ∨
        (encode (String.ofList text)).getLast? ≠ some 10) := by
    simp [hne, hlast, hlength]
  rw [readCanonicalText, if_neg hbounded, decode?_encode]
  simp [hchars, hmarkers]

/-- They do exactly where no line of the text has a wide space among the white space before its
end or before a `#`. -/
theorem passesInsignificantOnly_iff (allowDocuments : Bool) (raw : Bytes) :
    PassesInsignificantOnly allowDocuments raw ↔
      ∀ text, readCanonicalText allowDocuments raw = .ok text →
        ∀ line ∈ text.splitOn '\n', ¬ HidesContent line := by
  have hline : ∀ text, readCanonicalText allowDocuments raw = .ok text →
      ∀ line ∈ text.splitOn '\n', isSkipped line = true →
        (IsInsignificant line ↔ ¬ HidesContent line) := by
    intro text htext line hmem hskip
    obtain ⟨hfeed, hchars⟩ := of_mem_splitOn hmem
    exact isInsignificant_iff hfeed (fun c hc => admitted_of_read htext c (hchars hc)) hskip
  constructor
  · intro h text htext line hmem hhides
    have hskip : isSkipped line = true := isSkipped_iff.mpr hhides.1
    exact (hline text htext line hmem hskip).mp (h text htext line hmem hskip) hhides
  · intro h text htext line hmem hskip
    exact (hline text htext line hmem hskip).mpr (h text htext line hmem)

/-- `a: b`, and a line that holds a no-break space -/
def noBreakText : Text := ['a', ':', ' ', 'b', '\n', '\u00a0', '\n']

theorem noBreakSpace_is_passed_over :
    ¬ ∀ allowDocuments raw, PassesInsignificantOnly allowDocuments raw := by
  intro h
  have hread : readCanonicalText false (encode (String.ofList noBreakText)) = .ok noBreakText :=
    readCanonicalText_encode (by decide) (by decide) (by decide) (by decide)
  have hline := h false (encode (String.ofList noBreakText)) noBreakText hread ['\u00a0']
  exact absurd (hline (by decide) (by decide)) (by decide)

end ReleaseState
