import Mathlib
import WebsiteInfrastructure.Library.LineReaders

/-!
# The text of a CNI manifest

The line-oriented readers of `validate_cni_manifest.py`. What a reader puts on the list of errors is
a function of its own.
-/

namespace CniManifest

open PythonText

abbrev Text := List Char

/-! ## Lines -/

/-- `_unquote` -/
def unquote (value : Text) : Text :=
  let value := strip value
  if 2 ≤ value.length ∧ (value.head? = some '\'' ∨ value.head? = some '"') ∧
      value.getLast? = value.head? then
    (value.drop 1).dropLast
  else value

/-- The loop of `_without_comment`: what stands before the comment. -/
def beforeComment : Option Char → Bool → Option Char → Text → Text
  | _, _, _, [] => []
  | quote, escaped, last, c :: cs =>
    if quote = some '"' ∧ c = '\\' ∧ escaped = false then c :: beforeComment quote true (some c) cs
    else
      let quote :=
        if (c = '\'' ∨ c = '"') ∧ escaped = false then
          if quote = none then some c else if quote = some c then none else quote
        else quote
      if c = '#' ∧ quote = none ∧ last.all isSpace then []
      else c :: beforeComment quote false (some c) cs

/-- `_without_comment` -/
def withoutComment (line : Text) : Text := (beforeComment none false none line).rdropWhile isSpace

/-- Nothing but a comment -/
def isBlank (line : Text) : Bool := strip (withoutComment line) = []

structure Line where
  indent : ℕ
  content : Text
  number : ℕ
  deriving DecidableEq

/-- One turn of the loop of `_clean_lines`. -/
def cleanLine (original : Text) (number : ℕ) : Option Line :=
  if '\t' ∈ original ∨ isBlank original then none
  else
    let line := withoutComment original
    let indent := (line.takeWhile (· = ' ')).length
    some ⟨indent, line.drop indent, number⟩

/-- `_clean_lines` -/
def cleanLines (text : Text) : List Line :=
  ((splitlines text).zipIdx 1).filterMap fun l => cleanLine l.1 l.2

/-- The errors of `_clean_lines`. -/
def tabErrors (text : Text) : List String :=
  ((splitlines text).zipIdx 1).filterMap fun l =>
    if '\t' ∈ l.1 then some s!"manifest contains a tab at line {l.2}" else none

/-! ## Documents -/

/-- A line that is `---` or `...` -/
def isBoundary (line : Text) : Bool :=
  strip (withoutComment line) ∈ [['-', '-', '-'], ['.', '.', '.']]

/-- What the boundaries of a text leave between them. -/
def stretches (text : Text) : List (List Text) := (splitlines text).splitOnP isBoundary

/-- `_documents` -/
def documents (text : Text) : List Text :=
  ((stretches text).filter fun ls => ls.any fun l => !isBlank l).map (['\n'].intercalate ·)

/-! ## Fields -/

/-- `key:\s*(.+)`, of a whole content that ends with no blank. -/
def scalarOf (key content : Text) : Option Text :=
  match content.dropPrefix? (key ++ [':']) with
  | some raw => if raw = [] then none else some (raw.dropWhile isSpace)
  | none => none

/-- `[A-Za-z0-9_.-]` -/
def isNameChar (c : Char) : Bool := c.isAlphanum || c ∈ ['_', '.', '-']

/-- `([A-Za-z0-9_.-]+):(?:\s*(.*))?` -/
def fieldOf (content : Text) : Option (Text × Text) :=
  match content.takeWhile isNameChar, content.dropWhile isNameChar with
  | c :: cs, ':' :: raw => some (c :: cs, raw.dropWhile isSpace)
  | _, _ => none

/-- What stands behind a dash and blanks. -/
def behindDash (content : Text) : Option Text :=
  match content with
  | '-' :: c :: cs => if isSpace c then some (cs.dropWhile isSpace) else none
  | _ => none

/-- `-\s+name:\s*([A-Za-z0-9_.-]+)` -/
def itemName (content : Text) : Option Text :=
  ((behindDash content).bind (scalarOf (spelled "name" rfl))).filter (·.all isNameChar)

/-- `("|", "|-", ">", ">-")` -/
def blockScalars : List Text := [['|'], ['|', '-'], ['>'], ['>', '-']]

/-- The values of a field of a document. -/
def topMatches (document key : Text) : List Text :=
  (cleanLines document).filterMap fun l =>
    if l.indent = 0 then (scalarOf key l.content).map unquote else none

/-- `_top_scalar` -/
def topScalar (document key : Text) : Option Text :=
  match topMatches document key with
  | [value] => some value
  | _ => none

def topScalarErrors (document key : Text) : List String :=
  tabErrors document ++
    if 1 < (topMatches document key).length then
      [s!"document contains duplicate top-level {String.ofList key} fields"]
    else []

/-- A dict in the order of its keys, and the errors met on the way to it. -/
structure Mapping where
  entries : List (Text × Text)
  errors : List String

namespace Mapping

def get? (m : Mapping) (key : Text) : Option Text := m.entries.lookup key

/-- One turn of the loop of `_direct_mapping`. -/
def addLine (name : Text) (m : Mapping) (line : Line) : Mapping :=
  match fieldOf line.content with
  | none => m
  | some (key, raw) =>
    if (m.get? key).isSome then
      { m with errors := m.errors ++
          [s!"{String.ofList name} contains a duplicate key at line {line.number}"] }
    else if raw = [] ∨ raw ∈ blockScalars then m
    else { m with entries := m.entries ++ [(key, unquote raw)] }

end Mapping

def isHeader (name : Text) (line : Line) : Bool := line.indent = 0 && line.content = name ++ [':']

/-- The lines right under a header. -/
def children (name : Text) (lines : List Line) : List Line :=
  (((lines.dropWhile fun l => !isHeader name l).drop 1).takeWhile fun l => 0 < l.indent).filter
    fun l => l.indent = 2

/-- `_direct_mapping` -/
def directMapping (document name : Text) : Mapping :=
  let lines := cleanLines document
  if 1 < lines.countP (isHeader name) then
    ⟨[], tabErrors document ++
      [s!"document contains duplicate top-level {String.ofList name} mappings"]⟩
  else (children name lines).foldl (Mapping.addLine name) ⟨[], tabErrors document⟩

/-! ## Values of lists and of the whole text -/

/-- The raw values of a field at any depth. -/
def rawScalars (text key : Text) : List (Text × ℕ) :=
  (cleanLines text).filterMap fun l => (scalarOf key l.content).map fun raw => (raw, l.number)

/-- `_line_scalars` -/
def lineScalars (text key : Text) : List Text :=
  ((rawScalars text key).filter fun s => s.1 ∉ blockScalars).map fun s => unquote s.1

def lineScalarsErrors (text key : Text) : List String :=
  tabErrors text ++ (rawScalars text key).filterMap fun s =>
    if s.1 ∈ blockScalars then
      some s!"{String.ofList key} uses an unsupported block scalar at line {s.2}"
    else none

/-- The value of an item whose name is on a line of the given indentation. -/
def itemValue (indent : ℕ) (below : List Line) : Option Text :=
  (below.takeWhile fun l => indent < l.indent).findSome? fun l =>
    if l.indent = indent + 2 then (scalarOf (spelled "value" rfl) l.content).map unquote else none

/-- The names and values of the items of some lines. -/
def namedValues : List Line → List (Text × Text)
  | [] => []
  | l :: ls =>
    (((itemName l.content).bind fun name => (itemValue l.indent ls).map fun value => (name, value)
      ).toList) ++ namedValues ls

/-- `_named_scalar_values(document).get(name)` -/
def namedScalarValues (document name : Text) : List Text :=
  ((namedValues (cleanLines document)).filter fun v => v.1 = name).map Prod.snd

/-- `_named_occurrences(document).get(name)` -/
def namedOccurrences (document name : Text) : ℕ :=
  (cleanLines document).countP fun l => itemName l.content = some name

/-! ## Images -/

/-- `-\s+image:` at the start of a content -/
def opensInlineImage (content : Text) : Bool :=
  (behindDash content).any fun rest => (rest.dropPrefix? (spelled "image:" rfl)).isSome

/-- The lines between an image and the item that it belongs to, the nearest first. -/
def behindParent (indent : ℕ) : List Line → Option (List Line)
  | [] => none
  | l :: ls =>
    if l.indent + 2 < indent then none
    else if l.indent + 2 = indent ∧ (itemName l.content).isSome then some []
    else (behindParent indent ls).map (l :: ·)

/-- The pull policies of the item of an image; the lines before the image are given last to first. -/
def policiesOf (line : Line) (above below : List Line) : Option (List Text) :=
  (behindParent line.indent above).map fun between =>
    (between.reverse ++ line :: below.takeWhile fun l => line.indent < l.indent + 2).filterMap
      fun l =>
        if l.indent = line.indent then
          (scalarOf (spelled "imagePullPolicy" rfl) l.content).map unquote
        else none

/-- An image, its pull policy, and what is wrong with it. -/
structure Record where
  image : Text
  policy : Option Text
  errors : List String

/-- One turn of the loop of `_image_records`. -/
def recordOf (line : Line) (above below : List Line) : Option Record :=
  (scalarOf (spelled "image" rfl) line.content).map fun raw =>
    match policiesOf line above below with
    | none => ⟨unquote raw, none,
        [s!"image at line {line.number} is not inside an explicit named container mapping"]⟩
    | some [policy] => ⟨unquote raw, some policy, []⟩
    | some _ => ⟨unquote raw, none,
        [s!"image at line {line.number} must have exactly one sibling imagePullPolicy"]⟩

/-- The loop of `_image_records`. -/
def recordsOf (above : List Line) : List Line → List Record
  | [] => []
  | l :: ls => (recordOf l above ls).toList ++ recordsOf (l :: above) ls

/-- `_image_records` -/
def imageRecords (manifest : Text) : List Record := recordsOf [] (cleanLines manifest)

end CniManifest
