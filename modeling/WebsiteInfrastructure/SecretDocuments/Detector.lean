import Mathlib
import WebsiteInfrastructure.Library.Regex

/-!
# The detector of Secret documents

`validate_release_transition.py` decides by regular expressions over lines whether a text declares a
Kubernetes Secret; `validate_publication_history.py` holds the same functions once more, character
for character.
-/

namespace SecretDocuments

open PythonText Regex Regex.Pattern

abbrev Text := List Char

/-! ## Patterns -/

/-- `^` and `\A`: the start of the text. -/
def textStart : Pattern := edge fun before _ => before.isNone

/-- `$`: the end of the text, or its last line feed, after which nothing is looked at. -/
def textEnd : Pattern :=
  alt (edge fun _ next => next.isNone) (all [char (· = '\n'), edge fun _ next => next.isNone])

/-- A word, plain or between quotation marks. -/
def plainOrQuoted (word : String) : Pattern :=
  alt (lit word) (alt (lit ("\"" ++ word ++ "\"")) (lit ("'" ++ word ++ "'")))

/-- `(?:kind|\"kind\"|'kind')\s*:` -/
def kindKey : List Pattern := [plainOrQuoted "kind", spaces, char (· = ':')]

/-- `(?:Secret|\"Secret\"|'Secret')` -/
def secretValue : Pattern := plainOrQuoted "Secret"

/-- `(?:#.*)?` -/
def comment : Pattern := opt (all [char (· = '#'), star (char (· ≠ '\n'))])

/-- `_BLOCK_KIND_KEY` -/
def blockKindKey : Pattern := all (textStart :: kindKey)

/-- `_BLOCK_SECRET_KIND` -/
def blockSecretKind : Pattern :=
  all (textStart :: kindKey ++ [spaces, secretValue, spaces, comment, textEnd])

/-- `_FLOW_SECRET_KIND` -/
def flowSecretKind : Pattern :=
  all ([alt textStart (char (· ∈ [',', '\x7b'])), spaces] ++ kindKey ++
    [spaces, secretValue, spaces, alt (char (· ∈ [',', '\x7d'])) textEnd])

/-- The pattern of a line with a key `kind` and whatever value. -/
def kindLine : Pattern :=
  all ([textStart, spaces] ++ kindKey ++
    [spaces, group "value" (lazy (char (· ≠ '\n'))), spaces, comment, textEnd])

/-- `(?<![A-Za-z])Secret(?![A-Za-z])` -/
def secretWord : Pattern :=
  all [edge fun before _ => !before.any Char.isAlpha, lit "Secret",
    edge fun _ next => !next.any Char.isAlpha]

/-- `(?m)^---\s*$` -/
def documentMarker : Pattern := all [bol, lit "---", spaces, eol]

/-! ## The detector -/

/-- `len(line) - len(line.lstrip(" "))` -/
def indentOf (line : Text) : ℕ := (line.takeWhile (· = ' ')).length

/-- A line that is neither blank nor a comment. -/
def isSignificant (line : Text) : Bool :=
  !(strip line).isEmpty && (line.dropWhile isSpace).head? ≠ some '#'

/-- `_top_level_yaml_lines` -/
def topLevelYamlLines (document : Text) : List Text :=
  let significant := (splitlines document).filter isSignificant
  match (significant.map indentOf).min? with
  | none => []
  | some baseIndent =>
    (significant.filter fun line => indentOf line = baseIndent).map (·.drop baseIndent)

/-- A value of a key `kind` that could resolve to `Secret`. -/
def isSuspicious (value : Text) : Bool :=
  if secretWord.found value then true
  else if value.head?.any (· ∈ ['!', '&', '*', '|', '>', '[', '\x7b']) then true
  else value.head?.any (· ∈ ['"', '\'']) && '\\' ∈ value

def isSuspiciousLine (line : Text) : Bool :=
  match kindLine.matchAt (.ofText line) with
  | none => false
  | some m => isSuspicious (m.group "value")

/-- `_secret_kind_state`: whether the document is like a Secret, and whether it says so in the one
canonical spelling. -/
def secretKindState (document : Text) : Bool × Bool :=
  let topLevel := topLevelYamlLines document
  let kindLines := topLevel.filter fun line => (blockKindKey.matchAt (.ofText line)).isSome
  let secretLines := kindLines.filter blockSecretKind.fullMatches
  let flowSecret := flowSecretKind.found document
  let suspiciousKind := (splitlines document).any isSuspiciousLine
  let secretLike := !secretLines.isEmpty || flowSecret || suspiciousKind
  let canonical := secretLike && !flowSecret && kindLines = ["kind: Secret".toList]
  (secretLike, canonical)

def documents (text : Text) : List Text := documentMarker.split text

/-- `contains_secret_document` -/
def containsSecretDocument (text : Text) : Bool :=
  (documents text).any fun document => (secretKindState document).1

end SecretDocuments
