import Mathlib
import WebsiteInfrastructure.Library.Regex

/-!
# Texts as a shell script reads them

What a command substitution keeps of an output, the lines that `grep` and `cut` see, and the
parameter expansions that remove a part of a value.
-/

namespace ShellText

abbrev Text := List Char

/-- The lines of a text. A newline at its end begins no further line. -/
def lines (t : Text) : List Text :=
  let pieces := t.splitOn '\n'
  if pieces.getLast? = some [] then pieces.dropLast else pieces

/-- The lines of an output, each on its own. -/
def unlines (ls : List Text) : Text := ls.flatMap (· ++ ['\n'])

/-- `$(...)` drops NUL bytes and the newlines at the end. -/
def substitution (t : Text) : Text := (t.filter (· ≠ '\x00')).rdropWhile (· = '\n')

/-- The lines of a value that is printed with `printf '%s\n'`. -/
def printedLines (t : Text) : List Text := lines (t ++ ['\n'])

/-- `[[:blank:]]` -/
def isBlank (c : Char) : Bool := c = ' ' || c = '\t'

/-- The line contains a phrase. -/
def mentions (phrase : String) (line : Text) : Bool := phrase.toList <:+: line

/-- The line begins with a phrase. -/
def starts (phrase : String) (line : Text) : Bool := phrase.toList <+: line

/-- `${value#text}` -/
def dropStart (text : String) (value : Text) : Text :=
  if starts text value then value.drop text.toList.length else value

/-- `${value%text}` -/
def dropEnd (text : String) (value : Text) : Text :=
  if text.toList <:+ value then value.take (value.length - text.toList.length) else value

/-- `${value#*c}` -/
def dropThrough (c : Char) (value : Text) : Text :=
  if c ∈ value then (value.dropWhile (· ≠ c)).drop 1 else value

/-- `${value#*text}` -/
def dropThroughText (text : String) (value : Text) : Text :=
  match value.tails.find? (starts text) with
  | some rest => rest.drop text.toList.length
  | none => value

/-- `${value##*c}` -/
def dropThroughLast (c : Char) (value : Text) : Text := value.rtakeWhile (· ≠ c)

/-- A value without the blanks around it. -/
def trim (value : Text) : Text := (value.dropWhile isBlank).rdropWhile isBlank

/-- `cut -d' ' -f1` of one line -/
def firstField (line : Text) : Text := line.takeWhile (· ≠ ' ')

/-- `cut -d' ' -f2-` of one line; a line without the delimiter is printed whole. -/
def otherFields (line : Text) : Text := dropThrough ' ' line

def asciiLower (c : Char) : Char := if 'A' ≤ c ∧ c ≤ 'Z' then Char.ofNat (c.toNat + 32) else c

/-- `grep -i -e '^name'` of one line, for a name in small letters -/
def startsIgnoringCase (name : String) (line : Text) : Bool := starts name (line.map asciiLower)

/-- `grep -m1 -o -E`: every match of the first line that has one -/
def firstMatches (r : Regex.Pattern) (ls : List Text) : Text :=
  match ls.find? r.found with
  | none => []
  | some line => unlines ((r.findAll line).map fun m => m.start.upTo m.stop)

/-- `grep -o -E`: every match of every line -/
def allMatches (r : Regex.Pattern) (ls : List Text) : List Text :=
  ls.flatMap fun line => (r.findAll line).map fun m => m.start.upTo m.stop

end ShellText
