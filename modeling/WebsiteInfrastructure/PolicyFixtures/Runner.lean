import Mathlib
import WebsiteInfrastructure.Library.Raising
import WebsiteInfrastructure.Library.Sed
import WebsiteInfrastructure.Library.ShellLines

/-!
# The deny fixture runner

`expect_fixture_denials` of `test-policy-fixtures.sh`: the declarations of a fixture, what the
policy engine printed about it, and the two forms in which one is compared with the other.
-/

namespace PolicyFixtures

open Raising ShellText

/-- `[[:space:]]`, within a line -/
def isSpace (c : Char) : Bool := c ∈ [' ', '\t', '\x0b', '\x0c', '\r']

/-- The content of a text file. -/
structure TextFile where
  text : Text
  noNul : '\x00' ∉ text

structure Fixture where
  /-- The path as it is printed. -/
  path : Text
  path_plain : ∀ c ∈ path, c ≠ '\n' ∧ c ≠ '\x00' ∧ c ≠ '\x1b'
  content : TextFile
  /-- The `.expected` file. -/
  sidecar : Option TextFile

namespace Fixture

def lines (f : Fixture) : List Text := ShellText.lines f.content.text

def name (f : Fixture) : String := String.ofList f.path

end Fixture

/-! ## Declarations -/

/-- `^---[[:space:]]*$` -/
def isSeparator (line : Text) : Bool := starts "---" line && (line.drop 3).all isSpace

def countDocuments (f : Fixture) : ℕ := f.lines.countP isSeparator + 1

/-- What `^#[[:space:]]*expect-deny:[[:space:]]*` leaves of a line. -/
def declaredReason : Text → Option Text
  | '#' :: rest =>
    let declaration := rest.dropWhile isSpace
    if starts "expect-deny:" declaration then some ((declaration.drop 12).dropWhile isSpace)
    else none
  | _ => none

def countDeclaredReasons (f : Fixture) : ℕ :=
  f.lines.countP fun line => (declaredReason line).any (· ≠ [])

/-- The numbers of the documents with an empty declaration, after `doc` separators. -/
def emptyDeclarationDocuments (doc : ℕ) : List Text → List ℕ
  | [] => []
  | line :: ls =>
    if isSeparator line then emptyDeclarationDocuments (doc + 1) ls
    else if declaredReason line = some [] then (doc + 1) :: emptyDeclarationDocuments doc ls
    else emptyDeclarationDocuments doc ls

/-- `sed -n 's/...//p'` prints the last reason without a newline when the file ends without one. -/
def printedReasons (f : Fixture) : Text :=
  let reasons := f.lines.filterMap declaredReason
  let complete := f.content.text.getLast? = some '\n' ∨ f.lines.getLast?.bind declaredReason = none
  if complete then unlines reasons else (unlines reasons).dropLast

/-- `while read`: a line without a newline is not read. -/
def readLines (t : Text) : List Text := (t.splitOn '\n').dropLast

/-! ## What the engine prints -/

/-- `\x1b\[[0-9;]*m` -/
def ansiSequence : List Sed.Item :=
  [.one (· = '\x1b'), .one (· = '['), .star fun c => c.isDigit || c = ';', .one (· = 'm')]

def stripAnsi (line : Text) : Text := Sed.replaceAll (Sed.fixed ansiSequence []) line

def failStart : Text := "FAIL - ".toList

def mainMark : Text := " - main - ".toList

/-- `s/^FAIL - .* - main - //p` -/
def denialText (line : Text) : Option Text :=
  if failStart <+: line then afterLast mainMark (line.drop failStart.length) else none

/-- One result that `conftest test` prints. -/
inductive Printed
  | notice (line : Text)
  | denial (document : ℕ) (message : Text)

/-- What `conftest test` did with a fixture. -/
structure Evaluation where
  /-- The exit status is not zero. -/
  failed : Bool
  printed : List Printed
  /-- Only denials are reported in the form of denials. -/
  notices : ∀ line, .notice line ∈ printed → '\n' ∉ line ∧
    denialText (stripAnsi (line.filter (· ≠ '\x00'))) = none

namespace Printed

def line (f : Fixture) : Printed → Text
  | notice line => line
  | denial _ message => failStart ++ f.path ++ mainMark ++ message

def message : Printed → Option Text
  | notice _ => none
  | denial _ message => some message

def messageOf (document : ℕ) : Printed → Option Text
  | notice _ => none
  | denial doc message => if doc = document then some message else none

end Printed

namespace Evaluation

/-- `output="$(conftest test ... 2>&1)"` -/
def output (e : Evaluation) (f : Fixture) : Text := substitution (unlines (e.printed.map (·.line f)))

def messages (e : Evaluation) : List Text := e.printed.filterMap Printed.message

/-- The denials of one document. -/
def denialsOf (e : Evaluation) (document : ℕ) : List Text :=
  e.printed.filterMap (Printed.messageOf document)

end Evaluation

/-! ## The two forms -/

/-- `LC_ALL=C sort` -/
def sorted (ls : List Text) : List Text := ls.insertionSort (· ≤ ·)

/-- `grep -vE '^[[:space:]]*(#|$)'` -/
def isReviewed (line : Text) : Bool :=
  let content := line.dropWhile isSpace
  content ≠ [] && content.head? ≠ some '#'

/-- The messages that a sidecar lists. -/
def reviewed (sidecar : TextFile) : List Text := (lines sidecar.text).filter isReviewed

def assertReviewedDenialSet (f : Fixture) (sidecar : TextFile) (output : Text) :
    Except String String := do
  let actual := substitution (unlines (sorted
    ((printedLines output).filterMap fun line => denialText (stripAnsi line))))
  let expected := substitution (unlines (sorted (reviewed sidecar)))
  raiseIf (expected = []) "reviewed denial list names no message"
  raiseIf (actual ≠ expected)
    s!"deny fixture produced a different denial set than reviewed: {f.name}"
  let count := (printedLines expected).countP (· ≠ [])
  return s!"PASS rejected {f.name} ({count} reviewed denial(s))"

/-- `grep -Fq -- "${expected}" <<<"${output}"` -/
def quotes (output : Text) (expected : Text) : Bool :=
  (printedLines output).any fun line => expected <:+: line

def assertDeclaredDenialReasons (f : Fixture) (expectedCount : ℕ) (output : Text) :
    Except String String := do
  let documents := countDocuments f
  raiseIf (expectedCount ≠ documents)
    s!"deny fixture {f.name} declares {expectedCount} expect-deny reason(s) for {documents} document(s); declare exactly one per document"
  each (fun expected => raiseIf (quotes output expected = false)
    s!"deny fixture {f.name} was rejected, but not for the declared reason: {String.ofList expected}")
    (readLines (printedReasons f))
  return s!"PASS rejected {f.name} ({expectedCount} declared reason(s) proven)"

def expectFixtureDenials (f : Fixture) (e : Evaluation) : Except String String := do
  let emptyDocuments := emptyDeclarationDocuments 0 f.lines
  let listed := ", ".intercalate (emptyDocuments.map toString)
  raiseIf (emptyDocuments ≠ [])
    s!"deny fixture carries an empty \"# expect-deny:\" declaration: {f.name} (document {listed})"
  let expectedCount := countDeclaredReasons f
  raiseIf (f.sidecar = none ∧ expectedCount = 0)
    s!"deny fixture declares no reviewed denial mechanism: {f.name}"
  raiseIf (e.failed = false) s!"deny fixture unexpectedly passed: {f.name}"
  match f.sidecar with
  | some sidecar => assertReviewedDenialSet f sidecar (e.output f)
  | none => assertDeclaredDenialReasons f expectedCount (e.output f)

end PolicyFixtures
