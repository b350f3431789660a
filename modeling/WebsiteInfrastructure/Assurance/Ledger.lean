import Mathlib
import WebsiteInfrastructure.Library.JsonReading
import WebsiteInfrastructure.Library.LineReaders
import WebsiteInfrastructure.Library.PythonObjects
import WebsiteInfrastructure.Library.PythonText
import WebsiteInfrastructure.Library.Raising
import WebsiteInfrastructure.Library.RegexMatches

/-!
# The assurance evidence ledger

`validate_assurance_ledger.py`: one JSON record a line, a sweep for private values over the raw
line, and the order and distinctness of the records.
-/

namespace Assurance

open Json Raising Regex Pattern

/-- An exception that leaves `ledger_errors`. -/
inductive Fault
  | typeError
  | valueError
  | recursionError
  deriving DecidableEq

/-! ## Errors -/

inductive LedgerError
  | absent
  | unterminated
  | blank (line : ℕ)
  | notJson (line : ℕ)
  | forbidden (line : ℕ) (label : String)
  | notObject (line : ℕ)
  | fieldSet (line : ℕ) (missing extra : List Text)
  | notCanonical (line : ℕ) (field : String)
  | regresses (line : ℕ)
  | duplicate (line : ℕ)

def reprNames (names : List Text) : List Char :=
  '[' :: [',', ' '].intercalate (names.map reprText) ++ [']']

def LedgerError.message : LedgerError → List Char
  | .absent => "ledger is missing or is a symlink".toList
  | .unterminated => "ledger must end with one newline".toList
  | .blank line => s!"line {line}: blank line is not a record".toList
  | .notJson line => s!"line {line}: not one canonical JSON record".toList
  | .forbidden line label => s!"line {line}: forbidden {label} pattern".toList
  | .notObject line => s!"line {line}: record is not one JSON object".toList
  | .fieldSet line missing extra => s!"line {line}: field set mismatch; missing=".toList ++
      reprNames missing ++ ", extra=".toList ++ reprNames extra
  | .notCanonical line field => s!"line {line}: field {field} is not canonical".toList
  | .regresses line => s!"line {line}: time_utc regresses".toList
  | .duplicate line => s!"line {line}: duplicate control/command/time record".toList

/-! ## Shapes of fields -/

def requiredFields : List String :=
  ["schema", "time_utc", "base_commit", "branch", "phase", "control", "command_id", "result",
    "evidence_sha256", "private_data", "notes"]

/-- One character of each class, in order. -/
def fits : List (Char → Bool) → List Char → Bool
  | [], [] => true
  | p :: ps, c :: cs => p c && fits ps cs
  | _, _ => false

def isDigit (c : Char) : Bool := c.isDigit

def isLowerHex (c : Char) : Bool := c.isDigit || ('a' ≤ c && c ≤ 'f')

/-- `[a-z0-9-]` -/
def isSlug (c : Char) : Bool := c.isLower || c.isDigit || c = '-'

def isUpperOrDigit (c : Char) : Bool := c.isUpper || c.isDigit

def is (x c : Char) : Bool := c = x

/-- `TIME_RE` -/
def isTime (cs : List Char) : Bool :=
  fits [isDigit, isDigit, isDigit, isDigit, is '-', isDigit, isDigit, is '-', isDigit, isDigit,
    is 'T', isDigit, isDigit, is ':', isDigit, isDigit, is ':', isDigit, isDigit, is 'Z'] cs

/-- `COMMIT_RE` -/
def isCommit (cs : List Char) : Bool := fits (List.replicate 40 isLowerHex) cs

/-- `^fable5?/platform-[a-z0-9-]+$` -/
def isBranch (cs : List Char) : Bool :=
  ["fable/platform-", "fable5/platform-"].any fun start =>
    start.toList.isPrefixOf cs && !(cs.drop start.toList.length).isEmpty &&
      (cs.drop start.toList.length).all isSlug

/-- `PHASE_RE` -/
def isPhase (cs : List Char) : Bool := fits [fun c => 'A' ≤ c && c ≤ 'H'] cs

/-- `^PLAT-[A-Z0-9]+-[0-9]{3}$` -/
def isControl (cs : List Char) : Bool :=
  "PLAT-".toList.isPrefixOf cs && !((cs.drop 5).takeWhile isUpperOrDigit).isEmpty &&
    fits [is '-', isDigit, isDigit, isDigit] ((cs.drop 5).dropWhile isUpperOrDigit)

/-- `^[a-z0-9][a-z0-9-]{2,63}$` -/
def isCommand : List Char → Bool
  | [] => false
  | c :: cs => (c.isLower || c.isDigit) && 2 ≤ cs.length && cs.length ≤ 63 && cs.all isSlug

/-- `SHA256_RE` -/
def isSha256 (cs : List Char) : Bool := fits (List.replicate 64 isLowerHex) cs

/-- `NOTES_RE` -/
def isNotes (cs : List Char) : Bool := cs.length ≤ 400 && cs.all fun c => ' ' ≤ c && c ≤ '~'

/-! ## Forbidden patterns -/

section Patterns

variable [Characters]

def address : Pattern :=
  all [wordEdge, times digit 1 2, times (seq (lit ".") (times digit 1 2)) 3 0, wordEdge]

def email : Pattern :=
  all [plus (char fun c => c.isAlphanum || c ∈ ['.', '_', '%', '+', '-']), lit "@",
    plus (char fun c => c.isAlphanum || c ∈ ['.', '-']), lit ".",
    char Char.isAlpha, plus (char Char.isAlpha)]

def homePath : Pattern :=
  all [lit "/", alt (lit "home") (lit "Users"), lit "/",
    plus (char fun c => c.isAlphanum || c ∈ ['.', '_', '-'])]

def credential : Pattern :=
  all [alt (litFolded "token") (alt (litFolded "secret") (alt (litFolded "password")
      (alt (litFolded "apikey") (litFolded "api_key")))), spaces, char fun c => c = '=' || c = ':']

def keyHeader : Pattern := lit "-----BEGIN"

def sshScheme : Pattern := alt (litFolded "ssh://") (litFolded "scp://")

def forbiddenPatterns : List (String × Pattern) :=
  [("ipv4 address", address), ("email address", email), ("home path", homePath),
    ("credential assignment", credential), ("private key header", keyHeader),
    ("ssh scheme", sshScheme)]

end Patterns

/-! ## Records -/

variable {F : Type}

/-- The characters of a string; no shape has room for a lone surrogate. -/
def chars? : Value F → Option (List Char)
  | .str (.scalar s) => some s.toList
  | _ => none

/-- `isinstance(value, str) and RE.fullmatch(value)` -/
def isLike (shape : List Char → Bool) (value : Value F) : Bool := (chars? value).any shape

variable [Interpreter F]

def checks : List (String × (Value F → Bool)) :=
  [("schema", fun value => value.eq (.text "platform-assurance/v1")),
    ("time_utc", isLike isTime),
    ("base_commit", isLike isCommit),
    ("branch", isLike isBranch),
    ("phase", isLike isPhase),
    ("control", isLike isControl),
    ("command_id", isLike isCommand),
    ("result", fun value => ["PASS", "FAIL", "BLOCKED"].any fun text => value.eq (.text text)),
    ("evidence_sha256", fun value => value.isNone || isLike isSha256 value),
    ("private_data", fun value => value.eq (.text "ABSENT")),
    ("notes", isLike isNotes)]

/-- The `time_utc` of a record, where it has the shape of one. -/
def timeOf (record : Value F) : Option (List Char) :=
  (chars? (record.get "time_utc")).filter fun time => isTime time

abbrev Pair (F : Type) := Value F × Value F × Value F

def pairOf (record : Value F) : Pair F :=
  (record.get "control", record.get "command_id", record.get "time_utc")

/-- `==` of two tuples -/
def samePair (p q : Pair F) : Bool := p.1.eq q.1 && p.2.1.eq q.2.1 && p.2.2.eq q.2.2

structure Progress (F : Type) where
  errors : List LedgerError
  previousTime : Option (List Char)
  seenPairs : List (Pair F)

/-- The sweep over the raw line. -/
def sweptErrors [Characters] (line : ℕ) (raw : List Char) : List LedgerError :=
  (forbiddenPatterns.filter fun p => p.2.found raw).map fun p => .forbidden line p.1

def shapeErrors (line : ℕ) (record : Value F) : List LedgerError :=
  (checks.filter fun check => !check.2 (record.get check.1)).map fun check =>
    .notCanonical line check.1

def timeErrors (line : ℕ) (record : Value F) (previousTime : Option (List Char)) :
    List LedgerError :=
  match timeOf record, previousTime with
  | some time, some previous => if time < previous then [.regresses line] else []
  | _, _ => []

/-- `record_errors`: the errors of a record, and the pairs seen after it. -/
def recordErrors [Characters] (line : ℕ) (raw : List Char) (record : Value F)
    (previousTime : Option (List Char)) (seenPairs : List (Pair F)) :
    Except Fault (List LedgerError × List (Pair F)) := do
  match record with
  | .obj fields =>
    if record.hasExactly requiredFields then do
      let pair := pairOf record
      -- a list or a dict in the tuple cannot be looked up in a set
      raiseIf ((pair.1.hashable && pair.2.1.hashable && pair.2.2.hashable) = false) .typeError
      let again := if seenPairs.any (samePair pair) then [.duplicate line] else []
      .ok (sweptErrors line raw ++ shapeErrors line record ++ timeErrors line record previousTime ++
        again, pair :: seenPairs)
    else
      let required := requiredFields.map Text.scalar
      let names := fields.map Prod.fst
      let byPoints := fun s t : Text => s.points ≤ t.points
      let missing := (required.filter (· ∉ names)).insertionSort byPoints
      let extra := (names.filter (· ∉ required)).insertionSort byPoints
      .ok (sweptErrors line raw ++ [.fieldSet line missing extra], seenPairs)
  | _ => .ok (sweptErrors line raw ++ [.notObject line], seenPairs)

/-! ## The ledger -/

/-- `json.loads`, where only a `JSONDecodeError` is caught -/
def parseLine (raw : List Char) : Except Fault (Option (Value F)) :=
  match loads keepLast raw with
  | .ok record => .ok (some record)
  | .error .malformed => .ok none
  | .error .digits => .error .valueError
  | .error _ => .error .recursionError

/-- One turn of the loop over the numbered lines. -/
def readLine [Characters] (progress : Progress F) (numbered : List Char × ℕ) :
    Except Fault (Progress F) := do
  let (raw, line) := numbered
  if raw = [] then .ok { progress with errors := progress.errors ++ [.blank line] }
  else do
    match ← parseLine raw with
    | none => .ok { progress with errors := progress.errors ++ [.notJson line] }
    | some record => do
      let (found, seenPairs) ←
        recordErrors line raw record progress.previousTime progress.seenPairs
      .ok ⟨progress.errors ++ found, (timeOf record).or progress.previousTime, seenPairs⟩

/-- The lines that the loop takes. -/
def linesOf (content : List Char) : List (List Char) :=
  PythonText.splitlines (PythonText.universalNewlines content)

variable (F) in
/-- The file is absent where it is a symlink or no regular file. -/
def ledgerErrors [Characters] (file : Option (List Char)) : Except Fault (List LedgerError) :=
  match file with
  | none => .ok [.absent]
  | some content => do
    let text := PythonText.universalNewlines content
    let ending := if text ≠ [] ∧ text.getLast? ≠ some '\n' then [.unterminated] else []
    let progress : Progress F ← carry readLine ⟨ending, none, []⟩ ((linesOf content).zipIdx 1)
    .ok progress.errors

end Assurance
