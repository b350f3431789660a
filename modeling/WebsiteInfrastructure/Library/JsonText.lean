import Mathlib
import WebsiteInfrastructure.Library.Json

/-!
# JSON text

`dumps` without blanks, and `loads`. Reading what was written gives the value back, for values
whose texts need no escape.
-/

namespace Json

variable {F : Type}

/-! ## Writing -/

def unicodeEscape (unit : ℕ) : List Char :=
  ['\\', 'u', (unit / 4096 % 16).digitChar, (unit / 256 % 16).digitChar, (unit / 16 % 16).digitChar,
    (unit % 16).digitChar]

/-- One code point inside quotes; `ascii` is `ensure_ascii`. -/
def escape (ascii : Bool) (point : ℕ) : List Char :=
  match point with
  | 0x22 => ['\\', '"']
  | 0x5c => ['\\', '\\']
  | 0x08 => ['\\', 'b']
  | 0x09 => ['\\', 't']
  | 0x0a => ['\\', 'n']
  | 0x0c => ['\\', 'f']
  | 0x0d => ['\\', 'r']
  | _ =>
    if point < 0x20 ∨ (ascii = true ∧ 0x7e < point ∧ point < 0x10000) then unicodeEscape point
    else if ascii = true ∧ 0x7e < point then
      unicodeEscape (0xd800 + (point - 0x10000) / 0x400) ++
        unicodeEscape (0xdc00 + (point - 0x10000) % 0x400)
    else [Char.ofNat point]

def writeText (ascii : Bool) (t : Text) : List Char :=
  '"' :: (t.points.flatMap (escape ascii) ++ ['"'])

def writeInt (n : ℤ) : List Char :=
  if n < 0 then '-' :: Nat.toDigits 10 n.natAbs else Nat.toDigits 10 n.natAbs

section Write

variable [Interpreter F]

mutual

/-- `json.dumps(value, sort_keys=True, separators=(",", ":"))`; a dict has its keys in order. -/
def write (ascii : Bool) : Value F → List Char
  | .null => ['n', 'u', 'l', 'l']
  | .bool true => ['t', 'r', 'u', 'e']
  | .bool false => ['f', 'a', 'l', 's', 'e']
  | .int n => writeInt n
  | .float x => Interpreter.writeFloat x
  | .str t => writeText ascii t
  | .arr items => '[' :: ([','].intercalate (writeItems ascii items) ++ [']'])
  | .obj fields => '{' :: ([','].intercalate (writeFields ascii fields) ++ ['}'])

def writeItems (ascii : Bool) : List (Value F) → List (List Char)
  | [] => []
  | v :: vs => write ascii v :: writeItems ascii vs

def writeFields (ascii : Bool) : List (Text × Value F) → List (List Char)
  | [] => []
  | (k, v) :: fs => (writeText ascii k ++ ':' :: write ascii v) :: writeFields ascii fs

end

end Write

/-! ## Reading -/

inductive ReadError
  | malformed
  | digits
  | duplicate (key : Text)
  | recursion
  deriving DecidableEq

def isBlank (c : Char) : Bool := c == ' ' || c == '\t' || c == '\n' || c == '\r'

def skipBlanks (cs : List Char) : List Char := cs.dropWhile isBlank

def hexValue (c : Char) : Option ℕ :=
  if c.isDigit then some (c.toNat - 0x30)
  else if 'a' ≤ c ∧ c ≤ 'f' then some (c.toNat - 0x57)
  else if 'A' ≤ c ∧ c ≤ 'F' then some (c.toNat - 0x37)
  else none

def simpleEscape : Char → Option ℕ
  | '"' => some 0x22
  | '\\' => some 0x5c
  | '/' => some 0x2f
  | 'b' => some 0x08
  | 'f' => some 0x0c
  | 'n' => some 0x0a
  | 'r' => some 0x0d
  | 't' => some 0x09
  | _ => none

/-- The code units of a string up to its closing quote. -/
def scanString : List Char → Option (List ℕ × List Char)
  | [] => none
  | '"' :: rest => some ([], rest)
  | '\\' :: 'u' :: a :: b :: c :: d :: rest => do
    let unit := 4096 * (← hexValue a) + 256 * (← hexValue b) + 16 * (← hexValue c) + (← hexValue d)
    let (units, rest) ← scanString rest
    some (unit :: units, rest)
  | '\\' :: e :: rest => do
    let unit ← simpleEscape e
    let (units, rest) ← scanString rest
    some (unit :: units, rest)
  | c :: rest =>
    if c = '\\' ∨ c.toNat < 0x20 then none
    else do
      let (units, rest) ← scanString rest
      some (c.toNat :: units, rest)

/-- A high surrogate directly before a low one is one code point. -/
def joinSurrogates : List ℕ → List ℕ
  | hi :: lo :: rest =>
    if 0xd800 ≤ hi ∧ hi < 0xdc00 ∧ 0xdc00 ≤ lo ∧ lo < 0xe000 then
      (0x10000 + (hi - 0xd800) * 0x400 + (lo - 0xdc00)) :: joinSurrogates rest
    else hi :: joinSurrogates (lo :: rest)
  | units => units

def readString (cs : List Char) : Except ReadError (Text × List Char) :=
  match scanString cs with
  | some (units, rest) => .ok (.ofPoints (joinSurrogates units), rest)
  | none => .error .malformed

def natOfDigits (ds : List Char) : ℕ := Nat.ofDigitChars 10 ds 0

/-- The fraction and the exponent of a number, each empty when it is not complete. -/
def scanFraction (cs : List Char) : List Char × List Char :=
  match cs with
  | '.' :: rest =>
    match rest.takeWhile Char.isDigit with
    | [] => ([], cs)
    | ds => ('.' :: ds, rest.dropWhile Char.isDigit)
  | _ => ([], cs)

def scanExponent (cs : List Char) : List Char × List Char :=
  match cs with
  | e :: rest =>
    if e = 'e' ∨ e = 'E' then
      let sign := rest.takeWhile (fun c => c = '+' ∨ c = '-') |>.take 1
      let digits := (rest.drop sign.length).takeWhile Char.isDigit
      match digits with
      | [] => ([], cs)
      | ds => (e :: sign ++ ds, (rest.drop sign.length).dropWhile Char.isDigit)
    else ([], cs)
  | [] => ([], cs)

/-- The digits of a whole number without a leading zero. -/
def scanWhole (cs : List Char) : Option (List Char × List Char) :=
  match cs with
  | '0' :: rest => some (['0'], rest)
  | c :: _ =>
    if c.isDigit then some (cs.takeWhile Char.isDigit, cs.dropWhile Char.isDigit) else none
  | [] => none

/-- `int` takes at most this many digits, else it raises a `ValueError`. -/
def maxIntDigits : ℕ := 4300

section Read

variable [Interpreter F]

def readNumber (cs : List Char) : Except ReadError (Value F × List Char) :=
  let negative := cs.head? = some '-'
  let unsigned := if negative then cs.tail else cs
  match scanWhole unsigned with
  | none => .error .malformed
  | some (whole, rest) =>
    match scanFraction rest with
    | (fraction, rest) =>
      match scanExponent rest with
      | (exponent, rest) =>
        if fraction = [] ∧ exponent = [] then
          if whole.length ≤ maxIntDigits then
            .ok (.int (if negative then -(natOfDigits whole : ℤ) else natOfDigits whole), rest)
          else .error .digits
        else
          let literal := (if negative then ['-'] else []) ++ whole ++ fraction ++ exponent
          .ok (.float (Interpreter.readFloat literal), rest)

/-- A dict is built from the pairs of an object: with duplicates refused, or the last one kept. -/
abbrev PairsHook (F : Type) := List (Text × Value F) → Except ReadError (Value F)

/-- A dict with these entries. -/
def dict (fields : List (Text × Value F)) : Value F :=
  .obj (fields.insertionSort fun f g => f.1.points ≤ g.1.points)

/-- The first key that repeats an earlier one. -/
def duplicateKey (seen : List Text) : List (Text × Value F) → Option Text
  | [] => none
  | (k, _) :: fields => if k ∈ seen then some k else duplicateKey (k :: seen) fields

/-- `_reject_duplicate_json_keys` as `object_pairs_hook`. -/
def rejectDuplicates : PairsHook F := fun fields =>
  match duplicateKey [] fields with
  | some key => .error (.duplicate key)
  | none => .ok (dict fields)

/-- Without a hook the last of equal keys stays. -/
def keepLast : PairsHook F := fun fields =>
  .ok (dict (fields.foldr (fun f kept => if f.1 ∈ kept.map Prod.fst then kept else f :: kept) []))

mutual

/-- One value; `fuel` bounds the calls, `depth` the nesting. -/
def readValue (hook : PairsHook F) : ℕ → ℕ → List Char → Except ReadError (Value F × List Char)
  | 0, _, _ => .error .malformed
  | fuel + 1, depth, cs =>
    match cs with
    | '"' :: rest => do
      let (t, rest) ← readString rest
      .ok (.str t, rest)
    | '{' :: rest =>
      match depth with
      | 0 => .error .recursion
      | depth + 1 =>
        match skipBlanks rest with
        | '}' :: rest => do
          let v ← hook []
          .ok (v, rest)
        | rest => do
          let (fields, rest) ← readFields hook fuel depth rest
          let v ← hook fields
          .ok (v, rest)
    | '[' :: rest =>
      match depth with
      | 0 => .error .recursion
      | depth + 1 =>
        match skipBlanks rest with
        | ']' :: rest => .ok (.arr [], rest)
        | rest => do
          let (items, rest) ← readItems hook fuel depth rest
          .ok (.arr items, rest)
    | 'n' :: 'u' :: 'l' :: 'l' :: rest => .ok (.null, rest)
    | 't' :: 'r' :: 'u' :: 'e' :: rest => .ok (.bool true, rest)
    | 'f' :: 'a' :: 'l' :: 's' :: 'e' :: rest => .ok (.bool false, rest)
    | 'N' :: 'a' :: 'N' :: rest => .ok (.float (Interpreter.readFloat ['N', 'a', 'N']), rest)
    | 'I' :: 'n' :: 'f' :: 'i' :: 'n' :: 'i' :: 't' :: 'y' :: rest =>
      .ok (.float (Interpreter.readFloat ['I', 'n', 'f', 'i', 'n', 'i', 't', 'y']), rest)
    | '-' :: 'I' :: 'n' :: 'f' :: 'i' :: 'n' :: 'i' :: 't' :: 'y' :: rest =>
      .ok (.float (Interpreter.readFloat ['-', 'I', 'n', 'f', 'i', 'n', 'i', 't', 'y']), rest)
    | cs => readNumber cs

/-- The items of an array up to its bracket. -/
def readItems (hook : PairsHook F) :
    ℕ → ℕ → List Char → Except ReadError (List (Value F) × List Char)
  | 0, _, _ => .error .malformed
  | fuel + 1, depth, cs => do
    let (v, rest) ← readValue hook fuel depth cs
    match skipBlanks rest with
    | ']' :: rest => .ok ([v], rest)
    | ',' :: rest => do
      let (vs, rest) ← readItems hook fuel depth (skipBlanks rest)
      .ok (v :: vs, rest)
    | _ => .error .malformed

/-- The fields of an object up to its brace. -/
def readFields (hook : PairsHook F) :
    ℕ → ℕ → List Char → Except ReadError (List (Text × Value F) × List Char)
  | 0, _, _ => .error .malformed
  | fuel + 1, depth, cs =>
    match cs with
    | '"' :: rest => do
      let (k, rest) ← readString rest
      match skipBlanks rest with
      | ':' :: rest => do
        let (v, rest) ← readValue hook fuel depth (skipBlanks rest)
        match skipBlanks rest with
        | '}' :: rest => .ok ([(k, v)], rest)
        | ',' :: rest => do
          let (fields, rest) ← readFields hook fuel depth (skipBlanks rest)
          .ok ((k, v) :: fields, rest)
        | _ => .error .malformed
      | _ => .error .malformed
    | _ => .error .malformed

end

/-- `json.loads(text, object_pairs_hook=hook)`; every value takes a character, so the fuel
never runs out. -/
def loads (hook : PairsHook F) (text : List Char) : Except ReadError (Value F) := do
  let (v, rest) ← readValue hook (2 * text.length + 2) (Interpreter.readDepth F) (skipBlanks text)
  match skipBlanks rest with
  | [] => .ok v
  | _ => .error .malformed

end Read

example : ((loads rejectDuplicates "[1, \x7b\"b\": true, \"a\": null\x7d]".toList :
    Except ReadError (Value (List Char))).map (write false)) =
      .ok "[1,\x7b\"a\":null,\"b\":true\x7d]".toList := by
  decide +kernel

end Json
