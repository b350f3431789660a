import Mathlib
import WebsiteInfrastructure.Library.PythonText

/-!
# Regular expressions

Backtracking search as Python's `re` does it: the ends of a match are listed in the order in which
they are tried. Patterns are in multiline mode.
-/

namespace Regex

open PythonText

/-- A place in a text, with what the named groups have matched so far. -/
structure Cursor where
  before : Option Char
  rest : List Char
  groups : List (String × List Char)

inductive Pattern
  | eps
  | char (p : Char → Bool)
  | seq (a b : Pattern)
  | alt (a b : Pattern)
  | star (a : Pattern)
  /-- `a*?` -/
  | lazy (a : Pattern)
  /-- A condition on the characters around a place, such as `\b` or a look-around. -/
  | edge (p : Option Char → Option Char → Bool)
  | bol
  | eol
  | group (name : String) (a : Pattern)
  | back (name : String)

namespace Cursor

def ofText (text : List Char) : Cursor := ⟨none, text, []⟩

/-- Past the next character, if there is one. -/
def next (c : Cursor) : Cursor :=
  match c.rest with
  | [] => c
  | x :: xs => { c with before := some x, rest := xs }

/-- Past a given text. -/
def skip (c : Cursor) (text : List Char) : List Cursor :=
  match text with
  | [] => [c]
  | x :: xs => if c.rest.head? = some x then skip c.next xs else []

/-- What lies between two places of a text. -/
def upTo (c d : Cursor) : List Char := c.rest.take (c.rest.length - d.rest.length)

end Cursor

/-- Every way to go on for at most `n` rounds that each take something, the longest first. -/
def rounds (step : Cursor → List Cursor) : ℕ → Cursor → List Cursor
  | 0, c => [c]
  | n + 1, c =>
    ((step c).filter fun d => d.rest.length < c.rest.length).flatMap (rounds step n) ++ [c]

/-- Every way to go on for at most `n` rounds that each take something, the shortest first. -/
def lazyRounds (step : Cursor → List Cursor) : ℕ → Cursor → List Cursor
  | 0, c => [c]
  | n + 1, c =>
    c :: ((step c).filter fun d => d.rest.length < c.rest.length).flatMap (lazyRounds step n)

/-- The ends of the matches that start at a place. -/
def Pattern.ends : Pattern → Cursor → List Cursor
  | .eps, c => [c]
  | .char p, c => if c.rest.head?.any p then [c.next] else []
  | .seq a b, c => (a.ends c).flatMap b.ends
  | .alt a b, c => a.ends c ++ b.ends c
  | .star a, c => rounds a.ends c.rest.length c
  | .lazy a, c => lazyRounds a.ends c.rest.length c
  | .edge p, c => if p c.before c.rest.head? then [c] else []
  | .bol, c => if c.before.all (· = '\n') then [c] else []
  | .eol, c => if c.rest.head?.all (· = '\n') then [c] else []
  | .group name a, c => (a.ends c).map fun d => { d with groups := (name, c.upTo d) :: d.groups }
  | .back name, c => c.skip ((c.groups.lookup name).getD [])

/-- A match, from its start to its end. -/
structure Match where
  start : Cursor
  stop : Cursor

def Match.group (m : Match) (name : String) : List Char := (m.stop.groups.lookup name).getD []

/-- `pattern.match` -/
def Pattern.matchAt (r : Pattern) (c : Cursor) : Option Match :=
  (r.ends { c with groups := [] }).head?.map fun d => ⟨c, d⟩

/-- The first match within the next `n` places. -/
def Pattern.searchFrom (r : Pattern) : ℕ → Cursor → Option Match
  | 0, c => r.matchAt c
  | n + 1, c => (r.matchAt c).or (r.searchFrom n c.next)

/-- `re.search` -/
def Pattern.search (r : Pattern) (text : List Char) : Option Match :=
  r.searchFrom text.length (.ofText text)

/-- `re.search(...) is not None` -/
def Pattern.found (r : Pattern) (text : List Char) : Bool := (r.search text).isSome

/-- `pattern.fullmatch(...) is not None` -/
def Pattern.fullMatches (r : Pattern) (text : List Char) : Bool :=
  (r.ends (.ofText text)).any fun d => d.rest.isEmpty

/-- `re.finditer`, for patterns that take something. -/
def Pattern.matches (r : Pattern) : ℕ → Cursor → List Match
  | 0, _ => []
  | n + 1, c =>
    match r.searchFrom c.rest.length c with
    | none => []
    | some m => m :: r.matches n m.stop

def Pattern.findAll (r : Pattern) (text : List Char) : List Match :=
  r.matches text.length (.ofText text)

/-- The texts between matches. -/
def between : Cursor → List Match → List (List Char)
  | c, [] => [c.rest]
  | c, m :: ms => c.upTo m.start :: between m.stop ms

/-- `re.split` -/
def Pattern.split (r : Pattern) (text : List Char) : List (List Char) :=
  between (.ofText text) (r.findAll text)

/-! ## Notation of patterns -/

namespace Pattern

/-- A sequence of patterns. -/
def all (rs : List Pattern) : Pattern := rs.foldr seq eps

/-- A text that is to be taken literally. -/
def lit (text : String) : Pattern := all (text.toList.map fun x => char (· = x))

/-- `r?` -/
def opt (r : Pattern) : Pattern := alt r eps

/-- `r+` -/
def plus (r : Pattern) : Pattern := seq r (star r)

/-- `\s` -/
def space : Pattern := char isSpace

/-- `\s*` -/
def spaces : Pattern := star space

/-- `\S+` -/
def word : Pattern := plus (char fun x => !isSpace x)

/-- A line of the given parts, with blanks around it. -/
def line (rs : List Pattern) : Pattern := all ([bol, spaces] ++ rs ++ [spaces, eol])

end Pattern

end Regex
