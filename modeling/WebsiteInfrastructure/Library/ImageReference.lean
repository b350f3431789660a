import Mathlib

/-!
# Image references with a digest

Each part of a reference is a class of characters that leaves out the one that ends it.
-/

namespace ImageReference

/-- A letter, a digit or one of `._-`. -/
def isTagChar (c : Char) : Bool := c.isAlphanum || c = '.' || c = '_' || c = '-'

/-- The same and the slash. -/
def isPathChar (c : Char) : Bool := isTagChar c || c = '/'

/-- What follows a fixed start. -/
def after (start : String) (cs : List Char) : Option (List Char) :=
  if start.toList.isPrefixOf cs then some (cs.drop start.length) else none

/-- One or more characters of a class, and what has to follow. -/
def some1 (p : Char → Bool) (rest : List Char → Bool) (cs : List Char) : Bool :=
  !(cs.takeWhile p).isEmpty && rest (cs.dropWhile p)

/-- `@sha256:[0-9a-f]{64}$` -/
def isDigest (cs : List Char) : Bool :=
  (after "@sha256:" cs).any fun hex =>
    hex.length = 64 && hex.all fun c => c.isDigit || 'a' ≤ c && c ≤ 'f'

/-- A tag and a digest. -/
def isPinnedTag (cs : List Char) : Bool := some1 isTagChar isDigest cs

/-- A path, an optional tag and a digest. -/
def isPinnedPath (cs : List Char) : Bool :=
  some1 isPathChar (fun rest => isDigest rest || (after ":" rest).any isPinnedTag) cs

/-- An optional `:vMAJOR.MINOR.PATCH` and a digest. -/
def isPinnedRelease (cs : List Char) : Bool :=
  isDigest cs || (after ":v" cs).any (some1 Char.isDigit fun minor =>
    (after "." minor).any (some1 Char.isDigit fun patch =>
      (after "." patch).any (some1 Char.isDigit isDigest)))

end ImageReference
