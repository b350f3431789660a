import Mathlib
import WebsiteInfrastructure.Library.PythonText
import WebsiteInfrastructure.Library.Raising

/-!
# Versions, tags and commit names

The small vocabulary that every release tool shares: how its functions fail, the
semantic versions it counts with, and the two patterns that it reads names with.
-/

namespace Release

open PythonText Raising

/-! ## Failures -/

/-- The built-in exceptions that reach a caller undisguised. -/
inductive Builtin
  | unicodeDecodeError
  | unicodeEncodeError
  | valueError (message : String)
  | keyError
  | typeError
  | attributeError
  | indexError
  | recursionError
  deriving DecidableEq, Repr

/-- `PendingRelease` is a subclass of `ContractError`. -/
inductive Failure
  | contractError (message : String)
  | pendingRelease (message : String)
  | builtin (exception : Builtin)
  deriving DecidableEq, Repr

/-- What `except ContractError` catches. -/
def Failure.isContractError : Failure → Bool
  | .contractError _ => true
  | .pendingRelease _ => true
  | .builtin _ => false

/-- What `except (KeyError, TypeError, ValueError)` catches; a `ContractError` is a
`ValueError`, and so are the Unicode errors. -/
def Failure.isRejection : Failure → Bool
  | .builtin .attributeError | .builtin .indexError | .builtin .recursionError => false
  | _ => true

/-! ## Versions -/

structure Version where
  major : ℕ
  minor : ℕ
  patch : ℕ
  deriving DecidableEq, Repr

namespace Version

/-- The fields in the order in which `dataclass(order=True)` compares them. -/
def key (v : Version) : ℕ ×ₗ ℕ ×ₗ ℕ := toLex (v.major, toLex (v.minor, v.patch))

theorem key_injective : Function.Injective key := by
  rintro ⟨a, b, c⟩ ⟨d, e, f⟩ h
  simpa [key] using h

instance : LinearOrder Version := LinearOrder.lift' key key_injective

theorem lt_iff {v w : Version} : v < w ↔ v.major < w.major ∨ v.major = w.major ∧
    (v.minor < w.minor ∨ v.minor = w.minor ∧ v.patch < w.patch) := by
  change key v < key w ↔ _
  simp [key, Prod.Lex.toLex_lt_toLex]

def str (v : Version) : String :=
  toString v.major ++ "." ++ toString v.minor ++ "." ++ toString v.patch

def tag (v : Version) : String := "v" ++ v.str

theorem toList_tag (v : Version) : v.tag.toList = 'v' :: (Nat.toDigits 10 v.major ++ '.' ::
    (Nat.toDigits 10 v.minor ++ '.' :: Nat.toDigits 10 v.patch)) := by
  simp [tag, str, Nat.toString_eq_repr, Nat.toList_repr]

end Version

def nextVersion : Option Version → Version
  | none => ⟨0, 1, 0⟩
  | some base => ⟨base.major, base.minor, base.patch + 1⟩

theorem lt_nextVersion (v : Version) : v < nextVersion (some v) := by
  rw [Version.lt_iff]
  exact .inr ⟨rfl, .inr ⟨rfl, Nat.lt_succ_self _⟩⟩

/-! ## The version patterns -/

/-- The three groups of `SEMVER_RE`; they hold digits only, so the dots split the text. -/
def matchSemver (cs : List Char) : Option Version :=
  match cs.splitOn '.' with
  | [major, minor, patch] => do
    let major ← canonicalDecimal major
    let minor ← canonicalDecimal minor
    let patch ← canonicalDecimal patch
    some ⟨major, minor, patch⟩
  | _ => none

/-- `TAG_RE.fullmatch(name)`, with the groups read as integers. -/
def matchTag (name : String) : Option Version :=
  match name.toList with
  | 'v' :: rest => matchSemver rest
  | _ => none

theorem dot_notMem_toDigits (n : ℕ) : '.' ∉ Nat.toDigits 10 n := by
  intro h
  have := Nat.isDigit_of_mem_toDigits (by omega) (by omega) h
  simp [Char.isDigit] at this

theorem splitOn_dots {a b c : List Char} (ha : '.' ∉ a) (hb : '.' ∉ b) (hc : '.' ∉ c) :
    (a ++ '.' :: (b ++ '.' :: c)).splitOn '.' = [a, b, c] := by
  have hsplit : (['.'].intercalate [a, b, c]).splitOn '.' = [a, b, c] :=
    List.splitOn_intercalate '.' (by simp [ha, hb, hc]) (by simp)
  rwa [show ['.'].intercalate [a, b, c] = a ++ '.' :: (b ++ '.' :: c) by simp] at hsplit

theorem matchSemver_eq_some {cs : List Char} {v : Version} : matchSemver cs = some v ↔
    cs = Nat.toDigits 10 v.major ++ '.' :: (Nat.toDigits 10 v.minor ++ '.' ::
      Nat.toDigits 10 v.patch) := by
  constructor
  · intro h
    unfold matchSemver at h
    split at h
    · rename_i major minor patch hsplit
      have hcs : ['.'].intercalate (cs.splitOn '.') = cs := List.intercalate_splitOn '.'
      rw [hsplit] at hcs
      simp only [Option.bind_eq_bind, Option.bind_eq_some_iff, Option.some.injEq] at h
      obtain ⟨x, hx, y, hy, z, hz, rfl⟩ := h
      rw [canonicalDecimal_eq_some] at hx hy hz
      subst hx hy hz
      rw [← hcs]
      simp
    · simp at h
  · rintro rfl
    rw [matchSemver, splitOn_dots (dot_notMem_toDigits _) (dot_notMem_toDigits _)
      (dot_notMem_toDigits _)]
    simp [canonicalDecimal_eq_some.mpr rfl]

/-- The pattern matches exactly the tags that versions print. -/
theorem matchTag_eq_some {name : String} {v : Version} : matchTag name = some v ↔ name = v.tag := by
  rw [← String.toList_inj, Version.toList_tag]
  unfold matchTag
  split
  · rename_i rest hname
    rw [matchSemver_eq_some, hname, List.cons.injEq]
    simp
  · rename_i hname
    simp only [reduceCtorEq, false_iff]
    intro heq
    exact hname _ heq

@[simp] theorem matchTag_tag (v : Version) : matchTag v.tag = some v := matchTag_eq_some.mpr rfl

theorem Version.tag_injective : Function.Injective Version.tag := by
  intro v w h
  have := matchTag_tag v
  rwa [h, matchTag_tag, Option.some.injEq, eq_comm] at this

/-! ## Commit names -/

def isLowerHex (c : Char) : Bool := c.isDigit || ('a' ≤ c && c ≤ 'f')

/-- `SHA_RE.fullmatch(raw)`. -/
def isSha (raw : String) : Bool := raw.length == 40 && raw.toList.all isLowerHex

def requireSha (raw field : String) : Except Failure String := do
  raiseIf (isSha raw = false) (.contractError (field ++ " must be one lowercase 40-hex SHA"))
  .ok raw

theorem requireSha_eq_ok {raw field sha : String} :
    requireSha raw field = .ok sha ↔ isSha raw = true ∧ sha = raw := by
  rw [requireSha, raiseIf_bind_eq_ok, Except.ok.injEq, Bool.not_eq_false, eq_comm (a := raw)]

end Release
