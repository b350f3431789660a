import Mathlib
import WebsiteInfrastructure.Library.Utf8
import WebsiteInfrastructure.Release.Version

/-!
# Changelog fragments

The path and the text that one reviewed change adds to `changelog.d/`.
-/

namespace Release

open PythonText Raising Utf8

def maxFragmentBytes : ℕ := 16 * 1024

def fragmentCategories : List String := ["Added", "Changed", "Fixed", "Security"]

/-- `[1-9][0-9]*` -/
def isIssue : List Char → Bool
  | [] => false
  | c :: cs => c.isDigit && c != '0' && cs.all Char.isDigit

/-- `[a-z0-9]+` -/
def isSlugPart (cs : List Char) : Bool :=
  !cs.isEmpty && cs.all fun c => c.isDigit || ('a' ≤ c && c ≤ 'z')

/-- `FRAGMENT_PATH_RE.fullmatch(path)`; no part between the dashes holds a dash or a dot. -/
def isFragmentPath (path : String) : Bool :=
  match path.toList.dropPrefix? "changelog.d/".toList with
  | none => false
  | some name =>
    match name.dropSuffix? ".md".toList with
    | none => false
    | some stem =>
      match stem.splitOn '-' with
      | issue :: part :: parts => isIssue issue && (part :: parts).all isSlugPart
      | _ => false

/-- Every canonical fragment lies in the fragment directory. -/
theorem prefix_of_isFragmentPath {path : String} (h : isFragmentPath path = true) :
    "changelog.d/".toList <+: path.toList := by
  unfold isFragmentPath at h
  split at h
  · simp at h
  · rename_i name hname
    obtain ⟨pre, hsplit, hpre⟩ := List.dropPrefix?_eq_some_iff.mp hname
    rw [hsplit, ← beq_iff_eq.mp hpre]
    exact List.prefix_append _ _

def rstrip (line : List Char) : List Char := line.rdropWhile isSpace

def validateFragmentBytes (path : String) (payload : Bytes) : Except Failure String := do
  raiseIf (isFragmentPath path = false)
    (.contractError "fragment path must be changelog.d/<issue>-<lowercase-slug>.md")
  raiseIf (payload = [] ∨ maxFragmentBytes < payload.length)
    (.contractError "fragment must be non-empty and at most 16 KiB")
  raiseIf (([0xef, 0xbb, 0xbf] : Bytes) <+: payload ∨ (0x0d : UInt8) ∈ payload ∨
      (0x00 : UInt8) ∈ payload)
    (.contractError "fragment must be BOM-free UTF-8 with LF line endings")
  match decode? payload with
  | none => .error (.contractError "fragment is not UTF-8")
  | some text =>
    raiseIf (¬ ['\n'] <:+ text.toList ∨ ['\n', '\n'] <:+ text.toList)
      (.contractError "fragment must end in exactly one newline")
    raiseIf ("$\x7b\x7b".toList <:+: text.toList)
      (.contractError "fragment must not contain a workflow expression opener")
    match splitlines text.toList with
    | heading :: [] :: bullet :: bullets =>
      raiseIf (¬ "### ".toList <+: heading ∨
          ¬ String.ofList (heading.drop 4) ∈ fragmentCategories)
        (.contractError "fragment category must be Added, Changed, Fixed, or Security")
      raiseIf (∃ line ∈ bullet :: bullets, ¬ "- ".toList <+: line ∨ line.length = 2)
        (.contractError "every fragment body line must be one non-empty Markdown bullet")
      raiseIf (∃ line ∈ heading :: [] :: bullet :: bullets, rstrip line ≠ line)
        (.contractError "fragment lines must not contain trailing whitespace")
      .ok text
    | _ => .error (.contractError "fragment must contain one category heading and bullet list")

/-- A valid fragment is returned as the text that it is. -/
theorem validateFragmentBytes_eq_ok {path text : String} {payload : Bytes}
    (h : validateFragmentBytes path payload = .ok text) :
    isFragmentPath path = true ∧ payload = encode text := by
  simp only [validateFragmentBytes, raiseIf_bind_eq_ok, Bool.not_eq_false] at h
  obtain ⟨hpath, -, -, h⟩ := h
  refine ⟨hpath, ?_⟩
  split at h
  · simp at h
  · rename_i decoded hdecode
    simp only [raiseIf_bind_eq_ok] at h
    obtain ⟨-, -, h⟩ := h
    split at h
    · simp only [raiseIf_bind_eq_ok, Except.ok.injEq] at h
      obtain ⟨-, -, -, rfl⟩ := h
      exact decode?_eq_some.mp hdecode
    · simp at h

end Release
