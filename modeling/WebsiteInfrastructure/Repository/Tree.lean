import Mathlib
import WebsiteInfrastructure.Library.Raising

/-!
# The tree under validation

What the repository checks read of a working tree, and how they fail.
-/

namespace Repository

abbrev Text := List Char

/-- The components of a path below the root. -/
abbrev Path := List String

/-- The exceptions the validator tells apart. -/
inductive Failure
  /-- `OSError` and `UnicodeError` -/
  | unavailable
  /-- `CanonicalYamlError` -/
  | nonCanonical
  /-- `RuntimeError` -/
  | runtime
  | other
  deriving DecidableEq

abbrev Check (α : Type) := Except Failure α

/-- A tree that does not change while it is read. -/
structure Tree where
  isFile : Path → Bool
  isSymlink : Path → Bool
  isPresent : Path → Bool
  read : Path → Check Text
  /-- The YAML files of the retired aggregate. -/
  reconciliation : List Path
  present_of_file : ∀ p, isFile p = true → isPresent p = true
  present_parent : ∀ p name, isPresent (p ++ [name]) = true → isPresent p = true

/-- The tree of some files, each given by its lines. -/
def Tree.ofFiles (files : List (Path × List String)) : Tree where
  isFile p := files.any fun f => f.1 = p
  isSymlink _ := false
  isPresent p := files.any fun f => p.isPrefixOf f.1
  read p := match files.lookup p with
    | some lines => .ok (lines.flatMap fun line => line.toList ++ ['\n'])
    | none => .error .unavailable
  reconciliation := []
  present_of_file p h := by
    obtain ⟨f, hf, hp⟩ := List.any_eq_true.mp h
    refine List.any_eq_true.mpr ⟨f, hf, ?_⟩
    rw [of_decide_eq_true hp]
    exact List.isPrefixOf_iff_prefix.mpr (List.prefix_refl _)
  present_parent p name h := by
    obtain ⟨f, hf, hp⟩ := List.any_eq_true.mp h
    refine List.any_eq_true.mpr ⟨f, hf, ?_⟩
    have hparent := (List.prefix_append p [name]).trans (List.isPrefixOf_iff_prefix.mp hp)
    exact List.isPrefixOf_iff_prefix.mpr hparent

/-- `fragment in text` -/
def includes (text : Text) (fragment : String) : Bool :=
  text.tails.any fun rest => fragment.toList.isPrefixOf rest

/-- `if bad: errors.append(error)` -/
def flag (bad : Bool) (error : String) : List String := if bad then [error] else []

@[simp] theorem flag_eq_nil {bad : Bool} {error : String} : flag bad error = [] ↔ bad = false := by
  cases bad <;> simp [flag]

/-- `read(path) if path.is_file() else ""` -/
def Tree.readOr (tree : Tree) (path : Path) : Check Text :=
  if tree.isFile path then tree.read path else .ok []

end Repository
