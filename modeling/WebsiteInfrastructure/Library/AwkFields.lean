import Mathlib
import WebsiteInfrastructure.Library.ShellLines

/-!
# Lines of the form `key=value`

What `awk -F=` sees of a line: the field before the first `=`, and with `sub(/^[^=]*=/, "")` what
stands behind it.
-/

namespace ShellText

/-- `$1` of a line under `-F=` -/
def awkKey (line : Text) : Text := line.takeWhile (· ≠ '=')

/-- The line after `sub(/^[^=]*=/, "")` -/
def awkValue (line : Text) : Text := dropThrough '=' line

/-- `awk -F= -v key="${key}" '$1 == key {sub(/^[^=]*=/, ""); print}'` -/
def awkValues (key text : Text) : List Text :=
  ((lines text).filter fun line => awkKey line = key).map awkValue

theorem awkKey_pair {key : Text} (h : '=' ∉ key) (value : Text) :
    awkKey (key ++ '=' :: value) = key := by
  have hall : ∀ c ∈ key, decide (c ≠ '=') = true := by
    intro c hc
    simp only [decide_eq_true_eq]
    rintro rfl
    exact h hc
  rw [awkKey, List.takeWhile_append_of_pos hall]
  simp

theorem awkValue_pair {key : Text} (h : '=' ∉ key) (value : Text) :
    awkValue (key ++ '=' :: value) = value := by
  have hall : ∀ c ∈ key, decide (c ≠ '=') = true := by
    intro c hc
    simp only [decide_eq_true_eq]
    rintro rfl
    exact h hc
  rw [awkValue, dropThrough, if_pos (by simp), List.dropWhile_append_of_pos hall]
  simp

/-- A line with an `=` is its key and its value. -/
theorem awk_pair {line : Text} (h : '=' ∈ line) : awkKey line ++ '=' :: awkValue line = line := by
  rw [awkKey, awkValue, dropThrough, if_pos h]
  induction line with
  | nil => cases h
  | cons c line ih =>
    by_cases hc : c = '='
    · subst hc
      simp
    · have hmem : '=' ∈ line := (List.mem_cons.mp h).resolve_left fun heq => hc heq.symm
      simpa [hc] using ih hmem

/-- A line without an `=` is its own key and its own value. -/
theorem awk_plain {line : Text} (h : '=' ∉ line) : awkKey line = line ∧ awkValue line = line := by
  constructor
  · rw [awkKey, List.takeWhile_eq_self_iff]
    intro c hc
    simp only [decide_eq_true_eq]
    rintro rfl
    exact h hc
  · rw [awkValue, dropThrough, if_neg h]

theorem awkKey_begins (line : Text) : awkKey line <+: line := List.takeWhile_prefix _

end ShellText
