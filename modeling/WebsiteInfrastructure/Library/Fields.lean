import Mathlib
import WebsiteInfrastructure.Library.LineReaders

/-!
# Fields of a line

`str.split()` and `str.partition()`, and what they give of words that are joined by spaces.
-/

namespace PythonText

/-- `text.split()` -/
def fields (text : List Char) : List (List Char) := (text.splitOnP isSpace).filter (· ≠ [])

/-- `text.partition(separator)`, without a value where the separator is missing -/
def partition (separator : List Char) : List Char → Option (List Char × List Char)
  | [] => none
  | c :: cs =>
    if separator <+: c :: cs then some ([], (c :: cs).drop separator.length)
    else (partition separator cs).map fun parts => (c :: parts.1, parts.2)

/-- A part without white space that is not empty. -/
def IsWord (word : List Char) : Prop := word ≠ [] ∧ ∀ c ∈ word, isSpace c = false

theorem isWord_of_printable {word : List Char} (hne : word ≠ [])
    (h : ∀ c ∈ word, 33 ≤ c.toNat ∧ c.toNat ≤ 126) : IsWord word :=
  ⟨hne, fun c hc => isSpace_of_printable (h c hc)⟩

theorem fields_append_space (a b : List Char) :
    fields (a ++ ' ' :: b) = fields a ++ fields b := by
  rw [fields, List.splitOnP_append_cons _ _ (by decide), List.filter_append]
  rfl

theorem fields_word {word : List Char} (h : IsWord word) : fields word = [word] := by
  rw [fields, List.splitOnP_eq_singleton h.2, List.filter_cons_of_pos (by simpa using h.1),
    List.filter_nil]

theorem fields_ne_nil {text : List Char} (h : ∃ c ∈ text, isSpace c = false) : fields text ≠ [] := by
  induction text with
  | nil =>
    obtain ⟨c, hc, -⟩ := h
    cases hc
  | cons c cs ih =>
    rw [fields, List.splitOnP_cons_eq_if_modifyHead]
    split
    · next hspace =>
      obtain ⟨d, hd, hplain⟩ := h
      rcases List.mem_cons.mp hd with rfl | hd
      · rw [hplain] at hspace
        cases hspace
      · rw [List.filter_cons_of_neg (by simp)]
        exact ih ⟨d, hd, hplain⟩
    · obtain ⟨x, xs, hsplit⟩ := List.exists_cons_of_ne_nil (List.splitOnP_ne_nil isSpace cs)
      rw [hsplit, List.modifyHead_cons, List.filter_cons_of_pos (by simp)]
      exact List.cons_ne_nil _ _

theorem fields_intercalate {words : List (List Char)} (h : ∀ word ∈ words, IsWord word) :
    fields ([' '].intercalate words) = words := by
  induction words with
  | nil => rfl
  | cons word words ih =>
    rw [List.forall_mem_cons] at h
    cases words with
    | nil => simpa using fields_word h.1
    | cons next words =>
      have hjoin : [' '].intercalate (word :: next :: words) =
          word ++ ' ' :: [' '].intercalate (next :: words) := by
        simp [List.intercalate]
      rw [hjoin, fields_append_space, fields_word h.1, ih h.2]
      rfl

theorem mem_intercalate_space {words : List (List Char)} {c : Char}
    (h : c ∈ [' '].intercalate words) : c = ' ' ∨ ∃ word ∈ words, c ∈ word := by
  induction words with
  | nil => simp at h
  | cons word words ih =>
    cases words with
    | nil => exact .inr ⟨word, List.mem_cons_self, by simpa using h⟩
    | cons next words =>
      have hjoin : [' '].intercalate (word :: next :: words) =
          word ++ ' ' :: [' '].intercalate (next :: words) := by
        simp [List.intercalate]
      rw [hjoin, List.mem_append, List.mem_cons] at h
      rcases h with hword | hspace | hlater
      · exact .inr ⟨word, List.mem_cons_self, hword⟩
      · exact .inl hspace
      · rcases ih hlater with hspace | ⟨other, hother, hc⟩
        · exact .inl hspace
        · exact .inr ⟨other, List.mem_cons_of_mem _ hother, hc⟩

/-! ## The first separator -/

/-- A separator that begins with a space is not found within a word. -/
theorem partition_word {separator word rest : List Char} (hword : ' ' ∉ word) :
    partition (' ' :: separator) (word ++ rest) =
      (partition (' ' :: separator) rest).map fun parts => (word ++ parts.1, parts.2) := by
  induction word with
  | nil => simp
  | cons c word ih =>
    rw [List.mem_cons, not_or] at hword
    have hnot : ¬ ' ' :: separator <+: c :: (word ++ rest) := by
      intro h
      exact hword.1 (List.cons_prefix_cons.mp h).1
    rw [List.cons_append, partition, if_neg hnot, ih hword.2, Option.map_map]
    rfl

/-- The words before a dash that stands alone are one part, those behind it the other one. -/
theorem partition_dash {words : List (List Char)} (hne : words ≠ [])
    (hwords : ∀ word ∈ words, word ≠ ['-'] ∧ ' ' ∉ word) (rest : List Char) :
    partition [' ', '-', ' '] ([' '].intercalate words ++ ([' ', '-', ' '] ++ rest)) =
      some ([' '].intercalate words, rest) := by
  induction words with
  | nil => exact absurd rfl hne
  | cons word words ih =>
    rw [List.forall_mem_cons] at hwords
    cases words with
    | nil =>
      have hjoin : [' '].intercalate [word] = word := by simp
      have hhere : [' ', '-', ' '] <+: ' ' :: (['-', ' '] ++ rest) := List.prefix_append _ _
      rw [hjoin, partition_word hwords.1.2, List.cons_append, partition, if_pos hhere]
      simp
    | cons next words =>
      have hjoin : [' '].intercalate (word :: next :: words) =
          word ++ ' ' :: [' '].intercalate (next :: words) := by
        simp [List.intercalate]
      have hlater := ih (by simp) hwords.2
      have hnot : ¬ [' ', '-', ' '] <+: ' ' :: ([' '].intercalate (next :: words) ++
          ([' ', '-', ' '] ++ rest)) := by
        intro h
        have hdash := (List.cons_prefix_cons.mp h).2
        have hnext := hwords.2 next List.mem_cons_self
        obtain ⟨tail, htail⟩ : ∃ tail, [' '].intercalate (next :: words) ++
            ([' ', '-', ' '] ++ rest) = next ++ ' ' :: tail := by
          cases words with
          | nil => exact ⟨'-' :: ' ' :: rest, by simp⟩
          | cons other words =>
            exact ⟨[' '].intercalate (other :: words) ++ ([' ', '-', ' '] ++ rest), by
              simp [List.intercalate]⟩
        rw [htail] at hdash
        cases hcs : next with
        | nil =>
          rw [hcs] at hdash
          have := (List.cons_prefix_cons.mp hdash).1
          cases this
        | cons c cs =>
          rw [hcs, List.cons_append, List.cons_prefix_cons] at hdash
          obtain ⟨rfl, hspace⟩ := hdash
          cases cs with
          | nil => exact hnext.1 hcs
          | cons d ds =>
            rw [List.cons_append, List.cons_prefix_cons] at hspace
            rw [← hspace.1] at hcs
            exact hnext.2 (by rw [hcs]; simp)
      rw [hjoin, List.append_assoc, partition_word hwords.1.2, List.cons_append, partition,
        if_neg hnot, hlater]
      rfl

end PythonText
