import Mathlib
import WebsiteInfrastructure.Library.PythonText
import WebsiteInfrastructure.Library.ShellLines

/-!
# Two readers of lines

Python breaks lines at ten characters, `grep`, `awk` and `read` at a newline only. Where the two see
the same lines, and into which lines of Python a line of the other one falls.
-/

namespace ShellText

/-! ## Lines of a text -/

theorem intercalate_concat (sep : List Char) (init : List Text) (last : Text) :
    sep.intercalate (init ++ [last]) = init.flatMap (· ++ sep) ++ last := by
  induction init with
  | nil => simp
  | cons l init ih =>
    have hne : init ++ [last] ≠ [] := by simp
    obtain ⟨m, more, hmore⟩ := List.exists_cons_of_ne_nil hne
    rw [List.cons_append, hmore, List.intercalate_cons_cons, ← hmore, ih, List.flatMap_cons,
      List.append_assoc, List.append_assoc, List.append_assoc]

/-- A text is its lines, each ended by a newline, and perhaps a last one that is not ended. -/
theorem lines_spec (t : Text) : unlines (lines t) = t ∨
    ∃ init last, lines t = init ++ [last] ∧ last ≠ [] ∧ '\n' ∉ last ∧ t = unlines init ++ last := by
  obtain ⟨init, last, hpieces⟩ : ∃ init last, t.splitOn '\n' = init ++ [last] := by
    refine ⟨(t.splitOn '\n').dropLast, (t.splitOn '\n').getLast (List.splitOn_ne_nil _ _), ?_⟩
    rw [List.dropLast_append_getLast]
  have htext : t = unlines init ++ last := by
    have hjoin : ['\n'].intercalate (t.splitOn '\n') = t := List.intercalate_splitOn '\n'
    rw [hpieces, intercalate_concat] at hjoin
    exact hjoin.symm
  have hlast : '\n' ∉ last := (of_mem_splitOn (t := t) (by simp [hpieces])).1
  by_cases hempty : last = []
  · left
    have hlines : lines t = init := by simp [lines, hpieces, hempty]
    rw [hlines]
    simpa [hempty] using htext.symm
  · right
    have hlines : lines t = init ++ [last] := by simp [lines, hpieces, hempty]
    exact ⟨init, last, hlines, hempty, hlast, htext⟩

theorem lines_unlines {ls : List Text} (h : ∀ l ∈ ls, '\n' ∉ l) : lines (unlines ls) = ls := by
  simp [lines, splitOn_unlines h]

theorem unlines_lines {t : Text} (h : t.getLast? = some '\n') : unlines (lines t) = t := by
  rcases lines_spec t with hlines | ⟨init, last, -, hne, hlast, htext⟩
  · exact hlines
  · rw [htext, List.getLast?_append_of_ne_nil _ hne] at h
    exact absurd (List.mem_of_getLast? h) hlast

theorem lines_append_feed {l : Text} (h : '\n' ∉ l) (rest : Text) :
    lines (l ++ '\n' :: rest) = l :: lines rest := by
  obtain ⟨piece, more, hpieces⟩ := List.exists_cons_of_ne_nil (List.splitOn_ne_nil '\n' rest)
  simp only [lines, List.splitOn_append_cons_self_of_not_mem h, hpieces]
  rw [List.getLast?_cons_cons]
  split <;> simp

/-- Each character of a text is a newline or stands in a line. -/
theorem mem_lines_or {t : Text} {c : Char} (hc : c ∈ t) : c = '\n' ∨ ∃ l ∈ lines t, c ∈ l := by
  have hparts : ∀ ls : List Text, c ∈ unlines ls → c = '\n' ∨ ∃ l ∈ ls, c ∈ l := by
    intro ls hmem
    obtain ⟨l, hl, hmem⟩ := List.mem_flatMap.mp hmem
    rcases List.mem_append.mp hmem with hmem | hmem
    · exact .inr ⟨l, hl, hmem⟩
    · exact .inl (List.mem_singleton.mp hmem)
  rcases lines_spec t with hlines | ⟨init, last, hlines, -, -, htext⟩
  · exact hparts _ (by rwa [hlines])
  · rw [htext] at hc
    rw [hlines]
    rcases List.mem_append.mp hc with hc | hc
    · rcases hparts _ hc with hnewline | ⟨l, hl, hmem⟩
      · exact .inl hnewline
      · exact .inr ⟨l, List.mem_append_left _ hl, hmem⟩
    · exact .inr ⟨last, by simp, hc⟩

end ShellText

namespace PythonText

/-! ## Newlines of a text file -/

/-- The newlines that reading a text file translates. -/
def universalNewlines : List Char → List Char
  | [] => []
  | '\r' :: '\n' :: cs => '\n' :: universalNewlines cs
  | c :: cs => (if c = '\r' then '\n' else c) :: universalNewlines cs

theorem universalNewlines_of_plain {cs : List Char} (h : '\r' ∉ cs) : universalNewlines cs = cs := by
  induction cs with
  | nil => rfl
  | cons c cs ih =>
    rw [List.mem_cons, not_or] at h
    have hc : c ≠ '\r' := fun heq => h.1 heq.symm
    rw [universalNewlines.eq_def]
    split
    · simp_all
    · next heq => exact absurd (List.cons.inj heq).1 hc
    · next heq =>
      obtain ⟨rfl, rfl⟩ := List.cons.inj heq
      rw [if_neg hc, ih h.2]

/-- The translation keeps the lines. -/
theorem splitlines_universalNewlines (cs : List Char) :
    splitlines (universalNewlines cs) = splitlines cs := by
  induction cs using universalNewlines.induct with
  | case1 => rfl
  | case2 cs ih => rw [universalNewlines, splitlines_newline, splitlines, ih]
  | case3 c cs hskip ih =>
    rw [universalNewlines]
    · by_cases hc : c = '\r'
      · subst hc
        rw [if_pos rfl, splitlines_newline, splitlines]
        · rw [if_pos (by decide), ih]
        · exact hskip
      · rw [if_neg hc, splitlines_of_ne_return hc, splitlines_of_ne_return hc, ih]
    · exact hskip

/-! ## Lines of Python -/

theorem isLineBreak_of_mem_splitlines {cs line : List Char} (h : line ∈ splitlines cs) :
    ∀ c ∈ line, isLineBreak c = false := by
  induction cs using splitlines.induct generalizing line with
  | case1 => simp [splitlines] at h
  | case2 cs ih =>
    rw [splitlines, List.mem_cons] at h
    rcases h with rfl | h
    · simp
    · exact ih h
  | case3 c cs hskip hbreak ih =>
    rw [splitlines, if_pos hbreak, List.mem_cons] at h
    · rcases h with rfl | h
      · simp
      · exact ih h
    · exact hskip
  | case4 c cs hskip hbreak ih =>
    rw [splitlines, if_neg hbreak] at h
    · intro d hd
      cases hlines : splitlines cs with
      | nil =>
        rw [hlines, consLine, List.mem_singleton] at h
        rw [h, List.mem_singleton] at hd
        rw [hd]
        exact Bool.not_eq_true _ ▸ hbreak
      | cons first more =>
        rw [hlines, consLine, List.mem_cons] at h
        rcases h with rfl | h
        · rcases List.mem_cons.mp hd with rfl | hd
          · exact Bool.not_eq_true _ ▸ hbreak
          · exact ih (hlines ▸ List.mem_cons_self) d hd
        · exact ih (hlines ▸ List.mem_cons_of_mem _ h) d hd
    · exact hskip

theorem splitlines_ne_nil {c : Char} {cs : List Char} : splitlines (c :: cs) ≠ [] := by
  obtain ⟨more, hmore⟩ := splitlines_eq_head (l := c :: cs) (by simp)
  simp [hmore]

/-- Put a character in front of the first of several lines. -/
theorem consLine_append (c : Char) {ls : List (List Char)} (h : ls ≠ []) (more : List (List Char)) :
    consLine c (ls ++ more) = consLine c ls ++ more := by
  cases ls with
  | nil => exact absurd rfl h
  | cons l ls => rfl

theorem splitlines_return {cs : List Char} (h : ∀ ds, cs ≠ '\n' :: ds) :
    splitlines ('\r' :: cs) = [] :: splitlines cs := by
  rw [splitlines, if_pos (by decide)]
  intro ds _ heq
  exact h ds heq

/-- What stands after a line boundary is a line of its own. -/
theorem splitlines_append_of_break {a b : List Char} (ha : ∀ c ∈ a.getLast?, isLineBreak c = true)
    (hb : ∀ c ∈ b.head?, isLineBreak c = false) : splitlines (a ++ b) = splitlines a ++ splitlines b := by
  have hfeed : ∀ cs, b ≠ '\n' :: cs := by
    rintro cs rfl
    exact absurd (hb '\n' rfl) (by decide)
  induction a using splitlines.induct with
  | case1 => rfl
  | case2 cs ih =>
    rw [List.cons_append, List.cons_append, splitlines, splitlines]
    cases cs with
    | nil => rfl
    | cons d ds =>
      rw [ih fun c hc => ha c hc]
      rfl
  | case3 c cs hskip hbreak ih =>
    have hlast : ∀ c ∈ cs.getLast?, isLineBreak c = true := by
      intro d hd
      cases cs with
      | nil => cases hd
      | cons e es => exact ha d hd
    by_cases hc : c = '\r'
    · subst hc
      have hnext : ∀ es, cs ++ b ≠ '\n' :: es := by
        intro es heq
        cases cs with
        | nil => exact hfeed es heq
        | cons d ds => exact hskip ds rfl (by rw [(List.cons.inj heq).1])
      have hplain : ∀ es, cs ≠ '\n' :: es := fun es heq => hskip es rfl heq
      rw [List.cons_append, splitlines_return hnext, splitlines_return hplain, ih hlast]
      rfl
    · rw [List.cons_append, splitlines_break hbreak hc, splitlines_break hbreak hc, ih hlast]
      rfl
  | case4 c cs hskip hbreak ih =>
    have hbreak : isLineBreak c = false := Bool.not_eq_true _ ▸ hbreak
    cases cs with
    | nil => simp [ha c rfl] at hbreak
    | cons d ds =>
      rw [List.cons_append, splitlines_cons hbreak, splitlines_cons hbreak, ih fun c hc => ha c hc,
        consLine_append c splitlines_ne_nil]

/-- The line at a place behind a line boundary -/
theorem mem_splitlines_of_break {a b : List Char} (ha : ∀ c ∈ a.getLast?, isLineBreak c = true)
    (hne : b ≠ []) (hb : ∀ c ∈ b.head?, isLineBreak c = false) :
    b.takeWhile (!isLineBreak ·) ∈ splitlines (a ++ b) := by
  obtain ⟨more, hmore⟩ := splitlines_eq_head hne
  rw [splitlines_append_of_break ha hb, hmore]
  exact List.mem_append_right _ List.mem_cons_self

/-- Lines hold characters of the text only. -/
theorem mem_of_mem_splitlines {cs line : List Char} (h : line ∈ splitlines cs) {c : Char}
    (hc : c ∈ line) : c ∈ cs := by
  induction cs using splitlines.induct generalizing line with
  | case1 => cases h
  | case2 cs ih =>
    rw [splitlines, List.mem_cons] at h
    rcases h with rfl | h
    · cases hc
    · exact List.mem_cons_of_mem _ (List.mem_cons_of_mem _ (ih h hc))
  | case3 d cs hskip hbreak ih =>
    rw [splitlines, if_pos hbreak, List.mem_cons] at h
    · rcases h with rfl | h
      · cases hc
      · exact List.mem_cons_of_mem _ (ih h hc)
    · exact hskip
  | case4 d cs hskip hbreak ih =>
    rw [splitlines, if_neg hbreak] at h
    · cases hlines : splitlines cs with
      | nil =>
        rw [hlines, consLine, List.mem_singleton] at h
        rw [h, List.mem_singleton] at hc
        rw [hc]
        exact List.mem_cons_self
      | cons first more =>
        rw [hlines, consLine, List.mem_cons] at h
        rcases h with rfl | h
        · rcases List.mem_cons.mp hc with rfl | hc
          · exact List.mem_cons_self
          · exact List.mem_cons_of_mem _ (ih (hlines ▸ List.mem_cons_self) hc)
        · exact List.mem_cons_of_mem _ (ih (hlines ▸ List.mem_cons_of_mem _ h) hc)
    · exact hskip

/-- A newline separates what is before from what is after. -/
theorem splitlines_append_feed (l rest : List Char) :
    splitlines (l ++ '\n' :: rest) = splitlines (l ++ ['\n']) ++ splitlines rest := by
  induction l using splitlines.induct with
  | case1 => rw [List.nil_append, List.nil_append, splitlines_newline, splitlines_newline]; rfl
  | case2 cs ih => simp only [List.cons_append, splitlines, ih]
  | case3 c cs hskip hbreak ih =>
    by_cases hc : c = '\r'
    · subst hc
      cases cs with
      | nil => simp [splitlines]
      | cons d ds =>
        have hhead : ∀ es fs, d :: ds ++ es ≠ '\n' :: fs := by
          intro es fs heq
          exact hskip ds rfl (by rw [(List.cons.inj heq).1])
        have hrest : splitlines ('\r' :: (d :: ds) ++ '\n' :: rest) =
            [] :: splitlines (d :: ds ++ '\n' :: rest) := splitlines_return (hhead _)
        have hnone : splitlines ('\r' :: (d :: ds) ++ ['\n']) =
            [] :: splitlines (d :: ds ++ ['\n']) := splitlines_return (hhead _)
        rw [hrest, hnone, ih]
        rfl
    · rw [List.cons_append, List.cons_append, splitlines_break hbreak hc, splitlines_break hbreak hc,
        ih, List.cons_append]
  | case4 c cs hskip hbreak ih =>
    have hbreak : isLineBreak c = false := Bool.not_eq_true _ ▸ hbreak
    have hne : splitlines (cs ++ ['\n']) ≠ [] := by
      cases cs with
      | nil => decide
      | cons d ds => exact splitlines_ne_nil
    rw [List.cons_append, List.cons_append, splitlines_cons hbreak, splitlines_cons hbreak, ih,
      consLine_append c hne]

/-- A carriage return before a line feed belongs to the end of the line. -/
theorem splitlines_append_return_feed {l : List Char} (hp : ∀ c ∈ l, isLineBreak c = false)
    (rest : List Char) : splitlines (l ++ '\r' :: '\n' :: rest) = l :: splitlines rest := by
  induction l with
  | nil => rw [List.nil_append, splitlines]
  | cons c l ih =>
    rw [List.forall_mem_cons] at hp
    rw [List.cons_append, splitlines_cons hp.1, ih hp.2]
    rfl

/-- The lines of Python are found line by line. -/
theorem splitlines_unlines_eq (ls : List (List Char)) :
    splitlines (unlines ls) = ls.flatMap fun l => splitlines (l ++ ['\n']) := by
  induction ls with
  | nil => rfl
  | cons l ls ih =>
    have hcons : unlines (l :: ls) = l ++ '\n' :: unlines ls := by simp [unlines]
    rw [hcons, splitlines_append_feed, ih, List.flatMap_cons]

/-- The newline at the end of a line shows an empty line at most. -/
theorem splitlines_concat_feed (l : List Char) :
    splitlines (l ++ ['\n']) = splitlines l ∨ splitlines (l ++ ['\n']) = splitlines l ++ [[]] := by
  induction l using splitlines.induct with
  | case1 => exact .inr rfl
  | case2 cs ih =>
    rw [List.cons_append, List.cons_append, splitlines, splitlines]
    rcases ih with ih | ih
    · exact .inl (by rw [ih])
    · exact .inr (by rw [ih, List.cons_append])
  | case3 c cs hskip hbreak ih =>
    have hcons : cs = [] ∧ c = '\r' ∨ splitlines (c :: cs) = [] :: splitlines cs ∧
        splitlines (c :: (cs ++ ['\n'])) = [] :: splitlines (cs ++ ['\n']) := by
      by_cases hc : c = '\r'
      · subst hc
        cases cs with
        | nil => exact .inl ⟨rfl, rfl⟩
        | cons d ds =>
          have hhead : ∀ es fs, d :: ds ++ es ≠ '\n' :: fs := by
            intro es fs heq
            exact hskip ds rfl (by rw [(List.cons.inj heq).1])
          have hplain := hhead []
          rw [List.append_nil] at hplain
          exact .inr ⟨splitlines_return hplain, splitlines_return (hhead _)⟩
      · exact .inr ⟨splitlines_break hbreak hc _, splitlines_break hbreak hc _⟩
    rcases hcons with ⟨rfl, rfl⟩ | ⟨hleft, hright⟩
    · exact .inl rfl
    · rw [List.cons_append, hleft, hright]
      rcases ih with ih | ih
      · exact .inl (by rw [ih])
      · exact .inr (by rw [ih, List.cons_append])
  | case4 c cs hskip hbreak ih =>
    have hbreak : isLineBreak c = false := Bool.not_eq_true _ ▸ hbreak
    rw [List.cons_append, splitlines_cons hbreak, splitlines_cons hbreak]
    cases cs with
    | nil => exact .inl rfl
    | cons d ds =>
      rcases ih with ih | ih
      · exact .inl (by rw [ih])
      · exact .inr (by rw [ih, consLine_append c splitlines_ne_nil])

theorem splitlines_unlines_append (ls : List (List Char)) (last : List Char) :
    splitlines (unlines ls ++ last) =
      (ls.flatMap fun l => splitlines (l ++ ['\n'])) ++ splitlines last := by
  induction ls with
  | nil => rfl
  | cons l ls ih =>
    have hcons : unlines (l :: ls) ++ last = l ++ '\n' :: (unlines ls ++ last) := by simp [unlines]
    rw [hcons, splitlines_append_feed, ih, List.flatMap_cons, List.append_assoc]

/-- The lines of Python are those in the lines of the shell, but for an empty line at the end. -/
theorem flatMap_lines (cs : List Char) :
    (ShellText.lines cs).flatMap (fun l => splitlines (l ++ ['\n'])) = splitlines cs ∨
      (ShellText.lines cs).flatMap (fun l => splitlines (l ++ ['\n'])) = splitlines cs ++ [[]] := by
  rcases ShellText.lines_spec cs with htext | ⟨init, last, hlines, -, -, htext⟩
  · left
    rw [← splitlines_unlines_eq]
    exact congrArg splitlines htext
  · have hsplit : splitlines cs =
        (init.flatMap fun l => splitlines (l ++ ['\n'])) ++ splitlines last := by
      rw [← splitlines_unlines_append]
      exact congrArg splitlines htext
    rw [hlines, List.flatMap_append, List.flatMap_singleton, hsplit]
    rcases splitlines_concat_feed last with hlast | hlast
    · exact .inl (by rw [hlast])
    · exact .inr (by rw [hlast, List.append_assoc])

/-! ## The same lines -/

/-- A text that ends with a newline and has no other line break is its lines, one a line. -/
theorem unlines_splitlines {cs : List Char} (hfeed : ∀ c ∈ cs, isLineBreak c = true → c = '\n')
    (hend : cs = [] ∨ cs.getLast? = some '\n') : unlines (splitlines cs) = cs := by
  induction cs with
  | nil => rfl
  | cons c cs ih =>
    have htail : cs = [] ∨ cs.getLast? = some '\n' := by
      cases cs with
      | nil => exact .inl rfl
      | cons d ds => simpa [List.getLast?_cons_cons] using hend
    have hrest := ih (fun d hd => hfeed d (List.mem_cons_of_mem _ hd)) htail
    cases hbreak : isLineBreak c with
    | true =>
      obtain rfl := hfeed c List.mem_cons_self hbreak
      rw [splitlines_newline]
      exact congrArg _ hrest
    | false =>
      have hne : cs ≠ [] := by
        rintro rfl
        have hlast : c = '\n' := by simpa using hend
        rw [hlast] at hbreak
        exact absurd hbreak (by decide)
      obtain ⟨more, hlines⟩ := splitlines_eq_head hne
      rw [splitlines_cons hbreak, hlines, consLine]
      rw [hlines] at hrest
      exact congrArg (c :: ·) hrest

/-- The two readers see the same lines of a text that ends with a newline exactly when it has no
other line break. -/
theorem splitlines_eq_lines_iff {cs : List Char} (hend : cs.getLast? = some '\n') :
    splitlines cs = ShellText.lines cs ↔ ∀ c ∈ cs, isLineBreak c = true → c = '\n' := by
  constructor
  · intro hlines c hc hbreak
    rcases ShellText.mem_lines_or hc with hnewline | ⟨l, hl, hmem⟩
    · exact hnewline
    · rw [← hlines] at hl
      rw [isLineBreak_of_mem_splitlines hl c hmem] at hbreak
      exact absurd hbreak (by decide)
  · intro hfeed
    have hplain : ∀ l ∈ splitlines cs, '\n' ∉ l := by
      intro l hl hmem
      exact absurd (isLineBreak_of_mem_splitlines hl _ hmem) (by decide)
    have htext : ShellText.unlines (splitlines cs) = cs := unlines_splitlines hfeed (.inr hend)
    rw [← htext, ShellText.lines_unlines hplain, htext]

/-! ## Lines without spaces -/

theorem isSpace_of_printable {c : Char} (h : 33 ≤ c.toNat ∧ c.toNat ≤ 126) : isSpace c = false := by
  have hne : ∀ d : Char, d.toNat < 33 ∨ 126 < d.toNat → c ≠ d := by
    rintro d hd rfl
    omega
  have hrange : ¬ ('\u2000' ≤ c) := by
    intro hle
    have hval : 0x2000 ≤ c.toNat := hle
    omega
  simp only [isSpace, isLineBreak, List.mem_cons, List.not_mem_nil, or_false, Bool.or_eq_false_iff,
    decide_eq_false_iff_not, not_or, Bool.and_eq_false_iff]
  refine ⟨⟨?_, ?_⟩, .inl hrange⟩
  · and_intros <;> exact hne _ (by decide)
  · and_intros <;> exact hne _ (by decide)

/-- A letter, a digit or a mark among the printable characters is no space. -/
theorem isSpace_of_alphanum {c : Char} (h : c.isAlphanum = true) : isSpace c = false := by
  apply isSpace_of_printable
  simp only [Char.isAlphanum, Char.isAlpha, Char.isUpper, Char.isLower, Char.isDigit,
    Bool.or_eq_true, Bool.and_eq_true, decide_eq_true_eq, UInt32.le_iff_toNat_le] at h
  have hrange : ((65 ≤ c.toNat ∧ c.toNat ≤ 90) ∨ (97 ≤ c.toNat ∧ c.toNat ≤ 122)) ∨
      (48 ≤ c.toNat ∧ c.toNat ≤ 57) := h
  omega

theorem strip_of_no_space {cs : List Char} (h : ∀ c ∈ cs, isSpace c = false) : strip cs = cs := by
  have hdrop : ∀ ds : List Char, (∀ c ∈ ds, isSpace c = false) → ds.dropWhile isSpace = ds := by
    intro ds hds
    cases ds with
    | nil => rfl
    | cons d ds => simp [hds d List.mem_cons_self]
  rw [strip, hdrop cs h, List.rdropWhile, hdrop cs.reverse fun c hc => h c (by simpa using hc),
    List.reverse_reverse]

end PythonText
