import Mathlib
import WebsiteInfrastructure.Library.LineReaders
import WebsiteInfrastructure.Release.Fragment

/-!
# The lines of a fragment

The contract reads the lines of a fragment with `splitlines`; Markdown ends a line at a line feed
and nowhere else. Which accepted fragments are the same lines for both.
-/

namespace Release

open PythonText Raising Utf8

/-- A bullet that is not empty. -/
def IsBullet (line : List Char) : Prop := ∃ words, words ≠ [] ∧ line = "- ".toList ++ words

/-- The grammar of the runbook: a category, an empty line, and bullets. -/
def IsFragment (lines : List (List Char)) : Prop :=
  ∃ category ∈ fragmentCategories, ∃ bullets, bullets ≠ [] ∧ (∀ b ∈ bullets, IsBullet b) ∧
    lines = ("### ".toList ++ category.toList) :: [] :: bullets

/-- The heading and the empty line end at line feeds. -/
def OpensWithFeeds (text : List Char) : Prop :=
  ∃ category ∈ fragmentCategories,
    "### ".toList ++ category.toList ++ ['\n', '\n'] <+: text

/-- No character of the text ends a line for Python alone. -/
def OnlyFeeds (text : List Char) : Prop := ∀ c ∈ text, isLineBreak c = true → c = '\n'

variable {path text : String} {payload : Bytes}

/-- What is accepted is a fragment by the lines of Python. -/
theorem checked_of_accepted (h : validateFragmentBytes path payload = .ok text) :
    IsFragment (splitlines text.toList) ∧ text.toList.getLast? = some '\n' := by
  simp only [validateFragmentBytes, raiseIf_bind_eq_ok] at h
  obtain ⟨-, -, -, h⟩ := h
  split at h
  · simp at h
  · rename_i decoded hdecode
    simp only [raiseIf_bind_eq_ok] at h
    obtain ⟨hend, -, h⟩ := h
    split at h
    · rename_i heading bullet bullets hlines
      simp only [raiseIf_bind_eq_ok, Except.ok.injEq] at h
      obtain ⟨hheading, hbullets, -, rfl⟩ := h
      rw [not_or, not_not, not_not] at hheading
      obtain ⟨⟨name, rfl⟩, hcategory⟩ := hheading
      have hname : ("### ".toList ++ name).drop 4 = name := rfl
      rw [hname] at hcategory
      constructor
      · refine ⟨_, hcategory, bullet :: bullets, by simp, fun b hb => ?_, by
          simp [hlines]⟩
        have hb := not_exists.mp hbullets b
        rw [not_and, not_or, not_not] at hb
        obtain ⟨⟨words, rfl⟩, hlength⟩ := hb ‹_›
        refine ⟨words, ?_, rfl⟩
        rintro rfl
        exact hlength rfl
      · obtain ⟨front, hfront⟩ := not_not.mp (not_or.mp hend).1
        rw [← hfront, List.getLast?_append_of_ne_nil _ (by simp)]
        rfl
    · simp at h

theorem isLineBreak_of_mem_category {category : String} (h : category ∈ fragmentCategories) :
    ∀ c ∈ "### ".toList ++ category.toList, isLineBreak c = false := by
  have hcases : category = "Added" ∨ category = "Changed" ∨ category = "Fixed" ∨
      category = "Security" := by
    simpa [fragmentCategories] using h
  rcases hcases with rfl | rfl | rfl | rfl <;> simp [isLineBreak]

/-- A line whose first line of Python is a bullet is a bullet. -/
theorem isBullet_of_splitlines {l : List Char}
    (h : ∀ b ∈ splitlines (l ++ ['\n']), IsBullet b) : IsBullet l := by
  obtain ⟨more, hmore⟩ := splitlines_eq_head (l := l ++ ['\n']) (by simp)
  obtain ⟨words, hne, hwords⟩ := h _ (by rw [hmore]; exact List.mem_cons_self)
  have hprefix : "- ".toList ++ words <+: l ++ ['\n'] := by
    rw [← hwords]
    exact List.takeWhile_prefix _
  have hfeed : '\n' ∉ "- ".toList ++ words := by
    rw [← hwords]
    intro hmem
    have := List.mem_takeWhile_imp hmem
    exact absurd this (by decide)
  obtain ⟨rest, hrest⟩ := hprefix
  rcases List.eq_nil_or_concat rest with rfl | ⟨rest, c, rfl⟩
  · rw [List.append_nil] at hrest
    exact absurd (hrest ▸ List.mem_append_right _ (List.mem_singleton.mpr rfl)) hfeed
  · rw [List.concat_eq_append, ← List.append_assoc] at hrest
    have hline : l = "- ".toList ++ words ++ rest := (List.append_inj_left' hrest rfl).symm
    exact ⟨words ++ rest, by simp [hne], by rw [hline, List.append_assoc]⟩

/-- By its line feeds an accepted text is a fragment exactly when the heading and the empty line
end at one. -/
theorem isFragment_lines_iff (hchecked : IsFragment (splitlines text.toList))
    (hend : text.toList.getLast? = some '\n') :
    IsFragment (ShellText.lines text.toList) ↔ OpensWithFeeds text.toList := by
  have htext := ShellText.unlines_lines hend
  constructor
  · rintro ⟨category, hcategory, bullets, -, -, hlines⟩
    refine ⟨category, hcategory, ShellText.unlines bullets, ?_⟩
    rw [← htext, hlines]
    simp [ShellText.unlines]
  · rintro ⟨category, hcategory, rest, hrest⟩
    have hplain := isLineBreak_of_mem_category hcategory
    have hsplit : text.toList =
        "### ".toList ++ category.toList ++ '\n' :: ([] ++ '\n' :: rest) := by
      rw [← hrest]
      simp
    obtain ⟨category', -, bullets, hne, hbullets, hpython⟩ := hchecked
    rw [hsplit, splitlines_append_feed, splitlines_plain_newline hplain] at hpython
    have hbullets' : splitlines rest = bullets := by
      have hempty : splitlines ([] ++ ['\n']) = [[]] := rfl
      rw [splitlines_append_feed, hempty] at hpython
      simp only [List.singleton_append, List.cons.injEq] at hpython
      exact hpython.2.2
    have hhead : '\n' ∉ "### ".toList ++ category.toList := by
      intro hmem
      exact absurd (hplain _ hmem) (by decide)
    have hlines : ShellText.lines text.toList =
        ("### ".toList ++ category.toList) :: [] :: ShellText.lines rest := by
      rw [hsplit, ShellText.lines_append_feed hhead, ShellText.lines_append_feed (by simp)]
    have hrestEnd : rest.getLast? = some '\n' := by
      have hne : rest ≠ [] := by
        rintro rfl
        exact hne hbullets'.symm
      rwa [← hrest, List.getLast?_append_of_ne_nil _ hne] at hend
    have hmore := ShellText.unlines_lines hrestEnd
    refine ⟨category, hcategory, ShellText.lines rest, ?_,
      fun b hb => isBullet_of_splitlines fun c hc => ?_, hlines⟩
    · intro hnone
      rw [hnone] at hmore
      rw [← hbullets', ← hmore] at hne
      exact hne rfl
    · have hmem : c ∈ splitlines (PythonText.unlines (ShellText.lines rest)) := by
        rw [splitlines_unlines_eq]
        exact List.mem_flatMap.mpr ⟨b, hb, hc⟩
      apply hbullets
      rw [← hbullets']
      exact hmore ▸ hmem

theorem opensWithFeeds_of_onlyFeeds (hchecked : IsFragment (splitlines text.toList))
    (hend : text.toList.getLast? = some '\n') (h : OnlyFeeds text.toList) :
    OpensWithFeeds text.toList := by
  rw [← isFragment_lines_iff hchecked hend, ← (splitlines_eq_lines_iff hend).mpr h]
  exact hchecked

/-- By its line feeds an accepted fragment is one exactly when the heading and the empty line end at
line feeds, and it is so with the lines that were checked exactly when no other character of it ends
a line. -/
theorem fragment_lines_iff (h : validateFragmentBytes path payload = .ok text) :
    (IsFragment (ShellText.lines text.toList) ↔ OpensWithFeeds text.toList) ∧
      (IsFragment (ShellText.lines text.toList) ∧
          splitlines text.toList = ShellText.lines text.toList ↔ OnlyFeeds text.toList) := by
  obtain ⟨hchecked, hend⟩ := checked_of_accepted h
  have hfragment := isFragment_lines_iff hchecked hend
  refine ⟨hfragment, fun hlines => (splitlines_eq_lines_iff hend).mp hlines.2, fun hfeeds => ?_⟩
  exact ⟨hfragment.mpr (opensWithFeeds_of_onlyFeeds hchecked hend hfeeds),
    (splitlines_eq_lines_iff hend).mpr hfeeds⟩

/-! ## Samples -/

namespace LineSample

def plain : String := "### Added\n\n- a\n"

/-- The heading ends at a vertical tab. -/
def tabbed : String := "### Added\x0b\n- a\n"

theorem accepted : ∀ s ∈ [plain, tabbed],
    validateFragmentBytes "changelog.d/1-a.md" (encode s) = .ok s := by
  decide +kernel

end LineSample

theorem fragment_lines_iff_sample :
    IsFragment (ShellText.lines LineSample.plain.toList) ∧
      splitlines LineSample.plain.toList = ShellText.lines LineSample.plain.toList := by
  have haccepted := LineSample.accepted LineSample.plain (by simp)
  apply (fragment_lines_iff haccepted).2.mpr
  simp [OnlyFeeds, LineSample.plain, isLineBreak]

/-- A fragment is accepted whose first line is no heading. -/
theorem tabbed_is_accepted : ¬ ∀ path payload text, validateFragmentBytes path payload = .ok text →
    IsFragment (ShellText.lines text.toList) := by
  intro h
  have haccepted := LineSample.accepted LineSample.tabbed (by simp)
  obtain ⟨hchecked, hend⟩ := checked_of_accepted haccepted
  obtain ⟨category, hcategory, hprefix⟩ :=
    (isFragment_lines_iff hchecked hend).mp (h _ _ _ haccepted)
  simp only [fragmentCategories, List.mem_cons, List.not_mem_nil, or_false] at hcategory
  rcases hcategory with rfl | rfl | rfl | rfl <;> simp [LineSample.tabbed] at hprefix

end Release
