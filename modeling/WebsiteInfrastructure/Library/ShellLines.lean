import Mathlib
import WebsiteInfrastructure.Library.ShellText

/-!
# Lines through a command substitution

A command substitution loses the newlines at the end of an output and nothing else of its lines,
so sorted lists of lines can be compared as texts.
-/

namespace ShellText

/-! ## Splitting -/

/-- A piece holds no separator, and no other character than the whole. -/
theorem of_mem_splitOn {t piece : Text} (h : piece ∈ t.splitOn '\n') :
    '\n' ∉ piece ∧ piece ⊆ t := by
  induction t generalizing piece with
  | nil =>
    rw [List.splitOn_nil, List.mem_singleton] at h
    simp [h]
  | cons c t ih =>
    rw [List.splitOn_cons_eq_if_modifyHead] at h
    split_ifs at h with hc
    · rcases List.mem_cons.mp h with rfl | h
      · simp
      · exact ⟨(ih h).1, List.Subset.trans (ih h).2 (List.subset_cons_self c t)⟩
    · have hne : c ≠ '\n' := by simpa using hc
      cases hpieces : t.splitOn '\n' with
      | nil => exact absurd hpieces (List.splitOn_ne_nil _ _)
      | cons head rest =>
        rw [hpieces, List.modifyHead_cons] at h
        rcases List.mem_cons.mp h with rfl | h
        · obtain ⟨hhead, hsub⟩ := @ih head (by simp [hpieces])
          exact ⟨by simp [hne.symm, hhead], List.cons_subset_cons c hsub⟩
        · obtain ⟨hrest, hsub⟩ := @ih piece (by simp [hpieces, h])
          exact ⟨hrest, List.Subset.trans hsub (List.subset_cons_self c t)⟩

theorem of_mem_lines {t line : Text} (h : line ∈ lines t) : '\n' ∉ line ∧ line ⊆ t := by
  unfold lines at h
  simp only at h
  split_ifs at h
  · exact of_mem_splitOn (List.mem_of_mem_dropLast h)
  · exact of_mem_splitOn h

theorem splitOn_unlines {ls : List Text} (h : ∀ l ∈ ls, '\n' ∉ l) :
    (unlines ls).splitOn '\n' = ls ++ [[]] := by
  induction ls with
  | nil => rfl
  | cons l ls ih =>
    have hparts := List.forall_mem_cons.mp h
    rw [unlines, List.flatMap_cons, ← unlines, List.append_assoc, List.singleton_append,
      List.splitOn_append_cons_self_of_not_mem hparts.1, ih hparts.2]
    rfl

theorem splitOn_concat (t : Text) : (t ++ ['\n']).splitOn '\n' = t.splitOn '\n' ++ [[]] := by
  rw [List.splitOn_append_cons_self, List.splitOn_nil]

theorem printedLines_eq (t : Text) : printedLines t = t.splitOn '\n' := by
  simp [printedLines, lines, splitOn_concat]

/-! ## Substitution -/

section FilterMap

variable {α : Type} {f : Text → Option α}

/-- Lines that a filter passes over may go at the end. -/
theorem filterMap_rdropWhile (hf : f [] = none) (t : Text) :
    ((t.rdropWhile (· = '\n')).splitOn '\n').filterMap f = (t.splitOn '\n').filterMap f := by
  induction t using List.reverseRecOn with
  | nil => rfl
  | append_singleton t c ih =>
    by_cases hc : c = '\n'
    · subst hc
      rw [List.rdropWhile_concat_pos _ _ _ (by simp), ih, splitOn_concat]
      simp [hf]
    · rw [List.rdropWhile_concat_neg _ _ _ (by simpa using hc)]

/-- What a filter finds in the printed value of a variable is what it finds in the output that was
read into it. -/
theorem filterMap_printedLines (hf : f [] = none) {ls : List Text} (h : ∀ l ∈ ls, '\n' ∉ l) :
    (printedLines (substitution (unlines ls))).filterMap f =
      (ls.map fun l => l.filter (· ≠ '\x00')).filterMap f := by
  have hfilter : (unlines ls).filter (· ≠ '\x00') =
      unlines (ls.map fun l => l.filter (· ≠ '\x00')) := by
    simp only [unlines, List.filter_flatMap, List.flatMap_map]
    apply List.flatMap_congr
    intro l hl
    rw [List.filter_append]
    rfl
  have hplain : ∀ l ∈ ls.map (fun l => l.filter (· ≠ '\x00')), '\n' ∉ l := by
    intro l hl
    obtain ⟨k, hk, rfl⟩ := List.mem_map.mp hl
    exact fun hmem => h k hk (List.mem_of_mem_filter hmem)
  rw [printedLines_eq, substitution, filterMap_rdropWhile hf, hfilter, splitOn_unlines hplain,
    List.filterMap_append]
  simp [hf]

end FilterMap

/-! ## Comparing -/

/-- Lines that hold no separator and no NUL. -/
def Clean (ls : List Text) : Prop := ∀ l ∈ ls, '\n' ∉ l ∧ '\x00' ∉ l

theorem Clean.perm {xs ys : List Text} (h : Clean xs) (hperm : xs.Perm ys) : Clean ys := by
  intro l hl
  exact h l (hperm.mem_iff.mpr hl)

theorem Clean.filter_line {ls : List Text} (h : Clean ls) {l : Text} (hl : l ∈ ls) :
    l.filter (· ≠ '\x00') = l := by
  rw [List.filter_eq_self]
  intro c hc
  have hne : c ≠ '\x00' := by
    rintro rfl
    exact (h l hl).2 hc
  simpa using hne

theorem Clean.filter_eq {ls : List Text} (h : Clean ls) :
    (ls.map fun l => l.filter (· ≠ '\x00')) = ls := by
  rw [List.map_congr_left fun l hl => h.filter_line hl, List.map_id']

theorem Clean.nonempty_lines {ls : List Text} (h : Clean ls) :
    (printedLines (substitution (unlines ls))).filter (· ≠ []) = ls.filter (· ≠ []) := by
  have hlines := filterMap_printedLines (f := Option.guard (· ≠ [])) rfl fun l hl => (h l hl).1
  rw [h.filter_eq] at hlines
  simpa [List.filterMap_eq_filter] using hlines

theorem splitOn_unlines_append {ls : List Text} {l : Text} (h : ∀ k ∈ ls, '\n' ∉ k)
    (hl : '\n' ∉ l) : (unlines ls ++ l).splitOn '\n' = ls ++ [l] := by
  induction ls with
  | nil => exact List.splitOn_eq_singleton hl
  | cons k ls ih =>
    have hparts := List.forall_mem_cons.mp h
    rw [unlines, List.flatMap_cons, ← unlines, List.append_assoc, List.append_assoc,
      List.singleton_append, List.splitOn_append_cons_self_of_not_mem hparts.1, ih hparts.2]
    rfl

/-- Lines of which the last is not empty come back as they were. -/
theorem Clean.printedLines_eq {ls : List Text} {l : Text} (h : Clean (ls ++ [l])) (hl : l ≠ []) :
    printedLines (substitution (unlines (ls ++ [l]))) = ls ++ [l] := by
  have hfilter : (unlines (ls ++ [l])).filter (· ≠ '\x00') = unlines (ls ++ [l]) := by
    rw [List.filter_eq_self]
    intro c hc
    obtain ⟨k, hk, hc⟩ := List.mem_flatMap.mp hc
    rcases List.mem_append.mp hc with hc | hc
    · exact (List.filter_eq_self.mp (h.filter_line hk)) c hc
    · rw [List.mem_singleton.mp hc]
      decide
  have hlast : '\n' ∉ l := (h l (by simp)).1
  have htext : unlines (ls ++ [l]) = unlines ls ++ l ++ ['\n'] := by
    simp [unlines]
  have hstop : (unlines ls ++ l).rdropWhile (· = '\n') = unlines ls ++ l := by
    rw [List.rdropWhile_eq_self_iff]
    intro hne
    rw [List.getLast_append_of_ne_nil _ hl, decide_eq_true_eq]
    intro hnewline
    exact hlast (hnewline ▸ List.getLast_mem hl)
  rw [ShellText.printedLines_eq, substitution, hfilter, htext,
    List.rdropWhile_concat_pos _ _ _ (by simp), hstop]
  exact splitOn_unlines_append (fun k hk => (h k (List.mem_append_left _ hk)).1) hlast

/-- Two lists of lines that print alike are equal when the first is sorted and the second has no
empty line. -/
theorem substitution_unlines_inj {xs ys : List Text} (hx : Clean xs) (hy : Clean ys)
    (hsorted : xs.Pairwise (· ≤ ·)) (hne : ∀ l ∈ ys, l ≠ []) (hys : ys ≠ [])
    (h : substitution (unlines xs) = substitution (unlines ys)) : xs = ys := by
  have hall : ys.filter (· ≠ []) = ys := by
    rw [List.filter_eq_self]
    simpa using hne
  have hfiltered : xs.filter (· ≠ []) = ys := by
    rw [← hall, ← hx.nonempty_lines, ← hy.nonempty_lines, h]
  rcases List.eq_nil_or_concat xs with rfl | ⟨xs, x, rfl⟩
  · exact hfiltered
  · rcases List.eq_nil_or_concat ys with rfl | ⟨ys, y, rfl⟩
    · exact absurd rfl hys
    · simp only [List.concat_eq_append] at *
      have hxne : x ≠ [] := by
        rintro rfl
        -- the last of a sorted list is the largest: every line is empty
        have hempty : ∀ l ∈ xs ++ [[]], l = [] := by
          intro l hl
          rcases List.mem_append.mp hl with hl | hl
          · have hle := (List.pairwise_append.mp hsorted).2.2 l hl [] (by simp)
            cases l with
            | nil => rfl
            | cons c l => exact absurd hle (not_le.mpr (List.nil_lt_cons c l))
          · exact List.mem_singleton.mp hl
        have hnone : (xs ++ [[]]).filter (· ≠ []) = [] := by
          rw [List.filter_eq_nil_iff]
          intro l hl
          simp [hempty l hl]
        rw [hnone] at hfiltered
        simp at hfiltered
      rw [← hx.printedLines_eq hxne, h, hy.printedLines_eq (hne y (by simp))]

/-! ## Greedy matching -/

/-- The text after the last place where `sep` stands, what `.*sep` leaves of a line. -/
def afterLast (sep : Text) : Text → Option Text
  | [] => none
  | c :: cs =>
    match afterLast sep cs with
    | some rest => some rest
    | none => if sep <+: c :: cs then some ((c :: cs).drop sep.length) else none

variable {sep : Text}

theorem afterLast_length {s t : Text} (h : afterLast sep s = some t) :
    t.length + sep.length ≤ s.length := by
  induction s with
  | nil => simp [afterLast] at h
  | cons c cs ih =>
    rw [afterLast] at h
    cases hrest : afterLast sep cs with
    | some rest =>
      rw [hrest] at h
      have hle := ih (hrest.trans h)
      rw [List.length_cons]
      omega
    | none =>
      rw [hrest] at h
      simp only at h
      split_ifs at h with hprefix
      have hlength := hprefix.length_le
      rw [← Option.some.inj h, List.length_drop]
      omega

theorem afterLast_eq_none (hsep : sep ≠ []) {s : Text} : afterLast sep s = none ↔ ¬ sep <:+: s := by
  induction s with
  | nil => simp [afterLast, hsep]
  | cons c cs ih =>
    rw [afterLast, List.infix_cons_iff, not_or, ← ih]
    cases afterLast sep cs with
    | some rest => simp
    | none => simp

theorem afterLast_append {a s : Text} (h : (afterLast sep s).isSome) :
    afterLast sep (a ++ s) = afterLast sep s := by
  induction a with
  | nil => rfl
  | cons c a ih =>
    obtain ⟨t, ht⟩ := Option.isSome_iff_exists.mp h
    rw [List.cons_append, afterLast, ih, ht]

theorem afterLast_suffix {s t : Text} (h : afterLast sep s = some t) : t <:+ s := by
  induction s with
  | nil => simp [afterLast] at h
  | cons c cs ih =>
    rw [afterLast] at h
    cases hrest : afterLast sep cs with
    | some rest =>
      rw [hrest] at h
      exact (ih (hrest.trans h)).trans (List.suffix_cons c cs)
    | none =>
      rw [hrest] at h
      simp only at h
      split_ifs at h
      rw [← Option.some.inj h]
      exact List.drop_suffix _ _

/-- What is left after a prefix that ends in `sep`: the rest, unless `sep` comes again. -/
theorem afterLast_sep {a m : Text} (hsep : sep ≠ []) :
    afterLast sep (a ++ (sep ++ m)) = some ((afterLast sep (sep.tail ++ m)).getD m) := by
  obtain ⟨c, tail, rfl⟩ := List.exists_cons_of_ne_nil hsep
  have hcut : afterLast (c :: tail) ((c :: tail) ++ m) =
      some ((afterLast (c :: tail) (tail ++ m)).getD m) := by
    rw [List.cons_append, afterLast]
    cases afterLast (c :: tail) (tail ++ m) with
    | some rest => rfl
    | none => simp
  rw [afterLast_append (by rw [hcut]; rfl), hcut]
  rfl

end ShellText
