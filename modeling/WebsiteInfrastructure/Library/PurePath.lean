import Mathlib

/-!
# Pure paths

A path as its anchor and its names. A path contains another one if its names are the first names
of the other.
-/

/-- How a path starts; two slashes are kept apart from one. -/
inductive PathAnchor
  | relative
  | root
  | doubleRoot
  deriving DecidableEq

structure PurePosixPath where
  anchor : PathAnchor
  names : List String
  deriving DecidableEq

namespace PurePosixPath

variable {p q r : PurePosixPath}

/-- Three slashes and more are one. -/
def anchorOf (text : List Char) : PathAnchor :=
  match (text.takeWhile (· = '/')).length with
  | 0 => .relative
  | 2 => .doubleRoot
  | _ => .root

/-- Empty names and single dots are left out. -/
def ofString (text : String) : PurePosixPath where
  anchor := anchorOf text.toList
  names := ((text.toList.splitOn '/').map String.ofList).filter fun name => name ≠ "" ∧ name ≠ "."

/-- The nearest parent comes first. -/
def parents (p : PurePosixPath) : List PurePosixPath :=
  (p.names.inits.filter (· ≠ p.names)).reverse.map (PurePosixPath.mk p.anchor)

/-- The number of `parts`, of which the anchor is one. -/
def partsLength (p : PurePosixPath) : ℕ :=
  (if p.anchor = .relative then 0 else 1) + p.names.length

/-- `relative_to`, without a value where it raises `ValueError` -/
def relativeTo (p q : PurePosixPath) : Option PurePosixPath :=
  if q = p ∨ q ∈ p.parents then some ⟨.relative, p.names.drop q.names.length⟩ else none

def joinpath (p q : PurePosixPath) : PurePosixPath :=
  if q.anchor = .relative then ⟨p.anchor, p.names ++ q.names⟩ else q

/-- The other path is this one or lies below it. -/
def Contains (p q : PurePosixPath) : Prop := p = q ∨ p ∈ q.parents

instance : Decidable (p.Contains q) := inferInstanceAs (Decidable (_ ∨ _))

theorem mem_parents_iff : p ∈ q.parents ↔
    p.anchor = q.anchor ∧ p.names <+: q.names ∧ p.names ≠ q.names := by
  unfold parents
  simp only [List.mem_map, List.mem_reverse, List.mem_filter, List.mem_inits, decide_eq_true_eq]
  constructor
  · rintro ⟨names, ⟨hinit, hne⟩, rfl⟩
    exact ⟨rfl, hinit, hne⟩
  · rintro ⟨hanchor, hinit, hne⟩
    exact ⟨p.names, ⟨hinit, hne⟩, by rw [← hanchor]⟩

theorem contains_iff : p.Contains q ↔ p.anchor = q.anchor ∧ p.names <+: q.names := by
  unfold Contains
  rw [mem_parents_iff]
  constructor
  · rintro (rfl | ⟨hanchor, hinit, -⟩)
    · exact ⟨rfl, List.prefix_rfl⟩
    · exact ⟨hanchor, hinit⟩
  · rintro ⟨hanchor, hinit⟩
    by_cases hnames : p.names = q.names
    · left
      cases p
      cases q
      simp_all
    · exact .inr ⟨hanchor, hinit, hnames⟩

theorem contains_refl (p : PurePosixPath) : p.Contains p := .inl rfl

theorem Contains.trans (hpq : p.Contains q) (hqr : q.Contains r) : p.Contains r := by
  rw [contains_iff] at hpq hqr ⊢
  exact ⟨hpq.1.trans hqr.1, hpq.2.trans hqr.2⟩

/-- Of two paths that contain a third, the shorter one contains the longer one. -/
theorem Contains.of_length_le (hp : p.Contains r) (hq : q.Contains r)
    (hlength : p.names.length ≤ q.names.length) : p.Contains q := by
  rw [contains_iff] at hp hq ⊢
  exact ⟨hp.1.trans hq.1.symm, List.prefix_of_prefix_length_le hp.2 hq.2 hlength⟩

theorem Contains.antisymm (hpq : p.Contains q) (hqp : q.Contains p) : p = q := by
  rw [contains_iff] at hpq hqp
  have hnames : p.names = q.names :=
    hpq.2.eq_of_length (le_antisymm hpq.2.length_le hqp.2.length_le)
  cases p
  cases q
  simp_all

theorem relativeTo_eq_some (h : q.Contains p) :
    p.relativeTo q = some ⟨.relative, p.names.drop q.names.length⟩ :=
  if_pos h

theorem contains_of_relativeTo (h : p.relativeTo q = some r) : q.Contains p := by
  unfold relativeTo at h
  split_ifs at h with hcontains
  exact hcontains

/-- Below a mount point, a path is found again from where it is put. -/
theorem contains_joinpath_drop {point root : PurePosixPath} (hp : point.Contains p)
    (hq : point.Contains q) :
    (root.joinpath ⟨.relative, p.names.drop point.names.length⟩).Contains
      (root.joinpath ⟨.relative, q.names.drop point.names.length⟩) ↔ p.Contains q := by
  rw [contains_iff] at hp hq
  obtain ⟨hanchor, below, hbelow⟩ := hp
  obtain ⟨hanchor', below', hbelow'⟩ := hq
  rw [contains_iff, contains_iff]
  simp only [joinpath, if_true, ← hbelow, ← hbelow', ← hanchor, ← hanchor', List.drop_left]
  simp

theorem contains_joinpath (root : PurePosixPath) (names : List String) :
    root.Contains (root.joinpath ⟨.relative, names⟩) := by
  rw [contains_iff]
  simp [joinpath]

/-! ## Resolution of dots -/

/-- The names with every pair of dots taken back. -/
def resolveNames (names : List String) : List String :=
  names.foldl (fun kept name => if name = ".." then kept.dropLast else kept ++ [name]) []

def resolve (p : PurePosixPath) : PurePosixPath := ⟨p.anchor, resolveNames p.names⟩

theorem resolveNames_of_not_mem {names : List String} (h : ".." ∉ names) :
    resolveNames names = names := by
  have hfold : ∀ (kept : List String), names.foldl
      (fun kept name => if name = ".." then kept.dropLast else kept ++ [name]) kept =
        kept ++ names := by
    induction names with
    | nil => simp
    | cons name names ih =>
      intro kept
      rw [List.mem_cons, not_or] at h
      rw [List.foldl_cons, if_neg (Ne.symm h.1), ih h.2]
      simp
  exact hfold []

theorem resolve_of_not_mem (h : ".." ∉ p.names) : p.resolve = p := by
  rw [resolve, resolveNames_of_not_mem h]

theorem infix_of_mem_intercalate {α : Type} {pieces : List (List α)} {piece : List α} {c : α}
    (h : piece ∈ pieces) : piece <:+: [c].intercalate pieces := by
  induction pieces with
  | nil => cases h
  | cons first rest ih =>
    cases rest with
    | nil =>
      obtain rfl : piece = first := by simpa using h
      simp
    | cons second rest =>
      rw [List.intercalate_cons_cons]
      cases List.mem_cons.mp h with
      | inl heq =>
        subst heq
        exact ⟨[], [c] ++ [c].intercalate (second :: rest), by simp⟩
      | inr hmem => exact (ih hmem).trans (List.suffix_append _ _).isInfix

theorem infix_of_mem_splitOn {α : Type} [DecidableEq α] {text piece : List α} {c : α}
    (h : piece ∈ text.splitOn c) : piece <:+: text := by
  have hinfix := infix_of_mem_intercalate (c := c) h
  rwa [List.intercalate_splitOn] at hinfix

/-- A text without two dots in a row needs no resolution. -/
theorem resolve_ofString {text : String} (h : ¬ "..".toList <:+: text.toList) :
    (ofString text).resolve = ofString text := by
  apply resolve_of_not_mem
  intro hmem
  have hpiece := (List.mem_filter.mp hmem).1
  obtain ⟨piece, hsplit, heq⟩ := List.mem_map.mp hpiece
  have hdots : piece = "..".toList := by
    rw [← heq]
    simp
  exact h (hdots ▸ infix_of_mem_splitOn hsplit)

/-- What is appended after a slash lies below. -/
theorem contains_ofString {root text : String} (hroot : ∃ c ∈ root.toList, c ≠ '/')
    (h : (root ++ "/").toList <+: text.toList) : (ofString root).Contains (ofString text) := by
  obtain ⟨rest, hrest⟩ := h
  have htext : text.toList = root.toList ++ '/' :: rest := by
    rw [← hrest]
    simp
  have hanchor : anchorOf text.toList = anchorOf root.toList := by
    have hpartial : (root.toList.takeWhile (· = '/')).length ≠ root.toList.length := by
      intro hlength
      have hall : root.toList.takeWhile (· = '/') = root.toList :=
        (List.takeWhile_prefix _).eq_of_length hlength
      obtain ⟨c, hc, hne⟩ := hroot
      exact hne (by simpa using List.takeWhile_eq_self_iff.mp hall c hc)
    unfold anchorOf
    rw [htext, List.takeWhile_append, if_neg hpartial]
  rw [contains_iff]
  refine ⟨hanchor.symm, ?_⟩
  unfold ofString
  rw [htext, List.splitOn_append_cons_self, List.map_append, List.filter_append]
  exact List.prefix_append _ _

end PurePosixPath
