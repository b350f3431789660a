import Mathlib

/-!
# Dealing a list in turn

The slices `l[i::n]` of a list, one for each start below `n`: each item is in exactly one.
-/

namespace Dealing

variable {α : Type}

/-- `l[skip::n + 1]` -/
def everyNth (n : ℕ) : ℕ → List α → List α
  | _, [] => []
  | 0, x :: xs => x :: everyNth n n xs
  | skip + 1, _ :: xs => everyNth n skip xs

/-- The slices with the starts `0`, `1`, ..., `hands - 1`. -/
def deal (n hands : ℕ) (l : List α) : List (List α) :=
  (List.range hands).map fun i => everyNth n i l

theorem everyNth_eq_nil {n skip : ℕ} {l : List α} (h : l.length ≤ skip) :
    everyNth n skip l = [] := by
  induction l generalizing skip with
  | nil => cases skip <;> rfl
  | cons x xs ih =>
    cases skip with
    | zero => simp at h
    | succ skip => exact ih (by simpa using h)

theorem everyNth_ne_nil {n skip : ℕ} {l : List α} (h : skip < l.length) :
    everyNth n skip l ≠ [] := by
  induction l generalizing skip with
  | nil => simp at h
  | cons x xs ih =>
    cases skip with
    | zero => simp [everyNth]
    | succ skip => exact ih (by simpa using h)

/-- Position `i` of a slice is position `skip + i * (n + 1)` of the list. -/
theorem getElem?_everyNth (n skip i : ℕ) (l : List α) :
    (everyNth n skip l)[i]? = l[skip + i * (n + 1)]? := by
  induction l generalizing skip i with
  | nil => cases skip <;> simp [everyNth]
  | cons x xs ih =>
    cases skip with
    | succ skip => rw [everyNth, ih, Nat.succ_add, List.getElem?_cons_succ]
    | zero =>
      cases i with
      | zero => simp [everyNth]
      | succ i =>
        have hposition : 0 + (i + 1) * (n + 1) = (n + i * (n + 1)) + 1 := by ring
        rw [everyNth, List.getElem?_cons_succ, ih, hposition, List.getElem?_cons_succ]

theorem everyNth_sublist (n skip : ℕ) (l : List α) : (everyNth n skip l).Sublist l := by
  induction l generalizing skip with
  | nil => cases skip <;> exact .slnil
  | cons x xs ih =>
    cases skip with
    | zero => exact (ih n).cons_cons x
    | succ skip => exact (ih skip).cons x

/-- The first hand takes the first item and is then the last to be dealt to. -/
theorem deal_cons (n : ℕ) (x : α) (xs : List α) :
    deal n (n + 1) (x :: xs) = (x :: everyNth n n xs) :: deal n n xs := by
  rw [deal, List.range_succ_eq_map, List.map_cons, List.map_map]
  rfl

theorem deal_succ (n hands : ℕ) (l : List α) :
    deal n (hands + 1) l = deal n hands l ++ [everyNth n hands l] := by
  rw [deal, List.range_succ, List.map_append]
  rfl

/-- A full deal gives out every item once. -/
theorem flatten_deal_perm (n : ℕ) (l : List α) : (deal n (n + 1) l).flatten.Perm l := by
  induction l with
  | nil =>
    have hnil : (deal n (n + 1) ([] : List α)).flatten = [] := by
      rw [List.flatten_eq_nil_iff]
      intro hand hmem
      obtain ⟨i, -, rfl⟩ := List.mem_map.mp hmem
      exact everyNth_eq_nil (Nat.zero_le _)
    rw [hnil]
  | cons x xs ih =>
    rw [deal_succ, List.flatten_append, List.flatten_singleton] at ih
    rw [deal_cons, List.flatten_cons, List.cons_append]
    exact (List.perm_append_comm.trans ih).cons x

/-- Hands beyond the length of the list stay empty. -/
theorem flatten_deal_min (n hands : ℕ) (l : List α) :
    (deal n (min hands l.length) l).flatten = (deal n hands l).flatten := by
  rcases Nat.le_total hands l.length with h | h
  · rw [Nat.min_eq_left h]
  · rw [Nat.min_eq_right h]
    induction hands, h using Nat.le_induction with
    | base => rfl
    | succ hands hle ih =>
      rw [deal_succ, List.flatten_append, List.flatten_singleton, everyNth_eq_nil hle,
        List.append_nil, ih]

end Dealing
