import Mathlib

/-!
# Ranks in a list

What remains of a list that is sorted downwards after its first items: the items with enough
larger ones.
-/

namespace Ranking

variable {α : Type} [LinearOrder α]

/-- `sort -r` -/
def descending (l : List α) : List α := l.insertionSort (· ≥ ·)

/-- The items that at least `k` items are larger than. -/
def beyond (k : ℕ) (l : List α) : List α := (descending l).drop k

theorem descending_perm (l : List α) : (descending l).Perm l := List.perm_insertionSort _ l

theorem descending_pairwise {l : List α} (h : l.Nodup) : (descending l).Pairwise (· > ·) := by
  have hsorted : (descending l).Pairwise (· ≥ ·) := List.pairwise_insertionSort _ l
  have hnodup : (descending l).Nodup := (descending_perm l).nodup_iff.mpr h
  apply (hsorted.and hnodup).imp
  rintro a b ⟨hle, hne⟩
  exact lt_of_le_of_ne hle hne.symm

theorem mem_drop_iff {l : List α} (h : l.Pairwise (· > ·)) (k : ℕ) (x : α) :
    x ∈ l.drop k ↔ x ∈ l ∧ k ≤ l.countP (x < ·) := by
  induction l generalizing k with
  | nil => simp
  | cons y l ih =>
    rw [List.pairwise_cons] at h
    cases k with
    | zero => simp
    | succ k =>
      rw [List.drop_succ_cons, ih h.2, List.mem_cons, List.countP_cons]
      constructor
      · rintro ⟨hx, hk⟩
        have hlt : x < y := h.1 x hx
        exact ⟨.inr hx, by simpa [hlt] using hk⟩
      · rintro ⟨rfl | hx, hk⟩
        · have hzero : l.countP (x < ·) = 0 := by
            rw [List.countP_eq_zero]
            intro z hz
            simpa using (h.1 z hz).le
          simp [hzero] at hk
        · have hlt : x < y := h.1 x hx
          exact ⟨hx, by simpa [hlt] using hk⟩

/-- An item is beyond rank `k` when at least `k` items are larger. -/
theorem mem_beyond {k : ℕ} {l : List α} (h : l.Nodup) {x : α} :
    x ∈ beyond k l ↔ x ∈ l ∧ k ≤ l.countP (x < ·) := by
  rw [beyond, mem_drop_iff (descending_pairwise h), (descending_perm l).mem_iff,
    (descending_perm l).countP_eq]

theorem beyond_sublist (k : ℕ) (l : List α) : (beyond k l).Sublist (descending l) :=
  List.drop_sublist k _

theorem nodup_beyond {k : ℕ} {l : List α} (h : l.Nodup) : (beyond k l).Nodup :=
  ((descending_perm l).nodup_iff.mpr h).sublist (beyond_sublist k l)

theorem length_beyond (k : ℕ) (l : List α) : (beyond k l).length = l.length - k := by
  rw [beyond, List.length_drop, (descending_perm l).length_eq]

end Ranking
