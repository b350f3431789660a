import Mathlib

/-!
# Ranges of integers

Half-open ranges as pairs of their bounds: ranges that follow one another without a gap, and the
comparison of neighbours in a sorted list that decides whether all ranges are disjoint.
-/

namespace Intervals

abbrev Range := ℤ × ℤ

def Range.length (r : Range) : ℤ := r.2 - r.1

def Contains (r : Range) (n : ℤ) : Prop := r.1 ≤ n ∧ n < r.2

/-- The ranges have no number in common. -/
def Apart (r s : Range) : Prop := r.2 ≤ s.1 ∨ s.2 ≤ r.1

theorem Apart.symm {r s : Range} (h : Apart r s) : Apart s r := Or.symm h

theorem Apart.not_both {r s : Range} (h : Apart r s) {n : ℤ} (hr : Contains r n) :
    ¬ Contains s n := by
  intro hs
  obtain ⟨hr₁, hr₂⟩ := hr
  obtain ⟨hs₁, hs₂⟩ := hs
  rcases h with h | h <;> omega

/-! ## Tilings -/

/-- The ranges follow one another from the start to the stop, and none is empty. -/
inductive Tiles : ℤ → ℤ → List Range → Prop
  | nil (n : ℤ) : Tiles n n []
  | cons {start middle stop : ℤ} {ranges : List Range} (hlt : start < middle)
    (hrest : Tiles middle stop ranges) : Tiles start stop ((start, middle) :: ranges)

variable {start stop : ℤ} {ranges : List Range}

theorem Tiles.append {middle : ℤ} {more : List Range} (h : Tiles start middle ranges)
    (hmore : Tiles middle stop more) : Tiles start stop (ranges ++ more) := by
  induction h with
  | nil => exact hmore
  | cons hlt _ ih => exact .cons hlt (ih hmore)

theorem Tiles.le (h : Tiles start stop ranges) : start ≤ stop := by
  induction h with
  | nil => rfl
  | cons hlt _ ih => exact hlt.le.trans ih

/-- What is between the bounds is in one of the ranges, and nothing else is. -/
theorem Tiles.covers (h : Tiles start stop ranges) (n : ℤ) :
    (start ≤ n ∧ n < stop) ↔ ∃ r ∈ ranges, Contains r n := by
  induction h with
  | nil m =>
    simp only [List.not_mem_nil, false_and, exists_false, iff_false]
    omega
  | @cons start middle stop ranges hlt hrest ih =>
    have hle := hrest.le
    simp only [List.mem_cons, exists_eq_or_imp, ← ih]
    change _ ↔ (start ≤ n ∧ n < middle) ∨ _
    omega

theorem Tiles.bounds (h : Tiles start stop ranges) : ∀ r ∈ ranges, start ≤ r.1 ∧ r.2 ≤ stop := by
  induction h with
  | nil => simp
  | cons hlt hrest ih =>
    have hle := hrest.le
    rw [List.forall_mem_cons]
    exact ⟨⟨le_rfl, hle⟩, fun r hr => ⟨hlt.le.trans (ih r hr).1, (ih r hr).2⟩⟩

/-- No two ranges of a tiling overlap. -/
theorem Tiles.pairwise (h : Tiles start stop ranges) : ranges.Pairwise Apart := by
  induction h with
  | nil => exact .nil
  | cons hlt hrest ih =>
    rw [List.pairwise_cons]
    exact ⟨fun r hr => .inl (hrest.bounds r hr).1, ih⟩

theorem Tiles.sum_length (h : Tiles start stop ranges) :
    (ranges.map Range.length).sum = stop - start := by
  induction h with
  | nil => simp
  | cons hlt hrest ih =>
    rw [List.map_cons, List.sum_cons, ih, Range.length]
    omega

/-! ## Sorted neighbours -/

/-- `left <= right`, of tuples -/
def Before (r s : Range) : Prop := r.1 < s.1 ∨ r.1 = s.1 ∧ r.2 ≤ s.2

instance : DecidableRel Before := fun _ _ => inferInstanceAs (Decidable (_ ∨ _))

instance : IsTrans Range Before := ⟨fun _ _ _ h h' => by
  rcases h with h | h <;> rcases h' with h' | h' <;> unfold Before <;> omega⟩

instance : Std.Total Before := ⟨fun r s => by
  unfold Before
  omega⟩

/-- `sorted(ranges)` -/
def sorted (ranges : List Range) : List Range := ranges.insertionSort Before

/-- Every range of the sorted list ends where the next one begins, or before. -/
def neighboursApart (ranges : List Range) : Bool :=
  ((sorted ranges).zip (sorted ranges).tail).all fun p => p.1.2 ≤ p.2.1

theorem zip_tail_iff {p : Range → Range → Prop} :
    (∀ pair ∈ ranges.zip ranges.tail, p pair.1 pair.2) ↔ ranges.IsChain p := by
  induction ranges with
  | nil => simp
  | cons r ranges ih =>
    cases ranges with
    | nil => simp
    | cons s ranges =>
      rw [List.tail_cons, List.zip_cons_cons, List.forall_mem_cons, List.isChain_cons_cons]
      exact and_congr_right fun _ => ih

/-- Ranges that are not empty are pairwise apart exactly where the sorted neighbours are. -/
theorem neighboursApart_iff (hpos : ∀ r ∈ ranges, r.1 < r.2) :
    neighboursApart ranges = true ↔ ranges.Pairwise Apart := by
  have hperm : (sorted ranges).Perm ranges := List.perm_insertionSort Before ranges
  have hsorted : (sorted ranges).Pairwise Before := List.pairwise_insertionSort Before ranges
  have hpos' : ∀ r ∈ sorted ranges, r.1 < r.2 := fun r hr => hpos r (hperm.mem_iff.mp hr)
  have hpairwise : (sorted ranges).Pairwise Apart ↔ ranges.Pairwise Apart :=
    hperm.pairwise_iff fun {_ _} h => Apart.symm h
  rw [← hpairwise, neighboursApart, List.all_eq_true]
  simp only [decide_eq_true_eq]
  rw [zip_tail_iff (p := fun r s => r.2 ≤ s.1)]
  generalize sorted ranges = l at hsorted hpos'
  clear hperm hpairwise hpos
  induction l with
  | nil => simp
  | cons r l ih =>
    rw [List.pairwise_cons] at hsorted
    rw [List.forall_mem_cons] at hpos'
    have ih := ih hsorted.2 hpos'.2
    cases l with
    | nil => simp
    | cons s l =>
      rw [List.isChain_cons_cons, List.pairwise_cons]
      refine (and_congr_right fun _ => ih).trans (and_congr_left fun hrest => ?_)
      rw [List.pairwise_cons] at hrest
      have hs := hpos'.2 s List.mem_cons_self
      constructor
      · intro hnext t ht
        rcases List.mem_cons.mp ht with rfl | ht
        · exact .inl hnext
        · have hst := (List.pairwise_cons.mp hsorted.2).1 t ht
          unfold Before at hst
          exact .inl (by omega)
      · intro hapart
        have hrs := hapart s List.mem_cons_self
        have hbefore := hsorted.1 s List.mem_cons_self
        have hr := hpos'.1
        unfold Apart at hrs
        unfold Before at hbefore
        omega

end Intervals
