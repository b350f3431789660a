import Mathlib

/-!
# Growth of partial maps

A partial map that only ever gains keys: `Grows f s g` says that `g` is `f` with fresh
entries at exactly the keys of `s`.
-/

namespace Growth

variable {κ ν : Type*}

/-- `g` is `f` with fresh entries at exactly the keys of `s`. -/
structure Grows (f : κ → Option ν) (s : Finset κ) (g : κ → Option ν) : Prop where
  same : ∀ k, k ∉ s → g k = f k
  fresh : ∀ k ∈ s, f k = none
  present : ∀ k ∈ s, g k ≠ none

variable {f g h : κ → Option ν} {s t : Finset κ} {k : κ} {v : ν}

theorem Grows.refl (f : κ → Option ν) : Grows f ∅ f :=
  ⟨fun _ _ => rfl, by simp, by simp⟩

theorem Grows.mem_iff (hg : Grows f s g) : k ∈ s ↔ f k = none ∧ g k ≠ none := by
  constructor
  · intro hk
    exact ⟨hg.fresh k hk, hg.present k hk⟩
  · rintro ⟨hf, hp⟩
    by_contra hk
    exact hp ((hg.same k hk).trans hf)

/-- What was there stays as it was. -/
theorem Grows.keeps (hg : Grows f s g) (hk : f k = some v) : g k = some v := by
  have hns : k ∉ s := fun hs => by simp [hg.fresh k hs] at hk
  rw [hg.same k hns, hk]

theorem Grows.unique (hs : Grows f s g) (ht : Grows f t g) : s = t := by
  ext k
  rw [hs.mem_iff, ht.mem_iff]

theorem Grows.disjoint (hg : Grows f s g) (hh : Grows g t h) : Disjoint s t := by
  rw [Finset.disjoint_left]
  intro k hs ht
  exact hg.present k hs (hh.fresh k ht)

variable [DecidableEq κ]

theorem Grows.trans (hg : Grows f s g) (hh : Grows g t h) : Grows f (s ∪ t) h where
  same k hk := by
    rw [Finset.mem_union, not_or] at hk
    rw [hh.same k hk.2, hg.same k hk.1]
  fresh k hk := by
    rcases Finset.mem_union.mp hk with hs | ht
    · exact hg.fresh k hs
    · have hns : k ∉ s := fun hs => Finset.disjoint_left.mp (hg.disjoint hh) hs ht
      rw [← hg.same k hns, hh.fresh k ht]
  present k hk := by
    rcases Finset.mem_union.mp hk with hs | ht
    · obtain ⟨v, hv⟩ := Option.ne_none_iff_exists'.mp (hg.present k hs)
      rw [hh.keeps hv]
      simp
    · exact hh.present k ht

/-- Two growths of one map compare when the larger keeps what the smaller added. -/
theorem Grows.sdiff (hg : Grows f s g) (hh : Grows f t h)
    (hkeep : ∀ k ∈ s, h k = g k) : Grows g (t \ s) h where
  same k hk := by
    rw [Finset.mem_sdiff, not_and_not_right] at hk
    by_cases hs : k ∈ s
    · exact hkeep k hs
    · have ht : k ∉ t := fun ht => hs (hk ht)
      rw [hh.same k ht, hg.same k hs]
  fresh k hk := by
    obtain ⟨ht, hs⟩ := Finset.mem_sdiff.mp hk
    rw [hg.same k hs, hh.fresh k ht]
  present k hk := hh.present k (Finset.mem_sdiff.mp hk).1

/-! ## Chains that gain one key a step -/

section Chain

variable {b : ℕ → κ → Option ν} {c : ℕ → κ} {n : ℕ}

/-- The keys gained between two places of a chain. -/
def gained (c : ℕ → κ) (i j : ℕ) : Finset κ := (Finset.Ico i j).image c

theorem gained_succ {i j : ℕ} (hij : i ≤ j) : gained c i (j + 1) = gained c i j ∪ {c j} := by
  rw [gained, gained, ← Nat.succ_eq_add_one, Nat.Ico_succ_right_eq_insert_Ico hij, Finset.image_insert,
    Finset.insert_eq, Finset.union_comm]

theorem grows_of_steps (hstep : ∀ m < n, Grows (b m) {c m} (b (m + 1))) {i j : ℕ} (hij : i ≤ j)
    (hj : j ≤ n) : Grows (b i) (gained c i j) (b j) := by
  induction j, hij using Nat.le_induction with
  | base => simpa [gained] using Grows.refl (b i)
  | succ j hij ih =>
    have hprev := ih (by omega)
    have hnext := hprev.trans (hstep j (by omega))
    rwa [gained_succ hij]

/-- No key is gained twice along a chain. -/
theorem gained_ne (hstep : ∀ m < n, Grows (b m) {c m} (b (m + 1))) {i j : ℕ} (hij : i < j)
    (hj : j < n) : c i ≠ c j := by
  have hgrow := grows_of_steps hstep hij.le hj.le
  have hin : c i ∈ gained c i j := Finset.mem_image.mpr ⟨i, by simp [hij], rfl⟩
  intro heq
  exact hgrow.present _ hin (heq ▸ (hstep j hj).fresh (c j) (Finset.mem_singleton_self _))

theorem card_gained (hstep : ∀ m < n, Grows (b m) {c m} (b (m + 1))) {i j : ℕ} (hj : j ≤ n) :
    (gained c i j).card = j - i := by
  rw [gained, Finset.card_image_of_injOn, Nat.card_Ico]
  intro x hx y hy hxy
  simp only [Finset.coe_Ico, Set.mem_Ico] at hx hy
  rcases lt_trichotomy x y with hlt | heq | hlt
  · exact absurd hxy (gained_ne hstep hlt (by omega))
  · exact heq
  · exact absurd hxy.symm (gained_ne hstep hlt (by omega))

end Chain

end Growth
