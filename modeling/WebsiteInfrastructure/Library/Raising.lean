import Mathlib

/-!
# Raising code

What a successful run of a sequence of raising steps establishes about each step.
-/

namespace Raising

universe u

variable {ε : Type u} {α β : Type}

/-- `if bad: raise error`. -/
def raiseIf (bad : Prop) [Decidable bad] (error : ε) : Except ε Unit :=
  if bad then .error error else .ok ()

@[simp] theorem raiseIf_eq_ok {bad : Prop} [Decidable bad] {error : ε} {u : Unit} :
    raiseIf bad error = .ok u ↔ ¬ bad := by
  unfold raiseIf
  split <;> simp_all

theorem raiseIf_pos {bad : Prop} [Decidable bad] {error : ε} (h : bad) :
    raiseIf bad error = .error error := if_pos h

theorem raiseIf_neg {bad : Prop} [Decidable bad] {error : ε} (h : ¬ bad) :
    raiseIf bad error = .ok () := if_neg h

/-- A sequence succeeds exactly when each step succeeds in turn. -/
@[simp] theorem bind_eq_ok {x : Except ε α} {f : α → Except ε β} {b : β} :
    (x >>= f) = .ok b ↔ ∃ a, x = .ok a ∧ f a = .ok b := by
  cases x <;> simp [bind, Except.bind]

@[simp] theorem ok_bind {a : α} {f : α → Except ε β} : (Except.ok a >>= f) = f a := rfl

@[simp] theorem error_bind {e : ε} {f : α → Except ε β} :
    ((Except.error e : Except ε α) >>= f) = .error e := rfl

/-- A sequence that starts with a check goes on exactly when the check does not fire. -/
@[simp] theorem raiseIf_bind_eq_ok {bad : Prop} [Decidable bad] {error : ε}
    {f : Unit → Except ε β} {b : β} :
    (raiseIf bad error >>= f) = .ok b ↔ ¬ bad ∧ f () = .ok b := by
  unfold raiseIf
  split <;> simp_all

/-- A sequence fails where its first step does, or where the rest does behind it. -/
theorem bind_eq_error {x : Except ε α} {f : α → Except ε β} {e : ε} :
    (x >>= f) = .error e ↔ x = .error e ∨ ∃ a, x = .ok a ∧ f a = .error e := by
  cases x <;> simp [bind, Except.bind]

theorem raiseIf_eq_error {bad : Prop} [Decidable bad] {error e : ε} :
    raiseIf bad error = .error e ↔ bad ∧ error = e := by
  unfold raiseIf
  split <;> simp_all

/-- `if condition: x`, for a step without a result. -/
def doIf (condition : Prop) [Decidable condition] (x : Except ε Unit) : Except ε Unit :=
  if condition then x else .ok ()

@[simp] theorem doIf_eq_ok {condition : Prop} [Decidable condition] {x : Except ε Unit} {u : Unit} :
    doIf condition x = .ok u ↔ (condition → x = .ok ()) := by
  unfold doIf
  split <;> simp_all

/-! ## Conditions that may raise -/

/-- `if a or b or ...: raise error`, where evaluating a condition may itself raise. -/
def raiseIfAny : List (Except ε Bool) → ε → Except ε Unit
  | [], _ => .ok ()
  | condition :: conditions, error => do
    let holds ← condition
    raiseIf (holds = true) error
    raiseIfAny conditions error

@[simp] theorem raiseIfAny_eq_ok {conditions : List (Except ε Bool)} {error : ε} {u : Unit} :
    raiseIfAny conditions error = .ok u ↔ ∀ c ∈ conditions, c = .ok false := by
  induction conditions with
  | nil => simp [raiseIfAny]
  | cons c cs ih =>
    rw [raiseIfAny, bind_eq_ok]
    simp [ih]

/-! ## Loops -/

section Loops

variable {f : α → Except ε β}

/-- A loop whose body returns nothing. -/
def each (f : α → Except ε Unit) : List α → Except ε Unit
  | [] => .ok ()
  | x :: xs => do
    f x
    each f xs

@[simp] theorem each_eq_ok {f : α → Except ε Unit} {xs : List α} {u : Unit} :
    each f xs = .ok u ↔ ∀ x ∈ xs, f x = .ok () := by
  induction xs with
  | nil => simp [each]
  | cons x xs ih =>
    rw [each, bind_eq_ok, List.forall_mem_cons]
    constructor
    · rintro ⟨_, hx, hxs⟩
      exact ⟨hx, ih.mp hxs⟩
    · rintro ⟨hx, hxs⟩
      exact ⟨(), hx, ih.mpr hxs⟩

/-- A loop fails at the first item that its body fails at. -/
theorem each_eq_error {f : α → Except ε Unit} {xs : List α} {e : ε} :
    each f xs = .error e ↔ ∃ before x after, xs = before ++ x :: after ∧
      (∀ y ∈ before, f y = .ok ()) ∧ f x = .error e := by
  induction xs with
  | nil => simp [each]
  | cons x xs ih =>
    rw [each, bind_eq_error]
    constructor
    · rintro (hx | ⟨_, hx, hxs⟩)
      · exact ⟨[], x, xs, rfl, by simp, hx⟩
      · obtain ⟨before, y, after, rfl, hbefore, hy⟩ := ih.mp hxs
        exact ⟨x :: before, y, after, rfl, List.forall_mem_cons.mpr ⟨hx, hbefore⟩, hy⟩
    · rintro ⟨before, y, after, hsplit, hbefore, hy⟩
      cases before with
      | nil =>
        obtain ⟨rfl, -⟩ := List.cons.inj hsplit
        exact .inl hy
      | cons z before =>
        obtain ⟨rfl, rfl⟩ := List.cons.inj hsplit
        rw [List.forall_mem_cons] at hbefore
        exact .inr ⟨(), hbefore.1, ih.mpr ⟨before, y, after, rfl, hbefore.2, hy⟩⟩

/-- A loop that carries a state. -/
def carry {σ : Type} (f : σ → α → Except ε σ) : σ → List α → Except ε σ
  | s, [] => .ok s
  | s, x :: xs => do
    let s ← f s x
    carry f s xs

theorem carry_invariant_from {σ : Type} {f : σ → α → Except ε σ} {inv : List α → σ → Prop}
    (hstep : ∀ seen s x t, inv seen s → f s x = .ok t → inv (seen ++ [x]) t) {seen xs : List α}
    {s t : σ} (hs : inv seen s) (h : carry f s xs = .ok t) : inv (seen ++ xs) t := by
  induction xs generalizing seen s with
  | nil =>
    obtain rfl : s = t := Except.ok.inj h
    simpa using hs
  | cons x xs ih =>
    obtain ⟨u, hu, hrest⟩ := bind_eq_ok.mp h
    have hnext := ih (hstep seen s x u hs hu) hrest
    simpa using hnext

/-- An invariant of every step, over the items taken so far. -/
theorem carry_invariant {σ : Type} {f : σ → α → Except ε σ} (inv : List α → σ → Prop)
    (hstep : ∀ seen s x t, inv seen s → f s x = .ok t → inv (seen ++ [x]) t) {xs : List α}
    {s t : σ} (hs : inv [] s) (h : carry f s xs = .ok t) : inv xs t :=
  carry_invariant_from hstep hs h

/-- A loop that succeeds has taken every item. -/
theorem carry_forall {σ : Type} {f : σ → α → Except ε σ} {xs : List α} {s t : σ}
    (h : carry f s xs = .ok t) : ∀ x ∈ xs, ∃ u v, f u x = .ok v := by
  apply carry_invariant (fun seen _ => ∀ x ∈ seen, ∃ u v, f u x = .ok v) _ (by simp) h
  intro seen u x v hseen hx
  exact List.forall_mem_append.mpr ⟨hseen, List.forall_mem_singleton.mpr ⟨u, v, hx⟩⟩

/-- A loop whose steps succeed or not whatever the state succeeds when every step does. -/
theorem carry_returns {σ : Type} {f : σ → α → Except ε σ} {p : α → Prop}
    (h : ∀ s x, (∃ t, f s x = .ok t) ↔ p x) (s : σ) (xs : List α) :
    (∃ t, carry f s xs = .ok t) ↔ ∀ x ∈ xs, p x := by
  induction xs generalizing s with
  | nil => simp [carry]
  | cons x xs ih =>
    rw [List.forall_mem_cons, ← h s x]
    simp only [carry, bind_eq_ok]
    constructor
    · rintro ⟨t, u, hu, ht⟩
      exact ⟨⟨u, hu⟩, (ih u).mp ⟨t, ht⟩⟩
    · rintro ⟨⟨u, hu⟩, hrest⟩
      obtain ⟨t, ht⟩ := (ih u).mpr hrest
      exact ⟨t, u, hu, ht⟩

/-- A loop that collects one result an item. -/
def collect (f : α → Except ε β) : List α → Except ε (List β)
  | [] => .ok []
  | x :: xs => do
    let y ← f x
    let ys ← collect f xs
    .ok (y :: ys)

theorem collect_eq_ok {xs : List α} {ys : List β} :
    collect f xs = .ok ys ↔ List.Forall₂ (fun x y => f x = .ok y) xs ys := by
  induction xs generalizing ys with
  | nil =>
    rw [collect, List.forall₂_nil_left_iff, Except.ok.injEq]
    exact eq_comm
  | cons x xs ih =>
    simp only [collect, bind_eq_ok, ih, Except.ok.injEq]
    constructor
    · rintro ⟨y, hy, zs, hzs, rfl⟩
      exact .cons hy hzs
    · intro h
      cases h with
      | cons hy hzs => exact ⟨_, hy, _, hzs, rfl⟩

/-- Every item of a loop that succeeds has its result. -/
theorem mem_of_collect {xs : List α} {ys : List β} (h : collect f xs = .ok ys) :
    ∀ x ∈ xs, ∃ y ∈ ys, f x = .ok y := by
  intro x hx
  induction collect_eq_ok.mp h with
  | nil => cases hx
  | cons hy hrest ih =>
    rcases List.mem_cons.mp hx with rfl | hx
    · exact ⟨_, .head _, hy⟩
    · obtain ⟨y, hmem, hfx⟩ := ih (collect_eq_ok.mpr hrest) hx
      exact ⟨y, .tail _ hmem, hfx⟩

/-- When each item either passes a test and gives a fixed result or raises, so does the loop. -/
theorem collect_eq_ok_iff {test : α → Prop} {g : α → β}
    (h : ∀ x y, f x = .ok y ↔ test x ∧ g x = y) {xs : List α} {ys : List β} :
    collect f xs = .ok ys ↔ (∀ x ∈ xs, test x) ∧ xs.map g = ys := by
  rw [collect_eq_ok]
  simp only [h]
  rw [List.forall₂_and_left, ← List.forall₂_eq_eq_eq, List.forall₂_map_left_iff]

/-- A loop that collects succeeds on exactly the lists on which every item does, whatever
their order. -/
theorem collect_perm {xs xs' : List α} {ys : List β} (h : collect f xs = .ok ys)
    (hp : xs'.Perm xs) : ∃ ys', collect f xs' = .ok ys' ∧ ys'.Perm ys := by
  rw [collect_eq_ok] at h
  obtain ⟨ys', hys', hperm⟩ := List.perm_comp_forall₂ hp h
  exact ⟨ys', collect_eq_ok.mpr hys', hperm⟩

end Loops

/-! ## What a failure can be -/

section Raises

variable {p : ε → Prop} {x : Except ε α} {f : α → Except ε β}

/-- Every failure of `x` satisfies `p`. -/
def Raises (p : ε → Prop) (x : Except ε α) : Prop := ∀ e, x = .error e → p e

@[simp] theorem raises_ok {a : α} : Raises p (.ok a : Except ε α) := by
  intro e h
  simp at h

@[simp] theorem raises_error {e : ε} : Raises p (.error e : Except ε α) ↔ p e := by
  constructor
  · exact fun h => h e rfl
  · rintro h e' heq
    rwa [← Except.error.inj heq]

theorem Raises.bind (hx : Raises p x) (hf : ∀ a, x = .ok a → Raises p (f a)) :
    Raises p (x >>= f) := by
  cases x with
  | error e => exact raises_error.mpr (raises_error.mp hx)
  | ok a => exact hf a rfl

theorem raises_raiseIf {bad : Prop} [Decidable bad] {error : ε} (h : p error) :
    Raises p (raiseIf bad error) := by
  unfold raiseIf
  split <;> simp [h]

theorem Raises.collect (h : ∀ a, Raises p (f a)) (xs : List α) : Raises p (collect f xs) := by
  induction xs with
  | nil => exact raises_ok
  | cons x xs ih => exact (h x).bind fun _ _ => ih.bind fun _ _ => raises_ok

end Raises

end Raising
