import Mathlib

/-!
# Commit graphs

A finite-depth parent graph, ancestry in it, and the merge-free ranges that a
first-parent walk finds. `Graph.depth` is what makes the graph acyclic: every
walk towards the parents goes strictly down.
-/

namespace CommitGraph

/-- A parent graph with a depth that falls along every parent edge. -/
structure Graph (α : Type*) where
  parents : α → List α
  depth : α → ℕ
  parent_depth : ∀ {c p}, p ∈ parents c → depth p < depth c

namespace Graph

variable {α : Type*} (g : Graph α)

def Parent (p c : α) : Prop := p ∈ g.parents c

/-- Reflexive: every commit is an ancestor of itself, as for `merge-base --is-ancestor`. -/
def Ancestor : α → α → Prop := Relation.ReflTransGen g.Parent

def SoleParent (p c : α) : Prop := g.parents c = [p]

/-- `head` is reached from `base` by one or more commits, each with the one before as its
only parent. -/
def LinearRange : α → α → Prop := Relation.TransGen g.SoleParent

/-! ## Depth -/

theorem depth_le_of_ancestor {a d : α} (h : g.Ancestor a d) : g.depth a ≤ g.depth d := by
  induction h with
  | refl => exact le_rfl
  | tail _ hp ih => exact ih.trans (g.parent_depth hp).le

theorem ancestor_antisymm {a d : α} (h : g.Ancestor a d) (h' : g.Ancestor d a) : a = d := by
  rcases Relation.ReflTransGen.cases_tail h with heq | ⟨p, hp, hparent⟩
  · exact heq.symm
  · have hle := g.depth_le_of_ancestor hp
    have hlt := g.parent_depth hparent
    have hge := g.depth_le_of_ancestor h'
    omega

theorem depth_lt_of_sole {p c : α} (h : g.SoleParent p c) : g.depth p < g.depth c :=
  g.parent_depth (by rw [show g.parents c = [p] from h]; exact List.mem_singleton_self p)

theorem depth_lt_of_linear {a d : α} (h : g.LinearRange a d) : g.depth a < g.depth d := by
  induction h with
  | single hp => exact g.depth_lt_of_sole hp
  | tail _ hp ih => exact ih.trans (g.depth_lt_of_sole hp)

theorem ne_of_linear {a d : α} (h : g.LinearRange a d) : a ≠ d := by
  rintro rfl
  exact lt_irrefl _ (g.depth_lt_of_linear h)

theorem parent_of_sole {p c : α} (h : g.SoleParent p c) : g.Parent p c := by
  unfold Parent
  rw [show g.parents c = [p] from h]
  exact List.mem_singleton_self p

theorem ancestor_of_linear {a d : α} (h : g.LinearRange a d) : g.Ancestor a d := by
  induction h with
  | single hp => exact .single (g.parent_of_sole hp)
  | tail _ hp ih => exact ih.tail (g.parent_of_sole hp)

theorem not_ancestor_of_linear {a d : α} (h : g.LinearRange a d) : ¬ g.Ancestor d a := by
  intro hd
  exact absurd (g.depth_lt_of_linear h) (not_lt.mpr (g.depth_le_of_ancestor hd))

/-- Whatever lies below the end of a linear range lies below its start or inside the range. -/
theorem ancestor_start_or_linear {a d x : α} (h : g.LinearRange a d) (hx : g.Ancestor x d) :
    g.Ancestor x a ∨ g.LinearRange a x := by
  induction h with
  | single hp =>
    rcases Relation.ReflTransGen.cases_tail hx with rfl | ⟨q, hxq, hq⟩
    · exact .inr (.single hp)
    · rw [Parent, show g.parents _ = [_] from hp, List.mem_singleton] at hq
      exact .inl (hq ▸ hxq)
  | tail hab hp ih =>
    rcases Relation.ReflTransGen.cases_tail hx with rfl | ⟨q, hxq, hq⟩
    · exact .inr (hab.tail hp)
    · rw [Parent, show g.parents _ = [_] from hp, List.mem_singleton] at hq
      exact ih (hq ▸ hxq)

/-! ## Deciding ancestry -/

section Decide

variable [DecidableEq α]

/-- Search `n` generations down from `d`. -/
def reaches : ℕ → α → α → Bool
  | 0, a, d => a == d
  | n + 1, a, d => a == d || (g.parents d).any (reaches n a)

def isAncestor (a d : α) : Bool := g.reaches (g.depth d) a d

theorem reaches_iff (a : α) (n : ℕ) (d : α) (hn : g.depth d ≤ n) :
    g.reaches n a d = true ↔ g.Ancestor a d := by
  induction n generalizing d with
  | zero =>
    rw [reaches, beq_iff_eq]
    constructor
    · rintro rfl
      exact .refl
    · intro h
      rcases Relation.ReflTransGen.cases_tail h with heq | ⟨p, -, hp⟩
      · exact heq.symm
      · have := g.parent_depth hp
        omega
  | succ n ih =>
    rw [reaches, Bool.or_eq_true, beq_iff_eq, List.any_eq_true]
    constructor
    · rintro (rfl | ⟨p, hp, hr⟩)
      · exact .refl
      · have := g.parent_depth hp
        exact ((ih p (by omega)).mp hr).tail hp
    · intro h
      rcases Relation.ReflTransGen.cases_tail h with heq | ⟨p, hap, hp⟩
      · exact .inl heq.symm
      · have := g.parent_depth hp
        exact .inr ⟨p, hp, (ih p (by omega)).mpr hap⟩

@[simp] theorem isAncestor_iff {a d : α} : g.isAncestor a d = true ↔ g.Ancestor a d :=
  g.reaches_iff a _ d le_rfl

theorem isAncestor_eq_false {a d : α} : g.isAncestor a d = false ↔ ¬ g.Ancestor a d := by
  rw [← isAncestor_iff, Bool.not_eq_true]

/-! ## The first-parent walk -/

/-- `rev-list --first-parent base..head`, newest first, cut at `n` commits. -/
def walk : ℕ → α → α → List α
  | 0, _, _ => []
  | n + 1, base, c =>
    if g.isAncestor c base then []
    else c :: match (g.parents c).head? with
      | none => []
      | some p => walk n base p

/-- `rev-list --first-parent --reverse base..head`. -/
def revList (base head : α) : List α := (g.walk (g.depth head + 1) base head).reverse

/-- Every commit of the list has the commit before it as its only parent. -/
def contiguous : α → List α → Bool
  | _, [] => true
  | previous, c :: cs => g.parents c == [previous] && contiguous c cs

/-- The walk stops by itself, so the cut does not matter beyond the depth of its start. -/
theorem walk_cut (base : α) (n m : ℕ) (c : α) (hn : g.depth c < n) (hm : g.depth c < m) :
    g.walk n base c = g.walk m base c := by
  induction n generalizing c m with
  | zero => omega
  | succ n ih =>
    obtain ⟨m, rfl⟩ : ∃ k, m = k + 1 := ⟨m - 1, by omega⟩
    simp only [walk]
    cases hp : (g.parents c).head? with
    | none => rfl
    | some p =>
      have hlt := g.parent_depth (List.mem_of_head? hp)
      simp only [ih m p (by omega) (by omega)]

theorem contiguous_append {base : α} {cs : List α} {c d : α}
    (h : g.contiguous base (cs ++ [c]) = true) (hd : g.SoleParent c d) :
    g.contiguous base (cs ++ [c] ++ [d]) = true := by
  induction cs generalizing base with
  | nil =>
    simp only [List.nil_append, contiguous, Bool.and_true, beq_iff_eq, List.cons_append,
      Bool.and_eq_true] at h ⊢
    exact ⟨h, hd⟩
  | cons x cs ih =>
    simp only [List.cons_append, contiguous, Bool.and_eq_true] at h ⊢
    exact ⟨h.1, ih h.2⟩

theorem linear_of_contiguous {base : α} {cs : List α} {head : α}
    (h : g.contiguous base cs = true) (hlast : cs.getLast? = some head) :
    g.LinearRange base head := by
  induction cs generalizing base with
  | nil => simp at hlast
  | cons c cs ih =>
    simp only [contiguous, Bool.and_eq_true, beq_iff_eq] at h
    cases cs with
    | nil =>
      obtain rfl : c = head := by simpa using hlast
      exact .single h.1
    | cons d ds => exact .head h.1 (ih h.2 (by simpa using hlast))

/-- The walk above the start of a linear range lists exactly the range. -/
theorem revList_of_linear {base head : α} (h : g.LinearRange base head) :
    ∃ cs, g.revList base head = cs ++ [head] ∧ g.contiguous base (cs ++ [head]) = true := by
  induction h with
  | @single c hp =>
    refine ⟨[], ?_, ?_⟩
    · have hna : g.isAncestor c base = false :=
        g.isAncestor_eq_false.mpr (g.not_ancestor_of_linear (.single hp))
      have hlt := g.depth_lt_of_sole hp
      obtain ⟨n, hn⟩ : ∃ n, g.depth c = n + 1 := ⟨g.depth c - 1, by omega⟩
      have hself : g.isAncestor base base = true := g.isAncestor_iff.mpr .refl
      rw [revList, hn]
      simp only [walk, hna, show g.parents c = [base] from hp, List.head?_cons, hself]
      simp
    · rw [List.nil_append, contiguous, contiguous, Bool.and_true, beq_iff_eq]
      exact hp
  | @tail b c hab hp ih =>
    obtain ⟨cs, hcs, hcont⟩ := ih
    refine ⟨cs ++ [b], ?_, g.contiguous_append hcont hp⟩
    have hna : g.isAncestor c base = false :=
      g.isAncestor_eq_false.mpr (g.not_ancestor_of_linear (hab.tail hp))
    have hlt := g.depth_lt_of_sole hp
    have hcut : g.walk (g.depth c) base b = g.walk (g.depth b + 1) base b :=
      g.walk_cut base _ _ b hlt (by omega)
    rw [revList, walk]
    simp only [hna, show g.parents c = [b] from hp, List.head?_cons, hcut]
    rw [← hcs, revList]
    simp

end Decide

end Graph

end CommitGraph
