import Mathlib
import WebsiteInfrastructure.Library.CommitGraph

/-!
# Ranges of a commit graph

`rev-list --reverse --topo-order base..head`: the ancestors of `head` that are no ancestors of
`base`, parents first and each once, whatever merges lie between.
-/

namespace CommitGraph.Graph

variable {α : Type*} (g : Graph α)

section Listing

variable [DecidableEq α]

/-- Append `c` after its unseen ancestors outside `base`; the first argument bounds the depth. -/
def visit (base : α) : ℕ → α → List α → List α
  | 0, c, seen => if g.isAncestor c base || seen.contains c then seen else seen ++ [c]
  | n + 1, c, seen =>
    if g.isAncestor c base || seen.contains c then seen
    else (g.parents c).foldl (fun seen p => visit base n p seen) seen ++ [c]

def outgoing (base head : α) : List α := g.visit base (g.depth head) head []

/-- All commits up to a number of generations below `c`. -/
def lineage : ℕ → α → List α
  | 0, c => [c]
  | n + 1, c => c :: (g.parents c).flatMap (lineage n)

/-- `merge-base` finds a common ancestor. -/
def related (a b : α) : Bool := (g.lineage (g.depth b) b).any (g.isAncestor · a)

end Listing

/-- Every parent of a listed commit is listed or lies below the base. -/
def ParentClosed (base : α) (cs : List α) : Prop :=
  ∀ c ∈ cs, ∀ p ∈ g.parents c, p ∈ cs ∨ g.Ancestor p base

/-- What listing below some commits adds to the list. -/
structure Extends (base : α) (below : α → Prop) (seen result : List α) : Prop where
  subset : ∀ c ∈ seen, c ∈ result
  added : ∀ c ∈ result, c ∈ seen ∨ below c ∧ ¬ g.Ancestor c base
  closed : g.ParentClosed base seen → g.ParentClosed base result
  nodup : seen.Nodup → result.Nodup

variable {g} {base : α}

theorem Extends.refl {below : α → Prop} (seen : List α) : g.Extends base below seen seen :=
  ⟨fun _ h => h, fun _ h => .inl h, id, id⟩

theorem Extends.trans {below : α → Prop} {a b c : List α} (hab : g.Extends base below a b)
    (hbc : g.Extends base below b c) : g.Extends base below a c where
  subset x hx := hbc.subset x (hab.subset x hx)
  added x hx := (hbc.added x hx).elim (hab.added x) .inr
  closed h := hbc.closed (hab.closed h)
  nodup h := hbc.nodup (hab.nodup h)

theorem Extends.mono {below below' : α → Prop} {a b : List α} (h : g.Extends base below a b)
    (hle : ∀ x, below x → below' x) : g.Extends base below' a b :=
  ⟨h.subset, fun x hx => (h.added x hx).imp_right fun hx => ⟨hle x hx.1, hx.2⟩, h.closed, h.nodup⟩

theorem extends_append {below : α → Prop} {seen listed : List α} {c : α}
    (h : g.Extends base below seen listed) (hc : below c) (hbase : ¬ g.Ancestor c base)
    (hparents : ∀ p ∈ g.parents c, p ∈ listed ∨ g.Ancestor p base) (hnew : c ∉ listed) :
    g.Extends base below seen (listed ++ [c]) where
  subset x hx := List.mem_append_left _ (h.subset x hx)
  added x hx := by
    rcases List.mem_append.mp hx with hx | hx
    · exact h.added x hx
    · exact .inr (List.mem_singleton.mp hx ▸ ⟨hc, hbase⟩)
  closed hseen := by
    intro x hx p hp
    have hin : p ∈ listed ∨ g.Ancestor p base := by
      rcases List.mem_append.mp hx with hx | hx
      · exact h.closed hseen x hx p hp
      · exact hparents p (List.mem_singleton.mp hx ▸ hp)
    exact hin.imp_left (List.mem_append_left _)
  nodup hseen := by
    rw [List.nodup_append]
    refine ⟨h.nodup hseen, List.nodup_singleton c, fun x hx y hy => ?_⟩
    rintro rfl
    exact hnew (List.mem_singleton.mp hy ▸ hx)

variable [DecidableEq α]

/-- Listing the parents one after the other, given what listing below one of them does. -/
theorem foldl_visit {n : ℕ} {below : α → Prop} {ps : List α} (seen : List α)
    (hvisit : ∀ p ∈ ps, ∀ seen, g.Extends base below seen (g.visit base n p seen) ∧
      (p ∈ g.visit base n p seen ∨ g.Ancestor p base)) :
    g.Extends base below seen (ps.foldl (fun seen p => g.visit base n p seen) seen) ∧
      ∀ p ∈ ps, p ∈ ps.foldl (fun seen p => g.visit base n p seen) seen ∨ g.Ancestor p base := by
  induction ps generalizing seen with
  | nil => exact ⟨.refl seen, by simp⟩
  | cons q ps ih =>
    rw [List.foldl_cons]
    obtain ⟨hq, hmem⟩ := hvisit q (by simp) seen
    obtain ⟨hps, hall⟩ := ih (g.visit base n q seen) fun p hp => hvisit p (List.mem_cons_of_mem _ hp)
    refine ⟨hq.trans hps, fun p hp => ?_⟩
    rcases List.mem_cons.mp hp with rfl | hp
    · exact hmem.imp_left (hps.subset p)
    · exact hall p hp

theorem visit_extends {n : ℕ} {c : α} (seen : List α) (hn : g.depth c ≤ n) :
    g.Extends base (g.Ancestor · c) seen (g.visit base n c seen) ∧
      (c ∈ g.visit base n c seen ∨ g.Ancestor c base) := by
  induction n generalizing c seen with
  | zero =>
    rw [visit]
    split_ifs with hskip
    · rw [Bool.or_eq_true, isAncestor_iff, List.contains_iff_mem] at hskip
      exact ⟨.refl seen, hskip.symm⟩
    · rw [Bool.or_eq_true, isAncestor_iff, List.contains_iff_mem, not_or] at hskip
      refine ⟨extends_append (.refl seen) .refl hskip.1 (fun p hp => ?_) hskip.2, .inl (by simp)⟩
      have := g.parent_depth hp
      omega
  | succ n ih =>
    rw [visit]
    split_ifs with hskip
    · rw [Bool.or_eq_true, isAncestor_iff, List.contains_iff_mem] at hskip
      exact ⟨.refl seen, hskip.symm⟩
    · rw [Bool.or_eq_true, isAncestor_iff, List.contains_iff_mem, not_or] at hskip
      -- below a parent every commit is strictly less deep than `c`
      have hbelow : ∀ p ∈ g.parents c, ∀ seen,
          g.Extends base (fun x => g.Ancestor x c ∧ g.depth x < g.depth c) seen
            (g.visit base n p seen) ∧ (p ∈ g.visit base n p seen ∨ g.Ancestor p base) := by
        intro p hp seen
        have hlt := g.parent_depth hp
        obtain ⟨hp', hmem⟩ := ih (c := p) seen (by omega)
        refine ⟨hp'.mono fun x hx => ⟨hx.tail hp, ?_⟩, hmem⟩
        exact (g.depth_le_of_ancestor hx).trans_lt hlt
      obtain ⟨hfold, hall⟩ := foldl_visit seen hbelow
      have hnew : c ∉ (g.parents c).foldl (fun seen p => g.visit base n p seen) seen := fun hmem =>
        (hfold.added c hmem).elim hskip.2 fun h => lt_irrefl _ h.1.2
      exact ⟨extends_append (hfold.mono fun x hx => hx.1) .refl hskip.1 hall hnew, .inl (by simp)⟩

theorem nodup_outgoing (base head : α) : (g.outgoing base head).Nodup :=
  (visit_extends [] le_rfl).1.nodup List.nodup_nil

/-- The range holds exactly the ancestors of the head that are not below the base. -/
theorem mem_outgoing {base head c : α} :
    c ∈ g.outgoing base head ↔ g.Ancestor c head ∧ ¬ g.Ancestor c base := by
  have hvisit : g.Extends base (g.Ancestor · head) [] (g.outgoing base head) ∧
      (head ∈ g.outgoing base head ∨ g.Ancestor head base) := visit_extends [] le_rfl
  obtain ⟨hext, hhead⟩ := hvisit
  have hclosed : g.ParentClosed base (g.outgoing base head) := hext.closed (by simp [ParentClosed])
  constructor
  · intro h
    exact (hext.added c h).resolve_left (by simp)
  · rintro ⟨hanc, hbase⟩
    induction hanc using Relation.ReflTransGen.head_induction_on with
    | refl => exact hhead.resolve_right hbase
    | head hparent _ ih =>
      have hchild := ih fun h => hbase (.head hparent h)
      exact (hclosed _ hchild _ hparent).resolve_right hbase

theorem getLast_outgoing {base head : α} (h : ¬ g.Ancestor head base) :
    (g.outgoing base head).getLast? = some head := by
  have hfalse : g.isAncestor head base = false := g.isAncestor_eq_false.mpr h
  rw [outgoing]
  cases g.depth head <;> simp [visit, hfalse]

theorem mem_lineage {n : ℕ} {a c : α} (hn : g.depth c ≤ n) : a ∈ g.lineage n c ↔ g.Ancestor a c := by
  rw [← g.reaches_iff a n c hn]
  induction n generalizing c with
  | zero => simp [lineage, reaches]
  | succ n ih =>
    simp only [lineage, reaches, List.mem_cons, List.mem_flatMap, Bool.or_eq_true, beq_iff_eq,
      List.any_eq_true]
    refine or_congr_right (exists_congr fun p => and_congr_right fun hp => ih ?_)
    have := g.parent_depth hp
    omega

theorem related_iff {a b : α} :
    g.related a b = true ↔ ∃ c, g.Ancestor c a ∧ g.Ancestor c b := by
  simp only [related, List.any_eq_true, mem_lineage le_rfl, isAncestor_iff, and_comm]

end CommitGraph.Graph
