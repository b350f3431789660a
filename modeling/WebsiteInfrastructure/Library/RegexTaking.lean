import Mathlib
import WebsiteInfrastructure.Library.RegexMatches

/-!
# What patterns can take, and what they take first

A pattern that does not look back takes a text wherever the text stands. A star of characters tries
all of them first, a lazy one none of them.
-/

namespace Regex

namespace Pattern

/-! ## What can be taken -/

/-- Before `rest` the pattern can take `taken`. -/
def Takes (r : Pattern) (taken rest : List Char) : Prop :=
  ∀ c : Cursor, c.rest = taken ++ rest → ∃ d ∈ r.ends c, d.rest = rest

theorem takes_nil (rest : List Char) : (all []).Takes [] rest :=
  fun c hc => ⟨c, List.mem_singleton_self _, hc⟩

theorem Takes.cons {r : Pattern} {rs : List Pattern} {a b rest : List Char}
    (hr : r.Takes a (b ++ rest)) (hrs : (all rs).Takes b rest) :
    (all (r :: rs)).Takes (a ++ b) rest := by
  intro c hc
  obtain ⟨e, he, hrest⟩ := hr c (by rw [hc, List.append_assoc])
  obtain ⟨d, hd, hleft⟩ := hrs e hrest
  exact ⟨d, mem_all_cons.mpr ⟨e, he, hd⟩, hleft⟩

theorem takes_char {p : Char → Bool} {x : Char} (hx : p x = true) (rest : List Char) :
    (char p).Takes [x] rest :=
  fun c hc => ⟨⟨some x, rest, c.groups⟩, mem_char.mpr ⟨x, rest, hc, hx, rfl⟩, rfl⟩

theorem Takes.alt_left {a b : Pattern} {taken rest : List Char} (h : a.Takes taken rest) :
    (alt a b).Takes taken rest := by
  intro c hc
  obtain ⟨d, hd, hrest⟩ := h c hc
  exact ⟨d, mem_alt.mpr (.inl hd), hrest⟩

theorem Takes.alt_right {a b : Pattern} {taken rest : List Char} (h : b.Takes taken rest) :
    (alt a b).Takes taken rest := by
  intro c hc
  obtain ⟨d, hd, hrest⟩ := h c hc
  exact ⟨d, mem_alt.mpr (.inr hd), hrest⟩

theorem takes_star {p : Char → Bool} {taken : List Char} (h : ∀ x ∈ taken, p x = true)
    (rest : List Char) : (star (char p)).Takes taken rest := by
  intro c hc
  induction taken generalizing c with
  | nil => exact ⟨c, mem_star.mpr .refl, hc⟩
  | cons x taken ih =>
    rw [List.forall_mem_cons] at h
    have hfirst : (⟨some x, taken ++ rest, c.groups⟩ : Cursor) ∈ (char p).ends c :=
      mem_char.mpr ⟨x, taken ++ rest, hc, h.1, rfl⟩
    obtain ⟨d, hd, hrest⟩ := ih h.2 ⟨some x, taken ++ rest, c.groups⟩ rfl
    have hround : Round (char p).ends c ⟨some x, taken ++ rest, c.groups⟩ := by
      refine ⟨hfirst, ?_⟩
      simp [hc]
    exact ⟨d, mem_star.mpr (.head hround (mem_star.mp hd)), hrest⟩

theorem takes_chars (xs rest : List Char) :
    (all (xs.map fun x => char (· = x))).Takes xs rest := by
  induction xs with
  | nil => exact takes_nil rest
  | cons x xs ih => exact (takes_char (decide_eq_true rfl) _).cons ih

theorem takes_lit (text : String) (rest : List Char) : (lit text).Takes text.toList rest :=
  takes_chars _ _

theorem takes_opt_none (r : Pattern) (rest : List Char) : (opt r).Takes [] rest :=
  fun c hc => ⟨c, mem_alt.mpr (.inr (List.mem_singleton_self _)), hc⟩

/-! ## Sequences -/

theorem ends_all_append (rs ss : List Pattern) (c : Cursor) :
    (all (rs ++ ss)).ends c = ((all rs).ends c).flatMap (all ss).ends := by
  induction rs generalizing c with
  | nil =>
    change _ = [c].flatMap (all ss).ends
    rw [List.flatMap_singleton, List.nil_append]
  | cons r rs ih =>
    change (r.ends c).flatMap (all (rs ++ ss)).ends =
      ((r.ends c).flatMap (all rs).ends).flatMap (all ss).ends
    rw [List.flatMap_assoc, ← funext ih]

theorem mem_all_append {rs ss : List Pattern} {c d : Cursor} :
    d ∈ (all (rs ++ ss)).ends c ↔ ∃ e, e ∈ (all rs).ends c ∧ d ∈ (all ss).ends e := by
  rw [ends_all_append, List.mem_flatMap]

/-- Where all ways through the first part lead to one place, the match goes on there. -/
theorem head_ends_all_append {rs ss : List Pattern} {c e : Cursor}
    (hone : ∀ d ∈ (all rs).ends c, d = e) (hne : (all rs).ends c ≠ []) :
    ((all (rs ++ ss)).ends c).head? = ((all ss).ends e).head? := by
  rw [ends_all_append]
  generalize (all rs).ends c = ds at hone hne
  induction ds with
  | nil => exact absurd rfl hne
  | cons d ds ih =>
    rw [List.forall_mem_cons] at hone
    rw [List.flatMap_cons, hone.1, List.head?_append]
    cases hhead : ((all ss).ends e).head? with
    | some f => rfl
    | none =>
      rw [Option.none_or]
      cases ds with
      | nil => rfl
      | cons d' ds => rw [ih hone.2 (List.cons_ne_nil _ _), hhead]

/-! ## Searches -/

/-- A search finds a match somewhere behind its start. -/
theorem searchFrom_behind {r : Pattern} {n : ℕ} {c : Cursor} {m : Match}
    (h : r.searchFrom n c = some m) : ∃ a, c.rest = a ++ m.start.rest ∧
      m.start.before = a.getLast?.or c.before ∧ m.stop ∈ r.ends { m.start with groups := [] } := by
  have hhere : ∀ {c : Cursor}, r.matchAt c = some m → ∃ a, c.rest = a ++ m.start.rest ∧
      m.start.before = a.getLast?.or c.before ∧
        m.stop ∈ r.ends { m.start with groups := [] } := by
    intro c h
    obtain ⟨d, hd, rfl⟩ := Option.map_eq_some_iff.mp h
    exact ⟨[], rfl, rfl, List.mem_of_head? hd⟩
  induction n generalizing c with
  | zero => exact hhere h
  | succ n ih =>
    rcases Option.or_eq_some_iff.mp h with h | ⟨-, h⟩
    · exact hhere h
    · obtain ⟨a, hrest, hbefore, hstop⟩ := ih h
      rw [Cursor.next] at hrest hbefore
      cases hcons : c.rest with
      | nil =>
        rw [hcons] at hrest hbefore
        exact ⟨a, hcons ▸ hrest, hbefore, hstop⟩
      | cons x xs =>
        rw [hcons] at hrest hbefore
        refine ⟨x :: a, ?_, ?_, hstop⟩
        · rw [List.cons_append]
          exact congrArg _ hrest
        · rw [hbefore, List.getLast?_cons]
          cases a.getLast? <;> rfl

/-! ## What is taken first -/

/-- A star of characters first takes all of them. -/
theorem head_ends_star {p : Char → Bool} (c : Cursor) :
    ∃ first others, (star (char p)).ends c = first :: others ∧
      first.rest = c.rest.dropWhile p ∧ first.groups = c.groups := by
  have hrounds : ∀ n (c : Cursor), c.rest.length ≤ n → ∃ first others,
      rounds (char p).ends n c = first :: others ∧
        first.rest = c.rest.dropWhile p ∧ first.groups = c.groups := by
    intro n
    induction n with
    | zero =>
      intro c hn
      have hrest : c.rest = [] := List.length_eq_zero_iff.mp (Nat.le_zero.mp hn)
      exact ⟨c, [], rfl, by rw [hrest]; rfl, rfl⟩
    | succ n ih =>
      intro c hn
      rw [rounds, ends]
      cases hrest : c.rest with
      | nil => exact ⟨c, [], rfl, hrest, rfl⟩
      | cons x xs =>
        cases hx : p x with
        | false => exact ⟨c, [], by simp [hx], by simp [hrest, hx], rfl⟩
        | true =>
          have hnext : c.next = ⟨some x, xs, c.groups⟩ := by rw [Cursor.next, hrest]
          rw [hrest, List.length_cons] at hn
          obtain ⟨first, others, hfirst, htaken, hgroups⟩ :=
            ih ⟨some x, xs, c.groups⟩ (Nat.le_of_succ_le_succ hn)
          refine ⟨first, others ++ [c], ?_, ?_, hgroups⟩
          · simp [hx, hnext, hfirst]
          · rw [htaken, List.dropWhile_cons_of_pos hx]
  exact hrounds _ c le_rfl

/-- If the match can go on behind all the characters of a star, it does. -/
theorem head_star_all {p : Char → Bool} (rs : List Pattern) {c : Cursor}
    (h : ∀ e : Cursor, e.rest = c.rest.dropWhile p → e.groups = c.groups → (all rs).ends e ≠ []) :
    ∃ e, e.rest = c.rest.dropWhile p ∧ e.groups = c.groups ∧
      ((all (star (char p) :: rs)).ends c).head? = ((all rs).ends e).head? := by
  obtain ⟨first, others, hfirst, hrest, hgroups⟩ := head_ends_star (p := p) c
  refine ⟨first, hrest, hgroups, ?_⟩
  change (((star (char p)).ends c).flatMap (all rs).ends).head? = _
  rw [hfirst, List.flatMap_cons, List.head?_append]
  cases hends : (all rs).ends first with
  | nil => exact absurd hends (h first hrest hgroups)
  | cons d ds => rfl

/-- The shortest beginning behind which a condition holds. -/
def shortest (stops : List Char → Bool) : List Char → List Char
  | [] => []
  | x :: xs => if stops (x :: xs) then [] else x :: shortest stops xs

/-- A lazy star of characters in a group takes the shortest text behind which the match can go on. -/
theorem head_group_lazy {p : Char → Bool} {stops : List Char → Bool} {name : String}
    {rs : List Pattern} {c : Cursor} (hp : ∀ x ∈ c.rest, p x = true) (hgroups : c.groups = [])
    (hend : stops [] = true)
    (hstops : ∀ e : Cursor, e.rest <:+ c.rest →
      if stops e.rest then ∃ d, ((all rs).ends e).head? = some d ∧ d.groups = e.groups
      else (all rs).ends e = []) :
    ∃ d, ((all (group name (lazy (char p)) :: rs)).ends c).head? = some d ∧
      d.groups = [(name, shortest stops c.rest)] := by
  have hrounds : ∀ n (e : Cursor) (taken : List Char), e.rest.length ≤ n → c.rest = taken ++ e.rest →
      e.groups = [] → ∃ d, ((lazyRounds (char p).ends n e).flatMap fun e =>
          (all rs).ends { e with groups := (name, c.upTo e) :: e.groups }).head? = some d ∧
        d.groups = [(name, taken ++ shortest stops e.rest)] := by
    intro n
    induction n with
    | zero =>
      intro e taken hn htaken hnone
      have hrest : e.rest = [] := List.length_eq_zero_iff.mp (Nat.le_zero.mp hn)
      have hplace := hstops { e with groups := [(name, taken)] } ⟨taken, htaken.symm⟩
      simp only [hrest, hend, if_true] at hplace
      obtain ⟨d, hd, hdgroups⟩ := hplace
      refine ⟨d, ?_, ?_⟩
      · rw [lazyRounds, List.flatMap_singleton, Cursor.upTo_eq htaken, hnone, hrest]
        exact hd
      · rw [hdgroups, hrest, shortest, List.append_nil]
    | succ n ih =>
      intro e taken hn htaken hnone
      have hplace := hstops { e with groups := [(name, taken)] } ⟨taken, htaken.symm⟩
      rw [lazyRounds, List.flatMap_cons, Cursor.upTo_eq htaken, hnone, List.head?_append]
      cases hstop : stops e.rest with
      | true =>
        simp only [hstop, if_true] at hplace
        obtain ⟨d, hd, hdgroups⟩ := hplace
        refine ⟨d, by rw [hd, Option.some_or], ?_⟩
        rw [hdgroups]
        cases hrest : e.rest with
        | nil => rw [shortest, List.append_nil]
        | cons x xs => rw [shortest, ← hrest, if_pos hstop, List.append_nil]
      | false =>
        simp only [hstop, Bool.false_eq_true, if_false] at hplace
        rw [hplace, List.head?_nil, Option.none_or]
        cases hrest : e.rest with
        | nil =>
          rw [hrest, hend] at hstop
          cases hstop
        | cons x xs =>
          have hx : p x = true := hp x (by rw [htaken, hrest]; simp)
          have hnext : e.next = ⟨some x, xs, []⟩ := by rw [Cursor.next, hrest, hnone]
          have hlonger : c.rest = (taken ++ [x]) ++ xs := by rw [htaken, hrest]; simp
          rw [hrest, List.length_cons] at hn
          obtain ⟨d, hd, hdgroups⟩ :=
            ih ⟨some x, xs, []⟩ (taken ++ [x]) (Nat.le_of_succ_le_succ hn) hlonger rfl
          refine ⟨d, ?_, ?_⟩
          · rw [ends, hrest, List.head?_cons, Option.any_some, if_pos hx, hnext]
            rw [List.filter_cons_of_pos (by simp), List.filter_nil, List.flatMap_singleton]
            exact hd
          · rw [hdgroups, shortest, ← hrest, if_neg (by simp [hstop]), List.append_assoc]
            rfl
  obtain ⟨d, hd, hdgroups⟩ := hrounds _ c [] le_rfl rfl hgroups
  refine ⟨d, ?_, hdgroups⟩
  change (((group name (lazy (char p))).ends c).flatMap (all rs).ends).head? = _
  rw [ends, ends, List.flatMap_map]
  exact hd

end Pattern

end Regex
