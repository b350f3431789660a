import Mathlib
import WebsiteInfrastructure.Library.RegexSub
import WebsiteInfrastructure.Library.RegexTaking

/-!
# A text piece by piece

The matches of a search one behind the other, with the text between them: where each match stands,
and that nothing between two of them matches.
-/

namespace Regex

namespace Pattern

/-! ## Starts and stops -/

/-- Where a match stops, relative to where it starts. -/
theorem taken_of_mem_ends {r : Pattern} {c d : Cursor} (h : d ∈ r.ends c) :
    ∃ taken, c.rest = taken ++ d.rest ∧ d.before = taken.getLast?.or c.before := by
  have hlength : d.rest.length ≤ c.rest.length := by
    have hle := least_add_le (p := fun _ => true) h
    simp only [List.countP_true] at hle
    omega
  -- the character before the start is part of the text that `ends_at` speaks of
  have hplace : c.At (c.before.toList ++ c.rest) := by
    refine ⟨c.before.toList, rfl, ?_⟩
    cases c.before <;> rfl
  obtain ⟨a, ha, hbefore⟩ := ends_at hplace h
  cases hc : c.before with
  | none =>
    rw [hc] at ha
    exact ⟨a, ha, by rw [hbefore, Option.or_none]⟩
  | some x =>
    rw [hc] at ha
    cases a with
    | nil =>
      have hmore := congrArg List.length ha
      simp only [Option.toList_some, List.cons_append, List.nil_append, List.length_cons] at hmore
      omega
    | cons y taken =>
      obtain ⟨rfl, htaken⟩ := List.cons.inj ha
      refine ⟨taken, htaken, ?_⟩
      rw [hbefore, List.getLast?_cons]
      cases taken.getLast? <;> rfl

/-- What a class of characters takes, a fixed number of times. -/
theorem taken_of_mem_replicate {p : Char → Bool} {n : ℕ} {c d : Cursor}
    (h : d ∈ (all (List.replicate n (char p))).ends c) :
    ∃ taken, c.rest = taken ++ d.rest ∧ taken.length = n ∧ ∀ x ∈ taken, p x = true := by
  induction n generalizing c with
  | zero =>
    have heq : d = c := List.mem_singleton.mp h
    exact ⟨[], by rw [heq]; rfl, rfl, by simp⟩
  | succ n ih =>
    obtain ⟨e, he, hd⟩ := mem_all_cons.mp h
    obtain ⟨x, xs, hx, hp, rfl⟩ := mem_char.mp he
    obtain ⟨taken, hrest, hlength, hall⟩ := ih hd
    refine ⟨x :: taken, ?_, by simp [hlength], ?_⟩
    · rw [hx, List.cons_append, ← hrest]
    · exact List.forall_mem_cons.mpr ⟨hp, hall⟩

theorem matchAt_eq_some {r : Pattern} {c : Cursor} {m : Match} (h : r.matchAt c = some m) :
    m.start = c ∧ (r.ends { c with groups := [] }).head? = some m.stop := by
  obtain ⟨d, hd, rfl⟩ := Option.map_eq_some_iff.mp h
  exact ⟨rfl, hd⟩

theorem matchAt_eq_none {r : Pattern} {c : Cursor} :
    r.matchAt c = none ↔ r.ends ⟨c.before, c.rest, []⟩ = [] := by
  rw [matchAt, Option.map_eq_none_iff, List.head?_eq_none_iff]

theorem searchFrom_matchAt {r : Pattern} {n : ℕ} {c : Cursor} {m : Match}
    (h : r.searchFrom n c = some m) : r.matchAt m.start = some m := by
  have hhere : ∀ {c : Cursor}, r.matchAt c = some m → r.matchAt m.start = some m := by
    intro c h
    rw [(matchAt_eq_some h).1]
    exact h
  induction n generalizing c with
  | zero => exact hhere h
  | succ n ih =>
    rcases Option.or_eq_some_iff.mp h with h | ⟨-, h⟩
    · exact hhere h
    · exact ih h

/-- A place that the search has passed without a match. -/
theorem searchFrom_skips {r : Pattern} {n : ℕ} {c : Cursor} {a b : List Char}
    (hrest : c.rest = a ++ b) (hn : a.length ≤ n)
    (hlater : ∀ m, r.searchFrom n c = some m → m.start.rest.length < b.length) :
    r.ends ⟨a.getLast?.or c.before, b, []⟩ = [] := by
  induction n generalizing c a with
  | zero =>
    have ha : a = [] := List.length_eq_zero_iff.mp (Nat.le_zero.mp hn)
    subst ha
    rw [List.nil_append] at hrest
    cases hmatch : r.matchAt c with
    | none =>
      rw [matchAt_eq_none, hrest] at hmatch
      exact hmatch
    | some m =>
      have hlt := hlater m hmatch
      rw [(matchAt_eq_some hmatch).1, hrest] at hlt
      omega
  | succ n ih =>
    cases hmatch : r.matchAt c with
    | some m =>
      have hlt := hlater m (by rw [searchFrom, hmatch, Option.some_or])
      rw [(matchAt_eq_some hmatch).1, hrest, List.length_append] at hlt
      omega
    | none =>
      cases a with
      | nil =>
        rw [matchAt_eq_none] at hmatch
        rw [List.nil_append] at hrest
        rwa [hrest] at hmatch
      | cons x a =>
        have hnext : c.next = ⟨some x, a ++ b, c.groups⟩ := by rw [Cursor.next, hrest]; rfl
        rw [List.length_cons] at hn
        have hplace := @ih c.next a (by rw [hnext]) (by omega) (by
          intro m hm
          exact hlater m (by rw [searchFrom, hmatch, Option.none_or]; exact hm))
        rw [hnext] at hplace
        rw [List.getLast?_cons]
        cases hlast : a.getLast? <;> rwa [hlast] at hplace

/-! ## The first end -/

theorem head_flatMap {α β : Type} {l : List α} {f : α → List β} {d : β}
    (h : (l.flatMap f).head? = some d) : ∃ e ∈ l, (f e).head? = some d := by
  induction l with
  | nil => cases h
  | cons x l ih =>
    rw [List.flatMap_cons, List.head?_append] at h
    rcases Option.or_eq_some_iff.mp h with h | ⟨-, h⟩
    · exact ⟨x, List.mem_cons_self, h⟩
    · obtain ⟨e, he, hd⟩ := ih h
      exact ⟨e, List.mem_cons_of_mem _ he, hd⟩

theorem head_flatMap_of_total {α β : Type} {l : List α} {f : α → List β} {d : β}
    (hf : ∀ e, f e ≠ []) (h : (l.flatMap f).head? = some d) :
    ∃ e, l.head? = some e ∧ (f e).head? = some d := by
  cases l with
  | nil => cases h
  | cons x l =>
    rw [List.flatMap_cons, List.head?_append_of_ne_nil _ (hf x)] at h
    exact ⟨x, rfl, h⟩

theorem head_all_cons {r : Pattern} {rs : List Pattern} {c d : Cursor}
    (h : ((all (r :: rs)).ends c).head? = some d) :
    ∃ e ∈ r.ends c, ((all rs).ends e).head? = some d := head_flatMap h

theorem ends_all_singleton (r : Pattern) (c : Cursor) : (all [r]).ends c = r.ends c := by
  change (r.ends c).flatMap (fun d => [d]) = _
  rw [List.flatMap_singleton']

/-- A star of characters first stops where none follows. -/
theorem head_star {p : Char → Bool} {c d : Cursor} (h : ((star (char p)).ends c).head? = some d) :
    d.rest.head?.all (fun x => !p x) = true := by
  obtain ⟨first, others, hends, hrest, -⟩ := head_ends_star (p := p) c
  rw [hends, List.head?_cons, Option.some_inj] at h
  subst h
  rw [hrest]
  cases hdrop : c.rest.dropWhile p with
  | nil => rfl
  | cons x xs =>
    have hx := List.head_dropWhile_not p (l := c.rest) (by rw [hdrop]; exact List.cons_ne_nil x xs)
    simp only [hdrop, List.head_cons] at hx
    simp [hx]

theorem head_plus {p : Char → Bool} {c d : Cursor} (h : ((plus (char p)).ends c).head? = some d) :
    d.rest.head?.all (fun x => !p x) = true := by
  obtain ⟨e, -, hd⟩ := head_flatMap h
  exact head_star hd

/-! ## The character behind which a match stops -/

/-- Every match stops behind a character of the kind. -/
def Reaches (r : Pattern) (p : Char → Bool) : Prop := ∀ c d, d ∈ r.ends c → d.before.any p = true

/-- Every match that starts behind a character of the kind stops behind one. -/
def Keeps (r : Pattern) (p : Char → Bool) : Prop :=
  ∀ c d, d ∈ r.ends c → c.before.any p = true → d.before.any p = true

variable {p q : Char → Bool} {r s : Pattern} {rs : List Pattern}

theorem reaches_char (h : ∀ x, q x = true → p x = true) : (char q).Reaches p := by
  intro c d hd
  obtain ⟨x, xs, -, hx, rfl⟩ := mem_char.mp hd
  exact h x hx

theorem Reaches.keeps (h : r.Reaches p) : r.Keeps p := fun c d hd _ => h c d hd

theorem Keeps.star (h : r.Keeps p) : (star r).Keeps p := by
  intro c d hd hc
  induction mem_star.mp hd with
  | refl => exact hc
  | tail _ hround ih => exact h _ _ hround.1 (ih (mem_star.mpr ‹_›))

theorem Keeps.opt (h : r.Keeps p) : (opt r).Keeps p := by
  intro c d hd hc
  rcases mem_alt.mp hd with hd | hd
  · exact h c d hd hc
  · rwa [List.mem_singleton.mp hd]

theorem keeps_nil : (all []).Keeps p := by
  intro c d hd hc
  rwa [List.mem_singleton.mp hd]

theorem Keeps.cons (h : r.Keeps p) (hrs : (all rs).Keeps p) : (all (r :: rs)).Keeps p := by
  intro c d hd hc
  obtain ⟨e, he, hd⟩ := mem_all_cons.mp hd
  exact hrs e d hd (h c e he hc)

/-- What follows does not move the place away from the characters of the kind. -/
theorem Reaches.cons (h : r.Reaches p) (hrs : (all rs).Keeps p) : (all (r :: rs)).Reaches p := by
  intro c d hd
  obtain ⟨e, he, hd⟩ := mem_all_cons.mp hd
  exact hrs e d hd (h c e he)

theorem Reaches.behind (r : Pattern) (h : (all rs).Reaches p) : (all (r :: rs)).Reaches p := by
  intro c d hd
  obtain ⟨e, -, hd⟩ := mem_all_cons.mp hd
  exact h e d hd

theorem Reaches.alt (hr : r.Reaches p) (hs : s.Reaches p) : (alt r s).Reaches p := by
  intro c d hd
  rcases mem_alt.mp hd with hd | hd
  · exact hr c d hd
  · exact hs c d hd

theorem Reaches.plus (h : r.Reaches p) : (plus r).Reaches p := by
  intro c d hd
  obtain ⟨e, he, hd⟩ := mem_seq.mp hd
  exact h.keeps.star e d hd (h c e he)

/-! ## Patterns without groups -/

def Groupless : Pattern → Prop
  | seq a b | alt a b => a.Groupless ∧ b.Groupless
  | star a | lazy a => a.Groupless
  | group _ _ => False
  | eps | char _ | edge _ | bol | eol | back _ => True

theorem groups_of_groupless {r : Pattern} (h : r.Groupless) {c d : Cursor} (hd : d ∈ r.ends c) :
    d.groups = c.groups := by
  induction r generalizing c d with
  | eps => rw [List.mem_singleton.mp hd]
  | char p =>
    obtain ⟨x, xs, -, -, rfl⟩ := mem_char.mp hd
    rfl
  | seq a b iha ihb =>
    obtain ⟨e, he, hd⟩ := mem_seq.mp hd
    rw [ihb h.2 hd, iha h.1 he]
  | alt a b iha ihb =>
    rcases mem_alt.mp hd with hd | hd
    · exact iha h.1 hd
    · exact ihb h.2 hd
  | star a ih =>
    induction mem_star.mp hd with
    | refl => rfl
    | tail _ hround ihround => rw [ih h hround.1, ihround (mem_star.mpr ‹_›)]
  | lazy a ih =>
    induction mem_star.mp (mem_lazy.mp hd) with
    | refl => rfl
    | tail _ hround ihround => rw [ih h hround.1, ihround (mem_lazy.mpr (mem_star.mpr ‹_›))]
  | edge p => rw [(mem_edge.mp hd).2]
  | bol => rw [(mem_bol.mp hd).2]
  | eol => rw [(mem_eol.mp hd).2]
  | group name a => exact h.elim
  | back name =>
    have hskip : ∀ (text : List Char) (c : Cursor), d ∈ c.skip text → d.groups = c.groups := by
      intro text
      induction text with
      | nil =>
        intro c hd
        rw [List.mem_singleton.mp hd]
      | cons x xs ih =>
        intro c hd
        rw [Cursor.skip] at hd
        split at hd
        · rw [ih _ hd, Cursor.next]
          split <;> rfl
        · cases hd
    exact hskip _ _ hd

theorem groupless_all {rs : List Pattern} (h : ∀ r ∈ rs, r.Groupless) : (all rs).Groupless := by
  induction rs with
  | nil => trivial
  | cons r rs ih =>
    exact ⟨h r List.mem_cons_self, ih fun s hs => h s (List.mem_cons_of_mem r hs)⟩

theorem groupless_times {r : Pattern} (h : r.Groupless) (least more : ℕ) :
    (r.times least more).Groupless := by
  apply groupless_all
  intro s hs
  rcases List.mem_append.mp hs with hs | hs
  · rw [List.eq_of_mem_replicate hs]
    exact h
  · rw [List.eq_of_mem_replicate hs]
    exact ⟨h, trivial⟩

theorem groupless_chars {α : Type} (f : α → Char → Bool) (xs : List α) :
    (all (xs.map fun x => char (f x))).Groupless := by
  apply groupless_all
  intro r hr
  obtain ⟨x, -, rfl⟩ := List.mem_map.mp hr
  trivial

end Pattern

/-! ## Matches in a row -/

/-- Matches of a pattern one behind the other, from a place on. -/
inductive Pieces (r : Pattern) : Cursor → List Match → Prop
  | nil (c : Cursor) : Pieces r c []
  | cons {c : Cursor} {m : Match} {ms : List Match} {gap taken : List Char}
    (hgap : c.rest = gap ++ m.start.rest) (hbefore : m.start.before = gap.getLast?.or c.before)
    (htaken : m.start.rest = taken ++ m.stop.rest)
    (hlast : m.stop.before = taken.getLast?.or m.start.before)
    (hmatch : r.matchAt m.start = some m) (hrest : Pieces r m.stop ms) : Pieces r c (m :: ms)

theorem pieces_matches (r : Pattern) (n : ℕ) (c : Cursor) : Pieces r c (r.matches n c) := by
  induction n generalizing c with
  | zero => exact .nil c
  | succ n ih =>
    rw [Pattern.matches]
    split
    · exact .nil c
    · next m hm =>
      obtain ⟨gap, hgap, hbefore, hstop⟩ := Pattern.searchFrom_behind hm
      obtain ⟨taken, htaken, hlast⟩ := Pattern.taken_of_mem_ends hstop
      exact .cons hgap hbefore htaken hlast (Pattern.searchFrom_matchAt hm) (ih m.stop)

theorem pieces_findAll (r : Pattern) (text : List Char) :
    Pieces r (.ofText text) (r.findAll text) := pieces_matches r _ _

/-- Later matches begin behind where the search goes on. -/
theorem Pieces.order {r : Pattern} {c : Cursor} {ms : List Match} (h : Pieces r c ms) :
    ∀ m ∈ ms, m.start.rest.length ≤ c.rest.length ∧ m.stop.rest.length ≤ m.start.rest.length := by
  induction h with
  | nil => simp
  | cons hgap _ htaken _ _ _ ih =>
    rw [List.forall_mem_cons]
    have hlength := congrArg List.length hgap
    have hlength' := congrArg List.length htaken
    rw [List.length_append] at hlength hlength'
    refine ⟨by omega, fun m hm => ?_⟩
    have hle := ih m hm
    omega

/-- What `sub` does about the first match. -/
theorem splice_cons {replace : Match → List Char → List Char} {c : Cursor} {m : Match}
    {ms : List Match} {gap taken : List Char} (hgap : c.rest = gap ++ m.start.rest)
    (htaken : m.start.rest = taken ++ m.stop.rest) :
    splice replace c (m :: ms) c.rest =
      gap ++ (replace m taken ++ splice replace m.stop ms m.stop.rest) := by
  have hbefore : c.rest.length - m.start.rest.length = gap.length := by
    rw [hgap, List.length_append, Nat.add_sub_cancel]
  have hinside : m.start.rest.length - m.stop.rest.length = taken.length := by
    rw [htaken, List.length_append, Nat.add_sub_cancel]
  rw [splice]
  simp only [hbefore, hinside]
  rw [hgap, List.take_left, ← List.drop_drop, List.drop_left, htaken, List.take_left, List.drop_left]

/-- A pattern takes something wherever it matches. -/
def Pattern.Advances (r : Pattern) : Prop := ∀ c d, d ∈ r.ends c → d.rest.length < c.rest.length

/-- At a place outside of all matches the pattern does not match. -/
theorem ends_of_outside {r : Pattern} (hadvances : r.Advances) {n : ℕ} {c : Cursor} {a b : List Char}
    (hn : c.rest.length ≤ n) (hb : b ≠ []) (hrest : c.rest = a ++ b)
    (hout : ∀ m ∈ r.matches n c, b.length ≤ m.start.rest.length → b.length ≤ m.stop.rest.length) :
    r.ends ⟨a.getLast?.or c.before, b, []⟩ = [] := by
  induction n generalizing c a with
  | zero =>
    have hpos := List.length_pos_iff.mpr hb
    rw [hrest, List.length_append] at hn
    omega
  | succ n ih =>
    have hlength := congrArg List.length hrest
    rw [List.length_append] at hlength
    rw [Pattern.matches] at hout
    cases hsearch : r.searchFrom c.rest.length c with
    | none => exact Pattern.searchFrom_skips (n := c.rest.length) hrest (by omega) (by simp [hsearch])
    | some m =>
      rw [hsearch] at hout
      simp only [List.forall_mem_cons] at hout
      rcases Nat.lt_or_ge m.start.rest.length b.length with hlater | hinside
      · apply Pattern.searchFrom_skips (n := c.rest.length) hrest (by omega)
        intro m' hm'
        rw [hsearch] at hm'
        rwa [← Option.some.inj hm']
      · -- the place is not inside the match, so it is behind it
        have hbehind := hout.1 hinside
        obtain ⟨gap, hgap, hbefore, hstop⟩ := Pattern.searchFrom_behind hsearch
        obtain ⟨taken, htaken, hlast⟩ := Pattern.taken_of_mem_ends hstop
        have hless := hadvances _ _ hstop
        have htaken : m.start.rest = taken ++ m.stop.rest := htaken
        have hsuffix : c.rest = (gap ++ taken) ++ m.stop.rest := by
          rw [hgap, htaken, List.append_assoc]
        obtain ⟨a', ha'⟩ : b <:+ m.stop.rest := by
          apply List.suffix_of_suffix_length_le ⟨a, hrest.symm⟩ ⟨gap ++ taken, hsuffix.symm⟩ hbehind
        have hsplit : a = (gap ++ taken) ++ a' := by
          rw [hrest, ← ha', ← List.append_assoc] at hsuffix
          exact List.append_cancel_right hsuffix
        have hn' : m.stop.rest.length ≤ n := by
          have hle := congrArg List.length hgap
          rw [List.length_append] at hle
          have hless : m.stop.rest.length < m.start.rest.length := hless
          omega
        have hplace := ih hn' ha'.symm hout.2
        have hbefore' : a.getLast?.or c.before = a'.getLast?.or m.stop.before := by
          have hlast : m.stop.before = taken.getLast?.or m.start.before := hlast
          rw [hsplit, List.getLast?_append, List.getLast?_append, hlast, hbefore, Option.or_assoc,
            Option.or_assoc]
        rw [hbefore']
        exact hplace

end Regex
