import Mathlib
import WebsiteInfrastructure.Library.Regex

/-!
# What a match says about a text

Where matches begin and end, how many characters of a kind they take, and which matches survive
when a text is quoted inside a longer one.
-/

namespace Regex

/-! ## Rounds of a star -/

/-- One round of a star. -/
def Round (step : Cursor → List Cursor) (c d : Cursor) : Prop :=
  d ∈ step c ∧ d.rest.length < c.rest.length

theorem mem_rounds {step : Cursor → List Cursor} {n : ℕ} {c d : Cursor}
    (hn : c.rest.length ≤ n) : d ∈ rounds step n c ↔ Relation.ReflTransGen (Round step) c d := by
  induction n generalizing c with
  | zero =>
    rw [rounds, List.mem_singleton]
    constructor
    · rintro rfl
      exact .refl
    · intro h
      rcases h.cases_head with rfl | ⟨e, hround, -⟩
      · rfl
      · have := hround.2
        omega
  | succ n ih =>
    rw [rounds, List.mem_append, List.mem_singleton, List.mem_flatMap]
    have hstep : ∀ e, e ∈ ((step c).filter fun e => e.rest.length < c.rest.length) ↔
        Round step c e := by
      intro e
      rw [List.mem_filter, decide_eq_true_eq, Round]
    constructor
    · rintro (⟨e, he, hd⟩ | rfl)
      · have hround := (hstep e).mp he
        have hlater := (ih (by have := hround.2; omega)).mp hd
        exact .head hround hlater
      · exact .refl
    · intro h
      rcases h.cases_head with rfl | ⟨e, hround, hlater⟩
      · exact .inr rfl
      · refine .inl ⟨e, (hstep e).mpr hround, (ih ?_).mpr hlater⟩
        have := hround.2
        omega

namespace Pattern

theorem mem_star {a : Pattern} {c d : Cursor} :
    d ∈ (star a).ends c ↔ Relation.ReflTransGen (Round a.ends) c d :=
  mem_rounds le_rfl

/-- A star that takes as little as it can takes what the other one takes. -/
theorem mem_lazy {a : Pattern} {c d : Cursor} : d ∈ (lazy a).ends c ↔ d ∈ (star a).ends c := by
  rw [ends, ends]
  generalize c.rest.length = n
  induction n generalizing c with
  | zero => rfl
  | succ n ih =>
    rw [lazyRounds, rounds, List.mem_append, List.mem_cons, List.mem_singleton, or_comm,
      List.mem_flatMap, List.mem_flatMap]
    simp only [ih]

theorem mem_char {p : Char → Bool} {c d : Cursor} :
    d ∈ (char p).ends c ↔ ∃ x xs, c.rest = x :: xs ∧ p x = true ∧ d = ⟨some x, xs, c.groups⟩ := by
  rw [ends]
  cases hrest : c.rest with
  | nil => simp
  | cons x xs =>
    cases hp : p x <;> simp [hp, Cursor.next, hrest]

theorem mem_seq {a b : Pattern} {c d : Cursor} :
    d ∈ (seq a b).ends c ↔ ∃ e, e ∈ a.ends c ∧ d ∈ b.ends e := by
  rw [ends, List.mem_flatMap]

theorem mem_alt {a b : Pattern} {c d : Cursor} :
    d ∈ (alt a b).ends c ↔ d ∈ a.ends c ∨ d ∈ b.ends c := by
  rw [ends, List.mem_append]

theorem mem_edge {p : Option Char → Option Char → Bool} {c d : Cursor} :
    d ∈ (edge p).ends c ↔ p c.before c.rest.head? = true ∧ d = c := by
  rw [ends]
  split <;> simp_all

/-! ## Places -/

/-- A search tries every place of the text. -/
theorem searchFrom_isSome {r : Pattern} {n : ℕ} {c : Cursor} : (r.searchFrom n c).isSome = true ↔
    ∃ k ≤ n, (r.matchAt (Cursor.next^[k] c)).isSome = true := by
  induction n generalizing c with
  | zero => simp [searchFrom]
  | succ n ih =>
    rw [searchFrom, Option.isSome_or, Bool.or_eq_true, ih]
    constructor
    · rintro (h | ⟨k, hk, h⟩)
      · exact ⟨0, Nat.zero_le _, h⟩
      · exact ⟨k + 1, Nat.succ_le_succ hk, h⟩
    · rintro ⟨k, hk, h⟩
      cases k with
      | zero => exact .inl h
      | succ k => exact .inr ⟨k, Nat.le_of_succ_le_succ hk, h⟩

end Pattern

/-- The place between two parts of a text. -/
def Cursor.place (a b : List Char) : Cursor := ⟨a.getLast?, b, []⟩

theorem Cursor.next_place (a b : List Char) (x : Char) :
    (Cursor.place a (x :: b)).next = Cursor.place (a ++ [x]) b := by
  simp [Cursor.place, Cursor.next]

theorem Cursor.next_iterate {a b : List Char} {k : ℕ} (hk : k ≤ b.length) :
    Cursor.next^[k] (Cursor.place a b) = Cursor.place (a ++ b.take k) (b.drop k) := by
  induction k generalizing a b with
  | zero => simp
  | succ k ih =>
    cases b with
    | nil => simp at hk
    | cons x b =>
      rw [Function.iterate_succ_apply, Cursor.next_place, ih (by simpa using hk)]
      simp

namespace Pattern

theorem matchAt_isSome {r : Pattern} {a b : List Char} :
    (r.matchAt (Cursor.place a b)).isSome = true ↔ ∃ d, d ∈ r.ends (Cursor.place a b) := by
  rw [matchAt, Option.isSome_map, List.isSome_head?]
  exact ⟨List.exists_mem_of_ne_nil _, fun ⟨d, hd⟩ => List.ne_nil_of_mem hd⟩

/-- A pattern is found exactly when it matches at some place of the text. -/
theorem found_iff {r : Pattern} {text : List Char} :
    r.found text = true ↔ ∃ a b d, text = a ++ b ∧ d ∈ r.ends (Cursor.place a b) := by
  have hstart : Cursor.ofText text = Cursor.place [] text := rfl
  rw [found, search, searchFrom_isSome, hstart]
  constructor
  · rintro ⟨k, hk, h⟩
    rw [Cursor.next_iterate hk, List.nil_append] at h
    obtain ⟨d, hd⟩ := matchAt_isSome.mp h
    exact ⟨_, _, d, (List.take_append_drop k text).symm, hd⟩
  · rintro ⟨a, b, d, rfl, hd⟩
    refine ⟨a.length, by simp, ?_⟩
    rw [Cursor.next_iterate (by simp), List.nil_append, List.take_left', List.drop_left']
    · exact matchAt_isSome.mpr ⟨d, hd⟩
    · rfl
    · rfl

/-! ## What a match takes -/

open Classical in
/-- A number of characters of a kind that every match takes at least. -/
noncomputable def least (p : Char → Bool) : Pattern → ℕ
  | char q => if ∀ c, q c = true → p c = true then 1 else 0
  | seq a b => a.least p + b.least p
  | alt a b => min (a.least p) (b.least p)
  | group _ a => a.least p
  | eps | star _ | lazy _ | edge _ | bol | eol | back _ => 0

theorem skip_suffix {text : List Char} {c d : Cursor} (h : d ∈ c.skip text) : d.rest <:+ c.rest := by
  induction text generalizing c with
  | nil =>
    rw [Cursor.skip, List.mem_singleton] at h
    rw [h]
  | cons x xs ih =>
    rw [Cursor.skip] at h
    split at h
    · refine (ih h).trans ?_
      rw [Cursor.next]
      split
      · exact List.suffix_refl _
      · next y ys hrest =>
        rw [hrest]
        exact List.suffix_cons y ys
    · cases h

theorem countP_le_of_round {p : Char → Bool} {step : Cursor → List Cursor}
    (hstep : ∀ c d, d ∈ step c → d.rest.countP p ≤ c.rest.countP p) {c d : Cursor}
    (h : Relation.ReflTransGen (Round step) c d) : d.rest.countP p ≤ c.rest.countP p := by
  induction h with
  | refl => exact le_rfl
  | tail _ hround ih => exact (hstep _ _ hround.1).trans ih

theorem least_add_le {p : Char → Bool} {r : Pattern} {c d : Cursor} (h : d ∈ r.ends c) :
    r.least p + d.rest.countP p ≤ c.rest.countP p := by
  induction r generalizing c d with
  | eps =>
    rw [ends, List.mem_singleton] at h
    simp [h, least]
  | char q =>
    obtain ⟨x, xs, hrest, hq, rfl⟩ := mem_char.mp h
    rw [hrest, List.countP_cons, least]
    split
    · next hkind => simp [hkind x hq, Nat.add_comm]
    · rw [Nat.zero_add]
      exact Nat.le_add_right _ _
  | seq a b iha ihb =>
    obtain ⟨e, he, hd⟩ := mem_seq.mp h
    have ha := iha he
    have hb := ihb hd
    rw [least]
    omega
  | alt a b iha ihb =>
    rw [least]
    rcases mem_alt.mp h with ha | hb
    · have := iha ha
      omega
    · have := ihb hb
      omega
  | star a ih =>
    have hle := countP_le_of_round (p := p) (fun c d hd => (Nat.le_add_left _ _).trans (ih hd))
      (mem_star.mp h)
    rw [least]
    omega
  | lazy a ih =>
    have hle := countP_le_of_round (p := p) (fun c d hd => (Nat.le_add_left _ _).trans (ih hd))
      (mem_star.mp (mem_lazy.mp h))
    rw [least]
    omega
  | edge q =>
    rw [(mem_edge.mp h).2, least, Nat.zero_add]
  | bol | eol =>
    rw [ends] at h
    split at h
    · rw [List.mem_singleton.mp h, least, Nat.zero_add]
    · cases h
  | group name a ih =>
    rw [ends, List.mem_map] at h
    obtain ⟨e, he, rfl⟩ := h
    have hle : a.least p + e.rest.countP p ≤ c.rest.countP p := ih he
    exact hle
  | back name =>
    have hle := (skip_suffix h).sublist.countP_le (p := p)
    rw [least]
    omega

/-- A text that holds too few characters of a kind has no match. -/
theorem not_found_of_least {p : Char → Bool} {r : Pattern} {text : List Char}
    (h : text.countP p < r.least p) : r.found text = false := by
  rw [Bool.eq_false_iff]
  intro hfound
  obtain ⟨a, b, d, rfl, hd⟩ := found_iff.mp hfound
  have hle : r.least p + d.rest.countP p ≤ b.countP p := least_add_le hd
  rw [List.countP_append] at h
  omega

theorem least_char_of {p q : Char → Bool} (h : ∀ c, q c = true → p c = true) :
    (char q).least p = 1 := if_pos h

@[simp] theorem least_all (p : Char → Bool) (rs : List Pattern) :
    (all rs).least p = (rs.map (least p)).sum := by
  induction rs with
  | nil => rfl
  | cons r rs ih =>
    have hfold : all (r :: rs) = seq r (all rs) := rfl
    rw [hfold, least, ih, List.map_cons, List.sum_cons]

theorem sum_least_char (p : Char → Bool) (xs : List Char) :
    (xs.map fun x => (char (· = x)).least p).sum = xs.countP p := by
  induction xs with
  | nil => rfl
  | cons x xs ih =>
    rw [List.map_cons, List.sum_cons, ih, List.countP_cons, Nat.add_comm, least]
    simp only [decide_eq_true_eq, forall_eq]

@[simp] theorem least_lit (p : Char → Bool) (text : String) :
    (lit text).least p = text.toList.countP p := by
  rw [← sum_least_char, lit, least_all, List.map_map, Function.comp_def]

theorem le_least_all {p : Char → Bool} {r : Pattern} {rs : List Pattern} (h : r ∈ rs) :
    r.least p ≤ (all rs).least p := by
  rw [least_all]
  exact List.le_sum_of_mem (List.mem_map_of_mem h)

/-! ## Matches inside quotes -/

end Pattern

/-- The same place in a text that is quoted inside a longer one. -/
def Cursor.quoted (q : Char) (tail : List Char) (c : Cursor) : Cursor :=
  ⟨some (c.before.getD q), c.rest ++ q :: tail, c.groups⟩

namespace Pattern

/-- A pattern that cannot tell the end of a text from a quotation mark. -/
def Local (q : Char) : Pattern → Prop
  | eps | char _ => True
  | seq a b | alt a b => a.Local q ∧ b.Local q
  | star a => a.Local q
  | edge p => ∀ x y, p x y = true → p (some (x.getD q)) (some (y.getD q)) = true
  | _ => False

theorem ends_quoted {q : Char} {tail : List Char} {r : Pattern} (hr : r.Local q) {c d : Cursor}
    (h : d ∈ r.ends c) : d.quoted q tail ∈ r.ends (c.quoted q tail) := by
  induction r generalizing c d with
  | eps =>
    rw [ends, List.mem_singleton] at h ⊢
    rw [h]
  | char p =>
    obtain ⟨x, xs, hrest, hp, rfl⟩ := mem_char.mp h
    apply mem_char.mpr
    refine ⟨x, xs ++ q :: tail, ?_, hp, rfl⟩
    rw [Cursor.quoted, hrest, List.cons_append]
  | seq a b iha ihb =>
    obtain ⟨e, he, hd⟩ := mem_seq.mp h
    exact mem_seq.mpr ⟨_, iha hr.1 he, ihb hr.2 hd⟩
  | alt a b iha ihb =>
    rcases mem_alt.mp h with ha | hb
    · exact mem_alt.mpr (.inl (iha hr.1 ha))
    · exact mem_alt.mpr (.inr (ihb hr.2 hb))
  | star a ih =>
    apply mem_star.mpr
    have hround : ∀ c d, Round a.ends c d →
        Round a.ends (c.quoted q tail) (d.quoted q tail) := by
      intro c d hround
      refine ⟨ih hr hround.1, ?_⟩
      have := hround.2
      simp only [Cursor.quoted, List.length_append]
      omega
    exact Relation.ReflTransGen.lift (Cursor.quoted q tail) hround _ _ (mem_star.mp h)
  | edge p =>
    obtain ⟨hp, rfl⟩ := mem_edge.mp h
    apply mem_edge.mpr
    refine ⟨?_, rfl⟩
    have hlocal := hr _ _ hp
    cases hrest : d.rest <;> simpa [Cursor.quoted, hrest] using hlocal
  | lazy | bol | eol | group | back => exact hr.elim

theorem local_all {q : Char} {rs : List Pattern} (h : ∀ r ∈ rs, r.Local q) : (all rs).Local q := by
  induction rs with
  | nil => trivial
  | cons r rs ih =>
    exact ⟨h r List.mem_cons_self, ih fun s hs => h s (List.mem_cons_of_mem _ hs)⟩

/-- What is found in a text is found where the text is quoted. -/
theorem found_quoted {q : Char} {r : Pattern} (hr : r.Local q) {text : List Char}
    (h : r.found text = true) (head tail : List Char) :
    r.found (head ++ q :: (text ++ q :: tail)) = true := by
  obtain ⟨a, b, d, rfl, hd⟩ := found_iff.mp h
  have hplace : (Cursor.place a b).quoted q tail = Cursor.place (head ++ q :: a) (b ++ q :: tail) := by
    rw [Cursor.quoted, Cursor.place, Cursor.place, List.getLast?_append, List.getLast?_cons]
    simp
  have hquoted := @ends_quoted q tail r hr _ _ hd
  rw [hplace] at hquoted
  exact found_iff.mpr ⟨_, _, _, by simp, hquoted⟩

end Pattern

/-! ## Where matches are found -/

/-- The cursor is at a place of the text. -/
def Cursor.At (text : List Char) (c : Cursor) : Prop :=
  ∃ a, text = a ++ c.rest ∧ c.before = a.getLast?

theorem Cursor.At.next {text : List Char} {c : Cursor} (h : c.At text) : c.next.At text := by
  obtain ⟨a, htext, hbefore⟩ := h
  unfold Cursor.next
  split
  · exact ⟨a, htext, hbefore⟩
  · next x xs hrest =>
    rw [hrest] at htext
    exact ⟨a ++ [x], by rw [htext, List.append_assoc]; rfl, by simp⟩

theorem Cursor.At.skip {text : List Char} {c d : Cursor} (h : c.At text) {taken : List Char}
    (hd : d ∈ c.skip taken) : d.At text := by
  induction taken generalizing c with
  | nil => rwa [List.mem_singleton.mp hd]
  | cons x xs ih =>
    rw [Cursor.skip] at hd
    split at hd
    · exact ih h.next hd
    · cases hd

namespace Pattern

/-- A match ends at a place of the text it begins in. -/
theorem ends_at {text : List Char} {r : Pattern} {c d : Cursor} (h : c.At text) (hd : d ∈ r.ends c) :
    d.At text := by
  induction r generalizing c d with
  | eps => rwa [List.mem_singleton.mp hd]
  | char p =>
    rw [ends] at hd
    split at hd
    · rw [List.mem_singleton.mp hd]
      exact h.next
    · cases hd
  | seq a b iha ihb =>
    obtain ⟨e, he, hd⟩ := mem_seq.mp hd
    exact ihb (iha h he) hd
  | alt a b iha ihb =>
    rcases mem_alt.mp hd with hd | hd
    · exact iha h hd
    · exact ihb h hd
  | star a ih =>
    induction mem_star.mp hd with
    | refl => exact h
    | tail _ hround ihround => exact ih (ihround (mem_star.mpr ‹_›)) hround.1
  | lazy a ih =>
    induction mem_star.mp (mem_lazy.mp hd) with
    | refl => exact h
    | tail _ hround ihround =>
      exact ih (ihround (mem_lazy.mpr (mem_star.mpr ‹_›))) hround.1
  | edge p =>
    rw [(mem_edge.mp hd).2]
    exact h
  | bol =>
    rw [ends] at hd
    split at hd
    · rwa [List.mem_singleton.mp hd]
    · cases hd
  | eol =>
    rw [ends] at hd
    split at hd
    · rwa [List.mem_singleton.mp hd]
    · cases hd
  | group name a ih =>
    obtain ⟨e, he, rfl⟩ := List.mem_map.mp hd
    have hplace : e.At text := ih h he
    exact hplace
  | back name => exact h.skip hd

theorem searchFrom_eq_some {text : List Char} {r : Pattern} {n : ℕ} {c : Cursor} {m : Match}
    (h : c.At text) (hm : r.searchFrom n c = some m) :
    m.start.At text ∧ m.stop ∈ r.ends { m.start with groups := [] } := by
  have hmatch : ∀ {c : Cursor}, c.At text → r.matchAt c = some m →
      m.start.At text ∧ m.stop ∈ r.ends { m.start with groups := [] } := by
    intro c h hm
    obtain ⟨d, hd, rfl⟩ := Option.map_eq_some_iff.mp hm
    exact ⟨h, List.mem_of_head? hd⟩
  induction n generalizing c with
  | zero => exact hmatch h hm
  | succ n ih =>
    rcases Option.or_eq_some_iff.mp hm with hm | ⟨-, hm⟩
    · exact hmatch h hm
    · exact ih h.next hm

theorem mem_matches {text : List Char} {r : Pattern} {n : ℕ} {c : Cursor} {m : Match}
    (h : c.At text) (hm : m ∈ r.matches n c) :
    m.start.At text ∧ m.stop ∈ r.ends { m.start with groups := [] } := by
  induction n generalizing c with
  | zero => cases hm
  | succ n ih =>
    rw [Pattern.matches] at hm
    split at hm
    · cases hm
    · next first hfirst =>
      have hspec := searchFrom_eq_some h hfirst
      rcases List.mem_cons.mp hm with rfl | hm
      · exact hspec
      · have hstart : Cursor.At text { first.start with groups := [] } := hspec.1
        exact ih (ends_at hstart hspec.2) hm

/-- Whatever is found is a match at some place of the text. -/
theorem mem_findAll {text : List Char} {r : Pattern} {m : Match} (hm : m ∈ r.findAll text) :
    ∃ a b, text = a ++ b ∧ m.stop ∈ r.ends (Cursor.place a b) := by
  have hbegin : (Cursor.ofText text).At text := ⟨[], rfl, rfl⟩
  obtain ⟨⟨a, htext, hbefore⟩, hstop⟩ := mem_matches hbegin hm
  refine ⟨a, m.start.rest, htext, ?_⟩
  rwa [Cursor.place, ← hbefore]

/-! ## What the parts of a pattern take -/

theorem mem_all_cons {r : Pattern} {rs : List Pattern} {c d : Cursor} :
    d ∈ (all (r :: rs)).ends c ↔ ∃ e, e ∈ r.ends c ∧ d ∈ (all rs).ends e := mem_seq

theorem mem_bol {c d : Cursor} : d ∈ bol.ends c ↔ c.before.all (· = '\n') = true ∧ d = c := by
  rw [ends]
  split <;> simp_all

theorem mem_eol {c d : Cursor} : d ∈ eol.ends c ↔ c.rest.head?.all (· = '\n') = true ∧ d = c := by
  rw [ends]
  split <;> simp_all

theorem mem_group {name : String} {a : Pattern} {c d : Cursor} :
    d ∈ (group name a).ends c ↔
      ∃ e, e ∈ a.ends c ∧ d = { e with groups := (name, c.upTo e) :: e.groups } := by
  rw [ends, List.mem_map]
  simp only [eq_comm]

/-- A star of characters takes some of them. -/
theorem taken_of_mem_star {p : Char → Bool} {c d : Cursor} (h : d ∈ (star (char p)).ends c) :
    ∃ taken, c.rest = taken ++ d.rest ∧ (∀ x ∈ taken, p x = true) ∧ d.groups = c.groups := by
  induction mem_star.mp h with
  | refl => exact ⟨[], rfl, by simp, rfl⟩
  | tail _ hround ih =>
    obtain ⟨taken, hrest, hall, hgroups⟩ := ih (mem_star.mpr ‹_›)
    obtain ⟨x, xs, hx, hp, rfl⟩ := mem_char.mp hround.1
    refine ⟨taken ++ [x], by simp [hrest, hx], ?_, hgroups⟩
    exact List.forall_mem_append.mpr ⟨hall, List.forall_mem_singleton.mpr hp⟩

theorem taken_of_mem_chars {xs : List Char} {c d : Cursor}
    (h : d ∈ (all (xs.map fun x => char (· = x))).ends c) :
    c.rest = xs ++ d.rest ∧ d.groups = c.groups := by
  induction xs generalizing c with
  | nil =>
    have heq : d = c := List.mem_singleton.mp h
    rw [heq]
    exact ⟨rfl, rfl⟩
  | cons x xs ih =>
    obtain ⟨e, he, hd⟩ := mem_all_cons.mp h
    obtain ⟨y, ys, hrest, hy, rfl⟩ := mem_char.mp he
    obtain ⟨htaken, hgroups⟩ := ih hd
    have hy : y = x := of_decide_eq_true hy
    have htaken : ys = xs ++ d.rest := htaken
    exact ⟨by rw [hrest, hy, htaken, List.cons_append], hgroups⟩

theorem taken_of_mem_lit {text : String} {c d : Cursor} (h : d ∈ (lit text).ends c) :
    c.rest = text.toList ++ d.rest ∧ d.groups = c.groups := taken_of_mem_chars h

end Pattern

/-- What lies up to a place behind what was taken is what was taken. -/
theorem Cursor.upTo_eq {c d : Cursor} {taken : List Char} (h : c.rest = taken ++ d.rest) :
    c.upTo d = taken := by
  rw [Cursor.upTo, h, List.length_append, Nat.add_sub_cancel, List.take_left]

/-! ## Character tables -/

/-- The tables of the interpreter's Unicode version; on ASCII they are fixed. -/
class Characters where
  /-- `\d` -/
  isDigit : Char → Bool
  /-- `\w` -/
  isWord : Char → Bool
  /-- Whether a letter of a pattern matches a character under `(?i)`. -/
  folds : Char → Char → Bool
  isDigit_ascii : ∀ c, c.toNat < 128 → isDigit c = c.isDigit
  isWord_ascii : ∀ c, c.toNat < 128 → isWord c = (c.isAlphanum || c = '_')
  folds_alpha : ∀ a c, a.isAlpha = true → c.toNat < 128 → folds a c = (a.toLower == c.toLower)
  folds_uncased : ∀ a c, a.toNat < 128 → a.isAlpha = false → folds a c = true → c = a

/-- Tables without characters beyond ASCII. -/
@[reducible] def asciiCharacters : Characters where
  isDigit c := c.isDigit
  isWord c := c.isAlphanum || c = '_'
  folds a c := if a.isAlpha then a.toLower == c.toLower else a == c
  isDigit_ascii _ _ := rfl
  isWord_ascii _ _ := rfl
  folds_alpha _ _ ha _ := if_pos ha
  folds_uncased a c _ ha h := by
    rw [if_neg (by simp [ha])] at h
    exact (beq_iff_eq.mp h).symm

namespace Pattern

/-- Between `least` and `least + more` times. -/
def times (r : Pattern) (least more : ℕ) : Pattern :=
  all (List.replicate least r ++ List.replicate more (opt r))

theorem le_least_times {p : Char → Bool} {r : Pattern} {least more : ℕ} (h : 0 < least) :
    r.least p ≤ (r.times least more).least p := by
  apply le_least_all
  rw [List.mem_append, List.mem_replicate]
  exact .inl ⟨h.ne', rfl⟩

theorem local_times {q : Char} {r : Pattern} (h : r.Local q) (least more : ℕ) :
    (r.times least more).Local q := by
  apply local_all
  intro s hs
  rcases List.mem_append.mp hs with hs | hs
  · rw [List.eq_of_mem_replicate hs]
    exact h
  · rw [List.eq_of_mem_replicate hs]
    exact ⟨h, trivial⟩

theorem local_lit (q : Char) (text : String) : (lit text).Local q := by
  apply local_all
  intro r hr
  obtain ⟨x, -, rfl⟩ := List.mem_map.mp hr
  trivial

variable [Characters]

/-- `\d` -/
def digit : Pattern := char Characters.isDigit

/-- `\b` -/
def wordEdge : Pattern := edge fun x y => x.any Characters.isWord != y.any Characters.isWord

/-- A text under `(?i)`. -/
def litFolded (text : String) : Pattern := all (text.toList.map fun x => char (Characters.folds x))

theorem countP_le_least_litFolded {p q : Char → Bool}
    (h : ∀ x c, q x = true → Characters.folds x c = true → p c = true) (text : String) :
    text.toList.countP q ≤ (litFolded text).least p := by
  rw [litFolded, least_all, List.map_map]
  induction text.toList with
  | nil => exact le_rfl
  | cons x xs ih =>
    rw [List.countP_cons, List.map_cons, List.sum_cons, Nat.add_comm, Function.comp_apply]
    apply Nat.add_le_add _ ih
    split
    · next hx => rw [least_char_of fun c hc => h x c hx hc]
    · exact Nat.zero_le _

theorem local_litFolded (q : Char) (text : String) : (litFolded text).Local q := by
  apply local_all
  intro r hr
  obtain ⟨x, -, rfl⟩ := List.mem_map.mp hr
  trivial

theorem local_wordEdge {q : Char} (h : Characters.isWord q = false) : wordEdge.Local q := by
  intro x y hxy
  cases x <;> cases y <;> simp_all

end Pattern

end Regex
