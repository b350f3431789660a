import Mathlib
import WebsiteInfrastructure.Library.RegexPieces
import WebsiteInfrastructure.RedactInventory.Patterns

/-!
# Dotted quads in a line

When a text shows an IPv4 address, and what a substitution does about it. A substitution that
neither begins nor ends between two digits uncovers none.
-/

namespace RedactInventory

open Regex Regex.Pattern

/-- A decimal number of at most three digits that is at most 255. -/
def IsOctet (t : Text) : Prop :=
  t ≠ [] ∧ t.length ≤ 3 ∧ (∀ c ∈ t, c.isDigit = true) ∧ Nat.ofDigitChars 10 t 0 ≤ 255

def IsQuad (q : Text) : Prop := ∃ a b c d, (IsOctet a ∧ IsOctet b ∧ IsOctet c ∧ IsOctet d) ∧
  q = a ++ '.' :: (b ++ '.' :: (c ++ '.' :: d))

/-- No digit stands here. -/
def NoDigit (c : Option Char) : Prop := c.all (fun c => !c.isDigit) = true

/-- A quad that no digit precedes or follows. -/
def Exposed (text : Text) : Prop := ∃ before quad after, text = before ++ (quad ++ after) ∧
  IsQuad quad ∧ NoDigit before.getLast? ∧ NoDigit after.head?

/-- The place is not between two digits. -/
def Whole (before after : Option Char) : Prop := NoDigit before ∨ NoDigit after

theorem noDigit_none : NoDigit none := rfl

theorem noDigit_some {c : Char} : NoDigit (some c) ↔ c.isDigit = false := by simp [NoDigit]

theorem NoDigit.append_left {a b b' : Text} (h : NoDigit (a ++ b).head?)
    (hb : NoDigit b.head? → NoDigit b'.head?) : NoDigit (a ++ b').head? := by
  cases a with
  | nil => exact hb h
  | cons => exact h

/-! ## Quads and brackets -/

theorem IsQuad.letters {q : Text} (h : IsQuad q) : ∀ c ∈ q, c.isDigit = true ∨ c = '.' := by
  obtain ⟨a, b, c, d, ⟨ha, hb, hc, hd⟩, rfl⟩ := h
  intro x hx
  simp only [List.mem_append, List.mem_cons] at hx
  rcases hx with hx | rfl | hx | rfl | hx | rfl | hx
  · exact .inl (ha.2.2.1 x hx)
  · exact .inr rfl
  · exact .inl (hb.2.2.1 x hx)
  · exact .inr rfl
  · exact .inl (hc.2.2.1 x hx)
  · exact .inr rfl
  · exact .inl (hd.2.2.1 x hx)

theorem IsQuad.dot_mem {q : Text} (h : IsQuad q) : '.' ∈ q := by
  obtain ⟨a, b, c, d, -, rfl⟩ := h
  simp

theorem IsQuad.ne_nil {q : Text} (h : IsQuad q) : q ≠ [] := List.ne_nil_of_mem h.dot_mem

theorem IsQuad.head {q : Text} (h : IsQuad q) (rest : Text) : ¬ NoDigit (q ++ rest).head? := by
  obtain ⟨a, b, c, d, ⟨ha, -⟩, rfl⟩ := h
  cases a with
  | nil => exact absurd rfl ha.1
  | cons x a =>
    have hx := ha.2.2.1 x List.mem_cons_self
    simp [NoDigit, hx]

theorem IsQuad.last {q : Text} (h : IsQuad q) (before : Text) :
    ¬ NoDigit (before ++ q).getLast? := by
  obtain ⟨a, b, c, d, ⟨-, -, -, hd⟩, rfl⟩ := h
  obtain ⟨d', x, rfl⟩ : ∃ d' x, d = d' ++ [x] :=
    ⟨d.dropLast, d.getLast hd.1, (List.dropLast_append_getLast hd.1).symm⟩
  have hx := hd.2.2.1 x (by simp)
  have hlast : (before ++ (a ++ '.' :: (b ++ '.' :: (c ++ '.' :: (d' ++ [x]))))).getLast? = some x := by
    have hassoc : before ++ (a ++ '.' :: (b ++ '.' :: (c ++ '.' :: (d' ++ [x])))) =
        (before ++ (a ++ '.' :: (b ++ '.' :: (c ++ '.' :: d')))) ++ [x] := by simp
    rw [hassoc, List.getLast?_append, List.getLast?_singleton, Option.some_or]
  rw [hlast, noDigit_some, hx]
  decide

/-- The texts that replace a match stand in brackets and hold no dot. -/
def Bracketed (text : Text) : Prop := ∃ body, text = '[' :: (body ++ [']']) ∧ '.' ∉ body

theorem Bracketed.head {text : Text} (h : Bracketed text) (rest : Text) :
    NoDigit (text ++ rest).head? := by
  obtain ⟨body, rfl, -⟩ := h
  exact noDigit_some.mpr (by decide)

theorem Bracketed.last {text : Text} (h : Bracketed text) (before : Text) :
    NoDigit (before ++ text).getLast? := by
  obtain ⟨body, rfl, -⟩ := h
  have hassoc : before ++ '[' :: (body ++ [']']) = (before ++ '[' :: body) ++ [']'] := by simp
  rw [hassoc, List.getLast?_append, List.getLast?_singleton, Option.some_or]
  exact noDigit_some.mpr (by decide)

theorem IsQuad.not_bracket {q : Text} (h : IsQuad q) : '[' ∉ q ∧ ']' ∉ q := by
  constructor <;> intro hmem <;> rcases h.letters _ hmem with h | h <;> revert h <;> decide

/-- A quad stands on one side of a replacement. -/
theorem IsQuad.beside {q : Text} (hq : IsQuad q) {text : Text} (htext : Bracketed text)
    {before after gap rest : Text} (h : gap ++ (text ++ rest) = before ++ (q ++ after)) :
    (∃ w, gap = before ++ (q ++ w) ∧ after = w ++ (text ++ rest)) ∨
      (∃ w, before = gap ++ (text ++ w) ∧ rest = w ++ (q ++ after)) := by
  obtain ⟨hopen, hclose⟩ := hq.not_bracket
  obtain ⟨body, rfl, hbody⟩ := htext
  rcases List.append_eq_append_iff.mp h with ⟨u, hbefore, hu⟩ | ⟨u, hgap, hu⟩
  · -- the quad begins behind the gap, and so behind the bracketed text
    rcases List.append_eq_append_iff.mp hu with ⟨w, rfl, hw⟩ | ⟨w, htext, hw⟩
    · exact .inr ⟨w, hbefore, hw⟩
    · rcases List.eq_nil_or_concat' w with rfl | ⟨w, x, rfl⟩
      · exact .inr ⟨[], by rw [hbefore, htext]; simp, by simpa using hw.symm⟩
      · have hx : x = ']' := by
          have hlast := congrArg List.getLast? htext
          rw [← List.cons_append, ← List.append_assoc, List.getLast?_concat, List.getLast?_concat] at hlast
          exact (Option.some.inj hlast).symm
        rcases List.append_eq_append_iff.mp hw with ⟨v, hv, -⟩ | ⟨v, hv, -⟩
        · have hdot : '.' ∈ '[' :: (body ++ [']']) := by
            rw [htext, hv]
            simp [hq.dot_mem]
          simp [hbody] at hdot
        · exact absurd (by rw [hv, hx]; simp) hclose
  · rcases List.append_eq_append_iff.mp hu with ⟨w, rfl, hw⟩ | ⟨w, hquad, hw⟩
    · exact .inl ⟨w, hgap, hw⟩
    · cases w with
      | nil => exact .inl ⟨[], by rw [hgap, hquad]; simp, by simpa using hw.symm⟩
      | cons x w =>
        have hx : '[' = x := (List.cons.inj hw).1
        exact absurd (by rw [hquad, hx]; simp) hopen

/-! ## Removals -/

/-- Taking a text out between places that are not between two digits uncovers no quad. -/
theorem Exposed.restore {before taken after text : Text} (htext : Bracketed text)
    (hstart : Whole before.getLast? (taken ++ after).head?)
    (hstop : Whole (before ++ taken).getLast? after.head?)
    (h : Exposed (before ++ (text ++ after))) : Exposed (before ++ (taken ++ after)) := by
  obtain ⟨a, q, b, heq, hq, ha, hb⟩ := h
  rcases hq.beside htext heq with ⟨w, rfl, rfl⟩ | ⟨w, rfl, rfl⟩
  · refine ⟨a, q, w ++ (taken ++ after), by simp, hq, ha, ?_⟩
    cases w with
    | nil =>
      rcases hstart with hnot | hdigit
      · rw [List.append_nil] at hnot
        exact absurd hnot (hq.last a)
      · exact hdigit
    | cons x w => exact hb
  · refine ⟨before ++ (taken ++ w), q, b, by simp, hq, ?_, hb⟩
    rcases List.eq_nil_or_concat' w with rfl | ⟨w, x, rfl⟩
    · rcases hstop with hdigit | hnot
      · rwa [List.append_nil]
      · exact absurd hnot (hq.head b)
    · simpa [List.getLast?_append] using ha

/-- What a pattern replaces of a match begins and ends at places that are not between two digits. -/
def Harmless (r : Pattern) (replacement : Replacement) : Prop :=
  Bracketed replacement.text.toList ∧
    ∀ {c : Cursor} {m : Match} {taken : Text}, r.matchAt c = some m → c.rest = taken ++ m.stop.rest →
      ∃ kept removed tail, taken = kept ++ (removed ++ tail) ∧
        replacement.apply id m taken = kept ++ (replacement.text.toList ++ tail) ∧
        Whole (kept.getLast?.or c.before) (removed ++ (tail ++ m.stop.rest)).head? ∧
        Whole ((kept ++ removed).getLast?.or c.before) (tail ++ m.stop.rest).head?

section Substitution

variable {r : Pattern} {replacement : Replacement}

theorem apply_plain (text : String) (m : Match) (taken : Text) :
    (⟨none, text, none⟩ : Replacement).apply id m taken = text.toList := by
  simp [Replacement.apply]

/-- A substitution puts no digit where there was none. -/
theorem noDigit_splice (h : Harmless r replacement) {c : Cursor} {ms : List Match}
    (hpieces : Pieces r c ms) (hrest : NoDigit c.rest.head?) :
    NoDigit (splice (replacement.apply id) c ms c.rest).head? := by
  cases hpieces with
  | nil => exact hrest
  | @cons _ m ms gap taken hgap hbefore htaken hlast hmatch hpieces =>
    rw [splice_cons hgap htaken]
    cases gap with
    | cons x gap =>
      rw [hgap] at hrest
      exact hrest
    | nil =>
      obtain ⟨kept, removed, tail, hsplit, happly, -⟩ := h.2 hmatch htaken
      rw [happly, List.nil_append, List.append_assoc]
      cases kept with
      | nil =>
        rw [List.nil_append, List.append_assoc]
        exact h.1.head _
      | cons x kept =>
        rw [hgap, htaken, hsplit] at hrest
        exact hrest

theorem exposed_of_splice (h : Harmless r replacement) {c : Cursor} {ms : List Match}
    (hpieces : Pieces r c ms) (before : Text) (hbefore : before.getLast? = c.before)
    (hexposed : Exposed (before ++ splice (replacement.apply id) c ms c.rest)) :
    Exposed (before ++ c.rest) := by
  induction hpieces generalizing before with
  | nil => exact hexposed
  | @cons c m ms gap taken hgap hstart htaken hlast hmatch hpieces ih =>
    obtain ⟨kept, removed, tail, hsplit, happly, hwhole, hwhole'⟩ := h.2 hmatch htaken
    have hgapped : (before ++ gap).getLast? = m.start.before := by
      rw [hstart, List.getLast?_append, hbefore]
    rw [splice_cons hgap htaken, happly] at hexposed
    set rest := splice (replacement.apply id) m.stop ms m.stop.rest
    have hrest : NoDigit m.stop.rest.head? → NoDigit rest.head? := noDigit_splice h hpieces
    -- the first match is put back, then the others
    have hone : Exposed ((before ++ (gap ++ kept)) ++ (removed ++ (tail ++ rest))) := by
      apply Exposed.restore h.1
      · rw [← List.append_assoc, List.getLast?_append, hgapped]
        rw [← List.append_assoc] at hwhole ⊢
        exact hwhole.imp_right fun hnot => hnot.append_left hrest
      · have hassoc : before ++ (gap ++ kept) ++ removed = (before ++ gap) ++ (kept ++ removed) := by
          simp
        rw [hassoc, List.getLast?_append, hgapped]
        exact hwhole'.imp_right fun hnot => hnot.append_left hrest
      · simpa using hexposed
    have hall := ih (before ++ (gap ++ taken)) ?_ ?_
    · rw [hgap, htaken]
      simpa using hall
    · rw [hlast, ← List.append_assoc, List.getLast?_append, hgapped]
    · rw [hsplit]
      simpa using hone

/-- A substitution that is harmless uncovers no quad. -/
theorem exposed_of_sub (h : Harmless r replacement) {text : Text}
    (hexposed : Exposed (r.sub id (replacement.apply id) text)) : Exposed text := by
  rw [Pattern.sub, List.map_id] at hexposed
  exact exposed_of_splice h (pieces_findAll r text) [] rfl hexposed

end Substitution

/-! ## What a pattern leaves -/

/-- The match takes some of the characters of a quad with the given text behind it. -/
def Overlaps (m : Match) (quad after : Text) : Prop :=
  after.length < m.start.rest.length ∧ m.stop.rest.length < (quad ++ after).length

/-- The match stops where the given rest of the text begins. -/
def StopsAt (m : Match) (rest : Text) : Prop := m.stop.rest.length = rest.length

/-- A quad in the text that no match touches. -/
structure Left (ms : List Match) (text before quad after : Text) : Prop where
  text_eq : text = before ++ (quad ++ after)
  isQuad : IsQuad quad
  noDigit : NoDigit after.head?
  untouched : ∀ m ∈ ms, ¬ Overlaps m quad after

section Plain

variable {r : Pattern} {replace : Match → Text → Text} (hreplace : ∀ m taken, Bracketed (replace m taken))

include hreplace

/-- A quad behind a replacement has no digit before it, or stands at the start of what is behind. -/
theorem noDigit_behind (gap : Text) (m : Match) (taken rest : Text) :
    NoDigit (gap ++ (replace m taken ++ rest)).getLast? ↔ NoDigit rest.getLast? := by
  rcases List.eq_nil_or_concat' rest with rfl | ⟨rest, x, rfl⟩
  · rw [List.append_nil]
    exact iff_of_true ((hreplace m taken).last gap) noDigit_none
  · simp only [List.getLast?_append, List.getLast?_singleton, Option.some_or]

theorem left_of_splice (hstart : ∀ {c : Cursor} {m : Match}, r.matchAt c = some m → NoDigit c.before)
    {c : Cursor} {ms : List Match} (hpieces : Pieces r c ms) {before quad after : Text}
    (hsplit : splice replace c ms c.rest = before ++ (quad ++ after)) (hquad : IsQuad quad)
    (hafter : NoDigit after.head?) (hbefore : NoDigit before.getLast?) :
    ∃ a b, Left ms c.rest a quad b ∧ (NoDigit a.getLast? ∨ ∃ m ∈ ms, StopsAt m (quad ++ b)) := by
  induction hpieces generalizing before with
  | nil => exact ⟨before, after, ⟨hsplit, hquad, hafter, by simp⟩, .inl hbefore⟩
  | @cons c m ms gap taken hgap hstart' htaken hlast hmatch hpieces ih =>
    have hlength := congrArg List.length htaken
    rw [List.length_append] at hlength
    rw [splice_cons hgap htaken] at hsplit
    rcases hquad.beside (hreplace m taken) hsplit with ⟨w, hw, rfl⟩ | ⟨w, rfl, hw⟩
    · -- the quad is in front of the first match
      refine ⟨before, w ++ m.start.rest, ⟨by rw [hgap, hw]; simp, hquad, ?_, ?_⟩, .inl hbefore⟩
      · cases w with
        | nil =>
          have hnot : NoDigit m.start.before := hstart hmatch
          rw [hstart', hw, List.append_nil, List.getLast?_append] at hnot
          cases hq : quad.getLast? with
          | none => exact absurd (List.getLast?_eq_none_iff.mp hq) hquad.ne_nil
          | some x =>
            have hdigit := hquad.last []
            rw [hq, Option.some_or, Option.some_or] at hnot
            rw [List.nil_append, hq] at hdigit
            exact absurd hnot hdigit
        | cons x w => exact hafter
      · rw [List.forall_mem_cons]
        simp only [Overlaps, List.length_append]
        refine ⟨by omega, fun m' hm' => ?_⟩
        have hle := hpieces.order m' hm'
        omega
    · rw [noDigit_behind hreplace] at hbefore
      obtain ⟨a, b, hleft, hbehind⟩ := ih hw hbefore
      have htext := congrArg List.length hleft.text_eq
      refine ⟨gap ++ (taken ++ a), b, ⟨?_, hquad, hleft.noDigit, ?_⟩, ?_⟩
      · rw [hgap, htaken, hleft.text_eq]
        simp
      · rw [List.forall_mem_cons]
        refine ⟨fun hover => ?_, hleft.untouched⟩
        have hover := hover.2
        simp only [List.length_append] at htext hover
        omega
      · rcases List.eq_nil_or_concat' a with rfl | ⟨a, x, rfl⟩
        · exact .inr ⟨m, List.mem_cons_self, htext⟩
        · rcases hbehind with hnot | ⟨m', hm', hstop⟩
          · left
            simpa only [List.getLast?_append, List.getLast?_singleton, Option.some_or] using hnot
          · exact .inr ⟨m', List.mem_cons_of_mem _ hm', hstop⟩

theorem splice_of_left {c : Cursor} {ms : List Match} (hpieces : Pieces r c ms) {a quad b : Text}
    (hleft : Left ms c.rest a quad b)
    (hbehind : NoDigit a.getLast? ∨ ∃ m ∈ ms, StopsAt m (quad ++ b)) :
    ∃ before after, splice replace c ms c.rest = before ++ (quad ++ after) ∧
      NoDigit after.head? ∧ NoDigit before.getLast? := by
  induction hpieces generalizing a with
  | nil =>
    rcases hbehind with hnot | ⟨m, hm, -⟩
    · exact ⟨a, b, hleft.text_eq, hleft.noDigit, hnot⟩
    · cases hm
  | @cons c m ms gap taken hgap hstart' htaken hlast hmatch hpieces ih =>
    have hlength := congrArg List.length htaken
    have hlength' := congrArg List.length hgap
    have hquad := List.length_pos_iff.mpr hleft.isQuad.ne_nil
    have htext := hleft.text_eq
    have hlength'' := congrArg List.length htext
    have huntouched := hleft.untouched
    rw [List.forall_mem_cons] at huntouched
    obtain ⟨hnot, huntouched⟩ := huntouched
    simp only [Overlaps, List.length_append, not_and, not_lt] at hnot hlength hlength' hlength''
    rw [splice_cons hgap htaken]
    rcases Nat.lt_or_ge b.length m.start.rest.length with hlt | hge
    · -- the quad is behind the first match
      have hle := hnot hlt
      obtain ⟨a', ha'⟩ : quad ++ b <:+ m.stop.rest := by
        refine List.suffix_of_suffix_length_le (⟨a, htext.symm⟩ : quad ++ b <:+ c.rest)
          ⟨gap ++ taken, ?_⟩ ?_
        · rw [hgap, htaken, List.append_assoc]
        · rwa [List.length_append]
      have ha : a = gap ++ (taken ++ a') := by
        rw [hgap, htaken, ← ha'] at htext
        simp only [← List.append_assoc, List.append_left_inj] at htext
        rw [← htext, List.append_assoc]
      have hbehind' : NoDigit a'.getLast? ∨ ∃ m ∈ ms, StopsAt m (quad ++ b) := by
        rcases hbehind with hnot | ⟨m', hm', hstop⟩
        · left
          rcases List.eq_nil_or_concat' a' with rfl | ⟨a', x, rfl⟩
          · exact noDigit_none
          · rw [ha] at hnot
            simpa only [List.getLast?_append, List.getLast?_singleton, Option.some_or] using hnot
        · rcases List.mem_cons.mp hm' with rfl | hm'
          · have hstop : m'.stop.rest.length = (quad ++ b).length := hstop
            rw [← ha', List.length_append] at hstop
            have hnil : a' = [] := List.length_eq_zero_iff.mp (by omega)
            rw [hnil]
            exact .inl noDigit_none
          · exact .inr ⟨m', hm', hstop⟩
      obtain ⟨before, after, hsplice, hafter, hbefore⟩ :=
        ih ⟨ha'.symm, hleft.isQuad, hleft.noDigit, huntouched⟩ hbehind'
      refine ⟨gap ++ (replace m taken ++ before), after, by rw [hsplice]; simp, hafter, ?_⟩
      rwa [noDigit_behind hreplace]
    · -- the quad is in front of it
      obtain ⟨w, hw⟩ : m.start.rest <:+ b := by
        refine List.suffix_of_suffix_length_le (⟨gap, hgap.symm⟩ : m.start.rest <:+ c.rest)
          ⟨a ++ quad, ?_⟩ hge
        rw [htext, List.append_assoc]
      have hgap' : gap = a ++ (quad ++ w) := by
        rw [hgap, ← hw] at htext
        simp only [← List.append_assoc, List.append_left_inj] at htext
        rw [htext, List.append_assoc]
      refine ⟨a, w ++ (replace m taken ++ splice replace m.stop ms m.stop.rest), by rw [hgap']; simp,
        ?_, ?_⟩
      · cases w with
        | nil => exact (hreplace m taken).head _
        | cons x w =>
          have hhead := hleft.noDigit
          rw [← hw] at hhead
          exact hhead
      · rcases hbehind with hnot | ⟨m', hm', hstop⟩
        · exact hnot
        · -- no match stops before the quad
          have hstop : m'.stop.rest.length = (quad ++ b).length := hstop
          rw [List.length_append] at hstop
          rcases List.mem_cons.mp hm' with rfl | hm'
          · omega
          · have hle := hpieces.order m' hm'
            omega

end Plain

end RedactInventory
