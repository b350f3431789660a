import Mathlib
import WebsiteInfrastructure.Library.LineReaders
import WebsiteInfrastructure.RedactInventory.Quads

/-!
# Addresses in a redacted line

The IPv4 pattern leaves a quad that stands behind a dot, and the address patterns uncover a quad
where a match stops between two digits. No other pattern uncovers one.
-/

namespace RedactInventory

open Regex Regex.Pattern

/-! ## Patterns that are replaced as a whole -/

theorem harmless_of_whole {r : Pattern} {text : String} (htext : Bracketed text.toList)
    (h : ∀ {c : Cursor} {m : Match}, r.matchAt c = some m →
      Whole c.before c.rest.head? ∧ Whole m.stop.before m.stop.rest.head?) :
    Harmless r ⟨none, text, none⟩ := by
  refine ⟨htext, ?_⟩
  intro c m taken hmatch hrest
  obtain ⟨hstart, hstop⟩ := h hmatch
  obtain ⟨taken', htaken, hlast⟩ := taken_of_mem_ends (List.mem_of_head? (matchAt_eq_some hmatch).2)
  have htaken : c.rest = taken' ++ m.stop.rest := htaken
  have heq : taken = taken' := List.append_cancel_right (hrest.symm.trans htaken)
  have hlast : m.stop.before = taken.getLast?.or c.before := by rw [heq, hlast]
  refine ⟨[], taken, [], by simp, by simp [apply_plain], ?_, ?_⟩
  · rw [List.nil_append, ← hrest]
    exact hstart
  · rw [List.nil_append, List.nil_append, ← hlast]
    exact hstop

section Words

variable [Characters]

theorem isWord_digit {c : Char} (h : c.isDigit = true) : Characters.isWord c = true := by
  have hascii : c.toNat < 128 := by
    have hbound : 48 ≤ c.toNat ∧ c.toNat ≤ 57 := Char.isDigit_iff_toNat.mp h
    omega
  rw [Characters.isWord_ascii c hascii, Char.isAlphanum, h, Bool.or_true, Bool.true_or]

/-- There is no word boundary between two digits. -/
theorem whole_of_wordEdge {c d : Cursor} (h : d ∈ wordEdge.ends c) :
    d = c ∧ Whole c.before c.rest.head? := by
  obtain ⟨hedge, rfl⟩ := mem_edge.mp h
  refine ⟨rfl, ?_⟩
  cases hbefore : d.before with
  | none => exact .inl noDigit_none
  | some x =>
    cases hnext : d.rest.head? with
    | none => exact .inr noDigit_none
    | some y =>
      rw [hbefore, hnext, Option.any_some, Option.any_some] at hedge
      unfold Whole
      rw [noDigit_some, noDigit_some]
      cases hx : x.isDigit
      · exact .inl rfl
      · cases hy : y.isDigit
        · exact .inr rfl
        · rw [isWord_digit hx, isWord_digit hy] at hedge
          cases hedge

theorem harmless_of_words {text : String} (htext : Bracketed text.toList) {rs : List Pattern}
    (hlast : rs.getLast? = some wordEdge) : Harmless (all (wordEdge :: rs)) ⟨none, text, none⟩ := by
  apply harmless_of_whole htext
  intro c m hmatch
  obtain ⟨init, rfl⟩ := List.getLast?_eq_some_iff.mp hlast
  have hmem := List.mem_of_head? (matchAt_eq_some hmatch).2
  obtain ⟨d, hd, hmem⟩ := mem_all_cons.mp hmem
  obtain ⟨e, -, hmem⟩ := mem_all_append.mp hmem
  rw [ends_all_singleton] at hmem
  obtain ⟨heq, hwhole⟩ := whole_of_wordEdge hmem
  rw [← heq] at hwhole
  exact ⟨(whole_of_wordEdge hd).2, hwhole⟩

end Words

/-! ## Patterns that keep a group -/

def isOther (c : Char) : Bool := !c.isDigit

theorem noDigit_of_any {c : Option Char} (h : c.any isOther = true) : NoDigit c := by
  cases c with
  | none => cases h
  | some c => exact h

theorem isOther_of_isSpace {c : Char} (h : PythonText.isSpace c = true) : isOther c = true := by
  cases hdigit : c.isDigit with
  | false => rw [isOther, hdigit, Bool.not_false]
  | true =>
    have halnum : c.isAlphanum = true := by rw [Char.isAlphanum, hdigit, Bool.or_true]
    rw [PythonText.isSpace_of_alphanum halnum] at h
    cases h

theorem not_isSpace_digit {c : Char} (h : c.isDigit = true) : (!PythonText.isSpace c) = true := by
  rw [PythonText.isSpace_of_alphanum (by rw [Char.isAlphanum, h, Bool.or_true]), Bool.not_false]

theorem reaches_oneOf {characters : String}
    (h : characters.toList.all isOther = true) : (oneOf characters).Reaches isOther := by
  apply reaches_char
  intro x hx
  exact List.all_eq_true.mp h x (List.contains_iff_mem.mp hx)

theorem keeps_spaces : spaces.Keeps isOther :=
  (reaches_char fun _ => isOther_of_isSpace).keeps.star

theorem keeps_quotation : quotation.Keeps isOther :=
  (reaches_oneOf (by decide)).keeps.opt

/-- `\s*[:=]\s*[\"']?` -/
theorem reaches_assigned : (all [assignment, quotation]).Reaches isOther := by
  have hassignment : assignment.Reaches isOther :=
    ((reaches_oneOf (by decide)).cons (keeps_spaces.cons keeps_nil)).behind spaces
  exact hassignment.cons (keeps_quotation.cons keeps_nil)

/-- A part of a match stops at a place that is not between two digits. -/
def StopsWhole (s : Pattern) : Prop :=
  ∀ c d : Cursor, (s.ends c).head? = some d → Whole d.before d.rest.head?

/-- Where no character of a kind stands that has the digits in it, no digit stands. -/
theorem noDigit_of_all {p : Char → Bool} (hp : ∀ c, c.isDigit = true → p c = true) {c : Option Char}
    (h : c.all (fun x => !p x) = true) : NoDigit c := by
  cases c with
  | none => exact noDigit_none
  | some x =>
    rw [Option.all_some, Bool.not_eq_true'] at h
    rw [noDigit_some]
    by_contra hdigit
    rw [hp x (by simpa using hdigit)] at h
    cases h

theorem stopsWhole_plus {p : Char → Bool} (hp : ∀ c, c.isDigit = true → p c = true) :
    StopsWhole (plus (char p)) :=
  fun _ _ hd => .inr (noDigit_of_all hp (head_plus hd))

/-- The text of the first group, and where it ends. -/
theorem group_of_match {g : Pattern} {rs : List Pattern} {c : Cursor} {m : Match}
    (h : (all (group "1" g :: rs)).matchAt c = some m) : ∃ e kept, e ∈ g.ends ⟨c.before, c.rest, []⟩ ∧
      c.rest = kept ++ e.rest ∧ e.before = kept.getLast?.or c.before ∧
      ((all rs).ends { e with groups := ("1", kept) :: e.groups }).head? = some m.stop := by
  obtain ⟨e', he', hstop⟩ := head_all_cons (matchAt_eq_some h).2
  obtain ⟨e, he, rfl⟩ := mem_group.mp he'
  obtain ⟨kept, hkept, hbefore⟩ := taken_of_mem_ends he
  refine ⟨e, kept, he, hkept, hbefore, ?_⟩
  rwa [Cursor.upTo_eq hkept] at hstop

theorem harmless_of_group {g s : Pattern} {text : String} (htext : Bracketed text.toList)
    (hg : g.Reaches isOther) (hs : s.Groupless) (hstops : StopsWhole s) :
    Harmless (all [group "1" g, s]) ⟨some "1", text, none⟩ := by
  refine ⟨htext, ?_⟩
  intro c m taken hmatch hrest
  obtain ⟨e, kept, he, hkept, hbefore, hstop⟩ := group_of_match hmatch
  rw [ends_all_singleton] at hstop
  have hmem := List.mem_of_head? hstop
  obtain ⟨removed, hremoved, hlast⟩ := taken_of_mem_ends hmem
  have hremoved : e.rest = removed ++ m.stop.rest := hremoved
  have hlast : m.stop.before = removed.getLast?.or e.before := hlast
  have htaken : taken = kept ++ removed := by
    rw [hkept, hremoved, ← List.append_assoc] at hrest
    exact (List.append_cancel_right hrest).symm
  have hgroup : m.group "1" = kept := by rw [Match.group, groups_of_groupless hs hmem]; rfl
  refine ⟨kept, removed, [], by simpa using htaken, ?_, ?_, ?_⟩
  · simp [Replacement.apply, hgroup, htaken]
  · rw [← hbefore]
    exact .inl (noDigit_of_any (hg _ _ he))
  · rw [List.getLast?_append, Option.or_assoc, ← hbefore, ← hlast]
    exact hstops _ _ hstop

theorem harmless_of_groups {g s : Pattern} {text : String} (htext : Bracketed text.toList)
    (hg : g.Reaches isOther) (hs : s.Groupless) (hstops : StopsWhole s) :
    Harmless (all [group "1" g, s, group "2" quotation]) ⟨some "1", text, some "2"⟩ := by
  refine ⟨htext, ?_⟩
  intro c m taken hmatch hrest
  obtain ⟨e, kept, he, hkept, hbefore, hstop⟩ := group_of_match hmatch
  -- the second group can always be taken, so the middle part stops where it stops first
  have htotal : ∀ f : Cursor, (all [group "2" quotation]).ends f ≠ [] := by
    intro f
    rw [ends_all_singleton, ends, quotation, opt, ends, ends]
    simp
  obtain ⟨f, hf, hstop⟩ := head_flatMap_of_total htotal hstop
  have hmem := List.mem_of_head? hf
  obtain ⟨removed, hremoved, hlast⟩ := taken_of_mem_ends hmem
  have hremoved : e.rest = removed ++ f.rest := hremoved
  have hlast : f.before = removed.getLast?.or e.before := hlast
  rw [ends_all_singleton] at hstop
  obtain ⟨d, hd, hend⟩ := mem_group.mp (List.mem_of_head? hstop)
  obtain ⟨tail, htail, -⟩ := taken_of_mem_ends hd
  rw [Cursor.upTo_eq htail] at hend
  have hstoprest : m.stop.rest = d.rest := by rw [hend]
  have hquotation : quotation.Groupless := ⟨trivial, trivial⟩
  have htaken : taken = kept ++ (removed ++ tail) := by
    rw [hkept, hremoved, htail, hstoprest, ← List.append_assoc, ← List.append_assoc] at hrest
    simpa using (List.append_cancel_right hrest).symm
  have hfirst : m.group "1" = kept := by
    rw [Match.group, hend, groups_of_groupless hquotation hd, groups_of_groupless hs hmem]
    rfl
  have hsecond : m.group "2" = tail := by
    rw [Match.group, hend]
    rfl
  refine ⟨kept, removed, tail, htaken, ?_, ?_, ?_⟩
  · have hlength : (kept ++ (removed ++ tail)).length - tail.length = (kept ++ removed).length := by
      simp only [List.length_append]
      omega
    simp only [Replacement.apply, Option.map_some, Option.getD_some, hfirst, hsecond, htaken, hlength,
      List.take_left]
    rw [← List.append_assoc kept removed tail, List.drop_left, List.map_id]
  · rw [← hbefore]
    exact .inl (noDigit_of_any (hg _ _ he))
  · rw [List.getLast?_append, Option.or_assoc, ← hbefore, ← hlast, hstoprest, ← htail]
    exact hstops _ _ hf

/-- A pattern that only matches at the start of a line. -/
theorem Harmless.at_line {rs : List Pattern} {replacement : Replacement}
    (h : Harmless (all rs) replacement) : Harmless (all (bol :: rs)) replacement := by
  refine ⟨h.1, ?_⟩
  intro c m taken hmatch hrest
  apply h.2 _ hrest
  obtain ⟨hstart, hstop⟩ := matchAt_eq_some hmatch
  obtain ⟨e, he, hstop⟩ := head_all_cons hstop
  rw [(mem_bol.mp he).2] at hstop
  rw [matchAt, hstop]
  cases m
  rw [Option.map_some, ← hstart]

theorem StopsWhole.behind {s : Pattern} (hs : StopsWhole s) (rs : List Pattern) :
    StopsWhole (all (rs ++ [s])) := by
  induction rs with
  | nil =>
    intro c d hd
    rw [List.nil_append, ends_all_singleton] at hd
    exact hs _ _ hd
  | cons r rs ih =>
    intro c d hd
    obtain ⟨e, -, hd⟩ := head_all_cons hd
    exact ih _ _ hd

theorem stopsWhole_atLeast {p : Char → Bool} (hp : ∀ c, c.isDigit = true → p c = true) (least : ℕ) :
    StopsWhole (atLeast (char p) least) := by
  intro c d hd
  obtain ⟨e, -, hd⟩ := head_flatMap hd
  exact .inr (noDigit_of_all hp (head_star hd))

theorem groupless_atLeast (p : Char → Bool) (least : ℕ) : (atLeast (char p) least).Groupless :=
  ⟨groupless_times (r := char p) trivial least 0, trivial⟩

theorem StopsWhole.alt {s t : Pattern} (hs : StopsWhole s) (ht : StopsWhole t) :
    StopsWhole (alt s t) := by
  intro c d hd
  rw [ends, List.head?_append] at hd
  rcases Option.or_eq_some_iff.mp hd with hd | ⟨-, hd⟩
  · exact hs _ _ hd
  · exact ht _ _ hd

theorem reaches_lit {text : String} (h : text.toList.getLast?.any isOther = true) :
    (lit text).Reaches isOther := by
  intro c d hd
  obtain ⟨htext, -⟩ := taken_of_mem_lit hd
  obtain ⟨taken, htaken, hbefore⟩ := taken_of_mem_ends hd
  have heq : taken = text.toList := List.append_cancel_right (htaken.symm.trans htext)
  rw [hbefore, heq]
  cases hlast : text.toList.getLast? with
  | none =>
    rw [hlast] at h
    cases h
  | some x =>
    rw [hlast] at h
    exact h

/-- `={0,2}` behind a part of a match -/
theorem StopsWhole.signs {s : Pattern} (hs : StopsWhole s) :
    StopsWhole (all [s, (lit "=").times 0 2]) := by
  have hone : ∀ {c d : Cursor}, d ∈ (opt (lit "=")).ends c → d = c ∨ d.before.any isOther = true := by
    intro c d hd
    rcases mem_alt.mp hd with hd | hd
    · exact .inr (reaches_lit (by decide) c d hd)
    · exact .inl (List.mem_singleton.mp hd)
  have hstays : ∀ e : Cursor, e ∈ (all [(lit "=").times 0 2]).ends e := by
    intro e
    rw [ends_all_singleton]
    have hopt : e ∈ (opt (lit "=")).ends e := mem_alt.mpr (.inr (List.mem_singleton_self e))
    exact mem_all_cons.mpr ⟨e, hopt, mem_all_cons.mpr ⟨e, hopt, List.mem_singleton_self e⟩⟩
  intro c d hd
  obtain ⟨e, he, hd⟩ := head_flatMap_of_total (fun e => List.ne_nil_of_mem (hstays e)) hd
  have hmem := List.mem_of_head? hd
  rw [ends_all_singleton] at hmem
  obtain ⟨f, hf, hmem⟩ := mem_all_cons.mp hmem
  obtain ⟨g, hg, hmem⟩ := mem_all_cons.mp hmem
  rw [List.mem_singleton.mp hmem]
  rcases hone hg with rfl | hother
  · rcases hone hf with rfl | hother
    · exact hs _ _ he
    · exact .inl (noDigit_of_any hother)
  · exact .inl (noDigit_of_any hother)

/-! ## All the other patterns -/

theorem bracketed_of {text : Text} (hopen : text.head? = some '[') (hclose : text.getLast? = some ']')
    (hdot : '.' ∉ text) : Bracketed text := by
  obtain ⟨rest, rfl⟩ := List.head?_eq_some_iff.mp hopen
  rcases List.eq_nil_or_concat' rest with rfl | ⟨body, x, rfl⟩
  · cases hclose
  · rw [← List.cons_append, List.getLast?_concat, Option.some_inj] at hclose
    subst hclose
    exact ⟨body, rfl, fun hmem => hdot (by simp [hmem])⟩

theorem mem_decimalDigits {c : Char} (h : c.isDigit = true) : c ∈ decimalDigits.toList := by
  obtain ⟨hlt, heq⟩ := PythonText.isDigit_eq_digitChar h
  rw [heq]
  generalize c.toNat - 48 = n at hlt
  interval_cases n <;> decide

/-- A look-behind that wants no characters of a kind with the digits in it. -/
theorem noDigit_of_notAfter {p : Char → Bool} (hp : ∀ c, c.isDigit = true → p c = true)
    {c d : Cursor} (h : d ∈ (notAfter p).ends c) : d = c ∧ NoDigit c.before := by
  obtain ⟨hedge, rfl⟩ := mem_edge.mp h
  refine ⟨rfl, noDigit_of_all hp ?_⟩
  cases hbefore : d.before with
  | none => rfl
  | some x =>
    rw [hbefore] at hedge
    exact hedge

section Patterns

variable [Characters]

theorem isDigit_digit {c : Char} (h : c.isDigit = true) : Characters.isDigit c = true := by
  have hbound : 48 ≤ c.toNat ∧ c.toNat ≤ 57 := Char.isDigit_iff_toNat.mp h
  rw [Characters.isDigit_ascii c (by omega), h]

omit [Characters] in
theorem ageIdentity_harmless : Harmless ageIdentity ⟨none, "[REDACTED_AGE_IDENTITY]", none⟩ := by
  apply harmless_of_whole (bracketed_of (by simp) (by simp) (by simp))
  intro c m hmatch
  have hstop := (matchAt_eq_some hmatch).2
  have hdigits : ∀ c : Char, c.isDigit = true →
      (upperLetters ++ decimalDigits).toList.contains c = true := by
    intro c hc
    rw [String.toList_append, List.contains_iff_mem]
    exact List.mem_append_right _ (mem_decimalDigits hc)
  constructor
  · obtain ⟨d, hd, -⟩ := mem_all_cons.mp (List.mem_of_head? hstop)
    obtain ⟨hrest, -⟩ := taken_of_mem_lit hd
    have hrest : c.rest = "AGE-SECRET-KEY-".toList ++ d.rest := hrest
    right
    rw [hrest]
    exact noDigit_some.mpr (by decide)
  · exact StopsWhole.behind (stopsWhole_plus hdigits)
      [lit "AGE-SECRET-KEY-", opt (lit "PQ-"), lit "1"] _ _ hstop

theorem keyOrigin_harmless : Harmless keyOrigin ⟨none, "[REDACTED_KEY_ORIGIN]", none⟩ := by
  apply harmless_of_whole (bracketed_of (by simp) (by simp) (by simp))
  intro c m hmatch
  have hmem := List.mem_of_head? (matchAt_eq_some hmatch).2
  obtain ⟨d, hd, hmem⟩ := mem_all_cons.mp hmem
  obtain ⟨e, -, hmem⟩ := mem_all_cons.mp hmem
  obtain ⟨f, -, hmem⟩ := mem_all_cons.mp hmem
  rw [ends_all_singleton] at hmem
  obtain ⟨hrest, -⟩ := taken_of_mem_lit hd
  have hrest : c.rest = "[".toList ++ d.rest := hrest
  constructor
  · right
    rw [hrest]
    exact noDigit_some.mpr (by decide)
  · exact .inl (noDigit_of_any (reaches_lit (by decide) _ _ hmem))

theorem bearer_harmless : Harmless bearer ⟨some "1", "[REDACTED]", none⟩ := by
  apply harmless_of_group (bracketed_of (by simp) (by simp) (by simp))
  · have hspace : (plus space).Reaches isOther := (reaches_char fun _ => isOther_of_isSpace).plus
    exact (((hspace.cons keeps_nil).behind _).behind spaces).behind _
  · exact ⟨trivial, trivial⟩
  · exact stopsWhole_plus fun c => not_isSpace_digit

theorem credential_harmless : Harmless rpcCredential ⟨some "1", "[REDACTED]", none⟩ := by
  apply Harmless.at_line
  apply harmless_of_group (bracketed_of (by simp) (by simp) (by simp))
  · have hsign : (all [lit "=", spaces]).Reaches isOther :=
      (reaches_lit (by decide)).cons (keeps_spaces.cons keeps_nil)
    exact ((hsign.behind spaces).behind _).behind spaces
  · exact ⟨trivial, trivial⟩
  · exact stopsWhole_plus fun c => not_isSpace_digit

omit [Characters] in
theorem stopsWhole_restOfLine : StopsWhole restOfLine := by
  apply stopsWhole_plus
  intro c hc
  have hne : ∀ d : Char, d.isDigit = false → c ≠ d := by
    rintro d hd rfl
    rw [hd] at hc
    cases hc
  simp [hne '\r' (by decide), hne '\n' (by decide)]

theorem wireguardKey_harmless : Harmless wireguardKey ⟨some "1", "[REDACTED]", none⟩ := by
  apply Harmless.at_line
  apply harmless_of_group (bracketed_of (by simp) (by simp) (by simp))
  · have hsign : (all [lit "=", spaces]).Reaches isOther :=
      (reaches_lit (by decide)).cons (keeps_spaces.cons keeps_nil)
    exact ((hsign.behind spaces).behind _).behind spaces
  · exact ⟨trivial, trivial⟩
  · exact stopsWhole_restOfLine

theorem torPassword_harmless : Harmless torPassword ⟨some "1", "[REDACTED]", none⟩ := by
  apply Harmless.at_line
  apply harmless_of_group (bracketed_of (by simp) (by simp) (by simp))
  · have hsign : (all [spaces, lit "=", spaces]).Reaches isOther :=
      ((reaches_lit (by decide)).cons (keeps_spaces.cons keeps_nil)).behind spaces
    have hspace : (plus space).Reaches isOther := (reaches_char fun _ => isOther_of_isSpace).plus
    exact (((hsign.alt hspace).cons keeps_nil).behind _).behind spaces
  · exact ⟨trivial, trivial⟩
  · exact stopsWhole_restOfLine

section Folding

-- a digit of a pattern matches itself
variable (hself : ∀ c : Char, c.isDigit = true → Characters.folds c c = true)

include hself

theorem isHex_digit {c : Char} (h : c.isDigit = true) : isHex c = true := by
  apply List.any_eq_true.mpr
  refine ⟨c, ?_, hself c h⟩
  have hmem := mem_decimalDigits h
  rw [hexDigits]
  simp only [decimalDigits, String.reduceToList, List.mem_cons, List.not_mem_nil, or_false] at hmem ⊢
  tauto

theorem mac_harmless : Harmless mac ⟨none, "[REDACTED_MAC]", none⟩ := by
  apply harmless_of_whole (bracketed_of (by simp) (by simp) (by simp))
  intro c m hmatch
  have hmem := List.mem_of_head? (matchAt_eq_some hmatch).2
  obtain ⟨d, hd, hmem⟩ := mem_all_cons.mp hmem
  obtain ⟨e, -, hmem⟩ := mem_all_cons.mp hmem
  obtain ⟨f, -, hmem⟩ := mem_all_cons.mp hmem
  rw [ends_all_singleton] at hmem
  obtain ⟨hedge, heq⟩ := mem_edge.mp hmem
  rw [heq]
  refine ⟨.inl (noDigit_of_notAfter (fun c => isHex_digit hself) hd).2,
    .inr (noDigit_of_all (fun c => isHex_digit hself) ?_)⟩
  cases hnext : f.rest.head? with
  | none => rfl
  | some x =>
    rw [hnext] at hedge
    exact hedge

theorem folded_digits {letters : String} (h : decimalDigits.toList ⊆ letters.toList) {c : Char}
    (hc : c.isDigit = true) : (letters.toList.any fun x => Characters.folds x c) = true :=
  List.any_eq_true.mpr ⟨c, h (mem_decimalDigits hc), hself c hc⟩

omit [Characters] hself in
/-- The name of a token, quoted or not, and the sign before its value. -/
theorem reaches_name (rs : List Pattern) :
    (all (rs ++ [quotation, assignment, quotation])).Reaches isOther := by
  induction rs with
  | nil => exact reaches_assigned.behind quotation
  | cons r rs ih => exact ih.behind r

theorem cloudflareApiToken_harmless :
    Harmless cloudflareApiToken ⟨some "1", "[REDACTED]", some "2"⟩ := by
  apply harmless_of_groups (bracketed_of (by simp) (by simp) (by simp))
  · exact reaches_name [wordEdge, litFolded "cloudflare_api_token", wordEdge]
  · exact groupless_atLeast _ 20
  · apply stopsWhole_atLeast
    intro c
    apply folded_digits hself
    intro x hx
    simp [alphanumerics, String.toList_append, hx]

theorem tunnelToken_harmless : Harmless tunnelToken ⟨some "1", "[REDACTED]", some "2"⟩ := by
  have hdigits : ∀ c : Char, c.isDigit = true →
      (tokenLetters.toList.any fun x => Characters.folds x c) = true := by
    intro c
    apply folded_digits hself
    intro x hx
    simp [tokenLetters, alphanumerics, String.toList_append, hx]
  have hgroupless : ∀ least,
      (all [atLeast (oneOfFolded tokenLetters) least, (lit "=").times 0 2]).Groupless :=
    fun least => ⟨groupless_atLeast _ least, groupless_times (groupless_chars _ _) _ _, trivial⟩
  have hstops : ∀ least,
      StopsWhole (all [atLeast (oneOfFolded tokenLetters) least, (lit "=").times 0 2]) :=
    fun least => StopsWhole.signs (stopsWhole_atLeast hdigits least)
  apply harmless_of_groups (bracketed_of (by simp) (by simp) (by simp))
  · exact reaches_name [wordEdge, opt (seq (litFolded "cloudflared") (opt (oneOf "_ -"))),
      litFolded "tunnel", opt (oneOf "_ -"), litFolded "token", wordEdge]
  · exact ⟨⟨groupless_chars _ _, hgroupless 20⟩, hgroupless 80⟩
  · refine StopsWhole.alt (fun c d hd => ?_) (hstops 80)
    obtain ⟨e, -, hd⟩ := head_all_cons hd
    exact hstops 20 _ _ hd

omit hself in
/-- The patterns in front of the one for IPv4 addresses. -/
theorem harmless_earlier : ∀ entry ∈ patterns.take 3, Harmless entry.1 entry.2 := by
  have huuid : Bracketed "[REDACTED_UUID]".toList := bracketed_of (by simp) (by simp) (by simp)
  simp only [patterns, List.take_succ_cons, List.take_zero, List.forall_mem_cons]
  refine ⟨?_, harmless_of_words huuid rfl, harmless_of_words huuid rfl, by simp⟩
  exact harmless_of_words (bracketed_of (by simp) (by simp) (by simp)) rfl

/-- The patterns behind the one for IPv6 addresses. -/
theorem harmless_later : ∀ entry ∈ patterns.drop 5, Harmless entry.1 entry.2 := by
  have hwallet : Bracketed "[REDACTED_WALLET_ADDRESS]".toList :=
    bracketed_of (by simp) (by simp) (by simp)
  simp only [patterns, List.drop_succ_cons, List.drop_zero, List.forall_mem_cons]
  refine ⟨mac_harmless hself, ageIdentity_harmless, ?_, ?_, cloudflareApiToken_harmless hself,
    bearer_harmless, tunnelToken_harmless hself, ?_, ?_, ?_, harmless_of_words hwallet rfl,
    harmless_of_words hwallet rfl, keyOrigin_harmless, credential_harmless, wireguardKey_harmless,
    torPassword_harmless, by simp⟩
  · exact harmless_of_words (bracketed_of (by simp) (by simp) (by simp)) rfl
  · exact harmless_of_words (bracketed_of (by simp) (by simp) (by simp)) rfl
  · exact harmless_of_words (bracketed_of (by simp) (by simp) (by simp)) rfl
  · exact harmless_of_words (bracketed_of (by simp) (by simp) (by simp)) rfl
  · exact harmless_of_words (bracketed_of (by simp) (by simp) (by simp)) rfl

end Folding

end Patterns

/-! ## The address patterns -/

section Address

variable [Characters]

theorem ipv4_start {c : Cursor} {m : Match} (h : ipv4.matchAt c = some m) : NoDigit c.before := by
  obtain ⟨d, hd, -⟩ := mem_all_cons.mp (List.mem_of_head? (matchAt_eq_some h).2)
  refine (noDigit_of_notAfter (fun c hc => ?_) hd).2
  rw [isDigit_digit hc, Bool.true_or]

theorem ipv4_advances : ipv4.Advances := by
  intro c d hd
  have hle := least_add_le (p := fun _ => true) hd
  have hdot : 1 ≤ (seq (digit.times 1 2) (lit ".")).least fun _ => true := by
    rw [least, least_lit]
    have hone : ".".toList.countP (fun _ => true) = 1 := rfl
    omega
  have htimes : (seq (digit.times 1 2) (lit ".")).least (fun _ => true) ≤
      ((seq (digit.times 1 2) (lit ".")).times 3 0).least fun _ => true :=
    le_least_times (by decide)
  have hpart : ((seq (digit.times 1 2) (lit ".")).times 3 0).least (fun _ => true) ≤
      ipv4.least fun _ => true :=
    le_least_all (by simp [dottedQuad])
  simp only [List.countP_true] at hle
  omega

theorem takes_octet {t : Text} (h : IsOctet t) (rest : Text) : (digit.times 1 2).Takes t rest := by
  obtain ⟨hne, hlength, hdigits, -⟩ := h
  have hdigit : ∀ x ∈ t, ∀ rest, digit.Takes [x] rest :=
    fun x hx rest => takes_char (isDigit_digit (hdigits x hx)) rest
  match t with
  | [] => exact absurd rfl hne
  | [x] =>
    exact (hdigit x (by simp) _).cons ((takes_opt_none digit _).cons
      ((takes_opt_none digit _).cons (takes_nil rest)))
  | [x, y] =>
    exact (hdigit x (by simp) _).cons (((hdigit y (by simp) _).alt_left).cons
      ((takes_opt_none digit _).cons (takes_nil rest)))
  | [x, y, z] =>
    exact (hdigit x (by simp) _).cons (((hdigit y (by simp) _).alt_left).cons
      (((hdigit z (by simp) _).alt_left).cons (takes_nil rest)))
  | _ :: _ :: _ :: _ :: _ =>
    simp only [List.length_cons] at hlength
    omega

/-- The pattern matches at every quad that no digit or dot precedes. -/
theorem ipv4_ends_of_quad {q : Text} (hq : IsQuad q) (rest : Text) {before : Option Char}
    (hbefore : before.all (fun c => !(Characters.isDigit c || c = '.')) = true) :
    ipv4.ends ⟨before, q ++ rest, []⟩ ≠ [] := by
  obtain ⟨a, b, c, d, ⟨ha, hb, hc, hd⟩, rfl⟩ := hq
  have hdotted : ∀ {t rest : Text}, IsOctet t →
      (seq (digit.times 1 2) (lit ".")).Takes (t ++ ['.']) rest := by
    intro t rest ht cursor hcursor
    obtain ⟨e, he, hrest⟩ := takes_octet ht (['.'] ++ rest) cursor (by simpa using hcursor)
    obtain ⟨f, hf, hrest'⟩ := takes_lit "." rest e hrest
    exact ⟨f, mem_seq.mpr ⟨e, he, hf⟩, hrest'⟩
  have hthree : ((seq (digit.times 1 2) (lit ".")).times 3 0).Takes
      ((a ++ ['.']) ++ ((b ++ ['.']) ++ ((c ++ ['.']) ++ []))) ((d ++ ([] ++ [])) ++ rest) :=
    (hdotted ha).cons ((hdotted hb).cons ((hdotted hc).cons (takes_nil _)))
  have hlast : (all [digit.times 1 2, opt (seq (lit "/") (digit.times 1 1))]).Takes
      (d ++ ([] ++ [])) rest :=
    (takes_octet hd _).cons ((takes_opt_none _ _).cons (takes_nil rest))
  have hall : (all (dottedQuad ++ [opt (seq (lit "/") (digit.times 1 1))])).Takes
      (((a ++ ['.']) ++ ((b ++ ['.']) ++ ((c ++ ['.']) ++ []))) ++ (d ++ ([] ++ []))) rest :=
    hthree.cons hlast
  obtain ⟨e, he, -⟩ := hall ⟨before, _, []⟩ rfl
  apply List.ne_nil_of_mem (a := e)
  refine mem_all_cons.mpr ⟨⟨before, _, []⟩, mem_edge.mpr ⟨?_, rfl⟩, ?_⟩
  · cases before with
    | none => rfl
    | some x => exact hbefore
  · simpa using he

/-- A dot, or a digit beyond ASCII. -/
def isDotLike (c : Char) : Bool := c = '.' || (Characters.isDigit c && !c.isDigit)

/-- The IPv4 pattern leaves a quad: it stands behind a dot, or a match stops between the digits in
front of it. -/
def LeftByIpv4 (text : Text) : Prop := ∃ before quad after,
  Left (ipv4.findAll text) text before quad after ∧
    (before.getLast?.any isDotLike = true ∨ ∃ m ∈ ipv4.findAll text, StopsAt m (quad ++ after))

/-- A match of the IPv6 pattern stops between the digits in front of a quad. -/
def SplitByIpv6 (text : Text) : Prop := ∃ before quad after,
  Left (ipv6.findAll text) text before quad after ∧ ∃ m ∈ ipv6.findAll text, StopsAt m (quad ++ after)

omit [Characters] in
theorem ipv4_bracketed : Bracketed "[REDACTED_IPv4]".toList :=
  bracketed_of (by simp) (by simp) (by simp)

omit [Characters] in
theorem ipv6_bracketed : Bracketed "[REDACTED_IPv6]".toList :=
  bracketed_of (by simp) (by simp) (by simp)

/-- The IPv4 substitution leaves an exposed quad exactly where the pattern leaves one. -/
theorem exposed_ipv4_iff {text : Text} :
    Exposed (ipv4.sub id ((⟨none, "[REDACTED_IPv4]", none⟩ : Replacement).apply id) text) ↔
      LeftByIpv4 text := by
  have hreplace : ∀ m taken,
      Bracketed ((⟨none, "[REDACTED_IPv4]", none⟩ : Replacement).apply id m taken) := by
    intro m taken
    rw [apply_plain]
    exact ipv4_bracketed
  rw [Pattern.sub, List.map_id]
  constructor
  · rintro ⟨before, quad, after, hsplit, hquad, hbefore, hafter⟩
    obtain ⟨a, b, hleft, hbehind⟩ := left_of_splice hreplace ipv4_start (pieces_findAll ipv4 text)
      hsplit hquad hafter hbefore
    refine ⟨a, quad, b, hleft, ?_⟩
    rcases hbehind with hnot | hstop
    · left
      by_contra hdot
      -- the search would have found the quad
      have htext : (Cursor.ofText text).rest = a ++ (quad ++ b) := hleft.text_eq
      have hnone := ends_of_outside ipv4_advances (n := text.length) le_rfl
        (fun hnil => hquad.ne_nil (List.append_eq_nil_iff.mp hnil).1) htext ?_
      · apply ipv4_ends_of_quad hquad b _ hnone
        cases hlast : a.getLast? with
        | none => rfl
        | some x =>
          rw [hlast] at hnot hdot
          rw [noDigit_some] at hnot
          rw [Option.any_some, isDotLike, hnot, Bool.not_false, Bool.and_true, Bool.or_comm] at hdot
          rw [Option.some_or, Option.all_some, Bool.not_eq_true']
          exact (Bool.not_eq_true _).mp hdot
      · intro m hm hstart
        have huntouched := hleft.untouched m hm
        have hpos := List.length_pos_iff.mpr hquad.ne_nil
        rw [Overlaps, not_and, not_lt] at huntouched
        apply huntouched
        rw [List.length_append] at hstart
        omega
    · exact .inr hstop
  · rintro ⟨before, quad, after, hleft, hbehind⟩
    have hbehind : NoDigit before.getLast? ∨ ∃ m ∈ ipv4.findAll text, StopsAt m (quad ++ after) := by
      refine hbehind.imp_left fun hdot => ?_
      cases hlast : before.getLast? with
      | none => exact noDigit_none
      | some x =>
        rw [hlast, Option.any_some, isDotLike, Bool.or_eq_true, decide_eq_true_eq] at hdot
        rw [noDigit_some]
        rcases hdot with rfl | hdigit
        · decide
        · simpa using (Bool.and_eq_true_iff.mp hdigit).2
    obtain ⟨a, b, hsplice, ha, hb⟩ :=
      splice_of_left hreplace (pieces_findAll ipv4 text) hleft hbehind
    exact ⟨a, quad, b, hsplice, hleft.isQuad, hb, ha⟩

theorem ipv6_start (hself : ∀ c : Char, c.isDigit = true → Characters.folds c c = true)
    {c : Cursor} {m : Match} (h : ipv6.matchAt c = some m) : NoDigit c.before := by
  obtain ⟨d, hd, -⟩ := mem_all_cons.mp (List.mem_of_head? (matchAt_eq_some h).2)
  refine (noDigit_of_notAfter (fun c hc => ?_) hd).2
  rw [isHex_digit hself hc, Bool.true_or]

/-- The IPv6 substitution uncovers a quad only where a match splits the digits in front of it. -/
theorem exposed_of_ipv6 (hself : ∀ c : Char, c.isDigit = true → Characters.folds c c = true)
    {text : Text}
    (h : Exposed (ipv6.sub id ((⟨none, "[REDACTED_IPv6]", none⟩ : Replacement).apply id) text)) :
    Exposed text ∨ SplitByIpv6 text := by
  have hreplace : ∀ m taken,
      Bracketed ((⟨none, "[REDACTED_IPv6]", none⟩ : Replacement).apply id m taken) := by
    intro m taken
    rw [apply_plain]
    exact ipv6_bracketed
  rw [Pattern.sub, List.map_id] at h
  obtain ⟨before, quad, after, hsplit, hquad, hbefore, hafter⟩ := h
  obtain ⟨a, b, hleft, hbehind⟩ := left_of_splice hreplace (ipv6_start hself)
    (pieces_findAll ipv6 text) hsplit hquad hafter hbefore
  rcases hbehind with hnot | hstop
  · exact .inl ⟨a, quad, b, hleft.text_eq, hquad, hnot, hleft.noDigit⟩
  · exact .inr ⟨a, quad, b, hleft, hstop⟩

theorem exposed_of_split {text : Text} (h : SplitByIpv6 text) :
    Exposed (ipv6.sub id ((⟨none, "[REDACTED_IPv6]", none⟩ : Replacement).apply id) text) := by
  have hreplace : ∀ m taken,
      Bracketed ((⟨none, "[REDACTED_IPv6]", none⟩ : Replacement).apply id m taken) := by
    intro m taken
    rw [apply_plain]
    exact ipv6_bracketed
  obtain ⟨before, quad, after, hleft, hstop⟩ := h
  rw [Pattern.sub, List.map_id]
  obtain ⟨a, b, hsplice, ha, hb⟩ :=
    splice_of_left hreplace (pieces_findAll ipv6 text) hleft (.inr hstop)
  exact ⟨a, quad, b, hsplice, hleft.isQuad, hb, ha⟩

/-! ## A whole line -/

/-- The line behind some of the substitutions. -/
def substituted (entries : List (Pattern × Replacement)) (line : Text) : Text :=
  entries.foldl (fun line entry => entry.1.sub id (entry.2.apply id) line) line

/-- What the IPv4 pattern is applied to. -/
def beforeIpv4 (line : Text) : Text := substituted (patterns.take 3) line

/-- What the IPv6 pattern is applied to. -/
def beforeIpv6 (line : Text) : Text := substituted (patterns.take 4) line

theorem scrub_eq (line : Text) (n : ℕ) :
    scrub id id line = substituted (patterns.drop n) (substituted (patterns.take n) line) := by
  rw [substituted, substituted, ← List.foldl_append, List.take_append_drop]
  rfl

omit [Characters] in
theorem substituted_concat (entries : List (Pattern × Replacement)) (entry : Pattern × Replacement)
    (line : Text) : substituted (entries ++ [entry]) line =
      entry.1.sub id (entry.2.apply id) (substituted entries line) := by
  rw [substituted, List.foldl_append]
  rfl

/-- What the IPv4 pattern makes of the line. -/
theorem beforeIpv6_eq (line : Text) : beforeIpv6 line =
    ipv4.sub id ((⟨none, "[REDACTED_IPv4]", none⟩ : Replacement).apply id) (beforeIpv4 line) :=
  substituted_concat (patterns.take 3) (ipv4, ⟨none, "[REDACTED_IPv4]", none⟩) line

/-- What the IPv6 pattern makes of it. -/
theorem behindIpv6_eq (line : Text) : substituted (patterns.take 5) line =
    ipv6.sub id ((⟨none, "[REDACTED_IPv6]", none⟩ : Replacement).apply id) (beforeIpv6 line) :=
  substituted_concat (patterns.take 4) (ipv6, ⟨none, "[REDACTED_IPv6]", none⟩) line

omit [Characters] in
theorem exposed_of_substituted {entries : List (Pattern × Replacement)}
    (h : ∀ entry ∈ entries, Harmless entry.1 entry.2) {line : Text}
    (hexposed : Exposed (substituted entries line)) : Exposed line := by
  induction entries generalizing line with
  | nil => exact hexposed
  | cons entry entries ih =>
    rw [List.forall_mem_cons] at h
    exact exposed_of_sub h.1 (ih h.2 hexposed)

/-- A line in which the address patterns leave no quad and split none shows no quad once it is
redacted; where they do, the text behind them shows one. -/
theorem quads_redacted (hself : ∀ c : Char, c.isDigit = true → Characters.folds c c = true)
    (line : Text) :
    (¬ LeftByIpv4 (beforeIpv4 line) → ¬ SplitByIpv6 (beforeIpv6 line) →
      ¬ Exposed (scrub id id line)) ∧
    (LeftByIpv4 (beforeIpv4 line) → Exposed (beforeIpv6 line)) ∧
    (SplitByIpv6 (beforeIpv6 line) → Exposed (substituted (patterns.take 5) line)) := by
  have hipv4 : Exposed (beforeIpv6 line) ↔ LeftByIpv4 (beforeIpv4 line) := by
    rw [beforeIpv6_eq]
    exact exposed_ipv4_iff
  refine ⟨fun hleft hsplit hexposed => ?_, hipv4.mpr, fun hsplit => ?_⟩
  · rw [scrub_eq line 5] at hexposed
    have hbehind := exposed_of_substituted (harmless_later hself) hexposed
    rw [behindIpv6_eq] at hbehind
    rcases exposed_of_ipv6 hself hbehind with hexposed | hsplit'
    · exact hleft (hipv4.mp hexposed)
    · exact hsplit hsplit'
  · rw [behindIpv6_eq]
    exact exposed_of_split hsplit

end Address

/-- An address that is all of a line. -/
def sampleAddress : Text := ['1', '.', '2', '.', '3', '.', '4']

theorem sampleAddress_redacted : ¬ Exposed (@scrub asciiCharacters Char id id sampleAddress) := by
  have hself : ∀ c : Char, c.isDigit = true → asciiCharacters.folds c c = true := by
    intro c _
    simp [Characters.folds]
  have hpieces : @beforeIpv4 asciiCharacters sampleAddress = sampleAddress ∧
      ((@ipv4 asciiCharacters).findAll sampleAddress).map
        (fun m => (m.start.rest.length, m.stop.rest.length)) = [(7, 0)] ∧
      @beforeIpv6 asciiCharacters sampleAddress = "[REDACTED_IPv4]".toList := by decide +kernel
  obtain ⟨hbefore, hmatches, hbehind⟩ := hpieces
  apply (@quads_redacted asciiCharacters hself sampleAddress).1
  · rintro ⟨before, quad, after, hleft, -⟩
    rw [hbefore] at hleft
    obtain ⟨m, hm⟩ : ∃ m, (@ipv4 asciiCharacters).findAll sampleAddress = [m] := by
      rw [← List.length_eq_one_iff, ← List.length_map, hmatches]
      rfl
    rw [hm] at hleft hmatches
    obtain ⟨hstart, hstop⟩ := Prod.mk.inj (List.cons.inj hmatches).1
    have hquad := List.length_pos_iff.mpr hleft.isQuad.ne_nil
    have hlength := congrArg List.length hleft.text_eq
    have huntouched := hleft.untouched m (List.mem_singleton_self m)
    simp only [Overlaps, hstart, hstop, List.length_append, sampleAddress, List.length_cons,
      List.length_nil] at hlength huntouched
    omega
  · rintro ⟨before, quad, after, hleft, -⟩
    have hdot : '.' ∈ "[REDACTED_IPv4]".toList := by
      rw [← hbehind, hleft.text_eq]
      simp [hleft.isQuad.dot_mem]
    simp at hdot

/-- An address behind a dot is written as it stands. -/
theorem dottedAddress_shown : ¬ ∀ line, ¬ Exposed (@scrub asciiCharacters Char id id line) := by
  intro h
  apply h ('.' :: sampleAddress)
  have hline : @scrub asciiCharacters Char id id ('.' :: sampleAddress) = '.' :: sampleAddress := by
    decide +kernel
  rw [hline]
  refine ⟨['.'], sampleAddress, [], by simp, ?_, noDigit_some.mpr (by decide), noDigit_none⟩
  refine ⟨['1'], ['2'], ['3'], ['4'], ?_, rfl⟩
  have hoctet : ∀ c : Char, c.isDigit = true → Nat.ofDigitChars 10 [c] 0 ≤ 255 → IsOctet [c] := by
    intro c hdigit hvalue
    exact ⟨List.cons_ne_nil _ _, by simp, List.forall_mem_singleton.mpr hdigit, hvalue⟩
  exact ⟨hoctet '1' rfl (by decide), hoctet '2' rfl (by decide), hoctet '3' rfl (by decide),
    hoctet '4' rfl (by decide)⟩

end RedactInventory
