import Mathlib

/-!
# Python text

`str.splitlines`, `str.strip` and canonical decimals on lists of characters, and
what survives of a list of lines that a child process prints and Python reads back.
-/

namespace PythonText

instance instLawfulBEqListChar : LawfulBEq (List Char) := inferInstance

instance instLawfulBEqOptionString : LawfulBEq (Option String) := inferInstance

/-! ## Character classes -/

/-- The line boundaries of `str.splitlines`; `\r\n` counts once. -/
def isLineBreak (c : Char) : Bool :=
  c ∈ ['\n', '\r', '\x0b', '\x0c', '\x1c', '\x1d', '\x1e', '\u0085', '\u2028', '\u2029']

/-- `str.isspace` of one character. -/
def isSpace (c : Char) : Bool :=
  isLineBreak c || c ∈ ['\t', '\x1f', ' ', '\u00a0', '\u1680', '\u202f', '\u205f', '\u3000'] ||
    ('\u2000' ≤ c && c ≤ '\u200a')

theorem isSpace_of_isLineBreak {c : Char} (h : isLineBreak c = true) : isSpace c = true := by
  simp [isSpace, h]

/-! ## Lines -/

/-- Put a character in front of the first line. -/
def consLine (c : Char) : List (List Char) → List (List Char)
  | [] => [[c]]
  | l :: ls => (c :: l) :: ls

/-- `str.splitlines()`. -/
def splitlines : List Char → List (List Char)
  | [] => []
  | '\r' :: '\n' :: cs => [] :: splitlines cs
  | c :: cs => if isLineBreak c then [] :: splitlines cs else consLine c (splitlines cs)

/-- `str.strip()`. -/
def strip (cs : List Char) : List Char := (cs.dropWhile isSpace).rdropWhile isSpace

/-- One line per item, each ended by a line feed. -/
def unlines (ls : List (List Char)) : List Char := ls.flatMap (· ++ ['\n'])

/-- What `output.strip().splitlines()` reads of items printed one a line. -/
def readLines (ls : List (List Char)) : List (List Char) := splitlines (strip (unlines ls))

theorem ne_return_of_not_isLineBreak {c : Char} (h : isLineBreak c = false) : c ≠ '\r' := by
  rintro rfl
  exact absurd h (by decide)

theorem splitlines_of_ne_return {c : Char} (hr : c ≠ '\r') (cs : List Char) :
    splitlines (c :: cs) =
      if isLineBreak c then [] :: splitlines cs else consLine c (splitlines cs) := by
  rw [splitlines]
  intro ds hc
  exact absurd hc hr

theorem splitlines_cons {c : Char} (h : isLineBreak c = false) (cs : List Char) :
    splitlines (c :: cs) = consLine c (splitlines cs) := by
  rw [splitlines_of_ne_return (ne_return_of_not_isLineBreak h), if_neg (by simp [h])]

theorem splitlines_break {c : Char} (h : isLineBreak c = true) (hr : c ≠ '\r') (cs : List Char) :
    splitlines (c :: cs) = [] :: splitlines cs := by
  rw [splitlines_of_ne_return hr, if_pos h]

theorem splitlines_newline (cs : List Char) : splitlines ('\n' :: cs) = [] :: splitlines cs :=
  splitlines_break (by decide) (by decide) cs

/-- The first line runs to the first line boundary. -/
theorem splitlines_eq_head {l : List Char} (h : l ≠ []) :
    ∃ more, splitlines l = l.takeWhile (!isLineBreak ·) :: more := by
  induction l with
  | nil => exact absurd rfl h
  | cons c cs ih =>
    cases hc : isLineBreak c with
    | true =>
      simp only [List.takeWhile, hc, Bool.not_true]
      by_cases hr : c = '\r'
      · subst hr
        match cs with
        | [] => exact ⟨[], rfl⟩
        | d :: ds =>
          by_cases hd : d = '\n'
          · subst hd
            exact ⟨splitlines ds, by rw [splitlines]⟩
          · refine ⟨splitlines (d :: ds), ?_⟩
            rw [splitlines, if_pos hc]
            intro es _ heq
            exact absurd (List.cons.inj heq).1 hd
      · exact ⟨_, splitlines_break hc hr cs⟩
    | false =>
      rw [splitlines_cons hc]
      simp only [List.takeWhile, hc, Bool.not_false]
      cases cs with
      | nil => exact ⟨[], rfl⟩
      | cons d ds =>
        obtain ⟨more, hm⟩ := ih (by simp)
        exact ⟨more, by rw [hm]; rfl⟩

/-- A line feed after text without carriage returns separates what is before from what is after. -/
theorem splitlines_append_newline (l rest : List Char) (hr : '\r' ∉ l) :
    splitlines (l ++ '\n' :: rest) = splitlines (l ++ ['\n']) ++ splitlines rest := by
  induction l with
  | nil =>
    simp only [List.nil_append, splitlines_newline]
    rfl
  | cons c cs ih =>
    have hcs := ih (fun hm => hr (List.mem_cons_of_mem _ hm))
    cases hc : isLineBreak c with
    | true =>
      have hne : c ≠ '\r' := fun heq => hr (heq ▸ List.mem_cons_self)
      simp only [List.cons_append, splitlines_break hc hne, hcs]
    | false =>
      simp only [List.cons_append, splitlines_cons hc, hcs]
      obtain ⟨more, hm⟩ := splitlines_eq_head (l := cs ++ ['\n']) (by simp)
      rw [hm]
      rfl

/-- Text without line boundaries is one line. -/
theorem splitlines_plain {l : List Char} (h : l ≠ []) (hp : ∀ c ∈ l, isLineBreak c = false) :
    splitlines l = [l] := by
  induction l with
  | nil => exact absurd rfl h
  | cons c cs ih =>
    rw [splitlines_cons (hp c List.mem_cons_self)]
    cases cs with
    | nil => rfl
    | cons d ds =>
      rw [ih (by simp) (fun x hx => hp x (List.mem_cons_of_mem _ hx))]
      rfl

theorem splitlines_plain_newline {l : List Char} (hp : ∀ c ∈ l, isLineBreak c = false) :
    splitlines (l ++ ['\n']) = [l] := by
  induction l with
  | nil => rfl
  | cons c cs ih =>
    rw [List.cons_append, splitlines_cons (hp c List.mem_cons_self),
      ih (fun x hx => hp x (List.mem_cons_of_mem _ hx))]
    rfl

theorem splitlines_unlines {ls : List (List Char)}
    (h : ∀ l ∈ ls, ∀ c ∈ l, isLineBreak c = false) : splitlines (unlines ls) = ls := by
  induction ls with
  | nil => rfl
  | cons l ls ih =>
    rw [List.forall_mem_cons] at h
    have hreturn : '\r' ∉ l := fun hm => ne_return_of_not_isLineBreak (h.1 _ hm) rfl
    have hcons : unlines (l :: ls) = l ++ '\n' :: unlines ls := by simp [unlines]
    rw [hcons, splitlines_append_newline l _ hreturn, splitlines_plain_newline h.1, ih h.2]
    rfl

/-! ## Stripping a listing -/

theorem rdropWhile_append_newline (l : List Char) :
    (l ++ ['\n']).rdropWhile isSpace = l.rdropWhile isSpace := by
  simp [List.rdropWhile, show isSpace '\n' = true by decide]

theorem rdropWhile_append_left {l : List Char} (x : List Char) (h : ∃ c ∈ l, isSpace c = false) :
    (x ++ l).rdropWhile isSpace = x ++ l.rdropWhile isSpace := by
  obtain ⟨c, hc, hs⟩ := h
  simp only [List.rdropWhile, List.reverse_append]
  rw [List.dropWhile_append]
  have hne : (l.reverse.dropWhile isSpace).isEmpty = false := by
    rw [Bool.eq_false_iff, ne_eq, List.isEmpty_iff, List.dropWhile_eq_nil_iff]
    intro hall
    have := hall c (by simpa using hc)
    simp [hs] at this
  simp [hne]

/-- A listing whose items begin with a character that is not white space loses only what is
white at the end of its last item. -/
theorem strip_unlines (init : List (List Char)) (last : List Char)
    (hhead : ∀ l ∈ init ++ [last], ∃ c cs, l = c :: cs ∧ isSpace c = false) :
    strip (unlines (init ++ [last])) = unlines init ++ last.rdropWhile isSpace := by
  obtain ⟨d, ds, rfl, hd⟩ := hhead last (by simp)
  have hfront : (unlines (init ++ [d :: ds])).dropWhile isSpace = unlines (init ++ [d :: ds]) := by
    cases init with
    | nil => simp [unlines, hd]
    | cons l ls =>
      obtain ⟨c, cs, rfl, hc⟩ := hhead l (by simp)
      simp [unlines, hc]
  rw [strip, hfront]
  have hsplit : unlines (init ++ [d :: ds]) = unlines init ++ (d :: ds) ++ ['\n'] := by
    simp [unlines]
  rw [hsplit, rdropWhile_append_newline, rdropWhile_append_left _ ⟨d, by simp, hd⟩]

/-! ## What a reader of a listing sees -/

/-- `h` is a prefix of `l` that keeps everything up to the first white space of `l`. -/
def HeadOf (l h : List Char) : Prop :=
  h <+: l ∧ ∀ p, p <+: l → (∀ c ∈ p, isSpace c = false) → p <+: h

theorem prefix_takeWhile {p l : List Char} {f : Char → Bool} (h : p <+: l)
    (hp : ∀ c ∈ p, f c = true) : p <+: l.takeWhile f := by
  obtain ⟨t, rfl⟩ := h
  rw [List.takeWhile_append_of_pos hp]
  exact ⟨_, rfl⟩

theorem prefix_rdropWhile {p l : List Char} (h : p <+: l) (hp : ∀ c ∈ p, isSpace c = false) :
    p <+: l.rdropWhile isSpace := by
  obtain ⟨t, rfl⟩ := h
  induction t using List.reverseRecOn with
  | nil =>
    rcases List.eq_nil_or_concat p with rfl | ⟨q, c, rfl⟩
    · exact List.nil_prefix
    · have hc : isSpace c = false := hp c (by simp)
      rw [List.append_nil, List.concat_eq_append, List.rdropWhile_concat_neg _ _ _ (by simp [hc])]
  | append_singleton t c ih =>
    rw [← List.append_assoc]
    by_cases hc : isSpace c = true
    · rwa [List.rdropWhile_concat_pos _ _ _ hc]
    · rw [List.rdropWhile_concat_neg _ _ _ hc, List.append_assoc]
      exact ⟨_, rfl⟩

theorem headOf_takeWhile {l t : List Char} (ht : t <+: l)
    (hkeep : ∀ p, p <+: l → (∀ c ∈ p, isSpace c = false) → p <+: t) :
    HeadOf l (t.takeWhile (!isLineBreak ·)) := by
  refine ⟨(List.takeWhile_prefix _).trans ht, ?_⟩
  intro p hp hspace
  apply prefix_takeWhile (hkeep p hp hspace)
  intro c hc
  have hs := hspace c hc
  cases hb : isLineBreak c with
  | false => rfl
  | true => simp [isSpace_of_isLineBreak hb] at hs

/-- Every item of a listing shows up, in order, as the head of one of the lines read back. -/
theorem exists_heads (ls : List (List Char))
    (hhead : ∀ l ∈ ls, ∃ c cs, l = c :: cs ∧ isSpace c = false) (hr : ∀ l ∈ ls, '\r' ∉ l) :
    ∃ hs, hs.Sublist (readLines ls) ∧ List.Forall₂ HeadOf ls hs := by
  rcases List.eq_nil_or_concat ls with rfl | ⟨init, last, rfl⟩
  · exact ⟨[], List.nil_sublist _, .nil⟩
  rw [List.concat_eq_append] at hhead hr ⊢
  rw [readLines, strip_unlines init last hhead]
  obtain ⟨d, ds, hlast, hd⟩ := hhead last (by simp)
  have hinit : ∀ l ∈ init, '\r' ∉ l := fun l hl => hr l (by simp [hl])
  clear hhead hr
  induction init with
  | nil =>
    have hne : last.rdropWhile isSpace ≠ [] := by
      subst hlast
      rw [ne_eq, List.rdropWhile_eq_nil_iff]
      intro hall
      have := hall d (by simp)
      simp [hd] at this
    obtain ⟨more, hm⟩ := splitlines_eq_head hne
    have hpre : last.rdropWhile isSpace <+: last := List.rdropWhile_prefix _ _
    refine ⟨[_], ?_, .cons (headOf_takeWhile hpre fun p hp hs => prefix_rdropWhile hp hs) .nil⟩
    rw [show unlines ([] : List (List Char)) = [] from rfl, List.nil_append, hm]
    exact List.singleton_sublist.mpr List.mem_cons_self
  | cons l ls ih =>
    obtain ⟨hs, hsub, hall⟩ := ih (fun l hl => hinit l (List.mem_cons_of_mem _ hl))
    obtain ⟨more, hm⟩ := splitlines_eq_head (l := l ++ ['\n']) (by simp)
    have hfirst : (l ++ ['\n']).takeWhile (!isLineBreak ·) = l.takeWhile (!isLineBreak ·) := by
      rw [List.takeWhile_append]
      split
      · rename_i hlen
        simp [List.takeWhile, show isLineBreak '\n' = true by decide,
          List.IsPrefix.eq_of_length (List.takeWhile_prefix _) hlen]
      · rfl
    refine ⟨l.takeWhile (!isLineBreak ·) :: hs, ?_,
      .cons (headOf_takeWhile (List.prefix_refl l) fun p hp _ => hp) hall⟩
    have hsplit : unlines (l :: ls) ++ last.rdropWhile isSpace =
        l ++ '\n' :: (unlines ls ++ last.rdropWhile isSpace) := by
      simp [unlines]
    rw [hsplit, splitlines_append_newline _ _ (hinit l List.mem_cons_self), hm, hfirst]
    exact (hsub.trans (List.sublist_append_right _ _)).cons_cons _

/-- Items without white space are read back exactly. -/
theorem readLines_plain (ls : List (List Char))
    (h : ∀ l ∈ ls, l ≠ [] ∧ ∀ c ∈ l, isSpace c = false) : readLines ls = ls := by
  rcases List.eq_nil_or_concat ls with rfl | ⟨init, last, rfl⟩
  · rfl
  rw [List.concat_eq_append] at h ⊢
  have hbreak : ∀ l ∈ init ++ [last], ∀ c ∈ l, isLineBreak c = false := by
    intro l hl c hc
    have hs := (h l hl).2 c hc
    cases hb : isLineBreak c with
    | false => rfl
    | true => simp [isSpace_of_isLineBreak hb] at hs
  have hhead : ∀ l ∈ init ++ [last], ∃ c cs, l = c :: cs ∧ isSpace c = false := by
    intro l hl
    cases hcs : l with
    | nil => exact absurd hcs (h l hl).1
    | cons c cs => exact ⟨c, cs, rfl, (h l hl).2 c (by simp [hcs])⟩
  have hkeep : last.rdropWhile isSpace = last := by
    have := prefix_rdropWhile (List.prefix_refl last) (h last (by simp)).2
    exact ((List.rdropWhile_prefix _ _).eq_of_length_le this.length_le)
  rw [readLines, strip_unlines init last hhead, hkeep]
  clear hhead hkeep
  induction init with
  | nil =>
    simpa [unlines] using splitlines_plain (h last (by simp)).1 (hbreak last (by simp))
  | cons l ls ih =>
    have hsplit : unlines (l :: ls) ++ last = l ++ '\n' :: (unlines ls ++ last) := by
      simp [unlines]
    have hr : '\r' ∉ l := fun hm => by
      have := hbreak l (by simp) '\r' hm
      simp [isLineBreak] at this
    rw [hsplit, splitlines_append_newline _ _ hr, splitlines_plain_newline (hbreak l (by simp)),
      ih (fun l hl => h l (by simp at hl ⊢; tauto)) (fun l hl => hbreak l (by simp at hl ⊢; tauto))]
    rfl

/-- A blank-free beginning of an item is the beginning of some line. -/
theorem exists_line_of_prefix {ls : List (List Char)}
    (hhead : ∀ l ∈ ls, ∃ c cs, l = c :: cs ∧ isSpace c = false) (hr : ∀ l ∈ ls, '\r' ∉ l)
    {l p : List Char} (hl : l ∈ ls) (hp : p <+: l) (hspace : ∀ c ∈ p, isSpace c = false) :
    ∃ x ∈ readLines ls, p <+: x := by
  obtain ⟨hs, hsub, hall⟩ := exists_heads ls hhead hr
  obtain ⟨i, hi, rfl⟩ := List.mem_iff_getElem.mp hl
  obtain ⟨hlen, hget⟩ := List.forall₂_iff_get.mp hall
  have hi' : i < hs.length := hlen ▸ hi
  exact ⟨hs[i], hsub.subset (List.getElem_mem hi'), (hget i hi hi').2 p hp hspace⟩

/-- If each line read back is a blank-free item and none comes twice, the lines are the items. -/
theorem readLines_eq_self {ls : List (List Char)}
    (hhead : ∀ l ∈ ls, ∃ c cs, l = c :: cs ∧ isSpace c = false) (hr : ∀ l ∈ ls, '\r' ∉ l)
    (hnodup : (readLines ls).Nodup)
    (hline : ∀ x ∈ readLines ls, x ∈ ls ∧ ∀ c ∈ x, isSpace c = false) :
    readLines ls = ls := by
  obtain ⟨hs, hsub, hall⟩ := exists_heads ls hhead hr
  obtain ⟨hlen, hget⟩ := List.forall₂_iff_get.mp hall
  -- the head of an item is an item of its own, whose head is the same line
  have hself : ∀ i (hi : i < ls.length) (hi' : i < hs.length), hs[i] = ls[i] := by
    intro i hi hi'
    obtain ⟨hin, hspace⟩ := hline _ (hsub.subset (List.getElem_mem hi'))
    obtain ⟨j, hj, hjx⟩ := List.mem_iff_getElem.mp hin
    have hj' : j < hs.length := hlen ▸ hj
    have hhead' : HeadOf ls[j] hs[j] := hget j hj hj'
    have hkeep : hs[i] <+: hs[j] := hhead'.2 _ (hjx ▸ List.prefix_refl _) hspace
    have hsame : hs[i] = hs[j] := by
      apply hkeep.eq_of_length_le
      rw [← hjx]
      exact hhead'.1.length_le
    have hij : i = j := (List.Nodup.getElem_inj_iff (hnodup.sublist hsub)).mp hsame
    subst hij
    exact hjx.symm
  have hheads : hs = ls := by
    apply List.ext_getElem hlen.symm
    intro i hi' hi
    exact hself i hi hi'
  apply readLines_plain
  intro l hl
  obtain ⟨c, cs, rfl, -⟩ := hhead l hl
  exact ⟨List.cons_ne_nil _ _, (hline _ (hsub.subset (hheads ▸ hl))).2⟩

/-! ## Representations in messages -/

/-- One character of `repr`, inside the given quotes; beyond ASCII every character counts as
printable. -/
def reprChar (quote c : Char) : List Char :=
  if c = quote ∨ c = '\\' then ['\\', c]
  else if c = '\n' then ['\\', 'n']
  else if c = '\r' then ['\\', 'r']
  else if c = '\t' then ['\\', 't']
  else if c.toNat < 0x20 ∨ c.toNat = 0x7f then
    ['\\', 'x', (c.toNat / 16).digitChar, (c.toNat % 16).digitChar]
  else [c]

/-- `repr(text)`. -/
def repr (text : String) : String :=
  let quote := if '\'' ∈ text.toList ∧ '"' ∉ text.toList then '"' else '\''
  String.ofList (quote :: text.toList.flatMap (reprChar quote) ++ [quote])

/-! ## Canonical decimals -/

/-- `int(group)` of a group of the pattern `0|[1-9][0-9]*`, or no match. -/
def canonicalDecimal (cs : List Char) : Option ℕ :=
  match cs with
  | [] => none
  | c :: rest =>
    if (c :: rest).all Char.isDigit && (c != '0' || rest.isEmpty) then
      some (Nat.ofDigitChars 10 (c :: rest) 0)
    else none

theorem head_toDigits_ne_zero {n : ℕ} (hn : 0 < n) :
    ∃ c cs, Nat.toDigits 10 n = c :: cs ∧ c ≠ '0' := by
  induction n using Nat.strongRecOn with
  | ind n ih =>
    rw [Nat.toDigits_eq_if (by omega)]
    split
    · refine ⟨n.digitChar, [], rfl, ?_⟩
      rw [ne_eq, Nat.digitChar_eq_zero]
      omega
    · obtain ⟨c, cs, hcs, hc⟩ := ih (n / 10) (by omega) (by omega)
      exact ⟨c, cs ++ [(n % 10).digitChar], by rw [hcs]; rfl, hc⟩

theorem isDigit_eq_digitChar {c : Char} (h : c.isDigit = true) :
    c.toNat - 48 < 10 ∧ c = (c.toNat - 48).digitChar := by
  have hc : 48 ≤ c.toNat ∧ c.toNat ≤ 57 := by
    rw [Char.isDigit, Bool.and_eq_true, decide_eq_true_eq, decide_eq_true_eq] at h
    exact ⟨UInt32.le_iff_toNat_le.mp h.1, UInt32.le_iff_toNat_le.mp h.2⟩
  have hlt : c.toNat - 48 < 10 := by omega
  refine ⟨hlt, Char.ext (UInt32.toNat_inj.mp ?_)⟩
  have hd := Nat.toNat_digitChar_of_lt_ten hlt
  rw [Nat.add_sub_cancel' hc.1] at hd
  exact hd.symm

/-- Digits without a leading zero are what the number they spell prints as. -/
theorem toDigits_ofDigitChars {cs : List Char} (hd : ∀ c ∈ cs, c.isDigit = true)
    (hz : ∃ c rest, cs = c :: rest ∧ (c ≠ '0' ∨ rest = [])) :
    Nat.toDigits 10 (Nat.ofDigitChars 10 cs 0) = cs := by
  induction cs using List.reverseRecOn with
  | nil => obtain ⟨c, rest, heq, -⟩ := hz; simp at heq
  | append_singleton init d ih =>
    obtain ⟨hlt, hdig⟩ := isDigit_eq_digitChar (hd d (by simp))
    rw [Nat.ofDigitChars_append, Nat.ofDigitChars_cons, Nat.ofDigitChars_nil]
    change Nat.toDigits 10 (10 * _ + (d.toNat - 48)) = _
    cases hinit : init with
    | nil =>
      rw [Nat.ofDigitChars_nil, Nat.toDigits_of_lt_base (by omega)]
      simp only [mul_zero, zero_add, List.nil_append]
      rw [← hdig]
    | cons c rest =>
      obtain ⟨c', rest', heq, hc⟩ := hz
      rw [hinit, List.cons_append, List.cons.injEq] at heq
      obtain ⟨rfl, rfl⟩ := heq
      have hne : c ≠ '0' := hc.resolve_right (by simp)
      have hval := ih (fun x hx => hd x (by simp [hx])) ⟨c, rest, hinit, .inl hne⟩
      rw [hinit] at hval
      have hpos : 0 < Nat.ofDigitChars 10 (c :: rest) 0 := by
        rcases Nat.eq_zero_or_pos (Nat.ofDigitChars 10 (c :: rest) 0) with h0 | h0
        · rw [h0, Nat.toDigits_zero, List.cons.injEq] at hval
          exact absurd hval.1.symm hne
        · exact h0
      rw [← Nat.toDigits_append_toDigits (by omega) hpos hlt, hval,
        Nat.toDigits_of_lt_base hlt, ← hdig]

/-- The pattern's group is matched exactly by what a number prints as. -/
theorem canonicalDecimal_eq_some {cs : List Char} {n : ℕ} :
    canonicalDecimal cs = some n ↔ cs = Nat.toDigits 10 n := by
  constructor
  · intro h
    cases cs with
    | nil => simp [canonicalDecimal] at h
    | cons c rest =>
      simp only [canonicalDecimal, Option.ite_none_right_eq_some, Bool.and_eq_true, List.all_eq_true,
        Bool.or_eq_true, bne_iff_ne, List.isEmpty_iff, Option.some.injEq] at h
      obtain ⟨⟨hd, hz⟩, rfl⟩ := h
      exact (toDigits_ofDigitChars hd ⟨c, rest, rfl, hz⟩).symm
  · rintro rfl
    have hd : ∀ c ∈ Nat.toDigits 10 n, c.isDigit = true :=
      fun c hc => Nat.isDigit_of_mem_toDigits (by omega) (by omega) hc
    have hval : Nat.ofDigitChars 10 (Nat.toDigits 10 n) 0 = n := Nat.ofDigitChars_ten_toDigits
    rcases Nat.eq_zero_or_pos n with rfl | hn
    · rfl
    · obtain ⟨c, cs, hcs, hc⟩ := head_toDigits_ne_zero hn
      rw [hcs] at hd hval ⊢
      simp only [canonicalDecimal, List.all_eq_true.mpr hd, bne_iff_ne.mpr hc, Bool.true_or,
        Bool.and_self, if_true, hval]

theorem canonicalDecimal_injective {cs ds : List Char} {n : ℕ}
    (hc : canonicalDecimal cs = some n) (hd : canonicalDecimal ds = some n) : cs = ds := by
  rw [canonicalDecimal_eq_some.mp hc, canonicalDecimal_eq_some.mp hd]

/-! ## Literals -/

/-- The characters of a literal, with the spelling of the literal as a witness: in this form they
need not be decoded where a computation runs on them. -/
def spelled (s : String) {characters : List Char} (_ : s = String.ofList characters) : List Char :=
  characters

/-- A literal is decoded by its spelling, which spares the kernel the decoding. -/
theorem toList_spelled {s : String} {characters : List Char} (h : s = String.ofList characters) :
    s.toList = characters := by
  rw [h, String.toList_ofList]

end PythonText
