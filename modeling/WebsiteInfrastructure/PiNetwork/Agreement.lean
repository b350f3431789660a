import Mathlib
import WebsiteInfrastructure.KubeadmConfig.Accepted
import WebsiteInfrastructure.KubeadmConfig.Places
import WebsiteInfrastructure.PiNetwork.Validator

/-!
# One reading of the configuration

The network validator finds its values with patterns, and kubeadm with a parser. In a text that is
accepted, both find the same.
-/

namespace PiNetwork

open KubeadmConfig PythonText Raising Regex
open Json (Interpreter)

/-! ## What the pattern of a field matches -/

/-- A part of a text that the pattern of a field matches, behind `before` -/
structure FieldMatch (name : String) (before text value : List Char) : Prop where
  start : ∀ c ∈ before.getLast?, c = '\n'
  shape : ∃ blanks gap tail, text = blanks ++ ((name ++ ":").toList ++ (gap ++ (value ++ tail))) ∧
    blanks.length = 2 ∧ (∀ c ∈ blanks, isSpace c = true) ∧ (∀ c ∈ gap, isSpace c = true) ∧
      ∀ c ∈ tail.takeWhile (!isLineBreak ·), isSpace c = true
  word : value ≠ [] ∧ ∀ c ∈ value, isSpace c = false

open Pattern in
theorem fieldMatch_of_mem {name : String} {a b : List Char} {d : Cursor}
    (h : d ∈ (fieldPattern name).ends (Cursor.place a b)) :
    ∃ value, FieldMatch name a b value ∧ d.groups.lookup "value" = some value := by
  obtain ⟨c₀, hbol, h₁⟩ := mem_all_cons.mp h
  obtain ⟨hstart, rfl⟩ := mem_bol.mp hbol
  obtain ⟨c₁, hfirst, h₂⟩ := mem_all_cons.mp h₁
  obtain ⟨x, xs, hx, hxspace, rfl⟩ := mem_char.mp hfirst
  obtain ⟨c₂, hsecond, h₃⟩ := mem_all_cons.mp h₂
  obtain ⟨y, ys, hy, hyspace, rfl⟩ := mem_char.mp hsecond
  obtain ⟨c₃, hlit, h₄⟩ := mem_all_cons.mp h₃
  obtain ⟨hname, -⟩ := taken_of_mem_lit hlit
  obtain ⟨c₄, hspaces, h₅⟩ := mem_all_cons.mp h₄
  obtain ⟨gap, hgap, hgapSpace, -⟩ := taken_of_mem_star hspaces
  obtain ⟨c₅, hgroup, h₆⟩ := mem_all_cons.mp h₅
  obtain ⟨e, hword, rfl⟩ := mem_group.mp hgroup
  obtain ⟨e₀, hletter, hletters⟩ := mem_seq.mp hword
  obtain ⟨w, ws, hw, hwspace, rfl⟩ := mem_char.mp hletter
  obtain ⟨more, hmore, hmoreSpace, -⟩ := taken_of_mem_star hletters
  obtain ⟨c₆, hblanks, h₇⟩ := mem_all_cons.mp h₆
  obtain ⟨blank, htail, hblank, hgroups⟩ := taken_of_mem_star hblanks
  obtain ⟨c₇, heol, h₈⟩ := mem_all_cons.mp h₇
  obtain ⟨hend, rfl⟩ := mem_eol.mp heol
  have hd : d = c₇ := List.mem_singleton.mp h₈
  dsimp only [Cursor.place] at hstart hx hy hname hgap hw hmore htail
  have hvalue : c₄.rest = (w :: more) ++ e.rest := by rw [hw, hmore, List.cons_append]
  have hb : b = [x, y] ++ ((name ++ ":").toList ++ (gap ++ ((w :: more) ++ e.rest))) := by
    rw [hx, hy, hname, hgap, hvalue]
    rfl
  refine ⟨w :: more, ⟨?_, ⟨[x, y], gap, e.rest, hb, rfl, ?_, hgapSpace, ?_⟩, ?_, ?_⟩, ?_⟩
  · intro c hc
    rw [Option.mem_def.mp hc] at hstart
    simpa using hstart
  · simpa using ⟨hxspace, hyspace⟩
  · -- the line ends with the blanks, or before
    rw [htail]
    intro c hc
    have hprefix : c ∈ blank := by
      rw [List.takeWhile_append] at hc
      split at hc
      · cases hrest : c₇.rest with
        | nil => simpa [hrest] using hc
        | cons z zs =>
          rw [hrest] at hend hc
          obtain rfl : z = '\n' := by simpa using hend
          simpa [isLineBreak] using hc
      · exact (List.takeWhile_prefix _).subset hc
    exact hblank c hprefix
  · simp
  · rw [List.forall_mem_cons]
    exact ⟨by simpa using hwspace, fun c hc => by simpa using hmoreSpace c hc⟩
  · rw [hd, hgroups, Cursor.upTo_eq hvalue, List.lookup_cons_self]

/-! ## The line of a match -/

/-- What stands behind a colon: the value, or nothing but the lines below. -/
def Behind (value rest : List Char) : Prop := rest = [] ∨ rest.dropWhile isSpace = value

/-- The name of a field -/
structure IsField (name : String) : Prop where
  chars : ∀ c ∈ name.toList, isKeyChar c = true
  head : ∃ c cs, name.toList = c :: cs ∧ c ≠ '-' ∧ c ≠ ' '

theorem IsField.plain {name : String} (h : IsField name) :
    ∀ c ∈ (name ++ ":").toList, isSpace c = false := by
  intro c hc
  rw [String.toList_append, List.mem_append] at hc
  rcases hc with hc | hc
  · exact (isKeyChar_plain (h.chars c hc)).1
  · obtain rfl := List.mem_singleton.mp hc
    decide

theorem not_isLineBreak_of_plain {c : Char} (h : isSpace c = false) : isLineBreak c = false := by
  cases hbreak : isLineBreak c with
  | false => rfl
  | true => simp [isSpace_of_isLineBreak hbreak] at h

theorem rdropWhile_append_spaces {l blanks : List Char} (h : ∀ c ∈ blanks, isSpace c = true) :
    (l ++ blanks).rdropWhile isSpace = l.rdropWhile isSpace := by
  induction blanks using List.reverseRecOn with
  | nil => rw [List.append_nil]
  | append_singleton blanks c ih =>
    rw [← List.append_assoc, List.rdropWhile_concat_pos _ _ _ (h c (by simp))]
    exact ih fun d hd => h d (by simp [hd])

theorem rdropWhile_plain {l : List Char} (h : ∀ c ∈ l, isSpace c = false) :
    l.rdropWhile isSpace = l :=
  (List.rdropWhile_prefix _ _).eq_of_length_le
    (prefix_rdropWhile (List.prefix_refl l) h).length_le

/-- What is left of the line behind the colon, without the blanks at its end -/
theorem behind_of_takeWhile {gap value tail : List Char} (hgap : ∀ c ∈ gap, isSpace c = true)
    (hvalue : value ≠ [] ∧ ∀ c ∈ value, isSpace c = false)
    (htail : ∀ c ∈ tail.takeWhile (!isLineBreak ·), isSpace c = true) (front : List Char)
    (hfront : front ≠ [] ∧ ∀ c ∈ front.getLast?, isSpace c = false) :
    ∃ rest, Behind value rest ∧
      (front ++ (gap ++ (value ++ tail)).takeWhile (!isLineBreak ·)).rdropWhile isSpace =
        front ++ rest := by
  have hkeep : front.rdropWhile isSpace = front := by
    rw [List.rdropWhile_eq_self_iff]
    intro hne
    rw [hfront.2 _ (List.getLast?_eq_some_getLast hne)]
    simp
  by_cases hbreak : ∀ c ∈ gap, isLineBreak c = false
  · -- the value is on the line
    have hline : (gap ++ (value ++ tail)).takeWhile (!isLineBreak ·) =
        gap ++ (value ++ tail.takeWhile (!isLineBreak ·)) := by
      rw [List.takeWhile_append_of_pos (by simpa using hbreak), List.takeWhile_append_of_pos]
      intro c hc
      rw [not_isLineBreak_of_plain (hvalue.2 c hc), Bool.not_false]
    refine ⟨gap ++ value, .inr ?_, ?_⟩
    · obtain ⟨c, cs, rfl⟩ := List.exists_cons_of_ne_nil hvalue.1
      have hc := hvalue.2 c List.mem_cons_self
      rw [List.dropWhile_append_of_pos hgap, List.dropWhile_cons_of_neg (by simp [hc])]
    · obtain ⟨c, hc⟩ := List.exists_mem_of_ne_nil _ hvalue.1
      have hword : ∃ c ∈ value, isSpace c = false := ⟨c, hc, hvalue.2 c hc⟩
      rw [hline, ← List.append_assoc, ← List.append_assoc, rdropWhile_append_spaces htail,
        rdropWhile_append_left _ hword, rdropWhile_plain hvalue.2, List.append_assoc]
  · -- it is on a line below
    have hline : ∀ c ∈ (gap ++ (value ++ tail)).takeWhile (!isLineBreak ·), isSpace c = true := by
      have hstop : ¬ (gap.takeWhile (!isLineBreak ·)).length = gap.length := by
        intro hlength
        have hall := (List.takeWhile_prefix _).eq_of_length hlength
        apply hbreak
        intro c hc
        rw [← hall] at hc
        simpa using List.mem_takeWhile_imp hc
      rw [List.takeWhile_append, if_neg hstop]
      exact fun c hc => hgap c ((List.takeWhile_prefix _).subset hc)
    exact ⟨[], .inl rfl, by rw [rdropWhile_append_spaces hline, hkeep, List.append_nil]⟩

/-- The line of a match: it is indented by no more than two characters, all blank. -/
theorem line_of_fieldMatch {name : String} (hname : IsField name) {a b value : List Char}
    (h : FieldMatch name a b value) :
    ∃ line ∈ splitlines (a ++ b), ∃ blanks rest, blanks.length ≤ 2 ∧
      (∀ c ∈ blanks, isSpace c = true) ∧ Behind value rest ∧
        line.rdropWhile isSpace = blanks ++ ((name ++ ":").toList ++ rest) := by
  obtain ⟨blanks, gap, tail, rfl, hlength, hblanks, hgap, htail⟩ := h.shape
  obtain ⟨x, y, rfl⟩ := List.length_eq_two.mp hlength
  -- the line starts behind the last line boundary
  have hline : ∀ (front : List Char) (inner : List Char), (∀ c ∈ front.getLast?, isLineBreak c = true) →
      inner.length ≤ 2 → (∀ c ∈ inner, isSpace c = true ∧ isLineBreak c = false) →
      ∃ line ∈ splitlines (front ++ (inner ++ ((name ++ ":").toList ++ (gap ++ (value ++ tail))))),
        ∃ blanks rest, blanks.length ≤ 2 ∧ (∀ c ∈ blanks, isSpace c = true) ∧ Behind value rest ∧
          line.rdropWhile isSpace = blanks ++ ((name ++ ":").toList ++ rest) := by
    intro front inner hfront hshort hinner
    have hlabel : ∀ c ∈ inner ++ (name ++ ":").toList, isLineBreak c = false := by
      intro c hc
      rcases List.mem_append.mp hc with hc | hc
      · exact (hinner c hc).2
      · exact not_isLineBreak_of_plain (hname.plain c hc)
    have hne : inner ++ (name ++ ":").toList ≠ [] := by simp
    have hlast : ∀ c ∈ (inner ++ (name ++ ":").toList).getLast?, isSpace c = false := by
      rw [String.toList_append, ← List.append_assoc]
      intro c hc
      have hcolon : ':' = c := by simpa using hc
      rw [← hcolon]
      decide
    obtain ⟨rest, hrest, heq⟩ := behind_of_takeWhile hgap h.word htail _ ⟨hne, hlast⟩
    refine ⟨_, mem_splitlines_of_break hfront ?_ ?_, inner, rest, hshort,
      fun c hc => (hinner c hc).1, hrest, ?_⟩
    · rw [← List.append_assoc]
      exact List.append_ne_nil_of_left_ne_nil hne _
    · intro c hc
      rw [← List.append_assoc, List.head?_append_of_ne_nil _ hne] at hc
      exact hlabel c (List.mem_of_mem_head? hc)
    · rw [← List.append_assoc, List.takeWhile_append_of_pos (by simpa using hlabel), heq,
        List.append_assoc]
  have hspaces : isSpace x = true ∧ isSpace y = true := by simpa using hblanks
  cases hy : isLineBreak y with
  | true =>
    have hfound := hline (a ++ [x, y]) [] (by simpa using hy) (by simp) (by simp)
    simpa using hfound
  | false =>
    cases hx : isLineBreak x with
    | true =>
      have hfound := hline (a ++ [x]) [y] (by simpa using hx) (by simp) (by simp [hspaces, hy])
      simpa using hfound
    | false =>
      have hstart : ∀ c ∈ a.getLast?, isLineBreak c = true := by
        intro c hc
        rw [h.start c hc]
        decide
      exact hline a [x, y] hstart (by simp) (by simp [hspaces, hx, hy])

/-! ## The token of the line -/

/-- The indentation counts the spaces of the blanks; all else is content. -/
theorem tokenOf_blanks {line blanks body : List Char} {c : Char} {cs : List Char} {n : ℕ}
    {token : Option Token} (hblanks : ∀ d ∈ blanks, isSpace d = true) (hbody : body = c :: cs)
    (hc : isSpace c = false ∧ c ≠ '#') (hline : line.rdropWhile isSpace = blanks ++ body)
    (h : tokenOf line n = .ok token) :
    ∃ t, token = some t ∧ t.indent = (blanks.takeWhile (· = ' ')).length ∧ t.indent % 2 = 0 ∧
      t.content = blanks.dropWhile (· = ' ') ++ body := by
  have hspace : ¬ c = ' ' := by
    rintro rfl
    exact absurd hc.1 (by decide)
  have htake : (blanks ++ body).takeWhile (· = ' ') = blanks.takeWhile (· = ' ') := by
    rw [List.takeWhile_append, hbody, List.takeWhile_cons_of_neg (by simpa using hspace),
      List.append_nil]
    split
    · next hall => exact ((List.takeWhile_prefix _).eq_of_length hall).symm
    · rfl
  have hdrop : (blanks ++ body).drop (blanks.takeWhile (· = ' ')).length =
      blanks.dropWhile (· = ' ') ++ body := by
    conv_lhs => rw [← List.takeWhile_append_dropWhile (p := (· = ' ')) (l := blanks)]
    rw [List.append_assoc, List.takeWhile_append_dropWhile, List.drop_left]
  have hskip : ¬ (strip (blanks ++ body) = [] ∨
      ((blanks ++ body).dropWhile isSpace).head? = some '#') := by
    have hleft : (blanks ++ body).dropWhile isSpace = body := by
      rw [List.dropWhile_append_of_pos hblanks, hbody, List.dropWhile_cons_of_neg (by simp [hc.1])]
    rw [strip, hleft, List.rdropWhile_eq_nil_iff, hbody]
    rintro (hnil | hcomment)
    · simpa [hc.1] using hnil c List.mem_cons_self
    · exact hc.2 (by simpa using hcomment)
  unfold tokenOf at h
  rw [hline] at h
  dsimp only at h
  rw [htake, hdrop, if_neg hskip] at h
  split at h
  · cases h
  · split at h
    · cases h
    · next heven =>
      split at h
      · cases h
      · exact ⟨_, (Except.ok.inj h).symm, rfl, not_not.mp heven, rfl⟩

/-- A line of a document that is not an item is a pair, and its key begins it. -/
theorem splitPair_field {name : String} (hname : IsField name) (rest : List Char) (n : ℕ) :
    splitPair ((name ++ ":").toList ++ rest) n = .ok (name.toList, rest.dropWhile isSpace) := by
  obtain ⟨c, cs, hcs, -⟩ := hname.head
  have hkey : isKeyChar c = true := hname.chars c (by rw [hcs]; exact List.mem_cons_self)
  have hcolon : isKeyChar ':' = false := by decide
  have hcontent : (name ++ ":").toList ++ rest = name.toList ++ ':' :: rest := by
    rw [String.toList_append, List.append_assoc]
    rfl
  have htake : (name.toList ++ ':' :: rest).takeWhile isKeyChar = name.toList := by
    rw [List.takeWhile_append_of_pos hname.chars, List.takeWhile_cons_of_neg (by simp [hcolon]),
      List.append_nil]
  have hdrop : (name.toList ++ ':' :: rest).dropWhile isKeyChar = ':' :: rest := by
    rw [List.dropWhile_append_of_pos hname.chars, List.dropWhile_cons_of_neg (by simp [hcolon])]
  have hopens : opensPair (name.toList ++ ':' :: rest) = true := by
    rw [opensPair, hdrop, hcs]
    simp [hkey]
  rw [hcontent, splitPair, if_pos hopens, htake, hdrop]
  rfl

theorem head_of_splitPair {content : List Char} {n : ℕ} {pair : List Char × List Char}
    (h : splitPair content n = .ok pair) : ∃ c ∈ content.head?, isKeyChar c = true := by
  unfold splitPair at h
  split at h
  · next hopens =>
    rw [opensPair, Bool.and_eq_true] at hopens
    obtain ⟨c, hc, hkey⟩ := (Option.any_eq_true _ _).mp hopens.1
    exact ⟨c, hc, hkey⟩
  · cases h

/-- The field is neither a key of a document nor a key of two of the inner mappings. -/
structure IsInnerField (name kind key : String) : Prop extends IsField name where
  notAtMargin : ∀ e ∈ expectedDocuments, name ∉ e.keys
  only : ∀ row ∈ innerMappings, name ∈ row.2.2 → row.1 = kind ∧ row.2.1 = key

theorem head_of_rdropWhile {line blanks body : List Char} {c : Char}
    (hblanks : ∀ d ∈ blanks, isSpace d = true) (hc : isSpace c = false)
    (h : line.rdropWhile isSpace = blanks ++ c :: body) :
    (∃ body, strip line = c :: body) ∧ (line.dropWhile isSpace).head? = some c := by
  obtain ⟨more, hline⟩ := List.rdropWhile_prefix isSpace line
  have hleft : line.dropWhile isSpace = (c :: body) ++ more := by
    rw [← hline, h, List.append_assoc, List.dropWhile_append_of_pos hblanks, List.cons_append,
      List.dropWhile_cons_of_neg (by simp [hc])]
  rw [strip, hleft]
  constructor
  · have hkeep : [c] <+: ((c :: body) ++ more).rdropWhile isSpace := by
      apply prefix_rdropWhile
      · exact ⟨body ++ more, rfl⟩
      · simpa using hc
    obtain ⟨tail, htail⟩ := hkeep
    exact ⟨tail, htail.symm⟩
  · rfl

/-- Where the pattern of a field matches an accepted text, kubeadm holds a value at this field, and
it is the matched word, or a block. -/
theorem held_of_fieldMatch {text : List Char} {documents : Documents}
    (haccepted : Accepted text documents) {name kind key : String}
    (hname : IsInnerField name kind key) {a b value : List Char} (htext : text = a ++ b)
    (h : FieldMatch name a b value) :
    ∃ held, heldAt documents kind key name = some held ∧
      (held.isScalar = true → ∃ n, stripScalar value n = .ok held) := by
  obtain ⟨line, hline, blanks, rest, hshort, hblanks, hrest, hright⟩ :=
    line_of_fieldMatch hname.toIsField h
  rw [← htext] at hline
  obtain ⟨c, cs, hcs, hdash, hspace⟩ := hname.head
  have hkey : isKeyChar c = true := hname.chars c (by rw [hcs]; exact List.mem_cons_self)
  have hplain := isKeyChar_plain hkey
  obtain ⟨body, hbody⟩ : ∃ body, (name ++ ":").toList ++ rest = c :: body := by
    rw [String.toList_append, hcs]
    exact ⟨_, rfl⟩
  rw [hbody] at hright
  obtain ⟨⟨body', hstrip⟩, hhead⟩ := head_of_rdropWhile hblanks hplain.1 hright
  have hcontent : hasContent line = true := by
    rw [hasContent, hstrip, hhead]
    simp [hplain.2.2.2.2.1]
  have hmarker : strip line ≠ ['-', '-', '-'] := by
    rw [hstrip]
    intro heq
    exact hdash (List.cons.inj heq).1
  obtain ⟨kind', entries, tokens, n, token, hd, hmapping, -, htoken, htokens⟩ :=
    line_is_token haccepted.parsed hline hcontent hmarker
  obtain ⟨t, rfl, hindent, heven, htcontent⟩ := tokenOf_blanks hblanks rfl
    ⟨hplain.1, hplain.2.2.2.2.1⟩ hright htoken
  have hmem : t ∈ tokens := htokens t rfl
  have hcount := congrArg List.length (List.takeWhile_append_dropWhile (p := (· = ' ')) (l := blanks))
  rw [List.length_append, ← hindent] at hcount
  cases hdrop : blanks.dropWhile (· = ' ') with
  | cons d ds =>
    -- another blank than a space does not begin a key
    rw [hdrop, List.length_cons] at hcount
    have hmargin : t.indent = 0 := by omega
    have hd : isSpace d = true := by
      apply hblanks
      apply (List.dropWhile_suffix (· = ' ')).subset
      rw [hdrop]
      exact List.mem_cons_self
    rcases hmapping.entry_of_mem t hmem with hnone | hdeep | ⟨e, -, raw, hentry⟩
    · cases hnone
    · omega
    · obtain ⟨x, hx, hxkey⟩ := head_of_splitPair hentry.pair.split
      rw [htcontent, hdrop] at hx
      obtain rfl : d = x := by simpa using hx
      rw [(isKeyChar_plain hxkey).1] at hd
      cases hd
  | nil =>
    rw [hdrop] at hcount htcontent
    rw [List.nil_append, ← hbody] at htcontent
    have hitem : t.isItem = false := by
      rw [Token.isItem, htcontent, hbody]
      simpa using hdash
    have hunique : ∀ {indent : ℕ} {e : List Char × KubeadmConfig.Value} {raw : List Char},
        IsEntry t indent e raw → e.1 = name.toList ∧ raw = rest.dropWhile isSpace := by
      intro indent e raw hentry
      have hsplit := hentry.pair.split
      rw [htcontent, splitPair_field hname.toIsField] at hsplit
      obtain ⟨hfirst, hsecond⟩ := Prod.mk.inj (Except.ok.inj hsplit)
      exact ⟨hfirst.symm, hsecond.symm⟩
    have hcases : t.indent = 0 ∨ t.indent = 2 := by
      rw [List.length_nil] at hcount
      omega
    rcases hcases with hmargin | hinner
    · rcases hmapping.entry_of_mem t hmem with hnone | hdeep | ⟨e, he, raw, hentry⟩
      · cases hnone
      · omega
      · obtain ⟨expected, hexpected, key', hkey', heq⟩ := haccepted.key_mem hd he
        rw [(hunique hentry).1, String.toList_inj] at heq
        rw [← heq] at hkey'
        exact absurd hkey' (hname.notAtMargin expected hexpected)
    · rcases hmapping.inner_of_mem t hmem hinner hitem with
        hnone | ⟨key', inner, hentries, e, he, raw, hentry⟩
      · cases hnone
      · obtain ⟨hfirst, hraw⟩ := hunique hentry
        obtain ⟨row, hrow, -, hheld⟩ := haccepted.inner_mem hd hentries
        have hmemInner : (name.toList, e.2) ∈ inner := by
          rw [← hfirst]
          exact he
        obtain ⟨hrowField, hvalue⟩ := hheld name e.2 hmemInner
        obtain ⟨hkind, hkey''⟩ := hname.only row hrow hrowField
        rw [hkind, hkey''] at hvalue
        refine ⟨e.2, hvalue, fun hscalar => ⟨t.line, ?_⟩⟩
        have hne : raw ≠ [] := by
          intro hnil
          rw [hentry.block hnil] at hscalar
          cases hscalar
        rcases hrest with hnil | hword
        · rw [hnil] at hraw
          exact absurd hraw hne
        · rw [← hword, ← hraw]
          exact hentry.scalar hne

/-! ## What is extracted is what is held -/

theorem fieldMatch_of_one {name : String} {text value : List Char} (h : one name text = .ok value) :
    ∃ a b, text = a ++ b ∧ FieldMatch name a b value := by
  unfold one at h
  split at h
  · next found hfound =>
    obtain rfl := Except.ok.inj h
    obtain ⟨m, ms, hall, hgroup, -⟩ := List.map_eq_cons_iff.mp hfound
    obtain ⟨a, b, htext, hstop⟩ := Pattern.mem_findAll (by rw [hall]; exact List.mem_cons_self)
    obtain ⟨value, hvalue, hlookup⟩ := fieldMatch_of_mem hstop
    refine ⟨a, b, htext, ?_⟩
    rwa [← hgroup, Match.group, hlookup]
  · cases h

/-- A word that begins with a digit is the scalar it stands for. -/
theorem scalar_of_stripScalar {value s : List Char} {n : ℕ} (hplain : ∀ c ∈ value, isSpace c = false)
    (hdigit : ∃ c, value.head? = some c ∧ c.isDigit = true)
    (h : stripScalar value n = .ok (.scalar s)) : s = value := by
  obtain ⟨c, hc, hdigit⟩ := hdigit
  have hleft : value.dropWhile isSpace = value := by
    cases value with
    | nil => rfl
    | cons d ds => rw [List.dropWhile_cons_of_neg (by simp [hplain d List.mem_cons_self])]
  have hstrip : strip value = value := by rw [strip, hleft, rdropWhile_plain hplain]
  have hquote : ¬ (value.head? = some '\'' ∨ value.head? = some '"') := by
    rw [hc]
    rintro (heq | heq)
    all_goals
      obtain rfl := Option.some.inj heq
      cases hdigit
  unfold stripScalar at h
  rw [hstrip] at h
  dsimp only at h
  split at h
  · cases h
  · split at h
    · cases h
    · split at h
      · cases h
      · cases h
        rfl

/-- A field that is found, held as a scalar and begins with a digit is held as it is found. -/
theorem held_of_one {text : List Char} {documents : Documents} (haccepted : Accepted text documents)
    {name kind key : String} (hname : IsInnerField name kind key) {value : List Char}
    (hone : one name text = .ok value) (hdigit : ∃ c, value.head? = some c ∧ c.isDigit = true)
    (hscalar : ∃ s, scalar? (heldAt documents kind key name) = some s) :
    heldAt documents kind key name = some (.scalar value) := by
  obtain ⟨a, b, htext, hmatch⟩ := fieldMatch_of_one hone
  obtain ⟨held, hheld, hvalue⟩ := held_of_fieldMatch haccepted hname htext hmatch
  obtain ⟨s, hs⟩ := hscalar
  rw [hheld] at hs
  cases held with
  | scalar s' =>
    obtain ⟨n, hstrip⟩ := hvalue rfl
    rw [hheld, scalar_of_stripScalar hmatch.word.2 hdigit hstrip]
  | list _ => cases hs
  | mapping _ => cases hs

theorem innerField_of_rows {name kind key : String} (hname : IsField name)
    (hmargin : expectedDocuments.all fun e => name ∉ e.keys)
    (honly : innerMappings.all fun row => name ∉ row.2.2 ∨ row.1 = kind ∧ row.2.1 = key) :
    IsInnerField name kind key where
  toIsField := hname
  notAtMargin e he := by simpa using List.all_eq_true.mp hmargin e he
  only row hrow hmem := by
    have hrow := List.all_eq_true.mp honly row hrow
    rw [decide_eq_true_eq] at hrow
    exact hrow.resolve_left (not_not.mpr hmem)

theorem podSubnet_field : IsInnerField "podSubnet" "ClusterConfiguration" "networking" :=
  innerField_of_rows ⟨by simp [isKeyChar], 'p', "odSubnet".toList, rfl, by decide⟩ (by decide) (by decide)

theorem serviceSubnet_field : IsInnerField "serviceSubnet" "ClusterConfiguration" "networking" :=
  innerField_of_rows ⟨by simp [isKeyChar], 's', "erviceSubnet".toList, rfl, by decide⟩ (by decide) (by decide)

theorem advertiseAddress_field :
    IsInnerField "advertiseAddress" "InitConfiguration" "localAPIEndpoint" :=
  innerField_of_rows ⟨by simp [isKeyChar], 'a', "dvertiseAddress".toList, rfl, by decide⟩ (by decide) (by decide)

/-- What kubeadm holds at the three fields is a scalar. -/
theorem scalars_of_accepted {text : List Char} {documents : Documents} (h : Accepted text documents) :
    (∃ s, scalar? (heldAt documents "ClusterConfiguration" "networking" "podSubnet") = some s) ∧
      (∃ s, scalar? (heldAt documents "ClusterConfiguration" "networking" "serviceSubnet") = some s) ∧
        ∃ s, scalar? (heldAt documents "InitConfiguration" "localAPIEndpoint" "advertiseAddress") =
          some s := by
  have hinit := List.flatten_eq_nil_iff.mp h.init
  have hcluster := List.flatten_eq_nil_iff.mp h.cluster
  simp only [List.forall_mem_cons] at hinit hcluster
  obtain ⟨-, -, -, -, -, -, -, hadvertise, -⟩ := hinit
  obtain ⟨-, -, -, -, -, -, -, hpod, hservice, -⟩ := hcluster
  have hscalar : ∀ {α : Type} {value : Option KubeadmConfig.Value} {f : List Char → Option α}
      {message : String}, (if ((scalar? value).bind f).isSome then [] else [message]) = [] →
        ∃ s, scalar? value = some s := by
    intro α value f message hnil
    split at hnil
    · next hsome =>
      obtain ⟨result, hresult⟩ := Option.isSome_iff_exists.mp hsome
      obtain ⟨s, hs, -⟩ := Option.bind_eq_some_iff.mp hresult
      exact ⟨s, hs⟩
    · cases hnil
  exact ⟨hscalar hpod, hscalar hservice, hscalar hadvertise⟩

/-- What the network validator extracts is what kubeadm holds. -/
structure Agrees (text : List Char) (documents : Documents) (target : Target) : Prop where
  pod : ∃ s, one "podSubnet" text = .ok s ∧ Ipv4.networkOf s = some target.pod ∧
    heldAt documents "ClusterConfiguration" "networking" "podSubnet" = some (.scalar s)
  service : ∃ s, one "serviceSubnet" text = .ok s ∧ Ipv4.networkOf s = some target.service ∧
    heldAt documents "ClusterConfiguration" "networking" "serviceSubnet" = some (.scalar s)
  advertise : ∃ s, one "advertiseAddress" text = .ok s ∧ Ipv4.addressOf s = some target.advertise ∧
    heldAt documents "InitConfiguration" "localAPIEndpoint" "advertiseAddress" = some (.scalar s)

theorem configuredNetwork_eq_ok {name : String} {text : List Char} {network : Ipv4.Network}
    (h : configuredNetwork name text = .ok network) :
    ∃ s, one name text = .ok s ∧ Ipv4.networkOf s = some network := by
  obtain ⟨s, hs, h⟩ := bind_eq_ok.mp h
  split at h
  · next found hfound => exact ⟨s, hs, hfound.trans (congrArg some (Except.ok.inj h))⟩
  · cases h

theorem agrees_of_configured {text : List Char} {documents : Documents}
    (haccepted : Accepted text documents) {target : Target} (h : configured text = .ok target) :
    Agrees text documents target := by
  obtain ⟨hpodScalar, hserviceScalar, hadvertiseScalar⟩ := scalars_of_accepted haccepted
  obtain ⟨pod, hpod, h₁⟩ := bind_eq_ok.mp h
  obtain ⟨service, hservice, h₂⟩ := bind_eq_ok.mp h₁
  obtain ⟨value, hvalue, h₃⟩ := bind_eq_ok.mp h₂
  split at h₃
  · next advertise hadvertise =>
    obtain rfl := Except.ok.inj h₃
    obtain ⟨s, hs, hpodNetwork⟩ := configuredNetwork_eq_ok hpod
    obtain ⟨s', hs', hserviceNetwork⟩ := configuredNetwork_eq_ok hservice
    constructor
    · exact ⟨s, hs, hpodNetwork, held_of_one haccepted podSubnet_field hs
        (Ipv4.head_of_networkOf hpodNetwork) hpodScalar⟩
    · exact ⟨s', hs', hserviceNetwork, held_of_one haccepted serviceSubnet_field hs'
        (Ipv4.head_of_networkOf hserviceNetwork) hserviceScalar⟩
    · exact ⟨value, hvalue, hadvertise, held_of_one haccepted advertiseAddress_field hvalue
        (Ipv4.head_of_addressOf hadvertise) hadvertiseScalar⟩
  · cases h₃

/-- For a text that the kubeadm validator accepts, the network validator fails whatever the evidence
says, or it checks the values that kubeadm holds. -/
theorem checks_what_kubeadm_holds [Characters] {text : List Char} (h : validate text = some []) :
    ∃ documents, parseDocuments text = .ok documents ∧
      ((∀ {F : Type} [Interpreter F] [ProtectedHost.Lowering] [Numerals F] (evidence : Evidence F),
        main text evidence = 1) ∨
        ∃ target, configured text = .ok target ∧ Agrees text documents target) := by
  obtain ⟨documents, haccepted⟩ := accepted_of_validate h
  refine ⟨documents, haccepted.parsed, ?_⟩
  cases hconfigured : configured text with
  | error failure =>
    left
    intro F _ _ _ evidence
    rw [main, run, hconfigured]
    rfl
  | ok target => exact .inr ⟨target, rfl, agrees_of_configured haccepted hconfigured⟩

/-! ## A sample -/

namespace Sample

/-- The example configuration, filled in -/
def kubeadmConfig : List Char := unlines
  [    spelled "apiVersion: kubeadm.k8s.io/v1beta4" rfl,
    spelled "kind: InitConfiguration" rfl,
    spelled "localAPIEndpoint:" rfl,
    spelled "  advertiseAddress: 192.168.50.10" rfl,
    spelled "  bindPort: 6443" rfl,
    spelled "nodeRegistration:" rfl,
    spelled "  criSocket: unix:///run/containerd/containerd.sock" rfl,
    spelled "  imagePullPolicy: IfNotPresent" rfl,
    spelled "  imagePullSerial: true" rfl,
    spelled "  name: pi" rfl,
    spelled "  taints: []" rfl,
    spelled "  kubeletExtraArgs:" rfl,
    spelled "    - name: node-ip" rfl,
    spelled "      value: 192.168.50.10" rfl,
    spelled "---" rfl,
    spelled "apiVersion: kubeadm.k8s.io/v1beta4" rfl,
    spelled "kind: ClusterConfiguration" rfl,
    spelled "clusterName: pi-production" rfl,
    spelled "kubernetesVersion: v1.36.4" rfl,
    spelled "controlPlaneEndpoint: 192.168.50.10:6443" rfl,
    spelled "imageRepository: registry.k8s.io" rfl,
    spelled "certificatesDir: /etc/kubernetes/pki" rfl,
    spelled "networking:" rfl,
    spelled "  dnsDomain: cluster.local" rfl,
    spelled "  podSubnet: 10.42.0.0/16" rfl,
    spelled "  serviceSubnet: 10.43.0.0/16" rfl,
    spelled "apiServer:" rfl,
    spelled "  certSANs:" rfl,
    spelled "    - 192.168.50.10" rfl,
    spelled "    - pi.lan" rfl,
    spelled "  extraArgs:" rfl,
    spelled "    - name: admission-control-config-file" rfl,
    spelled "      value: /etc/kubernetes/admission/psa.yaml" rfl,
    spelled "    - name: audit-policy-file" rfl,
    spelled "      value: /etc/kubernetes/audit/audit-policy.yaml" rfl,
    spelled "    - name: audit-log-path" rfl,
    spelled "      value: /var/log/kubernetes/audit/audit.log" rfl,
    spelled "    - name: audit-log-maxage" rfl,
    spelled "      value: \"30\"" rfl,
    spelled "    - name: audit-log-maxbackup" rfl,
    spelled "      value: \"10\"" rfl,
    spelled "    - name: audit-log-maxsize" rfl,
    spelled "      value: \"100\"" rfl,
    spelled "    - name: encryption-provider-config" rfl,
    spelled "      value: /etc/kubernetes/encryption/encryption-config.yaml" rfl,
    spelled "    - name: encryption-provider-config-automatic-reload" rfl,
    spelled "      value: \"true\"" rfl,
    spelled "    - name: service-account-extend-token-expiration" rfl,
    spelled "      value: \"false\"" rfl,
    spelled "  extraVolumes:" rfl,
    spelled "    - name: psa-config" rfl,
    spelled "      hostPath: /etc/kubernetes/admission/psa.yaml" rfl,
    spelled "      mountPath: /etc/kubernetes/admission/psa.yaml" rfl,
    spelled "      readOnly: true" rfl,
    spelled "      pathType: File" rfl,
    spelled "    - name: audit-policy" rfl,
    spelled "      hostPath: /etc/kubernetes/audit/audit-policy.yaml" rfl,
    spelled "      mountPath: /etc/kubernetes/audit/audit-policy.yaml" rfl,
    spelled "      readOnly: true" rfl,
    spelled "      pathType: File" rfl,
    spelled "    - name: audit-log" rfl,
    spelled "      hostPath: /var/log/kubernetes/audit" rfl,
    spelled "      mountPath: /var/log/kubernetes/audit" rfl,
    spelled "      readOnly: false" rfl,
    spelled "      pathType: DirectoryOrCreate" rfl,
    spelled "    - name: encryption-config" rfl,
    spelled "      hostPath: /etc/kubernetes/encryption/encryption-config.yaml" rfl,
    spelled "      mountPath: /etc/kubernetes/encryption/encryption-config.yaml" rfl,
    spelled "      readOnly: true" rfl,
    spelled "      pathType: File" rfl,
    spelled "etcd:" rfl,
    spelled "  local:" rfl,
    spelled "    dataDir: /var/lib/etcd" rfl,
    spelled "    extraArgs:" rfl,
    spelled "      - name: auto-compaction-mode" rfl,
    spelled "        value: periodic" rfl,
    spelled "      - name: auto-compaction-retention" rfl,
    spelled "        value: 1h" rfl,
    spelled "      - name: quota-backend-bytes" rfl,
    spelled "        value: \"8589934592\"" rfl,
    spelled "---" rfl,
    spelled "apiVersion: kubelet.config.k8s.io/v1beta1" rfl,
    spelled "kind: KubeletConfiguration" rfl,
    spelled "cgroupDriver: systemd" rfl,
    spelled "failSwapOn: true" rfl,
    spelled "failCgroupV1: true" rfl,
    spelled "protectKernelDefaults: true" rfl,
    spelled "readOnlyPort: 0" rfl,
    spelled "authentication:" rfl,
    spelled "  anonymous:" rfl,
    spelled "    enabled: false" rfl,
    spelled "  webhook:" rfl,
    spelled "    enabled: true" rfl,
    spelled "authorization:" rfl,
    spelled "  mode: Webhook" rfl,
    spelled "rotateCertificates: true" rfl,
    spelled "seccompDefault: true" rfl,
    spelled "serverTLSBootstrap: false" rfl,
    spelled "enforceNodeAllocatable:" rfl,
    spelled "  - pods" rfl,
    spelled "containerLogMaxFiles: 5" rfl,
    spelled "containerLogMaxSize: 10Mi" rfl,
    spelled "---" rfl,
    spelled "apiVersion: kubeproxy.config.k8s.io/v1alpha1" rfl,
    spelled "kind: KubeProxyConfiguration" rfl,
    spelled "mode: nftables" rfl,
    spelled "clusterCIDR: 10.42.0.0/16" rfl,
    spelled "detectLocalMode: ClusterCIDR" rfl]

/-- One evaluation for each part of the checks. -/
theorem validate_kubeadmConfig : @validate Regex.asciiCharacters kubeadmConfig = some [] := by
  have htext : @textErrors Regex.asciiCharacters kubeadmConfig = [] := by
    decide +kernel
  have hcluster : (parseDocuments kubeadmConfig).toOption.map clusterErrors = some [] := by
    decide +kernel
  have hothers : (parseDocuments kubeadmConfig).toOption.map (fun documents =>
      (documentErrors documents ++ initErrors documents ++ kubeletErrors documents,
        proxyErrors documents)) = some ([], some []) := by
    decide +kernel
  unfold KubeadmConfig.validate
  cases hparse : parseDocuments kubeadmConfig with
  | error e => simp [hparse, Except.toOption] at hcluster
  | ok documents =>
    simp only [hparse, Except.toOption, Option.map_some, Option.some.injEq, Prod.mk.injEq,
      List.append_eq_nil_iff] at hcluster hothers
    obtain ⟨⟨⟨hdocument, hinit⟩, hkubelet⟩, hproxy⟩ := hothers
    simp only [htext, hcluster, hdocument, hinit, hkubelet, hproxy, Option.bind_eq_bind,
      Option.bind_some, List.flatten_cons, List.flatten_nil, List.append_nil]

end Sample

theorem checks_what_kubeadm_holds_sample :
    ∃ documents, parseDocuments Sample.kubeadmConfig = .ok documents ∧
      ((∀ {F : Type} [Interpreter F] [ProtectedHost.Lowering] [Numerals F] (evidence : Evidence F),
        @main F _ _ Regex.asciiCharacters _ Sample.kubeadmConfig evidence = 1) ∨
        ∃ target, configured Sample.kubeadmConfig = .ok target ∧
          Agrees Sample.kubeadmConfig documents target) :=
  @checks_what_kubeadm_holds Regex.asciiCharacters Sample.kubeadmConfig Sample.validate_kubeadmConfig

end PiNetwork
