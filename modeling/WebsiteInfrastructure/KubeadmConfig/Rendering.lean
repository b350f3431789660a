import Mathlib
import WebsiteInfrastructure.KubeadmConfig.Layout

/-!
# Block rendering

A value of the subset written in block style, two spaces for each level, and what the parser makes of
this text.
-/

namespace KubeadmConfig

open PythonText Raising

/-! ## Values of the subset -/

/-- A text that a line can hold between quotes -/
structure Representable (s : Text) : Prop where
  oneLine : ∀ c ∈ s, isLineBreak c = false ∧ c ≠ '\t'
  noMark : hasMark s = false

structure IsKey (key : Text) : Prop where
  chars : ∀ c ∈ key, isKeyChar c = true
  head : ∃ c cs, key = c :: cs ∧ c ≠ '-'

/-- Mappings have distinct keys and at least one, which is what a block can say. -/
inductive Renderable : Value → Prop
  | scalar {s : Text} (h : Representable s) : Renderable (.scalar s)
  | list {items : List Value} (h : ∀ item ∈ items, Renderable item) : Renderable (.list items)
  | mapping {entries : Entries} (hne : entries ≠ []) (hkeys : (entries.map Prod.fst).Nodup)
      (hkey : ∀ e ∈ entries, IsKey e.1) (h : ∀ e ∈ entries, Renderable e.2) :
      Renderable (.mapping entries)

/-! ## Scalars -/

/-- A scalar that needs no quotes behind a key -/
def isPlain (s : Text) : Bool :=
  s ≠ [] && strip s = s && s ≠ ['[', ']'] && !(s.head? = some '\'' || s.head? = some '"') &&
    !([' ', '#'] <:+: s : Bool) && !s.head?.any isMark &&
      !s.getLast?.any (fun c => c = '|' || c = '>')

def quoted (s : Text) : Text := '"' :: (s ++ ['"'])

/-- A scalar behind a key -/
def scalarText (s : Text) : Text := if isPlain s then s else quoted s

/-- A scalar behind a dash, where a plain one could look like a key -/
def itemText (s : Text) : Text := if isPlain s && !opensPair s then s else quoted s

/-- The values that are written on the line of their key -/
def inlineText : Value → Option Text
  | .scalar s => some (scalarText s)
  | .list [] => some ['[', ']']
  | _ => none

/-- The line of a key, from the key on -/
def pairText (key : Text) (value : Value) : Text :=
  key ++ ':' :: (match inlineText value with
    | some text => ' ' :: text
    | none => [])

/-! ## Lines -/

abbrev Line := ℕ × Text

mutual

def blockLines (indent : ℕ) : Value → List Line
  | .scalar _ => []
  | .list items => itemLines indent items
  | .mapping entries => entryLines indent entries

def entryLines (indent : ℕ) : Entries → List Line
  | [] => []
  | (key, value) :: entries =>
    (indent, pairText key value) ::
      ((if (inlineText value).isSome then [] else blockLines (indent + 2) value) ++
        entryLines indent entries)

def itemLines (indent : ℕ) : List Value → List Line
  | [] => []
  | .scalar s :: items => (indent, '-' :: ' ' :: itemText s) :: itemLines indent items
  | .list [] :: items => (indent, ['-', ' ', '[', ']']) :: itemLines indent items
  | .list inner :: items =>
    (indent, ['-']) :: (itemLines (indent + 2) inner ++ itemLines indent items)
  | .mapping [] :: items => itemLines indent items
  | .mapping ((key, value) :: entries) :: items =>
    (indent, '-' :: ' ' :: pairText key value) ::
      ((if (inlineText value).isSome then [] else blockLines (indent + 4) value) ++
        (entryLines (indent + 2) entries ++ itemLines indent items))

end

def lineText (l : Line) : Text := List.replicate l.1 ' ' ++ l.2

/-- The text of a value -/
def render (value : Value) : Text := unlines ((blockLines 0 value).map lineText)

/-! ## A scalar is read as it is -/

theorem stripScalar_quoted (s : Text) (line : ℕ) : stripScalar (quoted s) line = .ok (.scalar s) := by
  have hspace : isSpace '"' = false := by decide
  have hstrip : strip (quoted s) = quoted s := by
    unfold strip quoted
    rw [List.dropWhile_cons_of_neg (by simp [hspace]), ← List.cons_append,
      List.rdropWhile_concat_neg _ _ _ (by simp [hspace])]
  have hlast : (quoted s).getLast? = (quoted s).head? := by
    unfold quoted
    rw [← List.cons_append, List.getLast?_concat]
    rfl
  unfold stripScalar
  dsimp only
  rw [hstrip, hlast, if_neg (by simp [quoted]), if_neg (by simp [quoted]),
    if_pos (by simp [quoted]), if_neg (by simp [quoted])]
  simp [quoted]

theorem isPlain_iff {s : Text} : isPlain s = true ↔
    s ≠ [] ∧ strip s = s ∧ s ≠ ['[', ']'] ∧ ¬ (s.head? = some '\'' ∨ s.head? = some '"') ∧
      ¬ [' ', '#'] <:+: s ∧ s.head?.any isMark = false ∧
        s.getLast?.any (fun c => c = '|' || c = '>') = false := by
  simp [isPlain, and_assoc]

theorem stripScalar_plain {s : Text} (h : isPlain s = true) (line : ℕ) :
    stripScalar s line = .ok (.scalar s) := by
  obtain ⟨hne, hstrip, hempty, hquote, hcomment, -⟩ := isPlain_iff.mp h
  unfold stripScalar
  dsimp only
  rw [hstrip, if_neg hempty, if_neg hne, if_neg hquote, if_neg hcomment]

theorem stripScalar_inlineText {value : Value} {text : Text} (h : inlineText value = some text)
    (line : ℕ) : stripScalar text line = .ok value := by
  unfold inlineText at h
  split at h
  · next s =>
    obtain rfl := Option.some.inj h
    unfold scalarText
    split
    · next hplain => exact stripScalar_plain hplain line
    · exact stripScalar_quoted s line
  · obtain rfl := Option.some.inj h
    rfl
  · cases h

/-! ## A line is one token -/

theorem hasMark_eq_false {text : Text} :
    hasMark text = false ↔ text.IsChain fun c d => (isSpace c && isMark d) = false := by
  induction text with
  | nil => simp [hasMark]
  | cons c text ih =>
    cases text with
    | nil => simp [hasMark]
    | cons d cs =>
      rw [hasMark, Bool.or_eq_false_iff, List.isChain_cons_cons, ih]

/-- A text that can stand on a line, behind spaces or behind a key -/
structure IsWritten (text : Text) : Prop where
  head : ∃ c cs, text = c :: cs ∧ isSpace c = false ∧ isMark c = false
  last : ∀ c ∈ text.getLast?, isSpace c = false ∧ c ≠ '|' ∧ c ≠ '>'
  oneLine : ∀ c ∈ text, isLineBreak c = false ∧ c ≠ '\t'
  noMark : hasMark text = false

theorem IsWritten.append {a b : Text} (ha : IsWritten a) (hb : IsWritten b) :
    IsWritten (a ++ ' ' :: b) := by
  obtain ⟨c, cs, rfl, hspace, hmark⟩ := ha.head
  obtain ⟨d, ds, rfl, hspace', hmark'⟩ := hb.head
  refine ⟨⟨c, cs ++ ' ' :: d :: ds, rfl, hspace, hmark⟩, ?_, ?_, ?_⟩
  · intro x hx
    rw [List.getLast?_append_of_ne_nil _ (by simp), List.getLast?_cons_cons] at hx
    exact hb.last x hx
  · intro x hx
    rcases List.mem_append.mp hx with hx | hx
    · exact ha.oneLine x hx
    · rcases List.mem_cons.mp hx with rfl | hx
      · decide
      · exact hb.oneLine x hx
  · have hfirst := hasMark_eq_false.mp ha.noMark
    have hrest := hasMark_eq_false.mp hb.noMark
    rw [hasMark_eq_false, List.isChain_append]
    refine ⟨hfirst, List.isChain_cons_cons.mpr ⟨by simp [hmark'], hrest⟩, ?_⟩
    intro x _ y hy
    obtain rfl : ' ' = y := by simpa using hy
    simp [isMark]

theorem IsWritten.of_chars {text : Text} (hne : text ≠ [])
    (h : ∀ c ∈ text, isSpace c = false ∧ isMark c = false ∧ c ≠ '|' ∧ c ≠ '>') :
    IsWritten text := by
  obtain ⟨c, cs, rfl⟩ := List.exists_cons_of_ne_nil hne
  have hc := h c List.mem_cons_self
  refine ⟨⟨c, cs, rfl, hc.1, hc.2.1⟩, ?_, ?_, ?_⟩
  · intro x hx
    have hx := h x (List.mem_of_getLast? hx)
    exact ⟨hx.1, hx.2.2⟩
  · intro x hx
    have hspace := (h x hx).1
    constructor
    · cases hbreak : isLineBreak x with
      | false => rfl
      | true => simp [isSpace_of_isLineBreak hbreak] at hspace
    · rintro rfl
      cases hspace
  · rw [hasMark_eq_false]
    apply List.Pairwise.isChain
    rw [List.pairwise_iff_forall_sublist]
    intro a b hab
    have ha := (h a (hab.subset List.mem_cons_self)).1
    simp [ha]

theorem isKeyChar_plain {c : Char} (h : isKeyChar c = true) :
    isSpace c = false ∧ isMark c = false ∧ c ≠ '|' ∧ c ≠ '>' ∧ c ≠ '#' ∧ c ≠ ':' := by
  have hcases : c.isAlphanum = true ∨ c ∈ ['_', '.', '-'] := by
    simpa [isKeyChar] using h
  rcases hcases with hcases | hcases
  · refine ⟨isSpace_of_alphanum hcases, ?_, ?_, ?_, ?_, ?_⟩
    · cases hmark : isMark c with
      | false => rfl
      | true =>
        simp only [isMark, decide_eq_true_eq] at hmark
        fin_cases hmark <;> cases hcases
    all_goals
      rintro rfl
      cases hcases
  · fin_cases hcases <;> decide

theorem IsKey.written {key : Text} (h : IsKey key) : IsWritten (key ++ [':']) := by
  apply IsWritten.of_chars (by simp)
  intro c hc
  rcases List.mem_append.mp hc with hc | hc
  · have hplain := isKeyChar_plain (h.chars c hc)
    exact ⟨hplain.1, hplain.2.1, hplain.2.2.1, hplain.2.2.2.1⟩
  · obtain rfl := List.mem_singleton.mp hc
    decide

theorem quoted_written {s : Text} (h : Representable s) : IsWritten (quoted s) := by
  have hquote : isSpace '"' = false ∧ isMark '"' = false ∧ isLineBreak '"' = false := by decide
  refine ⟨⟨'"', s ++ ['"'], rfl, hquote.1, hquote.2.1⟩, ?_, ?_, ?_⟩
  · intro c hc
    rw [quoted, ← List.cons_append, List.getLast?_concat] at hc
    obtain rfl := Option.some.inj hc
    decide
  · intro c hc
    simp only [quoted, List.mem_cons, List.mem_append, List.not_mem_nil, or_false] at hc
    rcases hc with rfl | hc | rfl
    · decide
    · exact h.oneLine c hc
    · decide
  · have hchain := hasMark_eq_false.mp h.noMark
    rw [hasMark_eq_false, quoted]
    apply List.isChain_cons.mpr
    refine ⟨fun d _ => by simp [hquote.1], ?_⟩
    rw [List.isChain_append]
    refine ⟨hchain, List.isChain_singleton _, ?_⟩
    intro x _ y hy
    obtain rfl : '"' = y := by simpa using hy
    simp [hquote.2.1]

theorem plain_written {s : Text} (h : Representable s) (hplain : isPlain s = true) :
    IsWritten s := by
  obtain ⟨hne, hstrip, -, -, -, hmark, hlast⟩ := isPlain_iff.mp hplain
  obtain ⟨c, cs, rfl⟩ := List.exists_cons_of_ne_nil hne
  have hshort : ((c :: cs).dropWhile isSpace).rdropWhile isSpace = c :: cs := hstrip
  have hdrop : (c :: cs).dropWhile isSpace = c :: cs := by
    have hprefix := List.rdropWhile_prefix isSpace ((c :: cs).dropWhile isSpace)
    rw [hshort] at hprefix
    exact (List.dropWhile_suffix isSpace).eq_of_length_le hprefix.length_le
  rw [hdrop, List.rdropWhile_eq_self_iff] at hshort
  have hhead : isSpace c = false := by
    by_contra hspace
    rw [Bool.not_eq_false] at hspace
    rw [List.dropWhile_cons_of_pos hspace] at hdrop
    have hlength := (List.dropWhile_suffix isSpace (l := cs)).length_le
    rw [hdrop, List.length_cons] at hlength
    omega
  refine ⟨⟨c, cs, rfl, hhead, by simpa using hmark⟩, ?_, h.oneLine, h.noMark⟩
  intro x hx
  have hspace := hshort hne
  rw [List.getLast?_eq_some_getLast hne] at hx hlast
  obtain rfl := Option.some.inj hx
  simp only [Option.any_some, Bool.or_eq_false_iff, decide_eq_false_iff_not] at hlast
  exact ⟨by simpa using hspace, hlast⟩

theorem scalarText_written {s : Text} (h : Representable s) : IsWritten (scalarText s) := by
  unfold scalarText
  split
  · next hplain => exact plain_written h hplain
  · exact quoted_written h

theorem itemText_written {s : Text} (h : Representable s) : IsWritten (itemText s) := by
  unfold itemText
  split
  · next hplain =>
    rw [Bool.and_eq_true] at hplain
    exact plain_written h hplain.1
  · exact quoted_written h

theorem brackets_written : IsWritten ['[', ']'] := by
  apply IsWritten.of_chars (by simp)
  intro c hc
  simp only [List.mem_cons, List.not_mem_nil, or_false] at hc
  rcases hc with rfl | rfl <;> decide

theorem inlineText_written {value : Value} (h : Renderable value) {text : Text}
    (htext : inlineText value = some text) : IsWritten text := by
  unfold inlineText at htext
  split at htext
  · cases h with
    | scalar hs =>
      obtain rfl := Option.some.inj htext
      exact scalarText_written hs
  · obtain rfl := Option.some.inj htext
    exact brackets_written
  · cases htext

theorem pairText_written {key : Text} (hkey : IsKey key) {value : Value} (h : Renderable value) :
    IsWritten (pairText key value) := by
  unfold pairText
  cases htext : inlineText value with
  | none => exact hkey.written
  | some text =>
    have happend := hkey.written.append (inlineText_written h htext)
    rwa [List.append_assoc] at happend

theorem dash_written : IsWritten ['-'] := by
  apply IsWritten.of_chars (by simp)
  intro c hc
  obtain rfl := List.mem_singleton.mp hc
  decide

/-- What a line of a rendered value looks like -/
structure IsLine (l : Line) : Prop where
  even : l.1 % 2 = 0
  written : IsWritten l.2
  noComment : l.2.head? ≠ some '#'
  noMarker : l.2 ≠ ['-', '-', '-']

theorem IsLine.pair {key : Text} (hkey : IsKey key) {value : Value} (h : Renderable value)
    {indent : ℕ} (heven : indent % 2 = 0) : IsLine (indent, pairText key value) := by
  refine ⟨heven, pairText_written hkey h, ?_, ?_⟩
  · obtain ⟨c, cs, rfl, -⟩ := hkey.head
    have hc := isKeyChar_plain (hkey.chars c List.mem_cons_self)
    simp [pairText, hc.2.2.2.2.1]
  · intro heq
    have hmarker : pairText key value = ['-', '-', '-'] := heq
    have hcolon : ':' ∈ pairText key value := by simp [pairText]
    rw [hmarker] at hcolon
    simp at hcolon

theorem IsLine.item {text : Text} (h : IsWritten text) {indent : ℕ} (heven : indent % 2 = 0) :
    IsLine (indent, '-' :: ' ' :: text) :=
  ⟨heven, dash_written.append h, by simp, by simp⟩

theorem IsLine.dash {indent : ℕ} (heven : indent % 2 = 0) : IsLine (indent, ['-']) :=
  ⟨heven, dash_written, by simp, by simp⟩

mutual

theorem isLine_block {indent : ℕ} (heven : indent % 2 = 0) : ∀ {value : Value},
    Renderable value → ∀ l ∈ blockLines indent value, IsLine l
  | .scalar _, _ => by simp [blockLines]
  | .list items, .list h => by
    rw [blockLines]
    exact isLine_items heven h
  | .mapping entries, .mapping _ _ hkey h => by
    rw [blockLines]
    exact isLine_entries heven hkey h

theorem isLine_entries {indent : ℕ} (heven : indent % 2 = 0) : ∀ {entries : Entries},
    (∀ e ∈ entries, IsKey e.1) → (∀ e ∈ entries, Renderable e.2) →
      ∀ l ∈ entryLines indent entries, IsLine l
  | [], _, _ => by simp [entryLines]
  | (key, value) :: entries, hkey, h => by
    rw [List.forall_mem_cons] at hkey h
    rw [entryLines]
    intro l hl
    rcases List.mem_cons.mp hl with rfl | hl
    · exact .pair hkey.1 h.1 heven
    rcases List.mem_append.mp hl with hl | hl
    · split at hl
      · cases hl
      · exact isLine_block (by omega) h.1 l hl
    · exact isLine_entries heven hkey.2 h.2 l hl

theorem isLine_items {indent : ℕ} (heven : indent % 2 = 0) : ∀ {items : List Value},
    (∀ item ∈ items, Renderable item) → ∀ l ∈ itemLines indent items, IsLine l
  | [], _ => by simp [itemLines]
  | .scalar s :: items, h => by
    rw [List.forall_mem_cons] at h
    rw [itemLines]
    intro l hl
    rcases List.mem_cons.mp hl with rfl | hl
    · cases h.1 with
      | scalar hs => exact .item (itemText_written hs) heven
    · exact isLine_items heven h.2 l hl
  | .list [] :: items, h => by
    rw [List.forall_mem_cons] at h
    rw [itemLines]
    intro l hl
    rcases List.mem_cons.mp hl with rfl | hl
    · exact .item brackets_written heven
    · exact isLine_items heven h.2 l hl
  | .list (first :: inner) :: items, h => by
    rw [List.forall_mem_cons] at h
    rw [itemLines]
    · intro l hl
      rcases List.mem_cons.mp hl with rfl | hl
      · exact .dash heven
      rcases List.mem_append.mp hl with hl | hl
      · cases h.1 with
        | list hinner => exact isLine_items (by omega) hinner l hl
      · exact isLine_items heven h.2 l hl
    · simp
  | .mapping [] :: items, h => by
    rw [List.forall_mem_cons] at h
    rw [itemLines]
    exact isLine_items heven h.2
  | .mapping ((key, value) :: entries) :: items, h => by
    rw [List.forall_mem_cons] at h
    rw [itemLines]
    intro l hl
    cases h.1 with
    | mapping _ _ hkey hvalues =>
      rw [List.forall_mem_cons] at hkey hvalues
      rcases List.mem_cons.mp hl with rfl | hl
      · exact .item (pairText_written hkey.1 hvalues.1) heven
      rcases List.mem_append.mp hl with hl | hl
      · split at hl
        · cases hl
        · exact isLine_block (by omega) hvalues.1 l hl
      rcases List.mem_append.mp hl with hl | hl
      · exact isLine_entries (by omega) hkey.2 hvalues.2 l hl
      · exact isLine_items heven h.2 l hl

end

theorem strip_of_written {content : Text} (h : IsWritten content) : strip content = content := by
  obtain ⟨c, cs, rfl, hspace, -⟩ := h.head
  unfold strip
  rw [List.dropWhile_cons_of_neg (by simp [hspace]), List.rdropWhile_eq_self_iff]
  intro hne
  have hlast := (h.last _ (List.getLast?_eq_some_getLast hne)).1
  simp [hlast]

/-- A line is one token, with its content behind the spaces. -/
theorem tokenOf_lineText {l : Line} (h : IsLine l) (line : ℕ) :
    tokenOf (lineText l) line = .ok (some ⟨l.1, l.2, line⟩) := by
  obtain ⟨indent, content⟩ := l
  obtain ⟨heven, hwritten, hcomment, -⟩ := h
  obtain ⟨c, cs, rfl, hspace, hmark⟩ := hwritten.head
  have hc : c ≠ ' ' := by
    rintro rfl
    cases hspace
  have hblank : ∀ d ∈ List.replicate indent ' ', isSpace d = true ∧ d = ' ' := by
    intro d hd
    obtain rfl := List.eq_of_mem_replicate hd
    decide
  have htext : (lineText (indent, c :: cs)).rdropWhile isSpace = lineText (indent, c :: cs) := by
    rw [List.rdropWhile_eq_self_iff]
    intro hne
    have hlast := (hwritten.last _ (List.getLast?_eq_some_getLast (List.cons_ne_nil c cs))).1
    simp [lineText, hlast]
  have hindent : ((lineText (indent, c :: cs)).takeWhile (· = ' ')).length = indent := by
    rw [lineText, List.takeWhile_append_of_pos fun d hd => by simp [(hblank d hd).2]]
    simp [hc]
  have hdrop : (lineText (indent, c :: cs)).drop indent = c :: cs :=
    List.drop_left' List.length_replicate
  have hleft : (lineText (indent, c :: cs)).dropWhile isSpace = c :: cs := by
    rw [lineText, List.dropWhile_append_of_pos fun d hd => (hblank d hd).1,
      List.dropWhile_cons_of_neg (by simp [hspace])]
  have hstrip : strip (lineText (indent, c :: cs)) = c :: cs := by
    have hcontent := strip_of_written hwritten
    unfold strip at hcontent ⊢
    rw [List.dropWhile_cons_of_neg (by simp [hspace])] at hcontent
    rw [hleft, hcontent]
  have htab : '\t' ∉ lineText (indent, c :: cs) := by
    intro hmem
    rcases List.mem_append.mp hmem with hmem | hmem
    · cases (hblank _ hmem).2
    · exact (hwritten.oneLine _ hmem).2 rfl
  have hadvanced : ((c :: cs).head?.any isMark || hasMark (c :: cs) ||
      (c :: cs).getLast?.any (fun c => c = '|' || c = '>')) = false := by
    have hlast := hwritten.last _ (List.getLast?_eq_some_getLast (List.cons_ne_nil c cs))
    rw [hwritten.noMark, List.getLast?_eq_some_getLast (List.cons_ne_nil c cs)]
    simp [hmark, hlast.2.1, hlast.2.2]
  have hskip : ¬ (strip (lineText (indent, c :: cs)) = [] ∨
      ((lineText (indent, c :: cs)).dropWhile isSpace).head? = some '#') := by
    rw [hstrip, hleft]
    simpa using hcomment
  unfold tokenOf
  simp only [htext, hindent, hdrop]
  rw [if_neg hskip, if_neg htab, if_neg (by simpa using heven), hadvanced]
  rfl

/-! ## The tokens are written for the value -/

/-- The indentation and the content of a token -/
def Token.place (t : Token) : Line := (t.indent, t.content)

/-- What stands behind a key on its line -/
def fieldText (value : Value) : Text := (inlineText value).getD []

theorem splitPair_pairText {key : Text} (hkey : IsKey key) {value : Value} (h : Renderable value)
    (line : ℕ) : opensPair (pairText key value) = true ∧
      splitPair (pairText key value) line = .ok (key, fieldText value) := by
  have hcolon : isKeyChar ':' = false := by decide
  obtain ⟨c, cs, hcons, -⟩ := hkey.head
  have htake : ∀ rest, (key ++ ':' :: rest).takeWhile isKeyChar = key := by
    intro rest
    rw [List.takeWhile_append_of_pos hkey.chars, List.takeWhile_cons_of_neg (by simp [hcolon]),
      List.append_nil]
  have hdrop : ∀ rest, (key ++ ':' :: rest).dropWhile isKeyChar = ':' :: rest := by
    intro rest
    rw [List.dropWhile_append_of_pos hkey.chars, List.dropWhile_cons_of_neg (by simp [hcolon])]
  have hopens : opensPair (pairText key value) = true := by
    have hfirst : isKeyChar c = true := hkey.chars c (by rw [hcons]; exact List.mem_cons_self)
    rw [opensPair, pairText, hdrop, hcons]
    simp [hfirst]
  refine ⟨hopens, ?_⟩
  rw [splitPair, if_pos hopens]
  unfold pairText fieldText
  rw [htake, hdrop]
  cases htext : inlineText value with
  | none => rfl
  | some text =>
    obtain ⟨d, ds, rfl, hspace, -⟩ := (inlineText_written h htext).head
    have hblank : isSpace ' ' = true := by decide
    simp [hblank, hspace]

/-- The next token, if there is one, is indented less. -/
def Below (indent : ℕ) (rest : List Token) : Prop := ∀ t ∈ rest.head?, t.indent < indent

theorem Below.mono {i j : ℕ} (hij : i ≤ j) {rest : List Token} (h : Below i rest) : Below j rest :=
  fun t ht => (h t ht).trans_le hij

/-- Lines that all are indented no deeper end what is deeper. -/
theorem below_append {i : ℕ} {tokens rest : List Token} {lines : List Line}
    (htokens : tokens.map Token.place = lines) (hlines : ∀ l ∈ lines.head?, l.1 < i)
    (hrest : Below i rest) : Below i (tokens ++ rest) := by
  cases tokens with
  | nil => exact hrest
  | cons t ts =>
    intro next hnext
    obtain rfl : t = next := by simpa using hnext
    subst htokens
    exact hlines (t.place) (by simp)

theorem head_entryLines {indent : ℕ} {entries : Entries} :
    ∀ l ∈ (entryLines indent entries).head?, l.1 = indent := by
  cases entries with
  | nil => simp [entryLines]
  | cons e entries =>
    obtain ⟨key, value⟩ := e
    simp [entryLines]

theorem head_itemLines {indent : ℕ} {items : List Value} (h : ∀ item ∈ items, Renderable item) :
    ∀ l ∈ (itemLines indent items).head?, l.1 = indent := by
  cases items with
  | nil => simp [itemLines]
  | cons item items =>
    match item, h with
    | .scalar s, _ => simp [itemLines]
    | .list [], _ => simp [itemLines]
    | .list (first :: inner), _ => simp [itemLines]
    | .mapping [], h =>
      cases h (.mapping []) List.mem_cons_self with
      | mapping hne => exact absurd rfl hne
    | .mapping ((key, value) :: entries), _ => simp [itemLines]

/-- A field is the text on the line of its key, or the block below it. -/
theorem field_written {value : Value} {indent line : ℕ} {tokens rest : List Token}
    (h : Renderable value) (htokens : tokens.map Token.place =
      if (inlineText value).isSome then [] else blockLines indent value)
    (hblock : inlineText value = none → tokens.map Token.place = blockLines indent value →
      Block indent value (tokens ++ rest) rest) :
    Field indent line (fieldText value) value (tokens ++ rest) rest := by
  cases htext : inlineText value with
  | some text =>
    have htext' : fieldText value = text := by rw [fieldText, htext]; rfl
    rw [htext, Option.isSome_some, if_pos rfl, List.map_eq_nil_iff] at htokens
    subst htokens
    obtain ⟨c, cs, rfl, -⟩ := (inlineText_written h htext).head
    rw [htext', List.nil_append]
    exact .scalar (List.cons_ne_nil _ _) (stripScalar_inlineText htext _)
  | none =>
    have htext' : fieldText value = [] := by rw [fieldText, htext]; rfl
    rw [htext] at htokens
    rw [htext']
    exact .block (hblock htext htokens)

theorem isItem_of_content {t : Token} {indent : ℕ} {text : Text} (htext : IsWritten text)
    (h : t.place = (indent, '-' :: ' ' :: text)) : IsItem t indent text := by
  obtain ⟨hindent, hcontent⟩ := Prod.mk.inj h
  refine ⟨hindent, by simp [Token.isItem, hcontent], ?_⟩
  have hblank : isSpace ' ' = true := by decide
  have hstrip := strip_of_written htext
  rw [hcontent]
  unfold strip at hstrip ⊢
  rw [List.drop_one, List.tail_cons, List.dropWhile_cons_of_pos hblank, hstrip]

theorem opensPair_itemText (s : Text) : opensPair (itemText s) = false := by
  unfold itemText
  split
  · next h =>
    rw [Bool.and_eq_true] at h
    simpa using h.2
  · rfl

theorem stripScalar_itemText (s : Text) (line : ℕ) :
    stripScalar (itemText s) line = .ok (.scalar s) := by
  unfold itemText
  split
  · next h =>
    rw [Bool.and_eq_true] at h
    exact stripScalar_plain h.1 line
  · exact stripScalar_quoted s line

theorem itemText_ne_nil (s : Text) : itemText s ≠ [] := by
  unfold itemText
  split
  · next h =>
    rw [Bool.and_eq_true] at h
    exact (isPlain_iff.mp h.1).1
  · simp [quoted]

mutual

theorem block_written : ∀ {value : Value} {indent : ℕ} {tokens rest : List Token},
    Renderable value → inlineText value = none →
      tokens.map Token.place = blockLines indent value → Below indent rest →
        Block indent value (tokens ++ rest) rest
  | .scalar s, _, _, _, _, hinline, _, _ => by cases hinline
  | .list [], _, _, _, _, hinline, _, _ => by cases hinline
  | .list (item :: items), indent, tokens, rest, .list h, _, htokens, hrest => by
    rw [blockLines] at htokens
    exact .sequence (by simp) (items_written h htokens hrest)
  | .mapping entries, indent, tokens, rest, .mapping hne _ hkey h, _, htokens, hrest => by
    rw [blockLines] at htokens
    exact .mapping hne (entries_written hkey h htokens hrest)

theorem entries_written : ∀ {entries : Entries} {indent : ℕ} {tokens rest : List Token},
    (∀ e ∈ entries, IsKey e.1) → (∀ e ∈ entries, Renderable e.2) →
      tokens.map Token.place = entryLines indent entries → Below indent rest →
        Mapping indent entries (tokens ++ rest) rest
  | [], indent, tokens, rest, _, _, htokens, hrest => by
    rw [entryLines, List.map_eq_nil_iff] at htokens
    subst htokens
    exact .done fun t ht => .inl (hrest t ht)
  | (key, value) :: entries, indent, tokens, rest, hkey, h, htokens, hrest => by
    rw [List.forall_mem_cons] at hkey h
    rw [entryLines, List.map_eq_cons_iff] at htokens
    obtain ⟨t, ts, rfl, hplace, hts⟩ := htokens
    rw [List.map_eq_append_iff] at hts
    obtain ⟨inner, others, rfl, hinner, hothers⟩ := hts
    obtain ⟨hindent, hcontent⟩ := Prod.mk.inj hplace
    have hpair : IsPair t indent key (fieldText value) := by
      refine ⟨hindent, ?_, ?_⟩
      · obtain ⟨c, cs, rfl, hc⟩ := hkey.1.head
        simp [Token.isItem, hcontent, pairText, hc]
      · rw [hcontent]
        exact (splitPair_pairText hkey.1 h.1 t.line).2
    have hbelow : Below (indent + 2) (others ++ rest) := by
      apply below_append hothers
      · intro l hl
        have hl := head_entryLines l hl
        omega
      · exact hrest.mono (Nat.le_add_right _ _)
    rw [List.cons_append, List.append_assoc]
    exact .entry hpair
      (field_written h.1 hinner fun hinline htokens => block_written h.1 hinline htokens hbelow)
      (entries_written hkey.2 h.2 hothers hrest)

theorem items_written : ∀ {items : List Value} {indent : ℕ} {tokens rest : List Token},
    (∀ item ∈ items, Renderable item) → tokens.map Token.place = itemLines indent items →
      Below indent rest → Sequence indent items (tokens ++ rest) rest
  | [], indent, tokens, rest, _, htokens, hrest => by
    rw [itemLines, List.map_eq_nil_iff] at htokens
    subst htokens
    exact .done hrest
  | .scalar s :: items, indent, tokens, rest, h, htokens, hrest => by
    rw [List.forall_mem_cons] at h
    rw [itemLines, List.map_eq_cons_iff] at htokens
    obtain ⟨t, ts, rfl, hplace, hts⟩ := htokens
    cases h.1 with
    | scalar hs =>
      have hflat : Below (indent + 1) (ts ++ rest) :=
        below_append hts (fun l hl => by have := head_itemLines h.2 l hl; omega)
          (hrest.mono (Nat.le_succ _))
      exact .scalar (isItem_of_content (itemText_written hs) hplace) (itemText_ne_nil s)
        (opensPair_itemText s) (stripScalar_itemText s _)
        (fun next hnext => Nat.le_of_lt_succ (hflat next hnext)) (items_written h.2 hts hrest)
  | .list [] :: items, indent, tokens, rest, h, htokens, hrest => by
    rw [List.forall_mem_cons] at h
    rw [itemLines, List.map_eq_cons_iff] at htokens
    obtain ⟨t, ts, rfl, hplace, hts⟩ := htokens
    have hflat : Below (indent + 1) (ts ++ rest) :=
      below_append hts (fun l hl => by have := head_itemLines h.2 l hl; omega)
        (hrest.mono (Nat.le_succ _))
    exact .scalar (isItem_of_content brackets_written hplace) (by simp) rfl rfl
      (fun next hnext => Nat.le_of_lt_succ (hflat next hnext)) (items_written h.2 hts hrest)
  | .list (first :: inner) :: items, indent, tokens, rest, h, htokens, hrest => by
    rw [List.forall_mem_cons] at h
    rw [itemLines] at htokens
    · rw [List.map_eq_cons_iff] at htokens
      obtain ⟨t, ts, rfl, hplace, hts⟩ := htokens
      rw [List.map_eq_append_iff] at hts
      obtain ⟨nested, others, rfl, hnested, hothers⟩ := hts
      obtain ⟨hindent, hcontent⟩ := Prod.mk.inj hplace
      have hitem : IsItem t indent [] :=
        ⟨hindent, by simp [Token.isItem, hcontent], by rw [hcontent]; rfl⟩
      have hbelow : Below (indent + 2) (others ++ rest) :=
        below_append hothers (fun l hl => by have := head_itemLines h.2 l hl; omega)
          (hrest.mono (Nat.le_add_right _ _))
      rw [List.cons_append, List.append_assoc]
      cases h.1 with
      | list hinner =>
        exact .block hitem (.sequence (by simp) (items_written hinner hnested hbelow))
          (items_written h.2 hothers hrest)
    · simp
  | .mapping [] :: items, _, _, _, h, _, _ => by
    cases h (.mapping []) List.mem_cons_self with
    | mapping hne => exact absurd rfl hne
  | .mapping ((key, value) :: entries) :: items, indent, tokens, rest, h, htokens, hrest => by
    rw [List.forall_mem_cons] at h
    rw [itemLines, List.map_eq_cons_iff] at htokens
    obtain ⟨t, ts, rfl, hplace, hts⟩ := htokens
    rw [List.map_eq_append_iff] at hts
    obtain ⟨inner, ts', rfl, hinner, hts'⟩ := hts
    rw [List.map_eq_append_iff] at hts'
    obtain ⟨more, others, rfl, hmore, hothers⟩ := hts'
    cases h.1 with
    | mapping _ _ hkey hvalues =>
      rw [List.forall_mem_cons] at hkey hvalues
      have hpair := splitPair_pairText hkey.1 hvalues.1 t.line
      have hothersBelow : Below (indent + 2) (others ++ rest) :=
        below_append hothers (fun l hl => by have := head_itemLines h.2 l hl; omega)
          (hrest.mono (Nat.le_add_right _ _))
      have hmoreBelow : Below (indent + 4) (more ++ (others ++ rest)) :=
        below_append hmore (fun l hl => by have := head_entryLines l hl; omega)
          (hothersBelow.mono (by omega))
      rw [List.cons_append, List.append_assoc, List.append_assoc]
      exact .mapping (isItem_of_content (pairText_written hkey.1 hvalues.1) hplace) hpair.1 hpair.2
        (field_written hvalues.1 hinner fun hinline htokens =>
          block_written hvalues.1 hinline htokens hmoreBelow)
        (entries_written hkey.2 hvalues.2 hmore hothersBelow) (items_written h.2 hothers hrest)

end

/-! ## The text is read as the value -/

theorem distinct_of_renderable {value : Value} (h : Renderable value) : Distinct value := by
  induction h with
  | scalar _ => exact .scalar _
  | list _ ih => exact .list ih
  | mapping _ hkeys _ _ ih => exact .mapping hkeys ih

theorem tokensOf_lines {lines : List Line} (h : ∀ l ∈ lines, IsLine l) (n : ℕ) :
    ∃ tokens, tokensOf (lines.map lineText) n = .ok tokens ∧ tokens.map Token.place = lines := by
  induction lines generalizing n with
  | nil => exact ⟨[], rfl, rfl⟩
  | cons l lines ih =>
    rw [List.forall_mem_cons] at h
    obtain ⟨tokens, htokens, hplaces⟩ := ih h.2 (n + 1)
    refine ⟨⟨l.1, l.2, n⟩ :: tokens, ?_, by rw [List.map_cons, hplaces]; rfl⟩
    rw [List.map_cons, tokensOf, tokenOf_lineText h.1, htokens]
    rfl

theorem lineText_plain {l : Line} (h : IsLine l) : lineText l ≠ [] ∧
    ∀ c ∈ lineText l, isLineBreak c = false := by
  obtain ⟨c, cs, hcons, -⟩ := h.written.head
  refine ⟨by simp [lineText, hcons], fun d hd => ?_⟩
  rcases List.mem_append.mp hd with hd | hd
  · obtain rfl := List.eq_of_mem_replicate hd
    decide
  · exact (h.written.oneLine d hd).1

/-- Joined lines are the lines again. -/
theorem splitlines_intercalate {ls : List Text}
    (h : ∀ l ∈ ls, l ≠ [] ∧ ∀ c ∈ l, isLineBreak c = false) :
    splitlines (['\n'].intercalate ls) = ls := by
  rcases List.eq_nil_or_concat ls with rfl | ⟨init, last, rfl⟩
  · rfl
  · rw [List.concat_eq_append] at h ⊢
    have hlast := h last (by simp)
    have hinit : ∀ l ∈ init, ∀ c ∈ l, isLineBreak c = false := fun l hl => (h l (by simp [hl])).2
    have hlines : (init.flatMap fun l => splitlines (l ++ ['\n'])) = init := by
      rw [← splitlines_unlines_eq, splitlines_unlines hinit]
    rw [ShellText.intercalate_concat]
    change splitlines (unlines init ++ last) = _
    rw [splitlines_unlines_append, hlines, splitlines_plain hlast.1 hlast.2]

/-- What one block at the left margin gives, from its lines -/
theorem parseChunk_of_lines {value : Value} (h : Renderable value)
    (hblock : inlineText value = none) {chunk : Text}
    (hchunk : splitlines chunk = (blockLines 0 value).map lineText) (start : ℕ) :
    parseChunk chunk start = .ok value := by
  obtain ⟨tokens, htokens, hplaces⟩ := tokensOf_lines (isLine_block (by decide : 0 % 2 = 0) h) start
  have hwritten : Block 0 value (tokens ++ []) [] :=
    block_written h hblock hplaces (by simp [Below])
  rw [List.append_nil] at hwritten
  have hne : ¬ tokens = [] := by
    rintro rfl
    have hshort := hwritten.length_lt
    simp at hshort
  have hparsed := (parse_complete (callsFor tokens)).2.2 le_rfl hwritten
    (distinct_of_renderable h)
  unfold parseChunk tokenize
  rw [hchunk, htokens]
  simp only [ok_bind, raiseIf_neg hne, hparsed]
  rfl

theorem parseChunk_render {value : Value} (h : Renderable value) (hblock : inlineText value = none)
    (start : ℕ) : parseChunk (render value) start = .ok value := by
  apply parseChunk_of_lines h hblock
  apply splitlines_unlines
  intro text htext
  obtain ⟨l, hl, rfl⟩ := List.mem_map.mp htext
  exact (lineText_plain (isLine_block (by decide : 0 % 2 = 0) h l hl)).2

theorem chunkLines_noMarker {lines : List Text} (h : ∀ line ∈ lines, strip line ≠ ['-', '-', '-'])
    (c : Chunks) (n : ℕ) : chunkLines c n lines =
      { c with
        firstLine := if c.current = [] ∧ lines ≠ [] then c.chunkStart else c.firstLine
        current := c.current ++ lines } := by
  induction lines generalizing c n with
  | nil => simp [chunkLines]
  | cons line lines ih =>
    rw [List.forall_mem_cons] at h
    rw [chunkLines, ih h.2, chunkLine, if_neg h.1]
    simp

theorem strip_lineText {l : Line} (h : IsLine l) : strip (lineText l) = l.2 := by
  obtain ⟨c, cs, hcons, hspace, -⟩ := h.written.head
  have hstrip := strip_of_written h.written
  unfold strip at hstrip ⊢
  have hblank : ∀ d ∈ List.replicate l.1 ' ', isSpace d = true := by
    intro d hd
    obtain rfl := List.eq_of_mem_replicate hd
    decide
  rw [lineText, List.dropWhile_append_of_pos hblank, hstrip]

/-- A text whose lines are one rendered block is one chunk. -/
theorem chunksOf_render {value : Value} (h : Renderable value) (hne : blockLines 0 value ≠ []) :
    chunksOf (render value) =
      [(['\n'].intercalate ((blockLines 0 value).map lineText), 1)] := by
  have hlines := isLine_block (by decide : 0 % 2 = 0) h
  have hsplit : splitlines (render value) = (blockLines 0 value).map lineText := by
    apply splitlines_unlines
    intro text htext
    obtain ⟨l, hl, rfl⟩ := List.mem_map.mp htext
    exact (lineText_plain (hlines l hl)).2
  have hmarkers : ∀ line ∈ (blockLines 0 value).map lineText, strip line ≠ ['-', '-', '-'] := by
    intro line hline
    obtain ⟨l, hl, rfl⟩ := List.mem_map.mp hline
    rw [strip_lineText (hlines l hl)]
    exact (hlines l hl).noMarker
  have hcontent : ((blockLines 0 value).map lineText).any hasContent = true := by
    obtain ⟨l, ls, hcons⟩ := List.exists_cons_of_ne_nil hne
    have hl := hlines l (by rw [hcons]; exact List.mem_cons_self)
    obtain ⟨c, cs, hc, hspace, -⟩ := hl.written.head
    have hcomment := hl.noComment
    have hblank : ∀ d ∈ List.replicate l.1 ' ', isSpace d = true := by
      intro d hd
      obtain rfl := List.eq_of_mem_replicate hd
      decide
    have hfirst : hasContent (lineText l) = true := by
      rw [hasContent, strip_lineText hl, lineText, List.dropWhile_append_of_pos hblank]
      rw [hc] at hcomment ⊢
      rw [List.dropWhile_cons_of_neg (by simp [hspace])]
      simpa using hcomment
    rw [hcons, List.map_cons, List.any_cons, hfirst, Bool.true_or]
  have hlinesNe : (blockLines 0 value).map lineText ≠ [] := by simpa using hne
  unfold chunksOf
  rw [hsplit, chunkLines_noMarker hmarkers]
  simp [Chunks.finish, hcontent, hlinesNe]

theorem parseDocuments_render {entries : Entries} (h : Renderable (.mapping entries)) {kind : Text}
    (hkind : entries.lookup "kind".toList = some (.scalar kind)) :
    parseDocuments (render (.mapping entries)) = .ok [(kind, .mapping entries)] := by
  have hlines := isLine_block (by decide : 0 % 2 = 0) h
  have hne : blockLines 0 (.mapping entries) ≠ [] := by
    rintro hnil
    cases entries with
    | nil => cases hkind
    | cons e entries =>
      obtain ⟨key, value⟩ := e
      simp [blockLines, entryLines] at hnil
  have hchunk : parseChunk (['\n'].intercalate ((blockLines 0 (.mapping entries)).map lineText)) 1 =
      .ok (.mapping entries) := by
    apply parseChunk_of_lines h rfl
    apply splitlines_intercalate
    intro text htext
    obtain ⟨l, hl, rfl⟩ := List.mem_map.mp htext
    exact lineText_plain (hlines l hl)
  rw [parseDocuments, chunksOf_render h hne, addDocuments, addDocument, hchunk]
  simp only [ok_bind, Value.get?, hkind, raiseIf_neg (List.not_mem_nil (a := kind)), List.map_nil]
  rfl

/-! ## The parser decodes its subset -/

/-- What is taken is written, for this value and no other, and no mapping in it has equal keys. -/
theorem parseChunk_reads {chunk : Text} {start : ℕ} {value : Value}
    (h : parseChunk chunk start = .ok value) :
    ∃ tokens, tokenize chunk start = .ok tokens ∧ Block 0 value tokens [] ∧
      (∀ other rest, Block 0 other tokens rest → other = value ∧ rest = []) ∧ Distinct value := by
  obtain ⟨tokens, htokens, h⟩ := bind_eq_ok.mp h
  obtain ⟨⟨parsed, rest⟩, hparsed, h⟩ := bind_eq_ok.mp h
  obtain ⟨hrest, h⟩ := raiseIf_bind_eq_ok.mp h
  obtain rfl := Except.ok.inj h
  obtain rfl := not_not.mp hrest
  obtain ⟨hwritten, hdistinct⟩ := (parse_sound _).2.2 hparsed
  exact ⟨tokens, htokens, hwritten, fun other rest hother => hother.unique hwritten, hdistinct⟩

theorem addDocuments_from {documents result : Documents} {chunks : List (Text × ℕ)}
    (h : addDocuments documents chunks = .ok result) :
    ∀ d ∈ result, d ∈ documents ∨ ∃ chunk ∈ chunks, parseChunk chunk.1 chunk.2 = .ok d.2 := by
  induction chunks generalizing documents with
  | nil =>
    obtain rfl := Except.ok.inj h
    exact fun d hd => .inl hd
  | cons chunk chunks ih =>
    obtain ⟨next, hnext, h⟩ := bind_eq_ok.mp h
    obtain ⟨parsed, hparsed, hnext⟩ := bind_eq_ok.mp hnext
    have hadded : ∀ d ∈ next, d ∈ documents ∨ d.2 = parsed := by
      split at hnext
      · split at hnext
        · obtain ⟨-, hnext⟩ := raiseIf_bind_eq_ok.mp hnext
          obtain rfl := Except.ok.inj hnext
          intro d hd
          rcases List.mem_append.mp hd with hd | hd
          · exact .inl hd
          · obtain rfl := List.mem_singleton.mp hd
            exact .inr rfl
        · cases hnext
      · cases hnext
    intro d hd
    rcases ih h d hd with hd | ⟨other, hother, hparse⟩
    · rcases hadded d hd with hd | heq
      · exact .inl hd
      · exact .inr ⟨chunk, List.mem_cons_self, heq ▸ hparsed⟩
    · exact .inr ⟨other, List.mem_cons_of_mem _ hother, hparse⟩

/-- A rendered value is read as this value; what is accepted is the layout of one value, in which no
mapping has equal keys; and the parser ends on all tokens, with none left or with an error. -/
theorem parser_decodes :
    (∀ value, Renderable value → inlineText value = none → ∀ start,
      parseChunk (render value) start = .ok value) ∧
    (∀ entries kind, Renderable (.mapping entries) →
      entries.lookup "kind".toList = some (.scalar kind) →
        parseDocuments (render (.mapping entries)) = .ok [(kind, .mapping entries)]) ∧
    (∀ text documents, parseDocuments text = .ok documents → ∀ d ∈ documents,
      ∃ chunk ∈ chunksOf text, ∃ tokens, tokenize chunk.1 chunk.2 = .ok tokens ∧
        Block 0 d.2 tokens [] ∧
          (∀ other rest, Block 0 other tokens rest → other = d.2 ∧ rest = []) ∧ Distinct d.2) ∧
    ∀ n tokens indent, callsFor tokens ≤ n → parseBlock n tokens indent ≠ .error .calls := by
  refine ⟨fun value h hblock start => parseChunk_render h hblock start,
    fun entries kind h hkind => parseDocuments_render h hkind, ?_,
    fun n tokens indent hn => (parse_hasCalls n).2.2 tokens indent hn⟩
  intro text documents h d hd
  rcases addDocuments_from h d hd with hnone | ⟨chunk, hchunk, hparsed⟩
  · cases hnone
  · exact ⟨chunk, hchunk, parseChunk_reads hparsed⟩

/-- A document with a list of a mapping, of a scalar that looks like a key, and of an empty list -/
def sampleEntries : Entries :=
  [("kind".toList, .scalar "Sample".toList),
    ("items".toList, .list [.mapping [("name".toList, .scalar "a".toList),
      ("values".toList, .list [.scalar "b # c".toList])], .scalar "d:".toList, .list []])]

theorem sampleEntries_renderable : Renderable (.mapping sampleEntries) := by
  have hscalar : ∀ s ∈ ["Sample", "a", "b # c", "d:"], Renderable (.scalar s.toList) := by
    intro s hs
    refine .scalar ⟨?_, ?_⟩
    · fin_cases hs <;> simp [isLineBreak]
    · fin_cases hs <;> simp [hasMark, isMark]
  have hkey : ∀ s ∈ ["kind", "items", "name", "values"], IsKey s.toList := by
    intro s hs
    refine ⟨?_, ?_⟩
    · fin_cases hs <;> simp [isKeyChar, Char.isAlphanum, Char.isAlpha]
    · fin_cases hs
      all_goals exact ⟨_, _, rfl, by decide⟩
  have hinner : Renderable (.mapping [("name".toList, .scalar "a".toList),
      ("values".toList, .list [.scalar "b # c".toList])]) := by
    refine .mapping (by simp) (by decide) ?_ ?_
    · simp only [List.forall_mem_cons]
      exact ⟨hkey _ (by simp), hkey _ (by simp), by simp⟩
    · simp only [List.forall_mem_cons]
      refine ⟨hscalar _ (by simp), .list ?_, by simp⟩
      simp only [List.forall_mem_cons]
      exact ⟨hscalar _ (by simp), by simp⟩
  refine .mapping (by simp [sampleEntries]) (by decide) ?_ ?_
  · simp only [sampleEntries, List.forall_mem_cons]
    exact ⟨hkey _ (by simp), hkey _ (by simp), by simp⟩
  · simp only [sampleEntries, List.forall_mem_cons]
    refine ⟨hscalar _ (by simp), .list ?_, by simp⟩
    simp only [List.forall_mem_cons]
    exact ⟨hinner, hscalar _ (by simp), .list (by simp), by simp⟩

theorem parser_decodes_sample :
    parseDocuments (render (.mapping sampleEntries)) =
      .ok [("Sample".toList, .mapping sampleEntries)] :=
  parser_decodes.2.1 sampleEntries "Sample".toList sampleEntries_renderable rfl

end KubeadmConfig
