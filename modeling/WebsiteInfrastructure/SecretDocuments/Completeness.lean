import Mathlib
import WebsiteInfrastructure.Library.LineReaders
import WebsiteInfrastructure.Library.RegexTaking
import WebsiteInfrastructure.SecretDocuments.Detector

/-!
# What the detector of Secret documents sees

Without its patterns: a line that alone gives a key `kind` an alarming value, or a document with
`kind: Secret` between a start or an opening and an end or a closing.
-/

namespace SecretDocuments

open PythonText Regex Regex.Pattern

/-! ## What is seen -/

def IsBlank (t : Text) : Prop := ∀ c ∈ t, isSpace c = true

/-- The word, plain or between quotation marks. -/
def spellings (word : String) : List Text :=
  [word.toList, ("\"" ++ word ++ "\"").toList, ("'" ++ word ++ "'").toList]

/-- The line begins with a key `kind`, and `rest` follows its colon. -/
def KindEntry (line rest : Text) : Prop :=
  ∃ lead key gap, IsBlank lead ∧ key ∈ spellings "kind" ∧ IsBlank gap ∧
    line = lead ++ (key ++ (gap ++ ':' :: rest))

/-- What stands behind the colon, without blanks around it and without a comment. -/
def valueOf (rest : Text) : Text :=
  ((rest.dropWhile isSpace).takeWhile (· ≠ '#')).rdropWhile isSpace

/-- The word `Secret`, and no letter next to it. -/
def NamesSecret (value : Text) : Prop :=
  ∃ a b, value = a ++ ("Secret".toList ++ b) ∧ (∀ c ∈ a.getLast?, c.isAlpha = false) ∧
    ∀ c ∈ b.head?, c.isAlpha = false

/-- A value that names `Secret` or could stand for it. -/
def Alarming (value : Text) : Prop :=
  NamesSecret value ∨ (∃ c ∈ value.head?, c ∈ ['!', '&', '*', '|', '>', '[', '\x7b']) ∨
    (∃ c ∈ value.head?, c ∈ ['"', '\'']) ∧ '\\' ∈ value

/-- A line that alone gives a key `kind` an alarming value. -/
def SecretLine (line : Text) : Prop := ∃ rest, KindEntry line rest ∧ Alarming (valueOf rest)

/-- `kind: Secret` between the start of the document, a comma or a brace and its end, a comma or a
brace. -/
def FlowSecret (document : Text) : Prop :=
  ∃ a lead key gap pad value tail b,
    document = a ++ (lead ++ (key ++ (gap ++ ':' :: (pad ++ (value ++ (tail ++ b)))))) ∧
    (∀ c ∈ a.getLast?, c ∈ [',', '\x7b']) ∧ IsBlank lead ∧ key ∈ spellings "kind" ∧ IsBlank gap ∧
    IsBlank pad ∧ value ∈ spellings "Secret" ∧ IsBlank tail ∧ ∀ c ∈ b.head?, c ∈ [',', '\x7d']

/-! ## Parts of the patterns -/

theorem mem_textStart {c d : Cursor} : d ∈ textStart.ends c ↔ c.before = none ∧ d = c := by
  rw [textStart, mem_edge, Option.isNone_iff_eq_none]

/-- What is left at the end of the text. -/
theorem mem_textEnd {c d : Cursor} (h : d ∈ textEnd.ends c) :
    (c.rest = [] ∨ c.rest = ['\n']) ∧ d.groups = c.groups := by
  rcases mem_alt.mp h with h | h
  · obtain ⟨hend, rfl⟩ := mem_edge.mp h
    rw [Option.isNone_iff_eq_none, List.head?_eq_none_iff] at hend
    exact ⟨.inl hend, rfl⟩
  · obtain ⟨e, he, h⟩ := mem_all_cons.mp h
    obtain ⟨e', he', h⟩ := mem_all_cons.mp h
    obtain rfl := List.mem_singleton.mp h
    obtain ⟨x, xs, hrest, hx, rfl⟩ := mem_char.mp he
    obtain ⟨hend, rfl⟩ := mem_edge.mp he'
    rw [Option.isNone_iff_eq_none, List.head?_eq_none_iff] at hend
    have hxs : xs = [] := hend
    rw [hrest, of_decide_eq_true hx, hxs]
    exact ⟨.inr rfl, rfl⟩

theorem takes_textEnd : textEnd.Takes [] [] := by
  apply Takes.alt_left
  intro c hc
  refine ⟨c, mem_edge.mpr ⟨?_, rfl⟩, hc⟩
  rw [hc]
  rfl

theorem taken_of_plainOrQuoted {word : String} {c d : Cursor}
    (h : d ∈ (plainOrQuoted word).ends c) :
    (∃ taken ∈ spellings word, c.rest = taken ++ d.rest) ∧ d.groups = c.groups := by
  rcases mem_alt.mp h with h | h
  · obtain ⟨hrest, hgroups⟩ := taken_of_mem_lit h
    exact ⟨⟨_, by simp [spellings], hrest⟩, hgroups⟩
  · rcases mem_alt.mp h with h | h
    · obtain ⟨hrest, hgroups⟩ := taken_of_mem_lit h
      exact ⟨⟨_, by simp [spellings], hrest⟩, hgroups⟩
    · obtain ⟨hrest, hgroups⟩ := taken_of_mem_lit h
      exact ⟨⟨_, by simp [spellings], hrest⟩, hgroups⟩

theorem takes_plainOrQuoted {word : String} {taken : Text} (h : taken ∈ spellings word)
    (rest : Text) : (plainOrQuoted word).Takes taken rest := by
  simp only [spellings, List.mem_cons, List.not_mem_nil, or_false] at h
  rcases h with rfl | rfl | rfl
  · exact (takes_lit _ _).alt_left
  · exact (takes_lit _ _).alt_left.alt_right
  · exact (takes_lit _ _).alt_right.alt_right

/-- What the pattern of a key takes, and where it ends. -/
theorem taken_of_kindKey {c d : Cursor} (h : d ∈ (all kindKey).ends c) :
    (∃ key gap, key ∈ spellings "kind" ∧ IsBlank gap ∧ c.rest = key ++ (gap ++ ':' :: d.rest)) ∧
      d.before = some ':' ∧ d.groups = c.groups := by
  obtain ⟨e, he, h⟩ := mem_all_cons.mp h
  obtain ⟨e', he', h⟩ := mem_all_cons.mp h
  obtain ⟨e'', he'', h⟩ := mem_all_cons.mp h
  obtain rfl := List.mem_singleton.mp h
  obtain ⟨⟨key, hkey, hrest⟩, hgroups⟩ := taken_of_plainOrQuoted he
  obtain ⟨gap, hgap, hblank, hgroups'⟩ := taken_of_mem_star he'
  obtain ⟨x, xs, hcolon, hx, rfl⟩ := mem_char.mp he''
  refine ⟨⟨key, gap, hkey, hblank, ?_⟩, ?_, hgroups'.trans hgroups⟩
  · rw [hrest, hgap, hcolon, of_decide_eq_true hx]
  · rw [of_decide_eq_true hx]

theorem takes_kindKey {key gap : Text} (hkey : key ∈ spellings "kind") (hgap : IsBlank gap)
    (rest : Text) : (all kindKey).Takes (key ++ (gap ++ [':'])) rest := by
  have hcolon : (all [char (· = ':')]).Takes ([':'] ++ []) rest :=
    (takes_char (decide_eq_true rfl) _).cons (takes_nil rest)
  exact (takes_plainOrQuoted hkey _).cons ((takes_star hgap _).cons hcolon)

/-- A comment takes nothing or begins with its mark. -/
theorem taken_of_comment {c d : Cursor} (h : d ∈ comment.ends c) :
    (d.rest = c.rest ∨ ∃ remark, c.rest = '#' :: (remark ++ d.rest)) ∧ d.groups = c.groups := by
  rcases mem_alt.mp h with h | h
  · obtain ⟨e, he, h⟩ := mem_all_cons.mp h
    obtain ⟨e', he', h⟩ := mem_all_cons.mp h
    obtain rfl := List.mem_singleton.mp h
    obtain ⟨x, xs, hrest, hx, rfl⟩ := mem_char.mp he
    obtain ⟨remark, hremark, -, hgroups⟩ := taken_of_mem_star he'
    have hremark : xs = remark ++ d.rest := hremark
    exact ⟨.inr ⟨remark, by rw [hrest, of_decide_eq_true hx, hremark]⟩, hgroups⟩
  · obtain rfl := List.mem_singleton.mp h
    exact ⟨.inl rfl, rfl⟩

theorem takes_comment {remark : Text} (h : '\n' ∉ remark) (rest : Text) :
    comment.Takes ('#' :: remark) rest := by
  have hremark : ∀ x ∈ remark, decide (x ≠ '\n') = true := by
    intro x hx
    exact decide_eq_true fun heq => h (heq ▸ hx)
  have hall : (all [char (· = '#'), star (char (· ≠ '\n'))]).Takes
      (['#'] ++ (remark ++ [])) rest :=
    (takes_char (decide_eq_true rfl) _).cons ((takes_star hremark _).cons (takes_nil rest))
  rw [List.append_nil] at hall
  exact hall.alt_left

/-! ## A line with a key -/

theorem head_of_spelling (word : String) (hword : ∀ c ∈ word.toList.head?, isSpace c = false)
    (hne : word.toList ≠ []) {t : Text} (h : t ∈ spellings word) :
    ∃ c cs, t = c :: cs ∧ isSpace c = false := by
  simp only [spellings, List.mem_cons, List.not_mem_nil, or_false] at h
  rcases h with rfl | rfl | rfl
  · cases hlist : word.toList with
    | nil => exact absurd hlist hne
    | cons c cs => exact ⟨c, cs, rfl, hword c (by rw [hlist]; rfl)⟩
  · exact ⟨'"', _, by simp; rfl, by decide⟩
  · exact ⟨'\'', _, by simp; rfl, by decide⟩

/-- The blanks before something else are the ones at the start. -/
theorem blank_append_inj {a b : Text} {x y : Text} (ha : IsBlank a) (hb : IsBlank b)
    (hx : ∀ c ∈ x.head?, isSpace c = false) (hy : ∀ c ∈ y.head?, isSpace c = false)
    (h : a ++ x = b ++ y) : a = b ∧ x = y := by
  have hdrop : ∀ {a x : Text}, IsBlank a → (∀ c ∈ x.head?, isSpace c = false) →
      (a ++ x).dropWhile isSpace = x := by
    intro a x ha hx
    rw [List.dropWhile_append_of_pos ha]
    cases x with
    | nil => rfl
    | cons c cs => rw [List.dropWhile_cons_of_neg (by simp [hx c rfl])]
  have hrest : (a ++ x).dropWhile isSpace = x := hdrop ha hx
  rw [h, hdrop hb hy] at hrest
  rw [hrest] at h
  exact ⟨List.append_cancel_right h, hrest.symm⟩

/-- The characters of a key. -/
def keyLetters : Text := ['k', 'i', 'n', 'd', '"', '\'']

theorem mem_keyLetters {key : Text} (hkey : key ∈ spellings "kind") :
    ∀ c ∈ key, c ∈ keyLetters := by
  simp only [spellings, List.mem_cons, List.not_mem_nil, or_false] at hkey
  rcases hkey with rfl | rfl | rfl <;> simp [keyLetters]

theorem isSpace_keyLetters {c : Char} (h : c ∈ keyLetters) : isSpace c = false := by
  simp only [keyLetters, List.mem_cons, List.not_mem_nil, or_false] at h
  rcases h with rfl | rfl | rfl | rfl | rfl | rfl <;> decide

/-- The letters of a key end before its colon. -/
theorem key_append_inj {key key' x y : Text} (hkey : key ∈ spellings "kind")
    (hkey' : key' ∈ spellings "kind") (hx : ∀ c ∈ x.head?, c ∉ keyLetters)
    (hy : ∀ c ∈ y.head?, c ∉ keyLetters) (h : key ++ x = key' ++ y) : x = y := by
  have hdrop : ∀ {key x : Text}, key ∈ spellings "kind" →
      (∀ c ∈ x.head?, c ∉ keyLetters) →
      (key ++ x).dropWhile (fun c => decide (c ∈ keyLetters)) = x := by
    intro key x hkey hx
    rw [List.dropWhile_append_of_pos fun c hc => decide_eq_true (mem_keyLetters hkey c hc)]
    cases x with
    | nil => rfl
    | cons c cs => rw [List.dropWhile_cons_of_neg (by simpa using hx c rfl)]
  have hrest := hdrop hkey hx
  rw [h, hdrop hkey' hy] at hrest
  exact hrest.symm

/-- A line has one key and one rest. -/
theorem KindEntry.unique {line rest rest' : Text} (h : KindEntry line rest)
    (h' : KindEntry line rest') : rest = rest' := by
  obtain ⟨lead, key, gap, hlead, hkey, hgap, rfl⟩ := h
  obtain ⟨lead', key', gap', hlead', hkey', hgap', heq⟩ := h'
  have hstart : ∀ {key : Text} (x : Text), key ∈ spellings "kind" →
      ∀ c ∈ (key ++ x).head?, isSpace c = false := by
    intro key x hkey c hc
    obtain ⟨d, ds, rfl, hd⟩ := head_of_spelling "kind" (by simp; decide) (by simp) hkey
    rw [List.cons_append, List.head?_cons, Option.mem_some] at hc
    rwa [← hc]
  have hbehind : ∀ {gap : Text} (x : Text), IsBlank gap →
      ∀ c ∈ (gap ++ ':' :: x).head?, c ∉ keyLetters := by
    intro gap x hgap c hc
    cases gap with
    | nil =>
      obtain rfl := Option.mem_some.mp hc
      decide
    | cons d ds =>
      obtain rfl := Option.mem_some.mp hc
      intro hmem
      have := hgap d List.mem_cons_self
      rw [isSpace_keyLetters hmem] at this
      cases this
  obtain ⟨-, hkeys⟩ := blank_append_inj hlead hlead' (hstart _ hkey) (hstart _ hkey') heq
  have hgaps := key_append_inj hkey hkey' (hbehind _ hgap) (hbehind _ hgap') hkeys
  obtain ⟨-, hcolons⟩ := blank_append_inj hgap hgap' (by simp; decide) (by simp; decide) hgaps
  exact (List.cons.inj hcolons).2

/-! ## The value of a line -/

/-- Only blanks and a comment are left. -/
def endsLine (rest : Text) : Bool := (rest.takeWhile (· ≠ '#')).all isSpace

/-- The pattern of what is left behind the value. -/
def lineEnd : List Pattern := [spaces, comment, textEnd]

theorem endsLine_of_mem {c d : Cursor} (hfeed : '\n' ∉ c.rest) (h : d ∈ (all lineEnd).ends c) :
    endsLine c.rest = true ∧ d.groups = c.groups := by
  obtain ⟨e, he, h⟩ := mem_all_cons.mp h
  obtain ⟨e', he', h⟩ := mem_all_cons.mp h
  obtain ⟨e'', he'', h⟩ := mem_all_cons.mp h
  obtain rfl := List.mem_singleton.mp h
  obtain ⟨blank, hblank, hall, hgroups⟩ := taken_of_mem_star he
  obtain ⟨hcomment, hgroups'⟩ := taken_of_comment he'
  obtain ⟨hend, hgroups''⟩ := mem_textEnd he''
  refine ⟨?_, hgroups''.trans (hgroups'.trans hgroups)⟩
  have hclean : ∀ c ∈ blank, decide (c ≠ '#') = true := by
    intro c hc
    apply decide_eq_true
    rintro rfl
    exact absurd (hall '#' hc) (by decide)
  rw [endsLine, hblank, List.takeWhile_append_of_pos hclean, List.all_append, Bool.and_eq_true]
  refine ⟨List.all_eq_true.mpr hall, ?_⟩
  rcases hcomment with hsame | ⟨remark, hremark⟩
  · rcases hend with hend | hend
    · rw [← hsame, hend]
      rfl
    · refine absurd ?_ hfeed
      rw [hblank, ← hsame, hend]
      simp
  · rw [hremark, List.takeWhile_cons_of_neg (by simp)]
    rfl

theorem takes_lineEnd {rest : Text} (hfeed : '\n' ∉ rest) (h : endsLine rest = true) :
    (all lineEnd).Takes rest [] := by
  have hblank : ∀ c ∈ rest.takeWhile (· ≠ '#'), isSpace c = true := List.all_eq_true.mp h
  have hnothing : (all [textEnd]).Takes [] [] := takes_textEnd.cons (takes_nil _)
  have hcomment : (all [comment, textEnd]).Takes (rest.dropWhile (· ≠ '#')) [] := by
    cases hdrop : rest.dropWhile (· ≠ '#') with
    | nil => exact (takes_opt_none _ _).cons hnothing
    | cons x remark =>
      have hx : x = '#' := by
        have := List.head?_dropWhile_not (fun c : Char => decide (c ≠ '#')) rest
        rw [hdrop] at this
        simpa using this
      have hremark : '\n' ∉ remark := by
        intro hmem
        apply hfeed
        apply (List.dropWhile_suffix (fun c : Char => decide (c ≠ '#'))).subset
        rw [hdrop]
        exact List.mem_cons_of_mem _ hmem
      have hall := (takes_comment hremark _).cons hnothing
      rwa [List.append_nil, ← hx] at hall
  have hall := (takes_star hblank _).cons hcomment
  rwa [List.takeWhile_append_dropWhile] at hall

/-- The shortest value is the one without blanks at its end. -/
theorem shortest_endsLine (rest : Text) :
    shortest endsLine rest = (rest.takeWhile (· ≠ '#')).rdropWhile isSpace := by
  have hnone : ∀ {t : Text}, t.all isSpace = true → t.rdropWhile isSpace = [] := by
    intro t h
    rw [List.rdropWhile_eq_nil_iff]
    exact List.all_eq_true.mp h
  induction rest with
  | nil => rfl
  | cons x xs ih =>
    rw [shortest]
    split
    · next hend => exact (hnone hend).symm
    · next hend =>
      have hx : x ≠ '#' := by
        rintro rfl
        exact hend rfl
      rw [endsLine, List.takeWhile_cons_of_pos (by simpa using hx)] at hend
      rw [ih, List.takeWhile_cons_of_pos (by simpa using hx)]
      generalize xs.takeWhile (· ≠ '#') = t at hend
      cases hall : t.all isSpace with
      | true =>
        have hplain : isSpace x = false := by
          rw [List.all_cons, hall, Bool.and_true, Bool.not_eq_true] at hend
          exact hend
        have hlast : ([x] : Text).rdropWhile isSpace = [x] := by
          simp [List.rdropWhile, hplain]
        have hdrop : (x :: t).rdropWhile isSpace = [x] := by
          rw [List.rdropWhile, List.reverse_cons, List.dropWhile_append_of_pos]
          · simp [hplain]
          · intro c hc
            exact List.all_eq_true.mp hall c (List.mem_reverse.mp hc)
        rw [hnone hall, hdrop]
      | false =>
        obtain ⟨c, hc, hplain⟩ := List.all_eq_false.mp hall
        have hdrop := rdropWhile_append_left [x] ⟨c, hc, Bool.not_eq_true _ ▸ hplain⟩
        exact hdrop.symm

/-- On a line with a key the pattern reads the value behind its colon. -/
theorem kindLine_value {line rest : Text} (hfeed : '\n' ∉ line) (h : KindEntry line rest) :
    ∃ m, kindLine.matchAt (.ofText line) = some m ∧ m.group "value" = valueOf rest := by
  have hentry := h
  obtain ⟨lead, key, gap, hlead, hkey, hgap, hline⟩ := h
  have hone : ∀ d ∈ (all ([textStart, spaces] ++ kindKey)).ends (.ofText line),
      d = ⟨some ':', rest, []⟩ := by
    intro d hd
    obtain ⟨e, he, hd⟩ := mem_all_cons.mp hd
    obtain ⟨-, rfl⟩ := mem_textStart.mp he
    obtain ⟨e', he', hd⟩ := mem_all_cons.mp hd
    obtain ⟨lead', hlead', hblank, hgroups⟩ := taken_of_mem_star he'
    obtain ⟨⟨key', gap', hkey', hgap', hrest⟩, hbefore, hgroups'⟩ := taken_of_kindKey hd
    have hother : KindEntry line d.rest :=
      ⟨lead', key', gap', hblank, hkey', hgap', by rw [← hrest]; exact hlead'⟩
    obtain ⟨before, drest, groups⟩ := d
    have hnone : groups = [] := hgroups'.trans hgroups
    rw [hentry.unique hother, hnone]
    exact congrArg (Cursor.mk · drest []) hbefore
  have hne : (all ([textStart, spaces] ++ kindKey)).ends (.ofText line) ≠ [] := by
    have htakes := (takes_star hlead _).cons (takes_kindKey hkey hgap rest)
    obtain ⟨d, hd, -⟩ := htakes (.ofText line) (by simp [Cursor.ofText, hline])
    exact List.ne_nil_of_mem (mem_all_cons.mpr ⟨_, mem_textStart.mpr ⟨rfl, rfl⟩, hd⟩)
  have hsuffix : rest <:+ line := ⟨lead ++ (key ++ (gap ++ [':'])), by simp [hline]⟩
  -- the group takes the value, and the rest of the pattern keeps it
  have hgroup : ∀ e : Cursor, e.rest = rest.dropWhile isSpace → e.groups = [] →
      ∃ d, ((all (group "value" (lazy (char (· ≠ '\n'))) :: lineEnd)).ends e).head? = some d ∧
        d.groups = [("value", valueOf rest)] := by
    intro e hrest hgroups
    have hplain : '\n' ∉ e.rest := by
      intro hmem
      rw [hrest] at hmem
      exact hfeed (hsuffix.subset ((List.dropWhile_suffix _).subset hmem))
    have hvalue : shortest endsLine e.rest = valueOf rest := by
      rw [shortest_endsLine, hrest, valueOf]
    rw [← hvalue]
    apply head_group_lazy
    · intro x hx
      exact decide_eq_true fun heq => hplain (heq ▸ hx)
    · exact hgroups
    · rfl
    · intro f hf
      have hfplain : '\n' ∉ f.rest := fun hmem => hplain (hf.subset hmem)
      split
      · next hend =>
        obtain ⟨d, hd, -⟩ := takes_lineEnd hfplain hend f (List.append_nil _).symm
        cases hends : (all lineEnd).ends f with
        | nil =>
          rw [hends] at hd
          cases hd
        | cons first more =>
          have hfirst : first ∈ (all lineEnd).ends f := by
            rw [hends]
            exact List.mem_cons_self
          exact ⟨first, rfl, (endsLine_of_mem hfplain hfirst).2⟩
      · next hend =>
        cases hends : (all lineEnd).ends f with
        | nil => rfl
        | cons first more =>
          have hfirst : first ∈ (all lineEnd).ends f := by
            rw [hends]
            exact List.mem_cons_self
          exact absurd (endsLine_of_mem hfplain hfirst).1 hend
  obtain ⟨e, hrest, hgroups, hhead⟩ :=
    head_star_all (p := isSpace) (c := ⟨some ':', rest, []⟩)
      (group "value" (lazy (char (· ≠ '\n'))) :: lineEnd) (by
        intro e hrest hgroups hnil
        obtain ⟨d, hd, -⟩ := hgroup e hrest hgroups
        rw [hnil] at hd
        cases hd)
  obtain ⟨d, hd, hvalue⟩ := hgroup e hrest hgroups
  have hmatch : (kindLine.ends (.ofText line)).head? = some d := by
    rw [← hd, ← hhead]
    exact head_ends_all_append hone hne
  refine ⟨⟨.ofText line, d⟩, ?_, ?_⟩
  · have hgroups : { Cursor.ofText line with groups := [] } = Cursor.ofText line := rfl
    rw [matchAt, hgroups, hmatch, Option.map_some]
  · rw [Match.group, hvalue]
    rfl

theorem kindEntry_of_matchAt {line : Text} {m : Match} (h : kindLine.matchAt (.ofText line) = some m) :
    ∃ rest, KindEntry line rest := by
  obtain ⟨d, hd, -⟩ := Option.map_eq_some_iff.mp h
  have hmem : d ∈ (all (([textStart, spaces] ++ kindKey) ++
      ([spaces, group "value" (lazy (char (· ≠ '\n')))] ++ lineEnd))).ends (.ofText line) :=
    List.mem_of_head? hd
  obtain ⟨e, hmem, -⟩ := mem_all_append.mp hmem
  obtain ⟨e', he', hmem⟩ := mem_all_cons.mp hmem
  obtain ⟨-, rfl⟩ := mem_textStart.mp he'
  obtain ⟨e', he', hmem⟩ := mem_all_cons.mp hmem
  obtain ⟨lead, hlead, hblank, -⟩ := taken_of_mem_star he'
  obtain ⟨⟨key, gap, hkey, hgap, hrest⟩, -, -⟩ := taken_of_kindKey hmem
  refine ⟨e.rest, lead, key, gap, hblank, hkey, hgap, ?_⟩
  rw [← hrest]
  exact hlead

theorem found_secretWord {value : Text} : secretWord.found value = true ↔ NamesSecret value := by
  rw [found_iff]
  constructor
  · rintro ⟨a, b, d, rfl, hd⟩
    obtain ⟨e, he, hd⟩ := mem_all_cons.mp hd
    obtain ⟨e', he', hd⟩ := mem_all_cons.mp hd
    obtain ⟨e'', he'', hd⟩ := mem_all_cons.mp hd
    obtain rfl := List.mem_singleton.mp hd
    obtain ⟨hbefore, rfl⟩ := mem_edge.mp he
    obtain ⟨hrest, -⟩ := taken_of_mem_lit he'
    obtain ⟨hnext, rfl⟩ := mem_edge.mp he''
    have hrest : b = "Secret".toList ++ d.rest := hrest
    refine ⟨a, d.rest, by rw [hrest], ?_, ?_⟩
    · intro c hc
      have hlast : a.getLast? = some c := hc
      simpa [Cursor.place, hlast] using hbefore
    · intro c hc
      have hhead : d.rest.head? = some c := hc
      simpa [hhead] using hnext
  · rintro ⟨a, b, rfl, ha, hb⟩
    have hnext : (all [edge fun _ next => !next.any Char.isAlpha]).Takes ([] ++ []) b := by
      refine Takes.cons (fun c hc => ⟨c, mem_edge.mpr ⟨?_, rfl⟩, hc⟩) (takes_nil b)
      rw [hc, List.nil_append, List.nil_append]
      cases b with
      | nil => rfl
      | cons x xs => simp [hb x rfl]
    obtain ⟨d, hd, -⟩ := ((takes_lit "Secret" _).cons hnext)
      (Cursor.place a ("Secret".toList ++ b)) (by simp [Cursor.place])
    refine ⟨a, _, d, rfl, mem_all_cons.mpr ⟨_, mem_edge.mpr ⟨?_, rfl⟩, hd⟩⟩
    change (!a.getLast?.any Char.isAlpha) = true
    cases hlast : a.getLast? with
    | none => rfl
    | some x => simp [ha x hlast]

theorem isSuspicious_iff {value : Text} : isSuspicious value = true ↔ Alarming value := by
  have hany : ∀ (cs : List Char), value.head?.any (· ∈ cs) = true ↔ ∃ c ∈ value.head?, c ∈ cs := by
    intro cs
    cases value with
    | nil => simp
    | cons x xs => simp
  rw [isSuspicious, Alarming, ← found_secretWord, ← hany, ← hany]
  cases secretWord.found value <;>
    cases value.head?.any (· ∈ ['!', '&', '*', '|', '>', '[', '\x7b']) <;>
    simp

theorem isSuspiciousLine_iff {line : Text} (hfeed : '\n' ∉ line) :
    isSuspiciousLine line = true ↔ SecretLine line := by
  rw [isSuspiciousLine]
  cases hmatch : kindLine.matchAt (.ofText line) with
  | none =>
    constructor
    · intro h
      cases h
    · rintro ⟨rest, hentry, -⟩
      obtain ⟨m, hm, -⟩ := kindLine_value hfeed hentry
      rw [hmatch] at hm
      cases hm
  | some m =>
    have hread : ∀ {rest : Text}, KindEntry line rest → m.group "value" = valueOf rest := by
      intro rest hentry
      obtain ⟨m', hm', hvalue⟩ := kindLine_value hfeed hentry
      rw [hmatch] at hm'
      rw [Option.some.inj hm', hvalue]
    obtain ⟨rest, hentry⟩ := kindEntry_of_matchAt hmatch
    change isSuspicious (m.group "value") = true ↔ _
    rw [isSuspicious_iff, hread hentry]
    constructor
    · exact fun h => ⟨rest, hentry, h⟩
    · rintro ⟨rest', hentry', h⟩
      rwa [hentry.unique hentry']

/-! ## Lines in the canonical form -/

/-- What stands behind a value that begins and ends with something else than a blank. -/
theorem valueOf_eq {pad value tail remark : Text} (hpad : IsBlank pad) (htail : IsBlank tail)
    (hremark : ∀ c ∈ remark.head?, c = '#') (hhead : ∀ c ∈ value.head?, isSpace c = false)
    (hlast : ∀ c ∈ value.getLast?, isSpace c = false) (hmark : '#' ∉ value) (hne : value ≠ []) :
    valueOf (pad ++ (value ++ (tail ++ remark))) = value := by
  have hdrop : (pad ++ (value ++ (tail ++ remark))).dropWhile isSpace =
      value ++ (tail ++ remark) := by
    rw [List.dropWhile_append_of_pos hpad]
    cases value with
    | nil => exact absurd rfl hne
    | cons x xs => rw [List.cons_append, List.dropWhile_cons_of_neg (by simp [hhead x rfl])]
  have htake : (value ++ (tail ++ remark)).takeWhile (· ≠ '#') = value ++ tail := by
    have hstop : remark.takeWhile (· ≠ '#') = [] := by
      cases remark with
      | nil => rfl
      | cons x xs => rw [List.takeWhile_cons_of_neg (by simp [hremark x rfl])]
    rw [List.takeWhile_append_of_pos, List.takeWhile_append_of_pos, hstop, List.append_nil]
    · intro c hc
      apply decide_eq_true
      rintro rfl
      exact absurd (htail '#' hc) (by decide)
    · intro c hc
      apply decide_eq_true
      rintro rfl
      exact hmark hc
  rw [valueOf, hdrop, htake, List.rdropWhile, List.reverse_append, List.dropWhile_append_of_pos]
  · rcases List.eq_nil_or_concat value with rfl | ⟨init, last, rfl⟩
    · exact absurd rfl hne
    · have hplain := hlast last (by simp)
      simp [hplain]
  · intro c hc
    exact htail c (List.mem_reverse.mp hc)

theorem alarming_of_spelling {value : Text} (h : value ∈ spellings "Secret") : Alarming value := by
  simp only [spellings, List.mem_cons, List.not_mem_nil, or_false] at h
  rcases h with rfl | rfl | rfl
  · exact .inl ⟨[], [], by simp, by simp, by simp⟩
  · exact .inl ⟨['"'], ['"'], by simp, by simp, by simp⟩
  · exact .inl ⟨['\''], ['\''], by simp, by simp, by simp⟩

/-- The spellings of `Secret` neither begin nor end with a blank, and hold no comment mark. -/
theorem plain_of_spelling {value : Text} (h : value ∈ spellings "Secret") :
    (∀ c ∈ value.head?, isSpace c = false) ∧ (∀ c ∈ value.getLast?, isSpace c = false) ∧
      '#' ∉ value ∧ value ≠ [] := by
  simp only [spellings, List.mem_cons, List.not_mem_nil, or_false] at h
  rcases h with rfl | rfl | rfl
  · exact ⟨by simp; decide, by simp; decide, by simp, by simp⟩
  · exact ⟨by simp; decide, by simp; decide, by simp, by simp⟩
  · exact ⟨by simp; decide, by simp; decide, by simp, by simp⟩

/-- A line in the canonical form is alarming by itself. -/
theorem secretLine_of_topLevel {document line : Text} (hline : line ∈ topLevelYamlLines document)
    (h : blockSecretKind.fullMatches line = true) : ∃ l ∈ splitlines document, SecretLine l := by
  rw [topLevelYamlLines] at hline
  split at hline
  · cases hline
  · next base hbase =>
    obtain ⟨whole, hwhole, rfl⟩ := List.mem_map.mp hline
    obtain ⟨hsignificant, hindent⟩ := List.mem_filter.mp hwhole
    have hindent : (whole.takeWhile (· = ' ')).length = base := of_decide_eq_true hindent
    refine ⟨whole, (List.mem_filter.mp hsignificant).1, ?_⟩
    have hsplit : whole = whole.takeWhile (· = ' ') ++ whole.drop base := by
      rw [← hindent]
      exact (List.prefix_iff_eq_append.mp (List.takeWhile_prefix _)).symm
    obtain ⟨d, hd, hend⟩ := List.any_eq_true.mp h
    obtain ⟨e, he, hd⟩ := mem_all_cons.mp hd
    obtain ⟨-, rfl⟩ := mem_textStart.mp he
    obtain ⟨e, he, hd⟩ := mem_all_append.mp hd
    obtain ⟨⟨key, gap, hkey, hgap, hrest⟩, -, -⟩ := taken_of_kindKey he
    obtain ⟨e₁, h₁, hd⟩ := mem_all_cons.mp hd
    obtain ⟨e₂, h₂, hd⟩ := mem_all_cons.mp hd
    obtain ⟨e₃, h₃, hd⟩ := mem_all_cons.mp hd
    obtain ⟨e₄, h₄, hd⟩ := mem_all_cons.mp hd
    obtain ⟨pad, hpad, hpadBlank, -⟩ := taken_of_mem_star h₁
    obtain ⟨⟨value, hvalue, htaken⟩, -⟩ := taken_of_plainOrQuoted h₂
    obtain ⟨tail, htail, htailBlank, -⟩ := taken_of_mem_star h₃
    obtain ⟨hremark, -⟩ := taken_of_comment h₄
    have hlead : IsBlank (whole.takeWhile (· = ' ')) := by
      intro c hc
      have := List.mem_takeWhile_imp hc
      rw [of_decide_eq_true this]
      decide
    have hentry : KindEntry whole e.rest := by
      refine ⟨_, key, gap, hlead, hkey, hgap, ?_⟩
      rw [← hrest]
      exact hsplit
    refine ⟨e.rest, hentry, ?_⟩
    have hplain := plain_of_spelling hvalue
    have hlate : ∃ more remark, e₃.rest = more ++ remark ∧ IsBlank more ∧
        ∀ c ∈ remark.head?, c = '#' := by
      rcases hremark with hsame | ⟨remark, hremark⟩
      · refine ⟨e₃.rest, [], (List.append_nil _).symm, ?_, by simp⟩
        obtain ⟨e₅, h₅, hd⟩ := mem_all_cons.mp hd
        rcases (mem_textEnd h₅).1 with hnone | hfeed
        · intro c hc
          rw [← hsame, hnone] at hc
          cases hc
        · intro c hc
          rw [← hsame, hfeed] at hc
          rw [List.mem_singleton.mp hc]
          decide
      · refine ⟨[], '#' :: (remark ++ e₄.rest), hremark, by simp [IsBlank], by simp⟩
    obtain ⟨more, remark, hsplitEnd, hmore, hmark⟩ := hlate
    have hvalueOf : valueOf e.rest = value := by
      rw [hpad, htaken, htail, hsplitEnd, ← List.append_assoc tail]
      exact valueOf_eq hpadBlank (List.forall_mem_append.mpr ⟨htailBlank, hmore⟩) hmark hplain.1
        hplain.2.1 hplain.2.2.1 hplain.2.2.2
    rw [hvalueOf]
    exact alarming_of_spelling hvalue

/-! ## Flow style -/

theorem found_flowSecret {document : Text} :
    flowSecretKind.found document = true ↔ FlowSecret document := by
  rw [found_iff]
  constructor
  · rintro ⟨a, b, d, rfl, hd⟩
    obtain ⟨e₁, h₁, hd⟩ := mem_all_cons.mp hd
    obtain ⟨e₂, h₂, hd⟩ := mem_all_cons.mp hd
    obtain ⟨e₃, h₃, hd⟩ := mem_all_append.mp hd
    obtain ⟨e₄, h₄, hd⟩ := mem_all_cons.mp hd
    obtain ⟨e₅, h₅, hd⟩ := mem_all_cons.mp hd
    obtain ⟨e₆, h₆, hd⟩ := mem_all_cons.mp hd
    obtain ⟨e₇, h₇, hd⟩ := mem_all_cons.mp hd
    obtain rfl := List.mem_singleton.mp hd
    obtain ⟨lead, hlead, hleadBlank, -⟩ := taken_of_mem_star h₂
    obtain ⟨⟨key, gap, hkey, hgap, hrest⟩, -, -⟩ := taken_of_kindKey h₃
    obtain ⟨pad, hpad, hpadBlank, -⟩ := taken_of_mem_star h₄
    obtain ⟨⟨value, hvalue, htaken⟩, -⟩ := taken_of_plainOrQuoted h₅
    obtain ⟨tail, htail, htailBlank, -⟩ := taken_of_mem_star h₆
    rw [htail] at htaken
    rw [htaken] at hpad
    rw [hpad] at hrest
    rw [hrest] at hlead
    have hbegin : ∃ a', a ++ b = a' ++ e₁.rest ∧ ∀ c ∈ a'.getLast?, c ∈ [',', '\x7b'] := by
      rcases mem_alt.mp h₁ with hstart | hopen
      · obtain ⟨hnone, rfl⟩ := mem_textStart.mp hstart
        have hnone : a = [] := List.getLast?_eq_none_iff.mp hnone
        exact ⟨[], by rw [hnone]; rfl, by simp⟩
      · obtain ⟨x, xs, hx, hmem, rfl⟩ := mem_char.mp hopen
        have hx : b = x :: xs := hx
        refine ⟨a ++ [x], by simp [hx], ?_⟩
        simpa using hmem
    have hfinish : ∃ more b', e₆.rest = more ++ b' ∧ IsBlank more ∧
        ∀ c ∈ b'.head?, c ∈ [',', '\x7d'] := by
      rcases mem_alt.mp h₇ with hclose | hend
      · obtain ⟨x, xs, hx, hmem, -⟩ := mem_char.mp hclose
        refine ⟨[], e₆.rest, rfl, by simp [IsBlank], ?_⟩
        rw [hx]
        simpa using hmem
      · refine ⟨e₆.rest, [], (List.append_nil _).symm, ?_, by simp⟩
        intro c hc
        rcases (mem_textEnd hend).1 with hnone | hfeed
        · rw [hnone] at hc
          cases hc
        · rw [hfeed] at hc
          rw [List.mem_singleton.mp hc]
          decide
    obtain ⟨a', ha', hopen⟩ := hbegin
    obtain ⟨more, b', hb', hmore, hclose⟩ := hfinish
    refine ⟨a', lead, key, gap, pad, value, tail ++ more, b', ?_, hopen, hleadBlank, hkey, hgap,
      hpadBlank, hvalue, List.forall_mem_append.mpr ⟨htailBlank, hmore⟩, hclose⟩
    rw [ha', hlead, hb', List.append_assoc tail]
  · rintro ⟨a, lead, key, gap, pad, value, tail, b, rfl, hopen, hlead, hkey, hgap, hpad, hvalue,
      htail, hclose⟩
    have hlast : (all [alt (char (· ∈ [',', '\x7d'])) textEnd]).Takes (b.take 1) (b.drop 1) := by
      cases b with
      | nil => exact takes_textEnd.alt_right.cons (takes_nil _)
      | cons x xs =>
        have hx : decide (x ∈ [',', '\x7d']) = true := decide_eq_true (hclose x rfl)
        exact (takes_char hx _).alt_left.cons (takes_nil _)
    have hvalues := (takes_star hpad _).cons ((takes_plainOrQuoted hvalue _).cons
      ((takes_star htail _).cons hlast))
    have hkeys : (all (kindKey ++ [spaces, secretValue, spaces,
        alt (char (· ∈ [',', '\x7d'])) textEnd])).Takes
        ((key ++ (gap ++ [':'])) ++ (pad ++ (value ++ (tail ++ b.take 1)))) (b.drop 1) := by
      intro c hc
      obtain ⟨e, he, hrest⟩ := takes_kindKey hkey hgap _ c (by rw [hc, List.append_assoc])
      obtain ⟨d, hd, hleft⟩ := hvalues e hrest
      exact ⟨d, mem_all_append.mpr ⟨e, he, hd⟩, hleft⟩
    have hall := (takes_star hlead _).cons hkeys
    have htext : lead ++ (key ++ (gap ++ ':' :: (pad ++ (value ++ (tail ++ b))))) =
        lead ++ ((key ++ (gap ++ [':'])) ++ (pad ++ (value ++ (tail ++ b.take 1)))) ++ b.drop 1 := by
      simp only [List.append_assoc, List.cons_append, List.nil_append, List.take_append_drop]
    generalize lead ++ (key ++ (gap ++ ':' :: (pad ++ (value ++ (tail ++ b))))) = t at htext
    rcases List.eq_nil_or_concat a with rfl | ⟨init, x, rfl⟩
    · obtain ⟨d, hd, -⟩ := hall (Cursor.place [] t) htext
      refine ⟨[], t, d, rfl, mem_all_cons.mpr ⟨_, mem_alt.mpr (.inl ?_), hd⟩⟩
      exact mem_textStart.mpr ⟨rfl, rfl⟩
    · have hx : decide (x ∈ [',', '\x7b']) = true := decide_eq_true (hopen x (by simp))
      obtain ⟨d, hd, -⟩ := hall ⟨some x, t, []⟩ htext
      refine ⟨init, x :: t, d, by simp, mem_all_cons.mpr ⟨_, mem_alt.mpr (.inr ?_), hd⟩⟩
      exact mem_char.mpr ⟨x, t, rfl, hx, rfl⟩

/-- What is seen in one document. -/
theorem secretKindState_iff {document : Text} : (secretKindState document).1 = true ↔
    (∃ line ∈ splitlines document, SecretLine line) ∨ FlowSecret document := by
  have hlines : (splitlines document).any isSuspiciousLine = true ↔
      ∃ line ∈ splitlines document, SecretLine line := by
    rw [List.any_eq_true]
    apply exists_congr
    intro line
    apply and_congr_right
    intro hline
    apply isSuspiciousLine_iff
    intro hfeed
    exact absurd (isLineBreak_of_mem_splitlines hline _ hfeed) (by decide)
  rw [secretKindState, Bool.or_eq_true, Bool.or_eq_true, hlines, found_flowSecret]
  constructor
  · rintro ((hcanonical | hflow) | hline)
    · left
      rw [Bool.not_eq_true', List.isEmpty_eq_false_iff] at hcanonical
      obtain ⟨line, hline⟩ := List.exists_mem_of_ne_nil _ hcanonical
      obtain ⟨hkind, hsecret⟩ := List.mem_filter.mp hline
      exact secretLine_of_topLevel (List.mem_filter.mp hkind).1 hsecret
    · exact .inr hflow
    · exact .inl hline
  · rintro (hline | hflow)
    · exact .inr hline
    · exact .inl (.inr hflow)

/-! ## Documents of a text -/

/-- The lines on which a key `kind` could stand. -/
def keyed (lines : List Text) : List Text := lines.filter ('k' ∈ ·)

theorem keyed_splitlines_of_notMem {t : Text} (h : 'k' ∉ t) : keyed (splitlines t) = [] := by
  apply List.filter_eq_nil_iff.mpr
  intro line hline hk
  exact h (mem_of_mem_splitlines hline (of_decide_eq_true hk))

/-- A marker takes three dashes and blanks, between the start and the end of a line. -/
theorem taken_of_documentMarker {c d : Cursor} (h : d ∈ documentMarker.ends c) :
    (∀ x ∈ c.before, x = '\n') ∧ (∀ x ∈ d.rest.head?, x = '\n') ∧
      ∃ blank, IsBlank blank ∧ c.rest = '-' :: '-' :: '-' :: (blank ++ d.rest) := by
  obtain ⟨e, he, h⟩ := mem_all_cons.mp h
  obtain ⟨e', he', h⟩ := mem_all_cons.mp h
  obtain ⟨e'', he'', h⟩ := mem_all_cons.mp h
  obtain ⟨f, hf, h⟩ := mem_all_cons.mp h
  obtain rfl := List.mem_singleton.mp h
  obtain ⟨hbefore, rfl⟩ := mem_bol.mp he
  obtain ⟨hrest, -⟩ := taken_of_mem_lit he'
  obtain ⟨blank, hblank, hall, -⟩ := taken_of_mem_star he''
  obtain ⟨hend, rfl⟩ := mem_eol.mp hf
  refine ⟨?_, ?_, blank, hall, ?_⟩
  · intro x hx
    simpa [Option.mem_def.mp hx] using hbefore
  · intro x hx
    simpa [Option.mem_def.mp hx] using hend
  · rw [hrest, hblank]
    rfl

/-- Between the markers stand all the lines with a key. -/
theorem keyed_between (n : ℕ) (c : Cursor) : keyed (splitlines c.rest) =
    (between c (documentMarker.matches n c)).flatMap fun d => keyed (splitlines d) := by
  induction n generalizing c with
  | zero => simp [Pattern.matches, between]
  | succ n ih =>
    rw [Pattern.matches]
    cases hsearch : documentMarker.searchFrom c.rest.length c with
    | none => simp [between]
    | some m =>
      obtain ⟨a, hrest, hbefore, hstop⟩ := searchFrom_behind hsearch
      obtain ⟨hfeed, hend, blank, hblank, hdashes⟩ := taken_of_documentMarker hstop
      have hdashes : m.start.rest = '-' :: '-' :: '-' :: (blank ++ m.stop.rest) := hdashes
      have hfeed : ∀ x ∈ m.start.before, x = '\n' := hfeed
      have hlast : ∀ x ∈ a.getLast?, isLineBreak x = true := by
        intro x hx
        have hx : a.getLast? = some x := hx
        rw [hfeed x (by rw [hbefore, hx]; rfl)]
        decide
      have hhead : ∀ x ∈ m.start.rest.head?, isLineBreak x = false := by
        intro x hx
        rw [hdashes] at hx
        rw [← Option.some.inj hx]
        decide
      have hk : 'k' ∉ '-' :: '-' :: '-' :: blank := by
        intro hmem
        simp only [List.mem_cons, Char.reduceEq, false_or] at hmem
        exact absurd (hblank _ hmem) (by decide)
      have hlate : keyed (splitlines m.start.rest) = keyed (splitlines m.stop.rest) := by
        have hsplit : m.start.rest = ('-' :: '-' :: '-' :: blank) ++ m.stop.rest := hdashes
        rw [hsplit]
        cases hleft : m.stop.rest with
        | nil =>
          rw [List.append_nil, keyed_splitlines_of_notMem hk]
          rfl
        | cons x more =>
          have hx : x = '\n' := hend x (by rw [hleft]; rfl)
          have hnone : 'k' ∉ ('-' :: '-' :: '-' :: blank) ++ ['\n'] := by
            rw [List.mem_append, not_or]
            exact ⟨hk, by decide⟩
          rw [hx, splitlines_append_feed, splitlines_newline, keyed, List.filter_append]
          change keyed (splitlines (('-' :: '-' :: '-' :: blank) ++ ['\n'])) ++ _ = _
          rw [keyed_splitlines_of_notMem hnone]
          rfl
      rw [between, List.flatMap_cons, Cursor.upTo_eq hrest, ← ih, ← hlate, hrest,
        splitlines_append_of_break hlast hhead, keyed, List.filter_append]
      rfl

theorem SecretLine.keyed {line : Text} (h : SecretLine line) : 'k' ∈ line := by
  obtain ⟨rest, ⟨lead, key, gap, -, hkey, -, rfl⟩, -⟩ := h
  have hk : 'k' ∈ key := by
    simp only [spellings, List.mem_cons, List.not_mem_nil, or_false] at hkey
    rcases hkey with rfl | rfl | rfl <;> simp
  simp [hk]

/-- A line with a key is a line of one of the documents. -/
theorem exists_document_iff {text line : Text} (hk : 'k' ∈ line) :
    (∃ d ∈ documents text, line ∈ splitlines d) ↔ line ∈ splitlines text := by
  have hkeyed : ∀ {lines : List Text}, line ∈ keyed lines ↔ line ∈ lines := by
    intro lines
    rw [keyed, List.mem_filter]
    exact and_iff_left (decide_eq_true hk)
  have hall := keyed_between text.length (.ofText text)
  have htext : line ∈ splitlines text ↔ line ∈ keyed (splitlines (Cursor.ofText text).rest) :=
    hkeyed.symm
  rw [htext, hall, List.mem_flatMap]
  simp only [hkeyed]
  rfl

/-- The detector, without its patterns. -/
theorem containsSecretDocument_iff {text : Text} : containsSecretDocument text = true ↔
    (∃ line ∈ splitlines text, SecretLine line) ∨ ∃ d ∈ documents text, FlowSecret d := by
  rw [containsSecretDocument, List.any_eq_true]
  simp only [secretKindState_iff]
  constructor
  · rintro ⟨d, hd, ⟨line, hline, hsecret⟩ | hflow⟩
    · exact .inl ⟨line, (exists_document_iff hsecret.keyed).mp ⟨d, hd, hline⟩, hsecret⟩
    · exact .inr ⟨d, hd, hflow⟩
  · rintro (⟨line, hline, hsecret⟩ | ⟨d, hd, hflow⟩)
    · obtain ⟨d, hd, hmem⟩ := (exists_document_iff hsecret.keyed).mpr hline
      exact ⟨d, hd, .inl ⟨line, hmem, hsecret⟩⟩
    · exact ⟨d, hd, .inr hflow⟩

end SecretDocuments
