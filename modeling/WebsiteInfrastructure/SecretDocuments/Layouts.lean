import Mathlib
import WebsiteInfrastructure.Library.JsonText
import WebsiteInfrastructure.SecretDocuments.Completeness

/-!
# Which layouts of `kind: Secret` are detected

The layouts of one entry of a block mapping, whatever stands around it, and the exact condition
under which the detector sees it.
-/

namespace SecretDocuments

open PythonText

/-! ## Layouts -/

/-- Blanks within a line. -/
def IsWhite (t : Text) : Prop := ∀ c ∈ t, c = ' ' ∨ c = '\t'

def IsNewline (t : Text) : Prop := t ∈ [['\n'], ['\r'], ['\r', '\n']]

/-- The rest of a line on which nothing more is said: blanks, or blanks and a comment. -/
def IsTail (t : Text) : Prop :=
  IsWhite t ∨ ∃ blanks remark, t = blanks ++ '#' :: remark ∧ IsWhite blanks ∧ blanks ≠ [] ∧
    '\n' ∉ remark ∧ '\r' ∉ remark

/-- Whole lines that are blank or hold a comment only. -/
inductive Filler : Text → Prop
  | nil : Filler []
  | blank {line newline rest} : IsWhite line → IsNewline newline → Filler rest →
      Filler (line ++ (newline ++ rest))
  | comment {blanks remark newline rest} : IsWhite blanks → '\n' ∉ remark → '\r' ∉ remark →
      IsNewline newline → Filler rest → Filler (blanks ++ '#' :: (remark ++ (newline ++ rest)))

/-- Hexadecimal digits of a code. -/
def IsCode (digits : Text) (code : ℕ) : Prop :=
  ∃ values, List.Forall₂ (fun digit value => Json.hexValue digit = some value) digits values ∧
    Nat.ofDigits 16 values.reverse = code

/-- A word between double quotation marks, where characters can be given by their code. -/
inductive Escaped : Text → Text → Prop
  | nil : Escaped [] []
  | plain {c word inner} : Escaped word inner → Escaped (c :: word) (c :: inner)
  | code {c word inner digits} (form : Char × ℕ) : form ∈ [('x', 2), ('u', 4), ('U', 8)] →
      digits.length = form.2 → IsCode digits c.toNat →
      Escaped word inner → Escaped (c :: word) ('\\' :: form.1 :: (digits ++ inner))

/-- A plain or quoted scalar that stands for the word. -/
inductive Scalar (word : String) : Text → Prop
  | plain : Scalar word word.toList
  | single : Scalar word ("'" ++ word ++ "'").toList
  | double {inner} : Escaped word.toList inner → Scalar word ('"' :: (inner ++ ['"']))

/-- What follows the colon of a key at an indentation. -/
inductive Layout (indent : ℕ)
  | sameLine (pad value tail : Text) (separated : IsWhite pad ∧ pad ≠ [])
      (isValue : Scalar "Secret" value) (isTail : IsTail tail)
  | nextLine (tail newline filler : Text) (deeper : ℕ) (value tail' : Text) (isTail : IsTail tail)
      (isNewline : IsNewline newline) (isFiller : Filler filler) (indented : indent < deeper)
      (isValue : Scalar "Secret" value) (isTail' : IsTail tail')

namespace Layout

variable {indent : ℕ}

def text : Layout indent → Text
  | sameLine pad value tail .. => pad ++ (value ++ tail)
  | nextLine tail newline filler deeper value tail' .. =>
    tail ++ (newline ++ (filler ++ (List.replicate deeper ' ' ++ (value ++ tail'))))

/-- The value stands on the line of its key. -/
def IsSameLine : Layout indent → Prop
  | sameLine .. => True
  | nextLine .. => False

end Layout

/-- A byte order mark. -/
def byteOrderMark : Char := '\ufeff'

/-- A key `kind` of a root mapping with the value `Secret`, in whatever stream: before it stand
whole lines and behind it the line ends; other keys, comments and document markers are left open. -/
structure SecretEntry where
  before : Text
  mark : Bool
  indent : ℕ
  key : Text
  gap : Text
  layout : Layout indent
  after : Text
  lines_before : ∀ c ∈ before.getLast?, c = '\n' ∨ c = '\r'
  mark_first : mark = true → before = []
  isKey : Scalar "kind" key
  isGap : IsWhite gap
  line_ends : ∀ c ∈ after.head?, c = '\n' ∨ c = '\r'

namespace SecretEntry

def text (e : SecretEntry) : Text :=
  e.before ++ ((if e.mark then [byteOrderMark] else []) ++ (List.replicate e.indent ' ' ++
    (e.key ++ (e.gap ++ ':' :: (e.layout.text ++ e.after)))))

/-- The entry in the form the detector looks for: no byte order mark before the key, no escapes in
it, and the value on the same line. -/
def IsDirect (e : SecretEntry) : Prop :=
  e.mark = false ∧ e.key ∈ spellings "kind" ∧ e.layout.IsSameLine

end SecretEntry

/-! ## A direct entry is seen -/

theorem IsWhite.isBlank {t : Text} (h : IsWhite t) : IsBlank t := by
  intro c hc
  rcases h c hc with rfl | rfl <;> decide

theorem IsWhite.not_break {t : Text} (h : IsWhite t) : ∀ c ∈ t, isLineBreak c = false := by
  intro c hc
  rcases h c hc with rfl | rfl <;> decide

/-- An escape takes the backslash to the value. -/
theorem Escaped.eq_or_mem {word inner : Text} (h : Escaped word inner) :
    inner = word ∨ '\\' ∈ inner := by
  induction h with
  | nil => exact .inl rfl
  | plain _ ih =>
    rcases ih with rfl | hmem
    · exact .inl rfl
    · exact .inr (List.mem_cons_of_mem _ hmem)
  | code => exact .inr List.mem_cons_self

/-- A character that neither is a blank nor begins a comment. -/
def IsPlain (c : Char) : Prop := isSpace c = false ∧ c ≠ '#'

theorem code_of_isSpace {c : Char} (h : isSpace c = true) : c.toNat ≤ 32 ∨ 128 ≤ c.toNat := by
  rw [isSpace, Bool.or_eq_true, Bool.or_eq_true, isLineBreak, decide_eq_true_eq, decide_eq_true_eq,
    Bool.and_eq_true, decide_eq_true_eq, decide_eq_true_eq] at h
  rcases h with (h | h) | h
  · simp only [List.mem_cons, List.not_mem_nil, or_false] at h
    rcases h with rfl | rfl | rfl | rfl | rfl | rfl | rfl | rfl | rfl | rfl <;> decide
  · simp only [List.mem_cons, List.not_mem_nil, or_false] at h
    rcases h with rfl | rfl | rfl | rfl | rfl | rfl | rfl | rfl <;> decide
  · have hlow : ('\u2000').toNat ≤ c.toNat := h.1
    exact .inr (le_trans (by decide) hlow)

theorem isPlain_of_hexValue {c : Char} {n : ℕ} (h : Json.hexValue c = some n) : IsPlain c := by
  have hcode : 48 ≤ c.toNat ∧ c.toNat < 128 := by
    unfold Json.hexValue at h
    split at h
    · next hdigit =>
      rw [Char.isDigit, Bool.and_eq_true, decide_eq_true_eq, decide_eq_true_eq] at hdigit
      have hlow : ('0').toNat ≤ c.toNat := hdigit.1
      have hhigh : c.toNat ≤ ('9').toNat := hdigit.2
      exact ⟨hlow, lt_of_le_of_lt hhigh (by decide)⟩
    · split at h
      · next hlower =>
        have hlow : ('a').toNat ≤ c.toNat := hlower.1
        have hhigh : c.toNat ≤ ('f').toNat := hlower.2
        exact ⟨le_trans (by decide) hlow, lt_of_le_of_lt hhigh (by decide)⟩
      · split at h
        · next hupper =>
          have hlow : ('A').toNat ≤ c.toNat := hupper.1
          have hhigh : c.toNat ≤ ('F').toNat := hupper.2
          exact ⟨le_trans (by decide) hlow, lt_of_le_of_lt hhigh (by decide)⟩
        · cases h
  constructor
  · rw [← Bool.not_eq_true]
    intro hspace
    have := code_of_isSpace hspace
    omega
  · rintro rfl
    exact absurd hcode.1 (by decide)

/-- An escape adds no blank and no comment mark. -/
theorem Escaped.isPlain {word inner : Text} (h : Escaped word inner)
    (hword : ∀ c ∈ word, IsPlain c) : ∀ c ∈ inner, IsPlain c := by
  induction h with
  | nil => simp
  | plain _ ih =>
    rw [List.forall_mem_cons] at hword ⊢
    exact ⟨hword.1, ih hword.2⟩
  | @code _ _ _ digits form hform hlength hcode _ ih =>
    clear hlength
    rw [List.forall_mem_cons] at hword
    obtain ⟨values, hvalues, -⟩ := hcode
    have hdigits : ∀ c ∈ digits, IsPlain c := by
      induction hvalues with
      | nil => simp
      | cons hdigit _ ihdigits =>
        exact List.forall_mem_cons.mpr ⟨isPlain_of_hexValue hdigit, ihdigits⟩
    have hletter : IsPlain form.1 := by
      simp only [List.mem_cons, List.not_mem_nil, or_false] at hform
      rcases hform with rfl | rfl | rfl <;> exact ⟨by decide, by decide⟩
    have hbackslash : IsPlain '\\' := ⟨by decide, by decide⟩
    rw [List.forall_mem_cons, List.forall_mem_cons, List.forall_mem_append]
    exact ⟨hbackslash, hletter, hdigits, ih hword.2⟩

theorem Scalar.isPlain {word : String} {t : Text} (h : Scalar word t)
    (hword : ∀ c ∈ word.toList, IsPlain c) : ∀ c ∈ t, IsPlain c := by
  have hsingle : IsPlain '\'' := ⟨by decide, by decide⟩
  have hdouble : IsPlain '"' := ⟨by decide, by decide⟩
  cases h with
  | plain => exact hword
  | single =>
    rw [String.toList_append, String.toList_append, List.forall_mem_append, List.forall_mem_append]
    exact ⟨⟨by simpa using hsingle, hword⟩, by simpa using hsingle⟩
  | double hinner =>
    rw [List.forall_mem_cons, List.forall_mem_append, List.forall_mem_singleton]
    exact ⟨hdouble, hinner.isPlain hword, hdouble⟩

theorem Scalar.ne_nil {word : String} {t : Text} (h : Scalar word t) (hword : word.toList ≠ []) :
    t ≠ [] := by
  cases h with
  | plain => exact hword
  | single => simp
  | double => simp

/-- Every way to write the value alarms the detector. -/
theorem Scalar.alarming {t : Text} (h : Scalar "Secret" t) : Alarming t := by
  cases h with
  | plain => exact alarming_of_spelling (by simp [spellings])
  | single => exact alarming_of_spelling (by simp [spellings])
  | double hinner =>
    rcases hinner.eq_or_mem with rfl | hmem
    · exact alarming_of_spelling (by simp [spellings])
    · refine .inr (.inr ⟨⟨'"', rfl, by simp⟩, ?_⟩)
      simp [hmem]

/-- What Python reads of the rest of a line is blank up to a comment. -/
theorem IsTail.cut {tail after : Text} (h : IsTail tail)
    (hafter : ∀ c ∈ after.head?, c = '\n' ∨ c = '\r') :
    ∃ blanks remark, (tail ++ after).takeWhile (!isLineBreak ·) = blanks ++ remark ∧
      IsBlank blanks ∧ ∀ c ∈ remark.head?, c = '#' := by
  have hstop : after.takeWhile (!isLineBreak ·) = [] := by
    cases after with
    | nil => rfl
    | cons x xs =>
      apply List.takeWhile_cons_of_neg
      rcases hafter x rfl with rfl | rfl <;> decide
  rcases h with hwhite | ⟨blanks, remark, rfl, hwhite, -⟩
  · refine ⟨tail, [], ?_, hwhite.isBlank, by simp⟩
    rw [List.takeWhile_append_of_pos, hstop]
    intro c hc
    simp [hwhite.not_break c hc]
  · refine ⟨blanks, '#' :: (remark ++ after).takeWhile (!isLineBreak ·), ?_, hwhite.isBlank, by simp⟩
    rw [List.append_assoc, List.takeWhile_append_of_pos, List.cons_append,
      List.takeWhile_cons_of_pos (by decide)]
    intro c hc
    simp [hwhite.not_break c hc]

/-- A direct entry is on a line that alarms by itself. -/
theorem SecretEntry.IsDirect.secretLine {e : SecretEntry} (h : e.IsDirect) :
    ∃ line ∈ splitlines e.text, SecretLine line := by
  obtain ⟨hmark, hkey, hsame⟩ := h
  cases hlayout : e.layout with
  | nextLine =>
    rw [hlayout] at hsame
    exact hsame.elim
  | sameLine pad value tail hpad hvalue htail =>
    obtain ⟨blanks, remark, hcut, hblanks, hremark⟩ := htail.cut e.line_ends
    have hplain : ∀ c ∈ value, IsPlain c := by
      apply hvalue.isPlain
      intro c hc
      simp only [String.reduceToList, List.mem_cons, List.not_mem_nil, or_false] at hc
      rcases hc with rfl | rfl | rfl | rfl | rfl | rfl <;> exact ⟨by decide, by decide⟩
    have hspaces : IsWhite (List.replicate e.indent ' ') := by
      intro c hc
      exact .inl (List.eq_of_mem_replicate hc)
    have hnobreak : ∀ c, isSpace c = false → (!isLineBreak c) = true := by
      intro c hc
      cases hbreak : isLineBreak c with
      | false => rfl
      | true =>
        rw [isSpace_of_isLineBreak hbreak] at hc
        cases hc
    have hkeyPlain : ∀ c ∈ e.key, isSpace c = false := fun c hc =>
      isSpace_keyLetters (mem_keyLetters hkey c hc)
    -- the line of the key, up to where Python ends it
    have hline : (List.replicate e.indent ' ' ++ (e.key ++ (e.gap ++ ':' :: (pad ++ (value ++ tail) ++
        e.after)))).takeWhile (!isLineBreak ·) =
        List.replicate e.indent ' ' ++
          (e.key ++ (e.gap ++ ':' :: (pad ++ (value ++ (blanks ++ remark))))) := by
      rw [List.takeWhile_append_of_pos, List.takeWhile_append_of_pos, List.takeWhile_append_of_pos,
        List.takeWhile_cons_of_pos (by decide), List.append_assoc, List.append_assoc,
        List.takeWhile_append_of_pos, List.takeWhile_append_of_pos, hcut]
      · exact fun c hc => hnobreak c (hplain c hc).1
      · exact fun c hc => by simp [hpad.1.not_break c hc]
      · exact fun c hc => by simp [e.isGap.not_break c hc]
      · exact fun c hc => hnobreak c (hkeyPlain c hc)
      · exact fun c hc => by simp [hspaces.not_break c hc]
    have hbreak : ∀ c ∈ e.before.getLast?, isLineBreak c = true := by
      intro c hc
      rcases e.lines_before c hc with rfl | rfl <;> decide
    have hstart : ∀ c ∈ (List.replicate e.indent ' ' ++ (e.key ++ (e.gap ++ ':' ::
        (pad ++ (value ++ tail) ++ e.after)))).head?, isLineBreak c = false := by
      intro c hc
      cases hindent : e.indent with
      | zero =>
        obtain ⟨d, ds, heq, hd⟩ :=
          head_of_spelling "kind" (by simp; decide) (by simp) hkey
        rw [hindent, heq] at hc
        have hc : some d = some c := hc
        rw [← Option.some.inj hc]
        simpa using hnobreak d hd
      | succ n =>
        rw [hindent] at hc
        have hc : some ' ' = some c := hc
        rw [← Option.some.inj hc]
        decide
    have hmem := mem_splitlines_of_break hbreak (by simp) hstart
    rw [hline] at hmem
    have htext : e.text = e.before ++ (List.replicate e.indent ' ' ++ (e.key ++ (e.gap ++ ':' ::
        (pad ++ (value ++ tail) ++ e.after)))) := by
      rw [SecretEntry.text, hmark, hlayout]
      rfl
    rw [htext]
    refine ⟨_, hmem, _, ⟨_, e.key, e.gap, hspaces.isBlank, hkey, e.isGap.isBlank, rfl⟩, ?_⟩
    rw [valueOf_eq hpad.1.isBlank hblanks hremark]
    · exact hvalue.alarming
    · exact fun c hc => (hplain c (List.mem_of_mem_head? hc)).1
    · exact fun c hc => (hplain c (List.mem_of_mem_getLast? hc)).1
    · exact fun hmark => (hplain '#' hmark).2 rfl
    · exact hvalue.ne_nil (by simp)

/-- An entry is seen exactly if it is direct, or some line of the stream is alarming by itself, or
a document of the stream looks like flow style. -/
theorem secretEntry_seen_iff (e : SecretEntry) : containsSecretDocument e.text = true ↔
    e.IsDirect ∨ (∃ line ∈ splitlines e.text, SecretLine line) ∨
      ∃ d ∈ documents e.text, FlowSecret d := by
  rw [containsSecretDocument_iff]
  constructor
  · exact .inr
  · rintro (hdirect | h)
    · exact .inl hdirect.secretLine
    · exact h

/-- The value on the line after its key, behind another key. -/
def nextLineEntry : SecretEntry where
  before := "apiVersion: v1\n".toList
  mark := false
  indent := 0
  key := "kind".toList
  gap := []
  layout := .nextLine [] ['\n'] [] 2 "Secret".toList [] (.inl (by simp [IsWhite]))
    (by simp [IsNewline]) .nil (by decide) .plain (.inl (by simp [IsWhite]))
  after := ['\n']
  lines_before := by simp
  mark_first := by simp
  isKey := .plain
  isGap := by simp [IsWhite]
  line_ends := by simp

/-- It is not seen. -/
theorem nextLineEntry_not_seen : ¬ ∀ e : SecretEntry, containsSecretDocument e.text = true := by
  intro h
  have htext : nextLineEntry.text = "apiVersion: v1\nkind:\n  Secret\n".toList := by decide
  have hseen := h nextLineEntry
  rw [htext] at hseen
  exact absurd hseen (by decide)

end SecretDocuments
