import Mathlib
import WebsiteInfrastructure.PolicyFixtures.Runner

/-!
# What a certified fixture shows

The inline form looks for each reason in the whole output, so it certifies each document by itself
exactly when the output quotes no reason that the reason's own document was not denied for. The
sidecar form compares the denials themselves, as far as a denial is one plain line.
-/

namespace PolicyFixtures

open Raising ShellText

/-! ## Documents -/

def documents (f : Fixture) : List (List Text) := f.lines.splitOnP isSeparator

/-- The reasons that a document declares. -/
def declared (document : List Text) : List Text := document.filterMap declaredReason

section Splitting

variable {α β : Type} {p : α → Bool}

theorem length_splitOnP (l : List α) : (l.splitOnP p).length = l.countP p + 1 := by
  induction l with
  | nil => simp [List.splitOnP_nil]
  | cons x l ih =>
    rw [List.splitOnP_cons_eq_if_modifyHead, List.countP_cons]
    split_ifs with hx
    · simp [ih]
    · simp [ih, List.length_modifyHead]

/-- What is found in the pieces is what is found in the whole. -/
theorem flatMap_splitOnP {g : α → Option β} (hg : ∀ x, p x = true → g x = none) (l : List α) :
    (l.splitOnP p).flatMap (List.filterMap g) = l.filterMap g := by
  induction l with
  | nil => simp [List.splitOnP_nil]
  | cons x l ih =>
    rw [List.splitOnP_cons_eq_if_modifyHead]
    split_ifs with hx
    · simp [ih, hg x hx]
    · cases hpieces : l.splitOnP p with
      | nil => exact absurd hpieces (List.splitOnP_ne_nil _ _)
      | cons head rest =>
        rw [hpieces] at ih
        rw [List.modifyHead_cons, List.flatMap_cons, List.filterMap_cons, List.filterMap_cons,
          ← ih, List.flatMap_cons]
        cases g x <;> rfl

/-- As many items as lists, and none of the lists empty. -/
theorem length_eq_one {ls : List (List α)} (hne : ∀ l ∈ ls, l ≠ [])
    (hlength : ls.flatten.length = ls.length) : ∀ l ∈ ls, l.length = 1 := by
  have hle : ∀ ks : List (List α), (∀ l ∈ ks, l ≠ []) → ks.length ≤ ks.flatten.length := by
    intro ks hks
    induction ks with
    | nil => simp
    | cons k ks ih =>
      have hparts := List.forall_mem_cons.mp hks
      have hpos := List.length_pos_iff.mpr hparts.1
      have hrest := ih hparts.2
      simp only [List.flatten_cons, List.length_append, List.length_cons]
      omega
  induction ls with
  | nil => simp
  | cons l ls ih =>
    have hparts := List.forall_mem_cons.mp hne
    have hpos := List.length_pos_iff.mpr hparts.1
    have hrest := hle ls hparts.2
    simp only [List.flatten_cons, List.length_append, List.length_cons] at hlength
    rw [List.forall_mem_cons]
    exact ⟨by omega, ih hparts.2 (by omega)⟩

end Splitting

theorem length_documents (f : Fixture) : (documents f).length = countDocuments f :=
  length_splitOnP _

theorem declaredReason_of_isSeparator (line : Text) (h : isSeparator line = true) :
    declaredReason line = none := by
  rw [isSeparator, Bool.and_eq_true] at h
  have hstart : "---".toList <+: line := by simpa [starts] using h.1
  obtain ⟨rest, rfl⟩ := hstart
  rfl

theorem flatMap_declared (f : Fixture) :
    (documents f).flatMap declared = f.lines.filterMap declaredReason :=
  flatMap_splitOnP declaredReason_of_isSeparator _

theorem emptyDeclarationDocuments_eq_nil {doc : ℕ} {ls : List Text}
    (h : emptyDeclarationDocuments doc ls = []) : ∀ line ∈ ls, declaredReason line ≠ some [] := by
  induction ls generalizing doc with
  | nil => simp
  | cons line ls ih =>
    rw [emptyDeclarationDocuments] at h
    rw [List.forall_mem_cons]
    split_ifs at h with hseparator hempty
    · refine ⟨?_, ih h⟩
      simp [declaredReason_of_isSeparator line hseparator]
    · exact ⟨hempty, ih h⟩

theorem countDeclaredReasons_eq {f : Fixture}
    (h : ∀ line ∈ f.lines, declaredReason line ≠ some []) :
    countDeclaredReasons f = ((documents f).map declared).flatten.length := by
  rw [← List.flatMap_def, flatMap_declared, countDeclaredReasons]
  generalize f.lines = ls at h ⊢
  induction ls with
  | nil => rfl
  | cons line ls ih =>
    have hparts := List.forall_mem_cons.mp h
    rw [List.countP_cons, List.filterMap_cons, ih hparts.2]
    cases hreason : declaredReason line with
    | none => simp
    | some reason =>
      have hne : reason ≠ [] := by
        rintro rfl
        exact hparts.1 hreason
      simp [hne]

/-! ## The inline form -/

/-- The loop reads these reasons. -/
def readReasons (f : Fixture) : List Text := readLines (printedReasons f)

/-- A denial of the document contains the reason. -/
def DeniedFor (e : Evaluation) (document : ℕ) (reason : Text) : Prop :=
  ∃ message ∈ e.denialsOf document, reason <:+: message

/-- Each document is denied for the reason that it declares. -/
def DeniedDocumentByDocument (f : Fixture) (e : Evaluation) : Prop :=
  ∀ k document, (documents f)[k]? = some document →
    declared document ≠ [] ∧ ∀ reason ∈ declared document, DeniedFor e k reason

/-- Each document declares one reason; where the output quotes a reason, or the loop does not read
it, a denial of the reason's own document contains it. -/
structure Attributed (f : Fixture) (e : Evaluation) : Prop where
  one : ∀ document ∈ documents f, (declared document).length = 1
  own : ∀ k document, (documents f)[k]? = some document → ∀ reason ∈ declared document,
    reason ∉ readReasons f ∨ quotes (e.output f) reason = true → DeniedFor e k reason

/-- What the inline form has checked. -/
theorem inline_of_ok {f : Fixture} {e : Evaluation} {line : String}
    (h : expectFixtureDenials f e = .ok line) (hsidecar : f.sidecar = none) :
    ((documents f).map declared).flatten.length = (documents f).length ∧
      ∀ reason ∈ readReasons f, quotes (e.output f) reason = true := by
  simp only [expectFixtureDenials, hsidecar, raiseIf_bind_eq_ok, not_not,
    assertDeclaredDenialReasons] at h
  obtain ⟨hempty, -, -, hcount, hloop⟩ := h
  obtain ⟨u, hquoted, -⟩ := bind_eq_ok.mp hloop
  simp only [each_eq_ok, raiseIf_eq_ok] at hquoted
  rw [← countDeclaredReasons_eq (emptyDeclarationDocuments_eq_nil hempty), hcount,
    length_documents]
  refine ⟨rfl, ?_⟩
  intro reason hreason
  simpa using hquoted reason hreason

theorem inline_iff {f : Fixture} {e : Evaluation} {line : String}
    (h : expectFixtureDenials f e = .ok line) (hsidecar : f.sidecar = none) :
    DeniedDocumentByDocument f e ↔ Attributed f e := by
  obtain ⟨hcount, hquoted⟩ := inline_of_ok h hsidecar
  constructor
  · intro hdenied
    constructor
    · have hne : ∀ reasons ∈ (documents f).map declared, reasons ≠ [] := by
        intro reasons hreasons
        obtain ⟨document, hdocument, rfl⟩ := List.mem_map.mp hreasons
        obtain ⟨k, hk⟩ := List.mem_iff_getElem?.mp hdocument
        exact (hdenied k document hk).1
      have hone := length_eq_one hne (by rw [hcount, List.length_map])
      intro document hdocument
      exact hone _ (List.mem_map_of_mem hdocument)
    · intro k document hk reason hreason _
      exact (hdenied k document hk).2 reason hreason
  · intro hattributed k document hk
    have hone := hattributed.one document (List.mem_of_getElem? hk)
    refine ⟨by rw [← List.length_pos_iff]; omega, ?_⟩
    intro reason hreason
    apply hattributed.own k document hk reason hreason
    by_cases hread : reason ∈ readReasons f
    · exact .inr (hquoted reason hread)
    · exact .inl hread

/-! ## The sidecar form -/

theorem stripAnsi_sublist (line : Text) : (stripAnsi line).Sublist line := by
  apply Sed.replaceFrom_sublist
  intro b text taken replacement h
  exact Sed.eq_of_fixed h

/-- Text without an escape character stays. -/
theorem replaceFrom_ansi_append {a : Text} (ha : '\x1b' ∉ a) (start : Bool) (s : Text) :
    ∃ b, Sed.replaceFrom (Sed.fixed ansiSequence []) start 0 (a ++ s) =
      a ++ Sed.replaceFrom (Sed.fixed ansiSequence []) b 0 s := by
  induction a generalizing start with
  | nil => exact ⟨start, rfl⟩
  | cons c a ih =>
    obtain ⟨hc, ha⟩ := not_or.mp (List.mem_cons.not.mp ha)
    obtain ⟨b, hrest⟩ := ih ha false
    refine ⟨b, ?_⟩
    have hclass : decide (c = '\x1b') = false := by simpa using Ne.symm hc
    rw [List.cons_append, List.cons_append, ← hrest]
    exact Sed.replaceFrom_fixed_cons hclass _

theorem stripAnsi_append {a : Text} (ha : '\x1b' ∉ a) (s : Text) :
    stripAnsi (a ++ s) = a ++ stripAnsi s := by
  obtain ⟨b, h⟩ := replaceFrom_ansi_append ha true s
  rw [stripAnsi, Sed.replaceAll, h, Sed.replaceFrom_fixed]
  rfl

/-- What the comparison sees of a message. -/
def shown (message : Text) : Text :=
  (afterLast mainMark (mainMark.tail ++ stripAnsi message)).getD (stripAnsi message)

theorem mainMark_ne_nil : mainMark ≠ [] := by
  decide

theorem denialText_denial {f : Fixture} (message : Text) :
    denialText (stripAnsi (failStart ++ f.path ++ mainMark ++ message)) = some (shown message) := by
  have hplain : '\x1b' ∉ failStart ++ f.path ++ mainMark := by
    have hpath : '\x1b' ∉ f.path := fun hmem => (f.path_plain _ hmem).2.2 rfl
    have hstart : '\x1b' ∉ failStart := by decide
    have hmark : '\x1b' ∉ mainMark := by decide
    simp [hpath, hstart, hmark]
  have hprefix : failStart <+: failStart ++ f.path ++ mainMark ++ stripAnsi message := by
    simp only [List.append_assoc]
    exact List.prefix_append _ _
  rw [stripAnsi_append hplain, denialText, if_pos hprefix]
  simp only [List.append_assoc, List.drop_left]
  exact afterLast_sep mainMark_ne_nil

/-- A message is cut behind the mark, so what is cut is a proper end of it. -/
theorem shown_eq_or {message : Text} :
    (shown message = stripAnsi message ∧ ¬ mainMark <:+: mainMark.tail ++ stripAnsi message) ∨
      (shown message <:+ stripAnsi message ∧
        (shown message).length < (stripAnsi message).length) := by
  unfold shown
  cases hcut : afterLast mainMark (mainMark.tail ++ stripAnsi message) with
  | none => exact .inl ⟨rfl, (afterLast_eq_none mainMark_ne_nil).mp hcut⟩
  | some rest =>
    right
    have hlength := afterLast_length hcut
    have hmark : mainMark.length = mainMark.tail.length + 1 := by decide
    rw [List.length_append] at hlength
    simp only [Option.getD_some]
    refine ⟨?_, by omega⟩
    exact List.suffix_of_suffix_length_le (afterLast_suffix hcut) (List.suffix_append _ _)
      (by omega)

theorem shown_sublist (message : Text) : (shown message).Sublist message := by
  have hstrip := stripAnsi_sublist message
  rcases @shown_eq_or message with ⟨heq, -⟩ | ⟨hsuffix, -⟩
  · rw [heq]
    exact hstrip
  · exact hsuffix.sublist.trans hstrip

/-- One line without terminal sequences and without the mark that the comparison cuts at. -/
structure Plain (message : Text) : Prop where
  newline : '\n' ∉ message
  nul : '\x00' ∉ message
  ansi : stripAnsi message = message
  mark : ¬ mainMark <:+: mainMark.tail ++ message

theorem shown_eq_iff {message : Text} :
    shown message = message ↔
      stripAnsi message = message ∧ ¬ mainMark <:+: mainMark.tail ++ message := by
  have hstrip := stripAnsi_sublist message
  rcases @shown_eq_or message with ⟨heq, hmark⟩ | ⟨-, hlt⟩
  · rw [heq]
    constructor
    · intro h
      rw [h] at hmark
      exact ⟨h, hmark⟩
    · exact And.left
  · constructor
    · intro h
      have hle := hstrip.length_le
      rw [h] at hlt
      exact absurd hle (not_le.mpr hlt)
    · rintro ⟨h, hmark⟩
      have hnone := (afterLast_eq_none mainMark_ne_nil).mpr hmark
      rw [shown, h, hnone]
      rfl

section Sidecar

variable {f : Fixture} {e : Evaluation}

/-- Denials of one line each are found as they are shown. -/
theorem found_denials (h : Clean e.messages) :
    ((printedLines (e.output f)).filterMap fun line => denialText (stripAnsi line)) =
      e.messages.map shown := by
  have hmessage : ∀ p ∈ e.printed, ∀ m, p.message = some m → '\n' ∉ m ∧ '\x00' ∉ m := by
    intro p hp m hm
    exact h m (List.mem_filterMap.mpr ⟨p, hp, hm⟩)
  have hline : ∀ l ∈ e.printed.map (Printed.line f), '\n' ∉ l := by
    intro l hl
    obtain ⟨p, hp, rfl⟩ := List.mem_map.mp hl
    cases p with
    | notice line => exact (e.notices line hp).1
    | denial document m =>
      have hm := (hmessage _ hp m rfl).1
      have hpath : '\n' ∉ f.path := fun hmem => (f.path_plain _ hmem).1 rfl
      have hstart : '\n' ∉ failStart := by decide
      have hmark : '\n' ∉ mainMark := by decide
      simp [Printed.line, hm, hpath, hstart, hmark]
  rw [Evaluation.output, filterMap_printedLines (by decide) hline, List.filterMap_map,
    List.filterMap_map, Evaluation.messages, List.map_filterMap]
  apply List.filterMap_congr
  intro p hp
  cases p with
  | notice line => exact (e.notices line hp).2
  | denial document m =>
    have hm := (hmessage _ hp m rfl).2
    have hpath : '\x00' ∉ f.path := fun hmem => (f.path_plain _ hmem).2.1 rfl
    have hstart : '\x00' ∉ failStart := by decide
    have hmark : '\x00' ∉ mainMark := by decide
    have hfilter : (Printed.line f (.denial document m)).filter (· ≠ '\x00') =
        Printed.line f (.denial document m) := by
      rw [List.filter_eq_self]
      intro c hc
      have hne : c ≠ '\x00' := by
        rintro rfl
        simp [Printed.line, hm, hpath, hstart, hmark] at hc
      simpa using hne
    simp only [Function.comp, hfilter]
    exact denialText_denial m

theorem clean_reviewed (sidecar : TextFile) : Clean (reviewed sidecar) := by
  intro l hl
  obtain ⟨hnewline, hsub⟩ := of_mem_lines (List.mem_of_mem_filter hl)
  exact ⟨hnewline, fun hnul => sidecar.noNul (hsub hnul)⟩

theorem ne_nil_of_mem_reviewed {sidecar : TextFile} {l : Text} (hl : l ∈ reviewed sidecar) :
    l ≠ [] := by
  rintro rfl
  have hreviewed := (List.mem_filter.mp hl).2
  simp [isReviewed] at hreviewed

theorem sorted_perm (xs : List Text) : (sorted xs).Perm xs := List.perm_insertionSort _ xs

/-- What the sidecar form has checked, for denials of one line each. -/
theorem sidecar_of_ok {sidecar : TextFile} {line : String}
    (h : expectFixtureDenials f e = .ok line) (hsidecar : f.sidecar = some sidecar)
    (hclean : Clean e.messages) : (e.messages.map shown).Perm (reviewed sidecar) := by
  simp only [expectFixtureDenials, hsidecar, raiseIf_bind_eq_ok, not_not,
    assertReviewedDenialSet, found_denials hclean] at h
  obtain ⟨-, -, -, hexpected, hactual, -⟩ := h
  have hshown : Clean (e.messages.map shown) := by
    intro l hl
    obtain ⟨m, hm, rfl⟩ := List.mem_map.mp hl
    have hsub := (shown_sublist m).subset
    exact ⟨fun hmem => (hclean m hm).1 (hsub hmem), fun hmem => (hclean m hm).2 (hsub hmem)⟩
  have hsorted : (sorted (e.messages.map shown)).Pairwise (· ≤ ·) :=
    List.pairwise_insertionSort _ _
  have hne : reviewed sidecar ≠ [] := by
    intro hnil
    rw [hnil] at hexpected
    exact hexpected rfl
  have heq : sorted (e.messages.map shown) = sorted (reviewed sidecar) := by
    apply substitution_unlines_inj (hshown.perm (sorted_perm _).symm)
      ((clean_reviewed sidecar).perm (sorted_perm _).symm) hsorted _ _ hactual
    · intro l hl
      exact ne_nil_of_mem_reviewed ((sorted_perm _).mem_iff.mp hl)
    · intro hnil
      have hperm := sorted_perm (reviewed sidecar)
      rw [hnil] at hperm
      exact hne hperm.nil_eq.symm
  exact (sorted_perm _).symm.trans (heq ▸ sorted_perm (reviewed sidecar))

/-- Items that only get smaller and yet are the same list have not changed. -/
theorem forall_shown_eq {ms : List Text} (h : (ms.map shown).Perm ms) : ∀ m ∈ ms, shown m = m := by
  by_contra hsome
  push Not at hsome
  obtain ⟨m, hm, hne⟩ := hsome
  have hlt : (shown m).length < m.length := by
    apply lt_of_le_of_ne (shown_sublist m).length_le
    intro heq
    exact hne ((shown_sublist m).eq_of_length heq)
  have hsum := List.sum_lt_sum (l := ms) (fun m => (shown m).length) List.length
    (fun m _ => (shown_sublist m).length_le) ⟨m, hm, hlt⟩
  have hequal : ((ms.map shown).map List.length).sum = (ms.map List.length).sum :=
    (h.map List.length).sum_eq
  rw [List.map_map] at hequal
  exact absurd hequal hsum.ne

theorem sidecar_iff {sidecar : TextFile} {line : String}
    (h : expectFixtureDenials f e = .ok line) (hsidecar : f.sidecar = some sidecar) :
    e.messages.Perm (reviewed sidecar) ↔ ∀ m ∈ e.messages, Plain m := by
  constructor
  · intro hperm
    have hclean : Clean e.messages := (clean_reviewed sidecar).perm hperm.symm
    have hshown := forall_shown_eq ((sidecar_of_ok h hsidecar hclean).trans hperm.symm)
    intro m hm
    obtain ⟨hansi, hmark⟩ := shown_eq_iff.mp (hshown m hm)
    exact ⟨(hclean m hm).1, (hclean m hm).2, hansi, hmark⟩
  · intro hplain
    have hclean : Clean e.messages := fun m hm => ⟨(hplain m hm).newline, (hplain m hm).nul⟩
    have hshown : e.messages.map shown = e.messages := by
      rw [List.map_congr_left fun m hm => shown_eq_iff.mpr ⟨(hplain m hm).ansi, (hplain m hm).mark⟩,
        List.map_id']
    rw [← hshown]
    exact sidecar_of_ok h hsidecar hclean

end Sidecar

/-! ## Both forms -/

section Sample

def twinText : Text :=
  unlines ["# expect-deny: a".toList, "---".toList, "# expect-deny: a".toList]

theorem nul_notMem_twinText : '\x00' ∉ twinText := by
  decide

/-- Two documents that declare the same reason. -/
def twinFixture : Fixture where
  path := ['f']
  path_plain := by simp
  content := ⟨twinText, nul_notMem_twinText⟩
  sidecar := none

/-- Only the second document was denied. -/
def secondDenied : Evaluation where
  failed := true
  printed := [.denial 1 ['a']]
  notices := by simp

theorem twinFixture_passes : ∃ line, expectFixtureDenials twinFixture secondDenied = .ok line := by
  have hok : (expectFixtureDenials twinFixture secondDenied).isOk = true := by decide
  cases hresult : expectFixtureDenials twinFixture secondDenied with
  | ok line => exact ⟨line, rfl⟩
  | error message => simp [hresult, Except.isOk, Except.toBool] at hok

end Sample

end PolicyFixtures
