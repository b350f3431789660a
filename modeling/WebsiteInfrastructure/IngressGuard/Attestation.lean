import Mathlib
import WebsiteInfrastructure.Library.AwkFields
import WebsiteInfrastructure.Library.LineReaders

/-!
# The retrofit attestation

`parse_retrofit_attestation_text` takes the lines of `splitlines`. Which texts it accepts, and when
these are the texts whose lines, as the shell ends them, are the expected ones.
-/

namespace IngressGuard

open PythonText ShellText

/-! ## The code -/

/-- The four values that the caller binds the attestation to. -/
structure Bindings where
  sourceRevision : String
  manifestSha256 : String
  bootIdSha256 : String
  clusterCaSha256 : String

abbrev Attested := List (String × String)

def expected (bindings : Bindings) : Attested :=
  [("SCHEMA", "ingress-guard-retrofit-attestation-v1"),
    ("SOURCE_REVISION", bindings.sourceRevision),
    ("MANIFEST_SHA256", bindings.manifestSha256),
    ("BOOT_ID_SHA256", bindings.bootIdSha256),
    ("CLUSTER_CA_SHA256", bindings.clusterCaSha256),
    ("OWNED_TABLE_PRESTATE", "absent"),
    ("GUARD_UNIT_PRESTATE", "absent"),
    ("DROPIN_PRESTATE", "absent"),
    ("KUBELET_PRESTATE", "active"),
    ("TWO_RETAINED_SESSIONS", "yes"),
    ("PHYSICAL_LAN_RECOVERY", "yes"),
    ("FRESH_LOGIN_CANARY", "yes"),
    ("MUTATION_WINDOW_AUTHORIZED", "yes")]

def expectedNames : List String :=
  ["SCHEMA", "SOURCE_REVISION", "MANIFEST_SHA256", "BOOT_ID_SHA256", "CLUSTER_CA_SHA256",
    "OWNED_TABLE_PRESTATE", "GUARD_UNIT_PRESTATE", "DROPIN_PRESTATE", "KUBELET_PRESTATE",
    "TWO_RETAINED_SESSIONS", "PHYSICAL_LAN_RECOVERY", "FRESH_LOGIN_CANARY",
    "MUTATION_WINDOW_AUTHORIZED"]

/-- The letters, the digits and `._-` -/
def isAllowed (c : Char) : Bool := c.isAlphanum || c ∈ ['.', '_', '-']

/-- One turn of the loop; `none` is the early return. -/
def observeLine (observed : Attested) (line : List Char) : Option Attested :=
  if line.count '=' ≠ 1 ∨ line ≠ strip line then none
  else
    let key := String.ofList (awkKey line)
    let value := awkValue line
    if key ∈ observed.map Prod.fst ∨ key ∉ expectedNames ∨ value = [] then none
    else if value.any (fun c => !isAllowed c) then none
    else some (observed ++ [(key, String.ofList value)])

def observeLines (observed : Attested) : List (List Char) → Option Attested
  | [] => some observed
  | line :: lines => do
    let observed ← observeLine observed line
    observeLines observed lines

/-- `observed == expected`, of two dicts -/
def sameEntries (observed expected : Attested) : Bool :=
  observed.length = expected.length && observed.all (· ∈ expected)

def parseRetrofitAttestationText (text : List Char) (bindings : Bindings) : List String :=
  if '\r' ∈ text ∨ text.getLast? ≠ some '\n' then ["RETROFIT_ATTESTATION_INVALID"]
  else
    match observeLines [] (splitlines text) with
    | none => ["RETROFIT_ATTESTATION_INVALID"]
    | some observed =>
      if sameEntries observed (expected bindings) then [] else ["RETROFIT_ATTESTATION_INVALID"]

/-! ## Lines and entries -/

def lineOf (entry : String × String) : List Char := entry.1.toList ++ '=' :: entry.2.toList

def expectedLines (bindings : Bindings) : List (List Char) := (expected bindings).map lineOf

/-- The value has only letters, digits and `._-`, and some of them. -/
def isValue (value : String) : Bool := value.toList ≠ [] && value.toList.all isAllowed

/-- The four values can stand in an attestation. -/
def Bindings.areValues (bindings : Bindings) : Bool :=
  (expected bindings).all fun e => isValue e.2

theorem expected_names (bindings : Bindings) : (expected bindings).map Prod.fst = expectedNames := rfl

theorem expectedNames_nodup : expectedNames.Nodup := by decide

theorem isAllowed_plain {c : Char} (h : isAllowed c = true) : isSpace c = false ∧ c ≠ '=' := by
  constructor
  · rw [isAllowed, Bool.or_eq_true] at h
    rcases h with halpha | hmark
    · exact isSpace_of_alphanum halpha
    · simp only [List.mem_cons, List.not_mem_nil, or_false, decide_eq_true_eq] at hmark
      rcases hmark with rfl | rfl | rfl <;> decide
  · rintro rfl
    revert h
    decide

theorem name_plain : ∀ name ∈ expectedNames, name.toList.all isAllowed = true := by
  decide +kernel

theorem lineOf_plain {entry : String × String} (hname : entry.1 ∈ expectedNames)
    (hvalue : isValue entry.2 = true) : ∀ c ∈ lineOf entry, isSpace c = false := by
  rw [isValue, Bool.and_eq_true] at hvalue
  intro c hc
  rcases List.mem_append.mp hc with hc | hc
  · exact (isAllowed_plain (List.all_eq_true.mp (name_plain _ hname) c hc)).1
  · rcases List.mem_cons.mp hc with rfl | hc
    · decide
    · exact (isAllowed_plain (List.all_eq_true.mp hvalue.2 c hc)).1

/-- The line of a name and a value is observed as them. -/
theorem observeLine_lineOf {observed : Attested} {entry : String × String}
    (hname : entry.1 ∈ expectedNames) (hvalue : isValue entry.2 = true)
    (hnew : entry.1 ∉ observed.map Prod.fst) :
    observeLine observed (lineOf entry) = some (observed ++ [entry]) := by
  have hplain := lineOf_plain hname hvalue
  have hequals : '=' ∉ entry.1.toList := by
    intro hmem
    exact (isAllowed_plain (List.all_eq_true.mp (name_plain _ hname) _ hmem)).2 rfl
  have hcount : (lineOf entry).count '=' = 1 := by
    have hvalue' : '=' ∉ entry.2.toList := by
      intro hmem
      rw [isValue, Bool.and_eq_true] at hvalue
      exact (isAllowed_plain (List.all_eq_true.mp hvalue.2 _ hmem)).2 rfl
    rw [lineOf, List.count_append, List.count_cons_self, List.count_eq_zero_of_not_mem hequals,
      List.count_eq_zero_of_not_mem hvalue']
  have hkey : awkKey (lineOf entry) = entry.1.toList := awkKey_pair hequals _
  have hread : awkValue (lineOf entry) = entry.2.toList := awkValue_pair hequals _
  simp only [isValue, Bool.and_eq_true, decide_eq_true_eq] at hvalue
  have hgood : entry.2.toList.any (fun c => !isAllowed c) = false := by
    rw [List.any_eq_false]
    intro c hc
    simp [List.all_eq_true.mp hvalue.2 c hc]
  have hform : ¬ (entry.1 ∈ observed.map Prod.fst ∨ entry.1 ∉ expectedNames ∨
      entry.2.toList = []) := by
    rintro (hseen | hforeign | hempty)
    · exact hnew hseen
    · exact hforeign hname
    · exact hvalue.1 hempty
  have hline : ¬ ((lineOf entry).count '=' ≠ 1 ∨ lineOf entry ≠ strip (lineOf entry)) := by
    rw [strip_of_no_space hplain, hcount]
    simp
  simp only [observeLine, if_neg hline, hkey, hread, String.ofList_toList, if_neg hform, hgood]
  rfl

/-- A line that is observed is the line of a name and a value, and the name is new. -/
theorem observeLine_eq_some {observed result : Attested} {line : List Char}
    (h : observeLine observed line = some result) :
    ∃ entry, line = lineOf entry ∧ entry.1 ∈ expectedNames ∧ isValue entry.2 = true ∧
      entry.1 ∉ observed.map Prod.fst ∧ result = observed ++ [entry] := by
  unfold observeLine at h
  split at h
  · cases h
  · next hform =>
    rw [not_or, not_not, not_not] at hform
    have hequals : '=' ∈ line := List.count_pos_iff.mp (by omega)
    dsimp only at h
    split at h
    · cases h
    · next hkey =>
      rw [not_or, not_or, not_not] at hkey
      split at h
      · cases h
      · next hvalue =>
        refine ⟨_, ?_, hkey.2.1, ?_, hkey.1, (Option.some.inj h).symm⟩
        · simpa [lineOf] using (awk_pair hequals).symm
        · have hall : (awkValue line).all isAllowed = true := by
            rw [List.all_eq_true]
            intro c hc
            by_contra hbad
            exact hvalue (List.any_eq_true.mpr ⟨c, hc, by simpa using hbad⟩)
          rw [isValue, String.toList_ofList, hall, Bool.and_true, decide_eq_true_eq]
          exact fun hempty => hkey.2.2 hempty

/-- The lines that are observed are the lines of the entries, whose names are distinct. -/
theorem observeLines_eq_some {observed result : Attested} {lines : List (List Char)}
    (h : observeLines observed lines = some result) (hnodup : (observed.map Prod.fst).Nodup) :
    ∃ entries, lines = entries.map lineOf ∧ result = observed ++ entries ∧
      (result.map Prod.fst).Nodup ∧ ∀ e ∈ entries, isValue e.2 = true := by
  induction lines generalizing observed with
  | nil =>
    obtain rfl := Option.some.inj h
    exact ⟨[], rfl, by simp, hnodup, by simp⟩
  | cons line lines ih =>
    rw [observeLines, Option.bind_eq_bind, Option.bind_eq_some_iff] at h
    obtain ⟨next, hline, hrest⟩ := h
    obtain ⟨entry, rfl, hname, hvalue, hnew, rfl⟩ := observeLine_eq_some hline
    have hnodup' : ((observed ++ [entry]).map Prod.fst).Nodup := by
      rw [List.map_append, List.nodup_append]
      refine ⟨hnodup, by simp, fun a ha b hb heq => hnew ?_⟩
      obtain rfl : b = entry.1 := by simpa using hb
      exact heq ▸ ha
    obtain ⟨entries, rfl, rfl, hresult, hvalues⟩ := ih hrest hnodup'
    exact ⟨entry :: entries, rfl, by simp, hresult, List.forall_mem_cons.mpr ⟨hvalue, hvalues⟩⟩

theorem observeLines_lineOf {observed entries : Attested}
    (hnames : ∀ e ∈ entries, e.1 ∈ expectedNames) (hvalues : ∀ e ∈ entries, isValue e.2 = true)
    (hnodup : ((observed ++ entries).map Prod.fst).Nodup) :
    observeLines observed (entries.map lineOf) = some (observed ++ entries) := by
  induction entries generalizing observed with
  | nil => simp [observeLines]
  | cons entry entries ih =>
    rw [List.forall_mem_cons] at hnames hvalues
    have hnew : entry.1 ∉ observed.map Prod.fst := by
      rw [List.map_append, List.nodup_append] at hnodup
      intro hmem
      exact hnodup.2.2 _ hmem _ List.mem_cons_self rfl
    rw [List.map_cons, observeLines, observeLine_lineOf hnames.1 hvalues.1 hnew,
      Option.bind_eq_bind, Option.bind_some, ih hnames.2 hvalues.2 (by simpa using hnodup)]
    simp

/-! ## The accepted texts -/

/-- The lines are those of some entries in another order. -/
theorem entries_of_perm {lines : List (List Char)} {entries : Attested}
    (h : lines.Perm (entries.map lineOf)) :
    ∃ entries' : Attested, entries'.Perm entries ∧ lines = entries'.map lineOf := by
  have hlines : List.Forall₂ (fun line entry => line = lineOf entry) (entries.map lineOf) entries := by
    rw [List.forall₂_map_left_iff]
    exact List.forall₂_same.mpr fun _ _ => rfl
  obtain ⟨entries', hforall, hperm⟩ := List.perm_comp_forall₂ h hlines
  refine ⟨entries', hperm, ?_⟩
  rw [← List.forall₂_eq_eq_eq, List.forall₂_map_right_iff]
  exact hforall

theorem accepts_iff {text : List Char} {bindings : Bindings} :
    parseRetrofitAttestationText text bindings = [] ↔
      '\r' ∉ text ∧ text.getLast? = some '\n' ∧
        (splitlines text).Perm (expectedLines bindings) ∧ bindings.areValues = true := by
  unfold parseRetrofitAttestationText
  constructor
  · intro h
    split at h
    · cases h
    · next hends =>
      rw [not_or, not_not] at hends
      split at h
      · cases h
      · next observed hobserved =>
        split at h
        · next hsame =>
          obtain ⟨entries, hlines, hresult, hnodup, hvalues⟩ :=
            observeLines_eq_some hobserved (by simp)
          obtain rfl : observed = entries := by rw [hresult, List.nil_append]
          simp only [sameEntries, Bool.and_eq_true, decide_eq_true_eq, List.all_eq_true] at hsame
          obtain ⟨hlength, hsubset⟩ := hsame
          have hperm : observed.Perm (expected bindings) :=
            (List.subperm_of_subset hnodup.of_map hsubset).perm_of_length_le hlength.ge
          refine ⟨hends.1, hends.2, ?_, ?_⟩
          · rw [hlines]
            exact hperm.map lineOf
          · rw [Bindings.areValues, List.all_eq_true]
            exact fun e he => hvalues e (hperm.mem_iff.mpr he)
        · cases h
  · rintro ⟨hreturn, hend, hperm, hvalues⟩
    obtain ⟨entries, hentries, hlines⟩ := entries_of_perm hperm
    have hmem : ∀ e ∈ entries, e ∈ expected bindings := fun e he => hentries.mem_iff.mp he
    have hnames : ∀ e ∈ entries, e.1 ∈ expectedNames := by
      intro e he
      rw [← expected_names bindings]
      exact List.mem_map_of_mem (hmem e he)
    have hgood : ∀ e ∈ entries, isValue e.2 = true :=
      fun e he => List.all_eq_true.mp hvalues e (hmem e he)
    have hnodup : ((([] : Attested) ++ entries).map Prod.fst).Nodup := by
      rw [List.nil_append, (hentries.map Prod.fst).nodup_iff, expected_names]
      exact expectedNames_nodup
    have hsame : sameEntries entries (expected bindings) = true := by
      simpa [sameEntries, hentries.length_eq] using hmem
    rw [if_neg (by simp [hreturn, hend]), hlines, observeLines_lineOf hnames hgood hnodup]
    simp [hsame]

/-- The text ends with a line feed, and its lines, as line feeds end them, are the expected ones in
some order. -/
def IsExact (text : List Char) (bindings : Bindings) : Prop :=
  text.getLast? = some '\n' ∧ (lines text).Perm (expectedLines bindings)

/-- The lines of Python are the expected ones, and a character other than a line feed ends one of
them. -/
def EndsOtherwise (text : List Char) (bindings : Bindings) : Prop :=
  ('\r' ∉ text ∧ text.getLast? = some '\n' ∧ (splitlines text).Perm (expectedLines bindings)) ∧
    ∃ c ∈ text, isLineBreak c = true ∧ c ≠ '\n'

theorem expectedLines_plain {bindings : Bindings} (h : bindings.areValues = true) :
    ∀ line ∈ expectedLines bindings, ∀ c ∈ line, isLineBreak c = false := by
  intro line hline c hc
  obtain ⟨entry, hentry, rfl⟩ := List.mem_map.mp hline
  have hname : entry.1 ∈ expectedNames := by
    rw [← expected_names bindings]
    exact List.mem_map_of_mem hentry
  have hspace := lineOf_plain hname (List.all_eq_true.mp h entry hentry) c hc
  by_contra hbreak
  rw [isSpace_of_isLineBreak (by simpa using hbreak)] at hspace
  cases hspace

/-- An exact text has no other line break than line feeds. -/
theorem feeds_of_isExact {text : List Char} {bindings : Bindings} (h : bindings.areValues = true)
    (hexact : IsExact text bindings) : ∀ c ∈ text, isLineBreak c = true → c = '\n' := by
  intro c hc hbreak
  rcases mem_lines_or hc with hfeed | ⟨line, hline, hmem⟩
  · exact hfeed
  · rw [expectedLines_plain h line (hexact.2.mem_iff.mp hline) c hmem] at hbreak
    cases hbreak

/-- Acceptance is exactness, but for texts of the expected lines of which another character than a
line feed ends one, and for bindings that no attestation can hold. -/
theorem attestation_exact_iff (text : List Char) (bindings : Bindings) :
    (parseRetrofitAttestationText text bindings = [] ↔ IsExact text bindings) ↔
      ¬ (bindings.areValues = true ∧ EndsOtherwise text bindings) ∧
        ¬ (bindings.areValues = false ∧ IsExact text bindings) := by
  rw [accepts_iff]
  cases hvalues : bindings.areValues with
  | false => simp
  | true =>
    constructor
    · intro h
      refine ⟨?_, by simp⟩
      rintro ⟨-, ⟨hreturn, hend, hperm⟩, c, hc, hbreak, hne⟩
      exact hne (feeds_of_isExact hvalues (h.mp ⟨hreturn, hend, hperm, rfl⟩) c hc hbreak)
    · rintro ⟨hothers, -⟩
      constructor
      · rintro ⟨hreturn, hend, hperm, -⟩
        have hfeeds : ∀ c ∈ text, isLineBreak c = true → c = '\n' := by
          intro c hc hbreak
          by_contra hne
          exact hothers ⟨rfl, ⟨hreturn, hend, hperm⟩, c, hc, hbreak, hne⟩
        rw [(splitlines_eq_lines_iff hend).mpr hfeeds] at hperm
        exact ⟨hend, hperm⟩
      · intro hexact
        have hfeeds := feeds_of_isExact hvalues hexact
        have hsame := (splitlines_eq_lines_iff hexact.1).mpr hfeeds
        refine ⟨?_, hexact.1, by rw [hsame]; exact hexact.2, rfl⟩
        intro hreturn
        exact absurd (hfeeds '\r' hreturn (by decide)) (by decide)

namespace AttestationSample

def bindings : Bindings := ⟨"a", "b", "c", "d"⟩

/-- The expected lines, with another end of the first. -/
def text (feed : Char) : List Char :=
  match expectedLines bindings with
  | [] => []
  | first :: rest => first ++ feed :: PythonText.unlines rest

end AttestationSample

/-- A text whose first line ends with a line separator is accepted and is not exact. -/
theorem separated_is_accepted : ¬ ∀ text bindings,
    parseRetrofitAttestationText text bindings = [] ↔ IsExact text bindings := by
  intro h
  have haccepted : parseRetrofitAttestationText (AttestationSample.text '\u2028')
      AttestationSample.bindings = [] := by
    decide +kernel
  have hvalues : AttestationSample.bindings.areValues = true := by decide +kernel
  have hexact := (h _ _).mp haccepted
  have hmem : '\u2028' ∈ AttestationSample.text '\u2028' := by
    rw [AttestationSample.text, expectedLines, expected, List.map_cons]
    exact List.mem_append_right _ List.mem_cons_self
  exact absurd (feeds_of_isExact hvalues hexact _ hmem (by decide)) (by decide)

end IngressGuard
