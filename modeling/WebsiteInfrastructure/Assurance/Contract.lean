import Mathlib
import WebsiteInfrastructure.Assurance.Acceptance
import WebsiteInfrastructure.Assurance.Manifest

/-!
# The manifest as a closed contract

The documents on which the validator raises, what an accepted manifest is, and the condition under
which it is consistent.
-/

namespace Assurance

open Json Raising

variable {F : Type}

/-! ## Raising -/

/-- `for item in value` does not raise. -/
def isIterable : Value F → Bool
  | .arr _ | .obj _ | .str _ => true
  | _ => false

/-- `set(value)` does not raise. -/
def isGatherable : Value F → Bool
  | .arr items => items.all Value.hashable
  | .obj _ | .str _ => true
  | _ => false

/-- An entry that has exactly the fields of its section. -/
def isExact (s : Section) (entry : Value F) : Bool :=
  entry.hasExactly (s.keyFields ++ ["expected", "control"])

/-- A document on which nothing raises. -/
structure Returnable (document : Value F) : Prop where
  object : document.isObject = true
  vocabulary : isGatherable ((document.get? "expected_vocabulary").getD (.arr [])) = true
  expected : ∀ s ∈ sections, ∀ entry ∈ entriesOf document s, isExact s entry = true →
    (entry.get "expected").hashable = true
  keys : ∀ s ∈ sections, ∀ entry ∈ entriesOf document s, isExact s entry = true →
    ∀ field ∈ s.keyFields, (entry.get field).hashable = true
  raw : ∀ s ∈ [inboundWan, reachability],
    isIterable ((document.get? s.name).getD (.arr [])) = true

theorem iterate_returns {v : Value F} : (∃ items, v.iterate = .ok items) ↔ isIterable v = true := by
  cases v <;> simp [Value.iterate, isIterable]

theorem rawEntries_returns {document : Value F} {s : Section} :
    (∃ items, rawEntries document s = .ok items) ↔
      isIterable ((document.get? s.name).getD (.arr [])) = true := by
  rw [rawEntries, ← iterate_returns]
  cases ((document.get? s.name).getD (.arr [])).iterate <;> simp

theorem setOf_returns {v : Value F} : (∃ items, setOf v = .ok items) ↔ isGatherable v = true := by
  cases v with
  | arr items =>
    simp only [setOf, Value.iterate, isGatherable]
    split <;> simp_all
  | obj fields => simp [setOf, Value.iterate, isGatherable, Value.hashable]
  | str t => simp [setOf, Value.iterate, isGatherable, Value.hashable]
  | _ => simp [setOf, Value.iterate, isGatherable]

variable [Interpreter F] {strFloat : F → List Char}

theorem inVocab_returns {v : Value F} :
    (∃ known, inVocab v = .ok known) ↔ v.hashable = true := by
  rw [inVocab]
  split <;> simp_all

theorem checkEntry_returns {s : Section} {index : ℕ} {entry : Value F} :
    (∃ found, checkEntry strFloat s index entry = .ok found) ↔
      (isExact s entry = true → (entry.get "expected").hashable = true) := by
  cases entry with
  | obj fields =>
    rw [checkEntry, isExact]
    split
    · next hexact =>
      simp only [hexact, forall_const, ← inVocab_returns, bind_eq_ok]
      constructor
      · rintro ⟨found, known, hknown, -⟩
        exact ⟨known, hknown⟩
      · rintro ⟨known, hknown⟩
        exact ⟨_, known, hknown, rfl⟩
    · next hexact => simp [hexact]
  | _ => simp [checkEntry, isExact, Value.hasExactly]

/-- The keys that are collected are those of the exact entries. -/
theorem checkEntry_keys {s : Section} {index : ℕ} {entry : Value F}
    {found : List (ManifestError F) × List (List (Value F))}
    (h : checkEntry strFloat s index entry = .ok found) :
    found.2 = if isExact s entry then [keyOf s entry] else [] := by
  cases entry with
  | obj fields =>
    rw [checkEntry] at h
    rw [isExact]
    split at h
    · next hexact =>
      obtain ⟨known, -, h⟩ := bind_eq_ok.mp h
      rw [if_pos hexact, ← Except.ok.inj h]
    · next hexact =>
      rw [if_neg hexact, ← Except.ok.inj h]
  | _ =>
    rw [← Except.ok.inj h]
    rfl

theorem checkAll_returns {s : Section} {index : ℕ} {entries : List (Value F)} :
    (∃ found, checkAll strFloat s index entries = .ok found) ↔
      ∀ entry ∈ entries, isExact s entry = true → (entry.get "expected").hashable = true := by
  induction entries generalizing index with
  | nil => simp [checkAll]
  | cons entry entries ih =>
    rw [List.forall_mem_cons, ← @checkEntry_returns _ _ strFloat s index,
      ← @ih (index + 1)]
    simp only [checkAll, bind_eq_ok, Prod.exists, Except.ok.injEq, Prod.mk.injEq]
    constructor
    · rintro ⟨_, _, errors, keys, hentry, moreErrors, moreKeys, hrest, -⟩
      exact ⟨⟨_, _, hentry⟩, _, _, hrest⟩
    · rintro ⟨⟨errors, keys, hentry⟩, moreErrors, moreKeys, hrest⟩
      exact ⟨_, _, errors, keys, hentry, moreErrors, moreKeys, hrest, rfl, rfl⟩

theorem checkAll_keys {s : Section} {index : ℕ} {entries : List (Value F)}
    {found : List (ManifestError F) × List (List (Value F))}
    (h : checkAll strFloat s index entries = .ok found) :
    found.2 = (entries.filter (isExact s)).map (keyOf s) := by
  induction entries generalizing index found with
  | nil => rw [← Except.ok.inj h]; rfl
  | cons entry entries ih =>
    obtain ⟨first, hfirst, h⟩ := bind_eq_ok.mp h
    obtain ⟨rest, hrest, h⟩ := bind_eq_ok.mp h
    rw [← Except.ok.inj h]
    dsimp only
    rw [checkEntry_keys hfirst, ih hrest, List.filter_cons]
    split <;> simp

/-- The keys of the entries that have the fields of their section. -/
def keysOf (document : Value F) (s : Section) : List (List (Value F)) :=
  ((entriesOf document s).filter (isExact s)).map (keyOf s)

theorem checkEntries_returns {document : Value F} {s : Section} :
    (∃ found, checkEntries strFloat document s = .ok found) ↔
      ∀ entry ∈ entriesOf document s, isExact s entry = true →
        (entry.get "expected").hashable = true := by
  rw [checkEntries]
  split
  · next hempty => simp [hempty]
  · exact checkAll_returns

theorem checkEntries_keys {document : Value F} {s : Section}
    {found : List (ManifestError F) × List (List (Value F))}
    (h : checkEntries strFloat document s = .ok found) : found.2 = keysOf document s := by
  rw [checkEntries] at h
  split at h
  · next hempty =>
    rw [← Except.ok.inj h, keysOf, hempty]
    rfl
  · exact checkAll_keys h

theorem checkCoverage_returns {s : Section} {document : Value F} :
    (∃ errors, checkCoverage s (keysOf document s) = .ok errors) ↔
      ∀ entry ∈ entriesOf document s, isExact s entry = true →
        ∀ field ∈ s.keyFields, (entry.get field).hashable = true := by
  have hall : ((keysOf document s).all fun key => key.all Value.hashable) = true ↔
      ∀ entry ∈ entriesOf document s, isExact s entry = true →
        ∀ field ∈ s.keyFields, (entry.get field).hashable = true := by
    simp only [keysOf, keyOf, List.all_eq_true, List.forall_mem_map, List.mem_filter, and_imp]
  rw [checkCoverage, ← hall]
  split
  · next hhashable => simp only [hhashable, Except.ok.injEq, exists_eq']
  · next hhashable => simp only [hhashable, reduceCtorEq, exists_const]

theorem documentErrors_returns {document : Value F} :
    (∃ errors, documentErrors strFloat document = .ok errors) ↔ Returnable document := by
  constructor
  · rintro ⟨errors, h⟩
    obtain ⟨hobject, h⟩ := raiseIf_bind_eq_ok.mp h
    obtain ⟨words, hwords, h⟩ := bind_eq_ok.mp h
    obtain ⟨inbound, hinbound, h⟩ := bind_eq_ok.mp h
    obtain ⟨reach, hreach, h⟩ := bind_eq_ok.mp h
    obtain ⟨out, hout, h⟩ := bind_eq_ok.mp h
    obtain ⟨missingInbound, hmissingInbound, h⟩ := bind_eq_ok.mp h
    obtain ⟨missingReach, hmissingReach, h⟩ := bind_eq_ok.mp h
    obtain ⟨missingEgress, hmissingEgress, h⟩ := bind_eq_ok.mp h
    obtain ⟨rawInbound, hrawInbound, h⟩ := bind_eq_ok.mp h
    obtain ⟨rawReach, hrawReach, -⟩ := bind_eq_ok.mp h
    rw [checkEntries_keys hinbound] at hmissingInbound
    rw [checkEntries_keys hreach] at hmissingReach
    rw [checkEntries_keys hout] at hmissingEgress
    refine ⟨Bool.not_eq_false _ ▸ hobject, setOf_returns.mp ⟨_, hwords⟩, ?_, ?_, ?_⟩
    · simp only [sections, List.forall_mem_cons]
      exact ⟨checkEntries_returns.mp ⟨_, hinbound⟩, checkEntries_returns.mp ⟨_, hreach⟩,
        checkEntries_returns.mp ⟨_, hout⟩, List.forall_mem_nil _⟩
    · simp only [sections, List.forall_mem_cons]
      exact ⟨checkCoverage_returns.mp ⟨_, hmissingInbound⟩,
        checkCoverage_returns.mp ⟨_, hmissingReach⟩, checkCoverage_returns.mp ⟨_, hmissingEgress⟩,
        List.forall_mem_nil _⟩
    · simp only [List.forall_mem_cons]
      exact ⟨rawEntries_returns.mp ⟨_, hrawInbound⟩, rawEntries_returns.mp ⟨_, hrawReach⟩,
        List.forall_mem_nil _⟩
  · intro h
    have hexpected := h.expected
    have hkeys := h.keys
    have hraw := h.raw
    simp only [sections, List.forall_mem_cons] at hexpected hkeys hraw
    obtain ⟨words, hwords⟩ := setOf_returns.mpr h.vocabulary
    obtain ⟨inbound, hinbound⟩ := (@checkEntries_returns _ _ strFloat _ _).mpr hexpected.1
    obtain ⟨reach, hreach⟩ := (@checkEntries_returns _ _ strFloat _ _).mpr hexpected.2.1
    obtain ⟨out, hout⟩ := (@checkEntries_returns _ _ strFloat _ _).mpr hexpected.2.2.1
    obtain ⟨missingInbound, hmissingInbound⟩ := checkCoverage_returns.mpr hkeys.1
    obtain ⟨missingReach, hmissingReach⟩ := checkCoverage_returns.mpr hkeys.2.1
    obtain ⟨missingEgress, hmissingEgress⟩ := checkCoverage_returns.mpr hkeys.2.2.1
    obtain ⟨rawInbound, hrawInbound⟩ := rawEntries_returns.mpr hraw.1
    obtain ⟨rawReach, hrawReach⟩ := rawEntries_returns.mpr hraw.2.1
    rw [← checkEntries_keys hinbound] at hmissingInbound
    rw [← checkEntries_keys hreach] at hmissingReach
    rw [← checkEntries_keys hout] at hmissingEgress
    refine ⟨_, raiseIf_bind_eq_ok.mpr ⟨by simp [h.object], bind_eq_ok.mpr ⟨words, hwords,
      bind_eq_ok.mpr ⟨inbound, hinbound, bind_eq_ok.mpr ⟨reach, hreach, bind_eq_ok.mpr ⟨out, hout,
      bind_eq_ok.mpr ⟨missingInbound, hmissingInbound, bind_eq_ok.mpr ⟨missingReach, hmissingReach,
      bind_eq_ok.mpr ⟨missingEgress, hmissingEgress, bind_eq_ok.mpr ⟨rawInbound, hrawInbound,
      bind_eq_ok.mpr ⟨rawReach, hrawReach, rfl⟩⟩⟩⟩⟩⟩⟩⟩⟩⟩⟩

/-! ## Accepting -/

/-- An entry that adds no error in its section. -/
structure ClosedEntry (strFloat : F → List Char) (s : Section) (entry : Value F) : Prop where
  exact : isExact s entry = true
  keys : ∀ field ∈ s.keyFields, isIdentifier (strValue strFloat (entry.get field)) = true
  expected : ∃ word ∈ expectedVocab, entry.get "expected" = .text word
  control : isControl (strValue strFloat (entry.get "control")) = true

theorem closed_of_checkEntry {s : Section} {index : ℕ} {entry : Value F}
    {keys : List (List (Value F))} (h : checkEntry strFloat s index entry = .ok ([], keys)) :
    ClosedEntry strFloat s entry := by
  cases entry with
  | obj fields =>
    rw [checkEntry] at h
    split at h
    · next hexact =>
      obtain ⟨known, hknown, h⟩ := bind_eq_ok.mp h
      obtain ⟨hnil, -⟩ := Prod.mk.inj (Except.ok.inj h)
      simp only [List.append_eq_nil_iff, List.map_eq_nil_iff, List.filter_eq_nil_iff,
        Bool.not_eq_true', Bool.not_eq_false, ite_eq_left_iff, reduceCtorEq, imp_false,
        not_not] at hnil
      obtain ⟨⟨hkeys, rfl⟩, hcontrol⟩ := hnil
      refine ⟨hexact, hkeys, ?_, hcontrol⟩
      rw [inVocab] at hknown
      split at hknown
      · obtain ⟨word, hword, heq⟩ := List.any_eq_true.mp (Except.ok.inj hknown)
        exact ⟨word, hword, Value.eq_text.mp heq⟩
      · cases hknown
    · simp at h
  | _ => simp [checkEntry] at h

theorem closed_of_checkAll {s : Section} {index : ℕ} {entries : List (Value F)}
    {keys : List (List (Value F))} (h : checkAll strFloat s index entries = .ok ([], keys)) :
    ∀ entry ∈ entries, ClosedEntry strFloat s entry := by
  induction entries generalizing index keys with
  | nil => simp
  | cons entry entries ih =>
    obtain ⟨⟨errors, first⟩, hfirst, h⟩ := bind_eq_ok.mp h
    obtain ⟨⟨more, rest⟩, hrest, h⟩ := bind_eq_ok.mp h
    obtain ⟨hnil, -⟩ := Prod.mk.inj (Except.ok.inj h)
    obtain ⟨rfl, rfl⟩ := List.append_eq_nil_iff.mp hnil
    exact List.forall_mem_cons.mpr ⟨closed_of_checkEntry hfirst, ih hrest⟩

theorem isKey_iff {key : List (Value F)} {names : List String} :
    isKey key names = true ↔ key = names.map .text := by
  induction key generalizing names with
  | nil => cases names <;> simp [isKey]
  | cons v key ih =>
    cases names with
    | nil => simp [isKey]
    | cons name names =>
      have hstep : isKey (v :: key) (name :: names) = (v.eq (.text name) && isKey key names) := by
        simp only [isKey, List.length_cons, Nat.add_right_cancel_iff, List.zip_cons_cons,
          List.all_cons]
        exact Bool.and_left_comm _ _ _
      rw [hstep, Bool.and_eq_true, ih, Value.eq_text, List.map_cons, List.cons.injEq]

/-- A section that adds no error. -/
structure ClosedSection (strFloat : F → List Char) (document : Value F) (s : Section) : Prop where
  listed : ∃ entries, document.get s.name = .arr entries
  closed : ∀ entry ∈ entriesOf document s, ClosedEntry strFloat s entry
  covered : ∀ names ∈ s.required, ∃ entry ∈ entriesOf document s, keyOf s entry = names.map .text

theorem closedSection {document : Value F} {s : Section}
    {found : List (ManifestError F) × List (List (Value F))}
    (h : checkEntries strFloat document s = .ok found) (hnil : found.1 = [])
    (hcovered : checkCoverage s found.2 = .ok []) : ClosedSection strFloat document s := by
  have hkeys := checkEntries_keys h
  rw [checkEntries] at h
  split at h
  · rw [← Except.ok.inj h] at hnil
    cases hnil
  · next hentries =>
    refine ⟨?_, ?_, ?_⟩
    · cases hget : document.get s.name with
      | arr entries => exact ⟨entries, rfl⟩
      | _ => simp [entriesOf, hget] at hentries
    · obtain ⟨errors, keys⟩ := found
      obtain rfl : errors = [] := hnil
      exact closed_of_checkAll h
    · rw [checkCoverage, hkeys] at hcovered
      dsimp only at hcovered
      split at hcovered
      · have hmissing : (s.required.filter fun names =>
            !(keysOf document s).any fun key => isKey key names) = [] := by
          by_contra hne
          rw [if_neg hne] at hcovered
          cases hcovered
        intro names hnames
        have hany := List.filter_eq_nil_iff.mp hmissing names hnames
        rw [Bool.not_eq_true', Bool.not_eq_false, List.any_eq_true] at hany
        obtain ⟨key, hkey, hsame⟩ := hany
        obtain ⟨entry, hentry, rfl⟩ := List.mem_map.mp hkey
        exact ⟨entry, (List.mem_filter.mp hentry).1, isKey_iff.mp hsame⟩
      · cases hcovered

/-- What a run without errors has checked. -/
structure Passed (strFloat : F → List Char) (document : Value F) : Prop where
  closed : ∀ s ∈ sections, ClosedSection strFloat document s
  inbound : ∀ entry ∈ entriesOf document inboundWan, inboundErrors entry = []

omit [Interpreter F] in
theorem rawEntries_eq {document : Value F} {s : Section} {items : List (Value F)}
    (h : rawEntries document s = .ok items) (hlisted : ∃ entries, document.get s.name = .arr entries) :
    items = entriesOf document s := by
  obtain ⟨entries, hentries⟩ := hlisted
  rw [entriesOf, hentries]
  cases hget : document.get? s.name with
  | none =>
    rw [Value.get, hget] at hentries
    cases hentries
  | some v =>
    rw [Value.get_of_get? hget] at hentries
    rw [rawEntries, hget, hentries] at h
    exact (Except.ok.inj h).symm

theorem passed_of_accepted {document : Value F} (h : documentErrors strFloat document = .ok []) :
    Passed strFloat document := by
  obtain ⟨-, h⟩ := raiseIf_bind_eq_ok.mp h
  obtain ⟨words, -, h⟩ := bind_eq_ok.mp h
  obtain ⟨inbound, hinbound, h⟩ := bind_eq_ok.mp h
  obtain ⟨reach, hreach, h⟩ := bind_eq_ok.mp h
  obtain ⟨out, hout, h⟩ := bind_eq_ok.mp h
  obtain ⟨missingInbound, hmissingInbound, h⟩ := bind_eq_ok.mp h
  obtain ⟨missingReach, hmissingReach, h⟩ := bind_eq_ok.mp h
  obtain ⟨missingEgress, hmissingEgress, h⟩ := bind_eq_ok.mp h
  obtain ⟨rawInbound, hrawInbound, h⟩ := bind_eq_ok.mp h
  obtain ⟨rawReach, hrawReach, h⟩ := bind_eq_ok.mp h
  have hnil := Except.ok.inj h
  simp only [List.append_eq_nil_iff, List.flatMap_eq_nil_iff] at hnil
  obtain ⟨⟨⟨⟨⟨⟨⟨⟨-, hin⟩, hre⟩, ho⟩, rfl⟩, rfl⟩, rfl⟩, hraw⟩, -⟩ := hnil
  have hclosed := closedSection hinbound hin hmissingInbound
  refine ⟨?_, ?_⟩
  · simp only [sections, List.forall_mem_cons]
    exact ⟨hclosed, closedSection hreach hre hmissingReach, closedSection hout ho hmissingEgress,
      List.forall_mem_nil _⟩
  · rw [← rawEntries_eq hrawInbound hclosed.listed]
    exact hraw

/-! ## Soundness -/

/-- A string of the closed contract. -/
def ClosedText (t : Text) : Prop :=
  ∃ s, t = .scalar s ∧ (s ∈ expectedVocab ∨ isIdentifier s.toList = true ∨
    isControl s.toList = true)

/-- Entries of one key expect one result. -/
def Agrees (document : Value F) (s : Section) : Prop :=
  ∀ entry ∈ entriesOf document s, ∀ other ∈ entriesOf document s,
    keyOf s entry = keyOf s other → entry.get "expected" = other.get "expected"

/-- What an accepted manifest should be. -/
structure Consistent (document : Value F) : Prop where
  covered : ∀ s ∈ sections, ∀ names ∈ s.required,
    ∃ entry ∈ entriesOf document s, keyOf s entry = names.map .text
  agrees : ∀ s ∈ sections, Agrees document s
  silent : ∀ entry ∈ entriesOf document inboundWan,
    entry.get "surface" ≠ .text "wireguard-admin-udp" → entry.get "expected" = .text "no-response"
  closed : ∀ s ∈ sections, ∀ t ∈ (document.get s.name).strings, ClosedText t

omit [Interpreter F] in
theorem nul_mem_of_lone {points : List ℕ} (h : points.any isSurrogate = true) :
    Char.ofNat 0 ∈ points.map Char.ofNat := by
  obtain ⟨point, hpoint, hsurrogate⟩ := List.any_eq_true.mp h
  rw [List.mem_map]
  refine ⟨point, hpoint, ?_⟩
  have hinvalid : ¬ point.isValidChar := by
    simp only [isSurrogate, Bool.and_eq_true, decide_eq_true_eq] at hsurrogate
    simp only [Nat.isValidChar]
    omega
  rw [Char.ofNat, dif_neg hinvalid]
  rfl

/-- A shape without brackets, braces and the character that stands for a lone surrogate. -/
def Bare (shape : List Char → Bool) : Prop :=
  ∀ cs, shape cs = true → Char.ofNat 0 ∉ cs ∧ '[' ∉ cs ∧ '\x7b' ∉ cs

omit [Interpreter F] in
/-- Where the printed value has a bare shape, the strings in it have that shape. -/
theorem strings_of_shape {shape : List Char → Bool} (hbare : Bare shape) {v : Value F}
    (h : shape (strValue strFloat v) = true) {t : Text} (ht : t ∈ v.strings) :
    ∃ s, t = .scalar s ∧ shape s.toList = true := by
  cases v with
  | str text =>
    rw [Value.strings, List.mem_singleton] at ht
    subst ht
    cases t with
    | scalar s =>
      have hchars : strValue strFloat (.str (.scalar s) : Value F) = s.toList := by
        simp [strValue, Text.points, Function.comp_def]
      rw [hchars] at h
      exact ⟨s, rfl, h⟩
    | lone points hlone => exact absurd (nul_mem_of_lone hlone) (hbare _ h).1
  | arr items => exact absurd List.mem_cons_self (hbare _ h).2.1
  | obj fields => exact absurd List.mem_cons_self (hbare _ h).2.2
  | _ => simp [Value.strings] at ht

theorem bare_isIdentifier : Bare isIdentifier := by
  intro cs h
  have hslug : ∀ c ∈ cs, isSlug c = true := by
    cases cs with
    | nil => cases h
    | cons c cs =>
      simp only [isIdentifier, Bool.and_eq_true, List.all_eq_true] at h
      intro d hd
      rcases List.mem_cons.mp hd with rfl | hd
      · simp [isSlug, h.1.1.1]
      · exact h.2 d hd
  have hnot (x : Char) (hx : isSlug x = false) : x ∉ cs := by
    intro hmem
    rw [hslug x hmem] at hx
    cases hx
  exact ⟨hnot _ (by decide), hnot _ (by decide), hnot _ (by decide)⟩

theorem bare_isControl : Bare isControl := by
  intro cs h
  obtain ⟨name, number, rfl, hname, hnumber⟩ := control_parts h
  have hnot (x : Char) (hx : isUpperOrDigit x = false ∧ x ≠ '-') :
      x ∉ "PLAT-".toList ++ (name ++ '-' :: number) := by
    have hstart : "PLAT-".toList.all (fun c => isUpperOrDigit c || c = '-') = true := by
      decide
    intro hmem
    simp only [List.mem_append, List.mem_cons] at hmem
    rcases hmem with hmem | hmem | rfl | hmem
    · have := List.all_eq_true.mp hstart x hmem
      simp [hx] at this
    · rw [hname x hmem] at hx
      cases hx.1
    · exact hx.2 rfl
    · rw [hnumber x hmem] at hx
      cases hx.1
  exact ⟨hnot _ (by decide), hnot _ (by decide), hnot _ (by decide)⟩

omit [Interpreter F] in
theorem closedText_of_entry {s : Section} {entry : Value F} (h : ClosedEntry strFloat s entry)
    (hordered : entry.inOrder = true) {t : Text} (ht : t ∈ entry.strings) : ClosedText t := by
  cases entry with
  | obj fields =>
    rw [Value.strings, mem_fieldsStrings] at ht
    obtain ⟨⟨name, v⟩, hf, ht⟩ := ht
    have hexact := h.exact
    rw [isExact, Value.hasExactly, Bool.and_eq_true, List.all_eq_true] at hexact
    obtain ⟨key, hkey, hname⟩ := List.any_eq_true.mp (hexact.1 _ hf)
    obtain rfl : name = .scalar key := of_decide_eq_true hname
    have hget := get_of_mem (nodup_of_inOrder hordered) hf
    simp only [List.mem_append, List.mem_cons, List.not_mem_nil, or_false] at hkey
    rcases hkey with hkey | rfl | rfl
    · have hshape := h.keys key hkey
      rw [hget] at hshape
      obtain ⟨text, rfl, htext⟩ := strings_of_shape bare_isIdentifier hshape ht
      exact ⟨text, rfl, .inr (.inl htext)⟩
    · obtain ⟨word, hword, heq⟩ := h.expected
      rw [hget] at heq
      rw [heq, Value.text, Value.strings, List.mem_singleton] at ht
      exact ⟨word, ht, .inl hword⟩
    · have hshape := h.control
      rw [hget] at hshape
      obtain ⟨text, rfl, htext⟩ := strings_of_shape bare_isControl hshape ht
      exact ⟨text, rfl, .inr (.inr htext)⟩
  | _ => cases h.exact

omit [Interpreter F] in
theorem closedText_of_section {document : Value F} {s : Section}
    (h : ClosedSection strFloat document s) (hordered : document.inOrder = true) {t : Text}
    (ht : t ∈ (document.get s.name).strings) : ClosedText t := by
  obtain ⟨entries, hentries⟩ := h.listed
  have hsection : (document.get s.name).inOrder = true := by
    cases hget : document.get? s.name with
    | none =>
      rw [Value.get, hget] at hentries
      cases hentries
    | some v =>
      rw [Value.get_of_get? hget]
      exact inOrder_of_get? hordered hget
  rw [hentries] at ht hsection
  rw [Value.strings, mem_itemsStrings] at ht
  obtain ⟨entry, hmem, ht⟩ := ht
  have hclosed := h.closed entry (by rw [entriesOf, hentries]; exact hmem)
  exact closedText_of_entry hclosed (inOrder_of_mem hsection hmem) ht

/-- What the pass over the raw inbound entries leaves. -/
theorem expected_of_inbound {entry : Value F} (hobject : entry.isObject = true)
    (h : inboundErrors entry = []) : entry.get "expected" =
      if (entry.get "surface").eq (.text "wireguard-admin-udp") then
        .text "wireguard-handshake-only" else .text "no-response" := by
  cases entry with
  | obj fields =>
    rw [inboundErrors] at h
    split at h
    · next hport =>
      rw [if_pos hport]
      split at h
      · next hexpected => exact Value.eq_text.mp hexpected
      · cases h
    · next hport =>
      rw [if_neg hport]
      split at h
      · next hexpected => exact Value.eq_text.mp hexpected
      · cases h
  | _ => cases hobject

omit [Interpreter F] in
theorem isObject_of_isExact {s : Section} {entry : Value F} (h : isExact s entry = true) :
    entry.isObject = true := by
  cases entry with
  | obj => rfl
  | _ => cases h

/-- Everything but the agreement of the paths holds of every accepted manifest. -/
theorem consistent_of_passed {document : Value F} (h : Passed strFloat document)
    (hordered : document.inOrder = true) (hreach : Agrees document reachability)
    (hegress : Agrees document egress) : Consistent document := by
  have hinbound : inboundWan ∈ sections := List.mem_cons_self
  have hexpected : ∀ entry ∈ entriesOf document inboundWan, entry.get "expected" =
      if (entry.get "surface").eq (.text "wireguard-admin-udp") then
        .text "wireguard-handshake-only" else .text "no-response" := by
    intro entry hentry
    have hexact := ((h.closed _ hinbound).closed entry hentry).exact
    exact expected_of_inbound (isObject_of_isExact hexact) (h.inbound entry hentry)
  refine ⟨fun s hs => (h.closed s hs).covered, ?_, ?_, ?_⟩
  · simp only [sections, List.forall_mem_cons]
    refine ⟨?_, hreach, hegress, List.forall_mem_nil _⟩
    intro entry hentry other hother hkey
    have hsurface : entry.get "surface" = other.get "surface" := (List.cons.inj hkey).1
    rw [hexpected entry hentry, hexpected other hother, hsurface]
  · intro entry hentry hsurface
    rw [hexpected entry hentry, if_neg]
    rwa [Value.eq_text]
  · intro s hs t ht
    exact closedText_of_section (h.closed s hs) hordered ht

variable (F) in
/-- A text that no parse error but a `JSONDecodeError` stops, and whose document raises nothing. -/
def Answerable (content : List Char) : Prop :=
  match (loads keepLast content : Except ReadError (Value F)) with
  | .ok document => Returnable document
  | .error reason => reason = .malformed

/-- The validator returns exactly on the answerable texts, and a manifest that it accepts is
consistent exactly when no path of the reachability or the egress section is listed with two
results. -/
theorem manifest_consistent_iff (strFloat : F → List Char) (content : List Char) :
    ((∃ errors, manifestErrors strFloat (some content) = .ok errors) ↔ Answerable F content) ∧
    (manifestErrors strFloat (some content) = .ok [] →
      ∃ document : Value F, loads keepLast content = .ok document ∧
        (Consistent document ↔ Agrees document reachability ∧ Agrees document egress)) := by
  rw [manifestErrors, Answerable]
  cases hloads : (loads keepLast content : Except ReadError (Value F)) with
  | error reason => cases reason <;> simp
  | ok document =>
    refine ⟨documentErrors_returns, ?_⟩
    intro haccepted
    refine ⟨document, rfl, ?_⟩
    constructor
    · intro h
      exact ⟨h.agrees _ (by simp [sections]), h.agrees _ (by simp [sections])⟩
    · rintro ⟨hreach, hegress⟩
      exact consistent_of_passed (passed_of_accepted haccepted) (inOrder_of_loads hloads) hreach
        hegress

/-! A manifest that lists one path twice, with two results. -/

namespace ManifestSample

def entry (fields : List (String × String)) : Value (List Char) :=
  .obj (fields.map fun f => (.scalar f.1, .text f.2))

def surface (name expected : String) : Value (List Char) :=
  entry [("control", "PLAT-A-001"), ("expected", expected), ("surface", name)]

def path (source target expected : String) : Value (List Char) :=
  entry [("control", "PLAT-A-001"), ("expected", expected), ("from", source), ("to", target)]

def document : Value (List Char) :=
  .obj [(.scalar "egress", .arr [path "tenant-pod" "arbitrary-internet" "denied",
      path "host" "dns-outside-proton" "denied",
      path "host" "arbitrary-internet-on-proton-drop" "fail-closed"]),
    (.scalar "expected_vocabulary", .arr (expectedVocab.map .text)),
    (.scalar "inbound_wan", .arr [surface "wireguard-admin-udp" "wireguard-handshake-only",
      surface "all-other-ports" "no-response", surface "kubernetes-api" "no-response"]),
    (.scalar "reachability", .arr [path "tenant-pod" "other-tenant-pod" "denied",
      path "tenant-pod" "other-tenant-pod" "allowed-to-class",
      path "tenant-pod" "kubernetes-api" "denied", path "tenant-pod" "node-host" "denied",
      path "tenant-pod" "admin-plane-subnet" "denied", path "admin-peer" "kubernetes-api" "denied"]),
    (.scalar "schema", .text "attack-surface/v1")]

def content : List Char := write true document

end ManifestSample

theorem manifest_sample_accepted :
    manifestErrors (fun x : List Char => x) (some ManifestSample.content) = .ok [] := by
  have hplain : ManifestSample.document.isPlain (Interpreter.readDepth (List Char)) = true := by
    decide
  have hloads : loads keepLast ManifestSample.content = .ok ManifestSample.document :=
    loads_write builds_keepLast true hplain
  have hempty : (match documentErrors (fun x : List Char => x) ManifestSample.document with
      | .ok errors => errors.isEmpty
      | .error _ => false) = true := by
    decide
  rw [manifestErrors, hloads]
  split at hempty
  · next errors heq => exact heq.trans (by rw [List.isEmpty_iff.mp hempty])
  · cases hempty

theorem manifest_sample_consistent_iff : ∃ document : Value (List Char),
    loads keepLast ManifestSample.content = .ok document ∧
      (Consistent document ↔ Agrees document reachability ∧ Agrees document egress) :=
  (manifest_consistent_iff (fun x : List Char => x) ManifestSample.content).2
    manifest_sample_accepted

/-- A manifest with two results for one path is accepted, and a list for a manifest raises. -/
theorem conflicting_manifest_is_accepted :
    manifestErrors (fun x : List Char => x) (some ManifestSample.content) = .ok [] ∧
      (∀ document : Value (List Char), loads keepLast ManifestSample.content = .ok document →
        ¬ Consistent document) ∧
      manifestErrors (fun x : List Char => x) (some ['[', ']']) = .error .attributeError := by
  refine ⟨manifest_sample_accepted, ?_, ?_⟩
  · intro document hloads h
    have hplain : ManifestSample.document.isPlain (Interpreter.readDepth (List Char)) = true := by
      decide
    have hread : loads keepLast ManifestSample.content = .ok ManifestSample.document :=
      loads_write builds_keepLast true hplain
    rw [hread] at hloads
    obtain rfl := Except.ok.inj hloads
    have hentries : ∃ more, entriesOf ManifestSample.document reachability =
        ManifestSample.path "tenant-pod" "other-tenant-pod" "denied" ::
          ManifestSample.path "tenant-pod" "other-tenant-pod" "allowed-to-class" :: more :=
      ⟨_, rfl⟩
    obtain ⟨more, hentries⟩ := hentries
    have hagrees := h.agrees reachability (by simp [sections])
    rw [Agrees, hentries] at hagrees
    have hsame := hagrees _ List.mem_cons_self _ (List.mem_cons_of_mem _ List.mem_cons_self) rfl
    have htexts : (Value.text "denied" : Value (List Char)) = .text "allowed-to-class" := hsame
    exact absurd (Value.text_inj.mp htexts) (by decide)
  · rfl

end Assurance
