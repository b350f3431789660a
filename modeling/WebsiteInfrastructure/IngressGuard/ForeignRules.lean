import Mathlib
import WebsiteInfrastructure.IngressGuard.Meaning

/-!
# Foreign rulesets

Objects that bear no owned name leave every verdict as it is, and no ruleset is both absent and
exact.
-/

namespace IngressGuard

open Json Json.Value

variable {F : Type} [Interpreter F]

/-! ## Foreign objects -/

/-- A well-formed object, other than the version record, that bears no owned name. -/
def foreign (item : Value F) : Bool :=
  match object? item with
  | none => false
  | some (kind, body) => kind ≠ .scalar "metainfo" && !named body "table" ownedTable &&
      !(kind = .scalar "table" && named body "name" ownedTable) &&
      !(kind = .scalar "chain" && named body "name" ownedChain)

/-- A listing: its version record and the objects after it. -/
def listingOf (head : Value F) (items : List (Value F)) : Value F :=
  .obj [(.scalar "nftables", .arr (head :: items))]

theorem foreign_eq_true {item : Value F} (h : foreign item = true) :
    ∃ o, object? item = some o ∧ o.1 ≠ .scalar "metainfo" ∧ named o.2 "table" ownedTable = false ∧
      (o.1 = .scalar "table" → named o.2 "name" ownedTable = false) ∧
      (o.1 = .scalar "chain" → named o.2 "name" ownedChain = false) := by
  unfold foreign at h
  split at h
  · simp at h
  · rename_i kind body ho
    refine ⟨(kind, body), ho, ?_⟩
    simpa [-named_eq_true, and_assoc, imp_iff_not_or] using h

omit [Interpreter F] in
theorem single?_of_object {item : Value F} {o : Text × Value F} (h : object? item = some o) :
    single? item = some o := by
  rw [object?, Option.filter_eq_some_iff] at h
  exact h.1

theorem add_foreign {item : Value F} {o : Text × Value F} (hforeign : foreign item = true)
    (ho : object? item = some o) (owned : Owned F) : owned.add o.1 o.2 = owned := by
  obtain ⟨o', ho', -, htable, hname, hchain⟩ := foreign_eq_true hforeign
  obtain rfl := Option.some.inj (ho'.symm.trans ho)
  unfold Owned.add
  split_ifs <;> simp_all

theorem presence_foreign {item : Value F} {o : Text × Value F} (hforeign : foreign item = true)
    (ho : object? item = some o) : presence o.1 o.2 = none := by
  obtain ⟨o', ho', -, htable, hname, hchain⟩ := foreign_eq_true hforeign
  obtain rfl := Option.some.inj (ho'.symm.trans ho)
  unfold presence
  split_ifs <;> simp_all [-named_eq_true]

/-! ## The loops skip foreign objects -/

theorem collect_filter (items : List (Value F)) (owned : Owned F) :
    collect items owned = collect (items.filter (!foreign ·)) owned := by
  induction items generalizing owned with
  | nil => rfl
  | cons item rest ih =>
    cases hforeign : foreign item with
    | false =>
      rw [List.filter_cons_of_pos (by simp [hforeign])]
      simp only [collect, ih]
    | true =>
      obtain ⟨o, ho, -⟩ := foreign_eq_true hforeign
      rw [List.filter_cons_of_neg (by simp [hforeign]), collect, ho]
      simp only [add_foreign hforeign ho]
      exact ih owned

theorem presences_filter (items : List (Value F)) (errors : List String) :
    presences items errors = presences (items.filter (!foreign ·)) errors := by
  induction items generalizing errors with
  | nil => rfl
  | cons item rest ih =>
    cases hforeign : foreign item with
    | false =>
      rw [List.filter_cons_of_pos (by simp [hforeign])]
      simp only [presences, ih]
    | true =>
      obtain ⟨o, ho, -⟩ := foreign_eq_true hforeign
      rw [List.filter_cons_of_neg (by simp [hforeign]), presences, ho]
      simp only [presence_foreign hforeign ho, Option.toList_none, List.append_nil]
      exact ih errors

theorem any_filter {items : List (Value F)} {p : Value F → Bool}
    (h : ∀ item, foreign item = true → p item = false) :
    items.any p = (items.filter (!foreign ·)).any p := by
  induction items with
  | nil => rfl
  | cons item rest ih =>
    cases hforeign : foreign item with
    | false => rw [List.filter_cons_of_pos (by simp [hforeign]), List.any_cons, List.any_cons, ih]
    | true =>
      rw [List.filter_cons_of_neg (by simp [hforeign]), List.any_cons, h item hforeign, ih,
        Bool.false_or]

theorem foreign_single {item : Value F} (h : foreign item = true) :
    (single? item).isNone = false := by
  obtain ⟨o, ho, -⟩ := foreign_eq_true h
  rw [single?_of_object ho]
  rfl

theorem foreign_not_metainfo {item : Value F} (h : foreign item = true) :
    isMetainfo item = false := by
  obtain ⟨⟨kind, body⟩, ho, hkind, -⟩ := foreign_eq_true h
  rw [single?_eq_some.mp (single?_of_object ho)]
  have hbeq : (Text.scalar "metainfo" == kind) = false := by simpa using fun heq => hkind heq.symm
  simp [isMetainfo, get?, List.lookup_cons, hbeq]

omit [Interpreter F] in
theorem validated_listingOf (head : Value F) (items : List (Value F)) :
    validatedRulesetItems (listingOf head items) =
      if ((single? head).isNone || items.any fun item => (single? item).isNone) = true then
        .error "RULESET_JSON_INVALID"
      else if (isMetainfo head && !items.any isMetainfo &&
          metainfoValid (head.get "metainfo")) = true then .ok items
      else .error "SCHEMA_VERSION_UNSUPPORTED" := rfl

theorem validated_filter (head : Value F) (items : List (Value F)) :
    validatedRulesetItems (listingOf head (items.filter (!foreign ·))) =
      (validatedRulesetItems (listingOf head items)).map fun items =>
        items.filter (!foreign ·) := by
  have hsingle : items.any (fun item => (single? item).isNone) =
      (items.filter (!foreign ·)).any fun item => (single? item).isNone :=
    any_filter fun item => foreign_single
  have hmeta : items.any isMetainfo = (items.filter (!foreign ·)).any isMetainfo :=
    any_filter fun item => foreign_not_metainfo
  rw [validated_listingOf, validated_listingOf, ← hsingle, ← hmeta]
  split_ifs <;> rfl

theorem modelErrors_filter (head : Value F) (items : List (Value F)) (interfaces : List Text) :
    modelErrors (listingOf head items) interfaces =
      modelErrors (listingOf head (items.filter (!foreign ·))) interfaces := by
  rw [modelErrors, modelErrors, validated_filter]
  cases validatedRulesetItems (listingOf head items) with
  | error token => rfl
  | ok rest =>
    simp only [Except.map]
    rw [collect_filter]

theorem absenceErrors_filter (head : Value F) (items : List (Value F)) :
    absenceErrors (listingOf head items) =
      absenceErrors (listingOf head (items.filter (!foreign ·))) := by
  rw [absenceErrors, absenceErrors, validated_filter]
  cases validatedRulesetItems (listingOf head items) with
  | error token => rfl
  | ok rest =>
    simp only [Except.map]
    rw [presences_filter]

/-! ## Absent and exact exclude each other -/

theorem presences_ne_nil {items : List (Value F)} {errors result : List String}
    (h : presences items errors = .ok result)
    (hpresent : errors ≠ [] ∨ ∃ item ∈ items, ∃ o, object? item = some o ∧ tableNamed o = true) :
    result ≠ [] := by
  induction items generalizing errors with
  | nil =>
    obtain rfl := Except.ok.inj h
    simpa using hpresent
  | cons item rest ih =>
    rw [presences] at h
    split at h
    · cases h
    · rename_i kind body ho
      apply ih h
      rcases hpresent with herrors | ⟨found, hmem, o, hfound, htable⟩
      · exact .inl (by simp [herrors])
      rcases List.mem_cons.mp hmem with rfl | hrest
      · -- the owned table itself
        obtain rfl := Option.some.inj (hfound.symm.trans ho)
        have hpresence : presence kind body = some "PREEXISTING_OWNED_TABLE" := by
          rw [presence, if_pos ((Bool.and_comm _ _).trans htable)]
        exact .inl (by simp [hpresence])
      · exact .inr ⟨found, hrest, o, hfound, htable⟩

theorem dedupe_ne_nil {errors deduplicated : List String} (h : errors ≠ [] ∨ deduplicated ≠ []) :
    errors.foldl (fun deduplicated token => note token deduplicated) deduplicated ≠ [] := by
  induction errors generalizing deduplicated with
  | nil => simpa using h
  | cons token errors ih => exact ih (.inr note_ne_nil)

theorem absenceErrors_ne_nil {document : Value F} {interfaces : List Text}
    (h : modelErrors document interfaces = []) : absenceErrors document ≠ [] := by
  obtain ⟨hguarded, hclosed⟩ := modelErrors_eq_nil.mp h
  obtain ⟨items, hitems, hwell⟩ := hclosed.wellFormed
  obtain ⟨t, ht⟩ := hguarded.table
  have htmem : t ∈ listing document ∧ (tableNamed t && inet t) = true :=
    List.mem_filter.mp (by rw [ht]; exact List.mem_singleton_self t)
  rw [listing_of_validated hitems, ← filterMap_object hwell] at htmem
  obtain ⟨item, hitem, ho⟩ := List.mem_filterMap.mp htmem.1
  rw [Bool.and_eq_true] at htmem
  cases hpresences : presences items [] with
  | error token => simp [absenceErrors, hitems, hpresences]
  | ok errors =>
    simp only [absenceErrors, hitems, hpresences]
    exact dedupe_ne_nil (.inl (presences_ne_nil hpresences (.inr ⟨item, hitem, t, ho, htmem.2.1⟩)))

/-- Foreign objects decide nothing; absent, healthy and invalid are exclusive and exhaustive. -/
theorem foreign_rules_irrelevant :
    (∀ (head : Value F) (items items' : List (Value F)) (interfaces : List Text),
      items.filter (!foreign ·) = items'.filter (!foreign ·) →
      modelErrors (listingOf head items) interfaces = modelErrors (listingOf head items') interfaces ∧
      absenceErrors (listingOf head items) = absenceErrors (listingOf head items')) ∧
    ∀ (document : Value F) (interfaces : List Text),
      ¬ (modelErrors document interfaces = [] ∧ absenceErrors document = []) ∧
      (tablePrestate document interfaces = .absent ↔ absenceErrors document = []) ∧
      (tablePrestate document interfaces = .healthy ↔ modelErrors document interfaces = []) ∧
      (tablePrestate document interfaces = .invalid ↔
        absenceErrors document ≠ [] ∧ modelErrors document interfaces ≠ []) := by
  constructor
  · intro head items items' interfaces h
    rw [modelErrors_filter, h, ← modelErrors_filter, absenceErrors_filter, h,
      ← absenceErrors_filter]
    exact ⟨rfl, rfl⟩
  · intro document interfaces
    have hexclusive : modelErrors document interfaces = [] → absenceErrors document ≠ [] :=
      absenceErrors_ne_nil
    refine ⟨fun h => hexclusive h.1 h.2, ?_⟩
    by_cases habsent : absenceErrors document = []
    · have hmodel : modelErrors document interfaces ≠ [] := fun h => hexclusive h habsent
      simp [tablePrestate, habsent, hmodel]
    · by_cases hmodel : modelErrors document interfaces = [] <;>
        simp [tablePrestate, habsent, hmodel]

/-- A table of another name beside the guard. -/
def Sample.foreignTable : Sample.Doc :=
  .obj [(.scalar "table", .obj [(.scalar "family", .text "ip"), (.scalar "handle", .int 3),
    (.scalar "name", .text "other")])]

theorem sample_foreign : foreign Sample.foreignTable = true ∧
    modelErrors (listingOf Sample.metainfo ([Sample.table, Sample.chain] ++ Sample.rules))
        Sample.interfaces =
      modelErrors (listingOf Sample.metainfo
        (Sample.foreignTable :: [Sample.table, Sample.chain] ++ Sample.rules)) Sample.interfaces :=
  ⟨by decide, (foreign_rules_irrelevant.1 Sample.metainfo _ _ Sample.interfaces (by rfl)).1⟩

/-- A foreign chain under the owned chain's name changes both verdicts. -/
theorem decoy_changes_verdicts :
    modelErrors (Sample.document []) Sample.interfaces = [] ∧
    modelErrors (Sample.document [Sample.decoyChain]) Sample.interfaces ≠ [] ∧
    absenceErrors (listingOf Sample.metainfo []) = [] ∧
    absenceErrors (listingOf Sample.metainfo [Sample.decoyChain]) ≠ [] := by
  decide

end IngressGuard
