import Mathlib
import WebsiteInfrastructure.IngressGuard.Ruleset
import WebsiteInfrastructure.Library.Raising

/-!
# What the verifier accepts

A listing without errors is one guard table with one chain of exactly the expected rules, and
nothing beside it; that chain drops the guarded ports of the declared interfaces only.
-/

namespace IngressGuard

open Json Json.Value Raising
open Nftables (Verdict Packet Statement)

variable {F : Type}

/-! ## Objects of a listing -/

/-- The objects of a listing after its version record, as their kind and body. -/
def listing : Value F → List (Text × Value F)
  | .obj [(.scalar "nftables", .arr (_ :: items))] => items.filterMap single?
  | _ => []

theorem listing_of_validated {document : Value F} {items : List (Value F)}
    (h : validatedRulesetItems document = .ok items) : listing document = items.filterMap single? := by
  unfold validatedRulesetItems at h
  split at h
  · split at h
    · simp at h
    · split at h
      · simp at h
      · split at h
        · simpa [listing] using congrArg (List.filterMap single?) (Except.ok.inj h)
        · simp at h
  · simp at h

theorem filterMap_object {items : List (Value F)}
    (h : ∀ item ∈ items, (object? item).isSome) :
    items.filterMap object? = items.filterMap single? := by
  refine List.filterMap_congr fun item hmem => ?_
  have hitem := h item hmem
  rw [object?, Option.isSome_filter] at hitem
  obtain ⟨entry, hentry⟩ : ∃ entry, single? item = some entry := by
    cases hs : single? item with
    | none => simp [hs] at hitem
    | some entry => exact ⟨entry, rfl⟩
  rw [hentry, Option.any_some] at hitem
  rw [object?, hentry]
  simpa [Option.filter] using hitem

variable [Interpreter F]

/-- `named` is equality of the entry with the text. -/
@[simp] theorem named_eq_true {body : Value F} {key name : String} :
    named body key name = true ↔ body.get key = .text name := by
  rw [named, eq_text]

/-- A table of the owned name, of any family. -/
def tableNamed (o : Text × Value F) : Bool := o.1 = .scalar "table" && named o.2 "name" ownedTable

/-- A chain of a table of the owned name. -/
def chainOfTable (o : Text × Value F) : Bool := o.1 = .scalar "chain" && named o.2 "table" ownedTable

/-- A rule of a table of the owned name. -/
def ruleOfTable (o : Text × Value F) : Bool := o.1 = .scalar "rule" && named o.2 "table" ownedTable

/-- A chain of the owned name in another table. -/
def decoy (o : Text × Value F) : Bool :=
  o.1 = .scalar "chain" && !named o.2 "table" ownedTable && named o.2 "name" ownedChain

/-- Any other object of a table of the owned name: a set, a map, a quota. -/
def otherObject (o : Text × Value F) : Bool :=
  !(o.1 = .scalar "table" || o.1 = .scalar "chain" || o.1 = .scalar "rule") &&
    named o.2 "table" ownedTable

def inet (o : Text × Value F) : Bool := named o.2 "family" ownedFamily

/-! ## The first loop -/

/-- The tokens the first loop appends for one object. -/
def tokens (o : Text × Value F) : List String :=
  if decoy o then ["CHAIN_NAME_COLLISION"]
  else if otherObject o then ["FOREIGN_OBJECT_IN_OWNED_TABLE"] else []

theorem add_eq (owned : Owned F) (kind : Text) (body : Value F) :
    owned.add kind body =
      { tables := owned.tables ++ ([(kind, body)].filter tableNamed).map Prod.snd
        chains := owned.chains ++ ([(kind, body)].filter chainOfTable).map Prod.snd
        rules := owned.rules ++ ([(kind, body)].filter ruleOfTable).map Prod.snd
        errors := owned.errors ++ tokens (kind, body) } := by
  have htable : named body "table" ownedTable = true ∨ named body "table" ownedTable = false := by
    cases named body "table" ownedTable <;> simp
  have hname : named body "name" ownedTable = true ∨ named body "name" ownedTable = false := by
    cases named body "name" ownedTable <;> simp
  have hchain : named body "name" ownedChain = true ∨ named body "name" ownedChain = false := by
    cases named body "name" ownedChain <;> simp
  -- the kinds exclude one another
  by_cases h1 : kind = .scalar "table"
  · subst h1
    rcases hname with h | h <;>
      simp [Owned.add, h, tableNamed, chainOfTable, ruleOfTable, tokens, decoy, otherObject,
        -named_eq_true]
  by_cases h2 : kind = .scalar "chain"
  · subst h2
    rcases htable with h | h <;> rcases hchain with h' | h' <;>
      simp [Owned.add, h, h', tableNamed, chainOfTable, ruleOfTable, tokens, decoy, otherObject,
        -named_eq_true]
  by_cases h3 : kind = .scalar "rule"
  · subst h3
    rcases htable with h | h <;>
      simp [Owned.add, h, tableNamed, chainOfTable, ruleOfTable, tokens, decoy, otherObject,
        -named_eq_true]
  · rcases htable with h | h <;>
      simp [Owned.add, h, h1, h2, h3, tableNamed, chainOfTable, ruleOfTable, tokens, decoy,
        otherObject, -named_eq_true]

theorem foldl_add (objects : List (Text × Value F)) (owned : Owned F) :
    objects.foldl (fun owned o => owned.add o.1 o.2) owned =
      { tables := owned.tables ++ (objects.filter tableNamed).map Prod.snd
        chains := owned.chains ++ (objects.filter chainOfTable).map Prod.snd
        rules := owned.rules ++ (objects.filter ruleOfTable).map Prod.snd
        errors := owned.errors ++ objects.flatMap tokens } := by
  induction objects generalizing owned with
  | nil => simp
  | cons o objects ih =>
    rw [List.foldl_cons, ih, add_eq]
    simp only [List.append_assoc, ← List.map_append, ← List.filter_append, List.flatMap_cons,
      List.singleton_append]

theorem collect_eq_ok {items : List (Value F)} {owned result : Owned F} :
    IngressGuard.collect items owned = .ok result ↔ (∀ item ∈ items, (object? item).isSome) ∧
      (items.filterMap object?).foldl (fun owned o => owned.add o.1 o.2) owned = result := by
  induction items generalizing owned with
  | nil => simp [IngressGuard.collect]
  | cons item rest ih =>
    rw [IngressGuard.collect]
    cases hitem : object? item with
    | none => simp [hitem]
    | some o => simp [ih, hitem]

/-! ## The checks on the owned objects -/

/-- `set(chain)` and its handle, and every entry the model fixes. -/
structure BaseChain (chain : Value F) : Prop where
  name : chain.get "name" = .text ownedChain
  family : chain.get "family" = .text ownedFamily
  type : chain.get "type" = .text chainType
  hook : chain.get "hook" = .text chainHook
  prio : chain.get "prio" = .int chainPriority
  policy : chain.get "policy" = .text chainPolicy

def chainKeys : List String :=
  ["family", "table", "name", "handle", "type", "hook", "prio", "policy"]

def ruleKeys : List String := ["family", "table", "chain", "handle", "expr"]

omit [Interpreter F] in
@[simp] theorem isInt_eq_true {v : Value F} {n : ℤ} : isInt n v = true ↔ v = .int n := by
  cases v <;> simp [isInt]

theorem check_eq_nil {ok : Bool} {token : String} {errors : List String} :
    check ok token errors = [] ↔ ok = true ∧ errors = [] := by
  cases ok <;> simp [check]

theorem chainErrors_eq_nil {chain : Value F} {errors : List String} :
    chainErrors chain errors = [] ↔ errors = [] ∧ BaseChain chain ∧
      chain.hasExactly chainKeys = true ∧ isPositiveHandle (chain.get "handle") = true := by
  simp only [chainErrors, check_eq_nil, named_eq_true, isInt_eq_true, Bool.and_eq_true, chainKeys]
  constructor
  · rintro ⟨hpolicy, hprio, hhook, htype, hfamily, hname, ⟨hkeys, hhandle⟩, herrors⟩
    exact ⟨herrors, ⟨hname, hfamily, htype, hhook, hprio, hpolicy⟩, hkeys, hhandle⟩
  · rintro ⟨herrors, h, hkeys, hhandle⟩
    exact ⟨h.policy, h.prio, h.hook, h.type, h.family, h.name, ⟨hkeys, hhandle⟩, herrors⟩

/-- The keys, handle and place of an owned rule. -/
structure Placed (rule : Value F) : Prop where
  keys : rule.hasExactly ruleKeys = true
  handle : isPositiveHandle (rule.get "handle") = true
  family : rule.get "family" = .text ownedFamily
  chain : rule.get "chain" = .text ownedChain

omit [Interpreter F] in
theorem isPositiveHandle_int {v : Value F} (h : isPositiveHandle v = true) : ∃ n, v = .int n := by
  cases v <;> simp_all [isPositiveHandle]

theorem eq_of_isPositiveHandle {v w : Value F} (hv : isPositiveHandle v = true)
    (hw : isPositiveHandle w = true) : v.eq w = true ↔ v = w := by
  obtain ⟨m, rfl⟩ := isPositiveHandle_int hv
  obtain ⟨n, rfl⟩ := isPositiveHandle_int hw
  simp [Value.eq, numEq, asInt?]

theorem note_ne_nil {token : String} {errors : List String} : note token errors ≠ [] := by
  unfold note
  split
  · rename_i h
    exact List.ne_nil_of_mem h
  · simp

/-- Tokens are never taken back. -/
theorem ruleLoop_errors {rules handles : List (Value F)} {errors : List String}
    {parsed : List GuardRule} (h : errors ≠ []) :
    (ruleLoop rules errors handles parsed).1 ≠ [] := by
  induction rules generalizing errors handles parsed with
  | nil => exact h
  | cons rule rest ih =>
    rw [ruleLoop]
    split_ifs
    · exact ih (by simp)
    · exact ih (by simp)
    · exact ih (by simp)
    · split
      · exact ih note_ne_nil
      · exact ih h

theorem ruleLoop_eq_nil {rules handles : List (Value F)} {parsed result : List GuardRule}
    (hhandles : ∀ handle ∈ handles, isPositiveHandle handle = true) :
    ruleLoop rules [] handles parsed = ([], result) ↔
      (∀ rule ∈ rules, Placed rule) ∧ (rules.map (·.get "handle")).Nodup ∧
      (∀ rule ∈ rules, rule.get "handle" ∉ handles) ∧
      ∃ triples, rules.map (fun rule => parseRuleExpr (rule.get "expr")) = triples.map .ok ∧
        result = parsed ++ triples := by
  induction rules generalizing handles parsed with
  | nil =>
    simp only [ruleLoop, List.map_nil, List.nodup_nil, List.not_mem_nil, false_implies,
      implies_true, true_and, Prod.mk.injEq]
    constructor
    · rintro rfl
      exact ⟨[], rfl, by simp⟩
    · rintro ⟨triples, htriples, rfl⟩
      rw [eq_comm, List.map_eq_nil_iff] at htriples
      simp [htriples]
  | cons rule rest ih =>
    have hfail : ∀ {errors : List String} {handles : List (Value F)}, errors ≠ [] →
        ruleLoop rest errors handles parsed ≠ ([], result) := fun herrors heq =>
      ruleLoop_errors herrors (congrArg Prod.fst heq)
    rw [ruleLoop]
    split_ifs with hkeys hplace hdup
    · -- the keys or the handle are wrong
      refine iff_of_false (hfail (by simp)) fun ⟨hplaced, _⟩ => ?_
      have := hplaced rule (by simp)
      have hall := this.keys
      rw [ruleKeys] at hall
      simp [hall, this.handle] at hkeys
    · refine iff_of_false (hfail (by simp)) fun ⟨hplaced, _⟩ => ?_
      have hrule := hplaced rule (by simp)
      rw [named_eq_true.mpr hrule.family, named_eq_true.mpr hrule.chain] at hplace
      simp at hplace
    · -- the handle is known
      refine iff_of_false (hfail (by simp)) fun ⟨hplaced, _, hfresh, _⟩ => ?_
      obtain ⟨handle, hmem, heq⟩ := List.any_eq_true.mp hdup
      rw [eq_of_isPositiveHandle (hhandles _ hmem) (hplaced rule (by simp)).handle] at heq
      exact hfresh rule (by simp) (heq ▸ hmem)
    · have hplaced : Placed rule := by
        simp only [Bool.not_eq_true', Bool.not_eq_false, Bool.and_eq_true, named_eq_true]
          at hkeys hplace
        exact ⟨hkeys.1, hkeys.2, hplace.1, hplace.2⟩
      have hfresh : rule.get "handle" ∉ handles := by
        intro hmem
        exact hdup (List.any_eq_true.mpr ⟨_, hmem,
          (eq_of_isPositiveHandle hplaced.handle hplaced.handle).mpr rfl⟩)
      split
      · rename_i token hparse
        refine iff_of_false (hfail note_ne_nil) ?_
        rintro ⟨-, -, -, triples, htriples, -⟩
        cases triples with
        | nil => simp at htriples
        | cons triple triples => simp [hparse] at htriples
      · rename_i triple hparse
        rw [ih (by simpa [hplaced.handle] using hhandles)]
        constructor
        · rintro ⟨hrest, hnodup, hnew, triples, htriples, rfl⟩
          refine ⟨?_, ?_, ?_, triple :: triples, ?_, by simp⟩
          · simpa [hplaced] using hrest
          · rw [List.map_cons, List.nodup_cons]
            refine ⟨fun hmem => ?_, hnodup⟩
            obtain ⟨other, hother, heq⟩ := List.mem_map.mp hmem
            exact hnew other hother (by simp [heq])
          · rintro other hother
            rcases List.mem_cons.mp hother with rfl | hother
            · exact hfresh
            · exact fun hmem => hnew other hother (List.mem_cons_of_mem _ hmem)
          · simp [hparse, htriples]
        · rintro ⟨hall, hnodup, hnew, triples, htriples, rfl⟩
          cases triples with
          | nil => simp at htriples
          | cons triple' triples =>
            rw [List.map_cons, List.map_cons, List.cons.injEq, hparse, Except.ok.injEq] at htriples
            obtain ⟨rfl, htriples⟩ := htriples
            rw [List.map_cons, List.nodup_cons] at hnodup
            refine ⟨fun other hother => hall other (List.mem_cons_of_mem _ hother), hnodup.2,
              fun other hother hmem => ?_, triples, htriples, by simp⟩
            rcases List.mem_cons.mp hmem with heq | hmem
            · exact hnodup.1 (heq ▸ List.mem_map_of_mem hother)
            · exact hnew other (List.mem_cons_of_mem _ hother) hmem

omit [Interpreter F] in
theorem classifySequence_eq_nil {parsed : List GuardRule} {interfaces : List Text} :
    classifySequence parsed interfaces [] = [] ↔ parsed = expectedSequence interfaces := by
  by_cases h : parsed = expectedSequence interfaces
  · simp [classifySequence, h]
  · refine iff_of_false ?_ h
    have hfinal : ∀ covered : List String,
        noteIf covered.isEmpty "RULE_ORDER_INVALID" covered ≠ [] := by
      intro covered
      unfold noteIf
      split_ifs with hempty
      · exact note_ne_nil
      · simpa using hempty
    simp only [classifySequence, if_neg h]
    exact hfinal _

theorem ownedErrors_eq_nil {owned : Owned F} {interfaces : List Text} :
    ownedErrors owned interfaces = [] ↔ owned.errors = [] ∧
      (∃ table, owned.tables = [table] ∧ table.hasExactly ["family", "name", "handle"] = true ∧
        isPositiveHandle (table.get "handle") = true ∧ table.get "family" = .text ownedFamily) ∧
      (∃ chain, owned.chains = [chain] ∧ BaseChain chain ∧ chain.hasExactly chainKeys = true ∧
        isPositiveHandle (chain.get "handle") = true) ∧
      (∀ rule ∈ owned.rules, Placed rule) ∧ (owned.rules.map (·.get "handle")).Nodup ∧
      owned.rules.map (fun rule => parseRuleExpr (rule.get "expr")) =
        (expectedSequence interfaces).map .ok := by
  unfold ownedErrors
  split
  · rename_i htables
    simp [htables]
  · rename_i table htables
    split_ifs with hkeys hfamily
    · refine iff_of_false (by simp) ?_
      rintro ⟨-, ⟨other, hother, hexact, hhandle, -⟩, -⟩
      rw [htables, List.singleton_inj] at hother
      subst hother
      simp [hexact, hhandle] at hkeys
    · refine iff_of_false (by simp) ?_
      rintro ⟨-, ⟨other, hother, -, -, hinet⟩, -⟩
      rw [htables, List.singleton_inj] at hother
      subst hother
      rw [named_eq_true.mpr hinet] at hfamily
      simp at hfamily
    · have htable : (∃ other, owned.tables = [other] ∧
          other.hasExactly ["family", "name", "handle"] = true ∧
          isPositiveHandle (other.get "handle") = true ∧ other.get "family" = .text ownedFamily) := by
        simp only [Bool.not_eq_true', Bool.not_eq_false, Bool.and_eq_true, named_eq_true]
          at hkeys hfamily
        exact ⟨table, htables, hkeys.1, hkeys.2, hfamily⟩
      simp only [htable, true_and]
      split
      · rename_i hchains
        simp [hchains]
      · rename_i chain hchains
        have hchain : (∃ other, owned.chains = [other] ∧ BaseChain other ∧
            other.hasExactly chainKeys = true ∧ isPositiveHandle (other.get "handle") = true) ↔
            BaseChain chain ∧ chain.hasExactly chainKeys = true ∧
              isPositiveHandle (chain.get "handle") = true := by
          simp [hchains]
        rw [hchain]
        by_cases hnil : chainErrors chain owned.errors = []
        · have hchecked := chainErrors_eq_nil.mp hnil
          simp only [hnil, List.isEmpty_nil, Bool.not_true, Bool.false_eq_true, if_false]
          simp only [hchecked.1, hchecked.2, true_and, and_self]
          -- the loop over the rules, then the comparison of the whole sequence
          constructor
          · intro hloop
            by_cases hrules : (ruleLoop owned.rules [] [] []).1 = []
            · have hloop' : ruleLoop owned.rules [] [] [] =
                  ([], (ruleLoop owned.rules [] [] []).2) := Prod.ext hrules rfl
              rw [hloop'] at hloop
              simp only [List.isEmpty_nil, Bool.not_true, Bool.false_eq_true, if_false,
                classifySequence_eq_nil] at hloop
              rw [hloop] at hloop'
              obtain ⟨hplaced, hnodup, -, triples, htriples, hexpected⟩ :=
                (ruleLoop_eq_nil (by simp)).mp hloop'
              rw [List.nil_append] at hexpected
              exact ⟨hplaced, hnodup, hexpected ▸ htriples⟩
            · rw [if_pos (by simpa using hrules)] at hloop
              exact absurd hloop hrules
          · rintro ⟨hplaced, hnodup, htriples⟩
            rw [(ruleLoop_eq_nil (by simp)).mpr
              ⟨hplaced, hnodup, by simp, _, htriples, (List.nil_append _).symm⟩]
            simp [classifySequence_eq_nil]
        · rw [if_pos (by simpa using hnil)]
          refine iff_of_false hnil ?_
          rintro ⟨herrors, hrest, -⟩
          exact hnil (chainErrors_eq_nil.mpr ⟨herrors, hrest⟩)
      · rename_i hnone hmany
        refine iff_of_false (by simp) ?_
        rintro ⟨-, ⟨chain, hchain, -⟩, -⟩
        exact hmany chain hchain
  · rename_i hnone hmany
    refine iff_of_false (by simp) ?_
    rintro ⟨-, ⟨table, htable, -⟩, -⟩
    exact hmany table htable

/-! ## Exactness -/

/-- One inet table and one base chain under the owned identity, and the rules of that chain. -/
structure Guarded (document : Value F) (interfaces : List Text) : Prop where
  table : ∃ t, (listing document).filter (fun o => tableNamed o && inet o) = [t]
  chain : ∃ c, (listing document).filter (fun o => chainOfTable o && inet o) = [c] ∧ BaseChain c.2
  rules : ((listing document).filter fun o =>
      ruleOfTable o && inet o && named o.2 "chain" ownedChain).map
    (fun o => parseRuleExpr (o.2.get "expr")) = (expectedSequence interfaces).map .ok

/-- A well-formed listing in which nothing else bears the owned names. -/
structure Closed (document : Value F) : Prop where
  wellFormed : ∃ items, validatedRulesetItems document = .ok items ∧
    ∀ item ∈ items, (object? item).isSome
  tables : ∀ o ∈ listing document, tableNamed o = true → inet o = true ∧
    o.2.hasExactly ["family", "name", "handle"] = true
  chains : ∀ o ∈ listing document, chainOfTable o = true → inet o = true ∧
    o.2.hasExactly chainKeys = true
  rules : ∀ o ∈ listing document, ruleOfTable o = true → Placed o.2
  handles : (((listing document).filter ruleOfTable).map (·.2.get "handle")).Nodup
  noDecoy : ∀ o ∈ listing document, decoy o = false
  noOther : ∀ o ∈ listing document, otherObject o = false

theorem handle_of_listing {items : List (Value F)} (h : ∀ item ∈ items, (object? item).isSome)
    {o : Text × Value F} (hmem : o ∈ items.filterMap single?)
    (hkind : tableNamed o = true ∨ chainOfTable o = true) :
    isPositiveHandle (o.2.get "handle") = true := by
  rw [← filterMap_object h] at hmem
  obtain ⟨item, -, hitem⟩ := List.mem_filterMap.mp hmem
  rw [object?, Option.filter_eq_some_iff, Bool.and_eq_true] at hitem
  obtain ⟨kind, body⟩ := o
  have hvalid : knownObjectIdentityValid kind body = true := hitem.2.2
  simp only [tableNamed, chainOfTable, Bool.and_eq_true, decide_eq_true_eq] at hkind
  rcases hkind with ⟨rfl, -⟩ | ⟨rfl, -⟩ <;> simp_all [knownObjectIdentityValid]

theorem flatMap_tokens_eq_nil {objects : List (Text × Value F)} :
    objects.flatMap tokens = [] ↔
      ∀ o ∈ objects, decoy o = false ∧ otherObject o = false := by
  rw [List.flatMap_eq_nil_iff]
  refine forall₂_congr fun o _ => ?_
  unfold tokens
  cases decoy o <;> cases otherObject o <;> simp

omit [Interpreter F] in
theorem filter_and_eq {objects : List (Text × Value F)} {p q : Text × Value F → Bool}
    (h : ∀ o ∈ objects, p o = true → q o = true) :
    objects.filter (fun o => p o && q o) = objects.filter p := by
  apply List.filter_congr
  intro o hmem
  cases hp : p o with
  | false => rfl
  | true => rw [h o hmem hp, Bool.and_true]

theorem placed_inet {o : Text × Value F} (h : Placed o.2) :
    (inet o && named o.2 "chain" ownedChain) = true := by
  rw [inet, named_eq_true.mpr h.family, named_eq_true.mpr h.chain]
  rfl

omit [Interpreter F] in
/-- The only body of a kind is the body of every object of that kind. -/
theorem eq_of_bodies {objects : List (Text × Value F)} {p : Text × Value F → Bool} {body : Value F}
    (h : (objects.filter p).map Prod.snd = [body]) {o : Text × Value F} (hmem : o ∈ objects)
    (ho : p o = true) : o.2 = body := by
  have hbody : o.2 ∈ (objects.filter p).map Prod.snd :=
    List.mem_map_of_mem (List.mem_filter.mpr ⟨hmem, ho⟩)
  rwa [h, List.mem_singleton] at hbody

/-- What the second half of the check reads, for the objects of a listing. -/
def gathered (objects : List (Text × Value F)) : Owned F where
  tables := (objects.filter tableNamed).map Prod.snd
  chains := (objects.filter chainOfTable).map Prod.snd
  rules := (objects.filter ruleOfTable).map Prod.snd
  errors := objects.flatMap tokens

theorem modelErrors_of_wellFormed {document : Value F} {interfaces : List Text}
    {items : List (Value F)} (hitems : validatedRulesetItems document = .ok items)
    (hwell : ∀ item ∈ items, (object? item).isSome) :
    modelErrors document interfaces = ownedErrors (gathered (listing document)) interfaces := by
  have hcollect : IngressGuard.collect items ({} : Owned F) = .ok (gathered (listing document)) := by
    rw [collect_eq_ok, foldl_add, filterMap_object hwell, ← listing_of_validated hitems]
    exact ⟨hwell, rfl⟩
  simp only [modelErrors, hitems, hcollect]

theorem exact_of_no_errors {document : Value F} {interfaces : List Text} {items : List (Value F)}
    (hitems : validatedRulesetItems document = .ok items)
    (hwell : ∀ item ∈ items, (object? item).isSome)
    (h : ownedErrors (gathered (listing document)) interfaces = []) :
    Guarded document interfaces ∧ Closed document := by
  obtain ⟨hclean, ⟨table, htable, htkeys, -, htinet⟩, ⟨chain, hchain, hbase, hckeys, -⟩,
    hplaced, hnodup, hrules⟩ := ownedErrors_eq_nil.mp h
  have hrule : ∀ o ∈ listing document, ruleOfTable o = true → Placed o.2 := fun o hmem ho =>
    hplaced _ (List.mem_map_of_mem (List.mem_filter.mpr ⟨hmem, ho⟩))
  have htables : ∀ o ∈ listing document, tableNamed o = true → inet o = true ∧
      o.2.hasExactly ["family", "name", "handle"] = true := by
    intro o hmem ho
    rw [inet, eq_of_bodies htable hmem ho]
    exact ⟨named_eq_true.mpr htinet, htkeys⟩
  have hchains : ∀ o ∈ listing document, chainOfTable o = true → inet o = true ∧
      o.2.hasExactly chainKeys = true := by
    intro o hmem ho
    rw [inet, eq_of_bodies hchain hmem ho]
    exact ⟨named_eq_true.mpr hbase.family, hckeys⟩
  obtain ⟨t, ht, rfl⟩ := List.map_eq_singleton_iff.mp htable
  obtain ⟨c, hc, rfl⟩ := List.map_eq_singleton_iff.mp hchain
  refine ⟨⟨⟨t, ?_⟩, ⟨c, ?_, hbase⟩, ?_⟩, ⟨items, hitems, hwell⟩, htables, hchains, hrule, ?_, ?_, ?_⟩
  · rw [filter_and_eq fun o hmem ho => (htables o hmem ho).1, ht]
  · rw [filter_and_eq fun o hmem ho => (hchains o hmem ho).1, hc]
  · simp only [Bool.and_assoc]
    rw [filter_and_eq fun o hmem ho => placed_inet (hrule o hmem ho)]
    simpa only [gathered, List.map_map, Function.comp_def] using hrules
  · simpa only [gathered, List.map_map, Function.comp_def] using hnodup
  · exact fun o hmem => (flatMap_tokens_eq_nil.mp hclean o hmem).1
  · exact fun o hmem => (flatMap_tokens_eq_nil.mp hclean o hmem).2

theorem no_errors_of_exact {document : Value F} {interfaces : List Text} {items : List (Value F)}
    (hitems : validatedRulesetItems document = .ok items)
    (hwell : ∀ item ∈ items, (object? item).isSome)
    (hguarded : Guarded document interfaces) (hclosed : Closed document) :
    ownedErrors (gathered (listing document)) interfaces = [] := by
  obtain ⟨⟨t, ht⟩, ⟨c, hc, hbase⟩, hrules⟩ := hguarded
  rw [filter_and_eq fun o hmem ho => (hclosed.tables o hmem ho).1] at ht
  rw [filter_and_eq fun o hmem ho => (hclosed.chains o hmem ho).1] at hc
  simp only [Bool.and_assoc] at hrules
  rw [filter_and_eq fun o hmem ho => placed_inet (hclosed.rules o hmem ho)] at hrules
  have htmem : t ∈ listing document ∧ tableNamed t = true :=
    List.mem_filter.mp (by rw [ht]; exact List.mem_singleton_self t)
  have hcmem : c ∈ listing document ∧ chainOfTable c = true :=
    List.mem_filter.mp (by rw [hc]; exact List.mem_singleton_self c)
  have hhandle : ∀ o ∈ listing document, tableNamed o = true ∨ chainOfTable o = true →
      isPositiveHandle (o.2.get "handle") = true := fun o hmem =>
    handle_of_listing hwell (listing_of_validated hitems ▸ hmem)
  have htclosed := hclosed.tables t htmem.1 htmem.2
  rw [ownedErrors_eq_nil]
  refine ⟨flatMap_tokens_eq_nil.mpr fun o hmem => ⟨hclosed.noDecoy o hmem, hclosed.noOther o hmem⟩,
    ⟨t.2, by rw [gathered, ht]; rfl, htclosed.2, hhandle t htmem.1 (.inl htmem.2),
      named_eq_true.mp htclosed.1⟩,
    ⟨c.2, by rw [gathered, hc]; rfl, hbase, (hclosed.chains c hcmem.1 hcmem.2).2,
      hhandle c hcmem.1 (.inr hcmem.2)⟩, ?_, ?_, ?_⟩
  · intro rule hrule
    obtain ⟨o, ho, rfl⟩ := List.mem_map.mp hrule
    exact hclosed.rules o (List.mem_filter.mp ho).1 (List.mem_filter.mp ho).2
  · simpa only [gathered, List.map_map, Function.comp_def] using hclosed.handles
  · simpa only [gathered, List.map_map, Function.comp_def] using hrules

theorem modelErrors_eq_nil {document : Value F} {interfaces : List Text} :
    modelErrors document interfaces = [] ↔ Guarded document interfaces ∧ Closed document := by
  constructor
  · intro h
    cases hitems : validatedRulesetItems document with
    | error token => simp [modelErrors, hitems] at h
    | ok items =>
      -- one malformed object ends the first loop with an error
      have hwell : ∀ item ∈ items, (object? item).isSome := by
        cases hcollect : IngressGuard.collect items ({} : Owned F) with
        | error token => simp [modelErrors, hitems, hcollect] at h
        | ok owned => exact (collect_eq_ok.mp hcollect).1
      rw [modelErrors_of_wellFormed hitems hwell] at h
      exact exact_of_no_errors hitems hwell h
  · rintro ⟨hguarded, hclosed⟩
    obtain ⟨items, hitems, hwell⟩ := hclosed.wellFormed
    rw [modelErrors_of_wellFormed hitems hwell]
    exact no_errors_of_exact hitems hwell hguarded hclosed

end IngressGuard
