import Mathlib
import WebsiteInfrastructure.Policy.Roles

/-!
# What Roles that pass the policy grant

The deny rules test for literal items; the API server also matches wildcards, and reads a null
list as an absent one.
-/

namespace Policy

open Rego Rbac

variable {input : Term} {eager : Bool}

/-! ## Decoding -/

theorem decodeStrings_eq_some {items : List Term} {names : List String}
    (h : decodeStrings (some (.arr items)) = some names) {s : String} (hs : s ≠ "") :
    s ∈ names ↔ Term.str s ∈ items := by
  rw [decodeStrings] at h
  induction items generalizing names with
  | nil =>
    obtain rfl := Option.some.inj h
    simp
  | cons t items ih =>
    rw [List.mapM_cons] at h
    obtain ⟨name, hname, hrest⟩ := Option.bind_eq_some_iff.mp h
    obtain ⟨rest, hitems, heq⟩ := Option.bind_eq_some_iff.mp hrest
    obtain rfl := Option.some.inj heq
    rw [List.mem_cons, List.mem_cons, ih hitems]
    refine or_congr_left ?_
    cases t with
    | str u =>
      obtain rfl := Option.some.inj hname
      simp
    | null =>
      obtain rfl := Option.some.inj hname
      simp [hs]
    | _ => cases hname

/-- A decoded list holds what the policy finds listed. -/
theorem mem_iff_lists {rule : Term} {field s : String} {names : List String}
    (h : decodeStrings (Ref.dot rule field) = some names) (hs : s ≠ "") :
    s ∈ names ↔ lists rule field s = true := by
  rw [lists, holds_eq_true, Ref.contains_eq_some, listed]
  cases rule with
  | obj fields =>
    have hdot : Ref.dot (Term.obj fields) field = fields.lookup field := rfl
    have hget : Ref.get (Term.obj fields) field (.arr []) = some ((fields.lookup field).getD (.arr [])) :=
      rfl
    rw [hdot] at h
    rw [hget, Ref.each_some]
    cases hlookup : fields.lookup field with
    | none =>
      rw [hlookup] at h
      obtain rfl := Option.some.inj h
      simp [Term.elements]
    | some t =>
      rw [hlookup] at h
      cases t with
      | null =>
        obtain rfl := Option.some.inj h
        simp [Term.elements]
      | arr items => exact decodeStrings_eq_some h hs
      | _ => cases h
  | _ =>
    obtain rfl := Option.some.inj h
    simp [Ref.get]

/-- What a rule decodes from. -/
structure DecodesTo (t : Term) (r : PolicyRule) : Prop where
  verbs : decodeStrings (Ref.dot t "verbs") = some r.verbs
  apiGroups : decodeStrings (Ref.dot t "apiGroups") = some r.apiGroups
  resources : decodeStrings (Ref.dot t "resources") = some r.resources
  resourceNames : decodeStrings (Ref.dot t "resourceNames") = some r.resourceNames
  usable : t = .null ∨ t.isObject = true

theorem decodeRule_eq_some {t : Term} {r : PolicyRule} (h : decodeRule t = some r) :
    DecodesTo t r := by
  cases t with
  | null =>
    obtain rfl := Option.some.inj h
    exact ⟨rfl, rfl, rfl, rfl, .inl rfl⟩
  | obj fields =>
    obtain ⟨verbs, hverbs, hrest⟩ := Option.bind_eq_some_iff.mp h
    obtain ⟨apiGroups, hgroups, hrest⟩ := Option.bind_eq_some_iff.mp hrest
    obtain ⟨resources, hresources, hrest⟩ := Option.bind_eq_some_iff.mp hrest
    obtain ⟨resourceNames, hnames, hrest⟩ := Option.bind_eq_some_iff.mp hrest
    obtain rfl := Option.some.inj hrest
    exact ⟨hverbs, hgroups, hresources, hnames, .inr rfl⟩
  | _ => cases h

theorem exists_of_mapM {α β : Type} {f : α → Option β} {xs : List α} {ys : List β}
    (h : xs.mapM f = some ys) {y : β} (hy : y ∈ ys) : ∃ x ∈ xs, f x = some y := by
  induction xs generalizing ys with
  | nil =>
    obtain rfl := Option.some.inj h
    simp at hy
  | cons x xs ih =>
    rw [List.mapM_cons] at h
    obtain ⟨z, hz, hrest⟩ := Option.bind_eq_some_iff.mp h
    obtain ⟨zs, hzs, heq⟩ := Option.bind_eq_some_iff.mp hrest
    obtain rfl := Option.some.inj heq
    rcases List.mem_cons.mp hy with rfl | hmem
    · exact ⟨x, List.mem_cons_self, hz⟩
    · obtain ⟨x', hx', hfx⟩ := ih hzs hmem
      exact ⟨x', List.mem_cons_of_mem _ hx', hfx⟩

theorem mem_decodeRules {e : Term × PolicyRule} (h : e ∈ decodeRules input) :
    e.1 ∈ rules input ∧ DecodesTo e.1 e.2 := by
  unfold decodeRules at h
  split at h
  · rename_i items hitems
    cases hdecoded : items.mapM fun t => (decodeRule t).map (t, ·) with
    | none =>
      rw [hdecoded] at h
      cases h
    | some decoded =>
      rw [hdecoded, Option.getD_some] at h
      obtain ⟨t, ht, heq⟩ := exists_of_mapM hdecoded h
      obtain ⟨r, hr, rfl⟩ := Option.map_eq_some_iff.mp heq
      refine ⟨?_, decodeRule_eq_some hr⟩
      have hget : Ref.get input "rules" (.arr []) = some (.arr items) := by
        cases input with
        | obj fields =>
          have hlookup : fields.lookup "rules" = some (.arr items) := hitems
          simp [Ref.get, hlookup]
        | _ => cases hitems
      rw [rules, hget]
      exact ht
  · cases h

/-! ## What the literal tests do not see -/

/-- A grant no deny rule looks for. -/
inductive Hidden (input : Term) (e : Term × PolicyRule) : Prop
  /-- The wildcard verb, of any account. -/
  | anyVerb (hgrants : e.2.Grants "impersonate") (hverb : "*" ∈ e.2.verbs)
      (hopen : kindIs input ["ClusterRole"] = true ∨ e.2.resourceNames = [])
  /-- A list of accounts that is null, and so has no length. -/
  | nullNames (hgrants : e.2.Grants "impersonate") (hverb : "impersonate" ∈ e.2.verbs)
      (hnull : Ref.dot e.1 "resourceNames" = some .null)
  /-- The tokens of all resources. -/
  | anyToken (hverb : e.2.MatchesVerb "create") (hgroup : e.2.MatchesGroup "")
      (hresource : "*" ∈ e.2.resources ∨ "*/token" ∈ e.2.resources)

/-- A grant a deny rule finds, if its message can name the document. -/
inductive Listed (input : Term) (e : Term × PolicyRule) : Prop
  | impersonate (hgrants : e.2.Grants "impersonate")
      (hopen : kindIs input ["ClusterRole"] = true ∨ e.2.resourceNames = [])
  | secrets (hclosed : SecretsClosed input) (verb : String) (hgrants : e.2.GrantsOn verb "" "secrets")
  | token (hverb : e.2.MatchesVerb "create") (hgroup : e.2.MatchesGroup "")
      (hresource : "serviceaccounts/token" ∈ e.2.resources)

/-- No rule grants what no deny rule can see. -/
structure Overt (input : Term) : Prop where
  hidden : ∀ e ∈ decodeRules input, ¬ Hidden input e
  named : hasName input = true ∨ ∀ e ∈ decodeRules input, ¬ Listed input e

theorem not_clusterRole (h : kindIs input ["Role"] = true) : kindIs input ["ClusterRole"] = false := by
  simp only [kindIs, holds_eq_true, Ref.isIn_eq_some, List.mem_singleton, exists_eq_left] at h
  simp [kindIs, h, Ref.isIn]

theorem kindIs_mono {kinds kinds' : List String} (h : kindIs input kinds = true)
    (hsub : kinds ⊆ kinds') : kindIs input kinds' = true := by
  simp only [kindIs, holds_eq_true, Ref.isIn_eq_some] at h ⊢
  obtain ⟨n, hn, heq⟩ := h
  exact ⟨n, hsub hn, heq⟩

/-- A document that is safe grants nothing in secret. -/
theorem Safe.overt (h : Safe input) : Overt input := by
  have hclosed : ∀ e ∈ decodeRules input, e.2.Grants "impersonate" →
      ¬ (kindIs input ["ClusterRole"] = true ∨ e.2.resourceNames = []) := by
    intro e he hgrants hopen
    obtain ⟨hrole, hnames⟩ := h.impersonate e he hgrants
    rcases hopen with hcluster | hempty
    · rw [not_clusterRole hrole] at hcluster
      cases hcluster
    · exact hnames hempty
  refine ⟨fun e he hhidden => ?_, .inr fun e he hlisted => ?_⟩
  · cases hhidden with
    | anyVerb hgrants _ hopen => exact hclosed e he hgrants hopen
    | nullNames hgrants _ hnull =>
      have hdecodes := (mem_decodeRules he).2.resourceNames
      rw [hnull] at hdecodes
      exact hclosed e he hgrants (.inr (Option.some.inj hdecodes).symm)
    | anyToken hverb hgroup hresource =>
      refine h.token e he ⟨hverb, hgroup, ?_⟩
      rcases hresource with hany | htoken
      · exact .inl hany
      · exact .inr (.inr htoken)
  · cases hlisted with
    | impersonate hgrants hopen => exact hclosed e he hgrants hopen
    | secrets hsecrets verb hgrants => exact h.secrets hsecrets e he verb hgrants
    | token hverb hgroup hresource => exact h.token e he ⟨hverb, hgroup, .inr (.inl hresource)⟩

/-! ## What the deny rules see -/

/-- Everything a document that passes has been held to. -/
structure Passes (input : Term) (eager : Bool) : Prop where
  clusterWildcard : denyClusterWildcard input eager = false
  wildcard : denyWildcard input = false
  unrestricted : denyUnrestrictedImpersonation input = false
  clusterImpersonation : denyClusterImpersonation input = false
  token : denyTokenCreation input = false
  fluxSecrets : denyFluxSecrets input = false
  clusterSecrets : denyClusterSecrets input = false

theorem passes_of_denyRole (h : denyRole input eager = false) : Passes input eager := by
  simp only [denyRole, Bool.or_eq_false_iff] at h
  obtain ⟨⟨⟨⟨⟨⟨⟨⟨⟨⟨⟨⟨⟨-, -⟩, -⟩, hcw⟩, hw⟩, hu⟩, hci⟩, ht⟩, hfs⟩, hcs⟩, -⟩, -⟩, -⟩, -⟩ := h
  exact ⟨hcw, hw, hu, hci, ht, hfs, hcs⟩

/-- A rule about every rule of a document, of a kind it is, that does not fire. -/
theorem not_any {guard : Bool} {f : Term → Bool} (h : (guard && (rules input).any f) = false)
    (hguard : guard = true) {t : Term} (ht : t ∈ rules input) : f t = false := by
  rw [hguard, Bool.true_and] at h
  exact Bool.eq_false_iff.mpr (List.any_eq_false.mp h t ht)

theorem hasNamespaceAndName_of {namespaces : List String} (hname : hasName input = true)
    (hns : namespaceIs input namespaces = true) : hasNamespaceAndName input = true := by
  simp only [namespaceIs, holds_eq_true, Ref.isIn_eq_some] at hns
  obtain ⟨n, -, hn⟩ := hns
  simp only [hasName, formats, List.all_cons, List.all_nil, Bool.and_true] at hname
  simp [hasNamespaceAndName, formats, hname, hn]

/-- Of a named document, it is settled whether its name is one of some names. -/
theorem holdsNot_of_not_nameIs {names : List String} (hname : hasName input = true)
    (h : nameIs input names = false) :
    holdsNot eager ((inp input ["metadata", "name"]).isIn names) = true := by
  simp only [hasName, formats, List.all_cons, List.all_nil, Bool.and_true] at hname
  obtain ⟨t, ht⟩ := Option.isSome_iff_exists.mp hname
  rw [nameIs, ht] at h
  rw [ht]
  simpa [Ref.isIn] using h

theorem wildcard_of_mem {t : Term} {r : PolicyRule} (h : DecodesTo t r) (hany : "*" ∈ r.resources) :
    wildcard t = true := by
  have hlists : lists t "resources" "*" = true := (mem_iff_lists h.resources (by decide)).mp hany
  simp [wildcard, hlists]

/-- A list that decodes to nothing is null or has length zero. -/
theorem null_or_empty {t : Term} {field : String} (hobj : t.isObject = true)
    (h : decodeStrings (Ref.dot t field) = some []) :
    Ref.dot t field = some .null ∨ (listed t field).count = some 0 := by
  cases t with
  | obj fields =>
    have hdot : Ref.dot (Term.obj fields) field = fields.lookup field := rfl
    rw [hdot] at h ⊢
    have hlisted : listed (.obj fields) field = some ((fields.lookup field).getD (.arr [])) := rfl
    rw [hlisted]
    cases hlookup : fields.lookup field with
    | none => exact .inr rfl
    | some u =>
      rw [hlookup] at h
      cases u with
      | null => exact .inl rfl
      | arr items =>
        cases items with
        | nil => exact .inr rfl
        | cons item items =>
          rw [decodeStrings, List.mapM_cons] at h
          obtain ⟨_, -, hrest⟩ := Option.bind_eq_some_iff.mp h
          obtain ⟨_, -, heq⟩ := Option.bind_eq_some_iff.mp hrest
          cases heq
      | _ => cases h
  | _ => cases hobj

theorem isObject_of_lists {t : Term} {field s : String} (h : lists t field s = true) :
    t.isObject = true := by
  cases t with
  | obj _ => rfl
  | _ => simp [lists, listed, Ref.get, Ref.contains] at h

section Named

variable {e : Term × PolicyRule}

theorem Passes.unlisted_impersonate (h : Passes input eager)
    (hkind : kindIs input ["Role", "ClusterRole"] = true) (hname : hasName input = true)
    (he : e ∈ decodeRules input) (hhidden : ¬ Hidden input e) (hgrants : e.2.Grants "impersonate")
    (hopen : kindIs input ["ClusterRole"] = true ∨ e.2.resourceNames = []) : False := by
  obtain ⟨hmem, hdecodes⟩ := mem_decodeRules he
  rcases hgrants.1 with hany | hverb
  · exact hhidden (.anyVerb hgrants hany hopen)
  · have hlists := (mem_iff_lists hdecodes.verbs (by decide)).mp hverb
    rcases hopen with hcluster | hempty
    · have hsilent := not_any h.clusterImpersonation hcluster hmem
      simp [hlists, hname] at hsilent
    · have hnames := hdecodes.resourceNames
      rw [hempty] at hnames
      rcases null_or_empty (isObject_of_lists hlists) hnames with hnull | hcount
      · exact hhidden (.nullNames hgrants hverb hnull)
      · have hsilent := not_any h.unrestricted hkind hmem
        simp [hlists, hname, hcount] at hsilent

theorem Passes.unlisted_secrets (h : Passes input eager) (hname : hasName input = true)
    (he : e ∈ decodeRules input) (hclosed : SecretsClosed input) {verb : String}
    (hgrants : e.2.GrantsOn verb "" "secrets") : False := by
  obtain ⟨hmem, hdecodes⟩ := mem_decodeRules he
  rcases hgrants.2.2 with hany | hsecrets
  · have hwild := wildcard_of_mem hdecodes hany
    rcases hclosed with ⟨hrole, hns⟩ | ⟨hcluster, hother⟩
    · have hflux : namespaceIs input fluxRbacNamespaces = true := by
        simp only [namespaceIs, holds_eq_true, Ref.isIn_eq_some] at hns ⊢
        obtain ⟨n, hn, heq⟩ := hns
        rw [List.mem_singleton] at hn
        exact ⟨n, by simp [hn, fluxRbacNamespaces], heq⟩
      have hsilent := not_any h.wildcard (Bool.and_eq_true_iff.mpr ⟨hrole, hflux⟩) hmem
      simp [hwild, hasNamespaceAndName_of hname hns] at hsilent
    · have hreserved : holdsNot eager ((inp input ["metadata", "name"]).isIn fluxAggregationRoles) =
          true := holdsNot_of_not_nameIs hname hother
      have hsilent := not_any h.clusterWildcard (Bool.and_eq_true_iff.mpr ⟨hcluster, hreserved⟩) hmem
      simp [hwild, hname] at hsilent
  · have hlists := (mem_iff_lists hdecodes.resources (by decide)).mp hsecrets
    rcases hclosed with ⟨hrole, hns⟩ | ⟨hcluster, -⟩
    · have hsilent := not_any h.fluxSecrets (Bool.and_eq_true_iff.mpr ⟨hrole, hns⟩) hmem
      simp [hlists, hname] at hsilent
    · have hsilent := not_any h.clusterSecrets hcluster hmem
      simp [hlists, hname] at hsilent

/-- In a named document that passes, what the deny rules look for is not there. -/
theorem Passes.unlisted (h : Passes input eager)
    (hkind : kindIs input ["Role", "ClusterRole"] = true) (hname : hasName input = true)
    (he : e ∈ decodeRules input) (hhidden : ¬ Hidden input e) : ¬ Listed input e := by
  intro hlisted
  cases hlisted with
  | impersonate hgrants hopen => exact h.unlisted_impersonate hkind hname he hhidden hgrants hopen
  | secrets hclosed verb hgrants => exact h.unlisted_secrets hname he hclosed hgrants
  | token hverb hgroup hresource =>
    obtain ⟨hmem, hdecodes⟩ := mem_decodeRules he
    have hlists := (mem_iff_lists hdecodes.resources (by decide)).mp hresource
    have hsilent := not_any h.token hkind hmem
    simp [hlists, hname] at hsilent

end Named

/-- A document without grants of either kind is safe. -/
theorem safe_of_neither (hkind : kindIs input ["Role", "ClusterRole"] = true)
    (hhidden : ∀ e ∈ decodeRules input, ¬ Hidden input e)
    (hlisted : ∀ e ∈ decodeRules input, ¬ Listed input e) : Safe input := by
  refine ⟨fun e he hgrants => ?_, fun hclosed e he verb hgrants => ?_, fun e he hgrants => ?_⟩
  · have hclosed : ¬ (kindIs input ["ClusterRole"] = true ∨ e.2.resourceNames = []) :=
      fun hopen => hlisted e he (.impersonate hgrants hopen)
    obtain ⟨hcluster, hnames⟩ := not_or.mp hclosed
    refine ⟨?_, hnames⟩
    simp only [kindIs, holds_eq_true, Ref.isIn_eq_some] at hkind hcluster ⊢
    obtain ⟨n, hn, heq⟩ := hkind
    rcases List.mem_pair.mp hn with rfl | rfl
    · exact ⟨_, List.mem_singleton_self _, heq⟩
    · exact absurd ⟨_, List.mem_singleton_self _, heq⟩ hcluster
  · exact hlisted e he (.secrets hclosed verb hgrants)
  · obtain ⟨hverb, hgroup, hresource⟩ := hgrants
    rcases hresource with hany | hexact | htoken
    · exact hhidden e he (.anyToken hverb hgroup (.inl hany))
    · exact hlisted e he (.token hverb hgroup hexact)
    · exact hhidden e he (.anyToken hverb hgroup (.inr htoken))

/-- A Role or a ClusterRole that passes is safe exactly when it grants nothing in secret. -/
theorem safe_iff_overt (hkind : kindIs input ["Role", "ClusterRole"] = true)
    (hdeny : denyRole input eager = false) : Safe input ↔ Overt input := by
  refine ⟨Safe.overt, fun h => ?_⟩
  have hpasses := passes_of_denyRole hdeny
  refine safe_of_neither hkind h.hidden fun e he => ?_
  rcases h.named with hname | hnone
  · exact hpasses.unlisted hkind hname he (h.hidden e he)
  · exact hnone e he

/-- A Role with one rule. -/
def sampleRole (ns : String) (rule : Term) : Term :=
  .obj [("kind", .str "Role"), ("metadata", .obj [("name", .str "reader"), ("namespace", .str ns)]),
    ("rules", .arr [rule])]

theorem safe_iff_overt_reader :
    Safe (sampleRole "flux-system" (ruleOf [""] ["configmaps"] ["get"])) ↔
      Overt (sampleRole "flux-system" (ruleOf [""] ["configmaps"] ["get"])) :=
  have hpasses : denyRole (sampleRole "flux-system" (ruleOf [""] ["configmaps"] ["get"])) true =
      false := by decide
  safe_iff_overt (by decide) hpasses

/-- A Role of another namespace may grant everything. -/
theorem wildcards_pass :
    (∀ eager, denyRole (sampleRole "default" (ruleOf ["*"] ["*"] ["*"])) eager = false) ∧
      ¬ Safe (sampleRole "default" (ruleOf ["*"] ["*"] ["*"])) := by
  refine ⟨by decide, fun h => ?_⟩
  have hrules : decodeRules (sampleRole "default" (ruleOf ["*"] ["*"] ["*"])) =
      [(ruleOf ["*"] ["*"] ["*"], ⟨["*"], ["*"], ["*"], []⟩)] := by
    decide
  have hgrants : (⟨["*"], ["*"], ["*"], []⟩ : PolicyRule).Grants "impersonate" := by
    decide
  have hmem : (ruleOf ["*"] ["*"] ["*"], (⟨["*"], ["*"], ["*"], []⟩ : PolicyRule)) ∈
      decodeRules (sampleRole "default" (ruleOf ["*"] ["*"] ["*"])) := by
    rw [hrules]
    exact List.mem_singleton_self _
  exact (h.impersonate _ hmem hgrants).2 rfl

end Policy
