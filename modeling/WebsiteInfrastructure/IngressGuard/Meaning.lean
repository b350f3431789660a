import Mathlib
import WebsiteInfrastructure.IngressGuard.Exactness

/-!
# What an accepted ruleset does to a packet

The owned chain of a listing, read by the meaning of its statements, and its verdict on every
packet when the verifier finds no error.
-/

namespace IngressGuard

open Json Json.Value Raising
open Nftables (Verdict Packet Statement run evaluate readStatement readRule isPlainName)

variable {F : Type} [Interpreter F]

/-! ## The owned chain -/

/-- The rules of the owned chain, in the order the listing has them. -/
def ownedRules (document : Value F) : List (Value F) :=
  ((listing document).filter fun o =>
    ruleOfTable o && inet o && named o.2 "chain" ownedChain).map Prod.snd

/-- The policy of the owned chain. -/
def ownedPolicy (document : Value F) : Option Verdict :=
  match (listing document).find? fun o =>
      chainOfTable o && inet o && named o.2 "name" ownedChain with
  | some (_, chain) =>
    match chain.get "policy" with
    | .str name => Nftables.verdictNamed name
    | _ => none
  | none => none

/-- The verdict of the owned chain, `none` when a statement is outside the fragment. -/
def chainVerdict (document : Value F) (p : Packet) : Option Verdict := do
  let policy ← ownedPolicy document
  let rules ← (ownedRules document).mapM fun rule => readRule (rule.get "expr")
  some (evaluate policy rules p)

/-! ## Reading an accepted rule -/

/-- The statements of a rule of the model. -/
def GuardRule.statements (r : GuardRule) : List Statement :=
  [.interface r.interface, .port r.port, .counter, .verdict r.verdict]

omit [Interpreter F] in
theorem get_single {key : String} {k : Text} {v : Value F} :
    (Value.obj [(k, v)]).get key = if k = .scalar key then v else .null := by
  rw [Value.get, get?, List.lookup_cons]
  by_cases h : k = .scalar key
  · simp [h]
  · have hbeq : (Text.scalar key == k) = false := by simpa using fun heq => h heq.symm
    rw [hbeq, if_neg h]
    rfl

omit [Interpreter F] in
theorem single?_eq_some {v : Value F} {o : Text × Value F} :
    single? v = some o ↔ v = .obj [o] := by
  unfold single?
  split
  · simp
  · rename_i hne
    simp only [reduceCtorEq, false_iff]
    exact fun h => hne _ h

theorem parseMatch_eq_ok {expression left right : Value F}
    (h : parseMatch expression = .ok (left, right)) :
    (expression.get "match").get "op" = .text "==" ∧ (expression.get "match").get "left" = left ∧
      (expression.get "match").get "right" = right := by
  simp only [parseMatch] at h
  split_ifs at h with _ hop _
  simp only [Except.ok.injEq, Prod.mk.injEq] at h
  exact ⟨by simpa using hop, h.1, h.2⟩

theorem isObject_of_parseMatch {expression : Value F} {operands : Value F × Value F}
    (h : parseMatch expression = .ok operands) : (expression.get "match").isObject = true := by
  simp only [parseMatch] at h
  split_ifs at h with hobject
  simp only [Bool.not_eq_true', Bool.not_eq_false, Bool.and_eq_true] at hobject
  exact hobject.1

/-- The operands of a match expression of one entry. -/
theorem match_of_parseMatch {expression : Value F} {operands : Value F × Value F}
    (hsingle : (single? expression).isSome) (h : parseMatch expression = .ok operands) :
    expression = .obj [(.scalar "match", expression.get "match")] := by
  obtain ⟨⟨k, v⟩, ho⟩ := Option.isSome_iff_exists.mp hsingle
  obtain rfl := single?_eq_some.mp ho
  have hobject := isObject_of_parseMatch h
  rw [get_single] at hobject ⊢
  split_ifs at hobject ⊢ with hk
  · rw [hk]
  · simp [isObject] at hobject

/-- An operand that equals the one of the model has its inner entry. -/
theorem get_get_of_eq {v : Value F} {outer inner name : String} {fields : List (Text × Value F)}
    (h : v.eq (.obj [(.scalar outer, .obj fields)]) = true)
    (hmem : (.scalar inner, .text name) ∈ fields) : (v.get outer).get inner = .text name := by
  obtain ⟨u, hu, heq⟩ := get?_of_eq h (List.mem_singleton_self _)
  obtain ⟨w, hw, hname⟩ := get?_of_eq heq hmem
  rw [get_of_get? hu, get_of_get? hw]
  exact eq_text.mp hname

theorem readStatement_interface {expression : Value F} {name : Text}
    (hsingle : (single? expression).isSome) (h : parseInterface expression = .ok name) :
    readStatement expression = some (.interface name) := by
  simp only [parseInterface, bind_eq_ok] at h
  obtain ⟨⟨left, right⟩, hmatch, h⟩ := h
  obtain ⟨hop, hleft, hright⟩ := parseMatch_eq_ok hmatch
  split_ifs at h with heq
  simp only [Bool.not_eq_true', Bool.not_eq_false] at heq
  split at h
  · rename_i found hfound
    obtain rfl : right = .str found := hfound
    split_ifs at h with hempty hwild
    obtain rfl := Except.ok.inj h
    have hkey : (left.get "meta").get "key" = .text "iifname" := get_get_of_eq heq (by simp)
    have hplain : isPlainName found = true := by
      simpa [isPlainName] using hwild
    rw [match_of_parseMatch hsingle hmatch, readStatement, Nftables.readMatch, hop, hleft, hright]
    simp only [text, hkey, hplain, if_true]
  · simp at h

theorem readStatement_port {expression : Value F} {port : ℤ}
    (hsingle : (single? expression).isSome) (h : parsePort expression = .ok port) :
    readStatement expression = some (.port port) := by
  simp only [parsePort, bind_eq_ok] at h
  obtain ⟨⟨left, right⟩, hmatch, h⟩ := h
  obtain ⟨hop, hleft, hright⟩ := parseMatch_eq_ok hmatch
  split_ifs at h with heq
  simp only [Bool.not_eq_true', Bool.not_eq_false] at heq
  split at h
  · rename_i found hfound
    obtain rfl : right = .int found := hfound
    obtain rfl := Except.ok.inj h
    have hprotocol : (left.get "payload").get "protocol" = .text "tcp" :=
      get_get_of_eq heq (by simp)
    have hfield : (left.get "payload").get "field" = .text "dport" := get_get_of_eq heq (by simp)
    rw [match_of_parseMatch hsingle hmatch, readStatement, Nftables.readMatch, hop, hleft, hright]
    simp only [text, hprotocol, hfield]
  · simp at h

omit [Interpreter F] in
theorem readStatement_counter {expression : Value F} {u : Unit}
    (hsingle : (single? expression).isSome) (h : counterErrors expression = .ok u) :
    readStatement expression = some .counter := by
  obtain ⟨⟨k, v⟩, ho⟩ := Option.isSome_iff_exists.mp hsingle
  obtain rfl := single?_eq_some.mp ho
  have hkey : k = .scalar "counter" := by
    by_contra hne
    have hbeq : (Text.scalar "counter" == k) = false := by simpa using fun heq => hne heq.symm
    simp [counterErrors, get?, List.lookup_cons, hbeq] at h
  rw [hkey, readStatement]

omit [Interpreter F] in
theorem readStatement_verdict {expression : Value F} {v : Verdict}
    (h : parseVerdict expression = .ok v) : readStatement expression = some (.verdict v) := by
  unfold parseVerdict at h
  split at h
  · rename_i ho
    obtain rfl := Except.ok.inj h
    rw [single?_eq_some.mp ho, readStatement]
    · rfl
    all_goals simp
  · rename_i ho
    obtain rfl := Except.ok.inj h
    rw [single?_eq_some.mp ho, readStatement]
    · rfl
    all_goals simp
  · simp at h

theorem readRule_of_parse {expr : Value F} {r : GuardRule} (h : parseRuleExpr expr = .ok r) :
    readRule expr = some r.statements := by
  unfold parseRuleExpr at h
  split at h
  · rename_i first second third fourth
    split_ifs at h with hsingle
    simp only [List.any_cons, List.any_nil, Bool.or_false, Bool.or_eq_true, not_or,
      Bool.not_eq_true, Option.isNone_eq_false_iff] at hsingle
    obtain ⟨hfirst, hsecond, hthird, -⟩ := hsingle
    simp only [bind_eq_ok, Except.ok.injEq] at h
    obtain ⟨interface, hinterface, port, hport, u, hcounter, v, hv, rfl⟩ := h
    rw [readRule, List.mapM_cons, readStatement_interface hfirst hinterface, List.mapM_cons,
      readStatement_port hsecond hport, List.mapM_cons, readStatement_counter hthird hcounter,
      List.mapM_cons, readStatement_verdict hv, List.mapM_nil]
    rfl
  · simp at h

/-! ## The expected sequence -/

omit [Interpreter F] in
theorem run_statements {r : GuardRule} {p : Packet} :
    run r.statements p =
      if p.interface = r.interface ∧ (p.port : ℤ) = r.port then some r.verdict else none := by
  by_cases hi : p.interface = r.interface <;> by_cases hp : (p.port : ℤ) = r.port <;>
    simp [GuardRule.statements, run, hi, hp]

theorem mem_expectedSequence {interfaces : List Text} {r : GuardRule} :
    r ∈ expectedSequence interfaces ↔ r.interface ∈ interfaces ∧
      (r.port = preservedSshPort ∧ r.verdict = .accept ∨ r.port ∈ deniedPorts ∧ r.verdict = .drop) := by
  obtain ⟨interface, port, verdict⟩ := r
  simp only [expectedSequence, List.mem_flatMap, List.mem_cons, List.mem_map, GuardRule.mk.injEq]
  constructor
  · rintro ⟨i, hi, ⟨rfl, rfl, rfl⟩ | ⟨q, hq, rfl, rfl, rfl⟩⟩
    · exact ⟨hi, .inl ⟨rfl, rfl⟩⟩
    · exact ⟨hi, .inr ⟨hq, rfl⟩⟩
  · rintro ⟨hi, ⟨rfl, rfl⟩ | ⟨hq, rfl⟩⟩
    · exact ⟨interface, hi, .inl ⟨rfl, rfl, rfl⟩⟩
    · exact ⟨interface, hi, .inr ⟨port, hq, rfl, rfl, rfl⟩⟩

theorem ssh_not_denied : preservedSshPort ∉ deniedPorts := by decide

/-- The expected sequence drops the denied ports of its interfaces and nothing else. -/
theorem evaluate_expected (interfaces : List Text) (p : Packet) :
    evaluate .accept ((expectedSequence interfaces).map GuardRule.statements) p =
      if p.interface ∈ interfaces ∧ (p.port : ℤ) ∈ deniedPorts then .drop else .accept := by
  have hfires : ∀ r ∈ expectedSequence interfaces, ∀ v, run r.statements p = some v →
      r.interface = p.interface ∧ r.port = (p.port : ℤ) ∧ r.verdict = v := by
    intro r _ v hrun
    rw [run_statements] at hrun
    split_ifs at hrun with h
    exact ⟨h.1.symm, h.2.symm, Option.some.inj hrun⟩
  split_ifs with hdenied
  · apply Nftables.evaluate_of_agree
    · intro statements hmem v hrun
      obtain ⟨r, hr, rfl⟩ := List.mem_map.mp hmem
      obtain ⟨-, hport, rfl⟩ := hfires r hr v hrun
      rcases (mem_expectedSequence.mp hr).2 with ⟨hssh, -⟩ | ⟨-, hdrop⟩
      · -- the preserved port is not one of the denied ones
        exact absurd (hssh ▸ hport ▸ hdenied.2) ssh_not_denied
      · exact hdrop
    · have hmem : (⟨p.interface, p.port, .drop⟩ : GuardRule) ∈ expectedSequence interfaces :=
        mem_expectedSequence.mpr ⟨hdenied.1, .inr ⟨hdenied.2, rfl⟩⟩
      exact ⟨_, List.mem_map_of_mem hmem, by simp [run_statements]⟩
  · by_cases hssh : p.interface ∈ interfaces ∧ (p.port : ℤ) = preservedSshPort
    · apply Nftables.evaluate_of_agree
      · intro statements hmem v hrun
        obtain ⟨r, hr, rfl⟩ := List.mem_map.mp hmem
        obtain ⟨-, hport, rfl⟩ := hfires r hr v hrun
        rcases (mem_expectedSequence.mp hr).2 with ⟨-, haccept⟩ | ⟨hdeny, -⟩
        · exact haccept
        · rw [hport, hssh.2] at hdeny
          exact absurd hdeny ssh_not_denied
      · have hmem : (⟨p.interface, p.port, .accept⟩ : GuardRule) ∈ expectedSequence interfaces :=
          mem_expectedSequence.mpr ⟨hssh.1, .inl ⟨hssh.2, rfl⟩⟩
        exact ⟨_, List.mem_map_of_mem hmem, by simp [run_statements]⟩
    · apply Nftables.evaluate_of_silent
      intro statements hmem
      obtain ⟨r, hr, rfl⟩ := List.mem_map.mp hmem
      by_contra hsome
      obtain ⟨v, hv⟩ := Option.ne_none_iff_exists'.mp hsome
      obtain ⟨hinterface, hport, -⟩ := hfires r hr v hv
      obtain ⟨hdeclared, ⟨hport', -⟩ | ⟨hport', -⟩⟩ := mem_expectedSequence.mp hr
      · exact hssh ⟨hinterface ▸ hdeclared, hport ▸ hport'⟩
      · exact hdenied ⟨hinterface ▸ hdeclared, hport ▸ hport'⟩

/-! ## The accepted ruleset -/

theorem ownedPolicy_of_exact {document : Value F} {interfaces : List Text}
    (h : Guarded document interfaces) : ownedPolicy document = some .accept := by
  obtain ⟨c, hc, hbase⟩ := h.chain
  have hname : named c.2 "name" ownedChain = true := named_eq_true.mpr hbase.name
  have hfilter : (listing document).filter (fun o =>
      chainOfTable o && inet o && named o.2 "name" ownedChain) = [c] := by
    simp only [Bool.and_comm _ (named _ _ ownedChain)]
    rw [← List.filter_filter, hc]
    exact List.filter_eq_self.mpr fun o hmem => (List.mem_singleton.mp hmem) ▸ hname
  have hfind : (listing document).find? (fun o =>
      chainOfTable o && inet o && named o.2 "name" ownedChain) = some c := by
    rw [← List.head?_filter, hfilter]
    rfl
  simp only [ownedPolicy, hfind, hbase.policy, text, chainPolicy]
  rfl

theorem mapM_readRule {rules : List (Value F)} {triples : List GuardRule}
    (h : rules.map (fun rule => parseRuleExpr (rule.get "expr")) = triples.map .ok) :
    rules.mapM (fun rule => readRule (rule.get "expr")) =
      some (triples.map GuardRule.statements) := by
  induction rules generalizing triples with
  | nil =>
    rw [List.map_nil, eq_comm, List.map_eq_nil_iff] at h
    simp [h]
  | cons rule rest ih =>
    cases triples with
    | nil => simp at h
    | cons triple triples =>
      rw [List.map_cons, List.map_cons, List.cons.injEq] at h
      rw [List.mapM_cons, readRule_of_parse h.1, ih h.2]
      rfl

/-- An accepted ruleset drops the denied ports of the declared interfaces and nothing else. -/
theorem chainVerdict_of_exact {document : Value F} {interfaces : List Text}
    (h : Guarded document interfaces) (p : Packet) : chainVerdict document p =
      some (if p.interface ∈ interfaces ∧ (p.port : ℤ) ∈ deniedPorts then .drop else .accept) := by
  have hrules : (ownedRules document).map (fun rule => parseRuleExpr (rule.get "expr")) =
      (expectedSequence interfaces).map .ok := by
    rw [ownedRules, List.map_map]
    exact h.rules
  rw [chainVerdict, ownedPolicy_of_exact h, mapM_readRule hrules, ← evaluate_expected]
  rfl

/-! ## A ruleset of one interface -/

namespace Sample

abbrev Doc := Value (List Char)

def metainfo : Doc :=
  .obj [(.scalar "metainfo", .obj [(.scalar "json_schema_version", .int 1),
    (.scalar "release_name", .text "synthetic"), (.scalar "version", .text "1.0.9")])]

def table : Doc :=
  .obj [(.scalar "table", .obj [(.scalar "family", .text ownedFamily), (.scalar "handle", .int 20),
    (.scalar "name", .text ownedTable)])]

def chain : Doc :=
  .obj [(.scalar "chain", .obj [(.scalar "family", .text ownedFamily), (.scalar "handle", .int 1),
    (.scalar "hook", .text "input"), (.scalar "name", .text ownedChain),
    (.scalar "policy", .text "accept"), (.scalar "prio", .int (-10)),
    (.scalar "table", .text ownedTable), (.scalar "type", .text "filter")])]

def matching (left right : Doc) : Doc :=
  .obj [(.scalar "match", .obj [(.scalar "left", left), (.scalar "op", .text "=="),
    (.scalar "right", right)])]

def rule (handle : ℤ) (r : GuardRule) : Doc :=
  .obj [(.scalar "rule", .obj [(.scalar "chain", .text ownedChain),
    (.scalar "expr", .arr [matching interfaceOperand (.str r.interface),
      matching portOperand (.int r.port),
      .obj [(.scalar "counter", .obj [(.scalar "bytes", .int 0), (.scalar "packets", .int 0)])],
      .obj [(.scalar (match r.verdict with | .accept => "accept" | .drop => "drop"), .null)]]),
    (.scalar "family", .text ownedFamily), (.scalar "handle", .int handle),
    (.scalar "table", .text ownedTable)])]

def interfaces : List Text := [.scalar "adminvpn0"]

def rules : List Doc := (expectedSequence interfaces).zipIdx.map fun (r, k) => rule (100 + k) r

def document (extra : List Doc) : Doc :=
  .obj [(.scalar "nftables", .arr (metainfo :: table :: chain :: rules ++ extra))]

/-- A chain of another table under the owned chain's name. -/
def decoyObject : Text × Doc :=
  (.scalar "chain", .obj [(.scalar "family", .text "ip"), (.scalar "handle", .int 2),
    (.scalar "name", .text ownedChain), (.scalar "table", .text "other")])

def decoyChain : Doc := .obj [decoyObject]

end Sample

/-- The verifier is exact, and what it accepts denies the guarded ports and preserves SSH. -/
theorem modelErrors_exact (document : Value F) (interfaces : List Text) :
    (modelErrors document interfaces = [] ↔ Guarded document interfaces ∧ Closed document) ∧
    (modelErrors document interfaces = [] → ∀ p : Packet, ∃ v, chainVerdict document p = some v ∧
      (v = .drop ↔ p.interface ∈ interfaces ∧ (p.port : ℤ) ∈ deniedPorts) ∧
      ((p.port : ℤ) = preservedSshPort → v ≠ .drop)) := by
  refine ⟨modelErrors_eq_nil, fun h p => ⟨_, chainVerdict_of_exact (modelErrors_eq_nil.mp h).1 p, ?_⟩⟩
  split_ifs with hdenied
  · exact ⟨by simp [hdenied], fun hssh => absurd (hssh ▸ hdenied.2) ssh_not_denied⟩
  · exact ⟨by simp [hdenied], fun _ => by simp⟩

theorem sample_exact : modelErrors (Sample.document []) Sample.interfaces = [] ∧
    ∃ v, chainVerdict (Sample.document []) ⟨.scalar "adminvpn0", 6443⟩ = some v ∧ v = .drop := by
  have hnone : modelErrors (Sample.document []) Sample.interfaces = [] := by decide
  obtain ⟨v, hv, hdrop, -⟩ := (modelErrors_exact (Sample.document []) Sample.interfaces).2 hnone
    ⟨.scalar "adminvpn0", 6443⟩
  exact ⟨hnone, v, hv, hdrop.mpr (by decide)⟩

/-- One table, one chain and the expected rules, refused for a foreign chain's name. -/
theorem decoy_refused :
    Guarded (Sample.document [Sample.decoyChain]) Sample.interfaces ∧
      modelErrors (Sample.document [Sample.decoyChain]) Sample.interfaces =
        ["CHAIN_NAME_COLLISION"] := by
  have hguarded : Guarded (Sample.document []) Sample.interfaces :=
    (modelErrors_eq_nil.mp (by decide)).1
  -- the foreign chain passes none of the three selections
  have hfilter : ∀ p : Text × Sample.Doc → Bool, p Sample.decoyObject = false →
      (listing (Sample.document [Sample.decoyChain])).filter p =
        (listing (Sample.document [])).filter p := by
    intro p hp
    have hlisting : listing (Sample.document [Sample.decoyChain]) =
        listing (Sample.document []) ++ [Sample.decoyObject] := rfl
    rw [hlisting, List.filter_append, List.filter_cons_of_neg (by simp [hp]), List.filter_nil,
      List.append_nil]
  refine ⟨⟨?_, ?_, ?_⟩, by decide⟩
  · rw [hfilter _ (by decide)]
    exact hguarded.table
  · rw [hfilter _ (by decide)]
    exact hguarded.chain
  · rw [hfilter _ (by decide)]
    exact hguarded.rules

end IngressGuard
