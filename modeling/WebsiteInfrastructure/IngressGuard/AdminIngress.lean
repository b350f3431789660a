import Mathlib
import WebsiteInfrastructure.IngressGuard.Meaning
import WebsiteInfrastructure.Library.AwkFields
import WebsiteInfrastructure.Library.LineReaders
import WebsiteInfrastructure.Library.NftablesText

/-!
# Declared interfaces and the rendered policy

`parse_contract_text` of `validate_admin_ingress_contract.py`, and what `nft` reads in the policy
that `render_text` makes of the interfaces.
-/

namespace IngressGuard

open PythonText ShellText
open Nftables (Token Statement Table Verdict isInterfaceName lex lexLines readStatements readTable)

/-! ## The contract -/

def reviewKey : String := "ADMIN_INGRESS_REVIEWED"
def interfaceKey : String := "ADMIN_INGRESS_INTERFACE"
def interfaceMinLength : ℕ := 2
def interfaceMaxLength : ℕ := 15
def maxInterfaces : ℕ := 16

/-- `INTERFACE_CHARSET` -/
def isInterfaceChar (c : Char) : Bool := c.isLower || c.isDigit || c ∈ ['.', '_', '-']

def forbiddenExact : List String := ["lo"]

def forbiddenPrefixes : List String :=
  ["bond", "br", "cali", "cni", "docker", "dummy", "en", "eth", "flannel", "kube", "lxc", "tap",
    "team", "tunl", "veth", "virbr", "vxlan", "wl"]

/-- `interface_errors` -/
def interfaceErrors (value : List Char) (lineNumber : ℕ) : List String :=
  if !(interfaceMinLength ≤ value.length && value.length ≤ interfaceMaxLength) ||
      !value.head?.any Char.isLower || value.any (!isInterfaceChar ·) then
    [s!"INTERFACE_SHAPE_INVALID line {lineNumber}"]
  else if forbiddenExact.any (value = ·.toList) ||
      forbiddenPrefixes.any fun start => start.toList <+: value then
    [s!"INTERFACE_CLASS_FORBIDDEN line {lineNumber}"]
  else []

/-- What the loop has seen; `seen_interfaces` are the members of `interfaces`. -/
structure ContractReading where
  errors : List String
  reviewValues : List (List Char)
  interfaces : List (List Char)

def ContractReading.fail (r : ContractReading) (token : String) (lineNumber : ℕ) :
    ContractReading :=
  { r with errors := r.errors ++ [s!"{token} line {lineNumber}"] }

/-- One turn of the loop of `parse_contract_text`. -/
def contractLine (r : ContractReading) (lineNumber : ℕ) (line : List Char) : ContractReading :=
  let key := awkKey line
  let value := awkValue line
  if line = [] ∨ line.head? = some '#' then r
  else if line ≠ strip line ∨ line.any (fun c => c.toNat < 32) then
    r.fail "LINE_SHAPE_INVALID" lineNumber
  else if '=' ∉ line ∨ key = [] ∨ value = [] then r.fail "LINE_SHAPE_INVALID" lineNumber
  else if key.any fun c => !(c.isUpper || c = '_') then r.fail "LINE_SHAPE_INVALID" lineNumber
  else if key ≠ reviewKey.toList ∧ key ≠ interfaceKey.toList then
    r.fail "KEY_UNSUPPORTED" lineNumber
  else if value.any isSpace then r.fail "VALUE_WHITESPACE_AMBIGUOUS" lineNumber
  else if key = reviewKey.toList then
    if r.reviewValues ≠ [] then r.fail "REVIEW_FLAG_DUPLICATE" lineNumber
    else if value ≠ "yes".toList ∧ value ≠ "no".toList then
      r.fail "REVIEW_FLAG_INVALID" lineNumber
    else { r with reviewValues := r.reviewValues ++ [value] }
  else if interfaceErrors value lineNumber ≠ [] then
    { r with errors := r.errors ++ interfaceErrors value lineNumber }
  else if value ∈ r.interfaces then r.fail "INTERFACE_DUPLICATE" lineNumber
  else if maxInterfaces ≤ r.interfaces.length then r.fail "INTERFACE_LIMIT_EXCEEDED" lineNumber
  else { r with interfaces := r.interfaces ++ [value] }

def contractLines (r : ContractReading) (lineNumber : ℕ) : List (List Char) → ContractReading
  | [] => r
  | line :: lines => contractLines (contractLine r lineNumber line) (lineNumber + 1) lines

/-- `parse_contract_text` -/
def parseContractText (text : List Char) : Option (List (List Char)) × List String :=
  let r := contractLines ⟨[], [], []⟩ 1 (text.splitOn '\n')
  let review :=
    match r.reviewValues with
    | [] => ["REVIEW_FLAG_MISSING"]
    | value :: _ => if value ≠ "yes".toList then ["REVIEW_INCOMPLETE"] else []
  let missing := if r.interfaces = [] then ["INTERFACE_MISSING"] else []
  let errors := r.errors ++ (review ++ missing)
  if errors ≠ [] then (none, errors) else (some r.interfaces, [])

/-! ## The rendered policy -/

/-- `%s` of the interface of a rule -/
def interfaceText (rule : GuardRule) : List Char := rule.interface.points.map Char.ofNat

def verdictText : Verdict → String
  | .accept => "accept"
  | .drop => "drop"

/-- The line of a rule behind the name of its interface -/
def ruleEnd (port : ℤ) (verdict : Verdict) : List Char :=
  s!" tcp dport {port} counter {verdictText verdict}".toList

/-- `'\t\tiifname "%s" tcp dport %d counter %s'` -/
def ruleLine (rule : GuardRule) : List Char :=
  "\t\tiifname \"".toList ++ (interfaceText rule ++ '"' :: ruleEnd rule.port rule.verdict)

def renderHead : List (List Char) :=
  ["#!/usr/sbin/nft -f", "# Rendered by validate_ingress_guard.py; do not edit by hand.",
    "# SSH-only admin plane (PLAT-DEC-001): admin-VPN ingress keeps TCP 22",
    "# and is terminally denied the cluster control-plane listeners.",
    s!"table {ownedFamily} {ownedTable} \x7b", s!"\tchain {ownedChain} \x7b",
    s!"\t\ttype {chainType} hook {chainHook} priority {chainPriority}; policy {chainPolicy};"].map
      String.toList

/-- `render_text` -/
def renderText (interfaces : List (List Char)) : List Char :=
  let rules := expectedSequence (interfaces.map fun name => .scalar (String.ofList name))
  ['\n'].intercalate (renderHead ++ (rules.map ruleLine ++ ["\t\x7d".toList, "\x7d".toList, []]))

/-! ## What the contract declares -/

/-- A name of the shape and class that the contract allows -/
def IsDeclarable (name : List Char) : Prop := interfaceErrors name 0 = []

/-- The interfaces so far are distinct, not too many, and of the allowed shape. -/
structure Declares (interfaces : List (List Char)) : Prop where
  nodup : interfaces.Nodup
  atMost : interfaces.length ≤ maxInterfaces
  shape : ∀ name ∈ interfaces, IsDeclarable name

theorem interfaceErrors_eq_nil {value : List Char} (m n : ℕ) :
    interfaceErrors value m = [] ↔ interfaceErrors value n = [] := by
  unfold interfaceErrors
  split_ifs <;> simp

/-- A line adds nothing, or one interface that is allowed, new and not one too many. -/
theorem contractLine_interfaces (r : ContractReading) (lineNumber : ℕ) (line : List Char) :
    (contractLine r lineNumber line).interfaces = r.interfaces ∨
      ∃ value, (contractLine r lineNumber line).interfaces = r.interfaces ++ [value] ∧
        interfaceErrors value lineNumber = [] ∧ value ∉ r.interfaces ∧
          r.interfaces.length < maxInterfaces := by
  generalize hresult : contractLine r lineNumber line = result
  unfold contractLine at hresult
  dsimp only at hresult
  iterate 6
    rw [ite_eq_iff] at hresult
    obtain ⟨-, rfl⟩ | ⟨-, hresult⟩ := hresult
    · exact .inl rfl
  rw [ite_eq_iff] at hresult
  obtain ⟨-, hresult⟩ | ⟨-, hresult⟩ := hresult
  · iterate 2
      rw [ite_eq_iff] at hresult
      obtain ⟨-, rfl⟩ | ⟨-, hresult⟩ := hresult
      · exact .inl rfl
    subst hresult
    exact .inl rfl
  · rw [ite_eq_iff] at hresult
    obtain ⟨-, rfl⟩ | ⟨hshape, hresult⟩ := hresult
    · exact .inl rfl
    rw [ite_eq_iff] at hresult
    obtain ⟨-, rfl⟩ | ⟨hnew, hresult⟩ := hresult
    · exact .inl rfl
    rw [ite_eq_iff] at hresult
    obtain ⟨-, rfl⟩ | ⟨hlimit, hresult⟩ := hresult
    · exact .inl rfl
    subst hresult
    exact .inr ⟨_, rfl, not_not.mp hshape, hnew, Nat.lt_of_not_le hlimit⟩

theorem contractLine_declares {r : ContractReading} (h : Declares r.interfaces) (lineNumber : ℕ)
    (line : List Char) : Declares (contractLine r lineNumber line).interfaces := by
  rcases contractLine_interfaces r lineNumber line with heq | ⟨value, heq, hshape, hnew, hlimit⟩
  · rw [heq]
    exact h
  · rw [heq]
    refine ⟨?_, ?_, ?_⟩
    · rw [List.nodup_append]
      refine ⟨h.nodup, by simp, fun a ha b hb hsame => hnew ?_⟩
      rw [List.mem_singleton] at hb
      rwa [← hb, ← hsame]
    · rw [List.length_append, List.length_singleton]
      exact hlimit
    · intro name hname
      rcases List.mem_append.mp hname with hname | hname
      · exact h.shape name hname
      · rw [List.mem_singleton] at hname
        rw [hname]
        exact (interfaceErrors_eq_nil lineNumber 0).mp hshape

theorem contractLines_declares {r : ContractReading} (h : Declares r.interfaces) (lineNumber : ℕ)
    (lines : List (List Char)) : Declares (contractLines r lineNumber lines).interfaces := by
  induction lines generalizing r lineNumber with
  | nil => exact h
  | cons line lines ih => exact ih (contractLine_declares h lineNumber line) (lineNumber + 1)

theorem declares_of_parse {text : List Char} {interfaces : List (List Char)}
    (h : parseContractText text = (some interfaces, [])) : Declares interfaces := by
  unfold parseContractText at h
  dsimp only at h
  rw [ite_eq_iff] at h
  obtain ⟨-, h⟩ | ⟨-, h⟩ := h
  · cases (Prod.mk.inj h).1
  obtain rfl := Option.some.inj (Prod.mk.inj h).1
  exact contractLines_declares ⟨List.nodup_nil, Nat.zero_le _, by simp⟩ 1 _

/-! ## What `nft` reads -/

/-- The tokens of the line of a rule -/
def ruleTokens (rule : GuardRule) : List Token :=
  [.word "iifname", .quoted (String.ofList (interfaceText rule)), .word "tcp", .word "dport",
    .word (toString rule.port), .word "counter", .word (verdictText rule.verdict)]

theorem isInterfaceChar_cases {c : Char} (h : isInterfaceChar c = true) :
    isSpace c = false ∧ c ∉ ['/', ':', '*', '\\', '"', '\n'] := by
  have hplain : c.isAlphanum = true ∨ c ∈ ['.', '_', '-'] := by
    simp only [isInterfaceChar, Bool.or_eq_true, decide_eq_true_eq] at h
    rcases h with (h | h) | h
    · left
      simp [Char.isAlphanum, Char.isAlpha, h]
    · left
      simp [Char.isAlphanum, h]
    · exact .inr h
  constructor
  · rcases hplain with hplain | hplain
    · exact isSpace_of_alphanum hplain
    · fin_cases hplain <;> decide
  · intro hmem
    rcases hplain with hplain | hplain
    · fin_cases hmem <;> cases hplain
    · fin_cases hmem <;> simp at hplain

/-- A name that the contract allows is plain text for `nft` and an interface for the kernel. -/
theorem IsDeclarable.plain {name : List Char} (h : IsDeclarable name) :
    isInterfaceName name = true ∧ '"' ∉ name ∧ '\n' ∉ name := by
  unfold IsDeclarable interfaceErrors at h
  rw [ite_eq_iff] at h
  obtain ⟨-, h⟩ | ⟨hshape, -⟩ := h
  · cases h
  simp only [Bool.or_eq_true, Bool.not_eq_true', not_or, Bool.not_eq_false, Bool.and_eq_true,
    decide_eq_true_eq, Bool.not_eq_true] at hshape
  obtain ⟨⟨⟨hmin, hmax⟩, hfirst⟩, hchars⟩ := hshape
  have hall : ∀ c ∈ name, isSpace c = false ∧ c ∉ ['/', ':', '*', '\\', '"', '\n'] := by
    intro c hc
    rw [List.any_eq_false] at hchars
    exact isInterfaceChar_cases (by simpa using hchars c hc)
  have habsent : ∀ c ∈ ['"', '\n'], c ∉ name := by
    intro c hc hmem
    have hnot := (hall c hmem).2
    fin_cases hc <;> simp at hnot
  refine ⟨?_, habsent _ (by simp), habsent _ (by simp)⟩
  have hne : name ≠ [] ∧ name ≠ ['.'] ∧ name ≠ ['.', '.'] := by
    refine ⟨?_, ?_, ?_⟩
    all_goals
      rintro rfl
      cases hfirst
  simp only [isInterfaceName, Bool.and_eq_true, decide_eq_true_eq, List.all_eq_true]
  refine ⟨⟨⟨⟨hne.1, hmax⟩, hne.2.1⟩, hne.2.2⟩, fun c hc => ?_⟩
  have hnot := (hall c hc).2
  simp only [List.mem_cons, not_or] at hnot
  simp [(hall c hc).1, hnot]

theorem interfaceText_scalar (name : List Char) (port : ℤ) (verdict : Verdict) :
    interfaceText ⟨.scalar (String.ofList name), port, verdict⟩ = name := by
  simp [interfaceText, Json.Text.points, Function.comp_def]

theorem lex_iifname (rest : List Char) :
    lex .between ("\t\tiifname \"".toList ++ rest) =
      (lex (.quote []) rest).map (.word "iifname" :: ·) := by
  have hchars : "\t\tiifname \"".toList ++ rest =
      '\t' :: '\t' :: 'i' :: 'i' :: 'f' :: 'n' :: 'a' :: 'm' :: 'e' :: ' ' :: '"' :: rest := rfl
  rw [hchars]
  simp only [lex, Nftables.isWordChar, Nftables.delimiter?]
  cases lex (.quote []) rest <;> rfl

/-- The ports and verdicts of the rules of one interface -/
def ruleEnds : List (ℤ × Verdict) :=
  (preservedSshPort, .accept) :: deniedPorts.map fun port => (port, .drop)

/-- What stands behind the interface of a rule is read as its port, the counter and its verdict. -/
theorem ruleEnd_read : ∀ e ∈ ruleEnds, '\n' ∉ ruleEnd e.1 e.2 ∧
    lex .between (ruleEnd e.1 e.2) =
      some [.word "tcp", .word "dport", .word (toString e.1), .word "counter",
        .word (verdictText e.2)] ∧
    readStatements [.word "tcp", .word "dport", .word (toString e.1), .word "counter",
      .word (verdictText e.2)] = some [.port e.1, .counter, .verdict e.2] := by
  decide +kernel

theorem exists_of_mem_expected {interfaces : List (List Char)} {rule : GuardRule}
    (h : rule ∈ expectedSequence (interfaces.map fun name => .scalar (String.ofList name))) :
    ∃ name ∈ interfaces, ∃ e ∈ ruleEnds, rule = ⟨.scalar (String.ofList name), e.1, e.2⟩ := by
  obtain ⟨interface, hinterface, hrule⟩ := List.mem_flatMap.mp h
  obtain ⟨name, hname, rfl⟩ := List.mem_map.mp hinterface
  refine ⟨name, hname, ?_⟩
  rcases List.mem_cons.mp hrule with rfl | hrule
  · exact ⟨(preservedSshPort, .accept), List.mem_cons_self, rfl⟩
  · obtain ⟨port, hport, rfl⟩ := List.mem_map.mp hrule
    exact ⟨(port, .drop), List.mem_cons_of_mem _ (List.mem_map.mpr ⟨port, hport, rfl⟩), rfl⟩

theorem lex_rule {name tail : List Char} {tokens : List Token} (hname : '"' ∉ name)
    (htail : lex .between tail = some tokens) :
    lex .between ("\t\tiifname \"".toList ++ (name ++ '"' :: tail)) =
      some (.word "iifname" :: .quoted (String.ofList name) :: tokens) := by
  rw [lex_iifname, Nftables.lex_quote hname, htail]
  rfl

theorem lex_ruleLine {name : List Char} (hname : '"' ∉ name) {e : ℤ × Verdict}
    (he : e ∈ ruleEnds) : lex .between (ruleLine ⟨.scalar (String.ofList name), e.1, e.2⟩) =
      some (ruleTokens ⟨.scalar (String.ofList name), e.1, e.2⟩) := by
  have hrule := lex_rule hname (ruleEnd_read e he).2.1
  have htext := interfaceText_scalar name e.1 e.2
  unfold ruleLine ruleTokens
  simp only [htext]
  exact hrule

theorem readStatements_ruleTokens {name : List Char} (hname : isInterfaceName name = true)
    {e : ℤ × Verdict} (he : e ∈ ruleEnds) :
    readStatements (ruleTokens ⟨.scalar (String.ofList name), e.1, e.2⟩) =
      some (GuardRule.statements ⟨.scalar (String.ofList name), e.1, e.2⟩) := by
  rw [ruleTokens, interfaceText_scalar, readStatements, (ruleEnd_read e he).2.2]
  simp only [String.toList_ofList, hname, if_true]
  rfl

theorem feed_not_mem_ruleLine {name : List Char} (hname : '\n' ∉ name) {e : ℤ × Verdict}
    (he : e ∈ ruleEnds) : '\n' ∉ ruleLine ⟨.scalar (String.ofList name), e.1, e.2⟩ := by
  have hend := (ruleEnd_read e he).1
  have htext := interfaceText_scalar name e.1 e.2
  have hstart : '\n' ∉ "\t\tiifname \"".toList := by decide
  unfold ruleLine
  simp only [htext, List.mem_append, List.mem_cons, not_or]
  exact ⟨hstart, hname, by decide, hend⟩

def headTokens : List (List Token) :=
  [[.word "table", .word ownedFamily, .word ownedTable, .opening],
    [.word "chain", .word ownedChain, .opening],
    [.word "type", .word chainType, .word "hook", .word chainHook, .word "priority", .word "-10",
      .semicolon, .word "policy", .word chainPolicy, .semicolon]]

def renderTail : List (List Char) := ["\t\x7d".toList, "\x7d".toList, []]

/-- The lines around the rules are read as the head and the end of the table. -/
theorem frame_read : lexLines renderHead = some headTokens ∧
    lexLines renderTail = some [[.closing], [.closing]] ∧
    ∀ line ∈ renderHead ++ renderTail, '\n' ∉ line := by
  decide +kernel

/-- The table that the rules of the interfaces are -/
def expectedTable (interfaces : List (List Char)) : Table where
  family := ownedFamily
  name := ownedTable
  chain := ownedChain
  kind := chainType
  hook := chainHook
  priority := "-10"
  policy := chainPolicy
  rules := (expectedSequence (interfaces.map fun name => .scalar (String.ofList name))).map
    GuardRule.statements

theorem readTableLines_expected {rules : List (List Statement)} {lines : List (List Token)}
    (h : Nftables.readRules lines = some (rules, [[.closing]])) :
    Nftables.readTableLines (headTokens ++ lines) =
      some ⟨ownedFamily, ownedTable, ownedChain, chainType, chainHook, "-10", chainPolicy, rules⟩ := by
  rw [headTokens, List.cons_append, List.cons_append, List.cons_append, List.nil_append,
    Nftables.readTableLines, h]
  rfl

theorem readTable_renderText {interfaces : List (List Char)}
    (h : ∀ name ∈ interfaces, IsDeclarable name) :
    readTable (renderText interfaces) = some (expectedTable interfaces) := by
  generalize hrules : expectedSequence (interfaces.map fun name => .scalar (String.ofList name)) =
    rules
  have hrule : ∀ rule ∈ rules, '\n' ∉ ruleLine rule ∧
      lex .between (ruleLine rule) = some (ruleTokens rule) ∧
        readStatements (ruleTokens rule) = some rule.statements := by
    intro rule hmem
    obtain ⟨name, hname, e, he, rfl⟩ := exists_of_mem_expected (hrules ▸ hmem)
    obtain ⟨hplain, hquote, hfeed⟩ := (h name hname).plain
    exact ⟨feed_not_mem_ruleLine hfeed he, lex_ruleLine hquote he,
      readStatements_ruleTokens hplain he⟩
  have hlines : renderText interfaces =
      ['\n'].intercalate (renderHead ++ (rules.map ruleLine ++ renderTail)) := by
    rw [renderText, hrules]
    rfl
  have hfeeds : ∀ line ∈ renderHead ++ (rules.map ruleLine ++ renderTail), '\n' ∉ line := by
    intro line hline
    rcases List.mem_append.mp hline with hline | hline
    · exact frame_read.2.2 line (List.mem_append_left _ hline)
    rcases List.mem_append.mp hline with hline | hline
    · obtain ⟨rule, hmem, rfl⟩ := List.mem_map.mp hline
      exact (hrule rule hmem).1
    · exact frame_read.2.2 line (List.mem_append_right _ hline)
  have htokens : lexLines (rules.map ruleLine) = some (rules.map ruleTokens) :=
    Nftables.lexLines_map (fun rule hmem => (hrule rule hmem).2.1) fun rule => by simp [ruleTokens]
  have hread : Nftables.readRules (rules.map ruleTokens ++ [[.closing], [.closing]]) =
      some (rules.map GuardRule.statements, [[.closing]]) :=
    Nftables.readRules_append (fun rule hmem => (hrule rule hmem).2.2)
      (fun rule => by simp [ruleTokens]) [[.closing]]
  have hlexed : lexLines (renderHead ++ (rules.map ruleLine ++ renderTail)) =
      some (headTokens ++ (rules.map ruleTokens ++ [[.closing], [.closing]])) := by
    rw [Nftables.lexLines_append, Nftables.lexLines_append, frame_read.1,
      frame_read.2.1, htokens]
    rfl
  rw [readTable, hlines, List.splitOn_intercalate '\n' hfeeds (by simp [renderTail]), hlexed]
  rw [expectedTable, hrules]
  exact readTableLines_expected hread

/-- Declared interfaces are distinct, not too many and names of interfaces, and the policy that is
rendered from them is read as the table of their expected rules. -/
theorem declared_interfaces_rendered {text : List Char} {interfaces : List (List Char)}
    (h : parseContractText text = (some interfaces, [])) :
    interfaces.Nodup ∧ interfaces.length ≤ maxInterfaces ∧
      (∀ name ∈ interfaces, isInterfaceName name = true) ∧
        readTable (renderText interfaces) = some (expectedTable interfaces) := by
  have hdeclares := declares_of_parse h
  exact ⟨hdeclares.nodup, hdeclares.atMost, fun name hname => (hdeclares.shape name hname).plain.1,
    readTable_renderText hdeclares.shape⟩

def sampleContract : List Char :=
  "# reviewed\nADMIN_INGRESS_REVIEWED=yes\nADMIN_INGRESS_INTERFACE=adminvpn0\n".toList

theorem declared_interfaces_rendered_sample :
    parseContractText sampleContract = (some ["adminvpn0".toList], []) ∧
      readTable (renderText ["adminvpn0".toList]) = some (expectedTable ["adminvpn0".toList]) := by
  have hparsed : parseContractText sampleContract = (some ["adminvpn0".toList], []) := by
    decide +kernel
  exact ⟨hparsed, (declared_interfaces_rendered hparsed).2.2.2⟩

end IngressGuard
