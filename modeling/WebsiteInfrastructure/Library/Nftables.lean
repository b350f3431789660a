import Mathlib
import WebsiteInfrastructure.Library.Json

/-!
# A fragment of the nftables language

The meaning of a base chain whose rules match the input interface and the TCP destination
port, count and end in `accept` or `drop`. Every other statement is outside the fragment.
-/

namespace Nftables

open Json Json.Value

inductive Verdict
  | accept
  | drop
  deriving DecidableEq

/-- What the fragment looks at in a TCP packet. -/
structure Packet where
  interface : Text
  port : ℕ

inductive Statement
  | interface (name : Text)
  | port (number : ℤ)
  | counter
  | verdict (v : Verdict)
  deriving DecidableEq

/-- A rule ends at the first match that fails or at its verdict. -/
def run : List Statement → Packet → Option Verdict
  | [], _ => none
  | .interface name :: rest, p => if p.interface = name then run rest p else none
  | .port number :: rest, p => if (p.port : ℤ) = number then run rest p else none
  | .counter :: rest, p => run rest p
  | .verdict v :: _, _ => some v

/-- A base chain: the first rule with a verdict decides, otherwise the policy. -/
def evaluate (policy : Verdict) (rules : List (List Statement)) (p : Packet) : Verdict :=
  (rules.findSome? (run · p)).getD policy

/-- Rules that agree on a packet decide it. -/
theorem evaluate_of_agree {policy v : Verdict} {rules : List (List Statement)} {p : Packet}
    (hagree : ∀ rule ∈ rules, ∀ w, run rule p = some w → w = v)
    (hsome : ∃ rule ∈ rules, (run rule p).isSome) : evaluate policy rules p = v := by
  obtain ⟨rule, hmem, hrule⟩ := hsome
  have hfound : (rules.findSome? (run · p)).isSome :=
    List.findSome?_isSome_iff.mpr ⟨rule, hmem, hrule⟩
  obtain ⟨w, hw⟩ := Option.isSome_iff_exists.mp hfound
  obtain ⟨found, hfoundMem, hrun⟩ := List.exists_of_findSome?_eq_some hw
  rw [evaluate, hw, Option.getD_some]
  exact hagree found hfoundMem w hrun

/-- Rules that say nothing leave the policy. -/
theorem evaluate_of_silent {policy : Verdict} {rules : List (List Statement)} {p : Packet}
    (h : ∀ rule ∈ rules, run rule p = none) : evaluate policy rules p = policy := by
  rw [evaluate, List.findSome?_eq_none_iff.mpr h, Option.getD_none]

/-! ## Reading the JSON listing -/

variable {F : Type}

/-- The verdict a statement or a chain policy names. -/
def verdictNamed : Text → Option Verdict
  | .scalar "accept" => some .accept
  | .scalar "drop" => some .drop
  | _ => none

/-- A plain interface name: no wildcard, no escape. -/
def isPlainName (name : Text) : Bool :=
  !name.points.any fun c => c = '*'.toNat || c = '\\'.toNat

/-- A match by equality with one plain operand. -/
def readMatch (operands : Value F) : Option Statement :=
  match operands.get "op", operands.get "left", operands.get "right" with
  | .str (.scalar "=="), left, right =>
    match (left.get "meta").get "key", right with
    | .str (.scalar "iifname"), .str name => if isPlainName name then some (.interface name) else none
    | _, .int number =>
      match (left.get "payload").get "protocol", (left.get "payload").get "field" with
      | .str (.scalar "tcp"), .str (.scalar "dport") => some (.port number)
      | _, _ => none
    | _, _ => none
  | _, _, _ => none

def readStatement : Value F → Option Statement
  | .obj [(.scalar "match", operands)] => readMatch operands
  | .obj [(.scalar "counter", _)] => some .counter
  | .obj [(key, .null)] => (verdictNamed key).map .verdict
  | _ => none

def readRule : Value F → Option (List Statement)
  | .arr statements => statements.mapM readStatement
  | _ => none

end Nftables
