import Mathlib
import WebsiteInfrastructure.Library.Nftables
import WebsiteInfrastructure.Library.ShellLines

/-!
# The text of an nftables policy

Words, quoted names and brackets of one line, and the lines of a policy that declares one table with
one base chain whose rules are of the fragment.
-/

namespace Nftables

open PythonText

/-! ## The words of a line -/

inductive Token
  | word (text : String)
  | quoted (text : String)
  | opening
  | closing
  | semicolon
  deriving DecidableEq

/-- Where the reader of a line stands -/
inductive Mode
  | between
  | word (sofar : List Char)
  | quote (sofar : List Char)

def isWordChar (c : Char) : Bool := c.isAlphanum || c ∈ ['_', '.', '-', '/']

/-- What ends a word, and the token that it is itself -/
def delimiter? : Char → Option (List Token)
  | ' ' => some []
  | '\t' => some []
  | '{' => some [.opening]
  | '}' => some [.closing]
  | ';' => some [.semicolon]
  | _ => none

/-- The tokens of a line; a comment runs to its end, and a quoted name does not. -/
def lex : Mode → List Char → Option (List Token)
  | .between, [] => some []
  | .word w, [] => some [.word (String.ofList w)]
  | .quote _, [] => none
  | .between, c :: cs =>
    if c = '#' then some []
    else if c = '"' then lex (.quote []) cs
    else if isWordChar c then lex (.word [c]) cs
    else do
      let tokens ← delimiter? c
      let rest ← lex .between cs
      some (tokens ++ rest)
  | .word w, c :: cs =>
    if isWordChar c then lex (.word (w ++ [c])) cs
    else do
      let tokens ← delimiter? c
      let rest ← lex .between cs
      some (.word (String.ofList w) :: (tokens ++ rest))
  | .quote q, c :: cs =>
    if c = '"' then do
      let rest ← lex .between cs
      some (.quoted (String.ofList q) :: rest)
    else lex (.quote (q ++ [c])) cs

/-- The tokens of the lines that have any -/
def lexLines : List (List Char) → Option (List (List Token))
  | [] => some []
  | line :: lines => do
    let tokens ← lex .between line
    let rest ← lexLines lines
    some (if tokens = [] then rest else tokens :: rest)

theorem lex_quote {q name rest : List Char} (h : '"' ∉ name) :
    lex (.quote q) (name ++ '"' :: rest) =
      (lex .between rest).map (.quoted (String.ofList (q ++ name)) :: ·) := by
  induction name generalizing q with
  | nil =>
    rw [List.nil_append, List.append_nil, lex, if_pos rfl]
    cases lex .between rest <;> rfl
  | cons c name ih =>
    rw [List.mem_cons, not_or] at h
    rw [List.cons_append, lex, if_neg (Ne.symm h.1), ih h.2, List.append_assoc]
    rfl

theorem lexLines_append (a b : List (List Char)) :
    lexLines (a ++ b) = (lexLines a).bind fun tokens => (lexLines b).map (tokens ++ ·) := by
  induction a with
  | nil => simp [lexLines]
  | cons line a ih =>
    rw [List.cons_append, lexLines, lexLines, ih]
    cases lex .between line with
    | none => rfl
    | some tokens =>
      cases lexLines a with
      | none => rfl
      | some rest =>
        cases lexLines b with
        | none => rfl
        | some more =>
          by_cases hnil : tokens = [] <;> simp [hnil]

theorem lexLines_map {α : Type} {line : α → List Char} {tokens : α → List Token} {xs : List α}
    (h : ∀ x ∈ xs, lex .between (line x) = some (tokens x)) (hne : ∀ x, tokens x ≠ []) :
    lexLines (xs.map line) = some (xs.map tokens) := by
  induction xs with
  | nil => rfl
  | cons x xs ih =>
    rw [List.forall_mem_cons] at h
    rw [List.map_cons, lexLines, h.1, ih h.2]
    simp [hne x]

/-! ## Rules and tables -/

/-- A name that the kernel takes for an interface, without the wildcard and the escape of `nft` -/
def isInterfaceName (name : List Char) : Bool :=
  name ≠ [] && name.length ≤ 15 && name ≠ ['.'] && name ≠ ['.', '.'] &&
    name.all fun c => !isSpace c && !(c ∈ ['/', ':', '*', '\\'])

def readStatements : List Token → Option (List Statement)
  | [] => some []
  | .word "iifname" :: .quoted name :: rest => do
    let others ← readStatements rest
    if isInterfaceName name.toList then some (.interface (.scalar name) :: others) else none
  | .word "tcp" :: .word "dport" :: .word port :: rest => do
    let number ← canonicalDecimal port.toList
    let others ← readStatements rest
    if number < 65536 then some (.port number :: others) else none
  | .word "counter" :: rest => do
    let others ← readStatements rest
    some (.counter :: others)
  | .word "accept" :: rest => do
    let others ← readStatements rest
    some (.verdict .accept :: others)
  | .word "drop" :: rest => do
    let others ← readStatements rest
    some (.verdict .drop :: others)
  | _ => none

/-- The rules of a chain, and what stands behind the end of the chain -/
def readRules : List (List Token) → Option (List (List Statement) × List (List Token))
  | [] => none
  | [.closing] :: rest => some ([], rest)
  | line :: lines => do
    let rule ← readStatements line
    let (rules, rest) ← readRules lines
    some (rule :: rules, rest)

/-- A table with one base chain -/
structure Table where
  family : String
  name : String
  chain : String
  kind : String
  hook : String
  priority : String
  policy : String
  rules : List (List Statement)
  deriving DecidableEq

def readTableLines : List (List Token) → Option Table
  | [.word "table", .word family, .word name, .opening] :: [.word "chain", .word chain, .opening] ::
      [.word "type", .word kind, .word "hook", .word hook, .word "priority", .word priority,
        .semicolon, .word "policy", .word policy, .semicolon] :: lines => do
    let (rules, rest) ← readRules lines
    if rest = [[.closing]] then some ⟨family, name, chain, kind, hook, priority, policy, rules⟩
    else none
  | _ => none

/-- What `nft -f` takes the text for, if it is of this fragment. -/
def readTable (text : List Char) : Option Table := do
  let lines ← lexLines (text.splitOn '\n')
  readTableLines lines

theorem readRules_append {α : Type} {tokens : α → List Token} {statements : α → List Statement}
    {xs : List α} (h : ∀ x ∈ xs, readStatements (tokens x) = some (statements x))
    (hne : ∀ x, tokens x ≠ [.closing]) (rest : List (List Token)) :
    readRules (xs.map tokens ++ [.closing] :: rest) = some (xs.map statements, rest) := by
  induction xs with
  | nil => rfl
  | cons x xs ih =>
    rw [List.forall_mem_cons] at h
    rw [List.map_cons, List.cons_append, readRules, h.1, ih h.2]
    · rfl
    · exact hne x

end Nftables
