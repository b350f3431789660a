import Mathlib
import WebsiteInfrastructure.Library.Sed
import WebsiteInfrastructure.Library.ShellLines

/-!
# Fingerprints of the routing and firewall state

`fingerprint_pi_state.sh` and the part of `preflight.sh` that compares its digests with the
reviewed ones. The state is kept as the tools print it, with the counters and the comment lines
apart from what the administrator has set.
-/

namespace HostFingerprint

open ShellText Sed

abbrev Line := Sed.Text

/-! ## What the tools print -/

/-- A counter value in decimal digits. -/
def decimal (n : ℕ) : Line := Nat.toDigits 10 n

def counterStart : Line := "counter packets ".toList

def counterMiddle : Line := " bytes ".toList

/-- A piece of a line of `nft list ruleset`. -/
inductive Piece
  | char (c : Char)
  | counter (packets bytes : ℕ)

namespace Piece

def text : Piece → Line
  | char c => [c]
  | counter packets bytes =>
    counterStart ++ decimal packets ++ counterMiddle ++ decimal bytes

/-- The piece without its counts. -/
def shape : Piece → Option Char
  | char c => some c
  | counter _ _ => none

end Piece

def Piece.startsNoDigit : Piece → Bool
  | char c => !c.isDigit
  | counter _ _ => true

/-- No digit stands directly behind a counter. -/
def separated : List Piece → Bool
  | [] => true
  | .char _ :: ps => separated ps
  | .counter _ _ :: ps => ps.head?.all Piece.startsNoDigit && separated ps

structure NftRuleset where
  lines : List (List Piece)
  separated : ∀ l ∈ lines, separated l = true
  clean : ∀ l ∈ lines, .char '\n' ∉ l

/-- `:name policy [packets:bytes]` -/
structure Chain where
  name : Line
  policy : Line
  deriving DecidableEq

structure Table where
  name : Line
  chains : List Chain
  rules : List Line
  deriving DecidableEq

/-- A table as `iptables-save` prints it. -/
structure SavedTable where
  /-- What follows `# Generated by`. -/
  generated : Line
  name : Line
  chains : List (Chain × ℕ × ℕ)
  rules : List Line
  /-- What follows `# Completed on`. -/
  completed : Line

namespace SavedTable

def table (t : SavedTable) : Table := ⟨t.name, t.chains.map Prod.fst, t.rules⟩

def brackets (packets bytes : ℕ) : Line :=
  ['['] ++ decimal packets ++ [':'] ++ decimal bytes ++ [']']

def chainLine (c : Chain × ℕ × ℕ) : Line :=
  ':' :: (c.1.name ++ ' ' :: c.1.policy ++ [' '] ++ brackets c.2.1 c.2.2)

def lines (t : SavedTable) : List Line :=
  ["# Generated by ".toList ++ t.generated, '*' :: t.name] ++ t.chains.map chainLine ++
    t.rules.map ("-A ".toList ++ ·) ++ ["COMMIT".toList, "# Completed on ".toList ++ t.completed]

end SavedTable

structure IptablesSave where
  tables : List SavedTable
  clean : ∀ l ∈ tables.flatMap SavedTable.lines, '\n' ∉ l

/-- What one run of the script reads. -/
structure Capture where
  rules : Line
  routes : Line
  nft : NftRuleset
  iptables4 : IptablesSave
  iptables6 : IptablesSave

/-! ## Normalisation -/

/-- `s/counter packets [0-9]+ bytes [0-9]+/counter packets # bytes #/g` -/
def counterItems : List Item :=
  lit counterStart ++ [.plus Char.isDigit] ++ lit counterMiddle ++ [.plus Char.isDigit]

def maskedCounter : Line := "counter packets # bytes #".toList

def normaliseNft (line : Line) : Line := replaceAll (fixed counterItems maskedCounter) line

/-- `s/\[[0-9]+:[0-9]+\]/[#:#]/g` -/
def bracketItems : List Item :=
  lit ['['] ++ [.plus Char.isDigit] ++ lit [':'] ++ [.plus Char.isDigit] ++ lit [']']

def maskedBrackets : Line := "[#:#]".toList

def normaliseIptables (line : Line) : Line := replaceAll (fixed bracketItems maskedBrackets) line

/-! ## Digests -/

def ipRulesKey : String := "DISCOVERY_IP_RULES_SHA256"
def ipRoutesKey : String := "DISCOVERY_IP_ROUTES_SHA256"
def nftRulesetKey : String := "DISCOVERY_NFT_RULESET_SHA256"
def iptables4Key : String := "DISCOVERY_IPTABLES4_SHA256"
def iptables6Key : String := "DISCOVERY_IPTABLES6_SHA256"

def nftLines (n : NftRuleset) : List Line := n.lines.map (·.flatMap Piece.text)

def saveLines (s : IptablesSave) : List Line := s.tables.flatMap SavedTable.lines

/-- The five files that are hashed. -/
def inputs (c : Capture) : List (String × Line) :=
  [(ipRulesKey, c.rules),
   (ipRoutesKey, c.routes),
   (nftRulesetKey, unlines ((nftLines c.nft).map normaliseNft)),
   (iptables4Key, unlines ((saveLines c.iptables4).map normaliseIptables)),
   (iptables6Key, unlines ((saveLines c.iptables6).map normaliseIptables))]

/-- The `KEY=digest` lines that the script prints. -/
def fingerprints {Digest : Type} (sha256 : Line → Digest) (c : Capture) : List (String × Digest) :=
  (inputs c).map fun e => (e.1, sha256 e.2)

/-- The failures that `preflight.sh` reports when it reads the fingerprints again. -/
def preflight {Digest : Type} [DecidableEq Digest] (decided current : List (String × Digest)) :
    List String :=
  [ipRulesKey, ipRoutesKey, nftRulesetKey, iptables4Key, iptables6Key].filterMap fun key =>
    match current.lookup key with
    | none => some s!"current {key} is unavailable"
    | some digest =>
      if some digest = decided.lookup key then none
      else some s!"{key} changed since reviewed discovery"

/-! ## What must not change -/

/-- The state without counts and comment lines. -/
structure Structure where
  rules : Line
  routes : Line
  nft : List (List (Option Char))
  iptables4 : List Table
  iptables6 : List Table
  deriving DecidableEq

def structureOf (c : Capture) : Structure where
  rules := c.rules
  routes := c.routes
  nft := c.nft.lines.map (·.map Piece.shape)
  iptables4 := c.iptables4.tables.map SavedTable.table
  iptables6 := c.iptables6.tables.map SavedTable.table

end HostFingerprint
