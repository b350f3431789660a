import Mathlib
import WebsiteInfrastructure.HostFingerprint.Script

/-!
# What the fingerprints follow

The hashed texts depend on the structure, on the comment lines that carry the time, and on nothing
else. Of the structure they lose the numbers that stand in a text in the form of a counter.
-/

namespace HostFingerprint

open ShellText Sed

/-! ## Counters in a line -/

section Digits

variable {p : Char → Bool} {items : List Item}

/-- A run of a class takes digits up to a character that is none. -/
theorem matchLength_plus {run v : Line} (hne : run ≠ []) (hrun : ∀ c ∈ run, p c = true)
    (hv : v.head?.all (fun c => !p c) = true) :
    matchLength (.plus p :: items) (run ++ v) = (matchLength items v).map (· + run.length) := by
  have htake : run.takeWhile p = run := by
    rw [List.takeWhile_eq_self_iff]
    exact hrun
  have hdrop : run.dropWhile p = [] := by
    rw [List.dropWhile_eq_nil_iff]
    exact hrun
  obtain ⟨h1, h2⟩ := takeWhile_append hv run
  simp [matchLength, h1, h2, htake, hdrop, hne]

/-- Fixed characters match themselves. -/
theorem matchLength_lit (text v : Line) :
    matchLength (lit text ++ items) (text ++ v) =
      (matchLength items v).map (· + text.length) := by
  induction text with
  | nil => simp [lit]
  | cons c cs ih =>
    rw [lit] at ih
    simp only [lit, List.map_cons, List.cons_append, matchLength, decide_true, if_true, ih]
    cases matchLength items v with
    | none => rfl
    | some n => simp [Nat.add_assoc]

end Digits

theorem decimal_ne_nil (n : ℕ) : decimal n ≠ [] := Nat.toDigits_ne_nil

theorem isDigit_of_mem_decimal {n : ℕ} {c : Char} (h : c ∈ decimal n) : c.isDigit = true :=
  Nat.isDigit_of_mem_toDigits (by decide) (by decide) h

/-- A match that spans a prefix is replaced, and the rest of the line is read on its own. -/
theorem replaceAll_match {items : List Item} {replacement u v : Line} (hu : u ≠ [])
    (h : matchLength items (u ++ v) = some u.length) :
    replaceAll (fixed items replacement) (u ++ v) =
      replacement ++ replaceAll (fixed items replacement) v := by
  cases u with
  | nil => exact absurd rfl hu
  | cons c u =>
    have hmatch : fixed items replacement true (c :: (u ++ v)) = some (u.length, replacement) := by
      rw [List.cons_append, List.length_cons] at h
      simp [fixed, h]
    rw [List.cons_append, replaceAll, replaceFrom_match hmatch, replaceFrom_fixed]

theorem matchLength_counter (packets bytes : ℕ) {v : Line}
    (hv : v.head?.all (fun c => !c.isDigit) = true) :
    matchLength counterItems ((Piece.counter packets bytes).text ++ v) =
      some (Piece.counter packets bytes).text.length := by
  have hmiddle : (counterMiddle ++ (decimal bytes ++ v)).head?.all (fun c => !c.isDigit) = true :=
    rfl
  have hbytes : matchLength [.plus Char.isDigit] (decimal bytes ++ v) =
      some (decimal bytes).length := by
    rw [matchLength_plus (decimal_ne_nil _) (fun c => isDigit_of_mem_decimal) hv]
    simp [matchLength]
  simp only [Piece.text, counterItems, List.append_assoc]
  rw [matchLength_lit, List.singleton_append,
    matchLength_plus (decimal_ne_nil _) (fun c => isDigit_of_mem_decimal) hmiddle,
    matchLength_lit, hbytes]
  simp only [Option.map_some, List.length_append, Option.some.injEq]
  omega

theorem normaliseNft_counter (packets bytes : ℕ) {v : Line}
    (hv : v.head?.all (fun c => !c.isDigit) = true) :
    normaliseNft ((Piece.counter packets bytes).text ++ v) = maskedCounter ++ normaliseNft v := by
  have hne : (Piece.counter packets bytes).text ≠ [] := by
    simp [Piece.text, decimal_ne_nil]
  exact replaceAll_match hne (matchLength_counter packets bytes hv)

theorem matchLength_brackets (packets bytes : ℕ) (v : Line) :
    matchLength bracketItems (SavedTable.brackets packets bytes ++ v) =
      some (SavedTable.brackets packets bytes).length := by
  have hcolon : ([':'] ++ (decimal bytes ++ ([']'] ++ v))).head?.all (fun c => !c.isDigit) = true :=
    rfl
  have hclose : ([']'] ++ v).head?.all (fun c => !c.isDigit) = true := rfl
  have hend : matchLength (lit [']']) ([']'] ++ v) = some 1 := rfl
  simp only [SavedTable.brackets, bracketItems, List.append_assoc]
  rw [matchLength_lit, List.singleton_append (l := lit [':'] ++ _),
    matchLength_plus (decimal_ne_nil _) (fun c => isDigit_of_mem_decimal) hcolon,
    matchLength_lit, List.singleton_append (l := lit [']']),
    matchLength_plus (decimal_ne_nil _) (fun c => isDigit_of_mem_decimal) hclose, hend]
  simp only [Option.map_some, List.length_append, List.length_singleton, Option.some.injEq]
  omega

theorem normaliseIptables_brackets (packets bytes : ℕ) (v : Line) :
    normaliseIptables (SavedTable.brackets packets bytes ++ v) =
      maskedBrackets ++ normaliseIptables v := by
  have hne : SavedTable.brackets packets bytes ≠ [] := by
    simp [SavedTable.brackets]
  exact replaceAll_match hne (matchLength_brackets packets bytes v)

/-! ## Lines of the nft ruleset -/

theorem counterStart_eq : counterStart =
    ['c', 'o', 'u', 'n', 't', 'e', 'r', ' ', 'p', 'a', 'c', 'k', 'e', 't', 's', ' '] := by
  rfl

theorem counterMiddle_eq : counterMiddle = [' ', 'b', 'y', 't', 'e', 's', ' '] := by
  rfl

theorem maskedCounter_eq : maskedCounter =
    counterStart ++ '#' :: [' ', 'b', 'y', 't', 'e', 's', ' ', '#'] := by
  rfl

/-- No end of the pattern but the whole begins as it does. -/
theorem avoids_counter (w : Line) : Avoids counterItems.tail ('c' :: 'o' :: w) := by
  simp only [counterItems, counterStart_eq, counterMiddle_eq, lit, List.map_cons, List.map_nil,
    List.cons_append, List.nil_append, List.tail_cons]
  simp [Avoids, matchLength, Item.run]

theorem avoids_hash (w : Line) : Avoids counterItems.tail ('#' :: w) := by
  simp only [counterItems, counterStart_eq, counterMiddle_eq, lit, List.map_cons, List.map_nil,
    List.cons_append, List.nil_append, List.tail_cons]
  simp [Avoids, matchLength, Item.run]

theorem normaliseNft_append {w : Line} (h : Avoids counterItems.tail w) (u : Line) :
    normaliseNft (u ++ w) = normaliseNft u ++ normaliseNft w :=
  replaceAll_append h maskedCounter u

theorem normaliseNft_cons {c : Char} (hc : c ≠ 'c') (cs : Line) :
    normaliseNft (c :: cs) = c :: normaliseNft cs := by
  have hclass : decide (c = 'c') = false := by simpa using hc
  have hkept : replaceFrom (fixed counterItems maskedCounter) true 0 (c :: cs) = _ :=
    replaceFrom_fixed_cons hclass cs
  rwa [replaceFrom_fixed _ _ false] at hkept

theorem normaliseNft_counterStart : normaliseNft counterStart = counterStart := by
  decide

theorem normaliseNft_masked (v : Line) :
    normaliseNft (maskedCounter ++ v) = maskedCounter ++ normaliseNft v := by
  rw [maskedCounter_eq, List.append_assoc, List.cons_append, normaliseNft_append (avoids_hash _),
    normaliseNft_counterStart]
  simp only [List.cons_append, List.nil_append]
  repeat rw [normaliseNft_cons (by decide)]
  simp

/-- A line with its counters masked. -/
def shapeText : Option Char → Line
  | some c => [c]
  | none => maskedCounter

theorem head_flatMap_text {ps : List Piece} (h : ps.head?.all Piece.startsNoDigit = true) :
    (ps.flatMap Piece.text).head?.all (fun c => !c.isDigit) = true := by
  cases ps with
  | nil => rfl
  | cons piece ps =>
    cases piece with
    | char c => simpa [Piece.text, Piece.startsNoDigit] using h
    | counter packets bytes => simp [Piece.text, counterStart_eq]

theorem counter_starts (packets bytes : ℕ) (v : Line) :
    ∃ w, (Piece.counter packets bytes).text ++ v = 'c' :: 'o' :: w := by
  simp [Piece.text, counterStart_eq]

/-- The counts of a line do not get through. -/
theorem normaliseNft_flatMap {ps : List Piece} (h : separated ps = true) (u : Line) :
    normaliseNft (u ++ ps.flatMap Piece.text) =
      normaliseNft (u ++ (ps.map Piece.shape).flatMap shapeText) := by
  induction ps generalizing u with
  | nil => rfl
  | cons piece ps ih =>
    cases piece with
    | char c =>
      have hrest := ih h (u ++ [c])
      simpa [Piece.text, Piece.shape, shapeText] using hrest
    | counter packets bytes =>
      rw [separated, Bool.and_eq_true] at h
      have hrest := ih h.2 []
      obtain ⟨w, hw⟩ := counter_starts packets bytes (ps.flatMap Piece.text)
      have hcounter : Avoids counterItems.tail
          ((Piece.counter packets bytes).text ++ ps.flatMap Piece.text) := by
        rw [hw]
        exact avoids_counter w
      have hmasked : Avoids counterItems.tail
          (maskedCounter ++ (ps.map Piece.shape).flatMap shapeText) := by
        rw [maskedCounter_eq, counterStart_eq]
        exact avoids_counter _
      rw [List.flatMap_cons, List.map_cons, List.flatMap_cons, normaliseNft_append hcounter,
        normaliseNft_counter packets bytes (head_flatMap_text h.1)]
      rw [show shapeText (Piece.counter packets bytes).shape = maskedCounter from rfl,
        normaliseNft_append hmasked, normaliseNft_masked]
      exact congrArg (fun x => normaliseNft u ++ (maskedCounter ++ x)) hrest

/-! ## Lines of a saved table -/

theorem avoids_brackets (v : Line) : Avoids bracketItems.tail ('[' :: v) := by
  simp [Avoids, bracketItems, lit, matchLength, Item.run]

theorem normaliseIptables_cons {c : Char} (hc : c ≠ '[') (cs : Line) :
    normaliseIptables (c :: cs) = c :: normaliseIptables cs := by
  have hclass : decide (c = '[') = false := by simpa using hc
  have hkept : replaceFrom (fixed bracketItems maskedBrackets) true 0 (c :: cs) = _ :=
    replaceFrom_fixed_cons hclass cs
  rwa [replaceFrom_fixed _ _ false] at hkept

/-- Text without an opening bracket stays. -/
theorem normaliseIptables_append {a : Line} (ha : '[' ∉ a) (s : Line) :
    normaliseIptables (a ++ s) = a ++ normaliseIptables s := by
  induction a with
  | nil => rfl
  | cons c a ih =>
    obtain ⟨hc, ha⟩ := not_or.mp (List.mem_cons.not.mp ha)
    rw [List.cons_append, normaliseIptables_cons (Ne.symm hc), ih ha, List.cons_append]

/-- The counts of a chain do not get through. -/
theorem normaliseIptables_chainLine (c : Chain × ℕ × ℕ) :
    normaliseIptables (SavedTable.chainLine c) =
      ':' :: (normaliseIptables (c.1.name ++ ' ' :: c.1.policy ++ [' ']) ++ maskedBrackets) := by
  have hstart : SavedTable.brackets c.2.1 c.2.2 =
      '[' :: (decimal c.2.1 ++ [':'] ++ decimal c.2.2 ++ [']']) := by
    simp [SavedTable.brackets]
  have havoids : Avoids bracketItems.tail (SavedTable.brackets c.2.1 c.2.2) := by
    rw [hstart]
    exact avoids_brackets _
  have hparts : normaliseIptables (c.1.name ++ ' ' :: c.1.policy ++ [' '] ++
      SavedTable.brackets c.2.1 c.2.2) = _ :=
    replaceAll_append havoids maskedBrackets (c.1.name ++ ' ' :: c.1.policy ++ [' '])
  have hbrackets := normaliseIptables_brackets c.2.1 c.2.2 []
  rw [List.append_nil] at hbrackets
  rw [SavedTable.chainLine, normaliseIptables_cons (by decide), hparts]
  exact congrArg (fun x => ':' :: (normaliseIptables _ ++ x)) hbrackets

/-! ## What the digests see -/

/-- The lines of a table after the normalisation. -/
structure Blurred where
  name : Line
  chains : List Line
  rules : List Line
  deriving DecidableEq

def blurTable (t : Table) : Blurred where
  name := normaliseIptables t.name
  chains := t.chains.map fun c => normaliseIptables (c.name ++ ' ' :: c.policy ++ [' '])
  rules := t.rules.map normaliseIptables

/-- A structure up to numbers that stand in its texts as a counter would. -/
def blur (s : Structure) :
    Line × Line × List Line × List Blurred × List Blurred :=
  (s.rules, s.routes, s.nft.map fun l => normaliseNft (l.flatMap shapeText),
    s.iptables4.map blurTable, s.iptables6.map blurTable)

/-- The comment lines of a table. -/
def tableComments (t : SavedTable) : Line × Line :=
  (normaliseIptables t.generated, normaliseIptables t.completed)

def comments (c : Capture) : List (Line × Line) × List (Line × Line) :=
  (c.iptables4.tables.map tableComments, c.iptables6.tables.map tableComments)

/-- The lines of a normalised table. -/
def blurredLines (b : Blurred) (remarks : Line × Line) : List Line :=
  ["# Generated by ".toList ++ remarks.1, '*' :: b.name] ++
    (b.chains.map fun c => ':' :: (c ++ maskedBrackets)) ++ b.rules.map ("-A ".toList ++ ·) ++
    ["COMMIT".toList, "# Completed on ".toList ++ remarks.2]

theorem map_normaliseIptables_lines (t : SavedTable) :
    t.lines.map normaliseIptables = blurredLines (blurTable t.table) (tableComments t) := by
  have hgenerated : '[' ∉ "# Generated by ".toList := by decide
  have hcompleted : '[' ∉ "# Completed on ".toList := by decide
  have hrule : '[' ∉ "-A ".toList := by decide
  have hcommit : normaliseIptables "COMMIT".toList = "COMMIT".toList := by decide
  simp only [SavedTable.lines, blurredLines, blurTable, SavedTable.table, tableComments,
    List.map_append, List.map_cons, List.map_nil, List.map_map,
    normaliseIptables_append hgenerated, normaliseIptables_append hcompleted, hcommit,
    normaliseIptables_cons (show '*' ≠ '[' by decide)]
  congr 3
  · congr 1
    funext c
    exact normaliseIptables_chainLine c
  · funext rule
    exact normaliseIptables_append hrule rule

section Injective

/-- Two runs of lines that start alike, each followed by a line that starts otherwise. -/
theorem append_inj_of_head {p : Line → Bool} {xs ys as bs : List Line}
    (hx : ∀ x ∈ xs, p x = true) (hy : ∀ y ∈ ys, p y = true)
    (ha : as.head?.all (fun l => !p l) = true) (hb : bs.head?.all (fun l => !p l) = true)
    (h : xs ++ as = ys ++ bs) : xs = ys ∧ as = bs := by
  have hrun : ∀ {zs cs : List Line}, (∀ z ∈ zs, p z = true) →
      cs.head?.all (fun l => !p l) = true → (zs ++ cs).takeWhile p = zs := by
    intro zs cs hz hc
    rw [List.takeWhile_append_of_pos hz]
    cases cs with
    | nil => simp
    | cons c cs =>
      have hstop : p c = false := by simpa using hc
      simp [hstop]
  have hxs : xs = ys := by
    rw [← hrun hx ha, h, hrun hy hb]
  subst hxs
  exact ⟨rfl, List.append_cancel_left h⟩

theorem blurredLines_inj {b c : Blurred} {r s : Line × Line} {X Y : List Line}
    (h : blurredLines b r ++ X = blurredLines c s ++ Y) : b = c ∧ r = s ∧ X = Y := by
  obtain ⟨bname, bchains, brules⟩ := b
  obtain ⟨cname, cchains, crules⟩ := c
  obtain ⟨rgenerated, rcompleted⟩ := r
  obtain ⟨sgenerated, scompleted⟩ := s
  simp only [blurredLines, List.cons_append, List.nil_append, List.append_assoc,
    List.cons.injEq, true_and] at h
  obtain ⟨hgenerated, hname, hrest⟩ := h
  have hchainStart : ∀ chains : List Line, ∀ l ∈ chains.map fun c => ':' :: (c ++ maskedBrackets),
      decide (l.head? = some ':') = true := by
    intro chains l hl
    obtain ⟨c, -, rfl⟩ := List.mem_map.mp hl
    rfl
  have hruleStart : ∀ rules : List Line, ∀ l ∈ rules.map ("-A ".toList ++ ·),
      decide (l.head? = some '-') = true := by
    intro rules l hl
    obtain ⟨rule, -, rfl⟩ := List.mem_map.mp hl
    rfl
  have hafter : ∀ (rules : List Line) (Z : List Line), (rules.map ("-A ".toList ++ ·) ++
      "COMMIT".toList :: Z).head?.all (fun l => !decide (l.head? = some ':')) = true := by
    intro rules Z
    cases rules <;> rfl
  obtain ⟨hchainLines, hbehind⟩ := append_inj_of_head (hchainStart _) (hchainStart _)
    (hafter _ _) (hafter _ _) hrest
  obtain ⟨hruleLines, hend⟩ := append_inj_of_head (hruleStart _) (hruleStart _) rfl rfl hbehind
  simp only [List.cons.injEq, true_and] at hend
  have hchains : bchains = cchains := by
    apply List.map_injective_iff.mpr _ hchainLines
    intro x y hxy
    exact List.append_cancel_right (List.cons.inj hxy).2
  have hrules : brules = crules := by
    apply List.map_injective_iff.mpr _ hruleLines
    intro x y hxy
    exact List.append_cancel_left hxy
  rw [hname, hchains, hrules, List.append_cancel_left hgenerated,
    List.append_cancel_left hend.1]
  exact ⟨rfl, rfl, hend.2⟩

theorem flatMap_blurredLines_inj {bs cs : List (Blurred × Line × Line)}
    (h : bs.flatMap (fun b => blurredLines b.1 b.2) = cs.flatMap fun c => blurredLines c.1 c.2) :
    bs = cs := by
  induction bs generalizing cs with
  | nil =>
    cases cs with
    | nil => rfl
    | cons c cs => simp [blurredLines] at h
  | cons b bs ih =>
    cases cs with
    | nil => simp [blurredLines] at h
    | cons c cs =>
      rw [List.flatMap_cons, List.flatMap_cons] at h
      obtain ⟨hfirst, hsecond, hrest⟩ := blurredLines_inj h
      rw [Prod.ext hfirst hsecond, ih hrest]

theorem unlines_inj {xs ys : List Line} (hx : ∀ l ∈ xs, '\n' ∉ l) (hy : ∀ l ∈ ys, '\n' ∉ l)
    (h : unlines xs = unlines ys) : xs = ys := by
  have hsplit := congrArg (List.splitOn '\n') h
  rw [splitOn_unlines hx, splitOn_unlines hy] at hsplit
  exact List.append_cancel_right hsplit

end Injective

theorem clean_normalised {items : List Item} {replacement : Line} {ls : List Line}
    (hreplacement : '\n' ∉ replacement) (hls : ∀ l ∈ ls, '\n' ∉ l) :
    ∀ l ∈ ls.map (replaceAll (fixed items replacement)), '\n' ∉ l := by
  intro l hl hmem
  obtain ⟨k, hk, rfl⟩ := List.mem_map.mp hl
  rcases mem_replaceAll_fixed hmem with hline | hmask
  · exact hls k hk hline
  · exact hreplacement hmask

theorem clean_nftLines (n : NftRuleset) : ∀ l ∈ nftLines n, '\n' ∉ l := by
  intro l hl hmem
  obtain ⟨ps, hps, rfl⟩ := List.mem_map.mp hl
  obtain ⟨piece, hpiece, hmem⟩ := List.mem_flatMap.mp hmem
  cases piece with
  | char c =>
    rw [Piece.text, List.mem_singleton] at hmem
    subst hmem
    exact n.clean ps hps hpiece
  | counter packets bytes =>
    have hdecimal : ∀ k, '\n' ∉ decimal k := by
      intro k hk
      have hdigit := isDigit_of_mem_decimal hk
      revert hdigit
      decide
    simp [Piece.text, counterStart_eq, counterMiddle_eq, hdecimal] at hmem

theorem nft_input_eq (n : NftRuleset) :
    (nftLines n).map normaliseNft =
      (n.lines.map (·.map Piece.shape)).map fun l => normaliseNft (l.flatMap shapeText) := by
  simp only [nftLines, List.map_map]
  apply List.map_congr_left
  intro ps hps
  exact normaliseNft_flatMap (n.separated ps hps) []

theorem iptables_input_eq (s : IptablesSave) :
    (saveLines s).map normaliseIptables =
      (s.tables.map fun t => (blurTable t.table, tableComments t)).flatMap
        fun b => blurredLines b.1 b.2 := by
  rw [saveLines, List.map_flatMap, List.flatMap_map]
  apply List.flatMap_congr
  intro t ht
  exact map_normaliseIptables_lines t

theorem iptables_input_iff (s t : IptablesSave) :
    unlines ((saveLines s).map normaliseIptables) = unlines ((saveLines t).map normaliseIptables) ↔
      (s.tables.map SavedTable.table).map blurTable = (t.tables.map SavedTable.table).map blurTable ∧
        s.tables.map tableComments = t.tables.map tableComments := by
  have hmask : '\n' ∉ maskedBrackets := by decide
  have hzip : ∀ us vs : List SavedTable,
      us.map (fun t => (blurTable t.table, tableComments t)) =
          vs.map (fun t => (blurTable t.table, tableComments t)) ↔
        (us.map SavedTable.table).map blurTable = (vs.map SavedTable.table).map blurTable ∧
          us.map tableComments = vs.map tableComments := by
    intro us vs
    induction us generalizing vs with
    | nil => cases vs <;> simp
    | cons u us ih =>
      cases vs with
      | nil => simp
      | cons v vs =>
        simp only [List.map_cons, List.cons.injEq, Prod.mk.injEq, ih vs]
        tauto
  rw [← hzip]
  constructor
  · intro h
    have hlines : (saveLines s).map normaliseIptables = (saveLines t).map normaliseIptables :=
      unlines_inj (clean_normalised hmask s.clean) (clean_normalised hmask t.clean) h
    rw [iptables_input_eq, iptables_input_eq] at hlines
    exact flatMap_blurredLines_inj hlines
  · intro h
    rw [iptables_input_eq, iptables_input_eq, h]

theorem nft_input_iff (m n : NftRuleset) :
    unlines ((nftLines m).map normaliseNft) = unlines ((nftLines n).map normaliseNft) ↔
      ((m.lines.map (·.map Piece.shape)).map fun l => normaliseNft (l.flatMap shapeText)) =
        (n.lines.map (·.map Piece.shape)).map fun l => normaliseNft (l.flatMap shapeText) := by
  have hmask : '\n' ∉ maskedCounter := by decide
  rw [← nft_input_eq, ← nft_input_eq]
  constructor
  · exact unlines_inj (clean_normalised hmask (clean_nftLines m))
      (clean_normalised hmask (clean_nftLines n))
  · exact congrArg unlines

/-- What the script hashes, it hashes of the blurred structure and the comment lines. -/
theorem inputs_eq_iff (s t : Capture) :
    inputs s = inputs t ↔
      blur (structureOf s) = blur (structureOf t) ∧ comments s = comments t := by
  simp only [inputs, List.cons.injEq, Prod.mk.injEq, true_and, and_true, blur, structureOf,
    comments, nft_input_iff, iptables_input_iff]
  tauto

/-! ## Drift -/

section Drift

variable {Digest : Type} {sha256 : Line → Digest}

theorem fingerprints_eq_iff (hinj : Function.Injective sha256) (s t : Capture) :
    fingerprints sha256 s = fingerprints sha256 t ↔ inputs s = inputs t := by
  constructor
  · intro h
    simp only [fingerprints, inputs, List.map_cons, List.map_nil, List.cons.injEq,
      Prod.mk.injEq, true_and, and_true] at h ⊢
    obtain ⟨hrules, hroutes, hnft, htables4, htables6⟩ := h
    exact ⟨hinj hrules, hinj hroutes, hinj hnft, hinj htables4, hinj htables6⟩
  · intro h
    rw [fingerprints, h]
    rfl

theorem keys_nodup :
    [ipRulesKey, ipRoutesKey, nftRulesetKey, iptables4Key, iptables6Key].Nodup := by
  decide

variable [DecidableEq Digest]

/-- The preflight is silent exactly when the five digests are the reviewed ones. -/
theorem preflight_eq_nil_iff (s t : Capture) :
    preflight (fingerprints sha256 s) (fingerprints sha256 t) = [] ↔
      fingerprints sha256 s = fingerprints sha256 t := by
  have hkeys := keys_nodup
  simp only [preflight, fingerprints, inputs, List.map_cons, List.map_nil]
  -- only that the keys differ matters
  generalize ipRulesKey = k₁ at hkeys ⊢
  generalize ipRoutesKey = k₂ at hkeys ⊢
  generalize nftRulesetKey = k₃ at hkeys ⊢
  generalize iptables4Key = k₄ at hkeys ⊢
  generalize iptables6Key = k₅ at hkeys ⊢
  simp only [List.nodup_cons, List.mem_cons, List.not_mem_nil, or_false, not_or] at hkeys
  obtain ⟨⟨h₁₂, h₁₃, h₁₄, h₁₅⟩, ⟨h₂₃, h₂₄, h₂₅⟩, ⟨h₃₄, h₃₅⟩, h₄₅, -⟩ := hkeys
  have hbeq : ∀ {a b : String}, ¬ a = b → (b == a) = false := by
    intro a b h
    exact beq_eq_false_iff_ne.mpr (Ne.symm h)
  simp [List.lookup_cons, hbeq h₁₂, hbeq h₁₃, hbeq h₁₄, hbeq h₁₅, hbeq h₂₃, hbeq h₂₄, hbeq h₂₅,
    hbeq h₃₄, hbeq h₃₅, hbeq h₄₅]
  constructor
  · rintro ⟨hrules, hroutes, hnft, htables4, htables6⟩
    exact ⟨hrules.symm, hroutes.symm, hnft.symm, htables4.symm, htables6.symm⟩
  · rintro ⟨hrules, hroutes, hnft, htables4, htables6⟩
    exact ⟨hrules.symm, hroutes.symm, hnft.symm, htables4.symm, htables6.symm⟩

/-- The digests are stable and discriminating between two runs. -/
structure TracksStructure (sha256 : Line → Digest) (s t : Capture) : Prop where
  stable : structureOf s = structureOf t → fingerprints sha256 s = fingerprints sha256 t
  discriminating : structureOf s ≠ structureOf t → inputs s ≠ inputs t
  drift : preflight (fingerprints sha256 s) (fingerprints sha256 t) ≠ [] ↔
    structureOf s ≠ structureOf t

/-- The comment lines agree when the structures do, and a difference of the structures is more than
numbers in the form of a counter. -/
structure Visible (s t : Capture) : Prop where
  comments_eq : structureOf s = structureOf t → comments s = comments t
  differs : structureOf s ≠ structureOf t →
    blur (structureOf s) ≠ blur (structureOf t) ∨ comments s ≠ comments t

theorem tracksStructure_iff (hinj : Function.Injective sha256) (s t : Capture) :
    TracksStructure sha256 s t ↔ Visible s t := by
  have hdigests := fingerprints_eq_iff hinj s t
  have hinputs := inputs_eq_iff s t
  constructor
  · intro h
    constructor
    · intro hsame
      exact (hinputs.mp (hdigests.mp (h.stable hsame))).2
    · intro hdiffer
      have hne := h.discriminating hdiffer
      rw [Ne, hinputs, not_and_or] at hne
      exact hne
  · intro h
    have hstable : structureOf s = structureOf t → inputs s = inputs t := by
      intro hsame
      exact hinputs.mpr ⟨congrArg blur hsame, h.comments_eq hsame⟩
    have hdiscriminating : structureOf s ≠ structureOf t → inputs s ≠ inputs t := by
      intro hdiffer hsame
      obtain ⟨hblur, hcomments⟩ := hinputs.mp hsame
      rcases h.differs hdiffer with hne | hne
      · exact hne hblur
      · exact hne hcomments
    refine ⟨fun hsame => hdigests.mpr (hstable hsame), hdiscriminating, ?_⟩
    rw [Ne, preflight_eq_nil_iff, hdigests]
    exact ⟨fun hne hsame => hne (hstable hsame), hdiscriminating⟩

end Drift

/-! ## The comment lines -/

section Sample

/-- One empty table, saved at some time. -/
def savedAt (time : Line) : IptablesSave where
  tables := [⟨"iptables-save on ".toList ++ time.filter (· ≠ '\n'), "filter".toList, [], [], []⟩]
  clean := by
    have hstart : '\n' ∉ "# Generated by ".toList ++ "iptables-save on ".toList := by decide
    have hname : '\n' ∉ '*' :: "filter".toList := by decide
    have hend : '\n' ∉ "# Completed on ".toList := by decide
    have hcommit : '\n' ∉ "COMMIT".toList := by decide
    intro l hl
    simp only [List.flatMap_cons, List.flatMap_nil, List.append_nil, SavedTable.lines,
      List.map_nil, List.mem_append, List.mem_cons, List.not_mem_nil, or_false] at hl
    rcases hl with (rfl | rfl) | rfl | rfl
    · rw [← List.append_assoc, List.mem_append, not_or]
      exact ⟨hstart, by simp⟩
    · exact hname
    · exact hcommit
    · exact hend

def capturedAt (time : Line) : Capture where
  rules := []
  routes := []
  nft := ⟨[], by simp, by simp⟩
  iptables4 := savedAt time
  iptables6 := ⟨[], by simp⟩

/-- The same rules give different digests one second later. -/
theorem time_changes_digest :
    ¬ ∀ sha256 : Line → Line, Function.Injective sha256 →
      ∀ s t : Capture, TracksStructure sha256 s t := by
  intro h
  have hstable := (h id Function.injective_id (capturedAt ['1']) (capturedAt ['2'])).stable rfl
  revert hstable
  decide

theorem tracksStructure_sample :
    TracksStructure id (capturedAt ['1']) (capturedAt ['1']) ↔
      Visible (capturedAt ['1']) (capturedAt ['1']) :=
  tracksStructure_iff Function.injective_id _ _

end Sample

end HostFingerprint
