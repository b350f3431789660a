import Mathlib
import WebsiteInfrastructure.Library.JsonText
import WebsiteInfrastructure.Library.PythonText
import WebsiteInfrastructure.Library.Raising

/-!
# Reading JSON back

`loads` inverts `dumps` on values whose texts need no escape, and what it returns has the keys
of its dicts in order.
-/

namespace Json

open PythonText Raising

variable {F : Type}

/-! ## Values whose texts need no escape -/

def isPlainChar (c : Char) : Bool :=
  0x20 ≤ c.toNat && c.toNat < 0x7f && c != '"' && c != '\\'

def Text.isPlain : Text → Bool
  | .scalar s => s.toList.all isPlainChar
  | .lone _ _ => false

def keysInOrder (fields : List (Text × Value F)) : Bool :=
  (fields.map fun f => f.1.points).Pairwise (· < ·)

mutual

/-- Texts without escapes, no floats, keys in order, numbers not too long, at most `depth` levels
of arrays and objects. -/
def Value.isPlain : ℕ → Value F → Bool
  | _, .null => true
  | _, .bool _ => true
  | _, .int n => (Nat.toDigits 10 n.natAbs).length ≤ maxIntDigits
  | _, .float _ => false
  | _, .str t => t.isPlain
  | 0, .arr _ => false
  | depth + 1, .arr items => plainItems depth items
  | 0, .obj _ => false
  | depth + 1, .obj fields => keysInOrder fields && plainFields depth fields

def plainItems : ℕ → List (Value F) → Bool
  | _, [] => true
  | depth, v :: vs => Value.isPlain depth v && plainItems depth vs

def plainFields : ℕ → List (Text × Value F) → Bool
  | _, [] => true
  | depth, (k, v) :: fs => k.isPlain && Value.isPlain depth v && plainFields depth fs

end

/-! ## Reading a string back -/

theorem escape_plain {ascii : Bool} {c : Char} (h : isPlainChar c = true) :
    escape ascii c.toNat = [c] := by
  simp only [isPlainChar, Bool.and_eq_true, decide_eq_true_eq, bne_iff_ne, ne_eq] at h
  obtain ⟨⟨⟨hlow, hhigh⟩, hquote⟩, hslash⟩ := h
  have hne : ∀ d : Char, c ≠ d → c.toNat ≠ d.toNat := fun d hd heq => hd (Char.toNat_inj.mp heq)
  have hq := hne _ hquote
  have hs := hne _ hslash
  unfold escape
  split <;> try (simp_all; done)
  rw [if_neg (by omega), if_neg (by omega), Char.ofNat_toNat]

theorem scanString_plain {cs : List Char} (h : cs.all isPlainChar = true) (rest : List Char) :
    scanString (cs ++ '"' :: rest) = some (cs.map Char.toNat, rest) := by
  induction cs with
  | nil => simp [scanString]
  | cons c cs ih =>
    rw [List.all_cons, Bool.and_eq_true] at h
    have hc := h.1
    simp only [isPlainChar, Bool.and_eq_true, decide_eq_true_eq, bne_iff_ne, ne_eq] at hc
    obtain ⟨⟨⟨hlow, hhigh⟩, hquote⟩, hslash⟩ := hc
    have hnot : ¬ (c = '\\' ∨ c.toNat < 0x20) := by
      rintro (heq | hlt)
      · exact hslash heq
      · omega
    rw [List.cons_append, scanString.eq_def]
    split <;> simp_all


theorem joinSurrogates_plain {units : List ℕ} (h : ∀ u ∈ units, u < 0xd800) :
    joinSurrogates units = units := by
  induction units with
  | nil => rfl
  | cons u units ih =>
    have hu := h u List.mem_cons_self
    have htail := ih fun v hv => h v (List.mem_cons_of_mem _ hv)
    cases units with
    | nil => rfl
    | cons v units =>
      rw [joinSurrogates, if_neg (by omega), htail]

theorem flatMap_escape_plain {ascii : Bool} {cs : List Char} (h : cs.all isPlainChar = true) :
    (cs.map Char.toNat).flatMap (escape ascii) = cs := by
  induction cs with
  | nil => rfl
  | cons c cs ih =>
    rw [List.all_cons, Bool.and_eq_true] at h
    rw [List.map_cons, List.flatMap_cons, escape_plain h.1, ih h.2, List.singleton_append]

theorem writeText_plain {ascii : Bool} {s : String} (h : s.toList.all isPlainChar = true) :
    writeText ascii (.scalar s) = '"' :: (s.toList ++ ['"']) := by
  rw [writeText, Text.points, flatMap_escape_plain h]

theorem readString_plain {s : String} (h : s.toList.all isPlainChar = true) (rest : List Char) :
    readString (s.toList ++ '"' :: rest) = .ok (.scalar s, rest) := by
  have hunits : ∀ u ∈ s.toList.map Char.toNat, u < 0xd800 := by
    intro u hu
    obtain ⟨c, hc, rfl⟩ := List.mem_map.mp hu
    have := List.all_eq_true.mp h c hc
    simp only [isPlainChar, Bool.and_eq_true, decide_eq_true_eq] at this
    omega
  rw [readString, scanString_plain h]
  simp only [joinSurrogates_plain hunits, Text.ofPoints_toNat, String.ofList_toList]

/-! ## Reading a number back -/

/-- What may follow a value. -/
def Stops (rest : List Char) : Prop :=
  ∀ c ∈ rest.head?, c = ',' ∨ c = ']' ∨ c = '\x7d'

theorem takeWhile_digits {ds rest : List Char} (hds : ∀ c ∈ ds, c.isDigit = true)
    (hrest : Stops rest) : (ds ++ rest).takeWhile Char.isDigit = ds ∧
      (ds ++ rest).dropWhile Char.isDigit = rest := by
  have hend : rest.takeWhile Char.isDigit = [] ∧ rest.dropWhile Char.isDigit = rest := by
    cases rest with
    | nil => exact ⟨rfl, rfl⟩
    | cons c rest =>
      have hc : c.isDigit = false := by
        rcases hrest c rfl with rfl | rfl | rfl <;> rfl
      simp [hc]
  rw [List.takeWhile_append_of_pos hds, List.dropWhile_append_of_pos hds, hend.1, hend.2,
    List.append_nil]
  exact ⟨rfl, rfl⟩

theorem scanWhole_toDigits {n : ℕ} {rest : List Char} (hrest : Stops rest) :
    scanWhole (Nat.toDigits 10 n ++ rest) = some (Nat.toDigits 10 n, rest) := by
  rcases Nat.eq_zero_or_pos n with rfl | hn
  · simp [scanWhole]
  · have hds : ∀ c ∈ Nat.toDigits 10 n, c.isDigit = true :=
      fun c hc => Nat.isDigit_of_mem_toDigits (by omega) (by omega) hc
    obtain ⟨htake, hdrop⟩ := takeWhile_digits hds hrest
    obtain ⟨c, cs, hcs, hne⟩ := head_toDigits_ne_zero hn
    have hc : c.isDigit = true := hds c (hcs ▸ List.mem_cons_self)
    rw [hcs, List.cons_append] at htake hdrop ⊢
    unfold scanWhole
    split
    · rename_i heq
      exact absurd (List.cons.inj heq).1 hne
    · rename_i heq
      obtain ⟨rfl, rfl⟩ := List.cons.inj heq
      rw [if_pos hc, htake, hdrop]
    · rename_i heq
      simp at heq

theorem scanFraction_stops {rest : List Char} (h : Stops rest) : scanFraction rest = ([], rest) := by
  unfold scanFraction
  split
  · rcases h _ rfl with h | h | h <;> simp at h
  · rfl

theorem scanExponent_stops {rest : List Char} (h : Stops rest) : scanExponent rest = ([], rest) := by
  cases rest with
  | nil => rfl
  | cons c rest => rcases h c rfl with rfl | rfl | rfl <;> rfl

section Read

variable [Interpreter F]

theorem readNumber_writeInt {n : ℤ} (hn : (Nat.toDigits 10 n.natAbs).length ≤ maxIntDigits)
    {rest : List Char} (hrest : Stops rest) :
    (readNumber (writeInt n ++ rest) : Except ReadError (Value F × List Char)) =
      .ok (.int n, rest) := by
  have hvalue : natOfDigits (Nat.toDigits 10 n.natAbs) = n.natAbs := Nat.ofDigitChars_ten_toDigits
  unfold readNumber writeInt
  rcases lt_or_ge n 0 with hneg | hpos
  · simp only [hneg, if_true, List.cons_append, List.head?_cons, List.tail_cons,
      scanWhole_toDigits hrest, scanFraction_stops hrest, scanExponent_stops hrest, hn, hvalue,
      and_self]
    rw [show (-(n.natAbs : ℤ)) = n by omega]
  · have hhead : (Nat.toDigits 10 n.natAbs ++ rest).head? ≠ some '-' := by
      have hne : Nat.toDigits 10 n.natAbs ≠ [] := Nat.toDigits_ne_nil
      obtain ⟨c, cs, hcs⟩ := List.exists_cons_of_ne_nil hne
      rw [hcs, List.cons_append, List.head?_cons, ne_eq, Option.some.injEq]
      rintro rfl
      have : '-'.isDigit = true :=
        Nat.isDigit_of_mem_toDigits (by omega) (by omega) (hcs ▸ List.mem_cons_self)
      simp at this
    simp only [not_lt.mpr hpos, hhead, if_false, scanWhole_toDigits hrest,
      scanFraction_stops hrest, scanExponent_stops hrest, hn, hvalue, and_self, if_true]
    rw [show ((n.natAbs : ℤ)) = n by omega]

theorem readValue_number (hook : PairsHook F) (fuel depth : ℕ) {c : Char} {cs : List Char}
    (h : c.isDigit = true ∨ (c = '-' ∧ ∀ d ∈ cs.head?, d.isDigit = true)) :
    readValue hook (fuel + 1) depth (c :: cs) = readNumber (c :: cs) := by
  -- no other first character starts a number
  rw [readValue]
  all_goals
    intro rest heq
    obtain ⟨rfl, rfl⟩ := List.cons.inj heq
    simp at h

theorem writeInt_head (n : ℤ) : ∃ c cs, writeInt n = c :: cs ∧
    ∀ rest : List Char, c.isDigit = true ∨ (c = '-' ∧ ∀ d ∈ (cs ++ rest).head?, d.isDigit = true) := by
  obtain ⟨c, cs, hcs⟩ := List.exists_cons_of_ne_nil
    (show Nat.toDigits 10 n.natAbs ≠ [] from Nat.toDigits_ne_nil)
  have hc : c.isDigit = true :=
    Nat.isDigit_of_mem_toDigits (by omega) (by omega) (hcs ▸ List.mem_cons_self)
  unfold writeInt
  split
  · refine ⟨'-', c :: cs, by rw [hcs], fun rest => .inr ⟨rfl, ?_⟩⟩
    simp [hc]
  · exact ⟨c, cs, hcs, fun rest => .inl hc⟩

/-! ## Reading a value back -/

omit [Interpreter F] in
theorem duplicateKey_eq_none {seen : List Text} {fields : List (Text × Value F)}
    (hnodup : (fields.map Prod.fst).Nodup) (hseen : ∀ f ∈ fields, f.1 ∉ seen) :
    duplicateKey seen fields = none := by
  induction fields generalizing seen with
  | nil => rfl
  | cons f fields ih =>
    rw [List.map_cons, List.nodup_cons] at hnodup
    rw [duplicateKey, if_neg (hseen f List.mem_cons_self)]
    refine ih hnodup.2 fun g hg => ?_
    rw [List.mem_cons, not_or]
    refine ⟨?_, hseen g (List.mem_cons_of_mem _ hg)⟩
    rintro heq
    exact hnodup.1 (heq ▸ List.mem_map_of_mem hg)

omit [Interpreter F] in
theorem dict_inOrder {fields : List (Text × Value F)} (h : keysInOrder fields = true) :
    dict fields = .obj fields := by
  rw [keysInOrder, decide_eq_true_eq, List.pairwise_map] at h
  rw [dict, List.Pairwise.insertionSort_eq]
  exact h.imp fun hlt => hlt.le

omit [Interpreter F] in
theorem nodup_inOrder {fields : List (Text × Value F)} (h : keysInOrder fields = true) :
    (fields.map Prod.fst).Nodup := by
  rw [keysInOrder, decide_eq_true_eq, List.pairwise_map] at h
  rw [List.Nodup, List.pairwise_map]
  refine h.imp fun hlt heq => ?_
  rw [heq] at hlt
  exact lt_irrefl _ hlt

/-- A hook that builds the dict of entries already in order. -/
def Builds (hook : PairsHook F) : Prop :=
  ∀ fields, keysInOrder fields = true → hook fields = .ok (.obj fields)

omit [Interpreter F] in
theorem builds_rejectDuplicates : Builds (rejectDuplicates : PairsHook F) := by
  intro fields h
  rw [rejectDuplicates, duplicateKey_eq_none (nodup_inOrder h) (by simp)]
  simp only [dict_inOrder h]

omit [Interpreter F] in
theorem builds_keepLast : Builds (keepLast : PairsHook F) := by
  intro fields h
  have hkept : ∀ fs : List (Text × Value F), (fs.map Prod.fst).Nodup →
      fs.foldr (fun f kept => if f.1 ∈ kept.map Prod.fst then kept else f :: kept) [] = fs := by
    intro fs hfs
    induction fs with
    | nil => rfl
    | cons f fs ih =>
      rw [List.map_cons, List.nodup_cons] at hfs
      rw [List.foldr_cons, ih hfs.2, if_neg hfs.1]
  rw [keepLast, hkept fields (nodup_inOrder h), dict_inOrder h]


theorem write_head (ascii : Bool) {depth : ℕ} {v : Value F} (h : v.isPlain depth = true) :
    ∃ c cs, write ascii v = c :: cs ∧ isBlank c = false ∧ c ≠ ']' := by
  cases v with
  | null => exact ⟨_, _, rfl, rfl, by decide⟩
  | bool b => cases b <;> exact ⟨_, _, rfl, rfl, by decide⟩
  | int n =>
    obtain ⟨c, cs, hcs, hc⟩ := writeInt_head n
    refine ⟨c, cs, hcs, ?_⟩
    rcases hc [] with hdigit | ⟨rfl, -⟩
    · obtain ⟨hlt, heq⟩ := isDigit_eq_digitChar hdigit
      rw [heq]
      generalize c.toNat - 48 = d at hlt
      interval_cases d <;> decide
    · decide
  | float x => simp [Value.isPlain] at h
  | str t => exact ⟨_, _, rfl, rfl, by decide⟩
  | arr items => exact ⟨_, _, rfl, rfl, by decide⟩
  | obj fields => exact ⟨_, _, rfl, rfl, by decide⟩

theorem skipBlanks_write (ascii : Bool) {depth : ℕ} {v : Value F} (h : v.isPlain depth = true)
    (rest : List Char) : skipBlanks (write ascii v ++ rest) = write ascii v ++ rest := by
  obtain ⟨c, cs, hcs, hblank, -⟩ := write_head ascii h
  rw [hcs, List.cons_append, skipBlanks, List.dropWhile_cons_of_neg (by simp [hblank])]

theorem intercalate_cons_append (x : List Char) (xs : List (List Char)) (rest : List Char) :
    [','].intercalate (x :: xs) ++ rest =
      x ++ match xs with
        | [] => rest
        | y :: ys => ',' :: ([','].intercalate (y :: ys) ++ rest) := by
  cases xs <;> simp [List.intercalate_cons_cons]

theorem skipBlanks_items (ascii : Bool) {depth : ℕ} {v : Value F} (h : v.isPlain depth = true)
    (vs : List (Value F)) (rest : List Char) :
    skipBlanks ([','].intercalate (writeItems ascii (v :: vs)) ++ rest) =
      [','].intercalate (writeItems ascii (v :: vs)) ++ rest := by
  rw [writeItems, intercalate_cons_append, skipBlanks_write ascii h]

theorem skipBlanks_comma (cs : List Char) : skipBlanks (',' :: cs) = ',' :: cs := rfl

theorem skipBlanks_colon (cs : List Char) : skipBlanks (':' :: cs) = ':' :: cs := rfl

theorem writeField_plain {ascii : Bool} {s : String} (hs : s.toList.all isPlainChar = true)
    (v : Value F) (rest : List Char) :
    writeText ascii (.scalar s) ++ ':' :: write ascii v ++ rest =
      '"' :: (s.toList ++ '"' :: ':' :: (write ascii v ++ rest)) := by
  simp [writeText_plain hs]

theorem skipBlanks_text {ascii : Bool} (t : Text) (rest : List Char) :
    skipBlanks (writeText ascii t ++ rest) = writeText ascii t ++ rest := rfl

mutual

theorem readValue_write {hook : PairsHook F} (hb : Builds hook) (ascii : Bool) :
    ∀ (v : Value F) (depth fuel : ℕ) (rest : List Char), v.isPlain depth = true → Stops rest →
      2 * (write ascii v).length ≤ fuel →
      readValue hook fuel depth (write ascii v ++ rest) = .ok (v, rest)
  | .null, _, fuel, rest, _, _, hfuel => by
    obtain ⟨fuel, rfl⟩ : ∃ n, fuel = n + 1 := ⟨fuel - 1, by simp [write] at hfuel; omega⟩
    rfl
  | .bool true, _, fuel, rest, _, _, hfuel => by
    obtain ⟨fuel, rfl⟩ : ∃ n, fuel = n + 1 := ⟨fuel - 1, by simp [write] at hfuel; omega⟩
    rfl
  | .bool false, _, fuel, rest, _, _, hfuel => by
    obtain ⟨fuel, rfl⟩ : ∃ n, fuel = n + 1 := ⟨fuel - 1, by simp [write] at hfuel; omega⟩
    rfl
  | .int n, depth, fuel, rest, hplain, hrest, hfuel => by
    obtain ⟨c, cs, hcs, hc⟩ := writeInt_head n
    obtain ⟨fuel, rfl⟩ : ∃ n, fuel = n + 1 := by
      refine ⟨fuel - 1, ?_⟩
      rw [write, hcs, List.length_cons] at hfuel
      omega
    have hlen : (Nat.toDigits 10 n.natAbs).length ≤ maxIntDigits := by
      simpa [Value.isPlain] using hplain
    rw [write, hcs, List.cons_append, readValue_number hook fuel depth (hc rest),
      ← List.cons_append, ← hcs, readNumber_writeInt hlen hrest]
  | .float _, _, _, _, hplain, _, _ => by simp [Value.isPlain] at hplain
  | .str (.scalar s), _, fuel, rest, hplain, _, hfuel => by
    have hs : s.toList.all isPlainChar = true := by simpa [Value.isPlain, Text.isPlain] using hplain
    obtain ⟨fuel, rfl⟩ : ∃ n, fuel = n + 1 := by
      refine ⟨fuel - 1, ?_⟩
      rw [write, writeText_plain hs, List.length_cons] at hfuel
      omega
    rw [write, writeText_plain hs, List.cons_append, List.append_assoc, List.singleton_append]
    simp only [readValue, readString_plain hs, ok_bind]
  | .str (.lone _ _), _, _, _, hplain, _, _ => by simp [Value.isPlain, Text.isPlain] at hplain
  | .arr [], depth, fuel, rest, hplain, _, hfuel => by
    obtain ⟨fuel, rfl⟩ : ∃ n, fuel = n + 1 := ⟨fuel - 1, by simp [write] at hfuel; omega⟩
    cases depth with
    | zero => simp [Value.isPlain] at hplain
    | succ depth => rfl
  | .arr (v :: vs), depth, fuel, rest, hplain, _, hfuel => by
    cases depth with
    | zero => simp [Value.isPlain] at hplain
    | succ depth =>
      rw [Value.isPlain] at hplain
      rw [write, List.length_cons, List.length_append, List.length_singleton] at hfuel
      obtain ⟨fuel, rfl⟩ : ∃ n, fuel = n + 1 := ⟨fuel - 1, by omega⟩
      have hitems := readItems_write hb ascii v vs depth fuel rest hplain (by omega)
      have hv : v.isPlain depth = true := by
        rw [plainItems, Bool.and_eq_true] at hplain
        exact hplain.1
      obtain ⟨c, cs, hcs, -, hne⟩ := write_head ascii hv
      have hskip := skipBlanks_items ascii hv vs (']' :: rest)
      rw [write, List.cons_append, List.append_assoc, List.singleton_append, readValue, hskip]
      split
      · rename_i heq
        rw [writeItems, intercalate_cons_append, hcs, List.cons_append] at heq
        exact absurd (List.cons.inj heq).1 hne
      · rw [hitems]
        rfl
  | .obj [], depth, fuel, rest, hplain, _, hfuel => by
    obtain ⟨fuel, rfl⟩ : ∃ n, fuel = n + 1 := ⟨fuel - 1, by simp [write] at hfuel; omega⟩
    cases depth with
    | zero => simp [Value.isPlain] at hplain
    | succ depth =>
      have hread : readValue hook (fuel + 1) (depth + 1) ('\x7b' :: '\x7d' :: rest) = (do
          let v ← hook []
          .ok (v, rest)) := rfl
      change readValue hook (fuel + 1) (depth + 1) ('\x7b' :: '\x7d' :: rest) = _
      rw [hread, hb [] rfl, ok_bind]
  | .obj ((k, v) :: fs), depth, fuel, rest, hplain, _, hfuel => by
    cases depth with
    | zero => simp [Value.isPlain] at hplain
    | succ depth =>
      rw [Value.isPlain, Bool.and_eq_true] at hplain
      rw [write, List.length_cons, List.length_append, List.length_singleton] at hfuel
      obtain ⟨fuel, rfl⟩ : ∃ n, fuel = n + 1 := ⟨fuel - 1, by omega⟩
      have hfields := readFields_write hb ascii k v fs depth fuel rest hplain.2 (by omega)
      have htext : [','].intercalate (writeFields ascii ((k, v) :: fs)) ++ '\x7d' :: rest = '"' ::
          ([','].intercalate (writeFields ascii ((k, v) :: fs)) ++ '\x7d' :: rest).tail := by
        rw [writeFields, intercalate_cons_append, writeText]
        rfl
      rw [write, List.cons_append, List.append_assoc, List.singleton_append, readValue]
      have hskip : skipBlanks ([','].intercalate (writeFields ascii ((k, v) :: fs)) ++
          '\x7d' :: rest) = [','].intercalate (writeFields ascii ((k, v) :: fs)) ++
            '\x7d' :: rest := by
        rw [htext]
        rfl
      rw [hskip]
      split
      · rename_i heq
        rw [htext] at heq
        exact absurd (List.cons.inj heq).1 (by decide)
      · rw [hfields, ok_bind]
        simp only [hb _ hplain.1, ok_bind]

termination_by v => sizeOf v

theorem readItems_write {hook : PairsHook F} (hb : Builds hook) (ascii : Bool) :
    ∀ (v : Value F) (vs : List (Value F)) (depth fuel : ℕ) (rest : List Char),
      plainItems depth (v :: vs) = true →
      2 * ([','].intercalate (writeItems ascii (v :: vs))).length + 1 ≤ fuel →
      readItems hook fuel depth ([','].intercalate (writeItems ascii (v :: vs)) ++ ']' :: rest) =
        .ok (v :: vs, rest)
  | v, vs, depth, fuel, rest, hplain, hfuel => by
    rw [plainItems, Bool.and_eq_true] at hplain
    obtain ⟨fuel, rfl⟩ : ∃ n, fuel = n + 1 := ⟨fuel - 1, by omega⟩
    cases vs with
    | nil =>
      simp only [writeItems, List.intercalate_singleton] at hfuel ⊢
      rw [readItems, readValue_write hb ascii v depth fuel _ hplain.1 (by simp [Stops]) (by omega)]
      rfl
    | cons w ws =>
      simp only [writeItems, List.intercalate_cons_cons, List.length_append, List.length_cons,
        List.length_nil] at hfuel
      have hws := readItems_write hb ascii w ws depth fuel rest hplain.2 (by
        rw [writeItems]
        omega)
      have hw : w.isPlain depth = true := by
        have := hplain.2
        rw [plainItems, Bool.and_eq_true] at this
        exact this.1
      rw [writeItems, intercalate_cons_append, writeItems]
      dsimp only
      rw [← writeItems, readItems,
        readValue_write hb ascii v depth fuel _ hplain.1 (by simp [Stops]) (by omega)]
      simp only [ok_bind, skipBlanks_comma, skipBlanks_items ascii hw, hws]
termination_by v vs => sizeOf (v :: vs)

theorem readFields_write {hook : PairsHook F} (hb : Builds hook) (ascii : Bool) :
    ∀ (k : Text) (v : Value F) (fs : List (Text × Value F)) (depth fuel : ℕ) (rest : List Char),
      plainFields depth ((k, v) :: fs) = true →
      2 * ([','].intercalate (writeFields ascii ((k, v) :: fs))).length + 1 ≤ fuel →
      readFields hook fuel depth ([','].intercalate (writeFields ascii ((k, v) :: fs)) ++
        '\x7d' :: rest) = .ok ((k, v) :: fs, rest)
  | .lone _ _, _, _, _, _, _, hplain, _ => by simp [plainFields, Text.isPlain] at hplain
  | .scalar s, v, [], depth, fuel, rest, hplain, hfuel => by
    rw [plainFields, Bool.and_eq_true, Bool.and_eq_true] at hplain
    obtain ⟨⟨hs, hv⟩, -⟩ := hplain
    obtain ⟨fuel, rfl⟩ : ∃ n, fuel = n + 1 := ⟨fuel - 1, by omega⟩
    simp only [writeFields, List.intercalate_singleton, List.length_append, List.length_cons]
      at hfuel ⊢
    have hvalue := readValue_write hb ascii v depth fuel ('\x7d' :: rest) hv (by simp [Stops])
      (by omega)
    have hbrace : ∀ cs, skipBlanks ('\x7d' :: cs) = '\x7d' :: cs := fun _ => rfl
    rw [writeField_plain hs]
    simp only [readFields, readString_plain hs, ok_bind, skipBlanks_colon,
      skipBlanks_write ascii hv, hvalue, hbrace]
  | .scalar s, v, (l, w) :: fs, depth, fuel, rest, hplain, hfuel => by
    rw [plainFields, Bool.and_eq_true, Bool.and_eq_true] at hplain
    obtain ⟨⟨hs, hv⟩, hfs⟩ := hplain
    obtain ⟨fuel, rfl⟩ : ∃ n, fuel = n + 1 := ⟨fuel - 1, by omega⟩
    simp only [writeFields, List.intercalate_cons_cons, List.length_append, List.length_cons,
      List.length_nil] at hfuel
    have hrest := readFields_write hb ascii l w fs depth fuel rest hfs (by
      rw [writeFields]
      omega)
    have hvalue := readValue_write hb ascii v depth fuel
      (',' :: ([','].intercalate (writeFields ascii ((l, w) :: fs)) ++ '\x7d' :: rest)) hv
      (by simp [Stops]) (by omega)
    have hskip : skipBlanks ([','].intercalate (writeFields ascii ((l, w) :: fs)) ++
        '\x7d' :: rest) = [','].intercalate (writeFields ascii ((l, w) :: fs)) ++
          '\x7d' :: rest := by
      rw [writeFields, intercalate_cons_append, List.append_assoc, skipBlanks_text]
    rw [writeFields, intercalate_cons_append, writeFields]
    dsimp only
    rw [← writeFields, writeField_plain hs]
    simp only [readFields, readString_plain hs, ok_bind, skipBlanks_colon,
      skipBlanks_write ascii hv, hvalue, skipBlanks_comma, hskip, hrest]
termination_by _ v fs => sizeOf v + sizeOf fs + 1

end

theorem loads_write {hook : PairsHook F} (hb : Builds hook) (ascii : Bool) {v : Value F}
    (h : v.isPlain (Interpreter.readDepth F) = true) : loads hook (write ascii v) = .ok v := by
  have hread := readValue_write hb ascii v (Interpreter.readDepth F)
    (2 * (write ascii v).length + 2) [] h (by simp [Stops]) (by omega)
  have hskip := skipBlanks_write ascii h []
  rw [List.append_nil] at hread hskip
  rw [loads, hskip, hread]
  rfl

/-! ## Order of keys -/

omit [Interpreter F] in
theorem nodup_of_duplicateKey {seen : List Text} {fields : List (Text × Value F)}
    (h : duplicateKey seen fields = none) :
    (fields.map Prod.fst).Nodup ∧ ∀ f ∈ fields, f.1 ∉ seen := by
  induction fields generalizing seen with
  | nil => simp
  | cons f fields ih =>
    rw [duplicateKey] at h
    split at h
    · simp at h
    · rename_i hf
      obtain ⟨hnodup, hseen⟩ := ih h
      rw [List.map_cons, List.nodup_cons, List.forall_mem_cons]
      refine ⟨⟨?_, hnodup⟩, hf, fun g hg hin => hseen g hg (List.mem_cons_of_mem _ hin)⟩
      intro hin
      obtain ⟨g, hg, hgf⟩ := List.mem_map.mp hin
      exact hseen g hg (hgf ▸ List.mem_cons_self)

theorem Text.points_injective : Function.Injective Text.points := by
  have hscalar : ∀ s : String, ¬ (Text.scalar s).points.any isSurrogate = true := by
    intro s hany
    have hof := Text.ofPoints_toNat s.toList
    have hlone : Text.ofPoints (s.toList.map Char.toNat) =
        .lone (s.toList.map Char.toNat) hany := dif_pos hany
    rw [hlone] at hof
    simp at hof
  rintro (s | ⟨ps, hps⟩) (t | ⟨qs, hqs⟩) h
  · rw [Text.points, Text.points] at h
    rw [Text.scalar.injEq, ← String.toList_inj]
    exact List.map_injective_iff.mpr (fun _ _ => Char.toNat_inj.mp) h
  · exact absurd (show (Text.scalar s).points.any isSurrogate = true from h ▸ hqs) (hscalar s)
  · exact absurd (show (Text.scalar t).points.any isSurrogate = true from h ▸ hps) (hscalar t)
  · simpa [Text.points] using h

omit [Interpreter F] in
theorem keysInOrder_dict {fields : List (Text × Value F)} (h : (fields.map Prod.fst).Nodup) :
    keysInOrder (fields.insertionSort fun f g => f.1.points ≤ g.1.points) = true := by
  have hsorted := List.pairwise_insertionSort
    (fun f g : Text × Value F => f.1.points ≤ g.1.points) fields
  have hperm := List.perm_insertionSort (fun f g : Text × Value F => f.1.points ≤ g.1.points) fields
  have hnodup := ((hperm.map Prod.fst).nodup_iff.mpr h).map Text.points_injective
  rw [List.map_map, List.Nodup, List.pairwise_map] at hnodup
  rw [keysInOrder, decide_eq_true_eq, List.pairwise_map]
  exact (hsorted.and hnodup).imp fun hle => lt_of_le_of_ne hle.1 hle.2

mutual

/-- Every dict in the value has its keys in order. -/
def Value.inOrder : Value F → Bool
  | .arr items => itemsInOrder items
  | .obj fields => keysInOrder fields && fieldsInOrder fields
  | _ => true

def itemsInOrder : List (Value F) → Bool
  | [] => true
  | v :: vs => v.inOrder && itemsInOrder vs

def fieldsInOrder : List (Text × Value F) → Bool
  | [] => true
  | (_, v) :: fs => v.inOrder && fieldsInOrder fs

end

omit [Interpreter F] in
theorem fieldsInOrder_iff {fields : List (Text × Value F)} :
    fieldsInOrder fields = true ↔ ∀ f ∈ fields, f.2.inOrder = true := by
  induction fields with
  | nil => simp [fieldsInOrder]
  | cons f fields ih => rw [fieldsInOrder, Bool.and_eq_true, ih, List.forall_mem_cons]

/-- A hook that only builds values in order. -/
def Orders (hook : PairsHook F) : Prop :=
  ∀ fields v, fieldsInOrder fields = true → hook fields = .ok v → v.inOrder = true

omit [Interpreter F] in
theorem orders_rejectDuplicates : Orders (rejectDuplicates : PairsHook F) := by
  intro fields v hfields h
  rw [rejectDuplicates] at h
  split at h
  · simp at h
  · rename_i hnone
    obtain rfl := Except.ok.inj h
    rw [dict, Value.inOrder, keysInOrder_dict (nodup_of_duplicateKey hnone).1, Bool.true_and,
      fieldsInOrder_iff]
    intro f hf
    exact fieldsInOrder_iff.mp hfields f ((List.mem_insertionSort _).mp hf)

theorem readNumber_inOrder {cs rest : List Char} {v : Value F}
    (h : readNumber cs = .ok (v, rest)) : v.inOrder = true := by
  unfold readNumber at h
  dsimp only at h
  split at h
  · simp at h
  · split at h
    · split at h
      · obtain ⟨rfl, -⟩ := Prod.mk.inj (Except.ok.inj h)
        rfl
      · simp at h
    · obtain ⟨rfl, -⟩ := Prod.mk.inj (Except.ok.inj h)
      rfl

theorem read_inOrder {hook : PairsHook F} (ho : Orders hook) (fuel : ℕ) :
    (∀ depth cs v rest, readValue hook fuel depth cs = .ok (v, rest) → v.inOrder = true) ∧
    (∀ depth cs vs rest, readItems hook fuel depth cs = .ok (vs, rest) →
      itemsInOrder vs = true) ∧
    (∀ depth cs fs rest, readFields hook fuel depth cs = .ok (fs, rest) →
      fieldsInOrder fs = true) := by
  induction fuel with
  | zero => simp [readValue, readItems, readFields]
  | succ fuel ih =>
    obtain ⟨hvalue, hitems, hfields⟩ := ih
    refine ⟨?_, ?_, ?_⟩
    · intro depth cs v rest h
      rw [readValue.eq_def] at h
      dsimp only at h
      split at h
      · simp only [bind_eq_ok, Prod.exists, Except.ok.injEq, Prod.mk.injEq] at h
        obtain ⟨t, _, -, rfl, -⟩ := h
        rfl
      · split at h
        · simp at h
        · split at h
          · simp only [bind_eq_ok, Except.ok.injEq, Prod.mk.injEq] at h
            obtain ⟨w, hw, rfl, -⟩ := h
            exact ho [] w rfl hw
          · simp only [bind_eq_ok, Prod.exists, Except.ok.injEq, Prod.mk.injEq] at h
            obtain ⟨fs, _, hfs, w, hw, rfl, -⟩ := h
            exact ho fs w (hfields _ _ _ _ hfs) hw
      · split at h
        · simp at h
        · split at h
          · obtain ⟨rfl, -⟩ := Prod.mk.inj (Except.ok.inj h)
            rfl
          · simp only [bind_eq_ok, Prod.exists, Except.ok.injEq, Prod.mk.injEq] at h
            obtain ⟨vs, _, hvs, rfl, -⟩ := h
            rw [Value.inOrder]
            exact hitems _ _ _ _ hvs
      all_goals first
        | exact readNumber_inOrder h
        | (obtain ⟨rfl, -⟩ := Prod.mk.inj (Except.ok.inj h); rfl)
    · intro depth cs vs rest h
      simp only [readItems, bind_eq_ok, Prod.exists] at h
      obtain ⟨v, rest', hv, h⟩ := h
      split at h
      · obtain ⟨rfl, -⟩ := Prod.mk.inj (Except.ok.inj h)
        simp [itemsInOrder, hvalue _ _ _ _ hv]
      · simp only [bind_eq_ok, Prod.exists, Except.ok.injEq, Prod.mk.injEq] at h
        obtain ⟨ws, _, hws, rfl, -⟩ := h
        simp [itemsInOrder, hvalue _ _ _ _ hv, hitems _ _ _ _ hws]
      · simp at h
    · intro depth cs fs rest h
      rw [readFields.eq_def] at h
      dsimp only at h
      split at h
      · simp only [bind_eq_ok, Prod.exists] at h
        obtain ⟨k, _, -, h⟩ := h
        split at h
        · simp only [bind_eq_ok, Prod.exists] at h
          obtain ⟨v, _, hv, h⟩ := h
          split at h
          · obtain ⟨rfl, -⟩ := Prod.mk.inj (Except.ok.inj h)
            simp [fieldsInOrder, hvalue _ _ _ _ hv]
          · simp only [bind_eq_ok, Prod.exists, Except.ok.injEq, Prod.mk.injEq] at h
            obtain ⟨fs', _, hfs', rfl, -⟩ := h
            simp [fieldsInOrder, hvalue _ _ _ _ hv, hfields _ _ _ _ hfs']
          · simp at h
        · simp at h
      · simp at h

/-- What `loads` returns has its keys in order. -/
theorem loads_inOrder {text : List Char} {v : Value F}
    (h : loads rejectDuplicates text = .ok v) : v.inOrder = true := by
  simp only [loads, bind_eq_ok, Prod.exists] at h
  obtain ⟨w, rest, hw, h⟩ := h
  split at h
  · obtain rfl := Except.ok.inj h
    exact (read_inOrder orders_rejectDuplicates _).1 _ _ _ _ hw
  · simp at h

end Read

end Json
