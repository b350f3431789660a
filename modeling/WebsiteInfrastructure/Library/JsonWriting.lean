import Mathlib
import WebsiteInfrastructure.Library.JsonReading
import WebsiteInfrastructure.Library.JsonSpelling

/-!
# What `dumps` writes determines the value

No text of `dumps` with `ensure_ascii` starts another one, whatever follows them, so that equal
texts come from equal values. Floats are left out, and strings with both halves of a surrogate
pair, which are written like the character they stand for.
-/

namespace Json

open Raising

variable {F : Type}

/-! ## Strings -/

/-- The UTF-16 code units of a code point. -/
def units (point : ℕ) : List ℕ :=
  if point < 0x10000 then [point]
  else [0xd800 + (point - 0x10000) / 0x400, 0xdc00 + (point - 0x10000) % 0x400]

/-- The halves of a surrogate pair. -/
def isPair (hi lo : ℕ) : Bool := 0xd800 ≤ hi && hi < 0xdc00 && 0xdc00 ≤ lo && lo < 0xe000

/-- Code points of which no two neighbours are a surrogate pair. -/
def Text.isJoined (t : Text) : Bool :=
  t.points.all (· < 0x110000) && decide (t.points.IsChain fun hi lo => isPair hi lo = false)

theorem Text.isJoined_iff {t : Text} : t.isJoined = true ↔
    (∀ p ∈ t.points, p < 0x110000) ∧ t.points.IsChain fun hi lo => isPair hi lo = false := by
  simp only [Text.isJoined, Bool.and_eq_true, List.all_eq_true, decide_eq_true_eq]

theorem hexValue_digitChar {d : ℕ} (h : d < 16) : hexValue d.digitChar = some d := by
  interval_cases d <;> decide

theorem scanString_unicodeEscape {unit : ℕ} (h : unit < 0x10000) (rest : List Char) :
    scanString (unicodeEscape unit ++ rest) =
      (scanString rest).map fun r => (unit :: r.1, r.2) := by
  have hsum : 4096 * (unit / 4096 % 16) + 256 * (unit / 256 % 16) + 16 * (unit / 16 % 16) +
      unit % 16 = unit := by omega
  simp only [unicodeEscape, List.cons_append, List.nil_append, scanString]
  simp only [hexValue_digitChar (Nat.mod_lt _ (by decide : 0 < 16)), Option.bind_eq_bind,
    Option.bind_some, hsum]
  cases scanString rest <;> rfl

theorem scanString_simple {e : Char} {point : ℕ} (he : e ≠ 'u') (h : simpleEscape e = some point)
    (rest : List Char) :
    scanString ('\\' :: e :: rest) = (scanString rest).map fun r => (point :: r.1, r.2) := by
  rw [scanString, h]
  · cases scanString rest <;> rfl
  · intro a b c d more heq
    exact absurd heq he

theorem scanString_char {c : Char} (hquote : c ≠ '"') (hslash : c ≠ '\\') (hlow : 0x20 ≤ c.toNat)
    (rest : List Char) :
    scanString (c :: rest) = (scanString rest).map fun r => (c.toNat :: r.1, r.2) := by
  rw [scanString, if_neg]
  · cases scanString rest <;> rfl
  · rintro (heq | hlt)
    · exact hslash heq
    · omega
  · exact hquote
  · rintro a b c' d more rfl
    exact fun _ => hslash rfl
  · rintro e more rfl
    exact fun _ => hslash rfl

theorem scanString_escape {point : ℕ} (h : point < 0x110000) (rest : List Char) :
    scanString (escape true point ++ rest) =
      (scanString rest).map fun r => (units point ++ r.1, r.2) := by
  unfold escape
  split
  iterate 7 exact scanString_simple (by decide) rfl rest
  rename_i hquote hslash _ _ _ _ _
  simp only [true_and]
  by_cases hplain : point < 0x20 ∨ 0x7e < point ∧ point < 0x10000
  · have hlow : point < 0x10000 := by omega
    rw [if_pos hplain, scanString_unicodeEscape hlow, units, if_pos hlow]
    rfl
  rw [if_neg hplain]
  by_cases hlong : 0x7e < point
  · have hhigh : ¬ point < 0x10000 := by omega
    rw [if_pos hlong, List.append_assoc, scanString_unicodeEscape (by omega),
      scanString_unicodeEscape (by omega), units, if_neg hhigh]
    cases scanString rest <;> rfl
  · have hvalue : (Char.ofNat point).toNat = point := by
      rw [Char.ofNat, dif_pos (.inl (by omega))]
      rfl
    have hne : ∀ c : Char, point ≠ c.toNat → Char.ofNat point ≠ c := by
      intro c hc heq
      rw [← heq, hvalue] at hc
      exact hc rfl
    rw [if_neg hlong, List.singleton_append, scanString_char (hne _ hquote) (hne _ hslash)
      (by omega), hvalue, units, if_pos (by omega)]
    rfl

theorem scanString_points {points : List ℕ} (h : ∀ p ∈ points, p < 0x110000) (rest : List Char) :
    scanString (points.flatMap (escape true) ++ '"' :: rest) =
      some (points.flatMap units, rest) := by
  induction points with
  | nil => simp [scanString]
  | cons p points ih =>
    rw [List.forall_mem_cons] at h
    rw [List.flatMap_cons, List.append_assoc, scanString_escape h.1, ih h.2]
    rfl

theorem joinSurrogates_cons {point : ℕ} {rest : List ℕ}
    (h : ∀ lo ∈ rest.head?, isPair point lo = false) :
    joinSurrogates (point :: rest) = point :: joinSurrogates rest := by
  cases rest with
  | nil => rfl
  | cons lo rest =>
    have hlo := h lo rfl
    rw [joinSurrogates, if_neg]
    simpa [isPair, and_assoc] using hlo

/-- A code point starts with itself or with a high surrogate. -/
theorem isPair_head_units {hi point : ℕ} {points : List ℕ} {lo : ℕ} (h : isPair hi point = false)
    (hpoint : point < 0x110000) (hlo : lo ∈ ((point :: points).flatMap units).head?) :
    isPair hi lo = false := by
  rw [List.flatMap_cons, units] at hlo
  split_ifs at hlo
  · rw [List.singleton_append, List.head?_cons, Option.mem_some_iff] at hlo
    rwa [← hlo]
  · rw [List.cons_append, List.head?_cons, Option.mem_some_iff] at hlo
    simp only [isPair, Bool.and_eq_false_iff, decide_eq_false_iff_not]
    omega

theorem joinSurrogates_units {points : List ℕ} (h : ∀ p ∈ points, p < 0x110000)
    (hchain : points.IsChain fun hi lo => isPair hi lo = false) :
    joinSurrogates (points.flatMap units) = points := by
  induction points with
  | nil => rfl
  | cons p points ih =>
    rw [List.forall_mem_cons] at h
    have hlater := ih h.2 hchain.tail
    rw [List.flatMap_cons, units]
    split_ifs with hlow
    · rw [List.singleton_append, joinSurrogates_cons, hlater]
      intro lo hlo
      cases points with
      | nil => simp at hlo
      | cons q points =>
        rw [List.isChain_cons_cons] at hchain
        exact isPair_head_units hchain.1 (h.2 q List.mem_cons_self) hlo
    · have hvalue : 0x10000 + (0xd800 + (p - 0x10000) / 0x400 - 0xd800) * 0x400 +
          (0xdc00 + (p - 0x10000) % 0x400 - 0xdc00) = p := by omega
      rw [List.cons_append, List.singleton_append, joinSurrogates, if_pos (by omega), hvalue,
        hlater]

theorem Text.ofPoints_points (t : Text) : Text.ofPoints t.points = t := by
  cases t with
  | scalar s => rw [Text.points, Text.ofPoints_toNat, String.ofList_toList]
  | lone points h => exact dif_pos h

theorem readString_points {t : Text} (h : t.isJoined = true) (rest : List Char) :
    readString (t.points.flatMap (escape true) ++ '"' :: rest) = .ok (t, rest) := by
  obtain ⟨hrange, hchain⟩ := Text.isJoined_iff.mp h
  rw [readString, scanString_points hrange]
  simp only [joinSurrogates_units hrange hchain, Text.ofPoints_points]

/-- What is read from JSON, and so has its surrogates joined, determines the text. -/
theorem writeText_append_inj {s t : Text} (hs : s.isJoined = true) (ht : t.isJoined = true)
    {rest rest' : List Char} (h : writeText true s ++ rest = writeText true t ++ rest') :
    s = t ∧ rest = rest' := by
  simp only [writeText, List.cons_append, List.append_assoc, List.nil_append] at h
  have hread := readString_points ht rest'
  rw [← (List.cons.inj h).2, readString_points hs rest] at hread
  simpa using hread

theorem Text.isJoined_scalar (s : String) : (Text.scalar s).isJoined = true := by
  have hvalid : ∀ c : Char, c.toNat < 0xd800 ∨ 0xdfff < c.toNat ∧ c.toNat < 0x110000 :=
    fun c => c.valid
  rw [Text.isJoined_iff, Text.points, List.isChain_map]
  constructor
  · intro p hp
    obtain ⟨c, -, rfl⟩ := List.mem_map.mp hp
    have := hvalid c
    omega
  · refine List.Pairwise.isChain (List.pairwise_of_forall fun hi lo => ?_)
    have := hvalid hi
    simp only [isPair, Bool.and_eq_false_iff, decide_eq_false_iff_not]
    omega

/-! ## Values -/

mutual

/-- Without floats, and with all strings joined. -/
def Value.isJoined : Value F → Bool
  | .float _ => false
  | .str t => t.isJoined
  | .arr items => joinedItems items
  | .obj fields => joinedFields fields
  | _ => true

def joinedItems : List (Value F) → Bool
  | [] => true
  | v :: vs => v.isJoined && joinedItems vs

def joinedFields : List (Text × Value F) → Bool
  | [] => true
  | (k, v) :: fs => k.isJoined && v.isJoined && joinedFields fs

end

/-- The kind of a value, as its first character shows it. -/
def Value.kind : Value F → ℕ
  | .null => 0
  | .bool false => 1
  | .bool true => 2
  | .int _ => 3
  | .float _ => 4
  | .str _ => 5
  | .arr _ => 6
  | .obj _ => 7

def kindOfHead (c : Char) : ℕ :=
  if c = 'n' then 0
  else if c = 'f' then 1
  else if c = 't' then 2
  else if c.isDigit ∨ c = '-' then 3
  else if c = '"' then 5
  else if c = '[' then 6
  else if c = '\x7b' then 7
  else 8

theorem kindOfHead_digit {c : Char} (h : c.isDigit = true) : kindOfHead c = 3 := by
  have hne : ∀ d : Char, d.isDigit = false → c ≠ d := by
    rintro d hd rfl
    rw [h] at hd
    cases hd
  rw [kindOfHead, if_neg (hne _ rfl), if_neg (hne _ rfl), if_neg (hne _ rfl), if_pos (.inl h)]

section Write

variable [Interpreter F]

theorem write_kind {v : Value F} (h : v.isJoined = true) :
    ∃ c cs, write true v = c :: cs ∧ kindOfHead c = v.kind := by
  cases v with
  | null => exact ⟨_, _, rfl, rfl⟩
  | bool b => cases b <;> exact ⟨_, _, rfl, rfl⟩
  | int n =>
    obtain ⟨c, cs, hcs, hc⟩ := writeInt_head n
    refine ⟨c, cs, hcs, ?_⟩
    rcases hc [] with hdigit | ⟨rfl, -⟩
    · exact kindOfHead_digit hdigit
    · rfl
  | float x => simp [Value.isJoined] at h
  | str t => exact ⟨_, _, rfl, rfl⟩
  | arr items => exact ⟨_, _, rfl, rfl⟩
  | obj fields => exact ⟨_, _, rfl, rfl⟩

theorem kind_eq_of_write {v w : Value F} (hv : v.isJoined = true) (hw : w.isJoined = true)
    {rest rest' : List Char} (h : write true v ++ rest = write true w ++ rest') :
    v.kind = w.kind := by
  obtain ⟨c, cs, hcs, hc⟩ := write_kind hv
  obtain ⟨d, ds, hds, hd⟩ := write_kind hw
  rw [hcs, hds] at h
  rw [← hc, ← hd, (List.cons.inj h).1]

omit [Interpreter F] in
theorem writeInt_append_inj {m n : ℤ} {rest rest' : List Char} (hrest : Stops rest)
    (hrest' : Stops rest') (h : writeInt m ++ rest = writeInt n ++ rest') :
    m = n ∧ rest = rest' := by
  have hdigits : ∀ k : ℤ, ∀ c ∈ Nat.toDigits 10 k.natAbs, c.isDigit = true :=
    fun k c hc => Nat.isDigit_of_mem_toDigits (by omega) (by omega) hc
  have hsplit : ∀ {ds ds' : List Char}, (∀ c ∈ ds, c.isDigit = true) →
      (∀ c ∈ ds', c.isDigit = true) → ds ++ rest = ds' ++ rest' → ds = ds' ∧ rest = rest' := by
    intro ds ds' hds hds' heq
    obtain ⟨htake, hdrop⟩ := takeWhile_digits hds hrest
    obtain ⟨htake', hdrop'⟩ := takeWhile_digits hds' hrest'
    rw [heq] at htake hdrop
    exact ⟨htake.symm.trans htake', hdrop.symm.trans hdrop'⟩
  have hvalue : ∀ {m n : ℤ}, Nat.toDigits 10 m.natAbs = Nat.toDigits 10 n.natAbs →
      m.natAbs = n.natAbs := by
    intro m n heq
    have := congrArg natOfDigits heq
    simpa [natOfDigits, Nat.ofDigitChars_ten_toDigits] using this
  have hminus : ∀ (k : ℤ) {cs cs' : List Char}, '-' :: cs ≠ Nat.toDigits 10 k.natAbs ++ cs' := by
    intro k cs cs' heq
    obtain ⟨d, ds, hds⟩ := List.exists_cons_of_ne_nil
      (show Nat.toDigits 10 k.natAbs ≠ [] from Nat.toDigits_ne_nil)
    rw [hds, List.cons_append] at heq
    have hd := hdigits k d (hds ▸ List.mem_cons_self)
    rw [← (List.cons.inj heq).1] at hd
    cases hd
  unfold writeInt at h
  split_ifs at h with hm hn hn
  · obtain ⟨heq, hrests⟩ := hsplit (hdigits m) (hdigits n) (List.cons.inj h).2
    have := hvalue heq
    exact ⟨by omega, hrests⟩
  · exact absurd h (hminus n)
  · exact absurd h.symm (hminus m)
  · obtain ⟨heq, hrests⟩ := hsplit (hdigits m) (hdigits n) h
    have := hvalue heq
    exact ⟨by omega, hrests⟩

theorem bracket_ne_write {v : Value F} (hv : v.isJoined = true) {rest rest' : List Char} :
    ']' :: rest ≠ write true v ++ rest' := by
  obtain ⟨c, cs, hcs, hc⟩ := write_kind hv
  intro heq
  rw [hcs, List.cons_append] at heq
  rw [← (List.cons.inj heq).1] at hc
  cases v with
  | bool b => cases b <;> cases hc
  | _ => cases hc

omit [Interpreter F] in
/-- A value is followed by a comma or by what closes its list. -/
theorem stops_separated {texts : List (List Char)} {rest : List Char} (h : Stops rest) :
    Stops (match texts with
      | [] => rest
      | y :: ys => ',' :: ([','].intercalate (y :: ys) ++ rest)) := by
  cases texts with
  | nil => exact h
  | cons y ys => simp [Stops]

mutual

theorem write_append_inj : ∀ (v w : Value F) {rest rest' : List Char}, v.isJoined = true →
    w.isJoined = true → Stops rest → Stops rest' →
    write true v ++ rest = write true w ++ rest' → v = w ∧ rest = rest'
  | v, w, rest, rest', hv, hw, hrest, hrest', h => by
    have hkind := kind_eq_of_write hv hw h
    cases v with
    | null =>
      cases w with
      | null => exact ⟨rfl, by simpa [write] using h⟩
      | bool b => cases b <;> simp [Value.kind] at hkind
      | _ => simp [Value.kind] at hkind
    | bool b =>
      cases w with
      | bool b' =>
        cases b <;> cases b' <;> simp [Value.kind] at hkind <;> exact ⟨rfl, by simpa [write] using h⟩
      | _ => cases b <;> simp [Value.kind] at hkind
    | float x => simp [Value.isJoined] at hv
    | int m =>
      cases w with
      | int n =>
        obtain ⟨rfl, hrests⟩ := writeInt_append_inj hrest hrest' h
        exact ⟨rfl, hrests⟩
      | bool b => cases b <;> simp [Value.kind] at hkind
      | _ => simp [Value.kind] at hkind
    | str s =>
      cases w with
      | str t =>
        obtain ⟨rfl, hrests⟩ := writeText_append_inj hv hw h
        exact ⟨rfl, hrests⟩
      | bool b => cases b <;> simp [Value.kind] at hkind
      | _ => simp [Value.kind] at hkind
    | arr items =>
      cases w with
      | arr items' =>
        simp only [write, List.cons_append, List.append_assoc, List.nil_append] at h
        obtain ⟨rfl, hrests⟩ := writeItems_append_inj items items' hv hw (List.cons.inj h).2
        exact ⟨rfl, hrests⟩
      | bool b => cases b <;> simp [Value.kind] at hkind
      | _ => simp [Value.kind] at hkind
    | obj fields =>
      cases w with
      | obj fields' =>
        simp only [write, List.cons_append, List.append_assoc, List.nil_append] at h
        obtain ⟨rfl, hrests⟩ := writeFields_append_inj fields fields' hv hw (List.cons.inj h).2
        exact ⟨rfl, hrests⟩
      | bool b => cases b <;> simp [Value.kind] at hkind
      | _ => simp [Value.kind] at hkind
termination_by v => sizeOf v

theorem writeItems_append_inj : ∀ (vs ws : List (Value F)) {rest rest' : List Char},
    joinedItems vs = true → joinedItems ws = true →
    [','].intercalate (writeItems true vs) ++ ']' :: rest =
      [','].intercalate (writeItems true ws) ++ ']' :: rest' → vs = ws ∧ rest = rest'
  | [], [], rest, rest', _, _, h => by
    exact ⟨rfl, by simpa [writeItems] using h⟩
  | [], w :: ws, rest, rest', _, hws, h => by
    rw [joinedItems, Bool.and_eq_true] at hws
    rw [writeItems, writeItems, intercalate_cons_append] at h
    exact absurd h (bracket_ne_write hws.1)
  | v :: vs, [], rest, rest', hvs, _, h => by
    rw [joinedItems, Bool.and_eq_true] at hvs
    rw [writeItems, writeItems, intercalate_cons_append] at h
    exact absurd h.symm (bracket_ne_write hvs.1)
  | v :: vs, w :: ws, rest, rest', hvs, hws, h => by
    rw [joinedItems, Bool.and_eq_true] at hvs hws
    rw [writeItems, writeItems, intercalate_cons_append, intercalate_cons_append] at h
    obtain ⟨rfl, hlater⟩ := write_append_inj v w hvs.1 hws.1 (stops_separated (by simp [Stops]))
      (stops_separated (by simp [Stops])) h
    cases vs with
    | nil =>
      cases ws with
      | nil => exact ⟨rfl, by simpa [writeItems] using hlater⟩
      | cons y ys => simp [writeItems] at hlater
    | cons x xs =>
      cases ws with
      | nil => simp [writeItems] at hlater
      | cons y ys =>
        obtain ⟨heq, hrests⟩ := writeItems_append_inj (x :: xs) (y :: ys) hvs.2 hws.2
          (List.cons.inj hlater).2
        exact ⟨by rw [heq], hrests⟩
termination_by vs => sizeOf vs

theorem writeFields_append_inj : ∀ (fs gs : List (Text × Value F)) {rest rest' : List Char},
    joinedFields fs = true → joinedFields gs = true →
    [','].intercalate (writeFields true fs) ++ '\x7d' :: rest =
      [','].intercalate (writeFields true gs) ++ '\x7d' :: rest' → fs = gs ∧ rest = rest'
  | [], [], rest, rest', _, _, h => by
    exact ⟨rfl, by simpa [writeFields] using h⟩
  | [], (l, w) :: gs, rest, rest', _, _, h => by
    rw [writeFields, writeFields, intercalate_cons_append, writeText] at h
    simp at h
  | (k, v) :: fs, [], rest, rest', _, _, h => by
    rw [writeFields, writeFields, intercalate_cons_append, writeText] at h
    simp at h
  | (k, v) :: fs, (l, w) :: gs, rest, rest', hfs, hgs, h => by
    rw [joinedFields, Bool.and_eq_true, Bool.and_eq_true] at hfs hgs
    rw [writeFields, writeFields, intercalate_cons_append, intercalate_cons_append,
      List.append_assoc, List.append_assoc] at h
    obtain ⟨rfl, hvalue⟩ := writeText_append_inj hfs.1.1 hgs.1.1 h
    obtain ⟨rfl, hlater⟩ := write_append_inj v w hfs.1.2 hgs.1.2
      (stops_separated (by simp [Stops])) (stops_separated (by simp [Stops]))
      (List.cons.inj hvalue).2
    cases fs with
    | nil =>
      cases gs with
      | nil => exact ⟨rfl, by simpa [writeFields] using hlater⟩
      | cons g gs => simp [writeFields] at hlater
    | cons f fs =>
      cases gs with
      | nil => simp [writeFields] at hlater
      | cons g gs =>
        obtain ⟨heq, hrests⟩ := writeFields_append_inj (f :: fs) (g :: gs) hfs.2 hgs.2
          (List.cons.inj hlater).2
        exact ⟨by rw [heq], hrests⟩
termination_by fs => sizeOf fs

end

/-- Equal texts come from equal values. -/
theorem write_inj {v w : Value F} (hv : v.isJoined = true) (hw : w.isJoined = true)
    (h : write true v = write true w) : v = w := by
  have hnone : Stops [] := by simp [Stops]
  exact (write_append_inj v w hv hw hnone hnone (by rw [h])).1

end Write

/-! ## What is read -/

theorem hexValue_lt {c : Char} {n : ℕ} (h : hexValue c = some n) : n < 16 := by
  unfold hexValue at h
  split_ifs at h with hdigit hlower hupper <;> cases h
  · simp only [Char.isDigit, Bool.and_eq_true, decide_eq_true_eq, ge_iff_le,
      UInt32.le_iff_toNat_le] at hdigit
    have : c.toNat ≤ 0x39 := hdigit.2
    omega
  · have : c.toNat ≤ 0x66 := hlower.2
    omega
  · have : c.toNat ≤ 0x46 := hupper.2
    omega

theorem simpleEscape_lt {c : Char} {n : ℕ} (h : simpleEscape c = some n) : n < 0x110000 := by
  unfold simpleEscape at h
  split at h <;> cases h <;> decide

theorem units_lt_of_scanString {cs rest : List Char} {us : List ℕ}
    (h : scanString cs = some (us, rest)) : ∀ u ∈ us, u < 0x110000 := by
  fun_induction scanString cs generalizing us with
  | case1 => cases h
  | case2 rest' =>
    obtain ⟨rfl, rfl⟩ := Prod.mk.inj (Option.some.inj h)
    simp
  | case3 a b c d rest' ih =>
    simp only [Option.bind_eq_bind, Option.bind_eq_some_iff, Prod.exists, Option.some.injEq,
      Prod.mk.injEq] at h
    obtain ⟨va, ha, vb, hb, vc, hc, vd, hd, vs, _, hvs, rfl, rfl⟩ := h
    have ha' := hexValue_lt ha
    have hb' := hexValue_lt hb
    have hc' := hexValue_lt hc
    have hd' := hexValue_lt hd
    rw [List.forall_mem_cons]
    exact ⟨by omega, ih hvs⟩
  | case4 e rest' _ ih =>
    simp only [Option.bind_eq_bind, Option.bind_eq_some_iff, Prod.exists, Option.some.injEq,
      Prod.mk.injEq] at h
    obtain ⟨v, hv, vs, _, hvs, rfl, rfl⟩ := h
    rw [List.forall_mem_cons]
    exact ⟨simpleEscape_lt hv, ih hvs⟩
  | case5 => cases h
  | case6 c rest' _ _ _ _ ih =>
    simp only [Option.bind_eq_bind, Option.bind_eq_some_iff, Prod.exists, Option.some.injEq,
      Prod.mk.injEq] at h
    obtain ⟨vs, _, hvs, rfl, rfl⟩ := h
    rw [List.forall_mem_cons]
    refine ⟨?_, ih hvs⟩
    rcases c.valid with hlow | ⟨-, hhigh⟩
    · exact lt_of_lt_of_le hlow (by decide)
    · exact hhigh

theorem head_joinSurrogates {lo : ℕ} {rest : List ℕ} {point : ℕ}
    (h : point ∈ (joinSurrogates (lo :: rest)).head?) : point = lo ∨ 0x10000 ≤ point := by
  cases rest with
  | nil => exact .inl (by simpa [joinSurrogates, eq_comm] using h)
  | cons next rest =>
    rw [joinSurrogates] at h
    split_ifs at h
    · rw [List.head?_cons, Option.mem_some_iff] at h
      omega
    · rw [List.head?_cons, Option.mem_some_iff] at h
      exact .inl h.symm

theorem isChain_joinSurrogates (us : List ℕ) :
    (joinSurrogates us).IsChain fun hi lo => isPair hi lo = false := by
  fun_induction joinSurrogates us with
  | case1 hi lo rest hpair ih =>
    rw [List.isChain_cons]
    refine ⟨fun next _ => ?_, ih⟩
    simp only [isPair, Bool.and_eq_false_iff, decide_eq_false_iff_not]
    omega
  | case2 hi lo rest hpair ih =>
    rw [List.isChain_cons]
    refine ⟨fun next hnext => ?_, ih⟩
    simp only [isPair, Bool.and_eq_false_iff, decide_eq_false_iff_not]
    rcases head_joinSurrogates hnext with rfl | hhigh <;> omega
  | case3 us hus =>
    match us with
    | [] => exact List.isChain_nil
    | [u] => exact List.isChain_singleton u
    | hi :: lo :: rest => exact absurd rfl (hus hi lo rest)

theorem joinSurrogates_lt {us : List ℕ} (h : ∀ u ∈ us, u < 0x110000) :
    ∀ p ∈ joinSurrogates us, p < 0x110000 := by
  fun_induction joinSurrogates us with
  | case1 hi lo rest hpair ih =>
    rw [List.forall_mem_cons, List.forall_mem_cons] at h
    rw [List.forall_mem_cons]
    exact ⟨by omega, ih h.2.2⟩
  | case2 hi lo rest hpair ih =>
    rw [List.forall_mem_cons] at h
    rw [List.forall_mem_cons]
    exact ⟨h.1, ih h.2⟩
  | case3 us hus => exact h

theorem points_ofPoints {points : List ℕ} (h : ∀ p ∈ points, p < 0x110000) :
    (Text.ofPoints points).points = points := by
  unfold Text.ofPoints
  split_ifs with hlone
  · rfl
  · rw [Text.points, String.toList_ofList, List.map_map]
    refine (List.map_congr_left fun p hp => ?_).trans (List.map_id points)
    have hscalar : isSurrogate p = false := by
      rw [Bool.eq_false_iff]
      exact fun hsurrogate => hlone (List.any_eq_true.mpr ⟨p, hp, hsurrogate⟩)
    have hlt := h p hp
    simp only [isSurrogate, Bool.and_eq_false_iff, decide_eq_false_iff_not] at hscalar
    have hvalid : p.isValidChar := by
      unfold Nat.isValidChar
      omega
    rw [Function.comp_apply, Char.ofNat, dif_pos hvalid]
    rfl

theorem isJoined_of_readString {cs rest : List Char} {t : Text}
    (h : readString cs = .ok (t, rest)) : t.isJoined = true := by
  unfold readString at h
  split at h
  · next us rest' hscan =>
    obtain ⟨rfl, rfl⟩ := Prod.mk.inj (Except.ok.inj h)
    have hlt := joinSurrogates_lt (units_lt_of_scanString hscan)
    rw [Text.isJoined_iff, points_ofPoints hlt]
    exact ⟨hlt, isChain_joinSurrogates us⟩
  · cases h

section Read

variable [Interpreter F]

theorem read_isJoined {hook : PairsHook F} (hk : Keeps hook) (fuel : ℕ) :
    (∀ depth cs v rest, readValue hook fuel depth cs = .ok (v, rest) →
      ∀ t ∈ v.strings, t.isJoined = true) ∧
    (∀ depth cs vs rest, readItems hook fuel depth cs = .ok (vs, rest) →
      ∀ t ∈ itemsStrings vs, t.isJoined = true) ∧
    (∀ depth cs fs rest, readFields hook fuel depth cs = .ok (fs, rest) →
      ∀ t ∈ fieldsStrings fs, t.isJoined = true) := by
  induction fuel with
  | zero => simp [readValue, readItems, readFields]
  | succ fuel ih =>
    obtain ⟨hvalue, hitems, hfields⟩ := ih
    refine ⟨?_, ?_, ?_⟩
    · intro depth cs v rest h
      rw [readValue.eq_def] at h
      dsimp only at h
      split at h
      · simp only [bind_eq_ok, Prod.exists, Except.ok.injEq, Prod.mk.injEq] at h
        obtain ⟨t, _, ht, rfl, rfl⟩ := h
        simpa [Value.strings] using isJoined_of_readString ht
      · split at h
        · cases h
        · split at h
          · simp only [bind_eq_ok, Except.ok.injEq, Prod.mk.injEq] at h
            obtain ⟨w, hw, rfl, rfl⟩ := h
            exact fun t ht => absurd (hk _ w hw t ht) (by simp [fieldsStrings])
          · simp only [bind_eq_ok, Prod.exists, Except.ok.injEq, Prod.mk.injEq] at h
            obtain ⟨fs, _, hfs, w, hw, rfl, rfl⟩ := h
            exact fun t ht => hfields _ _ _ _ hfs t (hk fs w hw t ht)
      · split at h
        · cases h
        · split at h
          · obtain ⟨rfl, rfl⟩ := Prod.mk.inj (Except.ok.inj h)
            simp [Value.strings, itemsStrings]
          · simp only [bind_eq_ok, Prod.exists, Except.ok.injEq, Prod.mk.injEq] at h
            obtain ⟨vs, _, hvs, rfl, rfl⟩ := h
            exact hitems _ _ _ _ hvs
      -- the literals and the numbers hold no strings
      case h_10 =>
        rw [(readNumber_spelled h).2]
        simp
      all_goals
        obtain ⟨rfl, rfl⟩ := Prod.mk.inj (Except.ok.inj h)
        simp [Value.strings]
    · intro depth cs vs rest h
      simp only [readItems, bind_eq_ok, Prod.exists] at h
      obtain ⟨v, rest', hv, h⟩ := h
      have hread := hvalue _ _ _ _ hv
      split at h
      · obtain ⟨rfl, rfl⟩ := Prod.mk.inj (Except.ok.inj h)
        simpa [itemsStrings] using hread
      · simp only [bind_eq_ok, Prod.exists, Except.ok.injEq, Prod.mk.injEq] at h
        obtain ⟨ws, _, hws, rfl, rfl⟩ := h
        rw [itemsStrings, List.forall_mem_append]
        exact ⟨hread, hitems _ _ _ _ hws⟩
      · cases h
    · intro depth cs fs rest h
      rw [readFields.eq_def] at h
      dsimp only at h
      split at h
      · simp only [bind_eq_ok, Prod.exists] at h
        obtain ⟨k, _, -, h⟩ := h
        split at h
        · simp only [bind_eq_ok, Prod.exists] at h
          obtain ⟨v, _, hv, h⟩ := h
          have hread := hvalue _ _ _ _ hv
          split at h
          · obtain ⟨rfl, rfl⟩ := Prod.mk.inj (Except.ok.inj h)
            simpa [fieldsStrings] using hread
          · simp only [bind_eq_ok, Prod.exists, Except.ok.injEq, Prod.mk.injEq] at h
            obtain ⟨fs', _, hfs', rfl, rfl⟩ := h
            rw [fieldsStrings, List.forall_mem_append]
            exact ⟨hread, hfields _ _ _ _ hfs'⟩
          · cases h
        · cases h
      · cases h

/-- The strings of a value that was read have their surrogates joined. -/
theorem isJoined_of_loads {hook : PairsHook F} (hk : Keeps hook) {text : List Char} {v : Value F}
    (h : loads hook text = .ok v) : ∀ t ∈ v.strings, t.isJoined = true := by
  simp only [loads, bind_eq_ok, Prod.exists] at h
  obtain ⟨w, rest, hw, h⟩ := h
  split at h
  · obtain rfl := Except.ok.inj h
    exact (read_isJoined hk _).1 _ _ _ _ hw
  · cases h

omit [Interpreter F] in
theorem keeps_rejectDuplicates : Keeps (rejectDuplicates : PairsHook F) := by
  intro fields v h t ht
  rw [rejectDuplicates] at h
  split at h
  · cases h
  · obtain rfl := Except.ok.inj h
    rw [dict, Value.strings, mem_fieldsStrings] at ht
    obtain ⟨f, hf, ht⟩ := ht
    rw [List.mem_insertionSort] at hf
    exact mem_fieldsStrings.mpr ⟨f, hf, ht⟩

end Read

end Json
