import Mathlib
import WebsiteInfrastructure.Library.JsonReading
import WebsiteInfrastructure.Library.PythonObjects
import WebsiteInfrastructure.Library.Raising

/-!
# How the strings of a document are spelled

In a JSON text without a backslash every string of the value stands between quotation marks.
-/

namespace Json

open Raising

variable {F : Type}

mutual

/-- The strings of a value, those of its parts included. -/
def Value.strings : Value F → List Text
  | .str t => [t]
  | .arr items => itemsStrings items
  | .obj fields => fieldsStrings fields
  | _ => []

def itemsStrings : List (Value F) → List Text
  | [] => []
  | v :: vs => v.strings ++ itemsStrings vs

def fieldsStrings : List (Text × Value F) → List Text
  | [] => []
  | (_, v) :: fs => v.strings ++ fieldsStrings fs

end

theorem mem_fieldsStrings {fields : List (Text × Value F)} {t : Text} :
    t ∈ fieldsStrings fields ↔ ∃ f ∈ fields, t ∈ f.2.strings := by
  induction fields with
  | nil => simp [fieldsStrings]
  | cons f fields ih => rw [fieldsStrings, List.mem_append, ih, List.exists_mem_cons_iff]

theorem mem_itemsStrings {items : List (Value F)} {t : Text} :
    t ∈ itemsStrings items ↔ ∃ v ∈ items, t ∈ v.strings := by
  induction items with
  | nil => simp [itemsStrings]
  | cons v items ih => rw [itemsStrings, List.mem_append, ih, List.exists_mem_cons_iff]

/-- A string that stands in a text as it is, between quotation marks. -/
def SpelledIn (text : List Char) (t : Text) : Prop :=
  ∃ head s tail, text = head ++ '"' :: (s ++ '"' :: tail) ∧ t = .scalar (String.ofList s)

theorem SpelledIn.of_suffix {text rest : List Char} {t : Text} (h : SpelledIn rest t)
    (hsuffix : rest <:+ text) : SpelledIn text t := by
  obtain ⟨before, rfl⟩ := hsuffix
  obtain ⟨head, s, tail, rfl, ht⟩ := h
  exact ⟨before ++ head, s, tail, by simp, ht⟩

/-! ## Strings -/

theorem joinSurrogates_chars (s : List Char) : joinSurrogates (s.map Char.toNat) =
    s.map Char.toNat := by
  induction s with
  | nil => rfl
  | cons c cs ih =>
    cases cs with
    | nil => rfl
    | cons d ds =>
      have hscalar := c.valid
      have hnot : ¬ (0xd800 ≤ c.toNat ∧ c.toNat < 0xdc00 ∧ 0xdc00 ≤ d.toNat ∧ d.toNat < 0xe000) := by
        rcases hscalar with h | ⟨h, -⟩ <;> simp only [Char.toNat] <;> omega
      rw [List.map_cons, List.map_cons, joinSurrogates, if_neg hnot, ← List.map_cons, ih]

theorem scanString_spelled {cs rest : List Char} {units : List ℕ} (hslash : '\\' ∉ cs)
    (h : scanString cs = some (units, rest)) :
    ∃ s, cs = s ++ '"' :: rest ∧ units = s.map Char.toNat := by
  induction cs generalizing units with
  | nil => simp [scanString] at h
  | cons c cs ih =>
    have hc : c ≠ '\\' := fun heq => hslash (heq ▸ List.mem_cons_self)
    rw [scanString.eq_def] at h
    split at h
    · simp_all
    · next heq =>
      obtain ⟨rfl, rfl⟩ := List.cons.inj heq
      simp only [Option.some.injEq, Prod.mk.injEq] at h
      exact ⟨[], by simp [h.2], h.1.symm⟩
    · simp_all
    · simp_all
    · next heq =>
      obtain ⟨rfl, rfl⟩ := List.cons.inj heq
      split at h
      · cases h
      · simp only [bind, Option.bind_eq_some_iff, Prod.exists, Option.some.injEq,
          Prod.mk.injEq] at h
        obtain ⟨more, rest', hmore, rfl, rfl⟩ := h
        obtain ⟨s, hs, hunits⟩ := ih (fun hmem => hslash (List.mem_cons_of_mem _ hmem)) hmore
        exact ⟨_ :: s, by rw [hs]; rfl, by rw [hunits]; rfl⟩

theorem readString_spelled {cs rest : List Char} {t : Text} (hslash : '\\' ∉ cs)
    (h : readString cs = .ok (t, rest)) :
    rest <:+ cs ∧ SpelledIn ('"' :: cs) t := by
  rw [readString] at h
  split at h
  · next units rest' hscan =>
    obtain ⟨rfl, rfl⟩ := Prod.mk.inj (Except.ok.inj h)
    obtain ⟨s, rfl, rfl⟩ := scanString_spelled hslash hscan
    refine ⟨(List.suffix_cons _ _).trans (List.suffix_append _ _), [], s, rest', rfl, ?_⟩
    rw [joinSurrogates_chars, Text.ofPoints_toNat]
  · cases h

theorem skipBlanks_suffix (cs : List Char) : skipBlanks cs <:+ cs := List.dropWhile_suffix _

theorem skipBlanks_suffix_cons (c : Char) (cs : List Char) : skipBlanks cs <:+ c :: cs :=
  (skipBlanks_suffix cs).trans (List.suffix_cons c cs)

theorem scanWhole_suffix {cs ds rest : List Char} (h : scanWhole cs = some (ds, rest)) :
    rest <:+ cs := by
  rw [scanWhole.eq_def] at h
  split at h
  · obtain ⟨-, rfl⟩ := Prod.mk.inj (Option.some.inj h)
    exact List.suffix_cons _ _
  · split at h
    · obtain ⟨-, rfl⟩ := Prod.mk.inj (Option.some.inj h)
      exact List.dropWhile_suffix _
    · cases h
  · cases h

theorem scanFraction_suffix (cs : List Char) : (scanFraction cs).2 <:+ cs := by
  rw [scanFraction.eq_def]
  split
  · split
    · exact List.suffix_refl _
    · exact (List.dropWhile_suffix _).trans (List.suffix_cons _ _)
  · exact List.suffix_refl _

theorem scanExponent_suffix (cs : List Char) : (scanExponent cs).2 <:+ cs := by
  rw [scanExponent.eq_def]
  split
  · split
    · dsimp only
      split
      · exact List.suffix_refl _
      · exact (List.dropWhile_suffix _).trans ((List.drop_suffix _ _).trans (List.suffix_cons _ _))
    · exact List.suffix_refl _
  · exact List.suffix_refl _

variable [Interpreter F]

theorem readNumber_spelled {cs rest : List Char} {v : Value F}
    (h : readNumber cs = .ok (v, rest)) : rest <:+ cs ∧ v.strings = [] := by
  unfold readNumber at h
  dsimp only at h
  have hunsigned : (if cs.head? = some '-' then cs.tail else cs) <:+ cs := by
    split
    · exact List.tail_suffix _
    · exact List.suffix_refl _
  split at h
  · cases h
  · next whole after hwhole =>
    have hwhole' := (scanWhole_suffix hwhole).trans hunsigned
    have hfraction := (scanFraction_suffix after).trans hwhole'
    have hexponent := (scanExponent_suffix (scanFraction after).2).trans hfraction
    split at h
    · split at h
      · obtain ⟨rfl, rfl⟩ := Prod.mk.inj (Except.ok.inj h)
        exact ⟨hexponent, rfl⟩
      · cases h
    · obtain ⟨rfl, rfl⟩ := Prod.mk.inj (Except.ok.inj h)
      exact ⟨hexponent, rfl⟩

/-! ## Values -/

/-- A hook that makes up no strings. -/
def Keeps (hook : PairsHook F) : Prop :=
  ∀ fields v, hook fields = .ok v → ∀ t ∈ v.strings, t ∈ fieldsStrings fields

/-- The entries that `keepLast` keeps. -/
def lastOnes (fields : List (Text × Value F)) : List (Text × Value F) :=
  fields.foldr (fun f kept => if f.1 ∈ kept.map Prod.fst then kept else f :: kept) []

omit [Interpreter F] in
theorem lastOnes_spec (fields : List (Text × Value F)) :
    lastOnes fields ⊆ fields ∧ ((lastOnes fields).map Prod.fst).Nodup := by
  induction fields with
  | nil => simp [lastOnes]
  | cons f fields ih =>
    have hcons : lastOnes (f :: fields) =
        if f.1 ∈ (lastOnes fields).map Prod.fst then lastOnes fields else f :: lastOnes fields := rfl
    rw [hcons]
    split
    · exact ⟨fun g hg => List.mem_cons_of_mem _ (ih.1 hg), ih.2⟩
    · next hnew =>
      refine ⟨List.cons_subset_cons f ih.1, ?_⟩
      rw [List.map_cons, List.nodup_cons]
      exact ⟨hnew, ih.2⟩

omit [Interpreter F] in
theorem keeps_keepLast : Keeps (keepLast : PairsHook F) := by
  intro fields v h t ht
  obtain rfl := Except.ok.inj h
  change t ∈ (dict (lastOnes fields)).strings at ht
  rw [dict, Value.strings, mem_fieldsStrings] at ht
  obtain ⟨f, hf, ht⟩ := ht
  rw [List.mem_insertionSort] at hf
  exact mem_fieldsStrings.mpr ⟨f, (lastOnes_spec fields).1 hf, ht⟩

omit [Interpreter F] in
theorem orders_keepLast : Orders (keepLast : PairsHook F) := by
  intro fields v hfields h
  obtain rfl := Except.ok.inj h
  change (dict (lastOnes fields)).inOrder = true
  obtain ⟨hsubset, hnodup⟩ := lastOnes_spec fields
  rw [dict, Value.inOrder, keysInOrder_dict hnodup, Bool.true_and, fieldsInOrder_iff]
  intro f hf
  exact fieldsInOrder_iff.mp hfields f (hsubset ((List.mem_insertionSort _).mp hf))

theorem inOrder_of_loads {text : List Char} {v : Value F} (h : loads keepLast text = .ok v) :
    v.inOrder = true := by
  simp only [loads, bind_eq_ok, Prod.exists] at h
  obtain ⟨w, rest, hw, h⟩ := h
  split at h
  · obtain rfl := Except.ok.inj h
    exact (read_inOrder orders_keepLast _).1 _ _ _ _ hw
  · cases h

omit [Interpreter F] in
/-- The keys of a dict in a value in order are distinct. -/
theorem nodup_of_inOrder {fields : List (Text × Value F)}
    (h : (Value.obj fields).inOrder = true) : (fields.map Prod.fst).Nodup := by
  rw [Value.inOrder, Bool.and_eq_true] at h
  exact nodup_inOrder h.1

omit [Interpreter F] in
theorem inOrder_of_mem {items : List (Value F)} (h : (Value.arr items).inOrder = true)
    {v : Value F} (hv : v ∈ items) : v.inOrder = true := by
  rw [Value.inOrder] at h
  induction items with
  | nil => cases hv
  | cons w items ih =>
    rw [itemsInOrder, Bool.and_eq_true] at h
    rcases List.mem_cons.mp hv with rfl | hv
    · exact h.1
    · exact ih h.2 hv

omit [Interpreter F] in
theorem get_of_mem {fields : List (Text × Value F)} (h : (fields.map Prod.fst).Nodup)
    {key : String} {v : Value F} (hmem : (.scalar key, v) ∈ fields) :
    (Value.obj fields).get key = v := by
  induction fields with
  | nil => cases hmem
  | cons f fields ih =>
    rw [List.map_cons, List.nodup_cons] at h
    rcases List.mem_cons.mp hmem with rfl | hmem
    · simp [Value.get, Value.get?]
    · have hne : (Text.scalar key == f.1) = false := by
        rw [beq_eq_false_iff_ne]
        intro heq
        exact h.1 (heq ▸ List.mem_map_of_mem hmem)
      have hskip : (Value.obj (f :: fields)).get key = (Value.obj fields).get key := by
        rw [Value.get, Value.get, Value.get?, Value.get?, List.lookup_cons, hne]
      rw [hskip, ih h.2 hmem]

omit [Interpreter F] in
theorem inOrder_of_get? {record v : Value F} (h : record.inOrder = true) {key : String}
    (hv : record.get? key = some v) : v.inOrder = true := by
  cases record with
  | obj fields =>
    rw [Value.inOrder, Bool.and_eq_true] at h
    exact fieldsInOrder_iff.mp h.2 _ (mem_of_lookup hv)
  | _ => cases hv

/-- What was read leaves a rest, and the strings read are spelled in what was taken. -/
def Spelled (cs rest : List Char) (strings : List Text) : Prop :=
  rest <:+ cs ∧ ∀ t ∈ strings, SpelledIn cs t

theorem Spelled.of_suffix {text cs rest : List Char} {strings : List Text}
    (h : Spelled cs rest strings) (hsuffix : cs <:+ text) : Spelled text rest strings :=
  ⟨h.1.trans hsuffix, fun t ht => (h.2 t ht).of_suffix hsuffix⟩

theorem Spelled.append {cs middle rest : List Char} {first second : List Text}
    (h : Spelled cs middle first) (h' : Spelled middle rest second) :
    Spelled cs rest (first ++ second) := by
  refine ⟨h'.1.trans h.1, ?_⟩
  intro t ht
  rcases List.mem_append.mp ht with ht | ht
  · exact h.2 t ht
  · exact (h'.2 t ht).of_suffix h.1

theorem Spelled.none {cs rest : List Char} (h : rest <:+ cs) : Spelled cs rest [] :=
  ⟨h, fun _ ht => absurd ht List.not_mem_nil⟩

omit [Interpreter F] in
theorem suffix_of_skipBlanks {cs rest : List Char} {c : Char} (h : skipBlanks cs = c :: rest) :
    rest <:+ cs :=
  (List.suffix_cons c rest).trans (h ▸ skipBlanks_suffix cs)

theorem read_spelled {hook : PairsHook F} (hk : Keeps hook) (fuel : ℕ) :
    (∀ depth cs v rest, '\\' ∉ cs → readValue hook fuel depth cs = .ok (v, rest) →
      Spelled cs rest v.strings) ∧
    (∀ depth cs vs rest, '\\' ∉ cs → readItems hook fuel depth cs = .ok (vs, rest) →
      Spelled cs rest (itemsStrings vs)) ∧
    (∀ depth cs fs rest, '\\' ∉ cs → readFields hook fuel depth cs = .ok (fs, rest) →
      Spelled cs rest (fieldsStrings fs)) := by
  induction fuel with
  | zero => simp [readValue, readItems, readFields]
  | succ fuel ih =>
    obtain ⟨hvalue, hitems, hfields⟩ := ih
    refine ⟨?_, ?_, ?_⟩
    · intro depth cs v rest hslash h
      rw [readValue.eq_def] at h
      dsimp only at h
      split at h
      · simp only [bind_eq_ok, Prod.exists, Except.ok.injEq, Prod.mk.injEq] at h
        obtain ⟨t, _, ht, rfl, rfl⟩ := h
        obtain ⟨hrest, hspelled⟩ := readString_spelled (fun hm => hslash (List.mem_cons_of_mem _ hm)) ht
        exact ⟨hrest.trans (List.suffix_cons _ _), by simpa [Value.strings] using hspelled⟩
      · split at h
        · cases h
        · split at h
          · next heq =>
            simp only [bind_eq_ok, Except.ok.injEq, Prod.mk.injEq] at h
            obtain ⟨w, hw, rfl, rfl⟩ := h
            have hempty := hk _ w hw
            exact ⟨(suffix_of_skipBlanks heq).trans (List.suffix_cons _ _),
              fun t ht => absurd (hempty t ht) (by simp [fieldsStrings])⟩
          · simp only [bind_eq_ok, Prod.exists, Except.ok.injEq, Prod.mk.injEq] at h
            obtain ⟨fs, _, hfs, w, hw, rfl, rfl⟩ := h
            have hinner := hfields _ _ _ _
              (fun hm => hslash ((skipBlanks_suffix_cons '{' _).subset hm)) hfs
            have hread := hinner.of_suffix (skipBlanks_suffix_cons '{' _)
            exact ⟨hread.1, fun t ht => hread.2 t (hk fs w hw t ht)⟩
      · split at h
        · cases h
        · split at h
          · next heq =>
            obtain ⟨rfl, rfl⟩ := Prod.mk.inj (Except.ok.inj h)
            exact .none ((suffix_of_skipBlanks heq).trans (List.suffix_cons _ _))
          · simp only [bind_eq_ok, Prod.exists, Except.ok.injEq, Prod.mk.injEq] at h
            obtain ⟨vs, _, hvs, rfl, rfl⟩ := h
            have hinner := hitems _ _ _ _
              (fun hm => hslash ((skipBlanks_suffix_cons '[' _).subset hm)) hvs
            exact hinner.of_suffix (skipBlanks_suffix_cons '[' _)
      -- the literals and the numbers hold no strings
      case h_10 =>
        obtain ⟨hrest, hnone⟩ := readNumber_spelled h
        rw [hnone]
        exact .none hrest
      all_goals
        obtain ⟨rfl, rfl⟩ := Prod.mk.inj (Except.ok.inj h)
        exact .none (by simp [List.suffix_cons_iff])
    · intro depth cs vs rest hslash h
      simp only [readItems, bind_eq_ok, Prod.exists] at h
      obtain ⟨v, rest', hv, h⟩ := h
      have hread := hvalue _ _ _ _ hslash hv
      split at h
      · next heq =>
        obtain ⟨rfl, rfl⟩ := Prod.mk.inj (Except.ok.inj h)
        have hnone := Spelled.none (suffix_of_skipBlanks heq)
        exact hread.append hnone
      · next heq =>
        simp only [bind_eq_ok, Prod.exists, Except.ok.injEq, Prod.mk.injEq] at h
        obtain ⟨ws, _, hws, rfl, rfl⟩ := h
        have hsuffix := (skipBlanks_suffix _).trans (suffix_of_skipBlanks heq)
        have hrest := hitems _ _ _ _ (fun hm => hslash (hread.1.subset (hsuffix.subset hm))) hws
        exact hread.append (hrest.of_suffix hsuffix)
      · cases h
    · intro depth cs fs rest hslash h
      rw [readFields.eq_def] at h
      dsimp only at h
      split at h
      · simp only [bind_eq_ok, Prod.exists] at h
        obtain ⟨k, _, hkey, h⟩ := h
        have hkeyrest := (readString_spelled (fun hm => hslash (List.mem_cons_of_mem _ hm)) hkey).1
        split at h
        · next heq =>
          simp only [bind_eq_ok, Prod.exists] at h
          obtain ⟨v, _, hv, h⟩ := h
          have hsuffix := ((skipBlanks_suffix _).trans (suffix_of_skipBlanks heq)).trans
            (hkeyrest.trans (List.suffix_cons '"' _))
          have hread := (hvalue _ _ _ _ (fun hm => hslash (hsuffix.subset hm)) hv).of_suffix hsuffix
          split at h
          · next heq' =>
            obtain ⟨rfl, rfl⟩ := Prod.mk.inj (Except.ok.inj h)
            have hnone := Spelled.none (suffix_of_skipBlanks heq')
            exact hread.append hnone
          · next heq' =>
            simp only [bind_eq_ok, Prod.exists, Except.ok.injEq, Prod.mk.injEq] at h
            obtain ⟨fs', _, hfs', rfl, rfl⟩ := h
            have hmore := (skipBlanks_suffix _).trans (suffix_of_skipBlanks heq')
            have hrest := hfields _ _ _ _ (fun hm => hslash (hread.1.subset (hmore.subset hm))) hfs'
            exact hread.append (hrest.of_suffix hmore)
          · cases h
        · cases h
      · cases h

/-- In a text without a backslash every string of the value stands as it is. -/
theorem loads_spelled {hook : PairsHook F} (hk : Keeps hook) {text : List Char} {v : Value F}
    (hslash : '\\' ∉ text) (h : loads hook text = .ok v) : ∀ t ∈ v.strings, SpelledIn text t := by
  simp only [loads, bind_eq_ok, Prod.exists] at h
  obtain ⟨w, rest, hw, h⟩ := h
  have hsuffix := skipBlanks_suffix text
  split at h
  · obtain rfl := Except.ok.inj h
    have hread := (read_spelled hk _).1 _ _ _ _ (fun hm => hslash (hsuffix.subset hm)) hw
    exact (hread.of_suffix hsuffix).2
  · cases h

end Json
