import Mathlib
import WebsiteInfrastructure.Library.JsonWriting

/-!
# Readings that differ in the hook

Two readings of one text with two `object_pairs_hook`s take the same characters and build
related values. With it, a reading that refuses duplicates is the reading that keeps every pair,
of a text without a duplicate at any depth, and its dicts are in the order of their keys.
-/

namespace Json

open Raising

variable {F : Type}

/-! ## Related hooks -/

/-- A value that holds other values. -/
def Value.isContainer : Value F → Bool
  | .arr _ => true
  | .obj _ => true
  | _ => false

/-- A relation of values that relates every atom to itself, and arrays item by item. -/
structure Congruent (r : Value F → Value F → Prop) : Prop where
  atom : ∀ v, v.isContainer = false → r v v
  arr : ∀ vs ws, List.Forall₂ r vs ws → r (.arr vs) (.arr ws)

/-- Pairs with equal keys and related values. -/
def PairsRelated (r : Value F → Value F → Prop) :
    List (Text × Value F) → List (Text × Value F) → Prop :=
  List.Forall₂ fun f g => f.1 = g.1 ∧ r f.2 g.2

/-- Whatever the first hook builds, the second builds something related from related pairs. -/
def Simulates (r : Value F → Value F → Prop) (hook hook' : PairsHook F) : Prop :=
  ∀ fields fields' v, PairsRelated r fields fields' → hook fields = .ok v →
    ∃ w, hook' fields' = .ok w ∧ r v w

section Read

variable [Interpreter F]

theorem isContainer_of_readNumber {cs rest : List Char} {v : Value F}
    (h : readNumber cs = .ok (v, rest)) : v.isContainer = false := by
  unfold readNumber at h
  dsimp only at h
  split at h
  · cases h
  · split at h
    · split at h
      · obtain ⟨rfl, -⟩ := Prod.mk.inj (Except.ok.inj h)
        rfl
      · cases h
    · obtain ⟨rfl, -⟩ := Prod.mk.inj (Except.ok.inj h)
      rfl

/-- Both readings take the same characters at every value, item and pair; by induction on the fuel,
with the three kinds of reading together. -/
theorem read_simulates {r : Value F → Value F → Prop} (hr : Congruent r) {hook hook' : PairsHook F}
    (hs : Simulates r hook hook') (fuel : ℕ) :
    (∀ depth cs v rest, readValue hook fuel depth cs = .ok (v, rest) →
      ∃ w, readValue hook' fuel depth cs = .ok (w, rest) ∧ r v w) ∧
    (∀ depth cs vs rest, readItems hook fuel depth cs = .ok (vs, rest) →
      ∃ ws, readItems hook' fuel depth cs = .ok (ws, rest) ∧ List.Forall₂ r vs ws) ∧
    (∀ depth cs fs rest, readFields hook fuel depth cs = .ok (fs, rest) →
      ∃ gs, readFields hook' fuel depth cs = .ok (gs, rest) ∧ PairsRelated r fs gs) := by
  induction fuel with
  | zero => simp [readValue, readItems, readFields]
  | succ fuel ih =>
    obtain ⟨hvalue, hitems, hfields⟩ := ih
    refine ⟨?_, ?_, ?_⟩
    · intro depth cs v rest h
      rw [readValue.eq_def] at h ⊢
      dsimp only at h ⊢
      split at h
      · refine ⟨v, h, ?_⟩
        simp only [bind_eq_ok, Prod.exists, Except.ok.injEq, Prod.mk.injEq] at h
        obtain ⟨t, _, -, rfl, -⟩ := h
        exact hr.atom _ rfl
      · split at h
        · cases h
        · split at h
          · simp only [bind_eq_ok, Except.ok.injEq, Prod.mk.injEq] at h
            obtain ⟨u, hu, rfl, rfl⟩ := h
            obtain ⟨w, hw, hrel⟩ := hs [] [] _ .nil hu
            exact ⟨w, by simp [hw], hrel⟩
          · simp only [bind_eq_ok, Prod.exists, Except.ok.injEq, Prod.mk.injEq] at h
            obtain ⟨fs, _, hfs, u, hu, rfl, rfl⟩ := h
            obtain ⟨gs, hgs, hpairs⟩ := hfields _ _ _ _ hfs
            obtain ⟨w, hw, hrel⟩ := hs fs gs _ hpairs hu
            exact ⟨w, by simp [hgs, hw], hrel⟩
      · split at h
        · cases h
        · split at h
          · obtain ⟨rfl, rfl⟩ := Prod.mk.inj (Except.ok.inj h)
            exact ⟨_, rfl, hr.arr _ _ .nil⟩
          · simp only [bind_eq_ok, Prod.exists, Except.ok.injEq, Prod.mk.injEq] at h
            obtain ⟨vs, _, hvs, rfl, rfl⟩ := h
            obtain ⟨ws, hws, hrel⟩ := hitems _ _ _ _ hvs
            exact ⟨_, by simp [hws], hr.arr _ _ hrel⟩
      -- the literals and the numbers are read without the hook
      case h_10 => exact ⟨v, h, hr.atom _ (isContainer_of_readNumber h)⟩
      all_goals
        obtain ⟨rfl, rfl⟩ := Prod.mk.inj (Except.ok.inj h)
        exact ⟨_, rfl, hr.atom _ rfl⟩
    · intro depth cs vs rest h
      simp only [readItems, bind_eq_ok, Prod.exists] at h ⊢
      obtain ⟨v, rest', hv, h⟩ := h
      obtain ⟨w, hw, hrel⟩ := hvalue _ _ _ _ hv
      split at h
      · next after hafter =>
        obtain ⟨rfl, rfl⟩ := Prod.mk.inj (Except.ok.inj h)
        exact ⟨[w], ⟨w, rest', hw, by simp [hafter]⟩, .cons hrel .nil⟩
      · next after hafter =>
        simp only [bind_eq_ok, Prod.exists, Except.ok.injEq, Prod.mk.injEq] at h
        obtain ⟨us, _, hus, rfl, rfl⟩ := h
        obtain ⟨ws, hws, hmore⟩ := hitems _ _ _ _ hus
        exact ⟨w :: ws, ⟨w, rest', hw, by simp [hafter, hws]⟩, .cons hrel hmore⟩
      · cases h
    · intro depth cs fs rest h
      rw [readFields.eq_def] at h ⊢
      dsimp only at h ⊢
      split at h
      · simp only [bind_eq_ok, Prod.exists] at h ⊢
        obtain ⟨k, rest', hk, h⟩ := h
        split at h
        · next after hcolon =>
          simp only [bind_eq_ok, Prod.exists] at h
          obtain ⟨v, rest'', hv, h⟩ := h
          obtain ⟨w, hw, hrel⟩ := hvalue _ _ _ _ hv
          split at h
          · next after hafter =>
            obtain ⟨rfl, rfl⟩ := Prod.mk.inj (Except.ok.inj h)
            exact ⟨[(k, w)], ⟨k, rest', hk, by simp [hcolon, hw, hafter]⟩,
              .cons ⟨rfl, hrel⟩ .nil⟩
          · next after hafter =>
            simp only [bind_eq_ok, Prod.exists, Except.ok.injEq, Prod.mk.injEq] at h
            obtain ⟨us, _, hus, rfl, rfl⟩ := h
            obtain ⟨gs, hgs, hmore⟩ := hfields _ _ _ _ hus
            exact ⟨(k, w) :: gs, ⟨k, rest', hk, by simp [hcolon, hw, hafter, hgs]⟩,
              .cons ⟨rfl, hrel⟩ hmore⟩
          · cases h
        · cases h
      · cases h

theorem loads_simulates {r : Value F → Value F → Prop} (hr : Congruent r)
    {hook hook' : PairsHook F} (hs : Simulates r hook hook') {text : List Char} {v : Value F}
    (h : loads hook text = .ok v) : ∃ w, loads hook' text = .ok w ∧ r v w := by
  simp only [loads, bind_eq_ok, Prod.exists] at h ⊢
  obtain ⟨u, rest, hu, h⟩ := h
  obtain ⟨w, hw, hrel⟩ := (read_simulates hr hs _).1 _ _ _ _ hu
  split at h
  · next hrest =>
    obtain rfl := Except.ok.inj h
    exact ⟨w, ⟨w, rest, hw, by rw [hrest]⟩, hrel⟩
  · cases h

end Read

/-! ## Every pair kept -/

/-- The dict of all pairs as they stand in the text, equal keys included. -/
def keepAll : PairsHook F := fun fields => .ok (.obj fields)

mutual

/-- No object in the value has two pairs with one key. -/
def Value.distinctKeys : Value F → Prop
  | .arr items => itemsDistinct items
  | .obj fields => (fields.map Prod.fst).Nodup ∧ fieldsDistinct fields
  | _ => True

def itemsDistinct : List (Value F) → Prop
  | [] => True
  | v :: vs => v.distinctKeys ∧ itemsDistinct vs

def fieldsDistinct : List (Text × Value F) → Prop
  | [] => True
  | (_, v) :: fs => v.distinctKeys ∧ fieldsDistinct fs

end

mutual

/-- The value with the pairs of every object in the order of their keys. -/
def Value.sorted : Value F → Value F
  | .arr items => .arr (itemsSorted items)
  | .obj fields => dict (fieldsSorted fields)
  | v => v

def itemsSorted : List (Value F) → List (Value F)
  | [] => []
  | v :: vs => v.sorted :: itemsSorted vs

def fieldsSorted : List (Text × Value F) → List (Text × Value F)
  | [] => []
  | (k, v) :: fs => (k, v.sorted) :: fieldsSorted fs

end

/-- The second value has no duplicate key, and with its keys in order it is the first. -/
def Collects (v raw : Value F) : Prop := raw.distinctKeys ∧ raw.sorted = v

theorem collects_items {vs raws : List (Value F)} (h : List.Forall₂ Collects vs raws) :
    itemsDistinct raws ∧ itemsSorted raws = vs := by
  induction h with
  | nil => exact ⟨trivial, rfl⟩
  | cons hv _ ih => exact ⟨⟨hv.1, ih.1⟩, by rw [itemsSorted, hv.2, ih.2]⟩

theorem collects_fields {fs raws : List (Text × Value F)} (h : PairsRelated Collects fs raws) :
    fieldsDistinct raws ∧ fieldsSorted raws = fs ∧ raws.map Prod.fst = fs.map Prod.fst := by
  induction h with
  | nil => exact ⟨trivial, rfl, rfl⟩
  | cons hf _ ih =>
    obtain ⟨hkey, hdistinct, hsorted⟩ := hf
    refine ⟨⟨hdistinct, ih.1⟩, ?_, ?_⟩
    · rw [fieldsSorted, hsorted, ih.2.1, ← hkey]
    · rw [List.map_cons, List.map_cons, ih.2.2, hkey]

theorem congruent_collects : Congruent (Collects (F := F)) where
  atom v h := by cases v <;> simp_all [Value.isContainer, Collects, Value.distinctKeys, Value.sorted]
  arr vs raws h := by
    obtain ⟨hdistinct, hsorted⟩ := collects_items h
    exact ⟨hdistinct, by rw [Value.sorted, hsorted]⟩

theorem simulates_rejectDuplicates :
    Simulates Collects (rejectDuplicates : PairsHook F) keepAll := by
  intro fields raws v hpairs h
  obtain ⟨hdistinct, hsorted, hkeys⟩ := collects_fields hpairs
  rw [rejectDuplicates] at h
  split at h
  · cases h
  · next hnone =>
    obtain rfl := Except.ok.inj h
    refine ⟨.obj raws, rfl, ⟨?_, hdistinct⟩, by rw [Value.sorted, hsorted]⟩
    rw [hkeys]
    exact (nodup_of_duplicateKey hnone).1

/-- A text that is read with duplicates refused has none: what it spells, pair by pair, has distinct
keys at every depth. -/
theorem loads_distinct [Interpreter F] {text : List Char} {v : Value F}
    (h : loads rejectDuplicates text = .ok v) :
    ∃ raw, loads keepAll text = .ok raw ∧ raw.distinctKeys ∧ raw.sorted = v :=
  loads_simulates congruent_collects simulates_rejectDuplicates h

/-! ## What can be written -/

/-- A text without a lone surrogate. -/
def Text.isScalar : Text → Bool
  | .scalar _ => true
  | .lone _ _ => false

mutual

/-- How deep dicts and lists nest. -/
def Value.depth : Value F → ℕ
  | .arr items => itemsDepth items + 1
  | .obj fields => fieldsDepth fields + 1
  | _ => 0

def itemsDepth : List (Value F) → ℕ
  | [] => 0
  | v :: vs => max v.depth (itemsDepth vs)

def fieldsDepth : List (Text × Value F) → ℕ
  | [] => 0
  | (_, v) :: fs => max v.depth (fieldsDepth fs)

end

/-- `dumps` does not nest too deep, and UTF-8 can encode what it returns. -/
def Value.Encodable [Interpreter F] (v : Value F) : Prop :=
  v.depth ≤ Interpreter.writeDepth F ∧ ∀ t ∈ v.strings, t.isScalar = true

instance [Interpreter F] (v : Value F) : Decidable v.Encodable :=
  inferInstanceAs (Decidable (_ ∧ _))

end Json
