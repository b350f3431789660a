import Mathlib

/-!
# JSON values as Python sees them

Text may hold lone surrogates, numbers are exact integers or floats, and `==` compares
numbers and truth values across types. A dict is kept in the order of its keys: nothing here
observes the order of insertion. Floating point and the recursion limits are parameters.
-/

namespace Json

/-! ## Text -/

def isSurrogate (point : ℕ) : Bool := 0xd800 ≤ point && point < 0xe000

/-- A `str`: a sequence of Unicode scalars, or one with a lone surrogate in it. -/
inductive Text
  | scalar (value : String)
  | lone (points : List ℕ) (h : points.any isSurrogate = true)
  deriving DecidableEq

namespace Text

def ofPoints (points : List ℕ) : Text :=
  if h : points.any isSurrogate = true then .lone points h
  else .scalar (String.ofList (points.map Char.ofNat))

def points : Text → List ℕ
  | .scalar s => s.toList.map Char.toNat
  | .lone points _ => points

theorem ofPoints_toNat (cs : List Char) :
    ofPoints (cs.map Char.toNat) = .scalar (String.ofList cs) := by
  have hscalar : ¬ (cs.map Char.toNat).any isSurrogate = true := by
    simp only [List.any_map, List.any_eq_true, Function.comp_apply, not_exists, not_and]
    intro c _
    have := c.valid
    simp only [isSurrogate, Bool.and_eq_true, decide_eq_true_eq]
    rcases this with h | ⟨h, -⟩ <;> simp only [Char.toNat] <;> omega
  rw [ofPoints, dif_neg hscalar, List.map_map]
  simp [Function.comp_def]

end Text

/-! ## Values -/

inductive Value (F : Type)
  | null
  | bool (b : Bool)
  | int (n : ℤ)
  | float (x : F)
  | str (t : Text)
  | arr (items : List (Value F))
  | obj (fields : List (Text × Value F))

/-- What the interpreter supplies: floats, and how deep `loads` and `dumps` nest. -/
class Interpreter (F : Type) where
  readFloat : List Char → F
  writeFloat : F → List Char
  floatEq : F → F → Bool
  floatEqInt : F → ℤ → Bool
  readDepth : ℕ
  writeDepth : ℕ
  readDepth_ge : 64 ≤ readDepth
  writeDepth_ge : 64 ≤ writeDepth

variable {F : Type}

namespace Value

/-- The text of a string literal. -/
def text (s : String) : Value F := .str (.scalar s)

theorem text_inj {s t : String} : (text s : Value F) = text t ↔ s = t := by
  simp [text]

/-- `record.get(key)` and `record[key]`, `none` for an absent key or a value that is no dict. -/
def get? (record : Value F) (key : String) : Option (Value F) :=
  match record with
  | .obj fields => fields.lookup (.scalar key)
  | _ => none

/-- `record.get(key)` of a dict. -/
def get (record : Value F) (key : String) : Value F := (record.get? key).getD .null

theorem get_of_get? {record v : Value F} {key : String} (h : record.get? key = some v) :
    record.get key = v := by
  rw [get, h, Option.getD_some]

/-- `isinstance(value, Mapping)`. -/
def isObject : Value F → Bool
  | .obj _ => true
  | _ => false

/-- `isinstance(value, str)`. -/
def isStr : Value F → Bool
  | .str _ => true
  | _ => false

/-- `set(record) == {...}`. -/
def hasExactly (record : Value F) (keys : List String) : Bool :=
  match record with
  | .obj fields => fields.all (fun f => keys.any fun k => f.1 = .scalar k) &&
      keys.all fun k => (fields.lookup (.scalar k)).isSome
  | _ => false

/-! ## Equality -/

/-- Truth values are the integers 0 and 1. -/
def asInt? : Value F → Option ℤ
  | .bool b => some (if b then 1 else 0)
  | .int n => some n
  | _ => none

variable [Interpreter F]

/-- `==` of values of which one is a number or a truth value. -/
def numEq (v w : Value F) : Bool :=
  match v.asInt?, w.asInt?, v, w with
  | some a, some b, _, _ => a == b
  | some a, none, _, .float y => Interpreter.floatEqInt y a
  | none, some b, .float x, _ => Interpreter.floatEqInt x b
  | none, none, .float x, .float y => Interpreter.floatEq x y
  | _, _, _, _ => false

mutual

/-- `==` -/
def eq : Value F → Value F → Bool
  | .null, .null => true
  | .str s, .str t => s = t
  | .arr xs, .arr ys => eqItems xs ys
  | .obj xs, .obj ys => xs.length == ys.length && eqFields xs ys
  | v, w => numEq v w

def eqItems : List (Value F) → List (Value F) → Bool
  | [], [] => true
  | x :: xs, y :: ys => eq x y && eqItems xs ys
  | _, _ => false

def eqFields : List (Text × Value F) → List (Text × Value F) → Bool
  | _, [] => true
  | xs, (k, w) :: ys =>
    (match xs.lookup k with
      | some v => eq v w
      | none => false) && eqFields xs ys

end

theorem numEq_str_right {v : Value F} {t : Text} : numEq v (.str t) = false := by
  cases v <;> rfl

@[simp] theorem eq_text {v : Value F} {s : String} : v.eq (text s) = true ↔ v = text s := by
  cases v <;> simp [eq, text, numEq_str_right]

@[simp] theorem eq_text_eq_false {v : Value F} {s : String} :
    v.eq (text s) = false ↔ v ≠ text s := by
  rw [Bool.eq_false_iff, ne_eq, eq_text]

theorem numEq_str_left {v : Value F} {t : Text} : numEq (.str t) v = false := by
  cases v <;> rfl

@[simp] theorem text_eq {v : Value F} {s : String} : (text s).eq v = true ↔ v = text s := by
  cases v <;> simp [eq, text, numEq_str_left, eq_comm]

theorem eqFields_eq_true {xs ys : List (Text × Value F)} :
    eqFields xs ys = true ↔ ∀ f ∈ ys, ∃ v, xs.lookup f.1 = some v ∧ v.eq f.2 = true := by
  induction ys with
  | nil => simp [eqFields]
  | cons f ys ih =>
    obtain ⟨k, w⟩ := f
    rw [eqFields, Bool.and_eq_true, ih, List.forall_mem_cons]
    refine and_congr_left fun _ => ?_
    cases xs.lookup k <;> simp

/-- A value that equals a dict has its entries. -/
theorem get?_of_eq {v : Value F} {fields : List (Text × Value F)}
    (h : v.eq (.obj fields) = true) {key : String} {w : Value F}
    (hw : (.scalar key, w) ∈ fields) : ∃ u, v.get? key = some u ∧ u.eq w = true := by
  cases v with
  | obj xs =>
    rw [eq, Bool.and_eq_true] at h
    exact eqFields_eq_true.mp h.2 _ hw
  | _ => simp [eq, numEq, asInt?] at h

end Value

/-- Floats by the literal they are read from; values without floats need no more. -/
instance literalInterpreter : Interpreter (List Char) where
  readFloat literal := literal
  writeFloat literal := literal
  floatEq x y := x == y
  floatEqInt _ _ := false
  readDepth := 64
  writeDepth := 64
  readDepth_ge := le_rfl
  writeDepth_ge := le_rfl

end Json
