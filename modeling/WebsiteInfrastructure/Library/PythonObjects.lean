import Mathlib
import WebsiteInfrastructure.Library.JsonText
import WebsiteInfrastructure.Library.PythonText
import WebsiteInfrastructure.Library.Raising

/-!
# Python operations on parsed JSON

What `.get`, `for`, `in`, `if` and `set` do with a value of any type, where they raise included.
-/

namespace Json

open Raising

variable {F : Type}

theorem mem_of_lookup {α β : Type} [BEq α] [LawfulBEq α] {l : List (α × β)} {k : α} {v : β}
    (h : l.lookup k = some v) : (k, v) ∈ l := by
  obtain ⟨before, after, rfl, -⟩ := List.lookup_eq_some_iff.mp h
  simp

/-- `repr` of a string that may hold lone surrogates -/
def reprText (t : Text) : List Char :=
  let quote := if 0x27 ∈ t.points ∧ 0x22 ∉ t.points then '"' else '\''
  quote :: t.points.flatMap (fun point =>
    if isSurrogate point then unicodeEscape point
    else PythonText.reprChar quote (Char.ofNat point)) ++ [quote]

/-- How a script ends early: `raise SystemExit(message)`, or any other exception. -/
inductive Failure
  | exit (message : Text)
  | raised
  deriving DecidableEq

abbrev Check := Except Failure

/-- `raise SystemExit(f"...")` -/
def told (parts : List Text) : Failure := .exit (Text.ofPoints (parts.flatMap Text.points))

namespace Text

/-- `value.startswith(start)` -/
def startsWith (value start : Text) : Bool := start.points.isPrefixOf value.points

/-- `first + second` -/
def append (first second : Text) : Text := ofPoints (first.points ++ second.points)

end Text

namespace Value

/-- `value.get(key, default)` -/
def getOr (value : Value F) (key : String) (default : Value F) : Check (Value F) :=
  match value with
  | .obj fields => .ok ((fields.lookup (.scalar key)).getD default)
  | _ => .error .raised

/-- `value.get(k₁, {}).get(k₂, {})...` -/
def dig (value : Value F) : List String → Check (Value F)
  | [] => .ok value
  | key :: keys => do
    let inner ← value.getOr key (.obj [])
    inner.dig keys

/-- `for item in value` -/
def iterate : Value F → Check (List (Value F))
  | .arr items => .ok items
  | .obj fields => .ok (fields.map fun f => .str f.1)
  | .str t => .ok (t.points.map fun p => .str (Text.ofPoints [p]))
  | _ => .error .raised

/-- Whether `hash(value)` does not raise. -/
def hashable : Value F → Bool
  | .arr _ | .obj _ => false
  | _ => true

def str? : Value F → Option Text
  | .str t => some t
  | _ => none

/-- `type(value) is int` -/
def int? : Value F → Option ℤ
  | .int n => some n
  | _ => none

/-- `value is True` -/
def isTrue : Value F → Bool
  | .bool b => b
  | _ => false

/-- `value is None` -/
def isNone : Value F → Bool
  | .null => true
  | _ => false

/-- `isinstance(value, str) and value` -/
def filled? (value : Value F) : Option Text := value.str?.filter (· ≠ .scalar "")

/-- `value + text` -/
def plus (value : Value F) (text : Text) : Check Text :=
  match value with
  | .str t => .ok (t.append text)
  | _ => .error .raised

theorem str?_eq_some {v : Value F} {t : Text} : v.str? = some t ↔ v = .str t := by
  cases v <;> simp [str?]

theorem int?_eq_some {v : Value F} {n : ℤ} : v.int? = some n ↔ v = .int n := by
  cases v <;> simp [int?]

theorem filled?_eq_some {v : Value F} {t : Text} :
    v.filled? = some t ↔ v = .str t ∧ t ≠ .scalar "" := by
  rw [filled?, Option.filter_eq_some_iff, str?_eq_some]
  simp

theorem getOr_eq_ok {v w default : Value F} {key : String} : v.getOr key default = .ok w ↔
    v.isObject = true ∧ (v.get? key).getD default = w := by
  cases v <;> simp [getOr, isObject, get?]

theorem dig_singleton {v w : Value F} {key : String} (h : v.dig [key] = .ok w) :
    v.getOr key (.obj []) = .ok w := by
  obtain ⟨inner, hinner, hw⟩ := bind_eq_ok.mp h
  rwa [← Except.ok.inj hw]

theorem get_of_getOr {v w : Value F} {key : String} (h : v.getOr key .null = .ok w) :
    v.get key = w := (getOr_eq_ok.mp h).2

/-- A missing dict and a missing entry of a dict look the same. -/
theorem get_get_of_getOr {v inner w : Value F} {k key : String}
    (hinner : v.getOr k (.obj []) = .ok inner) (hw : inner.getOr key .null = .ok w) :
    (v.get k).get key = w := by
  obtain ⟨-, rfl⟩ := getOr_eq_ok.mp hinner
  have hget := get_of_getOr hw
  cases hk : v.get? k with
  | none =>
    have habsent : v.get k = .null := by
      rw [get, hk, Option.getD_none]
    rw [habsent, ← hget, hk]
    rfl
  | some u => rw [get_of_get? hk, ← hget, hk, Option.getD_some]

variable [Interpreter F]

@[simp] theorem eq_str {v : Value F} {t : Text} : v.eq (.str t) = true ↔ v = .str t := by
  cases v <;> simp [eq, numEq_str_right]

/-- `if value` -/
def truthy : Value F → Bool
  | .null => false
  | .bool b => b
  | .int n => n ≠ 0
  | .float x => !Interpreter.floatEqInt x 0
  | .str t => t ≠ .scalar ""
  | .arr items => !items.isEmpty
  | .obj fields => !fields.isEmpty

/-- `value in {a, b, ...}` -/
def inSet (value : Value F) (members : List (Value F)) : Check Bool :=
  if value.hashable then .ok (members.any value.eq) else .error .raised

/-- `"text" in value` -/
def containsText (value : Value F) (text : String) : Check Bool :=
  match value with
  | .obj fields => .ok (fields.any fun f => f.1 = .scalar text)
  | .arr items => .ok (items.any fun item => item.eq (.text text))
  | .str t => .ok (decide ((Text.scalar text).points <:+: t.points))
  | _ => .error .raised

end Value

end Json
