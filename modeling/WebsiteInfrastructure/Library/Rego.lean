import Mathlib

/-!
# Rego over JSON documents

A reference is undefined where the document has no such value and where a builtin is given a
value of another type. A body holds only if each of its expressions is defined and not false.
Objects are kept in the order of their keys.
-/

namespace Rego

inductive Term
  | null
  | bool (b : Bool)
  | num (q : ℚ)
  | str (s : String)
  | arr (items : List Term)
  | obj (fields : List (String × Term))

namespace Term

/-! ## Equality -/

mutual

def beq : Term → Term → Bool
  | .null, .null => true
  | .bool a, .bool b => a == b
  | .num p, .num q => p == q
  | .str s, .str t => s == t
  | .arr xs, .arr ys => beqItems xs ys
  | .obj xs, .obj ys => beqFields xs ys
  | _, _ => false

def beqItems : List Term → List Term → Bool
  | [], [] => true
  | x :: xs, y :: ys => beq x y && beqItems xs ys
  | _, _ => false

def beqFields : List (String × Term) → List (String × Term) → Bool
  | [], [] => true
  | (k, x) :: xs, (l, y) :: ys => k == l && beq x y && beqFields xs ys
  | _, _ => false

end

mutual

theorem beq_iff : ∀ {a b : Term}, beq a b = true ↔ a = b
  | .null, b => by cases b <;> simp [beq]
  | .bool a, b => by cases b <;> simp [beq]
  | .num p, b => by cases b <;> simp [beq]
  | .str s, b => by cases b <;> simp [beq]
  | .arr xs, b => by
    cases b with
    | arr ys => rw [beq, beqItems_iff, arr.injEq]
    | _ => simp [beq]
  | .obj xs, b => by
    cases b with
    | obj ys => rw [beq, beqFields_iff, obj.injEq]
    | _ => simp [beq]

theorem beqItems_iff : ∀ {xs ys : List Term}, beqItems xs ys = true ↔ xs = ys
  | [], ys => by cases ys <;> simp [beqItems]
  | x :: xs, ys => by
    cases ys with
    | nil => simp [beqItems]
    | cons y ys => rw [beqItems, Bool.and_eq_true, beq_iff, beqItems_iff, List.cons.injEq]

theorem beqFields_iff : ∀ {xs ys : List (String × Term)}, beqFields xs ys = true ↔ xs = ys
  | [], ys => by cases ys <;> simp [beqFields]
  | (k, x) :: xs, ys => by
    cases ys with
    | nil => simp [beqFields]
    | cons y ys =>
      obtain ⟨l, y⟩ := y
      rw [beqFields, Bool.and_eq_true, Bool.and_eq_true, beq_iff, beqFields_iff]
      simp

end

instance : DecidableEq Term := fun _ _ => decidable_of_iff _ beq_iff

/-! ## Values -/

def isArray : Term → Bool
  | .arr _ => true
  | _ => false

def isObject : Term → Bool
  | .obj _ => true
  | _ => false

/-- What `some x in` goes through. -/
def elements : Term → List Term
  | .arr items => items
  | .obj fields => fields.map Prod.snd
  | _ => []

/-- An array of strings. -/
def strings (names : List String) : Term := .arr (names.map .str)

end Term

/-! ## References -/

/-- The value of an expression, `none` where it is undefined. -/
abbrev Ref := Option Term

namespace Ref

/-- `r.key` -/
def dot (r : Ref) (key : String) : Ref :=
  r.bind fun
    | .obj fields => fields.lookup key
    | _ => none

/-- `r.a.b` -/
def path (r : Ref) (keys : List String) : Ref := keys.foldl dot r

/-- `r[n]` -/
def nth (r : Ref) (n : ℕ) : Ref :=
  r.bind fun
    | .arr items => items[n]?
    | _ => none

/-- `object.get(r, key, default)` -/
def get (r : Ref) (key : String) (default : Term) : Ref :=
  r.bind fun
    | .obj fields => some ((fields.lookup key).getD default)
    | _ => none

/-- `some x in r` -/
def each (r : Ref) : List Term := r.elim [] Term.elements

/-- `object.keys(r)` -/
def keys (r : Ref) : Option (List String) :=
  r.bind fun
    | .obj fields => some (fields.map Prod.fst)
    | _ => none

/-- `count(r)` -/
def count (r : Ref) : Option ℕ :=
  r.bind fun
    | .arr items => some items.length
    | .obj fields => some fields.length
    | .str s => some s.length
    | _ => none

/-- `array.concat(r, s)` -/
def concat : Ref → Ref → Ref
  | some (.arr xs), some (.arr ys) => some (.arr (xs ++ ys))
  | _, _ => none

/-- `x in r` -/
def contains (r : Ref) (x : Term) : Option Bool := r.map fun t => decide (x ∈ t.elements)

/-- `r in {...}`, of strings -/
def isIn (r : Ref) (names : List String) : Option Bool :=
  r.map fun t => names.any fun n => t = .str n

/-- `r == t` -/
def equals (r : Ref) (t : Term) : Option Bool := r.map fun u => decide (u = t)

/-- `r != t` -/
def differs (r : Ref) (t : Term) : Option Bool := r.map fun u => decide (u ≠ t)

/-- `table[r]`, of a table of the policy -/
def among {α : Type} (table : List (String × α)) (r : Ref) : Option α :=
  r.bind fun
    | .str s => table.lookup s
    | _ => none

end Ref

/-! ## Bodies -/

/-- Whether an expression lets its body go on. -/
def holds (condition : Option Bool) : Bool := condition == some true

/-- Whether `not` of an expression lets its body go on. An argument that is undefined makes the
expression undefined; whether it is evaluated before the negation is up to the compiler. -/
def holdsNot (eager : Bool) (condition : Option Bool) : Bool := condition.elim (!eager) not

/-- Whether a message can be formatted. -/
def formats (args : List Ref) : Bool := args.all Option.isSome

@[simp] theorem holds_some {b : Bool} : holds (some b) = b := by
  cases b <;> rfl

@[simp] theorem holds_none : holds none = false := rfl

@[simp] theorem holds_eq_true {c : Option Bool} : holds c = true ↔ c = some true := by
  rw [holds, beq_iff_eq]

@[simp] theorem holdsNot_some {eager b : Bool} : holdsNot eager (some b) = !b := rfl

namespace Ref

@[simp] theorem each_none : each none = [] := rfl

@[simp] theorem each_some {t : Term} : each (some t) = t.elements := rfl

theorem dot_eq_some {r : Ref} {key : String} {t : Term} :
    r.dot key = some t ↔ ∃ fields, r = some (.obj fields) ∧ fields.lookup key = some t := by
  cases r with
  | none => simp [dot]
  | some u => cases u <;> simp [dot]

theorem get_of_dot {r : Ref} {key : String} {t : Term} (h : r.dot key = some t) (default : Term) :
    r.get key default = some t := by
  obtain ⟨fields, rfl, hlookup⟩ := dot_eq_some.mp h
  simp [get, hlookup]

/-- Where a reference goes on, the default has not been taken. -/
theorem get_eq_dot {r : Ref} {key key' : String} {t : Term} (h : (r.dot key).dot key' = some t)
    (default : Term) : r.get key default = r.dot key := by
  obtain ⟨fields, hfields, -⟩ := dot_eq_some.mp h
  rw [hfields]
  exact get_of_dot hfields default

/-- A key that is not there. -/
theorem dot_eq_none {t : Term} {key : String} (h : (keys t).any (fun ks => key ∉ ks) = true) :
    dot t key = none := by
  obtain ⟨ks, hkeys, hnot⟩ := Option.any_eq_true _ _ |>.mp h
  cases t with
  | obj fields =>
    obtain rfl := Option.some.inj hkeys
    refine List.lookup_eq_none_iff.mpr fun f hf => ?_
    have hne : key ≠ f.1 := fun heq => of_decide_eq_true hnot (heq ▸ List.mem_map_of_mem hf)
    simpa using hne
  | _ => cases hkeys

theorem concat_eq_some {r s : Ref} {t : Term} (h : concat r s = some t) :
    ∃ xs ys, r = some (.arr xs) ∧ s = some (.arr ys) ∧ t = .arr (xs ++ ys) := by
  unfold concat at h
  split at h
  · exact ⟨_, _, rfl, rfl, (Option.some.inj h).symm⟩
  · cases h

theorem contains_eq_some {r : Ref} {x : Term} : r.contains x = some true ↔ x ∈ r.each := by
  cases r <;> simp [contains, each]

theorem equals_eq_some {r : Ref} {t : Term} : r.equals t = some true ↔ r = some t := by
  cases r <;> simp [equals]

theorem isIn_eq_some {r : Ref} {names : List String} :
    r.isIn names = some true ↔ ∃ n ∈ names, r = some (.str n) := by
  cases r <;> simp [isIn]

end Ref

end Rego
