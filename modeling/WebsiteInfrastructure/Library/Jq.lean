import Mathlib
import WebsiteInfrastructure.Library.ShellText

/-!
# Filters of `jq`

JSON values and the filters that scripts apply to them. A filter that gives one output is a partial
function; `none` is an error, upon which `jq` prints nothing.
-/

namespace Jq

open ShellText

inductive Value
  | null
  | bool (b : Bool)
  | num (n : ℚ)
  | str (s : Text)
  | arr (items : List Value)
  | obj (fields : List (Text × Value))

/-- What differs between programs that run the filters: whether an error on the left of `//` counts
as no value, and how numbers and the insides of compound values are written. -/
structure Env where
  lenient : Bool
  number : ℚ → Text
  items : List Value → Text
  fields : List (Text × Value) → Text

namespace Value

def string (s : String) : Value := .str s.toList

def truthy : Value → Bool
  | .null | .bool false => false
  | _ => true

def isNull : Value → Bool
  | .null => true
  | _ => false

/-- `. == true` -/
def isTrue : Value → Bool
  | .bool true => true
  | _ => false

/-- `. == false` -/
def isFalse : Value → Bool
  | .bool false => true
  | _ => false

/-- `. == n` -/
def isNum (n : ℚ) : Value → Bool
  | .num m => m = n
  | _ => false

/-- `. == "s"` -/
def isStr (s : Text) : Value → Bool
  | .str t => t = s
  | _ => false

theorem isStr_iff {s : Text} {v : Value} : v.isStr s = true ↔ v = .str s := by
  cases v <;> simp [isStr]

theorem isTrue_iff {v : Value} : v.isTrue = true ↔ v = .bool true := by
  rcases v with _ | (_ | _) | _ | _ | _ | _ <;> simp [isTrue]

/-- `.key` -/
def field (key : String) : Value → Option Value
  | .null => some .null
  | .obj fields => some ((fields.lookup key.toList).getD .null)
  | _ => none

/-- The value of a key that is there. -/
def entry (key : String) : Value → Option Value
  | .obj fields => fields.lookup key.toList
  | _ => none

/-- The value at the end of a path of keys that are all there. -/
def at? (v : Value) (keys : List String) : Option Value :=
  keys.foldl (fun v key => v.bind (entry key)) (some v)

/-- `.a.b.c` -/
def fields (v : Value) (keys : List String) : Option Value :=
  keys.foldl (fun v key => v.bind (field key)) (some v)

/-- `has("key")` -/
def has (key : String) : Value → Option Bool
  | .obj fields => some (fields.lookup key.toList).isSome
  | _ => none

/-- `.[i]` -/
def index (i : ℕ) : Value → Option Value
  | .null => some .null
  | .arr items => some (items.getD i .null)
  | _ => none

/-- `.[]?` -/
def each : Value → List Value
  | .arr items => items
  | .obj fields => fields.map Prod.snd
  | _ => []

/-- `length` -/
def size : Value → Option ℚ
  | .null => some 0
  | .bool _ => none
  | .num n => some |n|
  | .str s => some s.length
  | .arr items => some items.length
  | .obj fields => some fields.length

/-- `. <= n`, in the order of all values -/
def atMost (n : ℚ) : Value → Bool
  | .null | .bool _ => true
  | .num m => m ≤ n
  | _ => false

/-- The items of an array. -/
def items? : Value → Option (List Value)
  | .arr items => some items
  | _ => none

/-- What a scalar is joined as; compound values cannot be joined. -/
def scalar (env : Env) : Value → Option Text
  | .null => some []
  | .bool b => some (if b then "true" else "false").toList
  | .num n => some (env.number n)
  | .str s => some s
  | _ => none

/-- `tostring`, and the output of `jq -r`. -/
def text (env : Env) : Value → Text
  | .null => "null".toList
  | .bool b => (if b then "true" else "false").toList
  | .num n => env.number n
  | .str s => s
  | .arr items => '[' :: env.items items
  | .obj fields => '{' :: env.fields fields

def rank : Value → ℕ
  | .null => 0
  | .bool false => 1
  | .bool true => 2
  | .num _ => 3
  | .str _ => 4
  | .arr _ => 5
  | .obj _ => 6

/-- The order of scalars; compound values come last and keep their places. -/
def le : Value → Value → Bool
  | .num m, .num n => m ≤ n
  | .str s, .str t => s.map Char.toNat ≤ t.map Char.toNat
  | v, w => v.rank ≤ w.rank

/-- Equality of scalars. -/
def same : Value → Value → Bool
  | .null, .null => true
  | .bool b, .bool c => b = c
  | .num m, .num n => m = n
  | .str s, .str t => s = t
  | _, _ => false

end Value

open Value

/-- `a // b` -/
def alt (env : Env) (a b : Option Value) : Option Value :=
  match a with
  | none => if env.lenient then b else none
  | some v => if v.truthy then some v else b

/-- `select(...)` over a stream of values -/
def select (p : Value → Option Bool) : List Value → Option (List Value)
  | [] => some []
  | v :: rest => do
    let chosen ← p v
    let others ← select p rest
    return if chosen then v :: others else others

def sort (vs : List Value) : List Value := vs.insertionSort fun v w => v.le w = true

/-- A sorted list without repetitions. -/
def distinct : List Value → List Value
  | [] => []
  | v :: rest =>
    match distinct rest with
    | [] => [v]
    | w :: ws => if v.same w then w :: ws else v :: w :: ws

/-- `unique` -/
def unique (vs : List Value) : List Value := distinct (sort vs)

/-- `join(",")` -/
def join (env : Env) (vs : List Value) : Option Text :=
  (vs.mapM (scalar env)).map (List.intercalate [','])

/-- `test("Read$")`: at the end, or before a newline at the end -/
def testEnd (word : String) : Value → Option Bool
  | .str s => some (word.toList <:+ s || (word.toList ++ ['\n']) <:+ s)
  | _ => none

/-- `test("word"; "i")`, for a word in small letters -/
def testIgnoringCase (word : String) : Value → Option Bool
  | .str s => some (word.toList <:+: s.map asciiLower)
  | _ => none

/-- `$(jq -r ...)` -/
def captured (env : Env) : Option Value → Text
  | none => []
  | some v => substitution (v.text env)

/-- `$(jq -r ...)` for a text -/
def capturedText : Option Text → Text
  | none => []
  | some t => substitution t

/-! ## Paths -/

namespace Value

theorem field_of_entry {key : String} {v w : Value} (h : v.entry key = some w) :
    v.field key = some w := by
  cases v <;> simp_all [entry, field]

theorem entry_of_field {key : String} {v w : Value} (h : v.field key = some w) (hw : w ≠ .null) :
    v.entry key = some w := by
  cases v with
  | null =>
    cases h
    exact absurd rfl hw
  | obj fields =>
    simp only [field, Option.some.injEq] at h
    cases hlookup : fields.lookup key.toList with
    | none =>
      rw [hlookup] at h
      exact absurd h.symm hw
    | some u =>
      rw [hlookup] at h
      simpa [entry, hlookup] using h
  | _ => cases h

theorem entry_of_has {key : String} {v : Value} (h : v.has key = some false) :
    v.entry key = none := by
  cases v with
  | obj fields => simpa only [has, entry, Option.some.injEq, Option.isSome_eq_false_iff,
      Option.isNone_iff_eq_none] using h
  | _ => rfl

theorem foldl_field_none (keys : List String) :
    keys.foldl (fun v key => v.bind (field key)) (none : Option Value) = none := by
  induction keys with
  | nil => rfl
  | cons key keys ih => simpa using ih

theorem foldl_entry_none (keys : List String) :
    keys.foldl (fun v key => v.bind (entry key)) (none : Option Value) = none := by
  induction keys with
  | nil => rfl
  | cons key keys ih => simpa using ih

theorem fields_null (keys : List String) : Value.null.fields keys = some .null := by
  induction keys with
  | nil => rfl
  | cons key keys ih => simpa [fields, field] using ih

theorem fields_cons {v : Value} {key : String} {keys : List String} :
    v.fields (key :: keys) = (v.field key).bind (·.fields keys) := by
  unfold fields
  rw [List.foldl_cons, Option.bind_some]
  cases v.field key with
  | none => exact foldl_field_none keys
  | some u => rfl

theorem at?_cons {v : Value} {key : String} {keys : List String} :
    v.at? (key :: keys) = (v.entry key).bind (·.at? keys) := by
  unfold at?
  rw [List.foldl_cons, Option.bind_some]
  cases v.entry key with
  | none => exact foldl_entry_none keys
  | some u => rfl

/-- What is there is what the filter gives. -/
theorem fields_of_at? {v w : Value} {keys : List String} (h : v.at? keys = some w) :
    v.fields keys = some w := by
  induction keys generalizing v with
  | nil => exact h
  | cons key keys ih =>
    rw [at?_cons, Option.bind_eq_some_iff] at h
    obtain ⟨u, hu, hrest⟩ := h
    rw [fields_cons, field_of_entry hu, Option.bind_some]
    exact ih hrest

/-- What the filter gives is there, unless it is null. -/
theorem at?_of_fields {v w : Value} {keys : List String} (h : v.fields keys = some w)
    (hw : w ≠ .null) : v.at? keys = some w := by
  induction keys generalizing v with
  | nil => exact h
  | cons key keys ih =>
    rw [fields_cons, Option.bind_eq_some_iff] at h
    obtain ⟨u, hu, hrest⟩ := h
    have hne : u ≠ .null := by
      rintro rfl
      rw [fields_null] at hrest
      exact hw (Option.some.inj hrest).symm
    rw [at?_cons, entry_of_field hu hne, Option.bind_some]
    exact ih hrest

end Value

theorem alt_of_truthy {env : Env} {v : Value} {b : Option Value} (h : v.truthy = true) :
    alt env (some v) b = some v := by
  simp [alt, h]

/-! ## What an output that reads as nothing says -/

theorem substitution_eq_nil {t : Text} : substitution t = [] ↔ ∀ c ∈ t, c = '\x00' ∨ c = '\n' := by
  unfold substitution
  rw [List.rdropWhile_eq_nil_iff]
  constructor
  · intro h c hc
    by_cases hnul : c = '\x00'
    · exact .inl hnul
    · exact .inr (by simpa using h c (List.mem_filter.mpr ⟨hc, by simpa using hnul⟩))
  · intro h c hc
    obtain ⟨hmem, hnul⟩ := List.mem_filter.mp hc
    rcases h c hmem with rfl | rfl
    · simp at hnul
    · simp

theorem substitution_ne_nil {t : Text} {c : Char} (hc : c ∈ t) (hnul : c ≠ '\x00') (hline : c ≠ '\n') :
    substitution t ≠ [] := by
  intro h
  rcases substitution_eq_nil.mp h c hc with h | h
  · exact hnul h
  · exact hline h

/-- A value that prints as something. -/
def Printable (env : Env) (v : Value) : Prop := ∃ t, v.scalar env = some t ∧ substitution t ≠ []

theorem mem_of_mem_distinct {v : Value} {vs : List Value} (h : v ∈ distinct vs) : v ∈ vs := by
  induction vs with
  | nil =>
    simp [distinct] at h
  | cons w rest ih =>
    simp only [distinct] at h
    split at h
    · rw [List.mem_singleton.mp h]
      exact List.mem_cons_self
    · rename_i x xs hrest
      split at h
      · exact List.mem_cons_of_mem _ (ih (hrest ▸ h))
      · rcases List.mem_cons.mp h with rfl | h
        · exact List.mem_cons_self
        · exact List.mem_cons_of_mem _ (ih (hrest ▸ h))

theorem distinct_ne_nil {vs : List Value} (h : vs ≠ []) : distinct vs ≠ [] := by
  cases vs with
  | nil => exact absurd rfl h
  | cons v rest =>
    simp only [distinct]
    split
    · simp
    · split <;> simp

theorem mem_unique {v : Value} {vs : List Value} (h : v ∈ unique vs) : v ∈ vs :=
  (List.mem_insertionSort _).mp (mem_of_mem_distinct h)

theorem unique_ne_nil {vs : List Value} (h : vs ≠ []) : unique vs ≠ [] := by
  refine distinct_ne_nil fun hsort => h ?_
  have hlength := List.length_insertionSort (fun v w : Value => v.le w = true) vs
  unfold sort at hsort
  rw [hsort] at hlength
  exact List.length_eq_zero_iff.mp hlength.symm

/-- Values that print as something are joined to something. -/
theorem join_reads {env : Env} {vs : List Value} (h : ∀ v ∈ vs, Printable env v) (hne : vs ≠ []) :
    capturedText (join env (unique vs)) ≠ [] := by
  obtain ⟨v, rest, hunique⟩ := List.exists_cons_of_ne_nil (unique_ne_nil hne)
  have hprint : ∀ w ∈ unique vs, ∃ t, w.scalar env = some t ∧ substitution t ≠ [] :=
    fun w hw => h w (mem_unique hw)
  rw [hunique] at hprint ⊢
  have hmap : ∀ ws : List Value, (∀ w ∈ ws, ∃ t, w.scalar env = some t ∧ substitution t ≠ []) →
      ∃ ts, ws.mapM (scalar env) = some ts := by
    intro ws hws
    induction ws with
    | nil => exact ⟨[], rfl⟩
    | cons w ws ih =>
      obtain ⟨t, ht, -⟩ := hws w List.mem_cons_self
      obtain ⟨ts, hts⟩ := ih fun w' hw' => hws w' (List.mem_cons_of_mem _ hw')
      exact ⟨t :: ts, by simp [List.mapM_cons, ht, hts]⟩
  obtain ⟨t, ht, hreads⟩ := hprint v List.mem_cons_self
  obtain ⟨ts, hts⟩ := hmap rest fun w hw => hprint w (List.mem_cons_of_mem _ hw)
  have hjoin : join env (v :: rest) = some (List.intercalate [','] (t :: ts)) := by
    simp [join, List.mapM_cons, ht, hts]
  rw [hjoin]
  intro hempty
  refine hreads (substitution_eq_nil.mpr fun c hc => ?_)
  refine substitution_eq_nil.mp hempty c ?_
  cases ts with
  | nil => simpa [List.intercalate] using hc
  | cons u us => simp [List.intercalate, List.intersperse, hc]

theorem select_of_forall {p : Value → Option Bool} {vs : List Value}
    (h : ∀ v ∈ vs, ∃ chosen, p v = some chosen) : ∃ out, select p vs = some out := by
  induction vs with
  | nil => exact ⟨[], rfl⟩
  | cons v rest ih =>
    obtain ⟨chosen, hchosen⟩ := h v List.mem_cons_self
    obtain ⟨out, hout⟩ := ih fun w hw => h w (List.mem_cons_of_mem _ hw)
    exact ⟨_, by simp only [select, hchosen, hout, Option.bind_eq_bind, Option.bind_some]; rfl⟩

theorem select_all {p : Value → Option Bool} {vs : List Value} (h : ∀ v ∈ vs, p v = some true) :
    select p vs = some vs := by
  induction vs with
  | nil => rfl
  | cons v rest ih =>
    have hrest := ih fun w hw => h w (List.mem_cons_of_mem _ hw)
    simp [select, h v List.mem_cons_self, hrest]

theorem mapM_of_forall {β : Type} {f : Value → Option β} {vs : List Value}
    (h : ∀ v ∈ vs, ∃ w, f v = some w) : ∃ ws, vs.mapM f = some ws := by
  induction vs with
  | nil => exact ⟨[], rfl⟩
  | cons v rest ih =>
    obtain ⟨w, hw⟩ := h v List.mem_cons_self
    obtain ⟨ws, hws⟩ := ih fun w hw => h w (List.mem_cons_of_mem _ hw)
    exact ⟨w :: ws, by simp [List.mapM_cons, hw, hws]⟩

theorem mem_mapM {β : Type} {f : Value → Option β} {vs : List Value} {ws : List β}
    (h : vs.mapM f = some ws) :
    (∀ w ∈ ws, ∃ v ∈ vs, f v = some w) ∧ ∀ v ∈ vs, ∃ w ∈ ws, f v = some w := by
  induction vs generalizing ws with
  | nil =>
    cases h
    simp
  | cons v rest ih =>
    simp only [List.mapM_cons, Option.bind_eq_bind, Option.bind_eq_some_iff, Option.pure_def,
      Option.some.injEq] at h
    obtain ⟨u, hu, us, hus, rfl⟩ := h
    obtain ⟨hfrom, hto⟩ := ih hus
    constructor
    · intro w hw
      rcases List.mem_cons.mp hw with rfl | hw
      · exact ⟨v, List.mem_cons_self, hu⟩
      · obtain ⟨v', hv', hf⟩ := hfrom w hw
        exact ⟨v', List.mem_cons_of_mem _ hv', hf⟩
    · intro v' hv'
      rcases List.mem_cons.mp hv' with rfl | hv'
      · exact ⟨u, List.mem_cons_self, hu⟩
      · obtain ⟨w, hw, hf⟩ := hto v' hv'
        exact ⟨w, List.mem_cons_of_mem _ hw, hf⟩

theorem select_eq_some {p : Value → Option Bool} {vs out : List Value}
    (h : select p vs = some out) :
    (∀ v ∈ vs, ∃ chosen, p v = some chosen ∧ (chosen = true → v ∈ out)) ∧
      ∀ v ∈ out, v ∈ vs ∧ p v = some true := by
  induction vs generalizing out with
  | nil =>
    cases h
    simp
  | cons w rest ih =>
    simp only [select, Option.bind_eq_bind, Option.bind_eq_some_iff, Option.pure_def,
      Option.some.injEq] at h
    obtain ⟨chosen, hchosen, others, hothers, rfl⟩ := h
    obtain ⟨hall, hmem⟩ := ih hothers
    constructor
    · intro v hv
      rcases List.mem_cons.mp hv with rfl | hv
      · exact ⟨chosen, hchosen, fun htrue => by simp [htrue]⟩
      · obtain ⟨c, hc, hkept⟩ := hall v hv
        refine ⟨c, hc, fun htrue => ?_⟩
        split
        · exact List.mem_cons_of_mem _ (hkept htrue)
        · exact hkept htrue
    · intro v hv
      split at hv
      · rename_i htrue
        rcases List.mem_cons.mp hv with rfl | hv
        · exact ⟨List.mem_cons_self, by rw [hchosen, htrue]⟩
        · exact ⟨List.mem_cons_of_mem _ (hmem v hv).1, (hmem v hv).2⟩
      · exact ⟨List.mem_cons_of_mem _ (hmem v hv).1, (hmem v hv).2⟩

end Jq
