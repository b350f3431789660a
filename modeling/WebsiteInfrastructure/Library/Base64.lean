import Mathlib
import WebsiteInfrastructure.Library.Utf8

/-!
# Base64

Three bytes are four characters. Every byte string has one canonical text, from which it is decoded;
other texts, with other bits in the last digit, decode as well.
-/

namespace Base64

open Utf8 (Bytes)

/-- The character of six bits: `A` to `Z`, `a` to `z`, `0` to `9`, `+` and `/`. -/
def digit (n : ℕ) : Char :=
  if n < 26 then Char.ofNat (65 + n)
  else if n < 52 then Char.ofNat (71 + n)
  else if n < 62 then Char.ofNat (n - 4)
  else if n = 62 then '+'
  else '/'

/-- What stands in a text besides the padding. -/
def isDigit (c : Char) : Bool := c.isAlphanum || c = '+' || c = '/'

/-- The six bits of a character. -/
def value? (c : Char) : Option ℕ :=
  if c.isUpper then some (c.toNat - 65)
  else if c.isLower then some (c.toNat - 71)
  else if c.isDigit then some (c.toNat + 4)
  else if c = '+' then some 62
  else if c = '/' then some 63
  else none

/-- `base64.b64encode` -/
def encode : Bytes → List Char
  | [] => []
  | [a] => [digit (a.toNat / 4), digit (a.toNat % 4 * 16), '=', '=']
  | [a, b] =>
    [digit (a.toNat / 4), digit (a.toNat % 4 * 16 + b.toNat / 16), digit (b.toNat % 16 * 4), '=']
  | a :: b :: c :: rest =>
    digit (a.toNat / 4) :: digit (a.toNat % 4 * 16 + b.toNat / 16) ::
      digit (b.toNat % 16 * 4 + c.toNat / 64) :: digit (c.toNat % 64) :: encode rest

def decodeOne (x y : Char) : Option Bytes := do
  let p ← value? x
  let q ← value? y
  some [UInt8.ofNat (p * 4 + q / 16)]

def decodeTwo (x y z : Char) : Option Bytes := do
  let p ← value? x
  let q ← value? y
  let r ← value? z
  some [UInt8.ofNat (p * 4 + q / 16), UInt8.ofNat (q % 16 * 16 + r / 4)]

def decodeThree (x y z w : Char) : Option Bytes := do
  let p ← value? x
  let q ← value? y
  let r ← value? z
  let s ← value? w
  some [UInt8.ofNat (p * 4 + q / 16), UInt8.ofNat (q % 16 * 16 + r / 4), UInt8.ofNat (r % 4 * 64 + s)]

/-- `base64.b64decode(…, validate=True)`: the padding ends the text, and the bits of the last digit
that belong to no byte are not looked at. -/
def decode : List Char → Option Bytes
  | [] => some []
  | x :: y :: z :: w :: rest =>
    if rest = [] ∧ w = '=' then
      if z = '=' then decodeOne x y else decodeTwo x y z
    else do
      let bytes ← decodeThree x y z w
      let more ← decode rest
      some (bytes ++ more)
  | _ => none

/-! ## Back from the text -/

theorem value?_digit : ∀ n < 64, value? (digit n) = some n := by decide

theorem isDigit_digit : ∀ n < 64, isDigit (digit n) = true := by decide

theorem digit_ne_pad (n : ℕ) (h : n < 64) : digit n ≠ '=' := by
  intro hpad
  have hvalue := value?_digit n h
  rw [hpad] at hvalue
  cases hvalue

theorem ofNat_eq {a : UInt8} {n : ℕ} (h : n = a.toNat) : UInt8.ofNat n = a := by
  rw [h, UInt8.ofNat_toNat]

/-- Every byte string is decoded from its canonical text. -/
theorem decode_encode (bytes : Bytes) : decode (encode bytes) = some bytes := by
  induction bytes using encode.induct with
  | case1 => rfl
  | case2 a =>
    have ha := a.toNat_lt
    have hone := value?_digit (a.toNat / 4) (by omega)
    have htwo := value?_digit (a.toNat % 4 * 16) (by omega)
    rw [encode, decode, if_pos (by simp), if_pos rfl, decodeOne, hone, htwo]
    have hbyte : UInt8.ofNat (a.toNat / 4 * 4 + a.toNat % 4 * 16 / 16) = a := ofNat_eq (by omega)
    simp only [Option.bind_eq_bind, Option.bind_some, hbyte]
  | case3 a b =>
    have ha := a.toNat_lt
    have hb := b.toNat_lt
    have hone := value?_digit (a.toNat / 4) (by omega)
    have htwo := value?_digit (a.toNat % 4 * 16 + b.toNat / 16) (by omega)
    have hthree := value?_digit (b.toNat % 16 * 4) (by omega)
    have hpad := digit_ne_pad (b.toNat % 16 * 4) (by omega)
    rw [encode, decode, if_pos (by simp), if_neg hpad, decodeTwo, hone, htwo, hthree]
    have hfirst : UInt8.ofNat (a.toNat / 4 * 4 + (a.toNat % 4 * 16 + b.toNat / 16) / 16) = a :=
      ofNat_eq (by omega)
    have hsecond : UInt8.ofNat ((a.toNat % 4 * 16 + b.toNat / 16) % 16 * 16 +
        b.toNat % 16 * 4 / 4) = b := ofNat_eq (by omega)
    simp only [Option.bind_eq_bind, Option.bind_some, hfirst, hsecond]
  | case4 a b c rest ih =>
    have ha := a.toNat_lt
    have hb := b.toNat_lt
    have hc := c.toNat_lt
    have hone := value?_digit (a.toNat / 4) (by omega)
    have htwo := value?_digit (a.toNat % 4 * 16 + b.toNat / 16) (by omega)
    have hthree := value?_digit (b.toNat % 16 * 4 + c.toNat / 64) (by omega)
    have hfour := value?_digit (c.toNat % 64) (by omega)
    have hpad := digit_ne_pad (c.toNat % 64) (by omega)
    rw [encode, decode, if_neg (fun h => hpad h.2), decodeThree, hone, htwo, hthree, hfour, ih]
    have hfirst : UInt8.ofNat (a.toNat / 4 * 4 + (a.toNat % 4 * 16 + b.toNat / 16) / 16) = a :=
      ofNat_eq (by omega)
    have hsecond : UInt8.ofNat ((a.toNat % 4 * 16 + b.toNat / 16) % 16 * 16 +
        (b.toNat % 16 * 4 + c.toNat / 64) / 4) = b := ofNat_eq (by omega)
    have hthird : UInt8.ofNat ((b.toNat % 16 * 4 + c.toNat / 64) % 4 * 64 + c.toNat % 64) = c :=
      ofNat_eq (by omega)
    simp only [Option.bind_eq_bind, Option.bind_some, hfirst, hsecond, hthird]
    rfl

theorem encode_injective : Function.Injective encode := by
  intro a b h
  have hdecoded := decode_encode a
  rwa [h, decode_encode, Option.some.injEq, eq_comm] at hdecoded

theorem encode_eq_nil {bytes : Bytes} : encode bytes = [] ↔ bytes = [] := by
  constructor
  · intro h
    exact encode_injective (h.trans rfl)
  · rintro rfl
    rfl

/-- The text has digits and padding. -/
theorem mem_encode (bytes : Bytes) : ∀ c ∈ encode bytes, isDigit c = true ∨ c = '=' := by
  induction bytes using encode.induct with
  | case1 => simp [encode]
  | case2 a =>
    have ha := a.toNat_lt
    simp only [encode, List.forall_mem_cons, or_true, List.not_mem_nil, false_implies,
      implies_true, and_true]
    exact ⟨.inl (isDigit_digit _ (by omega)), .inl (isDigit_digit _ (by omega))⟩
  | case3 a b =>
    have ha := a.toNat_lt
    have hb := b.toNat_lt
    simp only [encode, List.forall_mem_cons, or_true, List.not_mem_nil, false_implies,
      implies_true, and_true]
    exact ⟨.inl (isDigit_digit _ (by omega)), .inl (isDigit_digit _ (by omega)),
      .inl (isDigit_digit _ (by omega))⟩
  | case4 a b c rest ih =>
    have ha := a.toNat_lt
    have hb := b.toNat_lt
    have hc := c.toNat_lt
    simp only [encode, List.forall_mem_cons]
    exact ⟨.inl (isDigit_digit _ (by omega)), .inl (isDigit_digit _ (by omega)),
      .inl (isDigit_digit _ (by omega)), .inl (isDigit_digit _ (by omega)), ih⟩

end Base64
