import Mathlib

/-!
# UTF-8

Byte strings as lists, and strict UTF-8 between them and text.
-/

namespace Utf8

abbrev Bytes := List UInt8

/-- `text.encode("utf-8")`. -/
def encode (s : String) : Bytes := s.toList.flatMap String.utf8EncodeChar

/-- `payload.decode("utf-8")`; `none` is a `UnicodeDecodeError`. -/
def decode? (bytes : Bytes) : Option String := String.fromUTF8? bytes.toByteArray

theorem toByteArray_encode (s : String) : (encode s).toByteArray = s.toByteArray := by
  rw [encode, ← String.utf8Encode_toList]
  rfl

theorem toByteArray_injective : Function.Injective List.toByteArray := by
  intro a b h
  have := congrArg (fun x : ByteArray => x.data.toList) h
  simpa using this

theorem decode?_eq_some {bytes : Bytes} {s : String} :
    decode? bytes = some s ↔ bytes = encode s := by
  unfold decode? String.fromUTF8?
  constructor
  · intro h
    split at h
    · rename_i hv
      rw [Option.some.injEq] at h
      apply toByteArray_injective
      rw [toByteArray_encode, ← h]
      rfl
    · simp at h
  · rintro rfl
    rw [dif_pos (toByteArray_encode s ▸ s.isValidUTF8), Option.some.injEq]
    exact String.toByteArray_inj.mp (toByteArray_encode s)

@[simp] theorem decode?_encode (s : String) : decode? (encode s) = some s :=
  decode?_eq_some.mpr rfl

theorem encode_injective : Function.Injective encode := by
  intro s t h
  have := decode?_encode s
  rwa [h, decode?_encode, Option.some.injEq, eq_comm] at this

theorem encode_append (s t : String) : encode (s ++ t) = encode s ++ encode t := by
  simp [encode]

end Utf8
