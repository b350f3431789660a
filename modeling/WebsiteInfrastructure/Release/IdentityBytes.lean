import Mathlib
import WebsiteInfrastructure.Library.JsonHooks
import WebsiteInfrastructure.Library.Utf8
import WebsiteInfrastructure.Release.Version

/-!
# The bytes of the release identity

`canonicalReleaseIdentity` accepts the signed identity of a release only as the canonical JSON of
its value. What it accepts, and on which payloads it fails in another way than by refusing them.
-/

namespace Release

open Json Raising Utf8

variable {F : Type}

/-! ## The code -/

def maxReleaseIdentityBytes : ℕ := 64 * 1024

def object (value : Value F) (field : String) : Except Failure (Value F) := do
  raiseIf (value.isObject = false) (.contractError (field ++ " must be a JSON object"))
  .ok value

variable [Interpreter F]

def decodeJsonObject (payload : Bytes) (label : String) : Except Failure (Value F) :=
  match decode? payload with
  | none => .error (.contractError (label ++ " is not strict UTF-8 JSON"))
  | some text =>
    match loads rejectDuplicates text.toList with
    | .ok decoded => object decoded label
    | .error (.duplicate key) =>
      .error (.contractError ("JSON object contains duplicate key " ++ String.ofList (reprText key)))
    | .error _ => .error (.contractError (label ++ " is not strict UTF-8 JSON"))

/-- `json.dumps(identity, ensure_ascii=False, sort_keys=True, ...).encode("utf-8") + b"\n"` -/
def canonicalBytes (identity : Value F) : Except Failure Bytes := do
  raiseIf (Interpreter.writeDepth F < identity.depth) (.builtin .recursionError)
  raiseIf (∃ t ∈ identity.strings, t.isScalar = false) (.builtin .unicodeEncodeError)
  .ok (encode (String.ofList (write false identity)) ++ [0x0a])

variable (F) in
def canonicalReleaseIdentity (payload : Bytes) : Except Failure (Value F) := do
  raiseIf (payload = [] ∨ maxReleaseIdentityBytes < payload.length)
    (.contractError "platform release identity size is invalid")
  raiseIf ((0x0d : UInt8) ∈ payload ∨ ¬ [0x0a] <:+ payload ∨ [0x0a, 0x0a] <:+ payload)
    (.contractError "platform release identity must have one terminal LF")
  let identity ← decodeJsonObject payload "platform release identity"
  let canonical ← canonicalBytes identity
  raiseIf (payload ≠ canonical) (.contractError "platform release identity is not canonical JSON")
  .ok identity

/-! ## What is read -/

/-- The size and the line ends that are checked before the payload is decoded. -/
def Framed (payload : Bytes) : Prop :=
  ¬ (payload = [] ∨ maxReleaseIdentityBytes < payload.length) ∧
    ¬ ((0x0d : UInt8) ∈ payload ∨ ¬ [0x0a] <:+ payload ∨ [0x0a, 0x0a] <:+ payload)

/-- The payload spells a JSON object without duplicates, and this is it. -/
def Spells (payload : Bytes) (identity : Value F) : Prop :=
  ∃ text, decode? payload = some text ∧ loads rejectDuplicates text.toList = .ok identity ∧
    identity.isObject = true

theorem decodeJsonObject_eq_ok {payload : Bytes} {label : String} {identity : Value F} :
    decodeJsonObject payload label = .ok identity ↔ Spells payload identity := by
  unfold decodeJsonObject Spells
  split
  · simp_all
  · next text htext =>
    simp only [htext, Option.some.injEq, exists_eq_left']
    split <;> simp_all [object]
    constructor
    · rintro ⟨hobject, rfl⟩
      exact ⟨rfl, hobject⟩
    · rintro ⟨rfl, hobject⟩
      exact ⟨hobject, rfl⟩

/-- Whatever the decoder raises is a `ContractError`. -/
theorem raises_decodeJsonObject {payload : Bytes} {label : String} :
    Raises (fun e => e.isContractError = true)
      (decodeJsonObject payload label : Except Failure (Value F)) := by
  unfold decodeJsonObject
  split
  · exact raises_error.mpr rfl
  · split
    · exact Raises.bind (raises_raiseIf rfl) fun _ _ => raises_ok
    · exact raises_error.mpr rfl
    · exact raises_error.mpr rfl

theorem canonicalBytes_of_encodable {identity : Value F} (h : identity.Encodable) :
    canonicalBytes identity =
      .ok (encode (String.ofList (write false identity)) ++ [0x0a]) := by
  have hlone : ¬ ∃ t ∈ identity.strings, t.isScalar = false := by
    rintro ⟨t, ht, hfalse⟩
    simp [h.2 t ht] at hfalse
  rw [canonicalBytes, raiseIf_neg (not_lt.mpr h.1), raiseIf_neg hlone]
  rfl

/-- Writing fails only with a built-in exception. -/
theorem canonicalBytes_of_not_encodable {identity : Value F} (h : ¬ identity.Encodable) :
    ∃ exception, canonicalBytes identity = .error (.builtin exception) := by
  by_cases hdepth : Interpreter.writeDepth F < identity.depth
  · exact ⟨.recursionError, by rw [canonicalBytes, raiseIf_pos hdepth]; rfl⟩
  · have hlone : ∃ t ∈ identity.strings, t.isScalar = false := by
      by_contra hall
      apply h ⟨not_lt.mp hdepth, fun t ht => ?_⟩
      by_contra hfalse
      exact hall ⟨t, ht, by simpa using hfalse⟩
    refine ⟨.unicodeEncodeError, ?_⟩
    rw [canonicalBytes, raiseIf_neg hdepth, raiseIf_pos hlone]
    rfl

/-! ## One encoding, and no other failure -/

variable (F) in
/-- Every accepted payload is the encoding of the object it gives, spells no key twice, and is the
only payload that gives this object. -/
theorem accepted_identity {payload : Bytes} {identity : Value F}
    (h : canonicalReleaseIdentity F payload = .ok identity) :
    identity.isObject = true ∧ canonicalBytes identity = .ok payload ∧
      ∃ text raw, decode? payload = some text ∧ loads keepAll text.toList = .ok raw ∧
        raw.distinctKeys ∧ raw.sorted = identity := by
  simp only [canonicalReleaseIdentity, bind_eq_ok, raiseIf_eq_ok, Except.ok.injEq] at h
  obtain ⟨-, -, -, -, decoded, hdecode, canonical, hcanonical, -, hsame, rfl⟩ := h
  obtain ⟨text, htext, hloads, hobject⟩ := decodeJsonObject_eq_ok.mp hdecode
  obtain ⟨raw, hraw, hdistinct, hsorted⟩ := loads_distinct hloads
  refine ⟨hobject, ?_, text, raw, htext, hraw, hdistinct, hsorted⟩
  rw [hcanonical, not_not.mp hsame]

variable (F) in
/-- The payload is refused, or it is the one encoding of the object it gives. -/
structure ReadsOrRefuses (payload : Bytes) : Prop where
  refuses : Raises (fun e => e.isContractError = true) (canonicalReleaseIdentity F payload)
  reads : ∀ identity, canonicalReleaseIdentity F payload = .ok identity →
    identity.isObject = true ∧ canonicalBytes identity = .ok payload ∧
      (∀ other, canonicalReleaseIdentity F other = .ok identity → other = payload) ∧
      ∃ text raw, decode? payload = some text ∧ loads keepAll text.toList = .ok raw ∧
        raw.distinctKeys ∧ raw.sorted = identity

variable (F) in
/-- The payload spells an object that nests deeper than `dumps` goes, or with a lone surrogate in
a string. -/
def Unwritable (payload : Bytes) : Prop :=
  Framed payload ∧ ∃ identity : Value F, Spells payload identity ∧ ¬ identity.Encodable

/-- A payload that spells such an object is answered with an exception that is no refusal. -/
theorem not_readsOrRefuses {payload : Bytes} (h : Unwritable F payload) :
    ¬ ReadsOrRefuses F payload := by
  obtain ⟨⟨hsize, hends⟩, identity, hspells, hencodable⟩ := h
  obtain ⟨exception, hraised⟩ := canonicalBytes_of_not_encodable hencodable
  have hrun : canonicalReleaseIdentity F payload = .error (.builtin exception) := by
    rw [canonicalReleaseIdentity, raiseIf_neg hsize, raiseIf_neg hends,
      decodeJsonObject_eq_ok.mpr hspells]
    simp only [ok_bind, hraised, error_bind]
  intro hclaim
  have hrefused := hclaim.refuses _ hrun
  cases hrefused

/-- Every other failure is a refusal. -/
theorem raises_canonicalReleaseIdentity {payload : Bytes} (h : ¬ Unwritable F payload) :
    Raises (fun e => e.isContractError = true) (canonicalReleaseIdentity F payload) := by
  unfold canonicalReleaseIdentity
  refine Raises.bind (raises_raiseIf rfl) fun _ hsize => ?_
  refine Raises.bind (raises_raiseIf rfl) fun _ hends => ?_
  refine raises_decodeJsonObject.bind fun identity hdecode => ?_
  have hencodable : identity.Encodable := by
    by_contra hnot
    exact h ⟨⟨raiseIf_eq_ok.mp hsize, raiseIf_eq_ok.mp hends⟩, identity,
      decodeJsonObject_eq_ok.mp hdecode, hnot⟩
  rw [canonicalBytes_of_encodable hencodable, ok_bind]
  exact Raises.bind (raises_raiseIf rfl) fun _ _ => raises_ok

variable (F) in
/-- The run is no failure other than a refusal. -/
def answers (payload : Bytes) : Bool :=
  match canonicalReleaseIdentity F payload with
  | .error e => e.isContractError
  | .ok _ => true

theorem answers_of_readsOrRefuses {payload : Bytes} (h : ReadsOrRefuses F payload) :
    answers F payload = true := by
  unfold answers
  split
  · next e he => exact h.refuses e he
  · rfl

/-- An object whose one string is an escaped high surrogate without its low one. -/
def surrogatePayload : Bytes := encode "\x7b\"a\":\"\\ud800\"\x7d\n"

theorem answers_surrogatePayload : answers (List Char) surrogatePayload = false := by
  decide +kernel

end Release
