import Mathlib
import WebsiteInfrastructure.ReservedStorage.Validator

/-!
# No reservation is promised twice

The ledger of an accepted packet: what every reservation still needs fits into what the pool has.
-/

namespace ReservedStorage

open Json Raising

variable {F : Type}

@[simp] theorem need_eq_ok {condition : Prop} [Decidable condition] {reason : String} {u : Unit} :
    need condition reason = .ok u ↔ condition := by
  rw [need, raiseIf_eq_ok, not_not]

theorem need_eq_error {condition : Prop} [Decidable condition] {reason r : String} :
    need condition reason = .error r ↔ ¬condition ∧ reason = r := by
  rw [need, raiseIf_eq_error]

theorem number_eq_ok {value : Value F} {minimum n : ℤ} :
    number value minimum = .ok n ↔ value = .int n ∧ minimum ≤ n ∧ n ≤ 2 ^ 63 - 1 := by
  rw [number, ← Value.int?_eq_some]
  cases hint : value.int? with
  | none => simp
  | some m =>
    by_cases h : minimum ≤ m ∧ m ≤ 2 ^ 63 - 1
    · simp only [if_pos h, Except.ok.injEq, Option.some.injEq]
      constructor
      · rintro rfl
        exact ⟨rfl, h⟩
      · exact And.left
    · simp only [if_neg h, reduceCtorEq, Option.some.injEq, false_iff]
      rintro ⟨rfl, hm⟩
      exact h hm

/-! ## Liabilities -/

/-- What is known of a reservation: the size it reserves, and what it has before and after. -/
structure Liability where
  ident : String × ℤ
  reserved : ℤ
  before : ℤ
  after : ℤ

/-- What the two documents say of a reservation. -/
def liability (packet : Value F) (entry : Text × Value F) : Except String Liability := do
  let ident ← identity (entry.2.get "identity")
  let reserved ← number (entry.2.get "reservedBytes") 1
  let observed := valueAt (packet.get "reservations") entry.1
  let before ← number (observed.get "allocatedBeforeBytes") 0
  let after ← number (observed.get "allocatedAfterBytes") 0
  .ok ⟨ident, reserved, before, after⟩

/-- All reservations of the expected document. -/
def liabilities (expected packet : Value F) : Except String (List Liability) :=
  collect (liability packet) (fieldsOf (expected.get "reservations"))

/-- What the ledger says of the reservations taken so far. -/
structure Ledger.Accounts (l : Ledger) (rs : List Liability) : Prop where
  identities : l.identities = (rs.map Liability.ident).reverse
  nodup : l.identities.Nodup
  additional : l.additional = (rs.map fun r => max 0 (r.reserved - r.before)).sum
  outstanding : l.outstanding = (rs.map fun r => max 0 (r.reserved - r.after)).sum
  allocatedBefore : l.allocatedBefore = (rs.map Liability.before).sum
  allocatedAfter : l.allocatedAfter = (rs.map Liability.after).sum

theorem Ledger.accounts_nil : Ledger.Accounts ⟨[], 0, 0, 0, 0⟩ [] := by
  constructor <;> simp

section Steps

variable [Interpreter F] {expected packet : Value F} {capacity : ℤ} {l t : Ledger}
  {entry : Text × Value F}

/-- What a turn of the loop adds to the ledger. -/
theorem addReservation_eq_ok (h : addReservation expected packet capacity l entry = .ok t) :
    ∃ r, liability packet entry = .ok r ∧ r.ident ∉ l.identities ∧
      t = ⟨r.ident :: l.identities, l.additional + max 0 (r.reserved - r.before),
        l.outstanding + max 0 (r.reserved - r.after), l.allocatedBefore + r.before,
        l.allocatedAfter + r.after⟩ := by
  rw [addReservation] at h
  simp only [bind_eq_ok, need_eq_ok, Except.ok.injEq] at h
  obtain ⟨-, -, -, -, ident, hident, -, ⟨-, hfresh⟩, reserved, hreserved, -, -, _, -, -, -, before,
    hbefore, after, hafter, -, -, rfl⟩ := h
  refine ⟨⟨ident, reserved, before, after⟩, ?_, hfresh, rfl⟩
  simp only [liability, hident, hreserved, hbefore, hafter, ok_bind]

theorem Ledger.Accounts.add {rs : List Liability} (h : l.Accounts rs) {r : Liability}
    (hfresh : r.ident ∉ l.identities) :
    Ledger.Accounts ⟨r.ident :: l.identities, l.additional + max 0 (r.reserved - r.before),
      l.outstanding + max 0 (r.reserved - r.after), l.allocatedBefore + r.before,
      l.allocatedAfter + r.after⟩ (rs ++ [r]) where
  identities := by
    simp [h.identities]
  nodup := List.nodup_cons.mpr ⟨hfresh, h.nodup⟩
  additional := by
    simp [h.additional]
  outstanding := by
    simp [h.outstanding]
  allocatedBefore := by
    simp [h.allocatedBefore]
  allocatedAfter := by
    simp [h.allocatedAfter]

/-- The loop over the reservations accounts for every one of them. -/
theorem accounts_of_carry {entries : List (Text × Value F)}
    (h : carry (addReservation expected packet capacity) ⟨[], 0, 0, 0, 0⟩ entries = .ok t) :
    ∃ rs, collect (liability packet) entries = .ok rs ∧ t.Accounts rs := by
  refine carry_invariant (fun seen s => ∃ rs, collect (liability packet) seen = .ok rs ∧
    s.Accounts rs) ?_ ⟨[], rfl, Ledger.accounts_nil⟩ h
  rintro seen s x u ⟨rs, hrs, hs⟩ hx
  obtain ⟨r, hr, hfresh, rfl⟩ := addReservation_eq_ok hx
  refine ⟨rs ++ [r], ?_, hs.add hfresh⟩
  rw [collect_eq_ok] at hrs ⊢
  exact List.rel_append hrs (.cons hr .nil)

end Steps

/-! ## The pool -/

/-- What is reserved or taken, whichever is more, is what is taken and what is still needed. -/
theorem sum_max (f g : Liability → ℤ) (rs : List Liability) :
    (rs.map fun r => max (f r) (g r)).sum =
      (rs.map g).sum + (rs.map fun r => max 0 (f r - g r)).sum := by
  rw [← List.sum_map_add]
  congr 1
  apply List.map_congr_left
  intro r _
  omega

section Accepted

variable [Interpreter F] {expected packet : Value F} {reserves : Reserves} {pool : Pool}

theorem checkReservations_eq_ok (h : checkReservations expected packet reserves pool = .ok ()) :
    ∃ rs, liabilities expected packet = .ok rs ∧ (rs.map Liability.ident).Nodup ∧
      (rs.map Liability.before).sum ≤ pool.capacity - pool.before ∧
      (rs.map Liability.after).sum ≤ pool.capacity - pool.after ∧
      (rs.map fun r => max 0 (r.reserved - r.before)).sum + reserves.bytes ≤ pool.before ∧
      (rs.map fun r => max 0 (r.reserved - r.after)).sum + reserves.bytes ≤ pool.after := by
  rw [checkReservations] at h
  simp only [bind_eq_ok, need_eq_ok] at h
  obtain ⟨-, -, -, -, t, ht, -, ⟨hbefore, hafter⟩, -, hadditional, -, houtstanding, -⟩ := h
  obtain ⟨rs, hrs, hacc⟩ := accounts_of_carry ht
  have hnodup := hacc.nodup
  rw [hacc.identities, List.nodup_reverse] at hnodup
  rw [hacc.allocatedBefore] at hbefore
  rw [hacc.allocatedAfter] at hafter
  rw [hacc.additional] at hadditional
  rw [hacc.outstanding] at houtstanding
  exact ⟨rs, hrs, hnodup, hbefore, hafter, hadditional, houtstanding⟩

theorem checkHeads_eq_ok {expectedBytes : Utf8.Bytes} {now : ℤ}
    (h : checkHeads expectedBytes expected packet now = .ok reserves) :
    expected.get "hostReserveBytes" = .int reserves.bytes := by
  rw [checkHeads] at h
  simp only [bind_eq_ok, need_eq_ok, number_eq_ok, Except.ok.injEq] at h
  obtain ⟨-, -, -, -, -, -, -, -, -, -, -, -, _, -, -, -, -, -, -, -, -, -, bytes, hbytes, inodes, -,
    rfl⟩ := h
  exact hbytes.1

theorem checkPool_eq_ok {observed : Value F} (h : checkPool expected observed = .ok pool) :
    observed.get "capacityBytes" = .int pool.capacity ∧
      observed.get "availableBeforeBytes" = .int pool.before ∧
      observed.get "availableAfterBytes" = .int pool.after := by
  rw [checkPool] at h
  simp only [bind_eq_ok, need_eq_ok, number_eq_ok, Except.ok.injEq] at h
  obtain ⟨-, -, -, -, -, -, capacity, hcapacity, before, hbefore, after, hafter, -, -, _, -, _, -,
    rfl⟩ := h
  exact ⟨hcapacity.1, hbefore.1, hafter.1⟩

/-- In an accepted packet every reservation is counted under an inode of its own. Before and after,
the larger of what each has and what it reserves fits into the pool together with the reserve of
the host, and the reserve is left once every reservation has all that it still needs. -/
theorem validate_never_overcommits {expectedBytes : Utf8.Bytes} {now : ℤ}
    (h : validate expectedBytes expected packet now = .ok ()) :
    ∃ rs reserve capacity before after, liabilities expected packet = .ok rs ∧
      expected.get "hostReserveBytes" = .int reserve ∧
      (packet.get "pool").get "capacityBytes" = .int capacity ∧
      (packet.get "pool").get "availableBeforeBytes" = .int before ∧
      (packet.get "pool").get "availableAfterBytes" = .int after ∧
      (rs.map Liability.ident).Nodup ∧
      (rs.map fun r => max r.reserved r.before).sum + reserve ≤ capacity ∧
      (rs.map fun r => max r.reserved r.after).sum + reserve ≤ capacity ∧
      reserve ≤ before - (rs.map fun r => max 0 (r.reserved - r.before)).sum ∧
      reserve ≤ after - (rs.map fun r => max 0 (r.reserved - r.after)).sum := by
  rw [validate] at h
  simp only [bind_eq_ok] at h
  obtain ⟨reserves, hheads, pool, hpool, _, hreservations, -⟩ := h
  obtain ⟨hcapacity, hbefore, hafter⟩ := checkPool_eq_ok hpool
  obtain ⟨rs, hrs, hnodup, husedBefore, husedAfter, hadditional, houtstanding⟩ :=
    checkReservations_eq_ok hreservations
  refine ⟨rs, reserves.bytes, pool.capacity, pool.before, pool.after, hrs, checkHeads_eq_ok hheads,
    hcapacity, hbefore, hafter, hnodup, ?_, ?_, ?_, ?_⟩
  · rw [sum_max]
    omega
  · rw [sum_max]
    omega
  · omega
  · omega

/-- Two volumes with nothing allocated yet. -/
theorem samplePacket_commits : ∃ rs reserve before,
    liabilities (sampleExpected : Value (List Char)) (samplePacket (2 ^ 39)) = .ok rs ∧
      (rs.map Liability.ident).Nodup ∧
      reserve ≤ before - (rs.map fun r => max 0 (r.reserved - r.before)).sum := by
  obtain ⟨rs, reserve, -, before, -, hrs, -, -, -, -, hnodup, -, -, hbefore, -⟩ :=
    validate_never_overcommits samplePacket_accepted
  exact ⟨rs, reserve, before, hrs, hnodup, hbefore⟩

end Accepted

end ReservedStorage
