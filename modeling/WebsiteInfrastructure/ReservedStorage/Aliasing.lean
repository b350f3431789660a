import Mathlib
import WebsiteInfrastructure.ReservedStorage.Extents

/-!
# What is refused for sharing blocks

A packet is refused for sharing blocks of the pool only where two extents of a phase share one.
-/

namespace ReservedStorage

open Json Raising Intervals

variable {F : Type}

/-- The reasons of a packet that shares blocks. -/
def IsAlias (reason : String) : Prop := reason = "extent_alias" ∨ reason = "volume_extent_alias"

instance : DecidablePred IsAlias := fun _ => inferInstanceAs (Decidable (_ ∨ _))

/-- The ranges that the extents of both volumes are written with in a phase. -/
def physicalRanges (packet : Value F) (phase : String) : List Range :=
  roles.flatMap fun role => (written packet role.1 phase).filterMap fun value =>
    (extent value).toOption.map Extent.physical

/-! ## Checks with other reasons -/

abbrev Otherwise {α : Type} (x : Except String α) : Prop := Raises (fun r => ¬IsAlias r) x

theorem raises_collect {ε α β : Type} {p : ε → Prop} {f : α → Except ε β} {xs : List α}
    (h : ∀ a ∈ xs, Raises p (f a)) : Raises p (collect f xs) := by
  induction xs with
  | nil => exact raises_ok
  | cons x xs ih =>
    rw [List.forall_mem_cons] at h
    exact h.1.bind fun _ _ => (ih h.2).bind fun _ _ => raises_ok

theorem raises_carry {ε α σ : Type} {p : ε → Prop} {f : σ → α → Except ε σ} {xs : List α}
    (h : ∀ s, ∀ a ∈ xs, Raises p (f s a)) (s : σ) : Raises p (carry f s xs) := by
  induction xs generalizing s with
  | nil => exact raises_ok
  | cons x xs ih =>
    refine (h s x (.head _)).bind fun t _ => ?_
    exact ih (fun s a ha => h s a (.tail _ ha)) t

variable {value : Value F}

theorem otherwise_need {condition : Prop} [Decidable condition] {reason : String}
    (h : ¬IsAlias reason) : Otherwise (need condition reason) := raises_raiseIf h

theorem otherwise_number {minimum : ℤ} : Otherwise (number value minimum) := by
  have hnumber : ¬IsAlias "number" := by decide
  rw [number]
  split
  · split
    · exact raises_ok
    · exact raises_error.mpr hnumber
  · exact raises_error.mpr hnumber

theorem otherwise_shape {fields : List String} : Otherwise (shape value fields) :=
  otherwise_need (by decide)

theorem otherwise_identity : Otherwise (identity value) := by
  refine otherwise_shape.bind fun _ _ => ?_
  refine (otherwise_need (by decide)).bind fun _ _ => ?_
  exact otherwise_number.bind fun _ _ => raises_ok

theorem otherwise_addExtent {c : Coverage} : Otherwise (addExtent c value) := by
  unfold addExtent
  repeat' first
    | refine Raises.bind ?_ fun _ _ => ?_
    | exact raises_ok
    | exact otherwise_need (by decide)
    | exact otherwise_number

section Packet

variable [Interpreter F] {expected packet : Value F}

theorem otherwise_addReservation {capacity : ℤ} {l : Ledger} {entry : Text × Value F} :
    Otherwise (addReservation expected packet capacity l entry) := by
  unfold addReservation
  repeat' first
    | refine Raises.bind ?_ fun _ _ => ?_
    | exact raises_ok
    | exact otherwise_need (by decide)
    | exact otherwise_number

theorem otherwise_checkHeads {expectedBytes : Utf8.Bytes} {now : ℤ} :
    Otherwise (checkHeads expectedBytes expected packet now) := by
  unfold checkHeads
  repeat' first
    | refine Raises.bind ?_ fun _ _ => ?_
    | exact raises_ok
    | exact otherwise_need (by decide)
    | exact otherwise_number

theorem otherwise_checkPool {pool : Value F} : Otherwise (checkPool expected pool) := by
  unfold checkPool
  repeat' first
    | refine Raises.bind ?_ fun _ _ => ?_
    | exact raises_ok
    | exact otherwise_need (by decide)
    | exact otherwise_number

theorem otherwise_checkReservations {reserves : Reserves} {pool : Pool} :
    Otherwise (checkReservations expected packet reserves pool) := by
  unfold checkReservations
  repeat' first
    | refine Raises.bind ?_ fun _ _ => ?_
    | exact raises_ok
    | exact otherwise_need (by decide)
    | exact raises_carry (fun _ _ _ => otherwise_addReservation) _

theorem otherwise_checkConfig {config : Value F} {name : String} {claimBytes : ℤ}
    {filesystemIds : List (Value F)} :
    Otherwise (checkConfig expected config name claimBytes filesystemIds) := by
  unfold checkConfig
  repeat' first
    | refine Raises.bind ?_ fun _ _ => ?_
    | exact raises_ok
    | exact otherwise_need (by decide)
    | exact otherwise_number

theorem otherwise_checkMount {mount config reservation : Value F} {name : String}
    {claimBytes size minInodes : ℤ} {mountDevices : List (Value F)} : Otherwise
      (checkMount mount config reservation name claimBytes size minInodes mountDevices) := by
  unfold checkMount
  repeat' first
    | refine Raises.bind ?_ fun _ _ => ?_
    | exact raises_ok
    | exact otherwise_need (by decide)
    | exact otherwise_number

theorem otherwise_checkPrevention {prevention : Value F} :
    Otherwise (checkPrevention expected prevention) := by
  unfold checkPrevention
  repeat' first
    | refine Raises.bind ?_ fun _ _ => ?_
    | exact raises_ok
    | exact otherwise_need (by decide)

/-! ## Shared blocks -/

omit [Interpreter F]

/-- A refusal for sharing blocks, of a packet that shares some in a phase. -/
def Shares (packet : Value F) (reason : String) : Prop :=
  IsAlias reason → ∃ phase ∈ phases, ¬(physicalRanges packet phase).Pairwise Apart

theorem Otherwise.shares {α : Type} {x : Except String α} (h : Otherwise x) :
    Raises (Shares packet) x := fun r hr halias => absurd halias (h r hr)

/-- The readable extents of a list that is read are all of it. -/
theorem filterMap_extent {items : List (Value F)} {es : List Extent}
    (h : collect extent items = .ok es) :
    items.filterMap (fun value => (extent value).toOption.map Extent.physical) =
      es.map Extent.physical := by
  rw [collect_eq_ok] at h
  induction h with
  | nil => rfl
  | cons he _ ih => rw [List.filterMap_cons, he, ih]; rfl

theorem extent_sublist {role : String × ℤ} (hrole : role ∈ roles) {phase : String}
    {es : List Extent} (h : collect extent (written packet role.1 phase) = .ok es) :
    (es.map Extent.physical).Sublist (physicalRanges packet phase) := by
  rw [← filterMap_extent h, physicalRanges, List.flatMap]
  exact List.sublist_flatten_of_mem (List.mem_map_of_mem hrole)

/-- An allocation is refused for sharing blocks only where its own extents do. -/
theorem shares_observe {reservation : Value F} {size : ℤ} {role : String × ℤ} (hrole : role ∈ roles)
    {phase : String} (hphase : phase ∈ phases) : Raises (Shares packet)
      (observe (((packet.get "volumes").get role.1).get "phases") reservation size phase) := by
  refine otherwise_identity.shares.bind fun ident _ => ?_
  refine otherwise_shape.shares.bind fun _ _ => ?_
  refine otherwise_identity.shares.bind fun _ _ => ?_
  refine (otherwise_need (by decide)).shares.bind fun _ _ => ?_
  refine otherwise_number.shares.bind fun _ _ => ?_
  refine (otherwise_need (by decide)).shares.bind fun _ _ => ?_
  refine otherwise_number.shares.bind fun _ _ => ?_
  refine (otherwise_need (by decide)).shares.bind fun _ _ => ?_
  refine (otherwise_need (by decide)).shares.bind fun _ _ => ?_
  have hloop : Otherwise (carry addExtent ⟨0, []⟩ (written packet role.1 phase)) :=
    raises_carry (fun _ _ _ => otherwise_addExtent) _
  refine hloop.shares.bind fun c hcarry => ?_
  refine (otherwise_need (by decide)).shares.bind fun _ _ => ?_
  refine Raises.bind ?_ fun _ _ => raises_ok
  -- Here the only reason is that the extents of this volume overlap.
  intro r hr _
  refine ⟨phase, hphase, fun hapart => ?_⟩
  obtain ⟨es, hes, hc⟩ := coverage_of_carry hcarry
  have hown : c.physical.Pairwise Apart := by
    rw [hc.physical]
    exact hapart.sublist (extent_sublist hrole hes)
  have hpos : ∀ r ∈ c.physical, r.1 < r.2 := by
    rw [hc.physical, List.forall_mem_map]
    exact fun e he => e.physical_nonempty (hc.pos e he)
  exact (need_eq_error.mp hr).1 ((neighboursApart_iff hpos).mpr hown)

/-- The ranges that the loop over the volumes keeps for a phase are those of its extents. -/
theorem Observed.physicalRanges {blobs journal : ℤ} {phase : String} {ranges : List Range}
    {es fs : List Extent} (h : Observed packet blobs journal phase ranges es fs) :
    ReservedStorage.physicalRanges packet phase = ranges := by
  rw [ReservedStorage.physicalRanges, h.ranges_eq, List.map_append, ← filterMap_extent h.readBlobs,
    ← filterMap_extent h.readJournal]
  simp only [roles, List.flatMap_cons, List.flatMap_nil, List.append_nil]

variable [Interpreter F]

theorem shares_addVolume {v : Volumes F} {role : String × ℤ} (hrole : role ∈ roles) :
    Raises (Shares packet) (addVolume expected packet v role) := by
  refine otherwise_checkConfig.shares.bind fun _ _ => ?_
  refine otherwise_shape.shares.bind fun _ _ => ?_
  refine (otherwise_need (by decide)).shares.bind fun _ _ => ?_
  refine (otherwise_need (by decide)).shares.bind fun _ _ => ?_
  refine otherwise_shape.shares.bind fun _ _ => ?_
  refine Raises.bind ?_ fun _ _ => ?_
  · exact raises_collect fun phase hphase => shares_observe hrole hphase
  refine (otherwise_need (by decide)).shares.bind fun _ _ => ?_
  refine otherwise_checkMount.shares.bind fun _ _ => ?_
  refine (otherwise_need (by decide)).shares.bind fun _ _ => ?_
  exact otherwise_checkPrevention.shares.bind fun _ _ => raises_ok

theorem shares_checkVolumes : Raises (Shares packet) (checkVolumes expected packet) := by
  refine otherwise_shape.shares.bind fun _ _ => ?_
  refine otherwise_shape.shares.bind fun _ _ => ?_
  refine Raises.bind ?_ fun v hcarry => ?_
  · exact raises_carry (fun v role hrole => shares_addVolume hrole) _
  intro r hr _
  obtain ⟨blobs, journal, -, -, hall⟩ := volumes_of_carry hcarry
  obtain ⟨_, ranges, _, hsplit, -, hrefused⟩ := each_eq_error.mp hr
  have hranges : ranges ∈ v.physical := by
    rw [hsplit]
    simp
  obtain ⟨phase, hphase, es, fs, hread⟩ := (exists_of_forall₂ hall).2 ranges hranges
  refine ⟨phase, hphase, fun hapart => ?_⟩
  rw [hread.physicalRanges, ← neighboursApart_iff hread.nonempty] at hapart
  exact (need_eq_error.mp hrefused).1 hapart

/-- A packet is refused for sharing blocks only where in some phase the ranges that the extents of
both volumes are written with are not all disjoint. -/
theorem validate_alias_only_if {expectedBytes : Utf8.Bytes} {now : ℤ} {reason : String}
    (h : validate expectedBytes expected packet now = .error reason)
    (halias : reason = "extent_alias" ∨ reason = "volume_extent_alias") :
    ∃ phase ∈ phases, ¬(physicalRanges packet phase).Pairwise Apart := by
  have hall : Raises (Shares packet) (validate expectedBytes expected packet now) := by
    refine otherwise_checkHeads.shares.bind fun _ _ => ?_
    refine otherwise_checkPool.shares.bind fun _ _ => ?_
    refine otherwise_checkReservations.shares.bind fun _ _ => ?_
    exact shares_checkVolumes.bind fun _ _ => (otherwise_need (by decide)).shares
  exact hall reason h halias

/-- A journal that begins in the middle of the blobs. -/
theorem samplePacket_aliased : ∃ phase ∈ phases,
    ¬(physicalRanges (samplePacket 8192 : Value (List Char)) phase).Pairwise Apart := by
  have hrefused : validate [] (sampleExpected : Value (List Char)) (samplePacket 8192) 1000 =
      .error "volume_extent_alias" := by
    decide +kernel
  exact validate_alias_only_if hrefused (.inr rfl)

end Packet

end ReservedStorage
