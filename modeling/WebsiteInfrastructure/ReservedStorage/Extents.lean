import Mathlib
import WebsiteInfrastructure.ReservedStorage.Ledger

/-!
# Extents of the volumes

The extents of an accepted packet cover both images in every phase without sharing a block of the
pool, and a packet whose blocks are all distinct is not refused for sharing one.
-/

namespace ReservedStorage

open Json Raising Intervals

variable {F : Type}

/-- An extent: where it begins in the image and on the pool, and its length. -/
structure Extent where
  offset : ℤ
  start : ℤ
  length : ℤ

def Extent.logical (e : Extent) : Range := (e.offset, e.offset + e.length)

def Extent.physical (e : Extent) : Range := (e.start, e.start + e.length)

/-- An extent as it is written. -/
def extent (value : Value F) : Except String Extent := do
  shape value ["logical", "physical", "length", "state"]
  let offset ← number (value.get "logical") 0
  let start ← number (value.get "physical") 1
  let length ← number (value.get "length") 1
  .ok ⟨offset, start, length⟩

/-- The extents that a packet has for a volume in a phase. -/
def written (packet : Value F) (role phase : String) : List (Value F) :=
  (items? (((((packet.get "volumes").get role).get "phases").get phase).get "extents")).getD []

theorem length_pos_of_extent {value : Value F} {e : Extent} (h : extent value = .ok e) :
    0 < e.length := by
  rw [extent] at h
  simp only [bind_eq_ok, number_eq_ok, Except.ok.injEq] at h
  obtain ⟨-, -, offset, -, start, -, length, hlength, rfl⟩ := h
  have hpos := hlength.2.1
  change 0 < length
  omega

theorem Extent.physical_nonempty {e : Extent} (h : 0 < e.length) :
    e.physical.1 < e.physical.2 := by
  change e.start < e.start + e.length
  omega

theorem Extent.length_physical (e : Extent) : e.physical.length = e.logical.length := by
  simp only [Range.length, physical, logical]
  omega

/-! ## One volume in one phase -/

/-- Every turn of the loop takes an extent that begins where the last one ended. -/
theorem addExtent_eq_ok {c t : Coverage} {value : Value F} (h : addExtent c value = .ok t) :
    ∃ e, extent value = .ok e ∧ e.offset = c.cursor ∧
      t = ⟨c.cursor + e.length, c.physical ++ [e.physical]⟩ := by
  rw [addExtent] at h
  simp only [bind_eq_ok, need_eq_ok, Except.ok.injEq] at h
  obtain ⟨_, hshape, offset, hoffset, start, hstart, length, hlength, -, -, -, hcursor, rfl⟩ := h
  refine ⟨⟨offset, start, length⟩, ?_, hcursor, rfl⟩
  simp only [extent, hshape, hoffset, hstart, hlength, ok_bind]

/-- What the loop over the extents has read. -/
structure Coverage.Of (c : Coverage) (es : List Extent) : Prop where
  tiles : Tiles 0 c.cursor (es.map Extent.logical)
  physical : c.physical = es.map Extent.physical
  pos : ∀ e ∈ es, 0 < e.length

theorem Coverage.Of.add {c : Coverage} {es : List Extent} (h : c.Of es) {e : Extent}
    (hoffset : e.offset = c.cursor) (hpos : 0 < e.length) :
    Coverage.Of ⟨c.cursor + e.length, c.physical ++ [e.physical]⟩ (es ++ [e]) where
  tiles := by
    rw [List.map_append]
    apply h.tiles.append
    have hlogical : e.logical = (c.cursor, c.cursor + e.length) := by
      rw [Extent.logical, hoffset]
    rw [List.map_singleton, hlogical]
    exact .cons (by omega) (.nil _)
  physical := by
    simp [h.physical]
  pos := by
    rw [List.forall_mem_append, List.forall_mem_singleton]
    exact ⟨h.pos, hpos⟩

/-- The loop over the extents reads every one of them. -/
theorem coverage_of_carry {items : List (Value F)} {c : Coverage}
    (h : carry addExtent ⟨0, []⟩ items = .ok c) :
    ∃ es, collect extent items = .ok es ∧ c.Of es := by
  have hempty : Coverage.Of ⟨0, []⟩ [] := ⟨.nil 0, rfl, by simp⟩
  refine carry_invariant (fun seen s => ∃ es, collect extent seen = .ok es ∧ s.Of es) ?_
    ⟨[], rfl, hempty⟩ h
  rintro seen s x t ⟨es, hes, hs⟩ hx
  obtain ⟨e, he, hoffset, rfl⟩ := addExtent_eq_ok hx
  refine ⟨es ++ [e], ?_, hs.add hoffset (length_pos_of_extent he)⟩
  rw [collect_eq_ok] at hes ⊢
  exact List.rel_append hes (.cons he .nil)

theorem disjoint_eq_ok {physical : List Range} {reason : String} {u : Unit} :
    disjoint physical reason = .ok u ↔ neighboursApart physical = true := need_eq_ok

theorem allocation_eq_ok {observation : Value F} {ident : String × ℤ} {size : ℤ}
    {physical : List Range} (h : allocation observation ident size = .ok physical) :
    ∃ es, collect extent ((items? (observation.get "extents")).getD []) = .ok es ∧
      Tiles 0 size (es.map Extent.logical) ∧ physical = es.map Extent.physical ∧
      ∀ e ∈ es, 0 < e.length := by
  rw [allocation] at h
  simp only [bind_eq_ok, need_eq_ok, Except.ok.injEq] at h
  obtain ⟨-, -, _, -, -, -, _, -, -, -, _, -, -, -, -, -, c, hcarry, -, hcursor, -, -, rfl⟩ := h
  obtain ⟨es, hes, hc⟩ := coverage_of_carry hcarry
  have htiles := hc.tiles
  rw [hcursor] at htiles
  exact ⟨es, hes, htiles, hc.physical, hc.pos⟩

/-! ## Both volumes -/

section Volumes

variable [Interpreter F] {expected packet : Value F}

/-- A volume is observed in every phase, with an image of the size of the expected document. -/
theorem addVolume_eq_ok {v w : Volumes F} {role : String × ℤ}
    (h : addVolume expected packet v role = .ok w) :
    ∃ size physical, (((expected.get "volumes").get role.1).get "imageBytes") = .int size ∧
      List.Forall₂ (fun phase ranges => ∃ es, collect extent (written packet role.1 phase) = .ok es ∧
        Tiles 0 size (es.map Extent.logical) ∧ ranges = es.map Extent.physical ∧
        ∀ e ∈ es, 0 < e.length) phases physical ∧
      w.physical = List.zipWith (· ++ ·) v.physical physical := by
  rw [addVolume] at h
  simp only [bind_eq_ok, Except.ok.injEq] at h
  obtain ⟨⟨size, minInodes⟩, hconfig, -, -, -, -, -, -, -, -, physical, hphysical, -, -, -, -, -, -,
    -, -, rfl⟩ := h
  refine ⟨size, physical, ?_, ?_, rfl⟩
  · rw [checkConfig] at hconfig
    simp only [bind_eq_ok, number_eq_ok, Except.ok.injEq, Prod.mk.injEq] at hconfig
    obtain ⟨-, -, -, -, -, -, -, -, n, hn, -, -, _, -, -, -, -, -, rfl, -⟩ := hconfig
    exact hn.1
  · rw [collect_eq_ok] at hphysical
    apply hphysical.imp
    intro phase ranges hranges
    rw [observe] at hranges
    simp only [bind_eq_ok] at hranges
    obtain ⟨ident, -, hallocation⟩ := hranges
    exact allocation_eq_ok hallocation

omit [Interpreter F]

theorem forall₂_zipWith_append {p q : String → List Range → Prop} {names : List String}
    {first second : List (List Range)} (hfirst : List.Forall₂ p names first)
    (hsecond : List.Forall₂ q names second) :
    List.Forall₂ (fun name ranges => ∃ a b, p name a ∧ q name b ∧ ranges = a ++ b) names
      (List.zipWith (· ++ ·) (List.zipWith (· ++ ·) (names.map fun _ => []) first) second) := by
  induction hfirst generalizing second with
  | nil =>
    cases hsecond
    exact .nil
  | cons ha _ ih =>
    cases hsecond with
    | cons hb hsecond => exact .cons ⟨_, _, ha, hb, rfl⟩ (ih hsecond)

theorem exists_of_forall₂ {α β : Type} {p : α → β → Prop} {as : List α} {bs : List β}
    (h : List.Forall₂ p as bs) : (∀ a ∈ as, ∃ b ∈ bs, p a b) ∧ ∀ b ∈ bs, ∃ a ∈ as, p a b := by
  induction h with
  | nil => simp
  | cons hab _ ih =>
    constructor
    · rw [List.forall_mem_cons]
      exact ⟨⟨_, .head _, hab⟩, fun a ha => (ih.1 a ha).imp fun b hb => ⟨.tail _ hb.1, hb.2⟩⟩
    · rw [List.forall_mem_cons]
      exact ⟨⟨_, .head _, hab⟩, fun b hb => (ih.2 b hb).imp fun a ha => ⟨.tail _ ha.1, ha.2⟩⟩

/-- What is read of both volumes in a phase, and the ranges that are kept of it. -/
structure Observed (packet : Value F) (blobs journal : ℤ) (phase : String) (ranges : List Range)
    (es fs : List Extent) : Prop where
  readBlobs : collect extent (written packet "blobs" phase) = .ok es
  readJournal : collect extent (written packet "journal" phase) = .ok fs
  tilesBlobs : Tiles 0 blobs (es.map Extent.logical)
  tilesJournal : Tiles 0 journal (fs.map Extent.logical)
  ranges_eq : ranges = (es ++ fs).map Extent.physical
  nonempty : ∀ r ∈ ranges, r.1 < r.2

variable [Interpreter F]

/-- The loop over the volumes keeps for each phase the ranges of both. -/
theorem volumes_of_carry {ids : List (Value F)} {v : Volumes F}
    (h : carry (addVolume expected packet) ⟨ids, [], phases.map fun _ => []⟩ roles = .ok v) :
    ∃ blobs journal, ((expected.get "volumes").get "blobs").get "imageBytes" = .int blobs ∧
      ((expected.get "volumes").get "journal").get "imageBytes" = .int journal ∧
      List.Forall₂ (fun phase ranges => ∃ es fs, Observed packet blobs journal phase ranges es fs)
        phases v.physical := by
  simp only [roles, carry, bind_eq_ok, Except.ok.injEq] at h
  obtain ⟨first, hfirst, second, hsecond, rfl⟩ := h
  obtain ⟨blobs, physicalBlobs, hblobs, hallBlobs, hphysicalBlobs⟩ := addVolume_eq_ok hfirst
  obtain ⟨journal, physicalJournal, hjournal, hallJournal, hphysicalJournal⟩ :=
    addVolume_eq_ok hsecond
  refine ⟨blobs, journal, hblobs, hjournal, ?_⟩
  rw [hphysicalJournal, hphysicalBlobs]
  apply (forall₂_zipWith_append hallBlobs hallJournal).imp
  rintro phase ranges ⟨a, b, ⟨es, hes, htiles, rfl, hpos⟩, ⟨fs, hfs, htiles', rfl, hpos'⟩, rfl⟩
  refine ⟨es, fs, hes, hfs, htiles, htiles', List.map_append.symm, ?_⟩
  rw [List.forall_mem_append, List.forall_mem_map, List.forall_mem_map]
  exact ⟨fun e he => e.physical_nonempty (hpos e he), fun e he => e.physical_nonempty (hpos' e he)⟩

/-- The lengths on the pool are those in the images. -/
theorem sum_length_physical (es : List Extent) :
    (es.map fun e => e.physical.length).sum = ((es.map Extent.logical).map Range.length).sum := by
  rw [List.map_map]
  congr 1
  exact List.map_congr_left fun e _ => e.length_physical

/-- In an accepted packet the extents of both volumes tile their images in every phase. No two of
them share a block of the pool, and together they are as long as both images. -/
theorem validate_extents_exact {expectedBytes : Utf8.Bytes} {now : ℤ}
    (h : validate expectedBytes expected packet now = .ok ()) :
    ∃ blobs journal, ((expected.get "volumes").get "blobs").get "imageBytes" = .int blobs ∧
      ((expected.get "volumes").get "journal").get "imageBytes" = .int journal ∧
      ∀ phase ∈ phases, ∃ es fs, collect extent (written packet "blobs" phase) = .ok es ∧
        collect extent (written packet "journal" phase) = .ok fs ∧
        Tiles 0 blobs (es.map Extent.logical) ∧ Tiles 0 journal (fs.map Extent.logical) ∧
        ((es ++ fs).map Extent.physical).Pairwise Apart ∧
        ((es ++ fs).map fun e => e.physical.length).sum = blobs + journal := by
  rw [validate] at h
  simp only [bind_eq_ok] at h
  obtain ⟨-, -, -, -, -, -, _, hvolumes, -⟩ := h
  rw [checkVolumes] at hvolumes
  simp only [bind_eq_ok, each_eq_ok, disjoint_eq_ok] at hvolumes
  obtain ⟨-, -, -, -, v, hcarry, hdisjoint⟩ := hvolumes
  obtain ⟨blobs, journal, hblobs, hjournal, hall⟩ := volumes_of_carry hcarry
  refine ⟨blobs, journal, hblobs, hjournal, fun phase hphase => ?_⟩
  obtain ⟨ranges, hranges, es, fs, hread⟩ := (exists_of_forall₂ hall).1 phase hphase
  have hapart : ranges.Pairwise Apart :=
    (neighboursApart_iff hread.nonempty).mp (hdisjoint ranges hranges)
  rw [hread.ranges_eq] at hapart
  refine ⟨es, fs, hread.readBlobs, hread.readJournal, hread.tilesBlobs, hread.tilesJournal, hapart, ?_⟩
  rw [sum_length_physical, List.map_append, List.map_append, List.sum_append,
    hread.tilesBlobs.sum_length, hread.tilesJournal.sum_length]
  omega

/-- Each volume with two extents in each phase, in the other order on the pool. -/
theorem samplePacket_tiled : ∃ blobs journal : ℤ, ∀ phase ∈ phases, ∃ es fs,
    collect extent (written (samplePacket (2 ^ 39) : Value (List Char)) "blobs" phase) = .ok es ∧
      collect extent (written (samplePacket (2 ^ 39) : Value (List Char)) "journal" phase) = .ok fs ∧
      Tiles 0 blobs (es.map Extent.logical) ∧ Tiles 0 journal (fs.map Extent.logical) ∧
      ((es ++ fs).map Extent.physical).Pairwise Apart := by
  obtain ⟨blobs, journal, -, -, hall⟩ := validate_extents_exact samplePacket_accepted
  refine ⟨blobs, journal, fun phase hphase => ?_⟩
  obtain ⟨es, fs, hes, hfs, htiles, htiles', hapart, -⟩ := hall phase hphase
  exact ⟨es, fs, hes, hfs, htiles, htiles', hapart⟩

end Volumes

end ReservedStorage
