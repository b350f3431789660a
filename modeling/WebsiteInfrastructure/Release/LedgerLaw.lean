import Mathlib
import WebsiteInfrastructure.Release.Reading

/-!
# The law of the ledger

The reader checks neighbouring boundaries only. Over any two boundaries of a ledger it
returns, the fragment directory keeps everything it had and gains exactly one fragment
for each release between them.
-/

namespace Release

open CommitGraph Growth

/-- The files of the fragment directory. -/
def ObjectStore.fragments (store : ObjectStore) (sha : String) : Finset GitText :=
  ((store.tree sha).keys.filter fun path => path.startsWith "changelog.d/").toFinset

/-- What holds between any two boundaries `i < j`, neighbours or not. -/
structure LedgerLaw (store : ObjectStore) (ledger : List TagBoundary) : Prop where
  floor : ledger.head? = some ⟨⟨0, 1, 9⟩, tagLedgerFloorTag, tagLedgerFloorSha⟩
  version : ∀ k (h : k + 1 < ledger.length), ledger[k + 1].version =
    ⟨ledger[k].version.major, ledger[k].version.minor, ledger[k].version.patch + 1⟩
  sources : (ledger.map TagBoundary.sourceSha).Nodup
  linear : ∀ k (h : k + 1 < ledger.length),
    store.graph.LinearRange ledger[k].sourceSha ledger[k + 1].sourceSha
  kept : ∀ i j (_ : i < j) (h : j < ledger.length), ∀ path ∈ store.fragments ledger[i].sourceSha,
    path ∈ store.fragments ledger[j].sourceSha ∧
      (store.tree ledger[j].sourceSha).lookup path = (store.tree ledger[i].sourceSha).lookup path
  gained : ∀ i j (_ : i < j) (h : j < ledger.length),
    (store.fragments ledger[j].sourceSha \ store.fragments ledger[i].sourceSha).card = j - i
  consumed : ∃ consumed : ℕ → GitText,
    (∀ k (h : k + 1 < ledger.length), store.fragments ledger[k + 1].sourceSha =
      insert (consumed k) (store.fragments ledger[k].sourceSha) ∧
      consumed k ∉ store.fragments ledger[k].sourceSha) ∧
    ∀ i j, i < j → j + 1 < ledger.length → consumed i ≠ consumed j
  generated : ∀ i j (_ : i < j) (h : j < ledger.length), ∀ path ∈ generatedReleasePaths,
    (store.tree ledger[j].sourceSha).lookup (.text path) =
      (store.tree ledger[i].sourceSha).lookup (.text path)

section Fragments

variable {store : ObjectStore} {sha : String} {path : GitText}

theorem onSurface_of_fragment (h : path.startsWith "changelog.d/" = true) :
    onSurface path = true := by
  rw [onSurface, List.any_eq_true]
  exact ⟨"changelog.d", by decide, by rw [Bool.or_eq_true]; exact .inr h⟩

theorem surface_of_fragment (h : path.startsWith "changelog.d/" = true) :
    store.surface sha path = (store.tree sha).lookup path := by
  rw [ObjectStore.surface, if_pos (onSurface_of_fragment h)]

theorem surface_of_generated {p : String} (h : p ∈ generatedReleasePaths) :
    store.surface sha (.text p) = (store.tree sha).lookup (.text p) := by
  have hsurface : onSurface (.text p) = true := by
    simp only [generatedReleasePaths, List.mem_cons, List.not_mem_nil, or_false] at h
    rcases h with rfl | rfl <;> decide
  rw [ObjectStore.surface, if_pos hsurface]

theorem mem_fragments : path ∈ store.fragments sha ↔
    path.startsWith "changelog.d/" = true ∧ store.surface sha path ≠ none := by
  rw [ObjectStore.fragments, List.mem_toFinset, List.mem_filter, ← AList.mem_keys, and_comm]
  refine and_congr_right fun h => ?_
  rw [surface_of_fragment h, ← AList.lookup_isSome, Option.isSome_iff_ne_none]

theorem startsWith_of_isFragmentPath {p : String} (h : isFragmentPath p = true) :
    (GitText.text p).startsWith "changelog.d/" = true := by
  rw [GitText.startsWith, List.isPrefixOf_iff_prefix]
  exact prefix_of_isFragmentPath h

/-- When the surface grows by fragments, so does the fragment directory. -/
theorem fragments_of_grows {base head : String} {s : Finset GitText}
    (hgrow : Grows (store.surface base) s (store.surface head))
    (hs : ∀ k ∈ s, k.startsWith "changelog.d/" = true) :
    store.fragments head = store.fragments base ∪ s ∧ Disjoint (store.fragments base) s := by
  constructor
  · ext k
    rw [Finset.mem_union, mem_fragments, mem_fragments]
    by_cases hk : k ∈ s
    · simp [hk, hs k hk, hgrow.present k hk]
    · simp [hk, hgrow.same k hk]
  · rw [Finset.disjoint_left]
    intro k hk hks
    exact (mem_fragments.mp hk).2 (hgrow.fresh k hks)

end Fragments

section Law

variable {store : ObjectStore} {ledger : List TagBoundary}

/-- The consumed fragments, one for each step of a ledger. -/
theorem IsLedger.exists_consumed (h : IsLedger store ledger) : ∃ consumed : ℕ → String,
    ∀ k (hk : k + 1 < ledger.length),
      Adds store ledger[k].sourceSha ledger[k + 1].sourceSha {consumed k} := by
  have hstep : ∀ k (hk : k + 1 < ledger.length), ∃ path,
      Adds store ledger[k].sourceSha ledger[k + 1].sourceSha {path} :=
    fun k hk => (List.isChain_iff_getElem.mp h.chain k hk).adds
  choose path hpath using hstep
  refine ⟨fun k => if hk : k + 1 < ledger.length then path k hk else "", ?_⟩
  intro k hk
  simpa only [dif_pos hk] using hpath k hk

/-- The surface between two boundaries of a ledger grows by the fragments consumed between. -/
theorem IsLedger.grows {consumed : ℕ → String}
    (hadds : ∀ k (hk : k + 1 < ledger.length),
      Adds store ledger[k].sourceSha ledger[k + 1].sourceSha {consumed k})
    {i j : ℕ} (hij : i ≤ j) (hj : j < ledger.length) :
    Grows (store.surface ledger[i].sourceSha)
      (Growth.gained (fun k => GitText.text (consumed k)) i j)
      (store.surface ledger[j].sourceSha) ∧
    (Growth.gained (fun k => GitText.text (consumed k)) i j).card = j - i ∧
    ∀ k ∈ Growth.gained (fun k => GitText.text (consumed k)) i j,
      k.startsWith "changelog.d/" = true := by
  have hstep : ∀ m < ledger.length - 1,
      Grows (store.surface (ledger.getD m floorBoundary).sourceSha) {GitText.text (consumed m)}
        (store.surface (ledger.getD (m + 1) floorBoundary).sourceSha) := by
    intro m hm
    have hm' : m + 1 < ledger.length := by omega
    rw [List.getD_eq_getElem _ _ hm', List.getD_eq_getElem _ _ (by omega)]
    exact (hadds m hm').grows
  have hgrow := grows_of_steps hstep hij (by omega)
  rw [List.getD_eq_getElem _ _ hj, List.getD_eq_getElem _ _ (by omega)] at hgrow
  refine ⟨hgrow, card_gained hstep (by omega), ?_⟩
  intro k hk
  obtain ⟨m, hm, rfl⟩ := Finset.mem_image.mp hk
  rw [Finset.mem_Ico] at hm
  have hvalid := (hadds m (by omega)).valid (consumed m) (Finset.mem_singleton_self _)
  exact startsWith_of_isFragmentPath hvalid.isFragmentPath

theorem IsLedger.linear (h : IsLedger store ledger) {i j : ℕ} (hij : i < j)
    (hj : j < ledger.length) :
    store.graph.LinearRange ledger[i].sourceSha ledger[j].sourceSha := by
  obtain ⟨consumed, hadds⟩ := h.exists_consumed
  induction j, hij using Nat.le_induction with
  | base => exact (hadds i hj).linear
  | succ j hij ih => exact (ih (by omega)).trans (hadds j hj).linear

theorem IsLedger.nodup_sources (h : IsLedger store ledger) :
    (ledger.map TagBoundary.sourceSha).Nodup := by
  rw [List.Nodup, List.pairwise_iff_getElem]
  intro i j hi hj hij
  rw [List.getElem_map, List.getElem_map]
  exact store.graph.ne_of_linear (h.linear hij (by simpa using hj))

/-- The law follows from the chain alone. -/
theorem IsLedger.law (h : IsLedger store ledger) : LedgerLaw store ledger := by
  obtain ⟨consumed, hadds⟩ := h.exists_consumed
  have hstep := List.isChain_iff_getElem.mp h.chain
  refine ⟨h.floor, fun k hk => (hstep k hk).version, h.nodup_sources,
    fun k hk => (hadds k hk).linear, ?_, ?_, ⟨fun k => .text (consumed k), ?_, ?_⟩, ?_⟩
  · intro i j hij hj path hpath
    obtain ⟨hgrow, -, hs⟩ := IsLedger.grows hadds hij.le hj
    have hprefix := (mem_fragments.mp hpath).1
    refine ⟨(fragments_of_grows hgrow hs).1 ▸ Finset.mem_union_left _ hpath, ?_⟩
    obtain ⟨entry, hentry⟩ := Option.ne_none_iff_exists'.mp (mem_fragments.mp hpath).2
    rw [← surface_of_fragment hprefix, ← surface_of_fragment hprefix, hentry, hgrow.keeps hentry]
  · intro i j hij hj
    obtain ⟨hgrow, hcard, hs⟩ := IsLedger.grows hadds hij.le hj
    obtain ⟨hunion, hdisj⟩ := fragments_of_grows hgrow hs
    rw [hunion, Finset.union_sdiff_cancel_left hdisj, hcard]
  · intro k hk
    obtain ⟨hgrow, -, hs⟩ := IsLedger.grows hadds (Nat.le_succ k) hk
    obtain ⟨hunion, hdisj⟩ := fragments_of_grows hgrow hs
    have hone : Growth.gained (fun k => GitText.text (consumed k)) k (k + 1) =
        {.text (consumed k)} := by
      simp [Growth.gained]
    rw [hone] at hunion hdisj
    rw [hunion, Finset.union_comm, ← Finset.insert_eq]
    exact ⟨rfl, Finset.disjoint_singleton_right.mp hdisj⟩
  · intro i j hij hj heq
    have hin : GitText.text (consumed i) ∈
        Growth.gained (fun k => GitText.text (consumed k)) i j :=
      Finset.mem_image.mpr ⟨i, Finset.mem_Ico.mpr ⟨le_rfl, hij⟩, rfl⟩
    have hpresent := (IsLedger.grows hadds hij.le (by omega)).1.present _ hin
    exact hpresent ((hadds j hj).grows.fresh _ (by simp [gitPaths, heq]))
  · intro i j hij hj path hpath
    obtain ⟨hgrow, -, hs⟩ := IsLedger.grows hadds hij.le hj
    have hnot : GitText.text path ∉ Growth.gained (fun k => GitText.text (consumed k)) i j := by
      intro hin
      have hstart := hs _ hin
      simp only [generatedReleasePaths, List.mem_cons, List.not_mem_nil, or_false] at hpath
      rcases hpath with rfl | rfl <;> exact absurd hstart (by decide)
    rw [← surface_of_generated hpath, ← surface_of_generated hpath, hgrow.same _ hnot]

end Law

/-- Whatever the history and the tags, a returned ledger obeys the law. -/
theorem platformTagBoundaries_law {repository : Repository} {ledger : List TagBoundary}
    (h : platformTagBoundaries repository = .ok ledger) : LedgerLaw repository.store ledger := by
  obtain ⟨boundaries, hreads, rfl⟩ := platformTagBoundaries_eq_ok.mp h
  exact hreads.ledger.law

/-! ## A ledger of two releases -/

namespace Sample

def date : String := "2026-01-01T00:00:00+00:00"

def first : String := "1111111111111111111111111111111111111111"

def second : String := "2222222222222222222222222222222222222222"

def fragment (body : String) : Entry := ⟨.regular, Utf8.encode ("### Added\n\n- " ++ body ++ "\n")⟩

def floorTree : Tree := (∅ : Tree).insert (.text "VERSION") ⟨.regular, Utf8.encode "0.1.9\n"⟩

def firstTree : Tree := floorTree.insert (.text "changelog.d/1-one.md") (fragment "one")

def secondTree : Tree := firstTree.insert (.text "changelog.d/2-two.md") (fragment "two")

/-- The floor release and two later heads of the protected branch. -/
def store : ObjectStore :=
  .ofHistory [⟨tagLedgerFloorSha, date, floorTree⟩, ⟨first, date, firstTree⟩,
      ⟨second, date, secondTree⟩]
    [("floor", Repository.exactFields "v0.1.9" tagLedgerFloorSha date),
      ("first", Repository.exactFields "v0.1.10" first date),
      ("second", Repository.exactFields "v0.1.11" second date)]

def floorRef : TagRef := ⟨.text "v0.1.9", "floor", by decide⟩

def firstRef : TagRef := ⟨.text "v0.1.10", "first", by decide⟩

def secondRef : TagRef := ⟨.text "v0.1.11", "second", by decide⟩

/-- Two releases, listed in git's order of names. -/
def repository : Repository := ⟨store, [firstRef, floorRef], by decide⟩

def ledger : List TagBoundary := [floorBoundary, ⟨⟨0, 1, 10⟩, "v0.1.10", first⟩]

end Sample

theorem sample_law : LedgerLaw Sample.store Sample.ledger :=
  platformTagBoundaries_law <|
    show platformTagBoundaries Sample.repository = .ok Sample.ledger by decide

end Release
