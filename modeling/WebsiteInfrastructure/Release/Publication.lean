import Mathlib
import WebsiteInfrastructure.Release.Window

/-!
# Publishing one release

Tagging a head for the window it was given extends the ledger by that boundary and by
nothing else, and a replay finds the same window again.
-/

namespace Release

open CommitGraph Raising

section Publish

variable {repository published : Repository} {store : ObjectStore} {ledger : List TagBoundary}
  {latest boundary : TagBoundary}

/-! ## Sorting -/

theorem insertionSort_perm {bs cs : List TagBoundary} (h : bs.Perm cs) :
    bs.insertionSort (· ≤ ·) = cs.insertionSort (· ≤ ·) := by
  apply List.Perm.eq_of_pairwise' (List.pairwise_insertionSort (· ≤ ·) bs)
    (List.pairwise_insertionSort (· ≤ ·) cs)
  exact (List.perm_insertionSort _ bs).trans (h.trans (List.perm_insertionSort _ cs).symm)

/-- The greatest boundary is sorted to the end. -/
theorem insertionSort_cons_greatest {bs : List TagBoundary} {b : TagBoundary}
    (h : ∀ x ∈ bs, x ≤ b) :
    (b :: bs).insertionSort (· ≤ ·) = bs.insertionSort (· ≤ ·) ++ [b] := by
  apply List.Perm.eq_of_pairwise' (List.pairwise_insertionSort (· ≤ ·) (b :: bs))
  · rw [List.pairwise_append]
    refine ⟨List.pairwise_insertionSort (· ≤ ·) bs, List.pairwise_singleton _ _, ?_⟩
    intro x hx y hy
    rw [List.mem_singleton.mp hy]
    exact h x ((List.mem_insertionSort (· ≤ ·)).mp hx)
  · refine (List.perm_insertionSort _ _).trans ?_
    exact ((List.perm_insertionSort _ bs).symm.cons b).trans
      (List.perm_append_singleton b _).symm

/-! ## The ledger after one more tag -/

theorem IsLedger.version_le (h : IsLedger store ledger) (hlatest : ledger.getLast? = some latest)
    {b : TagBoundary} (hb : b ∈ ledger) : b.version ≤ latest.version := by
  have hmono : ∀ i j (_ : i ≤ j) (hj : j < ledger.length),
      ledger[i].version ≤ ledger[j].version := by
    intro i j hij
    induction j, hij using Nat.le_induction with
    | base => exact fun _ => le_rfl
    | succ j hij ih =>
      intro hj
      refine (ih (by omega)).trans ?_
      rw [(List.isChain_iff_getElem.mp h.chain j hj).version]
      exact (lt_nextVersion _).le
  obtain ⟨i, hi, rfl⟩ := List.mem_iff_getElem.mp hb
  rw [List.getLast?_eq_getElem?, List.getElem?_eq_some_iff] at hlatest
  obtain ⟨hlast, rfl⟩ := hlatest
  exact hmono i _ (by omega) hlast

theorem IsLedger.extend (h : IsLedger store ledger) (hlatest : ledger.getLast? = some latest)
    (hnext : Successor store latest boundary) : IsLedger store (ledger ++ [boundary]) := by
  constructor
  · rw [List.head?_append, h.floor, Option.some_or]
  · apply h.chain.append (List.isChain_singleton _)
    intro x hx y hy
    rw [hlatest, Option.mem_some_iff] at hx
    rw [List.head?_singleton, Option.mem_some_iff] at hy
    exact hx ▸ hy ▸ hnext

/-- The published repository has one more tag; git lists the tags in any order. -/
structure Tags (repository published : Repository) (ref : TagRef) : Prop where
  store : published.store = repository.store
  tags : published.tags.Perm (ref :: repository.tags)

theorem Tags.platformTags {ref : TagRef} (h : Tags repository published ref)
    (hname : ref.name.startsWith "v" = true) :
    published.platformTags.Perm (ref :: repository.platformTags) := by
  have := h.tags.filter fun r => r.name.startsWith "v"
  rwa [List.filter_cons_of_pos (by simpa using hname)] at this

/-- Reading one more exact tag above the latest boundary appends it to the ledger. -/
theorem Tags.boundaries {ref : TagRef} (h : Tags repository published ref)
    (hledger : platformTagBoundaries repository = .ok ledger)
    (hlatest : ledger.getLast? = some latest) (hnext : Successor repository.store latest boundary)
    (hexact : ExactTag repository.store ref boundary)
    (hbound : published.platformTags.length ≤ maxTagLedgerEntries) :
    platformTagBoundaries published = .ok (ledger ++ [boundary]) := by
  obtain ⟨boundaries, hreads, rfl⟩ := platformTagBoundaries_eq_ok.mp hledger
  have hname : ref.name.startsWith "v" = true := by
    rw [hexact.name, hexact.tag]
    exact boundary.version.startsWith_tag
  have hperm := h.platformTags hname
  obtain ⟨all, hall, hpermAll⟩ :=
    List.perm_comp_forall₂ hperm (List.Forall₂.cons hexact hreads.exact)
  have hless : ∀ b ∈ boundaries, b.version < boundary.version := by
    intro b hb
    rw [hnext.version]
    refine lt_of_le_of_lt ?_ (lt_nextVersion latest.version)
    rcases le_or_gt floorVersion b.version with hfloor | hfloor
    · exact hreads.ledger.version_le hlatest (mem_cutAtFloor.mpr ⟨hb, hfloor⟩)
    · exact hfloor.le.trans (mem_cutAtFloor.mp (List.mem_of_getLast? hlatest)).2
  have hcut : cutAtFloor all = cutAtFloor boundaries ++ [boundary] := by
    have hfloor : floorVersion ≤ boundary.version := by
      have hle := (mem_cutAtFloor.mp (List.mem_of_getLast? hlatest)).2
      rw [hnext.version]
      exact hle.trans (lt_nextVersion _).le
    rw [cutAtFloor, insertionSort_perm hpermAll, insertionSort_cons_greatest fun b hb =>
      (TagBoundary.lt_of_version_lt (hless b hb)).le, List.filter_append]
    simp [cutAtFloor, hfloor]
  rw [platformTagBoundaries_eq_ok]
  refine ⟨all, ⟨h.store ▸ hall, ?_, ?_⟩, hcut⟩
  · rwa [← hall.length_eq]
  · rw [h.store, hcut]
    exact hreads.ledger.extend hlatest hnext

/-! ## Replay -/

theorem discover_eq_ok {headSha : String} {window : TransitionWindow} :
    discoverTransitionWindow repository headSha = .ok window ↔
      isSha headSha = true ∧ (repository.store.commit headSha).isSome ∧ ∃ ledger,
        platformTagBoundaries repository = .ok ledger ∧
        discoverIn repository.store ledger headSha = .ok window := by
  simp only [discoverTransitionWindow, bind_eq_ok, ObjectStore.exactCommit_eq_ok]
  constructor
  · rintro ⟨_, ⟨hsha, hsome, rfl⟩, ledger, hledger, hwindow⟩
    exact ⟨hsha, hsome, ledger, hledger, hwindow⟩
  · rintro ⟨hsha, hsome, ledger, hledger, hwindow⟩
    exact ⟨headSha, ⟨hsha, hsome, rfl⟩, ledger, hledger, hwindow⟩

/-- Once the ledger is read, discovery depends on the store and the ledger only. -/
theorem discover_of_ledger (headSha : String)
    (hledger : platformTagBoundaries repository = .ok ledger) :
    discoverTransitionWindow repository headSha = (do
      let headSha ← repository.store.exactCommit headSha "head SHA"
      discoverIn repository.store ledger headSha) := by
  rw [discoverTransitionWindow, hledger]
  rfl

/-- Tagging an untagged head with the tag of its window extends the ledger by exactly that
boundary, gives the head the same window again and leaves every earlier window as it was. -/
theorem publish_extends_ledger {headSha : String} {window : TransitionWindow} {ref : TagRef}
    (hledger : platformTagBoundaries repository = .ok ledger)
    (huntagged : ∀ b ∈ ledger, b.sourceSha ≠ headSha)
    (hwindow : discoverTransitionWindow repository headSha = .ok window)
    (hpublish : Tags repository published ref)
    (hexact : ExactTag repository.store ref ⟨window.intent.version, window.intent.tag, headSha⟩)
    (hbound : published.platformTags.length ≤ maxTagLedgerEntries) :
    platformTagBoundaries published =
        .ok (ledger ++ [⟨window.intent.version, window.intent.tag, headSha⟩]) ∧
      discoverTransitionWindow published headSha = .ok window ∧
      ∀ b ∈ ledger, discoverTransitionWindow published b.sourceSha =
        discoverTransitionWindow repository b.sourceSha := by
  obtain ⟨hsha, hsome, _, hledger', hin⟩ := discover_eq_ok.mp hwindow
  obtain rfl : ledger = _ := Except.ok.inj (hledger.symm.trans hledger')
  obtain ⟨boundaries, hreads, hcut⟩ := platformTagBoundaries_eq_ok.mp hledger
  have his : IsLedger repository.store ledger := hcut ▸ hreads.ledger
  obtain ⟨latest, hlatest⟩ : ∃ latest, ledger.getLast? = some latest := by
    cases hl : ledger.getLast? with
    | none =>
      have := his.floor
      simp [List.getLast?_eq_none_iff.mp hl] at this
    | some latest => exact ⟨latest, rfl⟩
  obtain ⟨path, hadds, rfl⟩ := discoverIn_untagged hlatest huntagged hin
  have hnext : Successor repository.store latest
      ⟨nextVersion (some latest.version), (nextVersion (some latest.version)).tag, headSha⟩ :=
    ⟨rfl, path, hadds⟩
  have hnew := hpublish.boundaries hledger hlatest hnext hexact hbound
  refine ⟨hnew, ?_, ?_⟩
  · rw [discover_eq_ok, hpublish.store]
    exact ⟨hsha, hsome, _, hnew, his.discoverIn_appended hlatest hadds⟩
  · intro b hb
    rw [discover_of_ledger _ hnew, discover_of_ledger _ hledger, hpublish.store]
    cases hexact : repository.store.exactCommit b.sourceSha "head SHA" with
    | error e => rfl
    | ok sha =>
      obtain ⟨-, -, rfl⟩ := ObjectStore.exactCommit_eq_ok.mp hexact
      exact discoverIn_append hb

end Publish

/-! ## The next release of the sample -/

namespace Sample

/-- The sample repository after the second head is published. -/
def published : Repository := ⟨store, [firstRef, secondRef, floorRef], by decide⟩

def window : TransitionWindow :=
  ⟨first, "v0.1.10", ⟨second, ⟨0, 1, 11⟩⟩, "changelog.d/2-two.md",
    Sha256.hexdigest (Utf8.encode "### Added\n\n- two\n")⟩

theorem secondRef_exact : ExactTag store secondRef ⟨⟨0, 1, 11⟩, "v0.1.11", second⟩ :=
  ⟨rfl, by decide, by decide, date, by decide, by decide⟩

end Sample

theorem sample_publish :
    platformTagBoundaries Sample.published =
        .ok (Sample.ledger ++ [⟨⟨0, 1, 11⟩, "v0.1.11", Sample.second⟩]) ∧
      discoverTransitionWindow Sample.published Sample.second = .ok Sample.window ∧
      ∀ b ∈ Sample.ledger, discoverTransitionWindow Sample.published b.sourceSha =
        discoverTransitionWindow Sample.repository b.sourceSha :=
  publish_extends_ledger
    (show platformTagBoundaries Sample.repository = .ok Sample.ledger by decide)
    (show ∀ b ∈ Sample.ledger, b.sourceSha ≠ Sample.second by decide)
    (show discoverTransitionWindow Sample.repository Sample.second = .ok Sample.window by
      decide +kernel)
    (show Tags Sample.repository Sample.published Sample.secondRef from ⟨rfl, by decide⟩)
    Sample.secondRef_exact (by decide)

end Release
