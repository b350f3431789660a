import Mathlib
import WebsiteInfrastructure.Release.Publication

/-!
# The predecessor waiter's cached window

The waiter keys its cached `release-window` result on one listing of the tags and computes
it from another. The two globs differ on names with a slash, and that is exactly where a
reused result differs from a fresh one.
-/

namespace Release

open PythonText Raising

/-! ## Failures of the ledger reader -/

/-- `main` exits with 3 on these. -/
def Failure.isPending : Failure → Bool
  | .pendingRelease _ => true
  | _ => false

section NotPending

variable {store : ObjectStore} {repository : Repository}

abbrev NeverPending {α : Type} (x : Except Failure α) : Prop :=
  Raises (fun e => e.isPending = false) x

theorem neverPending_check {bad : Prop} [Decidable bad] (message : String) :
    NeverPending (raiseIf bad (.contractError message)) := raises_raiseIf rfl

theorem neverPending_contractError {α : Type} (message : String) :
    NeverPending (.error (.contractError message) : Except Failure α) := raises_error.mpr rfl

theorem neverPending_isAncestor (a d : String) : NeverPending (store.isAncestor a d) := by
  unfold ObjectStore.isAncestor
  split <;> simp [Failure.isPending]

theorem neverPending_exactCommit (revision field : String) :
    NeverPending (store.exactCommit revision field) := by
  refine ((neverPending_check _).bind fun _ _ => raises_ok).bind fun _ _ => ?_
  split
  · exact raises_ok
  · split <;> simp only [raises_error]
    · split <;> rfl
    · rfl

theorem neverPending_linearCommits (base head : String) :
    NeverPending (linearCommits store base head) :=
  (neverPending_isAncestor base head).bind fun _ _ => (neverPending_check _).bind fun _ _ =>
    (neverPending_check _).bind fun _ _ => (neverPending_check _).bind fun _ _ => raises_ok

theorem neverPending_nulPaths (fields : List GitText) : NeverPending (nulPaths fields) := by
  have hloop : ∀ paths, NeverPending (nulPathsLoop paths fields) := by
    induction fields with
    | nil => exact fun _ => raises_ok
    | cons field fields ih =>
      intro paths
      cases field with
      | undecodable bytes invalid => exact raises_error.mpr rfl
      | text path => exact (neverPending_check _).bind fun _ _ => ih _
  exact (hloop []).bind fun _ _ => raises_ok

theorem neverPending_validateFragmentBytes (path : String) (payload : Utf8.Bytes) :
    NeverPending (validateFragmentBytes path payload) := by
  refine (neverPending_check _).bind fun _ _ => (neverPending_check _).bind fun _ _ =>
    (neverPending_check _).bind fun _ _ => ?_
  split
  · exact raises_error.mpr rfl
  · refine (neverPending_check _).bind fun _ _ => (neverPending_check _).bind fun _ _ => ?_
    split
    · exact (neverPending_check _).bind fun _ _ => (neverPending_check _).bind fun _ _ =>
        (neverPending_check _).bind fun _ _ => raises_ok
    · exact raises_error.mpr rfl

theorem neverPending_fragmentIntent (head path : String) :
    NeverPending (fragmentIntent store head path) := by
  refine Raises.bind ?_ fun _ _ => Raises.bind ?_ fun _ _ =>
    (neverPending_validateFragmentBytes _ _).bind fun _ _ => raises_ok
  · unfold requireRegularFragmentEntry
    split
    · exact raises_error.mpr rfl
    · exact neverPending_check _
  · unfold ObjectStore.fileBytes
    split
    · exact raises_ok
    · exact raises_error.mpr rfl

theorem neverPending_releaseSurfaceIntents (base head : String) :
    NeverPending (releaseSurfaceIntents store base head) :=
  (neverPending_linearCommits base head).bind fun _ _ => (neverPending_nulPaths _).bind fun _ _ =>
    (neverPending_nulPaths _).bind fun _ _ => (neverPending_check _).bind fun _ _ =>
      (neverPending_check _).bind fun _ _ => .collect (neverPending_fragmentIntent head) _

theorem neverPending_readBoundary (version : Version) (name : String) :
    NeverPending (repository.readBoundary version name) := by
  refine Raises.bind ?_ fun _ _ => ((neverPending_check _).bind fun _ _ => raises_ok).bind fun _ _ =>
    Raises.bind ?_ fun _ _ => (neverPending_check _).bind fun _ _ => raises_ok
  · unfold Repository.tagMetadata
    split
    · exact raises_error.mpr rfl
    · split
      · exact raises_error.mpr rfl
      · split
        · exact raises_error.mpr rfl
        · exact raises_ok
  · unfold ObjectStore.showDate
    split
    · exact raises_ok
    · exact raises_error.mpr rfl
    · exact raises_error.mpr rfl

theorem neverPending_readBoundaries (names : List String) (seen : List Version) :
    NeverPending (repository.readBoundaries seen names) := by
  induction names generalizing seen with
  | nil => exact raises_ok
  | cons name names ih =>
    rw [Repository.readBoundaries]
    split
    · exact raises_error.mpr rfl
    · exact (neverPending_check _).bind fun _ _ => (neverPending_readBoundary _ _).bind fun _ _ =>
        (ih _).bind fun _ _ => raises_ok

theorem neverPending_checkLedger (previous : TagBoundary) (rest : List TagBoundary) :
    NeverPending (checkLedger store previous rest) := by
  induction rest generalizing previous with
  | nil => exact raises_ok
  | cons boundary rest ih =>
    refine Raises.bind ?_ fun _ _ => ih boundary
    refine (neverPending_check _).bind fun _ _ => Raises.bind ?_ fun _ _ =>
      (neverPending_check _).bind fun _ _ => (neverPending_linearCommits _ _).bind fun _ _ =>
        (neverPending_releaseSurfaceIntents _ _).bind fun _ _ => neverPending_check _
    unfold isLaterSource
    split
    · exact raises_ok
    · exact neverPending_isAncestor _ _

/-- Only a waiting source is pending; a bad ledger never is. -/
theorem neverPending_platformTagBoundaries : NeverPending (platformTagBoundaries repository) := by
  refine Raises.bind ?_ fun _ _ => (neverPending_check _).bind fun _ _ =>
    (neverPending_readBoundaries _ _).bind fun _ _ => ?_
  · refine Raises.bind ?_ fun _ _ => raises_ok
    unfold Repository.listing
    split
    · exact raises_ok
    · exact raises_error.mpr rfl
  · dsimp only
    split
    · exact raises_error.mpr rfl
    · exact (neverPending_check _).bind fun _ _ =>
        (neverPending_checkLedger _ _).bind fun _ _ => raises_ok

end NotPending

/-! ## The code -/

/-- `refname`, `objectname` and `*objectname` of one reference. -/
structure SnapshotLine where
  refname : GitText
  objectname : String
  peeled : GitText
  deriving DecidableEq

/-- The references that `for-each-ref refs/tags/v*` lists; its pattern stops at a slash. -/
def Repository.globbedTags (repository : Repository) : List TagRef :=
  repository.platformTags.filter fun r => !r.name.hasSlash

def snapshotLine (store : ObjectStore) (ref : TagRef) : Option SnapshotLine :=
  (store.tagFields ref.oid).map fun fields => ⟨ref.name, ref.oid, fields.sourceSha⟩

/-- The snapshot key; no field holds a tab or a line feed, so the text tells the lines apart.
`none` when git fails on an unreadable object, which ends the script. -/
def tagSnapshot (repository : Repository) : Option (List SnapshotLine) :=
  (repository.globbedTags.take 1025).mapM (snapshotLine repository.store)

/-- The cached variables once `have_cached_window` is set. -/
structure WindowCache where
  snapshot : List SnapshotLine
  window : Except Failure TransitionWindow
  deriving DecidableEq

/-- The status of the cached command: 0 for a window, 3 for a pending release. -/
def WindowCache.waits (cache : WindowCache) : Bool :=
  match cache.window with
  | .ok _ => true
  | .error e => e.isPending

/-- The head of the loop body: refresh the snapshot and, where it changed, the window. -/
def refreshCache (headSha : String) (cache : Option WindowCache) (repository : Repository) :
    Option WindowCache :=
  match tagSnapshot repository with
  | none => none
  | some snapshot =>
    match cache with
    | some cache =>
      if snapshot = cache.snapshot then some cache
      else some ⟨snapshot, discoverTransitionWindow repository headSha⟩
    | none => some ⟨snapshot, discoverTransitionWindow repository headSha⟩

/-- The caches that the loop can hold after some polls of tag states over one object store.
It goes on only while the window is there or pending. -/
inductive Polled (store : ObjectStore) (headSha : String) : WindowCache → Prop
  | first (repository : Repository) {cache : WindowCache} (hstore : repository.store = store)
      (hcache : refreshCache headSha none repository = some cache) : Polled store headSha cache
  | next (repository : Repository) {cache cache' : WindowCache}
      (hpolled : Polled store headSha cache) (hwaits : cache.waits = true) (hstore : repository.store = store)
      (hcache : refreshCache headSha (some cache) repository = some cache') :
      Polled store headSha cache'

/-! ## What the cache means -/

section Waiter

variable {store : ObjectStore} {headSha : String} {repository : Repository} {cache : WindowCache}

/-- A cached window was computed from a tag state with the cached snapshot. -/
theorem Polled.computed (h : Polled store headSha cache) : ∃ old : Repository,
    old.store = store ∧ tagSnapshot old = some cache.snapshot ∧
      discoverTransitionWindow old headSha = cache.window := by
  have hfresh : ∀ {repository : Repository} {cache : WindowCache} {snapshot : List SnapshotLine},
      repository.store = store → tagSnapshot repository = some snapshot →
      some ⟨snapshot, discoverTransitionWindow repository headSha⟩ = some cache →
      ∃ old : Repository, old.store = store ∧ tagSnapshot old = some cache.snapshot ∧
        discoverTransitionWindow old headSha = cache.window := by
    rintro repository cache snapshot hstore hsnapshot heq
    obtain rfl := Option.some.inj heq
    exact ⟨repository, hstore, hsnapshot, rfl⟩
  induction h with
  | first _ hstore hcache =>
    unfold refreshCache at hcache
    split at hcache
    · simp at hcache
    · rename_i snapshot hsnapshot
      exact hfresh hstore hsnapshot hcache
  | next _ _ _ hstore hcache ih =>
    unfold refreshCache at hcache
    split at hcache
    · simp at hcache
    · rename_i snapshot hsnapshot
      simp only at hcache
      split at hcache
      · obtain rfl := Option.some.inj hcache
        exact ih
      · exact hfresh hstore hsnapshot hcache

/-- Reading the ledger depends on the listed platform tags only. -/
theorem platformTagBoundaries_congr {other : Repository} (hstore : other.store = repository.store)
    (htags : other.platformTags = repository.platformTags) (ledger : List TagBoundary) :
    platformTagBoundaries other = .ok ledger ↔ platformTagBoundaries repository = .ok ledger := by
  rw [platformTagBoundaries_eq_ok, platformTagBoundaries_eq_ok]
  refine exists_congr fun boundaries => and_congr_left fun _ => ?_
  constructor
  · rintro ⟨hexact, hbound, hledger⟩
    rw [htags, hstore] at hexact
    rw [hstore] at hledger
    exact ⟨hexact, hbound, hledger⟩
  · rintro ⟨hexact, hbound, hledger⟩
    refine ⟨?_, hbound, ?_⟩
    · rwa [htags, hstore]
    · rwa [hstore]

/-- A readable ledger has no tag with a slash. -/
theorem noSlash_of_ledger {ledger : List TagBoundary}
    (h : platformTagBoundaries repository = .ok ledger) :
    ∀ r ∈ repository.platformTags, r.name.hasSlash = false := by
  obtain ⟨boundaries, hreads, -⟩ := platformTagBoundaries_eq_ok.mp h
  obtain ⟨hnames, htag⟩ := exactTag_names hreads.exact
  intro r hr
  have hin : r.name ∈ (boundaries.map TagBoundary.tag).map GitText.text :=
    hnames ▸ List.mem_map_of_mem hr
  rw [List.map_map] at hin
  obtain ⟨b, hb, hname⟩ := List.mem_map.mp hin
  rw [← hname, Function.comp_apply, htag b hb, GitText.hasSlash, Bool.eq_false_iff, ne_eq,
    List.contains_iff_mem]
  exact fun hslash => (Version.tag_chars hslash).2 rfl

theorem ledger_of_waits (h : (⟨cache.snapshot, discoverTransitionWindow repository headSha⟩ :
    WindowCache).waits = true) :
    ∃ ledger, platformTagBoundaries repository = .ok ledger := by
  unfold WindowCache.waits discoverTransitionWindow at h
  cases hexact : repository.store.exactCommit headSha "head SHA" with
  | error e =>
    have hnever : NeverPending (repository.store.exactCommit headSha "head SHA") :=
      neverPending_exactCommit headSha "head SHA"
    simp [hexact, hnever e hexact] at h
  | ok sha =>
    cases hledger : platformTagBoundaries repository with
    | error e =>
      have := neverPending_platformTagBoundaries e hledger
      simp [hexact, hledger, this] at h
    | ok ledger => exact ⟨ledger, rfl⟩

theorem TagRef.pair_injective :
    Function.Injective fun r : TagRef => (r.name, r.oid) := by
  rintro ⟨name, oid, isRef⟩ ⟨name', oid', isRef'⟩ h
  simp only [Prod.mk.injEq] at h
  obtain ⟨rfl, rfl⟩ := h
  rfl

/-- A snapshot names its references and their objects. -/
theorem snapshot_pairs {refs : List TagRef} {lines : List SnapshotLine}
    (h : refs.mapM (snapshotLine store) = some lines) :
    refs.map (fun r => (r.name, r.oid)) = lines.map fun l => (l.refname, l.objectname) := by
  induction refs generalizing lines with
  | nil =>
    obtain rfl : [] = lines := by simpa using h
    rfl
  | cons ref refs ih =>
    simp only [List.mapM_cons, Option.bind_eq_bind, Option.bind_eq_some_iff, Option.pure_def,
      Option.some.injEq] at h
    obtain ⟨line, hline, rest, hrest, rfl⟩ := h
    obtain ⟨fields, -, rfl⟩ := Option.map_eq_some_iff.mp hline
    simp only [List.map_cons, ih hrest]

theorem length_snapshot {lines : List SnapshotLine} (h : tagSnapshot repository = some lines) :
    lines.length = min 1025 repository.globbedTags.length := by
  have := congrArg List.length (snapshot_pairs h)
  simpa using this.symm

/-- The same snapshot of a small inventory lists the same references. -/
theorem globbedTags_eq {other : Repository} {lines : List SnapshotLine}
    (h : tagSnapshot repository = some lines) (h' : tagSnapshot other = some lines)
    (hlen : repository.globbedTags.length ≤ maxTagLedgerEntries) :
    other.globbedTags = repository.globbedTags := by
  have hlines := length_snapshot h
  have hlines' := length_snapshot h'
  simp only [maxTagLedgerEntries] at hlen
  have hpairs := (snapshot_pairs h').trans (snapshot_pairs h).symm
  rw [List.take_of_length_le (by omega), List.take_of_length_le (by omega)] at hpairs
  exact TagRef.pair_injective.list_map hpairs

theorem globbedTags_eq_platformTags
    (h : ∀ r ∈ repository.platformTags, r.name.hasSlash = false) :
    repository.globbedTags = repository.platformTags := by
  rw [Repository.globbedTags, List.filter_eq_self]
  intro r hr
  rw [h r hr]
  rfl

/-- At a poll that reuses the cached result, a fresh result is the same exactly when no
reference that `tag --list 'v*'` lists has a slash in its name. -/
theorem reused_eq_fresh_iff (hpolled : Polled store headSha cache) (hwaits : cache.waits = true)
    (hstore : repository.store = store) (hkey : tagSnapshot repository = some cache.snapshot) :
    cache.window = discoverTransitionWindow repository headSha ↔
      ∀ r ∈ repository.tags, r.name.startsWith "v" = true → r.name.hasSlash = false := by
  obtain ⟨old, holdStore, holdKey, hold⟩ := hpolled.computed
  have hcached : (⟨cache.snapshot, discoverTransitionWindow old headSha⟩ :
      WindowCache).waits = true := by
    rw [hold]
    exact hwaits
  obtain ⟨ledger, hledger⟩ := ledger_of_waits hcached
  have hlen := length_le_of_ledger hledger
  have hglob : old.globbedTags = old.platformTags :=
    globbedTags_eq_platformTags (noSlash_of_ledger hledger)
  have hstores : repository.store = old.store := hstore.trans holdStore.symm
  have hsame := globbedTags_eq holdKey hkey (hglob ▸ hlen)
  constructor
  · -- an equal result waits as well, so the present ledger is readable
    intro heq r hr hv
    have hwaits' : (⟨cache.snapshot, discoverTransitionWindow repository headSha⟩ :
        WindowCache).waits = true := by
      rw [← heq]
      exact hwaits
    obtain ⟨ledger', hledger'⟩ := ledger_of_waits hwaits'
    exact noSlash_of_ledger hledger' r (Repository.mem_platformTags.mpr ⟨hr, hv⟩)
  · intro hno
    have hplatform : repository.platformTags = old.platformTags := by
      rw [← hglob, ← hsame, globbedTags_eq_platformTags]
      intro r hr
      obtain ⟨hin, hv⟩ := Repository.mem_platformTags.mp hr
      exact hno r hin hv
    have hledger' := (platformTagBoundaries_congr hstores hplatform ledger).mpr hledger
    rw [← hold, discover_of_ledger headSha hledger, discover_of_ledger headSha hledger', hstores]

end Waiter

/-! ## A slashed tag between two polls -/

namespace Sample

/-- The sample repository after somebody pushes the tag `v/x`. -/
def slashed : Repository :=
  ⟨store, [⟨.text "v/x", "floor", by decide⟩, firstRef, floorRef], by decide⟩

def cache : WindowCache where
  snapshot := [⟨.text "v0.1.10", "first", .text first⟩,
    ⟨.text "v0.1.9", "floor", .text tagLedgerFloorSha⟩]
  window := .ok window

end Sample

theorem sample_polled : Polled Sample.store Sample.second Sample.cache :=
  .first Sample.repository rfl (by decide +kernel)

/-- The key of the slashed state is the cached one, the result is not. -/
theorem slashed_reused_ne_fresh : ¬ ∀ (store : ObjectStore) (headSha : String) (cache : WindowCache)
    (repository : Repository), Polled store headSha cache → cache.waits = true →
    repository.store = store → tagSnapshot repository = some cache.snapshot →
    cache.window = discoverTransitionWindow repository headSha := by
  intro h
  have heq := h Sample.store Sample.second Sample.cache Sample.slashed
    (.first Sample.repository rfl (by decide +kernel)) rfl rfl (by decide +kernel)
  exact absurd heq (by decide)

theorem sample_reused_eq_fresh :
    Sample.cache.window = discoverTransitionWindow Sample.repository Sample.second ↔
      ∀ r ∈ Sample.repository.tags, r.name.startsWith "v" = true → r.name.hasSlash = false :=
  reused_eq_fresh_iff sample_polled rfl rfl (by decide)

end Release
