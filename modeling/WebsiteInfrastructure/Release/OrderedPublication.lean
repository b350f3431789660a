import Mathlib
import WebsiteInfrastructure.Release.Interleaving

/-!
# Ordered publication

Publishers of a chain of heads, one fragment each, look up their windows and create tags in
any interleaving; a window may be long out of date when its tag is created. Still the tags
appear in the order of the chain, each on its own head.
-/

namespace Release

open CommitGraph Growth Raising

/-! ## The chain and its releases -/

/-- Number `k` of the chain; number 0 is the source of the latest boundary. -/
def chainSource (latest : TagBoundary) (heads : List String) (k : ℕ) : String :=
  (latest.sourceSha :: heads).getD k ""

/-- The release that number `k` of the chain is for: `k` patches after the latest one. -/
def chainRelease (latest : TagBoundary) (heads : List String) (k : ℕ) : TagBoundary :=
  let version : Version :=
    ⟨latest.version.major, latest.version.minor, latest.version.patch + k⟩
  ⟨version, version.tag, chainSource latest heads k⟩

/-- Tags in place when the publishers start, and a chain that adds one fragment a head. -/
structure Chain (initial : Repository) (ledger : List TagBoundary) (latest : TagBoundary)
    (heads : List String) : Prop where
  read : platformTagBoundaries initial = .ok ledger
  last : ledger.getLast? = some latest
  shas : ∀ headSha ∈ heads, isSha headSha = true
  adds : (latest.sourceSha :: heads).IsChain fun a b => ∃ path, Adds initial.store a b {path}

/-! ## The publishers -/

/-- The tags, and the windows that publishers hold. -/
structure PublicationState where
  repository : Repository
  held : List TransitionWindow

inductive PublicationStep (heads : List String) (s : PublicationState) : PublicationState → Prop
  | discover (headSha : String) (window : TransitionWindow) (hhead : headSha ∈ heads)
      (hwindow : discoverTransitionWindow s.repository headSha = .ok window) :
      PublicationStep heads s ⟨s.repository, window :: s.held⟩
  /-- The names of the published tags are distinct, so no name is created twice. -/
  | tag (window : TransitionWindow) (ref : TagRef) (published : Repository)
      (hheld : window ∈ s.held) (htags : Tags s.repository published ref)
      (hexact : ExactTag s.repository.store ref
        ⟨window.intent.version, window.intent.tag, window.intent.sourceSha⟩) :
      PublicationStep heads s ⟨published, s.held⟩

def Published (initial : Repository) (heads : List String) (s : PublicationState) : Prop :=
  Relation.ReflTransGen (PublicationStep heads) ⟨initial, []⟩ s

/-- Number `k` of the chain has its tag. -/
def Tagged (latest : TagBoundary) (heads : List String) (s : PublicationState) (k : ℕ) : Prop :=
  ∃ ref ∈ s.repository.tags, ExactTag s.repository.store ref (chainRelease latest heads k)

/-! ## Releases of a chain -/

section Chain

variable {initial : Repository} {ledger : List TagBoundary} {latest : TagBoundary}
  {heads : List String}

theorem chainSource_succ {k : ℕ} (hk : k < heads.length) :
    chainSource latest heads (k + 1) = heads[k] := by
  rw [chainSource, List.getD_cons_succ, List.getD_eq_getElem _ _ hk]

theorem Chain.release_zero (h : Chain initial ledger latest heads) :
    chainRelease latest heads 0 = latest := by
  have htag := ((isLedger_of_boundaries h.read).2 latest (List.mem_of_getLast? h.last)).2.1
  obtain ⟨⟨major, minor, patch⟩, tag, sourceSha⟩ := latest
  simp only at htag
  simp [chainRelease, chainSource, htag]

theorem Chain.successor (h : Chain initial ledger latest heads) {k : ℕ} (hk : k < heads.length) :
    Successor initial.store (chainRelease latest heads k) (chainRelease latest heads (k + 1)) := by
  refine ⟨by simp [chainRelease, nextVersion, Nat.add_assoc], ?_⟩
  have hlen : k + 1 < (latest.sourceSha :: heads).length := by simpa using hk
  have hadds := List.isChain_iff_getElem.mp h.adds k hlen
  change ∃ path, Adds initial.store (chainSource latest heads k)
    (chainSource latest heads (k + 1)) {path}
  rwa [chainSource, chainSource, List.getD_eq_getElem _ _ hlen, List.getD_eq_getElem _ _ (by omega)]

theorem chainRelease_injective {j k : ℕ}
    (h : (chainRelease latest heads j).tag = (chainRelease latest heads k).tag) : j = k := by
  have := Version.tag_injective h
  simpa using this

/-- Between two numbers of a chain lie as many fragments as numbers. -/
theorem Chain.adds_between (h : Chain initial ledger latest heads) {i k : ℕ} (hik : i < k)
    (hk : k ≤ heads.length) : ∃ paths : Finset String, paths.card = k - i ∧
      Adds initial.store (chainSource latest heads i) (chainSource latest heads k) paths := by
  induction k, hik using Nat.le_induction with
  | base =>
    obtain ⟨path, hadds⟩ := (h.successor (k := i) (by omega)).adds
    exact ⟨{path}, by simp, hadds⟩
  | succ k hik ih =>
    obtain ⟨paths, hcard, hpaths⟩ := ih (by omega)
    obtain ⟨path, hadds⟩ := (h.successor (k := k) (by omega)).adds
    have hnot : path ∉ paths := by
      have hdisj := hpaths.grows.disjoint hadds.grows
      intro hin
      exact Finset.disjoint_left.mp hdisj (text_mem_gitPaths.mpr hin)
        (text_mem_gitPaths.mpr (Finset.mem_singleton_self path))
    refine ⟨paths ∪ {path}, ?_, hpaths.trans hadds⟩
    rw [Finset.card_union_of_disjoint (Finset.disjoint_singleton_right.mpr hnot), hcard,
      Finset.card_singleton]
    omega

/-! ## The ledger after the first `m` numbers -/

def ledgerAfter (ledger : List TagBoundary) (latest : TagBoundary) (heads : List String) (m : ℕ) :
    List TagBoundary :=
  ledger ++ (List.range m).map fun i => chainRelease latest heads (i + 1)

theorem ledgerAfter_succ (m : ℕ) : ledgerAfter ledger latest heads (m + 1) =
    ledgerAfter ledger latest heads m ++ [chainRelease latest heads (m + 1)] := by
  rw [ledgerAfter, List.range_succ, List.map_append, ← List.append_assoc]
  rfl

theorem Chain.ledgerAfter (h : Chain initial ledger latest heads) {m : ℕ} (hm : m ≤ heads.length) :
    IsLedger initial.store (ledgerAfter ledger latest heads m) ∧
      (Release.ledgerAfter ledger latest heads m).getLast? =
        some (chainRelease latest heads m) := by
  induction m with
  | zero =>
    rw [Release.ledgerAfter, List.range_zero, List.map_nil, List.append_nil, h.release_zero]
    exact ⟨(isLedger_of_boundaries h.read).1, h.last⟩
  | succ m ih =>
    obtain ⟨his, hlast⟩ := ih (by omega)
    rw [ledgerAfter_succ]
    exact ⟨his.extend hlast (h.successor (by omega)), List.getLast?_concat⟩

/-- Up to the next number everybody gets the window of their own release. -/
theorem Chain.discoverIn_upTo (h : Chain initial ledger latest heads) {m k : ℕ} (hk : k < heads.length)
    (hm : m ≤ heads.length) (hkm : k ≤ m) : ∃ path,
      discoverIn initial.store (Release.ledgerAfter ledger latest heads m)
        (chainSource latest heads (k + 1)) =
      .ok (releaseWindow initial.store (chainRelease latest heads k)
        (chainSource latest heads (k + 1)) (chainRelease latest heads (k + 1)).version path) := by
  obtain ⟨path, hadds⟩ := (h.successor hk).adds
  refine ⟨path, ?_⟩
  obtain ⟨his, hlast⟩ := h.ledgerAfter (m := k) (by omega)
  rcases Nat.lt_or_ge k m with hlt | hge
  · have happend := his.discoverIn_appended hlast hadds
    rw [← ledgerAfter_succ] at happend
    clear hkm
    induction m, hlt using Nat.le_induction with
    | base => exact happend
    | succ m hlt ih =>
      have hin : chainRelease latest heads (k + 1) ∈ Release.ledgerAfter ledger latest heads m := by
        rw [Release.ledgerAfter, List.mem_append, List.mem_map]
        exact .inr ⟨k, List.mem_range.mpr hlt, rfl⟩
      rw [ledgerAfter_succ]
      exact (discoverIn_append hin).trans (ih (by omega))
  · obtain rfl : m = k := by omega
    have hone := his.discoverIn_of_adds_one hlast hadds
    rwa [← (h.successor hk).version] at hone

/-- Beyond the next number everybody waits. -/
theorem Chain.discoverIn_beyond (h : Chain initial ledger latest heads) {m k : ℕ}
    (hk : k ≤ heads.length) (hkm : m + 1 < k) : ∃ message,
      discoverIn initial.store (Release.ledgerAfter ledger latest heads m)
        (chainSource latest heads k) = .error (.pendingRelease message) := by
  obtain ⟨his, hlast⟩ := h.ledgerAfter (m := m) (by omega)
  obtain ⟨paths, hcard, hadds⟩ := h.adds_between (show m < k by omega) hk
  exact ⟨_, his.discoverIn_of_adds_many hlast hadds (by omega)⟩

/-- No tag in place at the start has the name of a release of the chain. -/
theorem Chain.not_initial (h : Chain initial ledger latest heads) {ref : TagRef} {k : ℕ}
    (hk : 0 < k) (href : ref ∈ initial.tags) :
    ref.name ≠ .text (chainRelease latest heads k).tag := by
  intro hname
  obtain ⟨boundaries, hreads, hcut⟩ := platformTagBoundaries_eq_ok.mp h.read
  have hlisted : ref ∈ initial.platformTags := by
    refine Repository.mem_platformTags.mpr ⟨href, ?_⟩
    rw [hname]
    exact Version.startsWith_tag _
  obtain ⟨hnames, htag⟩ := exactTag_names hreads.exact
  have hin : ref.name ∈ (boundaries.map TagBoundary.tag).map GitText.text :=
    hnames ▸ List.mem_map_of_mem hlisted
  rw [List.map_map] at hin
  obtain ⟨b, hb, hbname⟩ := List.mem_map.mp hin
  have hversion : b.version = (chainRelease latest heads k).version := by
    apply Version.tag_injective
    rw [← htag b hb]
    exact GitText.text.inj (hbname.trans hname)
  have hlater : latest.version < b.version := by
    rw [hversion, Version.lt_iff]
    exact .inr ⟨rfl, .inr ⟨rfl, Nat.lt_add_of_pos_right hk⟩⟩
  have hfloor : floorVersion ≤ b.version := by
    have hmem := List.mem_of_getLast? h.last
    rw [← hcut] at hmem
    exact (mem_cutAtFloor.mp hmem).2.trans hlater.le
  have hledger : b ∈ ledger := hcut ▸ mem_cutAtFloor.mpr ⟨hb, hfloor⟩
  exact absurd ((isLedger_of_boundaries h.read).1.version_le h.last hledger) (not_le.mpr hlater)

/-! ## The invariant -/

/-- The first `m` numbers are tagged, and every held window is for one of them or the next. -/
structure Progress (initial : Repository) (ledger : List TagBoundary) (latest : TagBoundary)
    (heads : List String) (s : PublicationState) (m : ℕ) : Prop where
  le : m ≤ heads.length
  store : s.repository.store = initial.store
  tags : ∃ created : List TagRef, s.repository.tags.Perm (created ++ initial.tags) ∧
    List.Forall₂ (fun ref k => ExactTag initial.store ref (chainRelease latest heads (k + 1)))
      created (List.range m)
  read : s.repository.platformTags.length ≤ maxTagLedgerEntries →
    platformTagBoundaries s.repository = .ok (Release.ledgerAfter ledger latest heads m)
  held : ∀ window ∈ s.held, ∃ k ≤ m, k < heads.length ∧
    window.intent = ⟨chainSource latest heads (k + 1), (chainRelease latest heads (k + 1)).version⟩

theorem Chain.progress_initial (h : Chain initial ledger latest heads) :
    Progress initial ledger latest heads ⟨initial, []⟩ 0 where
  le := Nat.zero_le _
  store := rfl
  tags := ⟨[], .refl _, .nil⟩
  read _ := by
    rw [Release.ledgerAfter, List.range_zero, List.map_nil, List.append_nil]
    exact h.read
  held := by simp

variable {s s' : PublicationState} {m : ℕ}

theorem Chain.shas_source (h : Chain initial ledger latest heads) {k : ℕ} (hk : k < heads.length) :
    isSha (chainSource latest heads (k + 1)) = true := by
  rw [chainSource_succ hk]
  exact h.shas _ (List.getElem_mem hk)

/-- What discovery answers while the inventory of tags is within its bound. -/
theorem Progress.discover (hs : Progress initial ledger latest heads s m)
    (h : Chain initial ledger latest heads) {k : ℕ} (hk : k < heads.length)
    (hbound : s.repository.platformTags.length ≤ maxTagLedgerEntries) :
    discoverTransitionWindow s.repository (chainSource latest heads (k + 1)) =
      discoverIn initial.store (Release.ledgerAfter ledger latest heads m)
        (chainSource latest heads (k + 1)) := by
  obtain ⟨path, hadds⟩ := (h.successor hk).adds
  have hexact : s.repository.store.exactCommit (chainSource latest heads (k + 1)) "head SHA" =
      .ok (chainSource latest heads (k + 1)) := by
    rw [hs.store]
    exact ObjectStore.exactCommit_eq_ok.mpr ⟨h.shas_source hk, hadds.commits.2, rfl⟩
  rw [discover_of_ledger _ (hs.read hbound), hexact, ok_bind, hs.store]

theorem Progress.tagged_iff (hs : Progress initial ledger latest heads s m)
    (h : Chain initial ledger latest heads) {k : ℕ} : Tagged latest heads s (k + 1) ↔ k < m := by
  obtain ⟨created, hperm, hcreated⟩ := hs.tags
  obtain ⟨hlen, hget⟩ := List.forall₂_iff_get.mp hcreated
  rw [List.length_range] at hlen
  constructor
  · rintro ⟨ref, href, hexact⟩
    rcases List.mem_append.mp (hperm.mem_iff.mp href) with hin | hin
    · obtain ⟨i, hi, rfl⟩ := List.mem_iff_getElem.mp hin
      have hi' := hget i hi (by simpa using hlen ▸ hi)
      simp only [List.get_eq_getElem, List.getElem_range] at hi'
      have hname := hexact.name.symm.trans hi'.name
      have := chainRelease_injective (GitText.text.inj hname)
      omega
    · exact absurd hexact.name (h.not_initial (Nat.succ_pos k) hin)
  · intro hk
    have hk' := hget k (hlen ▸ hk) (by simpa using hk)
    simp only [List.get_eq_getElem, List.getElem_range] at hk'
    exact ⟨created[k], hperm.mem_iff.mpr (List.mem_append_left _ (List.getElem_mem _)),
      hs.store ▸ hk'⟩

theorem Progress.step (hs : Progress initial ledger latest heads s m)
    (h : Chain initial ledger latest heads) (hstep : PublicationStep heads s s') :
    ∃ m', Progress initial ledger latest heads s' m' := by
  cases hstep with
  | discover headSha window hhead hwindow =>
    refine ⟨m, hs.le, hs.store, hs.tags, hs.read, ?_⟩
    intro w hw
    rcases List.mem_cons.mp hw with rfl | hw
    · obtain ⟨k, hk, rfl⟩ := List.mem_iff_getElem.mp hhead
      rw [show heads[k] = chainSource latest heads (k + 1) from (chainSource_succ hk).symm]
        at hwindow
      have hbound : s.repository.platformTags.length ≤ maxTagLedgerEntries := by
        obtain ⟨-, -, _, hread, -⟩ := discover_eq_ok.mp hwindow
        exact length_le_of_ledger hread
      rw [hs.discover h hk hbound] at hwindow
      rcases Nat.lt_or_ge m k with hlt | hle
      · obtain ⟨message, hpending⟩ := h.discoverIn_beyond (m := m) (k := k + 1) hk (by omega)
        rw [hpending] at hwindow
        simp at hwindow
      · obtain ⟨path, hok⟩ := h.discoverIn_upTo hk hs.le hle
        rw [hok, Except.ok.injEq] at hwindow
        exact ⟨k, hle, hk, by rw [← hwindow]; rfl⟩
    · exact hs.held w hw
  | tag window ref published hheld htags hexact =>
    obtain ⟨k, hkm, hk, hintent⟩ := hs.held window hheld
    have hexact' : ExactTag initial.store ref (chainRelease latest heads (k + 1)) := by
      rw [hintent, hs.store] at hexact
      exact hexact
    have hnew : ¬ k < m := by
      intro hlt
      obtain ⟨old, hold, holdExact⟩ := (hs.tagged_iff h).mpr hlt
      exact htags.notMem hold (hexact'.name.trans holdExact.name.symm)
    obtain rfl : k = m := by omega
    obtain ⟨created, hperm, hcreated⟩ := hs.tags
    refine ⟨k + 1, hk, htags.store.trans hs.store, ⟨created ++ [ref], ?_, ?_⟩, ?_, ?_⟩
    · refine htags.tags.trans ((hperm.cons ref).trans ?_)
      rw [List.append_assoc, List.singleton_append]
      exact List.perm_middle.symm
    · rw [List.range_succ]
      exact List.rel_append hcreated (.cons hexact' .nil)
    · intro hbound
      have hname : ref.name.startsWith "v" = true := by
        rw [hexact'.name]
        exact Version.startsWith_tag _
      have hlen := (htags.platformTags hname).length_eq
      simp only at hbound
      rw [List.length_cons] at hlen
      have hread := hs.read (by omega)
      obtain ⟨-, hlast⟩ := h.ledgerAfter hs.le
      rw [ledgerAfter_succ]
      exact htags.boundaries hread hlast (hs.store ▸ h.successor hk) (hs.store ▸ hexact') hbound
    · intro w hw
      obtain ⟨j, hj, hjlen, hjintent⟩ := hs.held w hw
      exact ⟨j, by omega, hjlen, hjintent⟩

theorem Chain.progress (h : Chain initial ledger latest heads) (hs : Published initial heads s) :
    ∃ m, Progress initial ledger latest heads s m := by
  induction hs with
  | refl => exact ⟨0, h.progress_initial⟩
  | tail _ hstep ih =>
    obtain ⟨m, hm⟩ := ih
    exact hm.step h hstep

end Chain

/-! ## The result -/

/-- What the publishers have done so far, and what each of them is told. -/
structure PublishedInOrder (initial : Repository) (latest : TagBoundary) (heads : List String)
    (s : PublicationState) : Prop where
  /-- A tag that was not there before is the exact release tag of its own head. -/
  created : ∀ ref ∈ s.repository.tags, ref ∈ initial.tags ∨
    ∃ k, 0 < k ∧ k ≤ heads.length ∧
      ExactTag s.repository.store ref (chainRelease latest heads k)
  none_skipped : ∀ j k, 0 < j → j < k → Tagged latest heads s k → Tagged latest heads s j
  none_twice : ∀ k, ∀ ref ∈ s.repository.tags, ∀ ref' ∈ s.repository.tags,
    ExactTag s.repository.store ref (chainRelease latest heads k) →
    ExactTag s.repository.store ref' (chainRelease latest heads k) → ref = ref'
  /-- While the reader admits the number of tags, a head gets a window exactly when all heads
  before it are tagged, and the window is for its own patch. -/
  window : s.repository.platformTags.length ≤ maxTagLedgerEntries →
    ∀ k, 0 < k → k ≤ heads.length →
      ((∃ window, discoverTransitionWindow s.repository (chainSource latest heads k) = .ok window) ↔
        ∀ j, 0 < j → j < k → Tagged latest heads s j) ∧
      ∀ window, discoverTransitionWindow s.repository (chainSource latest heads k) = .ok window →
        window.intent.version = (chainRelease latest heads k).version ∧
          window.intent.sourceSha = chainSource latest heads k
  /-- Otherwise it waits. -/
  pending : s.repository.platformTags.length ≤ maxTagLedgerEntries →
    ∀ k, 0 < k → k ≤ heads.length → (∃ j, 0 < j ∧ j < k ∧ ¬ Tagged latest heads s j) →
      ∃ message, discoverTransitionWindow s.repository (chainSource latest heads k) =
        .error (.pendingRelease message)

/-- Whatever the interleaving, the chain is published in order. -/
theorem published_in_order {initial : Repository} {ledger : List TagBoundary}
    {latest : TagBoundary} {heads : List String} {s : PublicationState}
    (h : Chain initial ledger latest heads) (hs : Published initial heads s) :
    PublishedInOrder initial latest heads s := by
  obtain ⟨m, hm⟩ := h.progress hs
  refine ⟨?_, ?_, ?_, ?_, ?_⟩
  · intro ref href
    obtain ⟨created, hperm, hcreated⟩ := hm.tags
    rcases List.mem_append.mp (hperm.mem_iff.mp href) with hin | hin
    · obtain ⟨i, hi, rfl⟩ := List.mem_iff_getElem.mp hin
      obtain ⟨hlen, hget⟩ := List.forall₂_iff_get.mp hcreated
      have hexact := hget i hi (hlen ▸ hi)
      simp only [List.get_eq_getElem, List.getElem_range] at hexact
      rw [List.length_range] at hlen
      have := hm.le
      exact .inr ⟨i + 1, Nat.succ_pos i, by omega, hm.store ▸ hexact⟩
    · exact .inl hin
  · intro j k hj hjk htagged
    obtain ⟨j, rfl⟩ : ∃ i, j = i + 1 := ⟨j - 1, by omega⟩
    obtain ⟨k, rfl⟩ : ∃ i, k = i + 1 := ⟨k - 1, by omega⟩
    rw [hm.tagged_iff h] at htagged ⊢
    omega
  · intro k ref href ref' href' hexact hexact'
    exact List.inj_on_of_nodup_map s.repository.nodup href href'
      (hexact.name.trans hexact'.name.symm)
  · intro hbound k hk hlen
    obtain ⟨k, rfl⟩ : ∃ i, k = i + 1 := ⟨k - 1, by omega⟩
    have hall : (∀ j, 0 < j → j < k + 1 → Tagged latest heads s j) ↔ k ≤ m := by
      constructor
      · intro hall
        rcases Nat.eq_zero_or_pos k with rfl | hpos
        · exact Nat.zero_le m
        · obtain ⟨i, rfl⟩ : ∃ i, k = i + 1 := ⟨k - 1, by omega⟩
          exact (hm.tagged_iff h).mp (hall (i + 1) hpos (by omega))
      · intro hkm j hj hjk
        obtain ⟨i, rfl⟩ : ∃ i, j = i + 1 := ⟨j - 1, by omega⟩
        exact (hm.tagged_iff h).mpr (by omega)
    rw [hall, hm.discover h hlen hbound]
    rcases Nat.lt_or_ge m k with hlt | hle
    · obtain ⟨message, hpending⟩ := h.discoverIn_beyond (m := m) (k := k + 1) hlen (by omega)
      rw [hpending]
      simp [not_le.mpr hlt]
    · obtain ⟨path, hok⟩ := h.discoverIn_upTo hlen hm.le hle
      rw [hok]
      refine ⟨by simp [hle], ?_⟩
      rintro window hwindow
      obtain rfl := Except.ok.inj hwindow
      exact ⟨rfl, rfl⟩
  · rintro hbound k hk hlen ⟨j, hj, hjk, huntagged⟩
    obtain ⟨k, rfl⟩ : ∃ i, k = i + 1 := ⟨k - 1, by omega⟩
    obtain ⟨j, rfl⟩ : ∃ i, j = i + 1 := ⟨j - 1, by omega⟩
    rw [hm.tagged_iff h] at huntagged
    rw [hm.discover h hlen hbound]
    exact h.discoverIn_beyond (m := m) (k := k + 1) hlen (by omega)

/-! ## Two releases, and a thousand older ones -/

namespace Sample

def numberedSource (version : Version) : String :=
  if version ≤ floorVersion then tagLedgerFloorSha
  else if version = ⟨0, 1, 10⟩ then first else second

/-- The history of the sample, with one exact release tag object for each version: those up to
the floor are releases of the floor source. -/
def numbered : ObjectStore :=
  { store with
    tagFields := fun oid => (matchTag oid).map fun version =>
      (Repository.exactFields oid (numberedSource version) date).encode }

def numberedBoundary (version : Version) : TagBoundary :=
  ⟨version, version.tag, numberedSource version⟩

def numberedRef (version : Version) : TagRef :=
  ⟨.text version.tag, version.tag, version.isRefText_tag⟩

/-- The tags of these versions. -/
def numberedTags (versions : List Version) (hnodup : versions.Nodup) : Repository where
  store := numbered
  tags := versions.map numberedRef
  nodup := by
    rw [List.map_map]
    exact hnodup.map fun v w h => Version.tag_injective (GitText.text.inj h)

theorem numberedSource_mem (version : Version) :
    numberedSource version ∈ [tagLedgerFloorSha, first, second] := by
  unfold numberedSource
  split_ifs <;> simp

theorem numberedRef_exact (version : Version) :
    ExactTag numbered (numberedRef version) (numberedBoundary version) where
  name := rfl
  tag := rfl
  sha := by
    have hshas : ∀ sha ∈ [tagLedgerFloorSha, first, second], isSha sha = true := by decide
    exact hshas _ (numberedSource_mem version)
  fields := by
    have hdates : ∀ sha ∈ [tagLedgerFloorSha, first, second], numbered.showDate sha = .ok date := by
      decide
    refine ⟨date, hdates _ (numberedSource_mem version), ?_⟩
    change ((matchTag version.tag).map _).bind TagFields.decode = _
    rw [matchTag_tag]
    rfl

theorem numbered_successors : [floorBoundary, numberedBoundary ⟨0, 1, 10⟩,
    numberedBoundary ⟨0, 1, 11⟩].IsChain (Successor numbered) := by
  have hread : platformTagBoundaries (numberedTags [⟨0, 1, 10⟩, ⟨0, 1, 11⟩, floorVersion]
      (by decide)) = .ok [floorBoundary, numberedBoundary ⟨0, 1, 10⟩,
        numberedBoundary ⟨0, 1, 11⟩] := by decide
  exact (isLedger_of_boundaries hread).1.chain

theorem numbered_chain {initial : Repository} (hstore : initial.store = numbered)
    (hread : platformTagBoundaries initial = .ok [floorBoundary]) :
    Chain initial [floorBoundary] floorBoundary [first, second] := by
  refine ⟨hread, rfl, by decide, ?_⟩
  have hchain := numbered_successors
  simp only [List.isChain_cons_cons, List.isChain_singleton, and_true] at hchain ⊢
  rw [hstore]
  exact ⟨hchain.1.adds, hchain.2.adds⟩

def firstWindow : TransitionWindow :=
  releaseWindow numbered floorBoundary first ⟨0, 1, 10⟩ "changelog.d/1-one.md"

theorem numbered_discovers {initial : Repository} (hstore : initial.store = numbered)
    (hread : platformTagBoundaries initial = .ok [floorBoundary]) :
    discoverTransitionWindow initial first = .ok firstWindow := by
  rw [discover_of_ledger _ hread, hstore]
  decide +kernel

/-- The publisher of the first head finds its window and creates its tag. -/
theorem numbered_published {versions : List Version} (hnodup : versions.Nodup)
    (hnew : (⟨0, 1, 10⟩ :: versions : List Version).Nodup)
    (hread : platformTagBoundaries (numberedTags versions hnodup) = .ok [floorBoundary]) :
    Published (numberedTags versions hnodup) [first, second]
      ⟨numberedTags (⟨0, 1, 10⟩ :: versions) hnew, [firstWindow]⟩ := by
  refine .tail (.single (.discover first firstWindow (by decide)
    (numbered_discovers rfl hread))) ?_
  exact .tag firstWindow (numberedRef ⟨0, 1, 10⟩) _ (by simp)
    ⟨rfl, .refl _⟩ (numberedRef_exact ⟨0, 1, 10⟩)

theorem platformTags_numberedTags {versions : List Version} (hnodup : versions.Nodup) :
    (numberedTags versions hnodup).platformTags = versions.map numberedRef := by
  change (versions.map numberedRef).filter _ = _
  rw [List.filter_eq_self]
  intro ref href
  obtain ⟨version, -, rfl⟩ := List.mem_map.mp href
  exact version.startsWith_tag

/-- The floor release and a thousand and twenty-three older ones. -/
def crowd : List Version := floorVersion :: (List.range 1023).map (⟨0, 0, ·⟩)

theorem crowd_nodup : (⟨0, 1, 10⟩ :: crowd : List Version).Nodup := by
  have hrange : ((List.range 1023).map fun patch => (⟨0, 0, patch⟩ : Version)).Nodup :=
    List.nodup_range.map fun a b h => by simpa using h
  simp [crowd, floorVersion, hrange]

theorem length_crowd : crowd.length = maxTagLedgerEntries := by
  rw [crowd, List.length_cons, List.length_map, List.length_range, maxTagLedgerEntries]

theorem cutAtFloor_crowd : cutAtFloor (crowd.map numberedBoundary) = [floorBoundary] := by
  have hold : ∀ b ∈ ((List.range 1023).map (⟨0, 0, ·⟩)).map numberedBoundary,
      ¬ floorVersion ≤ b.version := by
    intro b hb
    obtain ⟨version, hversion, rfl⟩ := List.mem_map.mp hb
    obtain ⟨patch, -, rfl⟩ := List.mem_map.mp hversion
    rw [not_le, Version.lt_iff]
    exact .inr ⟨rfl, .inl Nat.one_pos⟩
  have hfilter : (crowd.map numberedBoundary).filter (fun b => floorVersion ≤ b.version) =
      [floorBoundary] := by
    rw [crowd, List.map_cons, List.filter_cons_of_pos (by decide), List.filter_eq_nil_iff.mpr
      (by simpa using hold)]
    rfl
  rw [cutAtFloor, ← List.perm_singleton, ← hfilter]
  exact (List.perm_insertionSort _ _).filter _

theorem crowd_read : platformTagBoundaries (numberedTags crowd crowd_nodup.of_cons) =
    .ok [floorBoundary] := by
  refine platformTagBoundaries_eq_ok.mpr ⟨crowd.map numberedBoundary, ⟨?_, ?_, ?_⟩,
    cutAtFloor_crowd⟩
  · rw [platformTags_numberedTags, List.forall₂_map_left_iff, List.forall₂_map_right_iff,
      List.forall₂_same]
    exact fun version _ => numberedRef_exact version
  · rw [List.length_map, length_crowd]
  · rw [cutAtFloor_crowd]
    exact ⟨rfl, List.isChain_singleton _⟩

end Sample

/-- One release in, the tag inventory is beyond its bound and the second head gets no window. -/
theorem crowded_out : ¬ ∀ (initial : Repository) (ledger : List TagBoundary)
    (latest : TagBoundary) (heads : List String) (s : PublicationState),
    Chain initial ledger latest heads → Published initial heads s →
    ∀ k, 0 < k → k ≤ heads.length → (∀ j, 0 < j → j < k → Tagged latest heads s j) →
      ∃ window, discoverTransitionWindow s.repository (chainSource latest heads k) =
        .ok window := by
  intro h
  obtain ⟨window, hwindow⟩ := h _ _ _ _ _ (Sample.numbered_chain rfl Sample.crowd_read)
    (Sample.numbered_published _ Sample.crowd_nodup Sample.crowd_read) 2 (by decide) (by decide)
    (by
      intro j hj hj'
      obtain rfl : j = 1 := by omega
      exact ⟨Sample.numberedRef ⟨0, 1, 10⟩, by simp [Sample.numberedTags],
        Sample.numberedRef_exact ⟨0, 1, 10⟩⟩)
  obtain ⟨-, -, _, hread, -⟩ := discover_eq_ok.mp hwindow
  have hlength := length_le_of_ledger hread
  rw [Sample.platformTags_numberedTags, List.length_map, List.length_cons, Sample.length_crowd]
    at hlength
  omega

theorem sample_published_in_order :
    PublishedInOrder (Sample.numberedTags [floorVersion] (by decide)) floorBoundary
      [Sample.first, Sample.second]
      ⟨Sample.numberedTags [⟨0, 1, 10⟩, floorVersion] (by decide), [Sample.firstWindow]⟩ :=
  have hread : platformTagBoundaries (Sample.numberedTags [floorVersion] (by decide)) =
      .ok [floorBoundary] := by decide
  published_in_order (Sample.numbered_chain rfl hread)
    (Sample.numbered_published _ (by decide) hread)

end Release
