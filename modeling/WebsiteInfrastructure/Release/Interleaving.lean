import Mathlib
import WebsiteInfrastructure.Release.Transition

/-!
# Merging and publishing

Merges into the protected branch and publishers of its heads run in any order, each
against the ledger of its moment. The gate lets an unpublished fragment be edited, and a
publisher may still tag the head before the edit; no later head is then ever a window.
Without that step no untagged head is a dead end.
-/

namespace Release

open CommitGraph Growth Raising

/-! ## The protocol -/

/-- The tags, and the heads that the protected branch has had, oldest first. -/
structure MainState where
  repository : Repository
  heads : List String

/-- Everything merged so far is published. -/
def Initial (s : MainState) : Prop :=
  ∃ ledger latest, platformTagBoundaries s.repository = .ok ledger ∧
    ledger.getLast? = some latest ∧ s.heads = [latest.sourceSha]

/-- A pull request passes the gate against the present ledger. -/
structure Merges (s : MainState) (headSha : String) (s' : MainState) : Prop where
  gate : ∃ tip intent, s.heads.getLast? = some tip ∧
    validateTransition s.repository tip headSha = .ok intent
  state : s' = { s with heads := s.heads ++ [headSha] }

/-- A publisher of a head of the branch gets a window and creates its tag. Git refuses a name
that exists, as the names of `s'` are distinct. -/
structure Publishes (s : MainState) (headSha : String) (s' : MainState) : Prop where
  head : headSha ∈ s.heads
  tagged : ∃ window ref, discoverTransitionWindow s.repository headSha = .ok window ∧
    Tags s.repository s'.repository ref ∧
    ExactTag s.repository.store ref ⟨window.intent.version, window.intent.tag, headSha⟩
  heads : s'.heads = s.heads

inductive Step (s s' : MainState) : Prop
  | merge (headSha : String) (h : Merges s headSha s')
  | publish (headSha : String) (h : Publishes s headSha s')

/-- No untagged head above the latest boundary is refused for good. -/
def NoDeadEnd (s : MainState) : Prop :=
  ∃ ledger latest, platformTagBoundaries s.repository = .ok ledger ∧
    ledger.getLast? = some latest ∧
    ∀ headSha ∈ s.heads, (∀ b ∈ ledger, b.sourceSha ≠ headSha) →
      s.repository.store.graph.Ancestor latest.sourceSha headSha →
      (∃ window, discoverTransitionWindow s.repository headSha = .ok window) ∨
      ∃ message, discoverTransitionWindow s.repository headSha = .error (.pendingRelease message)

/-- No head of the branch above `headSha` has changed a file of its fragment directory. -/
def Unedited (s : MainState) (headSha : String) : Prop :=
  let store := s.repository.store
  ∀ later ∈ s.heads, store.graph.Ancestor headSha later → ∀ path ∈ store.fragments headSha,
    (store.tree later).lookup path = (store.tree headSha).lookup path

/-- A step that publishes only unedited heads, and no more tags than the reader admits. -/
inductive SafeStep (s s' : MainState) : Prop
  | merge (headSha : String) (h : Merges s headSha s')
  | publish (headSha : String) (h : Publishes s headSha s') (unedited : Unedited s headSha)
      (bound : s'.repository.platformTags.length ≤ maxTagLedgerEntries)

def Reachable (step : MainState → MainState → Prop) (s : MainState) : Prop :=
  ∃ s₀, Initial s₀ ∧ Relation.ReflTransGen step s₀ s

/-! ## Heads above a release -/

/-- From `tip` on, each head adds a fragment to the one before or edits the only one. -/
inductive Above (store : ObjectStore) (latestSha : String) : String → List String → Prop
  | nil (tip : String) : Above store latestSha tip []
  | add {tip headSha path : String} {rest : List String} (adds : Adds store tip headSha {path})
      (above : Above store latestSha headSha rest) : Above store latestSha tip (headSha :: rest)
  | edit {tip headSha path : String} {rest : List String}
      (edits : Edits store latestSha tip headSha path)
      (above : Above store latestSha headSha rest) : Above store latestSha tip (headSha :: rest)

section Above

variable {store : ObjectStore} {latestSha tip headSha : String} {rest : List String}

/-- Two ranges in a row add what both add, if what the first adds is left alone. -/
theorem Adds.trans {paths more : Finset String} {middle : String}
    (h : Adds store latestSha middle paths) (h' : Adds store middle headSha more) :
    Adds store latestSha headSha (paths ∪ more) where
  commits := ⟨h.commits.1, h'.commits.2⟩
  linear := .trans h.linear h'.linear
  grows := by
    have hgit : gitPaths (paths ∪ more) = gitPaths paths ∪ gitPaths more := Finset.image_union _ _
    rw [hgit]
    exact h.grows.trans h'.grows
  valid path hpath := by
    rcases Finset.mem_union.mp hpath with hpath | hpath
    · obtain ⟨payload, text, hlookup, hvalid⟩ := h.valid path hpath
      have hstart := startsWith_of_isFragmentPath (h.valid path hpath).isFragmentPath
      rw [← surface_of_fragment hstart] at hlookup
      have hkeep := h'.grows.keeps hlookup
      rw [surface_of_fragment hstart] at hkeep
      exact ⟨payload, text, hkeep, hvalid⟩
    · exact h'.valid path hpath

/-- What a head above the release adds to it. -/
def AddsSome (store : ObjectStore) (latestSha headSha : String) : Prop :=
  ∃ paths : Finset String, paths.Nonempty ∧ Adds store latestSha headSha paths

theorem AddsSome.step (h : headSha = latestSha ∨ AddsSome store latestSha headSha)
    {next path : String} (hadds : Adds store headSha next {path}) :
    AddsSome store latestSha next := by
  rcases h with rfl | ⟨paths, -, hpaths⟩
  · exact ⟨{path}, Finset.singleton_nonempty path, hadds⟩
  · exact ⟨paths ∪ {path}, (Finset.singleton_nonempty path).inr, hpaths.trans hadds⟩

/-- Every head above a release adds something to it. -/
theorem Above.addsSome (h : Above store latestSha tip rest)
    (htip : tip = latestSha ∨ AddsSome store latestSha tip) :
    ∀ headSha ∈ rest, AddsSome store latestSha headSha := by
  induction h with
  | nil => simp
  | add adds _ ih =>
    have hnext := AddsSome.step htip adds
    intro x hx
    rcases List.mem_cons.mp hx with rfl | hx
    · exact hnext
    · exact ih (.inr hnext) x hx
  | edit edits _ ih =>
    have hnext : AddsSome store latestSha _ := ⟨_, Finset.singleton_nonempty _, edits.head⟩
    intro x hx
    rcases List.mem_cons.mp hx with rfl | hx
    · exact hnext
    · exact ih (.inr hnext) x hx

theorem Above.linear (h : Above store latestSha tip rest) :
    ∀ headSha ∈ rest, store.graph.LinearRange tip headSha := by
  induction h with
  | nil => simp
  | add adds _ ih =>
    intro x hx
    rcases List.mem_cons.mp hx with rfl | hx
    · exact adds.linear
    · exact adds.linear.trans (ih x hx)
  | edit edits _ ih =>
    intro x hx
    rcases List.mem_cons.mp hx with rfl | hx
    · exact edits.linear
    · exact edits.linear.trans (ih x hx)

theorem Above.append_add (h : Above store latestSha tip rest) {last next path : String}
    (hlast : (tip :: rest).getLast? = some last) (hadds : Adds store last next {path}) :
    Above store latestSha tip (rest ++ [next]) := by
  induction h with
  | nil =>
    obtain rfl : _ = last := by simpa using hlast
    exact .add hadds (.nil next)
  | add adds above ih => exact .add adds (ih (by simpa using hlast))
  | edit edits above ih => exact .edit edits (ih (by simpa using hlast))

theorem Above.append_edit (h : Above store latestSha tip rest) {last next path : String}
    (hlast : (tip :: rest).getLast? = some last) (hedits : Edits store latestSha last next path) :
    Above store latestSha tip (rest ++ [next]) := by
  induction h with
  | nil =>
    obtain rfl : _ = last := by simpa using hlast
    exact .edit hedits (.nil next)
  | add adds above ih => exact .add adds (ih (by simpa using hlast))
  | edit edits above ih => exact .edit edits (ih (by simpa using hlast))

/-- The heads after one of the heads, and the heads before it. -/
theorem Above.split {before after : List String}
    (h : Above store latestSha tip (before ++ headSha :: after)) :
    Above store latestSha headSha after ∧
      ∀ x ∈ tip :: before, store.graph.LinearRange x headSha := by
  induction before generalizing tip with
  | nil =>
    rw [List.nil_append] at h
    have hlinear := h.linear headSha List.mem_cons_self
    refine ⟨?_, fun x hx => List.mem_singleton.mp hx ▸ hlinear⟩
    cases h with
    | add _ above => exact above
    | edit _ above => exact above
  | cons b before ih =>
    rw [List.cons_append] at h
    have hlinear := h.linear headSha (by simp)
    have hrest : Above store latestSha b (before ++ headSha :: after) := by
      cases h with
      | add _ above => exact above
      | edit _ above => exact above
    obtain ⟨habove, hbefore⟩ := ih hrest
    refine ⟨habove, ?_⟩
    intro x hx
    rcases List.mem_cons.mp hx with rfl | hx
    · exact hlinear
    · exact hbefore x hx

/-- Heads that all keep a fragment above the release the same never edit, so they stay in
order above any later release. -/
theorem Above.of_kept (h : Above store latestSha tip rest) {path : String} {entry : Entry}
    (hnew : store.surface latestSha (.text path) = none)
    (hkept : ∀ x ∈ tip :: rest, store.surface x (.text path) = some entry) (later : String) :
    Above store later tip rest := by
  induction h with
  | nil => exact .nil _
  | add adds _ ih => exact .add adds (ih fun x hx => hkept x (List.mem_cons_of_mem _ hx))
  | @edit tip headSha p rest edits _ _ =>
    have htip := hkept tip (by simp)
    have hhead := hkept headSha (by simp)
    -- the edited fragment is the kept one, which did not change
    have hp : GitText.text path ∈ gitPaths {p} := by
      rw [edits.base.grows.mem_iff, htip]
      exact ⟨hnew, by simp⟩
    rw [text_mem_gitPaths, Finset.mem_singleton] at hp
    subst hp
    exact absurd (htip.trans hhead.symm) edits.differs

end Above

/-! ## The invariant -/

/-- The branch runs through the latest release, and above it heads add or edit. -/
structure Ordered (s : MainState) (ledger : List TagBoundary) (latest : TagBoundary)
    (before after : List String) : Prop where
  read : platformTagBoundaries s.repository = .ok ledger
  last : ledger.getLast? = some latest
  heads : s.heads = before ++ latest.sourceSha :: after
  shas : ∀ headSha ∈ s.heads, isSha headSha = true
  below : ∀ headSha ∈ before, s.repository.store.graph.LinearRange headSha latest.sourceSha
  above : Above s.repository.store latest.sourceSha latest.sourceSha after

def Invariant (s : MainState) : Prop :=
  ∃ ledger latest before after, Ordered s ledger latest before after

theorem isLedger_of_boundaries {repository : Repository} {ledger : List TagBoundary}
    (h : platformTagBoundaries repository = .ok ledger) :
    IsLedger repository.store ledger ∧ ∀ b ∈ ledger, isSha b.sourceSha = true ∧
      b.tag = b.version.tag ∧ ∃ ref ∈ repository.tags, ExactTag repository.store ref b := by
  obtain ⟨boundaries, hreads, rfl⟩ := platformTagBoundaries_eq_ok.mp h
  refine ⟨hreads.ledger, ?_⟩
  intro b hb
  obtain ⟨i, hi, rfl⟩ := List.mem_iff_getElem.mp (mem_cutAtFloor.mp hb).1
  obtain ⟨hlen, hget⟩ := List.forall₂_iff_get.mp hreads.exact
  have hexact : ExactTag repository.store repository.platformTags[i] boundaries[i] :=
    hget i (hlen ▸ hi) hi
  exact ⟨hexact.sha, hexact.tag, _,
    (Repository.mem_platformTags.mp (List.getElem_mem (hlen ▸ hi))).1, hexact⟩

theorem Initial.invariant {s : MainState} (h : Initial s) : Invariant s := by
  obtain ⟨ledger, latest, hledger, hlatest, hheads⟩ := h
  refine ⟨ledger, latest, [], [], hledger, hlatest, by simp [hheads], ?_, by simp, .nil _⟩
  intro headSha hhead
  rw [hheads, List.mem_singleton] at hhead
  subst hhead
  exact ((isLedger_of_boundaries hledger).2 latest (List.mem_of_getLast? hlatest)).1

theorem Merges.invariant {s s' : MainState} {headSha : String} (h : Merges s headSha s')
    (hs : Invariant s) : Invariant s' := by
  obtain ⟨ledger, latest, before, after, hordered⟩ := hs
  obtain ⟨⟨tip, intent, htip, hgate⟩, rfl⟩ := h
  have htip' : (latest.sourceSha :: after).getLast? = some tip := by
    rw [hordered.heads, List.getLast?_append, List.getLast?_eq_some_getLast (List.cons_ne_nil _ _),
      Option.some_or] at htip
    rw [List.getLast?_eq_some_getLast (List.cons_ne_nil _ _), htip]
  obtain ⟨hsha, hcase⟩ := validateTransition_ok hgate
  have habove : Above s.repository.store latest.sourceSha latest.sourceSha
      (after ++ [headSha]) := by
    rcases hcase with ⟨path, hadds⟩ | ⟨ledger', latest', path, hledger, hlatest, hedits⟩
    · exact hordered.above.append_add htip' hadds
    · obtain rfl : ledger = ledger' := Except.ok.inj (hordered.read.symm.trans hledger)
      obtain rfl : latest = latest' := Option.some.inj (hordered.last.symm.trans hlatest)
      exact hordered.above.append_edit htip' hedits
  refine ⟨ledger, latest, before, after ++ [headSha], hordered.read, hordered.last, ?_, ?_,
    hordered.below, habove⟩
  · simp [hordered.heads]
  · intro x hx
    rcases List.mem_append.mp hx with hx | hx
    · exact hordered.shas x hx
    · exact List.mem_singleton.mp hx ▸ hsha

/-- A boundary's tag cannot be created again. -/
theorem Tags.notMem {repository published : Repository} {ref old : TagRef}
    (h : Tags repository published ref) (hold : old ∈ repository.tags) : ref.name ≠ old.name := by
  intro heq
  have hnodup := (h.tags.map TagRef.name).nodup_iff.mp published.nodup
  rw [List.map_cons, List.nodup_cons] at hnodup
  exact hnodup.1 (heq ▸ List.mem_map_of_mem hold)

/-- Publishing a head tags one that no boundary has, above the latest one. -/
theorem Publishes.spec {s s' : MainState} {headSha : String} (h : Publishes s headSha s')
    {ledger : List TagBoundary} {latest : TagBoundary}
    (hledger : platformTagBoundaries s.repository = .ok ledger)
    (hlatest : ledger.getLast? = some latest) :
    ∃ path ref, Adds s.repository.store latest.sourceSha headSha {path} ∧
      Tags s.repository s'.repository ref ∧
      ExactTag s.repository.store ref ⟨nextVersion (some latest.version),
        (nextVersion (some latest.version)).tag, headSha⟩ := by
  obtain ⟨window, ref, hwindow, htags, hexact⟩ := h.tagged
  obtain ⟨his, hboundaries⟩ := isLedger_of_boundaries hledger
  obtain ⟨-, -, _, hledger', hin⟩ := discover_eq_ok.mp hwindow
  obtain rfl : ledger = _ := Except.ok.inj (hledger.symm.trans hledger')
  by_cases hun : ∀ b ∈ ledger, b.sourceSha ≠ headSha
  · obtain ⟨path, hadds, rfl⟩ := discoverIn_untagged hlatest hun hin
    exact ⟨path, ref, hadds, htags, hexact⟩
  · -- a replayed window names a tag that exists
    exfalso
    push Not at hun
    obtain ⟨b, hb, rfl⟩ := hun
    obtain ⟨k, hk, rfl⟩ := List.mem_iff_getElem.mp hb
    cases k with
    | zero =>
      cases hl : ledger with
      | nil => simp [hl] at hk
      | cons floor rest =>
        simp [hl, discoverIn, taggedWindow, replayedWindow] at hin
    | succ k =>
      obtain ⟨path, hadds⟩ := (List.isChain_iff_getElem.mp his.chain k hk).adds
      rw [his.discoverIn_boundary (by omega) hk hadds, Except.ok.injEq] at hin
      obtain ⟨-, htag, old, hold, holdExact⟩ := hboundaries _ hb
      apply htags.notMem hold
      rw [hexact.name, holdExact.name, ← hin, htag]
      rfl

theorem Publishes.invariant {s s' : MainState} {headSha : String} (h : Publishes s headSha s')
    (hunedited : Unedited s headSha)
    (hbound : s'.repository.platformTags.length ≤ maxTagLedgerEntries) (hs : Invariant s) :
    Invariant s' := by
  obtain ⟨ledger, latest, before, after, hordered⟩ := hs
  obtain ⟨path, ref, hadds, htags, hexact⟩ := h.spec hordered.read hordered.last
  have hnext : Successor s.repository.store latest ⟨nextVersion (some latest.version),
      (nextVersion (some latest.version)).tag, headSha⟩ := ⟨rfl, path, hadds⟩
  have hledger := htags.boundaries hordered.read hordered.last hnext hexact hbound
  have hafter : headSha ∈ after := by
    have hhead := h.head
    rw [hordered.heads, List.mem_append, List.mem_cons] at hhead
    rcases hhead with hhead | rfl | hhead
    · exact absurd (s.repository.store.graph.ancestor_of_linear (hordered.below _ hhead))
        (s.repository.store.graph.not_ancestor_of_linear hadds.linear)
    · exact absurd rfl (s.repository.store.graph.ne_of_linear hadds.linear)
    · exact hhead
  obtain ⟨between, rest, rfl⟩ := List.append_of_mem hafter
  obtain ⟨habove, hbelow⟩ := hordered.above.split
  have hstart := startsWith_of_isFragmentPath
    (hadds.valid path (Finset.mem_singleton_self path)).isFragmentPath
  have hin : GitText.text path ∈ gitPaths {path} :=
    text_mem_gitPaths.mpr (Finset.mem_singleton_self path)
  obtain ⟨entry, hentry⟩ := Option.ne_none_iff_exists'.mp (hadds.grows.present _ hin)
  have hkept : ∀ x ∈ headSha :: rest, s.repository.store.surface x (.text path) = some entry := by
    intro x hx
    have hanc : s.repository.store.graph.Ancestor headSha x := by
      rcases List.mem_cons.mp hx with rfl | hx
      · exact .refl
      · exact s.repository.store.graph.ancestor_of_linear (habove.linear x hx)
    have hmem : x ∈ s.heads := by
      rw [hordered.heads]
      simp only [List.mem_append, List.mem_cons] at hx ⊢
      tauto
    have hsame := hunedited x hmem hanc (.text path)
      (mem_fragments.mpr ⟨hstart, by rw [hentry]; simp⟩)
    rw [← hentry, surface_of_fragment hstart, surface_of_fragment hstart, hsame]
  refine ⟨_, _, before ++ latest.sourceSha :: between, rest, hledger, List.getLast?_concat, ?_, ?_,
    ?_, ?_⟩
  · simp [h.heads, hordered.heads]
  · rw [h.heads]
    exact hordered.shas
  · rw [htags.store]
    intro x hx
    rcases List.mem_append.mp hx with hx | hx
    · exact (hordered.below x hx).trans hadds.linear
    · exact hbelow x hx
  · rw [htags.store]
    exact habove.of_kept (hadds.grows.fresh _ hin) hkept headSha

theorem SafeStep.invariant {s s' : MainState} (h : SafeStep s s') (hs : Invariant s) :
    Invariant s' := by
  cases h with
  | merge headSha h => exact h.invariant hs
  | publish headSha h hunedited hbound => exact h.invariant hunedited hbound hs

theorem Reachable.invariant {s : MainState} (h : Reachable SafeStep s) : Invariant s := by
  obtain ⟨s₀, hinit, hsteps⟩ := h
  induction hsteps with
  | refl => exact hinit.invariant
  | tail _ hstep ih => exact hstep.invariant ih

theorem Invariant.noDeadEnd {s : MainState} (h : Invariant s) : NoDeadEnd s := by
  obtain ⟨ledger, latest, before, after, hordered⟩ := h
  have his := (isLedger_of_boundaries hordered.read).1
  refine ⟨ledger, latest, hordered.read, hordered.last, ?_⟩
  intro headSha hhead huntagged hanc
  have hsha := hordered.shas headSha hhead
  have hafter : headSha ∈ after := by
    rw [hordered.heads, List.mem_append, List.mem_cons] at hhead
    rcases hhead with hhead | rfl | hhead
    · exact absurd hanc (s.repository.store.graph.not_ancestor_of_linear
        (hordered.below _ hhead))
    · exact absurd rfl (huntagged latest (List.mem_of_getLast? hordered.last))
    · exact hhead
  obtain ⟨paths, hnonempty, hadds⟩ := hordered.above.addsSome (.inl rfl) headSha hafter
  have hexact : s.repository.store.exactCommit headSha "head SHA" = .ok headSha :=
    ObjectStore.exactCommit_eq_ok.mpr ⟨hsha, hadds.commits.2, rfl⟩
  rw [discover_of_ledger headSha hordered.read, hexact, ok_bind]
  rcases Nat.lt_or_ge 1 paths.card with hmany | hone
  · exact .inr ⟨_, his.discoverIn_of_adds_many hordered.last hadds hmany⟩
  · have hcard : paths.card = 1 := by
      have := hnonempty.card_pos
      omega
    obtain ⟨path, rfl⟩ := Finset.card_eq_one.mp hcard
    exact .inl ⟨_, his.discoverIn_of_adds_one hordered.last hadds⟩

/-- In a run that publishes only unedited heads, merging and publishing in any order never
leaves a head that can neither be published nor wait. -/
theorem no_dead_end_of_unedited {s : MainState} (h : Reachable SafeStep s) : NoDeadEnd s :=
  h.invariant.noDeadEnd

/-! ## An edit that loses the race -/

namespace Sample

def edited : String := "3333333333333333333333333333333333333333"

def editedTree : Tree := floorTree.insert (.text "changelog.d/1-one.md") (fragment "one, reworded")

/-- The floor release, a head that adds a fragment and a head that rewords it. -/
def editStore : ObjectStore :=
  .ofHistory [⟨tagLedgerFloorSha, date, floorTree⟩, ⟨first, date, firstTree⟩,
      ⟨edited, date, editedTree⟩]
    [("floor", Repository.exactFields "v0.1.9" tagLedgerFloorSha date),
      ("first", Repository.exactFields "v0.1.10" first date)]

def unpublished : Repository := ⟨editStore, [floorRef], by decide⟩

def raced : Repository := { repository with store := editStore }

theorem initial_unpublished : Initial ⟨unpublished, [tagLedgerFloorSha]⟩ :=
  ⟨[floorBoundary], floorBoundary, by decide, rfl, rfl⟩

theorem merges_first : Merges ⟨unpublished, [tagLedgerFloorSha]⟩ first
    ⟨unpublished, [tagLedgerFloorSha, first]⟩ :=
  ⟨⟨tagLedgerFloorSha, editStore.intent first "changelog.d/1-one.md", rfl, by decide +kernel⟩, rfl⟩

theorem merges_edited : Merges ⟨unpublished, [tagLedgerFloorSha, first]⟩ edited
    ⟨unpublished, [tagLedgerFloorSha, first, edited]⟩ :=
  ⟨⟨first, editStore.intent edited "changelog.d/1-one.md", rfl, by decide +kernel⟩, rfl⟩

theorem first_taggable : ∃ window ref,
    discoverTransitionWindow unpublished first = .ok window ∧ Tags unpublished raced ref ∧
      ExactTag editStore ref ⟨window.intent.version, window.intent.tag, first⟩ :=
  ⟨⟨tagLedgerFloorSha, "v0.1.9", ⟨first, ⟨0, 1, 10⟩⟩, "changelog.d/1-one.md",
      (editStore.intent first "changelog.d/1-one.md").fragmentSha256⟩, firstRef,
    by decide +kernel, ⟨rfl, by decide⟩, rfl, by decide, by decide, date, by decide +kernel,
    by decide⟩

/-- The first head can be tagged whether or not the edit is merged already. -/
theorem publishes_first {heads : List String} (h : first ∈ heads) :
    Publishes ⟨unpublished, heads⟩ first ⟨raced, heads⟩ := ⟨h, first_taggable, rfl⟩

theorem raced_denied : discoverTransitionWindow raced edited = .error (.contractError
    "release fragments may only be newly added, never edited or removed") := by
  decide

end Sample

/-- Merge a fragment, merge its edit, tag the first head: the edited head is denied. -/
theorem dead_end_reachable : ¬ ∀ s, Reachable Step s → NoDeadEnd s := by
  intro h
  have hreach : Reachable Step
      ⟨Sample.raced, [tagLedgerFloorSha, Sample.first, Sample.edited]⟩ :=
    ⟨_, Sample.initial_unpublished,
      .tail (.tail (.single (.merge _ Sample.merges_first)) (.merge _ Sample.merges_edited))
        (.publish _ (Sample.publishes_first (by simp)))⟩
  obtain ⟨ledger, latest, hledger, hlatest, hall⟩ := h _ hreach
  have hread : platformTagBoundaries Sample.raced =
      .ok [floorBoundary, ⟨⟨0, 1, 10⟩, "v0.1.10", Sample.first⟩] := by decide
  obtain rfl : _ = ledger := Except.ok.inj (hread.symm.trans hledger)
  obtain rfl : (⟨⟨0, 1, 10⟩, "v0.1.10", Sample.first⟩ : TagBoundary) = latest := by
    simpa using hlatest
  have hanc : Sample.editStore.graph.Ancestor Sample.first Sample.edited :=
    Sample.editStore.graph.isAncestor_iff.mp (by decide)
  rcases hall Sample.edited (by simp) (by decide) hanc with ⟨window, hwindow⟩ | ⟨message, hpending⟩
  · rw [Sample.raced_denied] at hwindow
    simp at hwindow
  · rw [Sample.raced_denied] at hpending
    simp at hpending

theorem sample_no_dead_end : NoDeadEnd ⟨Sample.raced, [tagLedgerFloorSha, Sample.first]⟩ := by
  apply no_dead_end_of_unedited
  refine ⟨_, Sample.initial_unpublished, .tail (.single (.merge _ Sample.merges_first))
    (.publish _ (Sample.publishes_first (by simp)) ?_ (by decide))⟩
  intro later hlater hanc path _
  simp only [List.mem_cons, List.not_mem_nil, or_false] at hlater
  rcases hlater with rfl | rfl
  · have hnot : Sample.editStore.graph.isAncestor Sample.first tagLedgerFloorSha = false := by
      decide
    exact absurd hanc (Sample.editStore.graph.isAncestor_eq_false.mp hnot)
  · rfl

end Release
