import Mathlib
import WebsiteInfrastructure.Release.LedgerLaw

/-!
# Transition windows

`discoverTransitionWindow` derives the one release that a head may publish. Once the
ledger is read it depends on the store and the ledger only; `discoverIn` is that part,
and the lemmas here say which heads it gives a window, which it makes wait, and which
window a head that is already tagged gets again.
-/

namespace Release

open CommitGraph Raising

structure Intent where
  sourceSha : String
  version : Version
  deriving DecidableEq, Repr

def Intent.tag (intent : Intent) : String := intent.version.tag

structure TransitionWindow where
  baseSha : String
  baseTag : String
  intent : Intent
  fragmentPath : String
  fragmentSha256 : String
  deriving DecidableEq, Repr

/-! ## The code -/

/-- The body of the loop over the ledger at the boundary whose source is the head. -/
def replayedWindow (store : ObjectStore) (headSha : String) (previous : Option TagBoundary)
    (boundary : TagBoundary) : Except Failure TransitionWindow :=
  match previous with
  | none =>
    .error (.contractError "the migration-floor release is not a publishable new window")
  | some previous => do
    let intents ← releaseSurfaceIntents store previous.sourceSha headSha
    match intents with
    | [fragment] => .ok ⟨previous.sourceSha, previous.tag, ⟨headSha, boundary.version⟩,
        fragment.fragmentPath, fragment.fragmentSha256⟩
    | _ => .error (.contractError "an existing release tag must bind exactly one fragment")

/-- The loop itself; the third argument is the boundary before the rest of the ledger. -/
def taggedWindow (store : ObjectStore) (headSha : String) :
    Option TagBoundary → List TagBoundary → Option (Except Failure TransitionWindow)
  | _, [] => none
  | previous, boundary :: rest =>
    if boundary.sourceSha ≠ headSha then taggedWindow store headSha (some boundary) rest
    else some (replayedWindow store headSha previous boundary)

def requireNotBehind (store : ObjectStore) (headSha : String) :
    List TagBoundary → Except Failure Unit
  | [] => .ok ()
  | boundary :: rest => do
    let behind ← store.isAncestor headSha boundary.sourceSha
    raiseIf (behind = true)
      (.contractError "source SHA is behind a later tag but has no exact release tag")
    requireNotBehind store headSha rest

def untaggedWindow (store : ObjectStore) (latest : TagBoundary) (headSha : String) :
    Except Failure TransitionWindow := do
  let descends ← store.isAncestor latest.sourceSha headSha
  raiseIf (descends = false)
    (.contractError "source SHA does not descend from the latest platform tag")
  let intents ← releaseSurfaceIntents store latest.sourceSha headSha
  raiseIf (1 < intents.length) (.pendingRelease <|
    "source is waiting for " ++ toString (intents.length - 1) ++ " earlier main release(s)")
  match intents with
  | [fragment] => .ok ⟨latest.sourceSha, latest.tag, ⟨headSha, nextVersion (some latest.version)⟩,
      fragment.fragmentPath, fragment.fragmentSha256⟩
  | _ => .error (.contractError "unreleased source must add exactly one changelog fragment")

/-- The part of `discover_transition_window` after the ledger is read. -/
def discoverIn (store : ObjectStore) (ledger : List TagBoundary) (headSha : String) :
    Except Failure TransitionWindow :=
  match taggedWindow store headSha none ledger with
  | some result => result
  | none => do
    requireNotBehind store headSha ledger
    match ledger.getLast? with
    | none => .error (.builtin .indexError)
    | some latest => untaggedWindow store latest headSha

def discoverTransitionWindow (repository : Repository) (headSha : String) :
    Except Failure TransitionWindow := do
  let headSha ← repository.store.exactCommit headSha "head SHA"
  let ledger ← platformTagBoundaries repository
  discoverIn repository.store ledger headSha

/-! ## Specification -/

/-- The window that releases one fragment of the head after a boundary. -/
def releaseWindow (store : ObjectStore) (base : TagBoundary) (headSha : String)
    (version : Version) (path : String) : TransitionWindow :=
  let fragment := store.intent headSha path
  ⟨base.sourceSha, base.tag, ⟨headSha, version⟩, fragment.fragmentPath, fragment.fragmentSha256⟩

theorem ObjectStore.exactCommit_eq_ok {store : ObjectStore} {revision field sha : String} :
    store.exactCommit revision field = .ok sha ↔
      isSha revision = true ∧ (store.commit revision).isSome ∧ sha = revision := by
  simp only [exactCommit, bind_eq_ok, requireSha_eq_ok]
  constructor
  · rintro ⟨_, ⟨hsha, rfl⟩, h⟩
    split at h
    · rename_i c hc
      rw [Except.ok.injEq] at h
      exact ⟨hsha, by simp [hc], h.symm⟩
    · split at h <;> simp at h
  · rintro ⟨hsha, hsome, rfl⟩
    obtain ⟨c, hc⟩ := Option.isSome_iff_exists.mp hsome
    exact ⟨sha, ⟨hsha, rfl⟩, by simp [hc]⟩

section Spec

variable {store : ObjectStore} {ledger : List TagBoundary} {headSha path : String}
  {latest boundary : TagBoundary}

theorem taggedWindow_eq_none {previous : Option TagBoundary} :
    taggedWindow store headSha previous ledger = none ↔ ∀ b ∈ ledger, b.sourceSha ≠ headSha := by
  induction ledger generalizing previous with
  | nil => simp [taggedWindow]
  | cons b rest ih =>
    rw [taggedWindow]
    split
    · rename_i hne
      simp [ih, hne]
    · rename_i heq
      simp [not_not.mp heq]

/-- The boundary found by the loop is the one whose source is the head. -/
theorem taggedWindow_eq_some (before : List TagBoundary) (base boundary : TagBoundary)
    (after : List TagBoundary) (previous : Option TagBoundary)
    (hne : ∀ b ∈ before ++ [base], b.sourceSha ≠ boundary.sourceSha)
    (hadds : Adds store base.sourceSha boundary.sourceSha {path}) :
    taggedWindow store boundary.sourceSha previous (before ++ base :: boundary :: after) =
      some (.ok (releaseWindow store base boundary.sourceSha boundary.version path)) := by
  induction before generalizing previous with
  | nil =>
    have hbase := hne base (by simp)
    simp only [List.nil_append, taggedWindow, if_pos hbase, ne_eq, not_true_eq_false, if_false,
      replayedWindow, hadds.intents]
    simp [releaseWindow]
  | cons b before ih =>
    have hb := hne b (by simp)
    rw [List.cons_append, taggedWindow, if_pos hb]
    exact ih (some b) fun x hx => hne x (List.mem_cons_of_mem _ hx)

theorem requireNotBehind_eq_ok {u : Unit} : requireNotBehind store headSha ledger = .ok u ↔
    ∀ b ∈ ledger, store.isAncestor headSha b.sourceSha = .ok false := by
  induction ledger with
  | nil => simp [requireNotBehind]
  | cons b rest ih =>
    simp only [requireNotBehind, bind_eq_ok, raiseIf_eq_ok, exists_const, Bool.not_eq_true, ih,
      List.forall_mem_cons]
    constructor
    · rintro ⟨_, hb, rfl, hrest⟩
      exact ⟨hb, hrest⟩
    · rintro ⟨hb, hrest⟩
      exact ⟨false, hb, rfl, hrest⟩

/-- Boundaries are ancestors of the latest one. -/
theorem IsLedger.ancestor_latest (h : IsLedger store ledger) (hlatest : ledger.getLast? = some latest)
    {b : TagBoundary} (hb : b ∈ ledger) : store.graph.Ancestor b.sourceSha latest.sourceSha := by
  obtain ⟨i, hi, rfl⟩ := List.mem_iff_getElem.mp hb
  rw [List.getLast?_eq_getElem?, List.getElem?_eq_some_iff] at hlatest
  obtain ⟨hlast, rfl⟩ := hlatest
  rcases Nat.lt_or_ge i (ledger.length - 1) with hlt | hge
  · exact store.graph.ancestor_of_linear (h.linear hlt hlast)
  · have : i = ledger.length - 1 := by omega
    subst this
    exact .refl

/-- No head above the latest boundary is behind a boundary or tagged. -/
theorem IsLedger.not_ancestor (h : IsLedger store ledger) (hlatest : ledger.getLast? = some latest)
    (hlinear : store.graph.LinearRange latest.sourceSha headSha) {b : TagBoundary}
    (hb : b ∈ ledger) : ¬ store.graph.Ancestor headSha b.sourceSha := fun hanc =>
  store.graph.not_ancestor_of_linear hlinear (hanc.trans (h.ancestor_latest hlatest hb))

theorem IsLedger.isSome_commit (h : IsLedger store ledger)
    (hlatest : ledger.getLast? = some latest) (hsome : (store.commit latest.sourceSha).isSome)
    {b : TagBoundary} (hb : b ∈ ledger) : (store.commit b.sourceSha).isSome := by
  obtain ⟨i, hi, rfl⟩ := List.mem_iff_getElem.mp hb
  by_cases hnext : i + 1 < ledger.length
  · obtain ⟨p, hadds⟩ := (List.isChain_iff_getElem.mp h.chain i hnext).adds
    exact hadds.commits.1
  · rw [List.getLast?_eq_getElem?, List.getElem?_eq_some_iff] at hlatest
    obtain ⟨hlast, rfl⟩ := hlatest
    have : i = ledger.length - 1 := by omega
    subst this
    exact hsome

/-- Above the latest boundary only the range from that boundary decides. -/
theorem IsLedger.discoverIn_eq (h : IsLedger store ledger)
    (hlatest : ledger.getLast? = some latest) {paths : Finset String}
    (hadds : Adds store latest.sourceSha headSha paths) :
    discoverIn store ledger headSha = untaggedWindow store latest headSha := by
  have hnot := fun b hb => h.not_ancestor hlatest hadds.linear (b := b) hb
  have hnone : taggedWindow store headSha none ledger = none := by
    rw [taggedWindow_eq_none]
    rintro b hb rfl
    exact hnot b hb .refl
  have hbehind : requireNotBehind store headSha ledger = .ok () := by
    rw [requireNotBehind_eq_ok]
    intro b hb
    rw [ObjectStore.isAncestor_eq_ok, store.graph.isAncestor_eq_false]
    exact ⟨⟨hadds.commits.2, h.isSome_commit hlatest hadds.commits.1 hb⟩, hnot b hb⟩
  rw [discoverIn, hnone, hlatest]
  simp [hbehind]

theorem untaggedWindow_of_adds {paths : Finset String}
    (hadds : Adds store latest.sourceSha headSha paths) :
    untaggedWindow store latest headSha = (do
      raiseIf (1 < paths.card) (.pendingRelease <|
        "source is waiting for " ++ toString (paths.card - 1) ++ " earlier main release(s)")
      match (paths.sort (· ≤ ·)).map (store.intent headSha) with
      | [fragment] => .ok ⟨latest.sourceSha, latest.tag,
          ⟨headSha, nextVersion (some latest.version)⟩, fragment.fragmentPath,
          fragment.fragmentSha256⟩
      | _ => .error (.contractError "unreleased source must add exactly one changelog fragment")) := by
  have hdesc : store.isAncestor latest.sourceSha headSha = .ok true := by
    rw [ObjectStore.isAncestor_eq_ok]
    exact ⟨hadds.commits, store.graph.isAncestor_iff.mpr
      (store.graph.ancestor_of_linear hadds.linear)⟩
  rw [untaggedWindow, hdesc, ok_bind, raiseIf_neg (by simp), ok_bind, hadds.intents, ok_bind,
    List.length_map, Finset.length_sort]

/-- One fragment above the latest boundary: the window of the next patch. -/
theorem IsLedger.discoverIn_of_adds_one (h : IsLedger store ledger)
    (hlatest : ledger.getLast? = some latest)
    (hadds : Adds store latest.sourceSha headSha {path}) :
    discoverIn store ledger headSha =
      .ok (releaseWindow store latest headSha (nextVersion (some latest.version)) path) := by
  rw [h.discoverIn_eq hlatest hadds, untaggedWindow_of_adds hadds, raiseIf_neg (by simp), ok_bind]
  simp [releaseWindow]

/-- Several fragments above the latest boundary: wait for the earlier ones. -/
theorem IsLedger.discoverIn_of_adds_many (h : IsLedger store ledger)
    (hlatest : ledger.getLast? = some latest) {paths : Finset String}
    (hadds : Adds store latest.sourceSha headSha paths) (hmany : 1 < paths.card) :
    discoverIn store ledger headSha = .error (.pendingRelease <|
      "source is waiting for " ++ toString (paths.card - 1) ++ " earlier main release(s)") := by
  rw [h.discoverIn_eq hlatest hadds, untaggedWindow_of_adds hadds, raiseIf_pos hmany, error_bind]

/-- A head that is no boundary gets a window only for one fragment above the latest one. -/
theorem discoverIn_untagged {window : TransitionWindow} (hlatest : ledger.getLast? = some latest)
    (hun : ∀ b ∈ ledger, b.sourceSha ≠ headSha)
    (hok : discoverIn store ledger headSha = .ok window) :
    ∃ path, Adds store latest.sourceSha headSha {path} ∧
      window = releaseWindow store latest headSha (nextVersion (some latest.version)) path := by
  rw [discoverIn, taggedWindow_eq_none.mpr hun, hlatest] at hok
  simp only [bind_eq_ok, untaggedWindow, raiseIf_eq_ok, exists_const] at hok
  obtain ⟨-, -, descends, -, -, intents, hintents, -, hmatch⟩ := hok
  split at hmatch
  · rename_i fragment
    rw [Except.ok.injEq] at hmatch
    obtain ⟨path, hadds, hpath⟩ := releaseSurfaceIntents_eq_singleton.mp hintents
    refine ⟨path, hadds, ?_⟩
    rw [← hmatch, releaseWindow, hpath]
  · simp at hmatch

/-- A boundary gets the window from its predecessor again. -/
theorem IsLedger.discoverIn_boundary (h : IsLedger store ledger) {k : ℕ}
    (hlt : k < ledger.length) (hk : k + 1 < ledger.length)
    (hadds : Adds store ledger[k].sourceSha ledger[k + 1].sourceSha {path}) :
    discoverIn store ledger ledger[k + 1].sourceSha =
      .ok (releaseWindow store ledger[k] ledger[k + 1].sourceSha ledger[k + 1].version path) := by
  have hsplit : ledger = ledger.take k ++ ledger[k] :: ledger[k + 1] :: ledger.drop (k + 2) := by
    rw [List.getElem_cons_drop, List.getElem_cons_drop, List.take_append_drop]
  have hne : ∀ b ∈ ledger.take k ++ [ledger[k]], b.sourceSha ≠ ledger[k + 1].sourceSha := by
    rw [List.take_append_getElem]
    intro b hb
    obtain ⟨i, hi, rfl⟩ := List.mem_take_iff_getElem.mp hb
    exact store.graph.ne_of_linear (h.linear (by omega) hk)
  have htagged := taggedWindow_eq_some (ledger.take k) ledger[k] ledger[k + 1]
    (ledger.drop (k + 2)) none hne hadds
  rw [← hsplit] at htagged
  rw [discoverIn, htagged]

/-- A boundary just appended gets the window that it had before it was one. -/
theorem IsLedger.discoverIn_appended (h : IsLedger store ledger)
    (hlatest : ledger.getLast? = some latest)
    (hadds : Adds store latest.sourceSha boundary.sourceSha {path}) :
    discoverIn store (ledger ++ [boundary]) boundary.sourceSha =
      .ok (releaseWindow store latest boundary.sourceSha boundary.version path) := by
  have hsplit : ledger = ledger.dropLast ++ [latest] :=
    (List.dropLast_append_getLast? latest hlatest).symm
  have hne : ∀ b ∈ ledger.dropLast ++ [latest], b.sourceSha ≠ boundary.sourceSha := by
    rw [← hsplit]
    intro b hb heq
    exact h.not_ancestor hlatest hadds.linear hb (heq ▸ .refl)
  have htagged := taggedWindow_eq_some ledger.dropLast latest boundary [] none hne hadds
  rw [hsplit, discoverIn, List.append_assoc, List.singleton_append, htagged]

/-- The windows of boundaries do not depend on what comes after them. -/
theorem discoverIn_append {more : List TagBoundary} {b : TagBoundary} (hb : b ∈ ledger) :
    discoverIn store (ledger ++ more) b.sourceSha = discoverIn store ledger b.sourceSha := by
  have htagged : ∀ previous, taggedWindow store b.sourceSha previous (ledger ++ more) =
      taggedWindow store b.sourceSha previous ledger := by
    induction ledger with
    | nil => simp at hb
    | cons x rest ih =>
      intro previous
      rw [List.cons_append, taggedWindow, taggedWindow]
      split
      · rename_i hne
        refine ih ?_ _
        rcases List.mem_cons.mp hb with rfl | hb
        · exact absurd rfl hne
        · exact hb
      · rfl
  have hsome : taggedWindow store b.sourceSha none ledger ≠ none := by
    rw [ne_eq, taggedWindow_eq_none]
    exact fun hall => hall b hb rfl
  obtain ⟨result, hresult⟩ := Option.ne_none_iff_exists'.mp hsome
  rw [discoverIn, discoverIn, htagged, hresult]

end Spec

end Release
