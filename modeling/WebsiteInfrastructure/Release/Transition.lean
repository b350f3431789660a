import Mathlib
import WebsiteInfrastructure.Release.Publication

/-!
# The merge gate

`validateTransition` accepts a range into the protected branch: either it adds one
fragment, or it edits the one fragment that is still unpublished.
-/

namespace Release

open CommitGraph Growth Raising

/-! ## The code -/

/-- `git tag --points-at base or git tag --points-at head`, as a truth value. -/
def hasTaggedEndpoint (repository : Repository) (baseSha headSha : String) :
    Except Failure Bool := do
  let atBase ← repository.pointsAt baseSha
  match atBase with
  | _ :: _ => .ok true
  | [] => do
    let atHead ← repository.pointsAt headSha
    .ok (!atHead.isEmpty)

def validateUnpublishedFragmentEdit (repository : Repository) (baseSha headSha : String) :
    Except Failure FragmentIntent := do
  let store := repository.store
  let _ ← linearCommits store baseSha headSha
  let ledger ← platformTagBoundaries repository
  let tagged ← hasTaggedEndpoint repository baseSha headSha
  raiseIf (tagged = true)
    (.contractError "an unpublished fragment edit cannot use a tagged endpoint")
  match ledger.getLast? with
  | none => .error (.builtin .indexError)
  | some latest => do
    let descends ← store.isAncestor latest.sourceSha baseSha
    raiseIf (descends = false)
      (.contractError "the latest platform tag must be an ancestor of the base")
    let baseIntents ← releaseSurfaceIntents store latest.sourceSha baseSha
    let headIntents ← releaseSurfaceIntents store latest.sourceSha headSha
    match baseIntents, headIntents with
    | [baseIntent], [headIntent] => do
      raiseIf (baseIntent.fragmentPath ≠ headIntent.fragmentPath)
        (.contractError "base and head must contain the same unpublished fragment")
      let changed ← nulPaths (diff (store.tree baseSha) (store.tree headSha) fun _ => true)
      let modified ← nulPaths (diff (store.tree baseSha) (store.tree headSha) (· == .modified))
      let expected := [baseIntent.fragmentPath]
      raiseIf (changed ≠ expected ∨ modified ≠ expected)
        (.contractError "release surface must only modify the one unpublished fragment")
      .ok headIntent
    | _, _ => .error (.contractError
        "base and head must each contain exactly one unpublished fragment")

/-- The second attempt: a failed edit raises the error of the first attempt instead. -/
def editOr (repository : Repository) (baseSha headSha : String) (originalError : Failure) :
    Except Failure FragmentIntent :=
  match validateUnpublishedFragmentEdit repository baseSha headSha with
  | .ok intent => .ok intent
  | .error e => .error (if e.isContractError then originalError else e)

def validateTransition (repository : Repository) (baseSha headSha : String) :
    Except Failure FragmentIntent := do
  let baseSha ← repository.store.exactCommit baseSha "base SHA"
  let headSha ← repository.store.exactCommit headSha "head SHA"
  match releaseSurfaceIntents repository.store baseSha headSha with
  | .ok [intent] => .ok intent
  | .ok _ =>
    editOr repository baseSha headSha
      (.contractError "release range must add exactly one changelog fragment")
  | .error e => if e.isContractError then editOr repository baseSha headSha e else .error e

/-! ## Specification -/

/-- A range that changes the one fragment above the latest release and nothing else. -/
structure Edits (store : ObjectStore) (latestSha baseSha headSha path : String) : Prop where
  base : Adds store latestSha baseSha {path}
  head : Adds store latestSha headSha {path}
  linear : store.graph.LinearRange baseSha headSha
  differs : store.surface baseSha (.text path) ≠ store.surface headSha (.text path)

theorem validateUnpublishedFragmentEdit_ok {repository : Repository} {baseSha headSha : String}
    {intent : FragmentIntent}
    (h : validateUnpublishedFragmentEdit repository baseSha headSha = .ok intent) :
    ∃ ledger latest path, platformTagBoundaries repository = .ok ledger ∧
      ledger.getLast? = some latest ∧
      Edits repository.store latest.sourceSha baseSha headSha path := by
  simp only [validateUnpublishedFragmentEdit, bind_eq_ok, raiseIf_eq_ok, exists_const] at h
  obtain ⟨commits, hcommits, ledger, hledger, tagged, -, -, h⟩ := h
  split at h
  · simp at h
  rename_i latest hlatest
  simp only [bind_eq_ok, raiseIf_eq_ok, exists_const] at h
  obtain ⟨-, -, -, baseIntents, hbase, headIntents, hhead, h⟩ := h
  split at h
  · rename_i baseIntent headIntent
    simp only [bind_eq_ok, raiseIf_eq_ok, exists_const, not_or, ne_eq, not_not] at h
    obtain ⟨hpath, changed, hchanged, modified, -, ⟨hexpected, -⟩, -⟩ := h
    obtain ⟨p, hbaseAdds, rfl⟩ := releaseSurfaceIntents_eq_singleton.mp hbase
    obtain ⟨q, hheadAdds, rfl⟩ := releaseSurfaceIntents_eq_singleton.mp hhead
    obtain rfl : p = q := hpath
    obtain ⟨s, -, hs, hsort⟩ := (nulPaths_eq_ok (nodup_diff _ _ _)).mp hchanged
    have hmem : p ∈ s := by
      rw [← Finset.mem_sort (· ≤ ·), ← hsort, hexpected]
      exact List.mem_singleton_self p
    refine ⟨ledger, latest, p, hledger, hlatest, hbaseAdds, hheadAdds,
      (linearCommits_eq_ok.mp ⟨commits, hcommits⟩).2, ?_⟩
    exact mem_changed.mp ((hs _).mpr (text_mem_gitPaths.mpr hmem))
  · simp at h

/-- Whatever passes the gate adds one fragment or edits the unpublished one. -/
theorem validateTransition_ok {repository : Repository} {baseSha headSha : String}
    {intent : FragmentIntent} (h : validateTransition repository baseSha headSha = .ok intent) :
    isSha headSha = true ∧ ((∃ path, Adds repository.store baseSha headSha {path}) ∨
      ∃ ledger latest path, platformTagBoundaries repository = .ok ledger ∧
        ledger.getLast? = some latest ∧
        Edits repository.store latest.sourceSha baseSha headSha path) := by
  have hedit : ∀ e, editOr repository baseSha headSha e = .ok intent →
      ∃ ledger latest path, platformTagBoundaries repository = .ok ledger ∧
        ledger.getLast? = some latest ∧
        Edits repository.store latest.sourceSha baseSha headSha path := by
    intro e he
    unfold editOr at he
    split at he
    · rename_i hok
      exact validateUnpublishedFragmentEdit_ok hok
    · simp at he
  simp only [validateTransition, bind_eq_ok, ObjectStore.exactCommit_eq_ok] at h
  obtain ⟨_, ⟨-, -, rfl⟩, _, ⟨hsha, -, rfl⟩, h⟩ := h
  refine ⟨hsha, ?_⟩
  split at h
  · rename_i hintents
    obtain ⟨path, hadds, -⟩ := releaseSurfaceIntents_eq_singleton.mp hintents
    exact .inl ⟨path, hadds⟩
  · exact .inr (hedit _ h)
  · split at h
    · exact .inr (hedit _ h)
    · simp at h

end Release
