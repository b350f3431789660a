import Mathlib
import WebsiteInfrastructure.Library.Growth
import WebsiteInfrastructure.Library.Sha256
import WebsiteInfrastructure.Release.Fragment
import WebsiteInfrastructure.Release.Git

/-!
# The release surface of a commit range

`releaseSurfaceIntents` reads which fragments a range of commits adds. Its specification
is `Adds`: a linear range over which the release surface grows by valid fragments.
-/

namespace Release

open CommitGraph Growth PythonText Raising Utf8

/-! ## Differences between trees -/

def surfacePathspec : List String := ["VERSION", "CHANGELOG.md", "changelog.d"]

def generatedReleasePaths : List String := ["VERSION", "CHANGELOG.md"]

/-- A pathspec matches the path itself and whatever lies below it. -/
def onSurface (path : GitText) : Bool :=
  surfacePathspec.any fun spec => path == .text spec || path.startsWith (spec ++ "/")

/-- The status letters of `git diff --no-renames`. -/
inductive Change
  | added
  | deleted
  | modified
  | typeChanged
  deriving DecidableEq

/-- Changing the executable bit of a file is a modification. -/
def EntryKind.sameType : EntryKind → EntryKind → Bool
  | .regular, .executable => true
  | .executable, .regular => true
  | a, b => a == b

def change : Option Entry → Option Entry → Option Change
  | none, none => none
  | none, some _ => some .added
  | some _, none => some .deleted
  | some old, some new =>
    if old = new then none
    else if old.kind.sameType new.kind then some .modified
    else some .typeChanged

/-- `git diff --name-only -z base head -- VERSION CHANGELOG.md changelog.d`, with a filter on
the status letters. -/
def diff (base head : Tree) (filter : Change → Bool) : List GitText :=
  (base.keys ++ head.keys).dedup.filter fun path =>
    onSurface path && (change (base.lookup path) (head.lookup path)).any filter

theorem mem_diff {base head : Tree} {filter : Change → Bool} {path : GitText} :
    path ∈ diff base head filter ↔ onSurface path = true ∧
      ∃ c, change (base.lookup path) (head.lookup path) = some c ∧ filter c = true := by
  simp only [diff, List.mem_filter, List.mem_dedup, List.mem_append, Bool.and_eq_true,
    Option.any_eq_true, and_iff_right_iff_imp, and_imp]
  rintro - ⟨c, hc, -⟩
  by_contra hkeys
  rw [not_or, ← AList.mem_keys, ← AList.mem_keys, ← AList.lookup_eq_none,
    ← AList.lookup_eq_none] at hkeys
  rw [hkeys.1, hkeys.2, change] at hc
  simp at hc

theorem nodup_diff (base head : Tree) (filter : Change → Bool) : (diff base head filter).Nodup :=
  (List.nodup_dedup _).filter _

/-- The loop of `_nul_paths`; git ends every name with a NUL and prints none twice. -/
def nulPathsLoop : List String → List GitText → Except Failure (List String)
  | paths, [] => .ok paths
  | _, .undecodable _ _ :: _ => .error (.contractError "release path is not UTF-8")
  | paths, .text path :: fields => do
    raiseIf (path = "" ∨ path ∈ paths)
      (.contractError "release path inventory is empty or duplicated")
    nulPathsLoop (paths ++ [path]) fields

def nulPaths (fields : List GitText) : Except Failure (List String) := do
  let paths ← nulPathsLoop [] fields
  .ok (paths.insertionSort (· ≤ ·))

theorem nulPathsLoop_eq_ok {paths : List String} {fields : List GitText} {result : List String} :
    nulPathsLoop paths fields = .ok result ↔ ∃ texts : List String,
      fields = texts.map .text ∧ "" ∉ texts ∧ texts.Nodup ∧ paths.Disjoint texts ∧
        result = paths ++ texts := by
  induction fields generalizing paths with
  | nil =>
    rw [nulPathsLoop, Except.ok.injEq]
    constructor
    · rintro rfl
      exact ⟨[], by simp⟩
    · rintro ⟨texts, htexts, -, -, -, rfl⟩
      rw [List.map_eq_nil_iff.mp htexts.symm, List.append_nil]
  | cons field fields ih =>
    cases field with
    | undecodable bytes invalid =>
      simp only [nulPathsLoop, reduceCtorEq, false_iff]
      rintro ⟨texts, htexts, -⟩
      cases texts <;> simp at htexts
    | text path =>
      rw [nulPathsLoop, raiseIf_bind_eq_ok, ih]
      constructor
      · rintro ⟨hnew, texts, rfl, hne, hnodup, hdisj, rfl⟩
        refine ⟨path :: texts, rfl, ?_, ?_, ?_, by simp⟩
        · simp only [List.mem_cons, not_or]
          exact ⟨fun h => hnew (.inl h.symm), hne⟩
        · rw [List.nodup_cons]
          exact ⟨fun h => hdisj (by simp) h, hnodup⟩
        · rw [List.disjoint_cons_right]
          exact ⟨fun h => hnew (.inr h), fun x hx hx' => hdisj (by simp [hx]) hx'⟩
      · rintro ⟨texts, htexts, hne, hnodup, hdisj, rfl⟩
        cases texts with
        | nil => simp at htexts
        | cons t texts =>
          simp only [List.map_cons, List.cons.injEq, GitText.text.injEq] at htexts
          obtain ⟨rfl, rfl⟩ := htexts
          rw [List.nodup_cons] at hnodup
          rw [List.disjoint_cons_right] at hdisj
          simp only [List.mem_cons, not_or] at hne
          refine ⟨?_, texts, rfl, hne.2, hnodup.2, ?_, by simp⟩
          · rintro (rfl | hin)
            · exact hne.1 rfl
            · exact hdisj.1 hin
          · intro x hx hx'
            rcases List.mem_append.mp hx with hx | hx
            · exact hdisj.2 hx hx'
            · rw [List.mem_singleton.mp hx] at hx'
              exact hnodup.1 hx'

/-! ## The code -/

def linearCommits (store : ObjectStore) (baseSha headSha : String) :
    Except Failure (List String) := do
  let descends ← store.isAncestor baseSha headSha
  raiseIf (descends = false) (.contractError <|
    "release head does not descend from the exact current base; " ++
    "request an owner-operated GitHub rebase update or create a fresh branch")
  let commits := store.graph.revList baseSha headSha
  raiseIf (commits.getLast? ≠ some headSha)
    (.contractError "release range is empty or does not end at the exact head")
  raiseIf (store.graph.contiguous baseSha commits = false)
    (.contractError "release range must be one contiguous linear commit chain")
  .ok commits

structure FragmentIntent where
  sourceSha : String
  fragmentPath : String
  fragmentSha256 : String
  deriving DecidableEq, Repr

/-- The entry is never a directory here: the path comes from a difference of file listings. -/
def requireRegularFragmentEntry (store : ObjectStore) (revision path : String) :
    Except Failure Unit :=
  match (store.tree revision).lookup (.text path) with
  | none => .error (.contractError "fragment tree entry is absent or duplicated")
  | some entry => raiseIf (entry.kind ≠ .regular)
      (.contractError "fragment must be one regular non-executable 100644 blob")

/-- The body of the loop over the added paths. -/
def fragmentIntent (store : ObjectStore) (headSha path : String) :
    Except Failure FragmentIntent := do
  requireRegularFragmentEntry store headSha path
  let payload ← store.fileBytes headSha path
  let _ ← validateFragmentBytes path payload
  .ok ⟨headSha, path, Sha256.hexdigest payload⟩

def releaseSurfaceIntents (store : ObjectStore) (baseSha headSha : String) :
    Except Failure (List FragmentIntent) := do
  let _ ← linearCommits store baseSha headSha
  let changed ← nulPaths (diff (store.tree baseSha) (store.tree headSha) fun _ => true)
  let added ← nulPaths (diff (store.tree baseSha) (store.tree headSha) (· == .added))
  let generated := changed.filter (· ∈ generatedReleasePaths)
  raiseIf (generated ≠ []) (.contractError <|
    "retired generated release files changed: " ++ ", ".intercalate generated)
  raiseIf (changed ≠ added) (.contractError
    "release fragments may only be newly added, never edited or removed")
  collect (fragmentIntent store headSha) added

/-! ## Specification -/

/-- The part of a commit's tree that releases are derived from. -/
def ObjectStore.surface (store : ObjectStore) (sha : String) (path : GitText) : Option Entry :=
  if onSurface path then (store.tree sha).lookup path else none

def gitPaths (paths : Finset String) : Finset GitText :=
  paths.image GitText.text

/-- A regular file whose path and text pass `validateFragmentBytes`. -/
def ObjectStore.ValidFragment (store : ObjectStore) (sha path : String) : Prop :=
  ∃ payload text, (store.tree sha).lookup (.text path) = some ⟨.regular, payload⟩ ∧
    validateFragmentBytes path payload = .ok text

/-- A linear range that adds exactly the valid fragments `paths` to the release surface. -/
structure Adds (store : ObjectStore) (baseSha headSha : String) (paths : Finset String) : Prop where
  commits : (store.commit baseSha).isSome ∧ (store.commit headSha).isSome
  linear : store.graph.LinearRange baseSha headSha
  grows : Grows (store.surface baseSha) (gitPaths paths) (store.surface headSha)
  valid : ∀ path ∈ paths, store.ValidFragment headSha path

def ObjectStore.intent (store : ObjectStore) (sha path : String) : FragmentIntent :=
  ⟨sha, path, Sha256.hexdigest (((store.tree sha).lookup (.text path)).elim [] Entry.content)⟩

section Spec

variable {store : ObjectStore} {baseSha headSha : String} {paths : Finset String}

theorem text_mem_gitPaths {path : String} : GitText.text path ∈ gitPaths paths ↔ path ∈ paths := by
  simp [gitPaths]

theorem linearCommits_eq_ok : (∃ commits, linearCommits store baseSha headSha = .ok commits) ↔
    ((store.commit baseSha).isSome ∧ (store.commit headSha).isSome) ∧
      store.graph.LinearRange baseSha headSha := by
  simp only [linearCommits, bind_eq_ok, raiseIf_eq_ok, exists_const, ObjectStore.isAncestor_eq_ok,
    Except.ok.injEq, ne_eq, not_not, Bool.not_eq_false]
  constructor
  · rintro ⟨commits, descends, ⟨hcommits, -⟩, -, hlast, hcont, -⟩
    exact ⟨hcommits, store.graph.linear_of_contiguous hcont hlast⟩
  · rintro ⟨hcommits, hlinear⟩
    obtain ⟨cs, hlist, hcont⟩ := store.graph.revList_of_linear hlinear
    have hdesc : store.graph.isAncestor baseSha headSha = true :=
      store.graph.isAncestor_iff.mpr (store.graph.ancestor_of_linear hlinear)
    exact ⟨_, true, ⟨hcommits, hdesc⟩, rfl, by simp [hlist], by rw [hlist, hcont], rfl⟩

theorem fragmentIntent_eq_ok {path : String} {intent : FragmentIntent} :
    fragmentIntent store headSha path = .ok intent ↔
      store.ValidFragment headSha path ∧ store.intent headSha path = intent := by
  simp only [fragmentIntent, requireRegularFragmentEntry, ObjectStore.fileBytes,
    ObjectStore.ValidFragment, ObjectStore.intent]
  cases hentry : (store.tree headSha).lookup (.text path) with
  | none => simp
  | some entry =>
    obtain ⟨kind, content⟩ := entry
    simp only [raiseIf_eq_ok, exists_const, ok_bind, bind_eq_ok, Except.ok.injEq,
      Option.some.injEq, Entry.mk.injEq, Option.elim_some, ne_eq, not_not]
    constructor
    · rintro ⟨rfl, text, htext, heq⟩
      exact ⟨⟨content, text, ⟨rfl, rfl⟩, htext⟩, heq⟩
    · rintro ⟨⟨payload, text, ⟨rfl, rfl⟩, htext⟩, heq⟩
      exact ⟨rfl, text, htext, heq⟩

theorem insertionSort_eq_sort {texts : List String} (h : texts.Nodup) :
    texts.insertionSort (· ≤ ·) = texts.toFinset.sort (· ≤ ·) := by
  have hperm := List.perm_insertionSort (· ≤ ·) texts
  have hsort := (List.toFinset_sort (· ≤ ·) (hperm.nodup_iff.mpr h)).mpr
    (List.pairwise_insertionSort (· ≤ ·) texts)
  rw [← hsort, List.toFinset_eq_of_perm _ _ hperm]

/-- Reading a listing gives the sorted set of its names, if they are all text. -/
theorem nulPaths_eq_ok {fields : List GitText} (hnodup : fields.Nodup) {result : List String} :
    nulPaths fields = .ok result ↔ ∃ s : Finset String, "" ∉ s ∧
      (∀ k, k ∈ fields ↔ k ∈ gitPaths s) ∧ result = s.sort (· ≤ ·) := by
  simp only [nulPaths, bind_eq_ok, nulPathsLoop_eq_ok, List.nil_append, Except.ok.injEq]
  constructor
  · rintro ⟨_, ⟨texts, rfl, hne, htexts, -, rfl⟩, rfl⟩
    refine ⟨_, by simpa using hne, ?_, insertionSort_eq_sort htexts⟩
    intro k
    simp [gitPaths]
  · rintro ⟨s, hne, hmem, rfl⟩
    have hall : fields ∈ Set.range (List.map GitText.text) := by
      rw [Set.range_list_map]
      intro k hk
      obtain ⟨t, -, ht⟩ := Finset.mem_image.mp ((hmem k).mp hk)
      exact ⟨t, ht⟩
    obtain ⟨texts, rfl⟩ := hall
    have htexts : texts.Nodup := hnodup.of_map _
    have hs : texts.toFinset = s := by
      ext t
      rw [List.mem_toFinset, ← text_mem_gitPaths, ← hmem]
      simp
    refine ⟨texts, ⟨texts, rfl, ?_, htexts, List.disjoint_nil_left _, rfl⟩, ?_⟩
    · rwa [← List.mem_toFinset, hs]
    · rw [insertionSort_eq_sort htexts, hs]

theorem change_eq_none {old new : Option Entry} : change old new = none ↔ old = new := by
  rcases old with - | old <;> rcases new with - | new <;> simp only [change, reduceCtorEq]
  rw [Option.some.injEq]
  split_ifs with heq hkind <;> simp [heq]

theorem change_eq_added {old new : Option Entry} :
    change old new = some .added ↔ old = none ∧ new ≠ none := by
  rcases old with - | old <;> rcases new with - | new <;> simp only [change, reduceCtorEq]
  · simp
  · simp
  · simp
  · split_ifs <;> simp

/-- The paths that differ are those where the surfaces differ. -/
theorem mem_changed {path : GitText} :
    path ∈ diff (store.tree baseSha) (store.tree headSha) (fun _ => true) ↔
      store.surface baseSha path ≠ store.surface headSha path := by
  rw [mem_diff, ObjectStore.surface, ObjectStore.surface]
  by_cases hpath : onSurface path = true
  · simp only [hpath, if_true, true_and, and_true, ne_eq, ← change_eq_none,
      Option.eq_none_iff_forall_ne_some, not_forall, not_not]
  · simp [hpath]

/-- The paths that git reports as added are those that only the new surface has. -/
theorem mem_added {path : GitText} :
    path ∈ diff (store.tree baseSha) (store.tree headSha) (· == .added) ↔
      store.surface baseSha path = none ∧ store.surface headSha path ≠ none := by
  rw [mem_diff, ObjectStore.surface, ObjectStore.surface]
  by_cases hpath : onSurface path = true
  · simp only [hpath, if_true, true_and, beq_iff_eq, exists_eq_right, change_eq_added]
  · simp [hpath]

theorem ObjectStore.ValidFragment.isFragmentPath {sha path : String}
    (h : store.ValidFragment sha path) : isFragmentPath path = true := by
  obtain ⟨payload, text, -, hvalid⟩ := h
  exact (validateFragmentBytes_eq_ok hvalid).1

theorem ne_of_isFragmentPath {path : String} (h : isFragmentPath path = true) (other : String)
    (hother : ¬ "changelog.d/".toList <+: other.toList) : path ≠ other := by
  rintro rfl
  exact hother (prefix_of_isFragmentPath h)

theorem Adds.empty_notMem (h : Adds store baseSha headSha paths) : "" ∉ paths := fun hin =>
  ne_of_isFragmentPath (h.valid "" hin).isFragmentPath "" (by decide) rfl

/-- The code accepts a range exactly when it is linear and adds valid fragments only, and it
returns one intent for each, sorted by path. -/
theorem releaseSurfaceIntents_eq_ok {intents : List FragmentIntent} :
    releaseSurfaceIntents store baseSha headSha = .ok intents ↔ ∃ paths : Finset String,
      Adds store baseSha headSha paths ∧ (paths.sort (· ≤ ·)).map (store.intent headSha) = intents := by
  simp only [releaseSurfaceIntents, bind_eq_ok, raiseIf_eq_ok, exists_const, ne_eq, not_not,
    nulPaths_eq_ok (nodup_diff _ _ _), collect_eq_ok_iff fun _ _ => fragmentIntent_eq_ok,
    mem_changed, mem_added]
  constructor
  · rintro ⟨_, hlinear, _, ⟨s, -, hchanged, rfl⟩, _, ⟨t, -, hadded, rfl⟩, -, hsort, hvalid, rfl⟩
    obtain rfl : s = t := by
      rw [← Finset.sort_toFinset s (· ≤ ·), hsort, Finset.sort_toFinset]
    obtain ⟨hcommits, hlinear⟩ := linearCommits_eq_ok.mp ⟨_, hlinear⟩
    refine ⟨s, ⟨hcommits, hlinear, ⟨?_, ?_, ?_⟩, ?_⟩, rfl⟩
    · intro k hk
      rw [← hchanged] at hk
      exact (not_not.mp hk).symm
    · exact fun k hk => ((hadded k).mpr hk).1
    · exact fun k hk => ((hadded k).mpr hk).2
    · exact fun path hpath => hvalid path ((Finset.mem_sort _).mpr hpath)
  · rintro ⟨s, hs, rfl⟩
    obtain ⟨commits, hcommits⟩ := linearCommits_eq_ok.mpr ⟨hs.commits, hs.linear⟩
    have hadded : ∀ k, (store.surface baseSha k = none ∧ ¬ store.surface headSha k = none) ↔
        k ∈ gitPaths s := fun k => hs.grows.mem_iff.symm
    have hchanged : ∀ k, (¬ store.surface baseSha k = store.surface headSha k) ↔
        k ∈ gitPaths s := by
      intro k
      constructor
      · intro hne
        by_contra hk
        exact hne (hs.grows.same k hk).symm
      · intro hk heq
        exact hs.grows.present k hk (heq ▸ hs.grows.fresh k hk)
    refine ⟨commits, hcommits, _, ⟨s, hs.empty_notMem, hchanged, rfl⟩, _,
      ⟨s, hs.empty_notMem, hadded, rfl⟩, ?_, rfl, ?_, rfl⟩
    · rw [List.filter_eq_nil_iff]
      intro path hpath
      have hfrag := (hs.valid path ((Finset.mem_sort _).mp hpath)).isFragmentPath
      have h1 := ne_of_isFragmentPath hfrag "VERSION" (by decide)
      have h2 := ne_of_isFragmentPath hfrag "CHANGELOG.md" (by decide)
      simp [generatedReleasePaths, h1, h2]
    · exact fun path hpath => hs.valid path ((Finset.mem_sort _).mp hpath)

theorem Adds.unique {paths' : Finset String} (h : Adds store baseSha headSha paths)
    (h' : Adds store baseSha headSha paths') : paths = paths' := by
  have hgit := h.grows.unique h'.grows
  ext path
  rw [← text_mem_gitPaths, hgit, text_mem_gitPaths]

theorem Adds.intents (h : Adds store baseSha headSha paths) :
    releaseSurfaceIntents store baseSha headSha =
      .ok ((paths.sort (· ≤ ·)).map (store.intent headSha)) :=
  releaseSurfaceIntents_eq_ok.mpr ⟨paths, h, rfl⟩

/-- One intent is one added fragment. -/
theorem releaseSurfaceIntents_eq_singleton {intent : FragmentIntent} :
    releaseSurfaceIntents store baseSha headSha = .ok [intent] ↔ ∃ path,
      Adds store baseSha headSha {path} ∧ store.intent headSha path = intent := by
  rw [releaseSurfaceIntents_eq_ok]
  constructor
  · rintro ⟨paths, hadds, hintents⟩
    have hcard : paths.card = 1 := by
      simpa using congrArg List.length hintents
    obtain ⟨path, rfl⟩ := Finset.card_eq_one.mp hcard
    exact ⟨path, hadds, by simpa using hintents⟩
  · rintro ⟨path, hadds, rfl⟩
    exact ⟨{path}, hadds, by simp⟩

end Spec

end Release
