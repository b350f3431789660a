import Mathlib
import WebsiteInfrastructure.History.Coverage

/-!
# Publishable ranges

The blobs of a range are read once and judged at every path of every commit that has them.
-/

namespace History

open Utf8 CommitGraph

/-! ## Shared blobs -/

def Store.size (store : Store) (oid : String) : ℕ := ((store.blob oid).getD []).length

theorem mapM_eq_map {α β : Type} {f : α → Option β} {g : α → β} {l : List α}
    (h : ∀ x ∈ l, f x = some (g x)) : l.mapM f = some (l.map g) := by
  induction l with
  | nil => rfl
  | cons x rest ih =>
    rw [List.mapM_cons, h x (by simp), ih fun y hy => h y (List.mem_cons_of_mem _ hy)]
    rfl

theorem Coherent.blob {store : Store} {sizes : List (String × ℕ)} (h : Coherent store sizes)
    {p : String × ℕ} (hp : p ∈ sizes) :
    store.blob p.1 = some ((store.blob p.1).getD []) ∧ store.size p.1 = p.2 := by
  obtain ⟨data, hdata, hsize⟩ := Option.map_eq_some_iff.mp (h.size p hp)
  rw [Store.size, hdata]
  exact ⟨rfl, hsize⟩

theorem Coherent.sum_eq {store : Store} {sizes : List (String × ℕ)} (h : Coherent store sizes) :
    (sizes.map Prod.snd).sum = ∑ oid ∈ (sizes.map Prod.fst).toFinset, store.size oid := by
  rw [List.sum_toFinset _ h.nodup, List.map_map]
  congr 1
  exact List.map_congr_left fun p hp => ((h.blob hp).2).symm

/-- What the batch returns for the sizes of one store. -/
def Store.batch (store : Store) (sizes : List (String × ℕ)) : List (String × Bytes) :=
  sizes.map fun p => (p.1, (store.blob p.1).getD [])

theorem readBlobs_eq {store : Store} {sizes : List (String × ℕ)} (h : Coherent store sizes) :
    readBlobs store sizes =
      if maxUniqueBlobBytes < ∑ oid ∈ (sizes.map Prod.fst).toFinset, store.size oid then none
      else some (store.batch sizes) := by
  rw [readBlobs, h.sum_eq]
  congr 1
  refine mapM_eq_map fun p hp => ?_
  obtain ⟨data, hdata, hsize⟩ := Option.map_eq_some_iff.mp (h.size p hp)
  simp [hdata, hsize]

theorem lookup_batch {store : Store} {sizes : List (String × ℕ)} {oid : String}
    (hoid : oid ∈ sizes.map Prod.fst) :
    (store.batch sizes).lookup oid = some ((store.blob oid).getD []) := by
  induction sizes with
  | nil => cases hoid
  | cons p rest ih =>
    rw [Store.batch, List.map_cons, List.lookup_cons]
    by_cases heq : oid = p.1
    · simp [heq]
    · have hrest : oid ∈ rest.map Prod.fst := by
        rw [List.map_cons, List.mem_cons] at hoid
        exact hoid.resolve_left heq
      rw [beq_eq_false_iff_ne.mpr heq]
      exact ih hrest

/-! ## The second pass -/

/-- The media of one scope, whichever way they are picked out. -/
theorem sum_scope {α γ : Type} [DecidableEq γ] (scope? : α → Option γ) (size : α → ℕ) (scope : γ)
    (l : List α) :
    (((l.filterMap fun e => (scope? e).map fun c => (c, size e)).filter (·.1 = scope)).map
      Prod.snd).sum = ((l.filter (scope? · = some scope)).map size).sum := by
  induction l with
  | nil => rfl
  | cons e rest ih =>
    cases he : scope? e with
    | none => simpa [he] using ih
    | some c =>
      by_cases hc : c = scope
      · simpa [he, hc] using ih
      · simpa [he, hc] using ih

theorem assetTotals_le {media : List ((String × String) × ℕ)} {commit : String} :
    ((assetTotals media).filterMap fun (_, total) =>
      if maxAssetTreeBytes < total then
        some (⟨"frontend media tree exceeds aggregate ceiling", commit, none⟩ : Finding)
      else none) = [] ↔
    ∀ scope, ((media.filter (·.1 = scope)).map Prod.snd).sum ≤ maxAssetTreeBytes := by
  simp only [assetTotals, List.filterMap_eq_nil_iff, List.forall_mem_map, List.mem_dedup,
    ite_eq_right_iff, reduceCtorEq, imp_false, not_lt]
  constructor
  · intro h scope
    by_cases hmem : ∃ p ∈ media, p.1 = scope
    · obtain ⟨p, hp, rfl⟩ := hmem
      exact h p hp
    · -- a tree without media counts nothing
      have hnone : media.filter (·.1 = scope) = [] := by
        rw [List.filter_eq_nil_iff]
        exact fun p hp => by simpa using fun heq => hmem ⟨p, hp, heq⟩
      simp [hnone]
  · exact fun h p _ => h p.1

/-- The content at its path. -/
def ContentPasses (s : Scans) (store : Store) (r : Record) : Prop :=
  contentFindings s ((decode? r.path).getD "") ((store.blob r.oid).getD []) = []

theorem inspectCommit_eq_nil {s : Scans} {store : Store} {c : Commit} {commit : String}
    {blobs : List (String × Bytes)}
    (hblobs : ∀ e ∈ store.entries c, blobs.lookup e.oid = some ((store.blob e.oid).getD [])) :
    ∃ findings, inspectCommit s blobs commit (store.entries c) = some findings ∧
      (findings = [] ↔ (∀ r ∈ store.records c, ContentPasses s store r) ∧
        ∀ scope, scopeBytes s store (store.records c) scope ≤ maxAssetTreeBytes) := by
  have hcontents : (store.entries c).mapM
      (fun e => (blobs.lookup e.oid).map fun data => (e, data)) =
        some ((store.entries c).map fun e => (e, (store.blob e.oid).getD [])) :=
    mapM_eq_map fun e he => by rw [hblobs e he, Option.map_some]
  simp only [inspectCommit, hcontents, Option.bind_eq_bind, Option.bind_some]
  refine ⟨_, rfl, ?_⟩
  rw [List.append_eq_nil_iff, assetTotals_le]
  refine and_congr ?_ (forall_congr' fun scope => ?_)
  · simp [List.flatMap_eq_nil_iff, Store.entries, ContentPasses, Record.entry]
  · have hsum := sum_scope (fun r => mediaScope s ((decode? r.path).getD "")
      ((store.blob r.oid).getD [])) (fun r => r.size.getD 0) scope (store.records c)
    rw [scopeBytes, ← hsum, Store.entries, List.map_map, List.filterMap_map]
    rfl

/-! ## Ranges -/

/-- The commits of a range. -/
def Store.range (store : Store) (baseline candidate : String) : Finset String :=
  (store.graph.outgoing baseline candidate).toFinset

theorem mem_range {store : Store} {baseline candidate oid : String} :
    oid ∈ store.range baseline candidate ↔
      store.graph.Ancestor oid candidate ∧ ¬ store.graph.Ancestor oid baseline := by
  rw [Store.range, List.mem_toFinset, Graph.mem_outgoing]

/-- The objects in the trees of a range. -/
def Store.blobsOf (store : Store) (commits : Finset String) : Finset String :=
  commits.biUnion fun c => ((store.entriesOf c).map BlobEntry.oid).toFinset

/-- Every commit of a range passes, and the range is within its bounds. -/
structure RangePasses (s : Scans) (store : Store) (baseline candidate : String) : Prop where
  commits : ∀ oid, store.graph.Ancestor oid candidate → ¬ store.graph.Ancestor oid baseline →
    isObjectId oid = true ∧ ∃ c, store.commit oid = some c ∧ CommitPasses s store c
  count : (store.range baseline candidate).card ≤ maxOutgoingCommits
  entries : ∑ oid ∈ store.range baseline candidate, (store.entriesOf oid).length ≤ maxAllTreeEntries
  inventory : ∑ oid ∈ store.range baseline candidate, store.inventoryOf oid ≤
    maxAllTreeInventoriesBytes
  blobs : ∑ oid ∈ store.blobsOf (store.range baseline candidate), store.size oid ≤ maxUniqueBlobBytes

theorem filePasses_iff {s : Scans} {store : Store} {r : Record} (hr : RecordPasses s r)
    (hblob : r.objectType = "blob" → r.size = (store.blob r.oid).map List.length) :
    FilePasses s store r ↔ ContentPasses s store r := by
  obtain ⟨size, hsize, -⟩ := hr.size
  obtain ⟨data, hdata, -⟩ := Option.map_eq_some_iff.mp ((hblob hr.objectType).symm.trans hsize)
  constructor
  · intro h
    obtain ⟨data', hdata', hcontent⟩ := h.content
    rw [ContentPasses, hdata']
    exact hcontent
  · intro h
    rw [ContentPasses, hdata] at h
    exact ⟨hr, data, hdata, h⟩

/-- A commit passes when both passes leave no finding. -/
theorem commitPasses_iff {s : Scans} {store : Store} {c : Commit} :
    CommitPasses s store c ↔ (MetadataPasses s c.object ∧ Listed s store c) ∧
      (∀ r ∈ store.records c, ContentPasses s store r) ∧
      ∀ scope, scopeBytes s store (store.records c) scope ≤ maxAssetTreeBytes := by
  have hblob : ∀ r ∈ store.records c,
      r.objectType = "blob" → r.size = (store.blob r.oid).map List.length := by
    intro r hr htype
    obtain ⟨names, mode, objectType, oid, -, rfl⟩ := holds_of_mem_lsTree store hr
    exact if_pos htype
  constructor
  · intro h
    have hfiles : ∀ r ∈ store.records c, FilePasses s store r := by
      intro r hr
      obtain ⟨names, mode, objectType, oid, hholds, rfl⟩ := holds_of_mem_lsTree store hr
      exact h.files names mode objectType oid hholds
    refine ⟨⟨h.metadata, fun r hr => (hfiles r hr).toRecordPasses, h.distinct, h.count, h.inventory,
      h.bytes⟩, fun r hr => ?_, h.media⟩
    exact (filePasses_iff (hfiles r hr).toRecordPasses (hblob r hr)).mp (hfiles r hr)
  · rintro ⟨⟨hmetadata, hlisted⟩, hcontent, hmedia⟩
    refine ⟨hmetadata, fun names mode objectType oid hholds => ?_, hlisted.distinct, hlisted.count,
      hlisted.inventory, hlisted.bytes, hmedia⟩
    have hr := record_mem_lsTree store hholds []
    exact (filePasses_iff (hlisted.records _ hr) (hblob _ hr)).mpr (hcontent _ hr)

theorem outgoingCommits_eq_some {store : Store} {baseline candidate : String}
    {commits : List String} :
    outgoingCommits store baseline candidate = some commits ↔
      ¬ store.graph.Ancestor candidate baseline ∧
      (∀ oid ∈ store.range baseline candidate, isObjectId oid = true) ∧
      (store.range baseline candidate).card ≤ maxOutgoingCommits ∧
      commits = store.graph.outgoing baseline candidate := by
  have hnodup := store.graph.nodup_outgoing baseline candidate
  have hcard : (store.range baseline candidate).card =
      (store.graph.outgoing baseline candidate).length := List.toFinset_card_of_nodup hnodup
  have hrange : (∀ oid ∈ store.range baseline candidate, isObjectId oid = true) ↔
      (store.graph.outgoing baseline candidate).all isObjectId = true := by
    simp [Store.range, List.all_eq_true]
  rw [hrange, hcard, outgoingCommits]
  by_cases hbelow : store.graph.Ancestor candidate baseline
  · have hempty : store.graph.outgoing baseline candidate = [] := by
      rw [List.eq_nil_iff_forall_not_mem]
      intro oid hoid
      obtain ⟨hhead, hbase⟩ := Graph.mem_outgoing.mp hoid
      exact hbase (hhead.trans hbelow)
    simp [hempty, hbelow]
  · have hlast := Graph.getLast_outgoing hbelow
    have hne : store.graph.outgoing baseline candidate ≠ [] := by
      intro hnil
      simp [hnil] at hlast
    rw [Option.ite_none_left_eq_some, Option.some.injEq, eq_comm (b := commits)]
    simp only [hlast, hnodup, hbelow, List.isEmpty_iff, hne, Bool.or_eq_true, decide_eq_true_eq,
      ne_eq, not_true, decide_false, not_false_eq_true, true_and, false_or, not_or]
    simp
    tauto

/-- What the second pass checks of one commit. -/
def InspectPasses (s : Scans) (store : Store) (oid : String) : Prop :=
  ∀ c, store.commit oid = some c → (∀ r ∈ store.records c, ContentPasses s store r) ∧
    ∀ scope, scopeBytes s store (store.records c) scope ≤ maxAssetTreeBytes

theorem inspect_eq_nil {s : Scans} {store : Store} {blobs : List (String × Bytes)}
    {commits : List String} (hpasses : ∀ c ∈ commits, GatherPasses s store c)
    (hblobs : ∀ c ∈ commits, ∀ e ∈ store.entriesOf c,
      blobs.lookup e.oid = some ((store.blob e.oid).getD [])) :
    ∃ inspected, (commits.map fun c => (c, store.entriesOf c)).mapM
      (fun (c, entries) => inspectCommit s blobs c entries) = some inspected ∧
      (inspected.flatten = [] ↔ ∀ c ∈ commits, InspectPasses s store c) := by
  induction commits with
  | nil => exact ⟨[], rfl, by simp⟩
  | cons oid rest ih =>
    obtain ⟨inspected, hrest, hiff⟩ := ih (fun c hc => hpasses c (List.mem_cons_of_mem _ hc))
      fun c hc => hblobs c (List.mem_cons_of_mem _ hc)
    obtain ⟨c, hc, -⟩ := hpasses oid (by simp)
    have hof : store.entriesOf oid = store.entries c := by simp [Store.entriesOf, hc]
    have hblobs' := hblobs oid (by simp)
    rw [hof] at hblobs'
    obtain ⟨findings, hfindings, hnil⟩ := @inspectCommit_eq_nil s store c oid blobs hblobs'
    refine ⟨findings :: inspected, ?_, ?_⟩
    · rw [List.map_cons, List.mapM_cons, hrest]
      simp [hof, hfindings]
    · rw [List.flatten_cons, List.append_eq_nil_iff, hnil, hiff, List.forall_mem_cons]
      refine and_congr_left' ?_
      simp [InspectPasses, hc]

theorem sum_range {store : Store} {baseline candidate : String} (f : String → ℕ) :
    ((store.graph.outgoing baseline candidate).map f).sum =
      ∑ oid ∈ store.range baseline candidate, f oid :=
  (List.sum_toFinset f (store.graph.nodup_outgoing baseline candidate)).symm

theorem coherent_empty (store : Store) : Coherent store ({} : Gathered).sizes :=
  ⟨List.nodup_nil, by simp⟩

/-- After a first pass without findings the blobs decide. -/
theorem validate_of_gatherRange {s : Scans} {store : Store} {baseline candidate : String}
    {commits : List String} (hcommits : outgoingCommits store baseline candidate = some commits)
    (hrange : GatherRange s store commits {}) :
    validate s store baseline candidate = some [] ↔
      ∑ oid ∈ store.blobsOf commits.toFinset, store.size oid ≤ maxUniqueBlobBytes ∧
      ∀ c ∈ commits, InspectPasses s store c := by
  obtain ⟨g, hfold, hg⟩ := gather_passes (coherent_empty store) hrange
  have hkeys : (g.sizes.map Prod.fst).toFinset = store.blobsOf commits.toFinset := by
    ext oid
    simp [hg.oids, Store.blobsOf]
  have hentries : g.commitEntries = commits.map fun c => (c, store.entriesOf c) := by
    simp [hg.commitEntries]
  have hfindings : g.findings = [] := hg.findings
  simp only [validate, hcommits, hfold, readBlobs_eq hg.sizes, hkeys, hentries, hfindings,
    Option.bind_eq_bind, Option.bind_some, List.nil_append]
  by_cases hbytes : maxUniqueBlobBytes < ∑ oid ∈ store.blobsOf commits.toFinset, store.size oid
  · rw [if_pos hbytes]
    simp [hbytes]
  · rw [if_neg hbytes, Option.bind_some]
    have hblobs : ∀ c ∈ commits, ∀ e ∈ store.entriesOf c,
        (store.batch g.sizes).lookup e.oid = some ((store.blob e.oid).getD []) :=
      fun c hc e he => lookup_batch ((hg.oids e.oid).mpr (.inl ⟨c, hc, List.mem_map_of_mem he⟩))
    obtain ⟨inspected, hmap, hiff⟩ := inspect_eq_nil hrange.passes hblobs
    rw [hmap, Option.bind_some, Option.some.injEq, hiff]
    exact ⟨fun h => ⟨not_lt.mp hbytes, h⟩, And.right⟩

theorem gatherRange_of_validate {s : Scans} {store : Store} {baseline candidate : String}
    (h : validate s store baseline candidate = some []) :
    ∃ commits, outgoingCommits store baseline candidate = some commits ∧
      GatherRange s store commits {} := by
  simp only [validate, Option.bind_eq_bind, Option.bind_eq_some_iff, Option.some.injEq,
    List.append_eq_nil_iff] at h
  obtain ⟨commits, hcommits, g, hfold, _, -, _, -, hclean, -⟩ := h
  exact ⟨commits, hcommits, gatherRange_of_clean (coherent_empty store) (Nat.zero_le _)
    (Nat.zero_le _) rfl hfold hclean⟩

/-- `validate` succeeds exactly on the ranges all of whose commits pass. -/
theorem validate_eq_nil {s : Scans} {store : Store} {baseline candidate : String} :
    validate s store baseline candidate = some [] ↔
      ¬ store.graph.Ancestor candidate baseline ∧ RangePasses s store baseline candidate := by
  constructor
  · intro h
    obtain ⟨commits, hcommits, hrange⟩ := gatherRange_of_validate h
    obtain ⟨hbytes, hinspect⟩ := (validate_of_gatherRange hcommits hrange).mp h
    obtain ⟨hbelow, hids, hcount, rfl⟩ := outgoingCommits_eq_some.mp hcommits
    have hentries := hrange.entries
    have hinventory := hrange.inventory
    rw [sum_range] at hentries hinventory
    refine ⟨hbelow, ?_, hcount, by simpa using hentries, by simpa using hinventory, hbytes⟩
    intro oid hhead hbase
    have hmem := Graph.mem_outgoing.mpr ⟨hhead, hbase⟩
    obtain ⟨c, hc, hfirst⟩ := hrange.passes oid hmem
    exact ⟨hids oid (mem_range.mpr ⟨hhead, hbase⟩), c, hc,
      commitPasses_iff.mpr ⟨hfirst, hinspect oid hmem c hc⟩⟩
  · rintro ⟨hbelow, h⟩
    have hcommits := outgoingCommits_eq_some.mpr ⟨hbelow, fun oid hoid =>
      (h.commits oid (mem_range.mp hoid).1 (mem_range.mp hoid).2).1, h.count, rfl⟩
    have hrange : GatherRange s store (store.graph.outgoing baseline candidate) {} := by
      refine ⟨fun oid hoid => ?_, ?_, ?_⟩
      · obtain ⟨-, c, hc, hpasses⟩ := h.commits oid (Graph.mem_outgoing.mp hoid).1
          (Graph.mem_outgoing.mp hoid).2
        exact ⟨c, hc, (commitPasses_iff.mp hpasses).1⟩
      · rw [sum_range]
        simpa using h.entries
      · rw [sum_range]
        simpa using h.inventory
    refine (validate_of_gatherRange hcommits hrange).mpr ⟨h.blobs, fun oid hoid c hc => ?_⟩
    obtain ⟨-, c', hc', hpasses⟩ := h.commits oid (Graph.mem_outgoing.mp hoid).1
      (Graph.mem_outgoing.mp hoid).2
    obtain rfl := Option.some.inj (hc'.symm.trans hc)
    exact (commitPasses_iff.mp hpasses).2

/-- A full object name of a commit. -/
def Resolves (store : Store) (oid : String) : Prop :=
  isObjectId oid = true ∧ ∃ c, store.commit oid = some c

theorem resolves_iff {store : Store} {oid : String} :
    resolves store oid = true ↔ Resolves store oid := by
  rw [resolves, Bool.and_eq_true, Option.isSome_iff_exists, Resolves]

/-- Success means that every commit of the range, with every file of its full tree, passes; a
fast-forward range also lies above its base. -/
theorem publishable_iff (s : Scans) (store : Store) (baseline candidate : String) :
    (validate s store baseline candidate = some [] ↔
      ¬ store.graph.Ancestor candidate baseline ∧ RangePasses s store baseline candidate) ∧
    (main s store .fastForward baseline candidate = true ↔
      Resolves store baseline ∧ Resolves store candidate ∧ baseline ≠ candidate ∧
        store.graph.Ancestor baseline candidate ∧ RangePasses s store baseline candidate) ∧
    (main s store .pullRequest baseline candidate = true ↔
      Resolves store baseline ∧ Resolves store candidate ∧
        (∃ c, store.graph.Ancestor c baseline ∧ store.graph.Ancestor c candidate) ∧
        ¬ store.graph.Ancestor candidate baseline ∧ RangePasses s store baseline candidate) := by
  refine ⟨validate_eq_nil, ?_, ?_⟩
  · simp only [main, Bool.and_eq_true, resolves_iff, decide_eq_true_eq, validate_eq_nil,
      Graph.isAncestor_iff, and_assoc]
    constructor
    · rintro ⟨hbase, hhead, hne, hanc, -, hrange⟩
      exact ⟨hbase, hhead, hne, hanc, hrange⟩
    · rintro ⟨hbase, hhead, hne, hanc, hrange⟩
      -- two commits above each other are one
      have hbelow : ¬ store.graph.Ancestor candidate baseline := fun h => hne (store.graph.ancestor_antisymm hanc h)
      exact ⟨hbase, hhead, hne, hanc, hbelow, hrange⟩
  · simp only [main, Bool.and_eq_true, resolves_iff, decide_eq_true_eq, validate_eq_nil,
      Graph.related_iff, and_assoc]
    constructor
    · rintro ⟨hbase, hhead, -, hrelated, hbelow, hrange⟩
      exact ⟨hbase, hhead, hrelated, hbelow, hrange⟩
    · rintro ⟨hbase, hhead, hrelated, hbelow, hrange⟩
      refine ⟨hbase, hhead, ?_, hrelated, hbelow, hrange⟩
      rintro rfl
      exact hbelow .refl

/-! ## Diverging branches -/

/-- Scans with nothing to report, on paths without capitals. -/
def quietScans : Scans := ⟨id, fun _ _ _ => [], fun _ _ => none, fun _ => false, fun _ => false⟩

def rootCommit : String := "00000000000000000000000000000000000000a0"
def mainCommit : String := "00000000000000000000000000000000000000b0"
def topicCommit : String := "00000000000000000000000000000000000000c0"

/-- A commit without files. -/
def commitOf (parents : List String) : Commit where
  object := ascii "tree a0\nauthor a\ncommitter a\n\nnote\n"
  parents := parents
  tree := []

/-- `main` and a topic branch, both one commit above their merge base. -/
def divergedStore : Store where
  commit oid :=
    if oid = rootCommit then some (commitOf [])
    else if oid = mainCommit || oid = topicCommit then some (commitOf [rootCommit])
    else none
  blob _ := none
  depth oid := if oid = rootCommit then 0 else 1
  parent_depth := by
    intro oid c hc p hp
    split_ifs at hc with hroot hbranch
    · obtain rfl := Option.some.inj hc
      cases hp
    · obtain rfl := Option.some.inj hc
      obtain rfl := List.mem_singleton.mp hp
      simp [hroot]

theorem diverged_validates :
    validate quietScans divergedStore mainCommit topicCommit = some [] := by
  decide

/-- A range passes `validate` although its base is not below its head. -/
theorem diverged_publishable :
    ¬ (validate quietScans divergedStore mainCommit topicCommit = some [] ↔
      divergedStore.graph.Ancestor mainCommit topicCommit ∧
        RangePasses quietScans divergedStore mainCommit topicCommit) := by
  have hfalse : divergedStore.graph.isAncestor mainCommit topicCommit = false := by decide
  intro h
  exact divergedStore.graph.isAncestor_eq_false.mp hfalse (h.mp diverged_validates).1

end History
