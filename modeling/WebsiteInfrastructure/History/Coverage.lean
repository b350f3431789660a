import Mathlib
import WebsiteInfrastructure.History.Validation

/-!
# Coverage of a publication range

A range is published exactly when every commit of it, with every file of its full tree, passes:
neither merges nor nesting nor shared objects hide one.
-/

namespace History

open Utf8 CommitGraph

/-! ## Full trees -/

/-- A file at any depth of a tree, by the names on its path. -/
inductive Holds : List (Bytes × Node) → List Bytes → String → String → String → Prop
  | file {children : List (Bytes × Node)} {name : Bytes} {mode objectType oid : String} :
    (name, .leaf mode objectType oid) ∈ children → Holds children [name] mode objectType oid
  | inside {children sub : List (Bytes × Node)} {name : Bytes} {rest : List Bytes}
    {mode objectType oid : String} :
    (name, .tree sub) ∈ children → Holds sub rest mode objectType oid →
      Holds children (name :: rest) mode objectType oid

/-- The path that `ls-tree` prints. -/
def pathOf (names : List Bytes) : Bytes := names.foldl below []

/-- What `ls-tree` prints of a file. -/
def Store.record (store : Store) (path : Bytes) (mode objectType oid : String) : Record :=
  ⟨mode, objectType, oid, if objectType = "blob" then (store.blob oid).map List.length else none, path⟩

theorem Holds.mono {children children' : List (Bytes × Node)} (hsub : children ⊆ children')
    {names : List Bytes} {mode objectType oid : String}
    (h : Holds children names mode objectType oid) :
    Holds children' names mode objectType oid := by
  cases h with
  | file hmem => exact .file (hsub hmem)
  | inside hmem hrest => exact .inside (hsub hmem) hrest

/-- Every file is listed, however deep it lies. -/
theorem record_mem_lsTree (store : Store) {children : List (Bytes × Node)} {names : List Bytes}
    {mode objectType oid : String} (h : Holds children names mode objectType oid) (path : Bytes) :
    store.record (names.foldl below path) mode objectType oid ∈ lsTree store path children := by
  have hlist : ∀ {children : List (Bytes × Node)} {name : Bytes} {node : Node} {r : Record}
      (path : Bytes), (name, node) ∈ children → r ∈ lsNode store (below path name) node →
        r ∈ lsTree store path children := by
    intro children name node r path hmem hr
    induction children with
    | nil => cases hmem
    | cons child rest ih =>
      rw [lsTree, List.mem_append]
      rcases List.mem_cons.mp hmem with rfl | hrest
      · exact .inl hr
      · exact .inr (ih hrest)
  induction h generalizing path with
  | file hmem =>
    refine hlist path hmem ?_
    rw [lsNode]
    exact List.mem_singleton_self _
  | inside hmem _ ih =>
    refine hlist path hmem ?_
    rw [lsNode]
    exact ih _

mutual

theorem holds_of_mem_lsNode (store : Store) {path name : Bytes} {r : Record} :
    ∀ {node : Node}, r ∈ lsNode store (below path name) node →
      ∃ names mode objectType oid, Holds [(name, node)] names mode objectType oid ∧
        r = store.record (names.foldl below path) mode objectType oid
  | .leaf mode objectType oid, h => by
    rw [lsNode, List.mem_singleton] at h
    exact ⟨[name], mode, objectType, oid, .file (List.mem_singleton_self _), h⟩
  | .tree children, h => by
    rw [lsNode] at h
    obtain ⟨names, mode, objectType, oid, hholds, hr⟩ := holds_of_mem_lsTree store h
    exact ⟨name :: names, mode, objectType, oid,
      .inside (List.mem_singleton_self _) hholds, hr⟩
termination_by node => sizeOf node

/-- Only files are listed. -/
theorem holds_of_mem_lsTree (store : Store) {path : Bytes} {r : Record} :
    ∀ {children : List (Bytes × Node)}, r ∈ lsTree store path children →
      ∃ names mode objectType oid, Holds children names mode objectType oid ∧
        r = store.record (names.foldl below path) mode objectType oid
  | [], h => by
    rw [lsTree] at h
    cases h
  | (name, node) :: rest, h => by
    rw [lsTree, List.mem_append] at h
    rcases h with h | h
    · obtain ⟨names, mode, objectType, oid, hholds, hr⟩ := holds_of_mem_lsNode store h
      exact ⟨names, mode, objectType, oid, hholds.mono (by simp), hr⟩
    · obtain ⟨names, mode, objectType, oid, hholds, hr⟩ := holds_of_mem_lsTree store h
      exact ⟨names, mode, objectType, oid, hholds.mono (List.subset_cons_self _ _), hr⟩
termination_by children => sizeOf children

end

/-! ## What passes -/

/-- The path, mode and object of one file, its content aside. -/
structure RecordPasses (s : Scans) (r : Record) : Prop where
  path : ∃ relativePath, decode? r.path = some relativePath ∧ pathFindings s relativePath = [] ∧
    s.textFindings (encode relativePath) "" (isTestPath s relativePath) = []
  mode : r.mode = "100644" ∨ r.mode = "100755"
  objectType : r.objectType = "blob"
  oid : isObjectId r.oid = true
  size : ∃ size, r.size = some size ∧ size ≤ maxBlobBytes

/-- One file: its path, its mode, its object and its content. -/
structure FilePasses (s : Scans) (store : Store) (r : Record) : Prop extends RecordPasses s r where
  content : ∃ data, store.blob r.oid = some data ∧
    contentFindings s ((decode? r.path).getD "") data = []

/-- The commit object: one author, one committer, and nothing to report in any header or line. -/
structure MetadataPasses (s : Scans) (raw : Bytes) : Prop where
  length : raw.length ≤ maxCommitObjectBytes
  noNul : 0 ∉ raw
  parts : ∃ header message, splitHeader raw = some (header, message) ∧
    ((byteLines header).filter ((ascii "author ").isPrefixOf ·)).length = 1 ∧
    ((byteLines header).filter ((ascii "committer ").isPrefixOf ·)).length = 1 ∧
    s.opaqueArtifactFinding message "" = none
  utf8 : (decode? raw).isSome
  text : s.textFindings raw "" false = []

def Store.records (store : Store) (c : Commit) : List Record := lsTree store [] c.tree

def foldedPath (s : Scans) (r : Record) : String := s.casefold ((decode? r.path).getD "")

def treeBytes (records : List Record) : ℕ := (records.map fun r => r.size.getD 0).sum

/-- The sizes of the media of one approved asset tree. -/
def scopeBytes (s : Scans) (store : Store) (records : List Record) (scope : String × String) : ℕ :=
  ((records.filter fun r =>
    mediaScope s ((decode? r.path).getD "") ((store.blob r.oid).getD []) = some scope).map
      fun r => r.size.getD 0).sum

/-- A commit: its metadata, every file of its full tree, and the bounds of one tree. -/
structure CommitPasses (s : Scans) (store : Store) (c : Commit) : Prop where
  metadata : MetadataPasses s c.object
  files : ∀ names mode objectType oid, Holds c.tree names mode objectType oid →
    FilePasses s store (store.record (pathOf names) mode objectType oid)
  distinct : ((store.records c).map (foldedPath s)).Nodup
  count : (store.records c).length ≤ maxTreeEntries
  inventory : ((store.records c).map Record.inventoryBytes).sum ≤ maxTreeInventoryBytes
  bytes : treeBytes (store.records c) ≤ maxTreeBytes
  media : ∀ scope, scopeBytes s store (store.records c) scope ≤ maxAssetTreeBytes

/-! ## Commit objects -/

theorem commitMetadata_eq_nil {s : Scans} {store : Store} {commit : String} {c : Commit}
    (hc : store.commit commit = some c) :
    commitMetadata s store commit = some [] ↔ MetadataPasses s c.object := by
  simp only [commitMetadata, hc, Option.bind_eq_bind, Option.bind_some]
  constructor
  · intro h
    by_cases hbytes : (decide (maxCommitObjectBytes < c.object.length) || c.object.contains 0) = true
    · rw [if_pos hbytes] at h
      cases h
    rw [if_neg hbytes] at h
    simp only [Bool.or_eq_true, decide_eq_true_eq, not_or, not_lt, List.contains_iff_mem] at hbytes
    obtain ⟨⟨header, message⟩, hparts, h⟩ := Option.bind_eq_some_iff.mp h
    obtain ⟨hlines, h⟩ := (Option.ite_none_left_eq_some).mp h
    simp only [Bool.or_eq_true, decide_eq_true_eq, not_or, not_not] at hlines
    simp only [Option.some.injEq, List.append_eq_nil_iff, List.map_eq_nil_iff,
      Option.toList_eq_nil_iff] at h
    obtain ⟨⟨hutf8, htext⟩, hopaque⟩ := h
    refine ⟨hbytes.1, hbytes.2, ⟨header, message, hparts, hlines.1, hlines.2, hopaque⟩, ?_, htext⟩
    by_contra hnone
    rw [Option.not_isSome_iff_eq_none] at hnone
    simp [hnone] at hutf8
  · intro h
    obtain ⟨header, message, hparts, hauthor, hcommitter, hopaque⟩ := h.parts
    have hbytes : ¬ (decide (maxCommitObjectBytes < c.object.length) || c.object.contains 0) = true := by
      simp only [Bool.or_eq_true, decide_eq_true_eq, not_or, not_lt, List.contains_iff_mem]
      exact ⟨h.length, h.noNul⟩
    rw [if_neg hbytes, hparts]
    obtain ⟨text, hdecode⟩ := Option.isSome_iff_exists.mp h.utf8
    simp [hauthor, hcommitter, hopaque, h.text, hdecode]

/-! ## Trees -/

theorem recordFindings_eq_nil {s : Scans} {commit : String} {folded : List String} {r : Record} :
    recordFindings s commit folded r = [] ↔
      (∃ relativePath, decode? r.path = some relativePath ∧ pathFindings s relativePath = [] ∧
        s.textFindings (encode relativePath) "" (isTestPath s relativePath) = []) ∧
      foldedPath s r ∉ folded ∧ (r.mode = "100644" ∨ r.mode = "100755") ∧ r.objectType = "blob" := by
  cases hdecode : decode? r.path with
  | none => simp [recordFindings, hdecode]
  | some relativePath =>
    simp only [recordFindings, foldedPath, hdecode, Option.isNone_some, Option.getD_some,
      Bool.false_eq_true, if_false, List.nil_append, List.append_eq_nil_iff, List.map_eq_nil_iff,
      Option.some.injEq, exists_eq_left']
    have hmode : (if ["100644", "100755"].contains r.mode = true then []
        else [(⟨"symbolic or unsupported Git mode", commit, some r.path⟩ : Finding)]) = [] ↔
        r.mode = "100644" ∨ r.mode = "100755" := by
      simp [or_iff_not_imp_left]
    have htype : (if r.objectType = "blob" then []
        else [(⟨"non-blob Git tree entry", commit, some r.path⟩ : Finding)]) = [] ↔
        r.objectType = "blob" := by
      simp
    rw [hmode, htype]
    simp [and_assoc, and_left_comm]

/-- The entry of a record that passes. -/
def Record.entry (r : Record) : BlobEntry := ⟨r.path, (decode? r.path).getD "", r.oid, r.size.getD 0⟩

/-- One record adds a finding, or it passes and becomes an entry. -/
theorem scanRecord_findings {s : Scans} {commit : String} {t t' : TreeScan} {r : Record}
    (h : scanRecord s commit t r = some t') :
    ∃ added, t'.findings = t.findings ++ added ∧
      (added = [] → RecordPasses s r ∧ foldedPath s r ∉ t.folded ∧
        t' = ⟨t.findings, foldedPath s r :: t.folded, t.total + r.size.getD 0,
          t.entries ++ [r.entry]⟩) := by
  simp only [scanRecord] at h
  split_ifs at h with htype hoid
  · obtain rfl := Option.some.inj h
    refine ⟨_, rfl, fun hnil => ?_⟩
    exact absurd (recordFindings_eq_nil.mp hnil).2.2.2 htype
  · cases hsize : r.size with
    | none => simp [hsize] at h
    | some size =>
      simp only [hsize] at h
      split_ifs at h with hbig
      · obtain rfl := Option.some.inj h
        exact ⟨_, List.append_assoc _ _ _, fun hnil => by simp at hnil⟩
      · obtain rfl := Option.some.inj h
        refine ⟨_, rfl, fun hnil => ?_⟩
        obtain ⟨hpath, hfresh, hmode, -⟩ := recordFindings_eq_nil.mp hnil
        refine ⟨⟨hpath, hmode, not_not.mp htype, by simpa using hoid, size, hsize, not_lt.mp hbig⟩,
          hfresh, ?_⟩
        simp [hnil, foldedPath, Record.entry, hsize]

theorem scanRecord_passes {s : Scans} {commit : String} {t : TreeScan} {r : Record}
    (h : RecordPasses s r) (hfresh : foldedPath s r ∉ t.folded) :
    scanRecord s commit t r = some ⟨t.findings, foldedPath s r :: t.folded,
      t.total + r.size.getD 0, t.entries ++ [r.entry]⟩ := by
  obtain ⟨size, hsize, hle⟩ := h.size
  have hnil : recordFindings s commit t.folded r = [] :=
    recordFindings_eq_nil.mpr ⟨h.path, hfresh, h.mode, h.objectType⟩
  simp [scanRecord, h.objectType, h.oid, hsize, not_lt.mpr hle, hnil, foldedPath, Record.entry]

theorem scan_grows {s : Scans} {commit : String} {records : List Record} {t t' : TreeScan}
    (h : records.foldlM (scanRecord s commit) t = some t') :
    ∃ more, t'.findings = t.findings ++ more := by
  induction records generalizing t with
  | nil =>
    obtain rfl := Option.some.inj h
    exact ⟨[], (List.append_nil _).symm⟩
  | cons r rest ih =>
    rw [List.foldlM_cons] at h
    obtain ⟨t₁, ht₁, hrest⟩ := Option.bind_eq_some_iff.mp h
    obtain ⟨added, hadded, -⟩ := scanRecord_findings ht₁
    obtain ⟨more, hmore⟩ := ih hrest
    exact ⟨added ++ more, by rw [hmore, hadded, List.append_assoc]⟩

/-- The loop over the records of a tree, from a state without findings. -/
theorem scan_eq_nil {s : Scans} {commit : String} {records : List Record} {t t' : TreeScan}
    (hclean : t.findings = []) :
    (records.foldlM (scanRecord s commit) t = some t' ∧ t'.findings = []) ↔
      (∀ r ∈ records, RecordPasses s r) ∧ (records.map (foldedPath s)).Nodup ∧
      (∀ r ∈ records, foldedPath s r ∉ t.folded) ∧
      t' = ⟨[], (records.map (foldedPath s)).reverse ++ t.folded, t.total + treeBytes records,
        t.entries ++ records.map Record.entry⟩ := by
  induction records generalizing t with
  | nil =>
    obtain ⟨findings, folded, total, entries⟩ := t
    obtain rfl : findings = [] := hclean
    simp only [List.foldlM_nil, treeBytes, List.map_nil, List.sum_nil, List.append_nil]
    constructor
    · rintro ⟨h, -⟩
      exact ⟨by simp, by simp, by simp, (Option.some.inj h).symm⟩
    · rintro ⟨-, -, -, rfl⟩
      exact ⟨rfl, rfl⟩
  | cons r rest ih =>
    rw [List.foldlM_cons]
    constructor
    · rintro ⟨h, hnil⟩
      obtain ⟨t₁, ht₁, hrest⟩ := Option.bind_eq_some_iff.mp h
      obtain ⟨added, hadded, hpass⟩ := scanRecord_findings ht₁
      -- findings are never taken back, so this record added none
      have hgrow : ∃ more, t'.findings = t₁.findings ++ more := scan_grows hrest
      obtain ⟨more, hmore⟩ := hgrow
      rw [hnil, hadded, hclean, List.nil_append, eq_comm, List.append_eq_nil_iff] at hmore
      obtain ⟨hr, hfresh, rfl⟩ := hpass hmore.1
      obtain ⟨hall, hnodup, hnew, rfl⟩ := (ih (by exact hclean)).mp ⟨hrest, hnil⟩
      refine ⟨?_, ?_, ?_, ?_⟩
      · rintro x hx
        rcases List.mem_cons.mp hx with rfl | hx
        exacts [hr, hall x hx]
      · rw [List.map_cons, List.nodup_cons]
        refine ⟨fun hmem => ?_, hnodup⟩
        obtain ⟨x, hx, heq⟩ := List.mem_map.mp hmem
        exact hnew x hx (by simp [heq])
      · rintro x hx
        rcases List.mem_cons.mp hx with rfl | hx
        exacts [hfresh, fun hmem => hnew x hx (List.mem_cons_of_mem _ hmem)]
      · simp [treeBytes, add_assoc]
    · rintro ⟨hall, hnodup, hnew, rfl⟩
      rw [List.map_cons, List.nodup_cons] at hnodup
      rw [scanRecord_passes (hall r (by simp)) (hnew r (by simp))]
      refine (ih (by exact hclean)).mpr ⟨fun x hx => hall x (List.mem_cons_of_mem _ hx), hnodup.2, ?_, ?_⟩
      · intro x hx hmem
        rcases List.mem_cons.mp hmem with heq | hmem
        · exact hnodup.1 (heq ▸ List.mem_map_of_mem hx)
        · exact hnew x (List.mem_cons_of_mem _ hx) hmem
      · simp [treeBytes, add_assoc]

/-- What the first pass checks of a commit's tree. -/
structure Listed (s : Scans) (store : Store) (c : Commit) : Prop where
  records : ∀ r ∈ store.records c, RecordPasses s r
  distinct : ((store.records c).map (foldedPath s)).Nodup
  count : (store.records c).length ≤ maxTreeEntries
  inventory : ((store.records c).map Record.inventoryBytes).sum ≤ maxTreeInventoryBytes
  bytes : treeBytes (store.records c) ≤ maxTreeBytes

def Store.inventory (store : Store) (c : Commit) : ℕ :=
  ((store.records c).map Record.inventoryBytes).sum

def Store.entries (store : Store) (c : Commit) : List BlobEntry :=
  (store.records c).map Record.entry

theorem parseTree_eq_nil {s : Scans} {store : Store} {commit : String} {c : Commit}
    (hc : store.commit commit = some c) {entries : List BlobEntry} {inventory : ℕ} :
    parseTree s store commit = some ([], entries, inventory) ↔
      Listed s store c ∧ entries = store.entries c ∧ inventory = store.inventory c := by
  simp only [parseTree, hc, Option.bind_eq_bind, Option.bind_some, Option.ite_none_left_eq_some,
    Bool.or_eq_true, decide_eq_true_eq, not_or, not_lt, Option.bind_eq_some_iff]
  have hscan := @scan_eq_nil s commit (store.records c) {}
  constructor
  · rintro ⟨⟨hinventory, hcount⟩, t, ht, h⟩
    simp only [Option.some.injEq, Prod.mk.injEq, List.append_eq_nil_iff] at h
    obtain ⟨⟨hnil, hover⟩, rfl, rfl⟩ := h
    obtain ⟨hrecords, hdistinct, -, rfl⟩ := (hscan rfl).mp ⟨ht, hnil⟩
    have hbytes : treeBytes (store.records c) ≤ maxTreeBytes := by
      by_contra hlt
      rw [if_pos (by simpa using hlt)] at hover
      cases hover
    exact ⟨⟨hrecords, hdistinct, hcount, hinventory, hbytes⟩, List.nil_append _, rfl⟩
  · rintro ⟨hlisted, rfl, rfl⟩
    obtain ⟨ht, -⟩ := (hscan rfl).mpr ⟨hlisted.records, hlisted.distinct, by simp, rfl⟩
    refine ⟨⟨hlisted.inventory, hlisted.count⟩, _, ht, ?_⟩
    have hbytes : ¬ maxTreeBytes < 0 + treeBytes (store.records c) := by
      have := hlisted.bytes
      omega
    rw [if_neg hbytes]
    rfl

/-! ## Sizes of shared objects -/

/-- A dict of sizes as the store has them. -/
structure Coherent (store : Store) (sizes : List (String × ℕ)) : Prop where
  nodup : (sizes.map Prod.fst).Nodup
  size : ∀ p ∈ sizes, (store.blob p.1).map List.length = some p.2

/-- An entry whose size is that of its object. -/
def Sized (store : Store) (e : BlobEntry) : Prop := (store.blob e.oid).map List.length = some e.size

theorem addSize_coherent {store : Store} {sizes : List (String × ℕ)} {e : BlobEntry}
    (h : Coherent store sizes) (he : Sized store e) :
    ∃ sizes', addSize sizes e = some sizes' ∧ Coherent store sizes' ∧
      ∀ oid, oid ∈ sizes'.map Prod.fst ↔ oid = e.oid ∨ oid ∈ sizes.map Prod.fst := by
  unfold addSize
  cases hlookup : sizes.lookup e.oid with
  | some previous =>
    have hmem : (e.oid, previous) ∈ sizes := by
      obtain ⟨before, after, rfl, -⟩ := List.lookup_eq_some_iff.mp hlookup
      simp
    have hprevious : previous = e.size := Option.some.inj ((h.size _ hmem).symm.trans he)
    refine ⟨sizes, if_pos hprevious, h, fun oid => ⟨.inr, ?_⟩⟩
    rintro (rfl | hmem')
    · exact List.mem_map_of_mem hmem
    · exact hmem'
  | none =>
    have hnew : e.oid ∉ sizes.map Prod.fst := by
      intro hmem
      obtain ⟨p, hp, heq⟩ := List.mem_map.mp hmem
      have := List.lookup_eq_none_iff.mp hlookup p hp
      simp [heq] at this
    refine ⟨_, rfl, ⟨?_, ?_⟩, by simp⟩
    · rw [List.map_cons, List.nodup_cons]
      exact ⟨hnew, h.nodup⟩
    · rintro p hp
      rcases List.mem_cons.mp hp with rfl | hp
      exacts [he, h.size p hp]

/-- The sizes of one store never conflict. -/
theorem foldlM_addSize {store : Store} {entries : List BlobEntry} {sizes : List (String × ℕ)}
    (h : Coherent store sizes) (hentries : ∀ e ∈ entries, Sized store e) :
    ∃ sizes', entries.foldlM addSize sizes = some sizes' ∧ Coherent store sizes' ∧
      ∀ oid, oid ∈ sizes'.map Prod.fst ↔
        oid ∈ entries.map BlobEntry.oid ∨ oid ∈ sizes.map Prod.fst := by
  induction entries generalizing sizes with
  | nil => exact ⟨sizes, rfl, h, by simp⟩
  | cons e rest ih =>
    obtain ⟨sizes₁, hadd, hcoherent, hmem⟩ := addSize_coherent h (hentries e (by simp))
    obtain ⟨sizes', hfold, hcoherent', hmem'⟩ :=
      ih hcoherent fun x hx => hentries x (List.mem_cons_of_mem _ hx)
    refine ⟨sizes', ?_, hcoherent', fun oid => ?_⟩
    · rw [List.foldlM_cons, hadd]
      exact hfold
    · rw [hmem', hmem, List.map_cons, List.mem_cons]
      tauto

theorem sized_entries {s : Scans} {store : Store} {c : Commit} (h : Listed s store c) :
    ∀ e ∈ store.entries c, Sized store e := by
  intro e he
  obtain ⟨r, hr, rfl⟩ := List.mem_map.mp he
  obtain ⟨names, mode, objectType, oid, -, hrecord⟩ := holds_of_mem_lsTree store hr
  have hpasses := h.records r hr
  obtain ⟨size, hsize, -⟩ := hpasses.size
  have hblob : (store.blob r.oid).map List.length = r.size := by
    have htype := hpasses.objectType
    rw [hrecord] at htype ⊢
    exact (if_pos htype).symm
  rw [Sized, Record.entry, hblob, hsize]
  rfl

/-! ## The first pass -/

def Store.entriesOf (store : Store) (oid : String) : List BlobEntry :=
  match store.commit oid with
  | some c => store.entries c
  | none => []

def Store.inventoryOf (store : Store) (oid : String) : ℕ :=
  match store.commit oid with
  | some c => store.inventory c
  | none => 0

/-- What the first pass checks of one commit. -/
def GatherPasses (s : Scans) (store : Store) (oid : String) : Prop :=
  ∃ c, store.commit oid = some c ∧ MetadataPasses s c.object ∧ Listed s store c

/-- What the first pass over clean commits leads to. -/
structure Gathers (store : Store) (commits : List String) (g g' : Gathered) : Prop where
  findings : g'.findings = g.findings
  commitEntries : g'.commitEntries = g.commitEntries ++ commits.map fun c => (c, store.entriesOf c)
  entries : g'.entries = g.entries + (commits.map fun c => (store.entriesOf c).length).sum
  inventory : g'.inventory = g.inventory + (commits.map store.inventoryOf).sum
  sizes : Coherent store g'.sizes
  oids : ∀ oid, oid ∈ g'.sizes.map Prod.fst ↔
    (∃ c ∈ commits, oid ∈ (store.entriesOf c).map BlobEntry.oid) ∨ oid ∈ g.sizes.map Prod.fst

theorem Gathers.cons {store : Store} {commit : String} {rest : List String} {g g₁ g' : Gathered}
    (h : Gathers store [commit] g g₁) (h' : Gathers store rest g₁ g') :
    Gathers store (commit :: rest) g g' where
  findings := h'.findings.trans h.findings
  commitEntries := by simp [h'.commitEntries, h.commitEntries]
  entries := by simp [h'.entries, h.entries, add_assoc]
  inventory := by simp [h'.inventory, h.inventory, add_assoc]
  sizes := h'.sizes
  oids := by
    intro oid
    rw [h'.oids, h.oids]
    simp only [List.mem_cons, exists_eq_or_imp, List.not_mem_nil, or_false, exists_eq_left]
    rw [or_left_comm, or_assoc]

theorem gatherCommit_passes {s : Scans} {store : Store} {commit : String} {g : Gathered}
    (h : GatherPasses s store commit) (hsizes : Coherent store g.sizes)
    (hentries : g.entries + (store.entriesOf commit).length ≤ maxAllTreeEntries)
    (hinventory : g.inventory + store.inventoryOf commit ≤ maxAllTreeInventoriesBytes) :
    ∃ g', gatherCommit s store g commit = some g' ∧ Gathers store [commit] g g' := by
  obtain ⟨c, hc, hmetadata, hlisted⟩ := h
  have hof : store.entriesOf commit = store.entries c := by simp [Store.entriesOf, hc]
  have hinv : store.inventoryOf commit = store.inventory c := by simp [Store.inventoryOf, hc]
  obtain ⟨sizes', hfold, hcoherent, hmem⟩ := foldlM_addSize hsizes (sized_entries hlisted)
  have hmeta := (commitMetadata_eq_nil hc).mpr hmetadata
  have hparse := (parseTree_eq_nil hc).mpr ⟨hlisted, rfl, rfl⟩
  have hbounds : ¬ ((decide (maxAllTreeEntries < g.entries + (store.entries c).length) ||
      decide (maxAllTreeInventoriesBytes < g.inventory + store.inventory c)) = true) := by
    rw [hof] at hentries
    rw [hinv] at hinventory
    simp [hentries, hinventory]
  refine ⟨⟨g.findings, g.commitEntries ++ [(commit, store.entries c)], sizes',
    g.entries + (store.entries c).length, g.inventory + store.inventory c⟩, ?_, ?_⟩
  · simp only [gatherCommit, hmeta, hparse, Option.bind_eq_bind, Option.bind_some]
    rw [if_neg hbounds, hfold]
    simp
  · exact ⟨rfl, by simp [hof], by simp [hof], by simp [hinv], hcoherent, by simp [hmem, hof]⟩

/-- A commit adds a finding, or it passes within the bounds. -/
theorem gatherCommit_findings {s : Scans} {store : Store} {commit : String} {g g' : Gathered}
    (h : gatherCommit s store g commit = some g') :
    ∃ added, g'.findings = g.findings ++ added ∧ (added = [] → GatherPasses s store commit ∧
      g.entries + (store.entriesOf commit).length ≤ maxAllTreeEntries ∧
      g.inventory + store.inventoryOf commit ≤ maxAllTreeInventoriesBytes) := by
  simp only [gatherCommit, Option.bind_eq_bind, Option.bind_eq_some_iff] at h
  obtain ⟨metadata, hmetadata, ⟨findings, entries, inventory⟩, hparse, h⟩ := h
  obtain ⟨hbounds, h⟩ := (Option.ite_none_left_eq_some).mp h
  simp only [Option.bind_eq_some_iff, Option.some.injEq] at h
  obtain ⟨sizes', -, rfl⟩ := h
  refine ⟨metadata ++ findings, List.append_assoc _ _ _, fun hnil => ?_⟩
  obtain ⟨rfl, rfl⟩ := List.append_eq_nil_iff.mp hnil
  have hcommit : ∃ c, store.commit commit = some c := by
    cases hc : store.commit commit with
    | none => simp [commitMetadata, hc] at hmetadata
    | some c => exact ⟨c, rfl⟩
  obtain ⟨c, hc⟩ := hcommit
  obtain ⟨hlisted, rfl, rfl⟩ := (parseTree_eq_nil hc).mp hparse
  simp only [Bool.or_eq_true, decide_eq_true_eq, not_or, not_lt] at hbounds
  refine ⟨⟨c, hc, (commitMetadata_eq_nil hc).mp hmetadata, hlisted⟩, ?_, ?_⟩
  · simpa [Store.entriesOf, hc] using hbounds.1
  · simpa [Store.inventoryOf, hc] using hbounds.2

theorem gather_grows {s : Scans} {store : Store} {commits : List String} {g g' : Gathered}
    (h : commits.foldlM (gatherCommit s store) g = some g') :
    ∃ more, g'.findings = g.findings ++ more := by
  induction commits generalizing g with
  | nil =>
    obtain rfl := Option.some.inj h
    exact ⟨[], (List.append_nil _).symm⟩
  | cons c rest ih =>
    rw [List.foldlM_cons] at h
    obtain ⟨g₁, hg₁, hrest⟩ := Option.bind_eq_some_iff.mp h
    obtain ⟨added, hadded, -⟩ := gatherCommit_findings hg₁
    obtain ⟨more, hmore⟩ := ih hrest
    exact ⟨added ++ more, by rw [hmore, hadded, List.append_assoc]⟩

/-- Everything the first pass over a range checks. -/
structure GatherRange (s : Scans) (store : Store) (commits : List String) (g : Gathered) : Prop where
  passes : ∀ c ∈ commits, GatherPasses s store c
  entries : g.entries + (commits.map fun c => (store.entriesOf c).length).sum ≤ maxAllTreeEntries
  inventory : g.inventory + (commits.map store.inventoryOf).sum ≤ maxAllTreeInventoriesBytes

theorem gather_passes {s : Scans} {store : Store} {commits : List String} {g : Gathered}
    (hsizes : Coherent store g.sizes) (h : GatherRange s store commits g) :
    ∃ g', commits.foldlM (gatherCommit s store) g = some g' ∧ Gathers store commits g g' := by
  induction commits generalizing g with
  | nil => exact ⟨g, rfl, ⟨rfl, by simp, by simp, by simp, hsizes, by simp⟩⟩
  | cons c rest ih =>
    have hentries := h.entries
    have hinventory := h.inventory
    simp only [List.map_cons, List.sum_cons] at hentries hinventory
    obtain ⟨g₁, hg₁, hgathers⟩ :=
      gatherCommit_passes (h.passes c (by simp)) hsizes (by omega) (by omega)
    have hrest : GatherRange s store rest g₁ := by
      refine ⟨fun x hx => h.passes x (List.mem_cons_of_mem _ hx), ?_, ?_⟩
      · simp only [hgathers.entries, List.map_cons, List.map_nil, List.sum_cons, List.sum_nil]
        omega
      · simp only [hgathers.inventory, List.map_cons, List.map_nil, List.sum_cons, List.sum_nil]
        omega
    obtain ⟨g', hfold, hgathers'⟩ := ih hgathers.sizes hrest
    refine ⟨g', ?_, hgathers.cons hgathers'⟩
    rw [List.foldlM_cons, hg₁]
    exact hfold

/-- A first pass without findings has checked every commit of its list. -/
theorem gatherRange_of_clean {s : Scans} {store : Store} {commits : List String}
    {g g' : Gathered} (hsizes : Coherent store g.sizes) (hentries : g.entries ≤ maxAllTreeEntries)
    (hinventory : g.inventory ≤ maxAllTreeInventoriesBytes) (hclean : g.findings = [])
    (h : commits.foldlM (gatherCommit s store) g = some g') (hclean' : g'.findings = []) :
    GatherRange s store commits g := by
  induction commits generalizing g with
  | nil => exact ⟨by simp, by simpa using hentries, by simpa using hinventory⟩
  | cons c rest ih =>
    rw [List.foldlM_cons] at h
    obtain ⟨g₁, hg₁, hfold⟩ := Option.bind_eq_some_iff.mp h
    obtain ⟨added, hadded, hpass⟩ := gatherCommit_findings hg₁
    obtain ⟨more, hmore⟩ := gather_grows hfold
    rw [hclean', hadded, hclean, List.nil_append, eq_comm, List.append_eq_nil_iff] at hmore
    obtain ⟨hpasses, hentries₁, hinventory₁⟩ := hpass hmore.1
    obtain ⟨g₂, hg₂, hgathers⟩ := gatherCommit_passes hpasses hsizes hentries₁ hinventory₁
    have heq : g₂ = g₁ := Option.some.inj (hg₂.symm.trans hg₁)
    subst heq
    have hstep := hgathers.entries
    have hstep' := hgathers.inventory
    simp only [List.map_cons, List.map_nil, List.sum_cons, List.sum_nil, add_zero] at hstep hstep'
    have hrest : GatherRange s store rest g₂ :=
      ih hgathers.sizes (by omega) (by omega) (hgathers.findings.trans hclean) hfold
    have hrestEntries := hrest.entries
    have hrestInventory := hrest.inventory
    refine ⟨?_, ?_, ?_⟩
    · intro x hx
      rcases List.mem_cons.mp hx with rfl | hx
      exacts [hpasses, hrest.passes x hx]
    · rw [List.map_cons, List.sum_cons]
      omega
    · rw [List.map_cons, List.sum_cons]
      omega

end History
