import Mathlib
import WebsiteInfrastructure.ProtectedHost.Bindings

/-!
# What a binding identifies

Without a collision of SHA-256 two bindings are equal exactly when the metadata of the roots, the
recorded entries and the identities of the mounts are. The order in which a directory is listed,
and that of the mount options, does not matter.
-/

namespace ProtectedHost

open Json Utf8 Sha256

/-! ## Framing -/

theorem length_bigEndian (n x : ℕ) : (bigEndian n x).length = n := by
  induction n generalizing x with
  | zero => rfl
  | succ n ih => rw [bigEndian, List.length_append, ih, List.length_singleton]

theorem bigEndian_inj {n x y : ℕ} (hx : x < 256 ^ n) (hy : y < 256 ^ n)
    (h : bigEndian n x = bigEndian n y) : x = y := by
  induction n generalizing x y with
  | zero => omega
  | succ n ih =>
    rw [bigEndian, bigEndian] at h
    obtain ⟨hhigh, hlow⟩ := List.append_inj h (by rw [length_bigEndian, length_bigEndian])
    rw [pow_succ] at hx hy
    have hquotient : x / 256 = y / 256 := ih (by omega) (by omega) hhigh
    have hremainder : x % 256 = y % 256 := by
      have := congrArg UInt8.toNat (List.cons.inj hlow).1
      simpa [UInt8.toNat_ofNat'] using this
    omega

/-- Short enough for four bytes of length. -/
def Fits (serialized : Bytes) : Prop := serialized.length < 256 ^ 4

theorem framed_append_inj {a b rest rest' : Bytes} (ha : Fits a) (hb : Fits b)
    (h : framed a ++ rest = framed b ++ rest') : a = b ∧ rest = rest' := by
  rw [framed, framed, List.append_assoc, List.append_assoc] at h
  obtain ⟨hlength, hrest⟩ := List.append_inj h (by rw [length_bigEndian, length_bigEndian])
  exact List.append_inj hrest (bigEndian_inj ha hb hlength)

theorem flatMap_framed_inj {xs ys : List Bytes} (hxs : ∀ x ∈ xs, Fits x) (hys : ∀ y ∈ ys, Fits y)
    (h : xs.flatMap framed = ys.flatMap framed) : xs = ys := by
  have hne : ∀ x : Bytes, framed x ≠ [] := by
    intro x heq
    have := congrArg List.length heq
    rw [framed, List.length_append, length_bigEndian, List.length_nil] at this
    omega
  induction xs generalizing ys with
  | nil =>
    cases ys with
    | nil => rfl
    | cons y ys => simp [hne] at h
  | cons x xs ih =>
    cases ys with
    | nil => simp [hne] at h
    | cons y ys =>
      rw [List.forall_mem_cons] at hxs hys
      rw [List.flatMap_cons, List.flatMap_cons] at h
      obtain ⟨rfl, hrest⟩ := framed_append_inj hxs.1 hys.1 h
      rw [ih hxs.2 hys.2 hrest]

/-! ## Serialized records -/

theorem serialize_inj {v w : Payload} (hv : v.isJoined = true) (hw : w.isJoined = true)
    (h : serialize v = serialize w) : v = w := by
  have htext := encode_injective h
  rw [String.ofList_inj] at htext
  exact write_inj hv hw htext

theorem entryRecord_isJoined (nameSha256 : String) (metadata : EntryMetadata) :
    (entryRecord nameSha256 metadata).isJoined = true := by
  simp [entryRecord, Value.isJoined, joinedFields, Value.text, Text.isJoined_scalar]

theorem entryRecord_inj {name name' : String} {metadata metadata' : EntryMetadata}
    (h : entryRecord name metadata = entryRecord name' metadata') :
    name = name' ∧ metadata = metadata' := by
  simp only [entryRecord, Value.text, Value.obj.injEq, List.cons.injEq, Prod.mk.injEq, true_and,
    Value.int.injEq, Value.str.injEq, Text.scalar.injEq, Int.natCast_inj, and_true] at h
  obtain ⟨hctime, hgid, hinode, hmode, hmtime, hname, hnlink, hsize, htype, huid⟩ := h
  cases metadata
  cases metadata'
  simp_all

/-! ## The order of the tuples -/

theorem EntryTuple.key_injective : Function.Injective EntryTuple.key := by
  intro s t h
  simp only [EntryTuple.key, EmbeddingLike.apply_eq_iff_eq, Prod.mk.injEq] at h
  obtain ⟨hname, hstate, hserialized⟩ := h
  have hstate' : s.state = t.state := by
    simp only [Stat.tuple, List.cons.injEq, Int.natCast_inj, and_true] at hstate
    obtain ⟨h1, h2, h3, h4, h5, h6, h7, h8, h9⟩ := hstate
    cases s with
    | mk name state serialized =>
      cases t with
      | mk name' state' serialized' =>
        cases state
        cases state'
        simp_all
  have hname' : s.nameSha256 = t.nameSha256 :=
    String.toList_inj.mp (List.map_injective_iff.mpr (fun _ _ => Char.toNat_inj.mp) hname)
  have hserialized' : s.serialized = t.serialized :=
    List.map_injective_iff.mpr (fun _ _ => UInt8.toNat_inj.mp) hserialized
  cases s
  cases t
  simp_all

theorem sortedRecords_perm (records : List EntryTuple) : (sortedRecords records).Perm records :=
  List.perm_insertionSort _ _

theorem sortedRecords_pairwise (records : List EntryTuple) :
    (sortedRecords records).Pairwise fun s t => s.key ≤ t.key :=
  List.pairwise_insertionSort _ _

/-- The records are sorted the same whatever order they come in. -/
theorem sortedRecords_eq_of_perm {records records' : List EntryTuple} (h : records.Perm records') :
    sortedRecords records = sortedRecords records' := by
  have hperm := ((sortedRecords_perm records).trans h).trans (sortedRecords_perm records').symm
  refine hperm.eq_of_pairwise (fun s t _ _ hst hts => ?_) (sortedRecords_pairwise records)
    (sortedRecords_pairwise records')
  exact EntryTuple.key_injective (le_antisymm hst hts)

/-! ## The manifest -/

/-- An entry as the manifest records it. -/
abbrev Recorded := Bytes × EntryMetadata

/-- What of a tuple reaches the manifest, and what it is sorted by first. -/
def EntryTuple.shown (t : EntryTuple) : String × Bytes := (t.nameSha256, t.serialized)

def shownOf (e : Recorded) : String × Bytes :=
  (hexdigest e.1, serialize (entryRecord (hexdigest e.1) e.2))

theorem shown_entryTuple (name : Bytes) (state : Stat) :
    (entryTuple name state).shown = shownOf (name, state.recorded) := rfl

theorem shownOf_inj {messages : Set Bytes} (hfree : Set.InjOn hexdigest messages) {e f : Recorded}
    (he : e.1 ∈ messages) (hf : f.1 ∈ messages) (h : (shownOf e).2 = (shownOf f).2) : e = f := by
  have hvalues := serialize_inj (entryRecord_isJoined _ _) (entryRecord_isJoined _ _) h
  obtain ⟨hname, hmetadata⟩ := entryRecord_inj hvalues
  exact Prod.ext (hfree he hf hname) hmetadata

/-- Tuples with names of their own are shown in the order of the names. -/
theorem shown_pairwise {records : List EntryTuple}
    (hnodup : (records.map EntryTuple.nameSha256).Nodup) :
    ((sortedRecords records).map EntryTuple.shown).Pairwise fun s t =>
      s.1.toList.map Char.toNat < t.1.toList.map Char.toNat := by
  have hdistinct : ((sortedRecords records).map EntryTuple.nameSha256).Nodup :=
    (((sortedRecords_perm records).map _).nodup_iff).mpr hnodup
  rw [List.Nodup, List.pairwise_map] at hdistinct
  rw [List.pairwise_map]
  refine ((sortedRecords_pairwise records).and hdistinct).imp fun {s t} hst => ?_
  obtain ⟨hle, hne⟩ := hst
  have hfirst : s.nameSha256.toList.map Char.toNat ≠ t.nameSha256.toList.map Char.toNat :=
    fun heq => hne (String.toList_inj.mp
      (List.map_injective_iff.mpr (fun _ _ => Char.toNat_inj.mp) heq))
  rcases Prod.Lex.toLex_le_toLex.mp hle with hlt | ⟨heq, -⟩
  · exact hlt
  · exact absurd heq hfirst

/-- The names and the recorded metadata decide what is shown, whatever else the states hold. -/
theorem shown_eq_of_perm {records records' : List EntryTuple}
    (hnodup : (records.map EntryTuple.nameSha256).Nodup)
    (hnodup' : (records'.map EntryTuple.nameSha256).Nodup)
    (h : (records.map EntryTuple.shown).Perm (records'.map EntryTuple.shown)) :
    (sortedRecords records).map EntryTuple.shown =
      (sortedRecords records').map EntryTuple.shown := by
  have hperm := (((sortedRecords_perm records).map EntryTuple.shown).trans h).trans
    ((sortedRecords_perm records').map EntryTuple.shown).symm
  refine hperm.eq_of_pairwise (fun s t _ _ hst hts => ?_) (shown_pairwise hnodup)
    (shown_pairwise hnodup')
  exact absurd hts (lt_asymm hst)

theorem topLevelManifest_eq (records : List EntryTuple) : topLevelManifest records =
    encode "protected-legacy-top-level-v1" ++ 0 ::
      (((sortedRecords records).map EntryTuple.shown).map Prod.snd).flatMap framed := by
  rw [topLevelManifest, List.map_map, List.flatMap_map]
  rfl

theorem topLevelManifest_inj {records records' : List EntryTuple}
    (hfits : ∀ r ∈ records, Fits r.serialized) (hfits' : ∀ r ∈ records', Fits r.serialized)
    (h : topLevelManifest records = topLevelManifest records') :
    (sortedRecords records).map EntryTuple.serialized =
      (sortedRecords records').map EntryTuple.serialized := by
  rw [topLevelManifest_eq, topLevelManifest_eq, List.append_cancel_left_eq, List.cons.injEq,
    List.map_map, List.map_map] at h
  refine flatMap_framed_inj ?_ ?_ h.2
  · intro x hx
    obtain ⟨r, hr, rfl⟩ := List.mem_map.mp hx
    exact hfits r ((sortedRecords_perm records).mem_iff.mp hr)
  · intro x hx
    obtain ⟨r, hr, rfl⟩ := List.mem_map.mp hx
    exact hfits' r ((sortedRecords_perm records').mem_iff.mp hr)

/-! ## The mount in the payload -/

def MountIdentity.texts (i : MountIdentity) : List Text :=
  i.filesystemType :: i.target :: (i.options ++ i.uuid.toList ++ i.partuuid.toList ++
    i.sourceFallback.toList ++ i.sourceSubpath.toList)

theorem joinedFields_append (fs gs : List (Text × Payload)) :
    joinedFields (fs ++ gs) = (joinedFields fs && joinedFields gs) := by
  induction fs with
  | nil => simp [joinedFields]
  | cons f fs ih => simp [joinedFields, ih, Bool.and_assoc]

theorem joinedFields_optionalField {key : String} {t : Option Text}
    (h : ∀ u ∈ t.toList, u.isJoined = true) : joinedFields (optionalField key t) = true := by
  cases t with
  | none => rfl
  | some u =>
    simpa [optionalField, joinedFields, Value.isJoined, Text.isJoined_scalar] using h u (by simp)

theorem joinedItems_str {ts : List Text} (h : ∀ t ∈ ts, t.isJoined = true) :
    joinedItems (ts.map fun t => (.str t : Payload)) = true := by
  induction ts with
  | nil => rfl
  | cons t ts ih =>
    rw [List.forall_mem_cons] at h
    simp [joinedItems, Value.isJoined, h.1, ih h.2]

theorem MountIdentity.toValue_isJoined {i : MountIdentity}
    (h : ∀ t ∈ i.texts, t.isJoined = true) : i.toValue.isJoined = true := by
  have hmem : ∀ {ts : List Text}, ts ⊆ i.texts → ∀ t ∈ ts, t.isJoined = true :=
    fun hsub t ht => h t (hsub ht)
  have hstable : joinedFields i.stableIds = true := by
    rw [stableIds, joinedFields_append, joinedFields_optionalField, joinedFields_optionalField]
    · rfl
    · exact hmem fun t ht => by simp only [texts, List.mem_cons, List.mem_append]; tauto
    · exact hmem fun t ht => by simp only [texts, List.mem_cons, List.mem_append]; tauto
  have hoptional : joinedFields (if i.stableIds = [] then [] else
      [(.scalar "stable_ids", .obj i.stableIds)] : List (Text × Payload)) = true := by
    split_ifs
    · rfl
    · simp [joinedFields, Value.isJoined, Text.isJoined_scalar, hstable]
  have hoptions : joinedItems (i.options.map fun t => (.str t : Payload)) = true :=
    joinedItems_str (hmem fun t ht => by
      simp only [texts, List.mem_cons, List.mem_append]
      tauto)
  have hfallback : joinedFields (optionalField "source_fallback" i.sourceFallback) = true :=
    joinedFields_optionalField (hmem fun t ht => by
      simp only [texts, List.mem_cons, List.mem_append]
      tauto)
  have hsubpath : joinedFields (optionalField "source_subpath" i.sourceSubpath) = true :=
    joinedFields_optionalField (hmem fun t ht => by
      simp only [texts, List.mem_cons, List.mem_append]
      tauto)
  have htype := h i.filesystemType (by simp [texts])
  have htarget := h i.target (by simp [texts])
  simp only [toValue, Value.isJoined, joinedFields_append, joinedFields, hoptional, hfallback,
    hsubpath, hoptions, htype, htarget, Text.isJoined_scalar, Bool.and_self]

theorem str_injective : Function.Injective fun t : Text => (.str t : Payload) := by
  intro s t h
  simpa using h

theorem lookup_optionalField (key other : String) (t : Option Text) :
    (optionalField other t).lookup (.scalar key) =
      if key = other then t.map fun t => (.str t : Payload) else none := by
  cases t with
  | none => simp [optionalField]
  | some t =>
    by_cases heq : key = other
    · simp [optionalField, heq]
    · have hne : (Text.scalar key == Text.scalar other) = false := by simpa using heq
      simp [optionalField, List.lookup_cons, hne, heq]

/-- What stands under a key of the mount. -/
theorem MountIdentity.get?_toValue (i : MountIdentity) (key : String) :
    i.toValue.get? key =
      if key = "filesystem_type" then some (.str i.filesystemType)
      else if key = "options" then some (.arr (i.options.map .str))
      else if key = "source_fallback" then i.sourceFallback.map .str
      else if key = "source_subpath" then i.sourceSubpath.map .str
      else if key = "stable_ids" then (if i.stableIds = [] then none else some (.obj i.stableIds))
      else if key = "target" then some (.str i.target)
      else none := by
  have hlookup : ∀ (other : String) (v : Payload), [(Text.scalar other, v)].lookup (.scalar key) =
      if key = other then some v else none := by
    intro other v
    by_cases heq : key = other
    · simp [heq]
    · have hne : (Text.scalar key == Text.scalar other) = false := by simpa using heq
      simp [List.lookup_cons, hne, heq]
  have hstable : (if i.stableIds = [] then [] else
      [(Text.scalar "stable_ids", (.obj i.stableIds : Payload))]).lookup (.scalar key) =
      if key = "stable_ids" then (if i.stableIds = [] then none else some (.obj i.stableIds))
      else none := by
    split_ifs with hnone hkey hkey
    · rfl
    · rfl
    · rw [hlookup, if_pos hkey]
    · rw [hlookup, if_neg hkey]
  have hfirst : [(Text.scalar "filesystem_type", (.str i.filesystemType : Payload)),
      (.scalar "options", .arr (i.options.map .str))] =
        [(.scalar "filesystem_type", .str i.filesystemType)] ++
          [(.scalar "options", .arr (i.options.map .str))] := rfl
  rw [toValue, Value.get?, hfirst]
  simp only [List.lookup_append, lookup_optionalField, hlookup, hstable]
  by_cases h1 : key = "filesystem_type"
  · simp [h1]
  by_cases h2 : key = "options"
  · simp [h2]
  by_cases h3 : key = "source_fallback"
  · simp [h3]
  by_cases h4 : key = "source_subpath"
  · simp [h4]
  by_cases h5 : key = "stable_ids"
  · simp [h5]
  · simp [h1, h2, h3, h4, h5]

theorem MountIdentity.stableIds_inj {i j : MountIdentity} (h : i.stableIds = j.stableIds) :
    i.uuid = j.uuid ∧ i.partuuid = j.partuuid := by
  have hget : ∀ (k : MountIdentity) (key : String), k.stableIds.lookup (.scalar key) =
      if key = "partuuid" then k.partuuid.map fun t => (.str t : Payload)
      else if key = "uuid" then k.uuid.map .str else none := by
    intro k key
    rw [stableIds, List.lookup_append, lookup_optionalField, lookup_optionalField]
    by_cases hkey : key = "partuuid"
    · simp [hkey]
    · simp [hkey]
  constructor
  · have huuid := congrArg (List.lookup (.scalar "uuid")) h
    rw [hget, hget] at huuid
    exact Option.map_injective str_injective (by simpa using huuid)
  · have hpartuuid := congrArg (List.lookup (.scalar "partuuid")) h
    rw [hget, hget] at hpartuuid
    exact Option.map_injective str_injective (by simpa using hpartuuid)

theorem MountIdentity.toValue_injective : Function.Injective MountIdentity.toValue := by
  intro i j h
  have hget : ∀ key, i.toValue.get? key = j.toValue.get? key := fun key => by rw [h]
  have htype := hget "filesystem_type"
  have hoptions := hget "options"
  have hfallback := hget "source_fallback"
  have hsubpath := hget "source_subpath"
  have hstable := hget "stable_ids"
  have htarget := hget "target"
  simp only [get?_toValue] at htype hoptions hfallback hsubpath hstable htarget
  have hids : i.stableIds = j.stableIds := by
    simp only [String.reduceEq, if_false, if_true] at hstable
    split_ifs at hstable with hi hj hj
    · rw [hi, hj]
    · simpa using hstable
  obtain ⟨huuid, hpartuuid⟩ := stableIds_inj hids
  simp only [String.reduceEq, if_false, if_true] at htype hoptions hfallback hsubpath htarget
  have htype' : i.filesystemType = j.filesystemType := by simpa using htype
  have htarget' : i.target = j.target := by simpa using htarget
  have hoptions' : i.options = j.options :=
    List.map_injective_iff.mpr str_injective (by simpa using hoptions)
  have hfallback' := Option.map_injective str_injective hfallback
  have hsubpath' := Option.map_injective str_injective hsubpath
  cases i
  cases j
  simp_all

/-! ## The payload -/

theorem archiveBindingPayload_isJoined (metadata : Stat) {identity : MountIdentity}
    (h : ∀ t ∈ identity.texts, t.isJoined = true) (topLevel : TopLevel) :
    (archiveBindingPayload metadata identity topLevel).isJoined = true := by
  simp [archiveBindingPayload, RootMetadata.toValue, TopLevel.toValue, Value.isJoined, joinedFields,
    Value.text, Text.isJoined_scalar, MountIdentity.toValue_isJoined h]

theorem archiveBindingPayload_inj {metadata metadata' : Stat} {identity identity' : MountIdentity}
    {topLevel topLevel' : TopLevel}
    (h : archiveBindingPayload metadata identity topLevel =
      archiveBindingPayload metadata' identity' topLevel') :
    metadata.rootMetadata = metadata'.rootMetadata ∧ identity = identity' ∧
      topLevel = topLevel' := by
  simp only [archiveBindingPayload, Value.obj.injEq, List.cons.injEq, Prod.mk.injEq, true_and,
    and_true] at h
  obtain ⟨hmount, hroot, htop⟩ := h
  refine ⟨?_, MountIdentity.toValue_injective hmount, ?_⟩
  · generalize metadata.rootMetadata = m at hroot
    generalize metadata'.rootMetadata = m' at hroot
    simp only [RootMetadata.toValue, Value.obj.injEq, List.cons.injEq, Prod.mk.injEq, true_and,
      Value.int.injEq, Int.natCast_inj, and_true] at hroot
    cases m
    cases m'
    simp_all
  · simp only [TopLevel.toValue, Value.text, Value.obj.injEq, List.cons.injEq, Prod.mk.injEq,
      true_and, Value.int.injEq, Value.str.injEq, Text.scalar.injEq, Int.natCast_inj,
      and_true] at htop
    cases topLevel
    cases topLevel'
    simp_all

theorem archiveBindingPayload_congr {metadata metadata' : Stat}
    (h : metadata.rootMetadata = metadata'.rootMetadata) (identity : MountIdentity)
    (topLevel : TopLevel) : archiveBindingPayload metadata identity topLevel =
      archiveBindingPayload metadata' identity topLevel := by
  rw [archiveBindingPayload, archiveBindingPayload, h]

/-! ## Archives -/

/-- The same row with the mount options in another order. -/
def Row.Reordered (row other : Row) : Prop :=
  { row with options := other.options } = other ∧ row.optionList.Perm other.optionList

/-- The state of an archive directory and of its mount. -/
structure Archive where
  path : String
  root : Stat
  entries : Bytes → Option Stat
  mount : MountReads
  row : Row

/-- The names and the recorded metadata of the entries. -/
def Archive.recorded (a : Archive) : Set Recorded :=
  {e | ∃ state, a.entries e.1 = some state ∧ e.2 = state.recorded}

/-- The list enumerates the entries. -/
def Archive.Lists (a : Archive) (names : List Bytes) : Prop :=
  names.Nodup ∧ ∀ n, n ∈ names ↔ (a.entries n).isSome = true

/-- The tuple of an entry that is no symbolic link. -/
def Archive.tuple (a : Archive) (name : Bytes) : Option EntryTuple := do
  let state ← a.entries name
  guard (¬ state.isLnk)
  some (entryTuple name state)

/-- The tuples in the order of a listing. -/
def Archive.tuples (a : Archive) (names : List Bytes) : List EntryTuple := names.filterMap a.tuple

/-- What is asked of the entries. -/
structure Archive.Fine (a : Archive) (names : List Bytes) : Prop where
  short : names.length ≤ maxArchiveTopLevelEntries
  named : names.all isEntryName = true
  nonempty : names ≠ []
  regular : ∀ n ∈ names, (a.tuple n).isSome = true
  small : ((a.tuples names).map fun r => r.serialized.length + 4).sum ≤
    maxArchiveTopLevelManifestBytes

theorem Archive.Lists.perm {a : Archive} {names names' : List Bytes} (h : a.Lists names)
    (h' : a.Lists names') : names.Perm names' :=
  (List.perm_ext_iff_of_nodup h.1 h'.1).mpr fun n => (h.2 n).trans (h'.2 n).symm

theorem Archive.Fine.of_perm {a : Archive} {names names' : List Bytes} (h : a.Fine names)
    (hperm : names.Perm names') : a.Fine names' where
  short := hperm.length_eq ▸ h.short
  named := by
    rw [List.all_eq_true]
    exact fun n hn => List.all_eq_true.mp h.named n (hperm.mem_iff.mpr hn)
  nonempty := by
    rintro rfl
    exact h.nonempty hperm.eq_nil
  regular := fun n hn => h.regular n (hperm.mem_iff.mpr hn)
  small := by
    have hsum := ((hperm.filterMap a.tuple).map fun r => r.serialized.length + 4).sum_eq
    exact hsum ▸ h.small

theorem mapM_eq_some {α β : Type} {f : α → Option β} {xs : List α} {ys : List β} :
    xs.mapM f = some ys ↔ (∀ x ∈ xs, (f x).isSome = true) ∧ ys = xs.filterMap f := by
  induction xs generalizing ys with
  | nil =>
    rw [List.mapM_nil, Option.pure_def, Option.some.injEq, List.filterMap_nil]
    exact ⟨fun h => ⟨by simp, h.symm⟩, fun h => h.2.symm⟩
  | cons x xs ih =>
    rw [List.mapM_cons, List.forall_mem_cons]
    cases hx : f x with
    | none => simp
    | some y =>
      simp only [Option.bind_eq_bind, Option.bind_some, Option.bind_eq_some_iff, ih,
        Option.isSome_some, true_and, List.filterMap_cons_some hx, pure, Option.some.injEq]
      constructor
      · rintro ⟨zs, ⟨hall, rfl⟩, rfl⟩
        exact ⟨hall, rfl⟩
      · rintro ⟨hall, rfl⟩
        exact ⟨_, ⟨hall, rfl⟩, rfl⟩

theorem Archive.tuple_eq_some {a : Archive} {name : Bytes} {t : EntryTuple} :
    a.tuple name = some t ↔
      ∃ state, a.entries name = some state ∧ state.isLnk = false ∧ t = entryTuple name state := by
  simp only [Archive.tuple, Option.bind_eq_bind, Option.bind_eq_some_iff, Option.guard_eq_some',
    Bool.not_eq_true, Option.some.injEq]
  constructor
  · rintro ⟨state, hstate, -, hlnk, rfl⟩
    exact ⟨state, hstate, hlnk, rfl⟩
  · rintro ⟨state, hstate, hlnk, rfl⟩
    exact ⟨state, hstate, (), hlnk, rfl⟩

/-! ## The recorded entries -/

section Recorded

variable {a : Archive} {names : List Bytes}

/-- The recorded entries in the order of a listing. -/
def Archive.pairs (a : Archive) (names : List Bytes) : List Recorded :=
  names.filterMap fun n => (a.entries n).map fun state => (n, state.recorded)

theorem Archive.mem_pairs {e : Recorded} : e ∈ a.pairs names ↔ e.1 ∈ names ∧ e ∈ a.recorded := by
  simp only [Archive.pairs, List.mem_filterMap, Option.map_eq_some_iff, Archive.recorded,
    Set.mem_ofPred_eq]
  constructor
  · rintro ⟨n, hn, state, hstate, rfl⟩
    exact ⟨hn, state, hstate, rfl⟩
  · rintro ⟨hn, state, hstate, heq⟩
    exact ⟨e.1, hn, state, hstate, Prod.ext rfl heq.symm⟩

theorem Archive.mem_pairs_of_lists (h : a.Lists names) {e : Recorded} :
    e ∈ a.pairs names ↔ e ∈ a.recorded := by
  rw [Archive.mem_pairs, and_iff_right_of_imp]
  rintro ⟨state, hstate, -⟩
  exact (h.2 e.1).mpr (by rw [hstate]; rfl)

theorem Archive.recorded_unique {e f : Recorded} (he : e ∈ a.recorded) (hf : f ∈ a.recorded)
    (h : e.1 = f.1) : e = f := by
  obtain ⟨state, hstate, hmetadata⟩ := he
  obtain ⟨state', hstate', hmetadata'⟩ := hf
  rw [h, hstate', Option.some.injEq] at hstate
  exact Prod.ext h (by rw [hmetadata, hmetadata', hstate])

theorem Archive.pairs_nodup (h : a.Lists names) : (a.pairs names).Nodup := by
  refine h.1.filterMap fun n n' e he he' => ?_
  obtain ⟨state, -, rfl⟩ := Option.map_eq_some_iff.mp he
  obtain ⟨state', -, heq⟩ := Option.map_eq_some_iff.mp he'
  exact (congrArg Prod.fst heq).symm

theorem Archive.shown_tuples (hregular : ∀ n ∈ names, (a.tuple n).isSome = true) :
    (a.tuples names).map EntryTuple.shown = (a.pairs names).map shownOf := by
  induction names with
  | nil => rfl
  | cons n names ih =>
    rw [List.forall_mem_cons] at hregular
    obtain ⟨t, ht⟩ := Option.isSome_iff_exists.mp hregular.1
    obtain ⟨state, hstate, -, rfl⟩ := Archive.tuple_eq_some.mp ht
    have hpair : (a.entries n).map (fun state => (n, state.recorded)) = some (n, state.recorded) := by
      rw [hstate]
      rfl
    have hpairs : a.pairs (n :: names) = (n, state.recorded) :: a.pairs names :=
      List.filterMap_cons_some hpair
    have htuples : a.tuples (n :: names) = entryTuple n state :: a.tuples names :=
      List.filterMap_cons_some ht
    rw [hpairs, htuples, List.map_cons, List.map_cons, ih hregular.2, shown_entryTuple]

/-- The hashes of the names differ where SHA-256 tells the names apart. -/
theorem Archive.nodup_nameSha256 {M : Set Bytes} (hfree : Set.InjOn hexdigest M)
    (hlists : a.Lists names) (hfine : a.Fine names) (hM : ∀ n ∈ names, n ∈ M) :
    ((a.tuples names).map EntryTuple.nameSha256).Nodup := by
  have hfirst : (a.tuples names).map EntryTuple.nameSha256 =
      (a.pairs names).map fun e => hexdigest e.1 := by
    have := congrArg (List.map Prod.fst) (a.shown_tuples hfine.regular)
    simpa [List.map_map, Function.comp_def, EntryTuple.shown, shownOf] using this
  rw [hfirst]
  refine (Archive.pairs_nodup hlists).map_on fun e he f hf heq => ?_
  obtain ⟨hname, hrecorded⟩ := Archive.mem_pairs.mp he
  obtain ⟨hname', hrecorded'⟩ := Archive.mem_pairs.mp hf
  exact Archive.recorded_unique hrecorded hrecorded' (hfree (hM _ hname) (hM _ hname') heq)

/-- A manifest below the limit only holds records whose length takes four bytes. -/
theorem Archive.Fine.fits (h : a.Fine names) : ∀ r ∈ a.tuples names, Fits r.serialized := by
  intro r hr
  have hle := List.single_le_sum (fun _ _ => Nat.zero_le _) _
    (List.mem_map_of_mem (f := fun r : EntryTuple => r.serialized.length + 4) hr)
  have hsmall := h.small
  unfold maxArchiveTopLevelManifestBytes at hsmall
  unfold Fits
  omega

theorem Archive.recorded_subset {b : Archive} {names' : List Bytes} {M : Set Bytes}
    (hfree : Set.InjOn hexdigest M) (hlists : a.Lists names)
    (hfine : a.Fine names) (hfine' : b.Fine names') (hM : ∀ n ∈ names, n ∈ M)
    (hM' : ∀ n ∈ names', n ∈ M)
    (h : (sortedRecords (a.tuples names)).map EntryTuple.serialized =
      (sortedRecords (b.tuples names')).map EntryTuple.serialized) : a.recorded ⊆ b.recorded := by
  intro e he
  have hserialized : ∀ (c : Archive) (ns : List Bytes), c.Fine ns →
      ((sortedRecords (c.tuples ns)).map EntryTuple.serialized).Perm
        ((c.pairs ns).map fun e => (shownOf e).2) := by
    intro c ns hc
    have hshown := congrArg (List.map Prod.snd) (c.shown_tuples hc.regular)
    rw [List.map_map, List.map_map] at hshown
    exact ((sortedRecords_perm _).map _).trans (List.Perm.of_eq hshown)
  have hmem : (shownOf e).2 ∈ (a.pairs names).map fun e => (shownOf e).2 :=
    List.mem_map_of_mem ((Archive.mem_pairs_of_lists hlists).mpr he)
  rw [← (hserialized a names hfine).mem_iff, h, (hserialized b names' hfine').mem_iff] at hmem
  obtain ⟨f, hf, heq⟩ := List.mem_map.mp hmem
  obtain ⟨hname, hrecorded⟩ := Archive.mem_pairs.mp hf
  have hname' := (Archive.mem_pairs.mp ((Archive.mem_pairs_of_lists hlists).mpr he)).1
  obtain rfl := shownOf_inj hfree (hM' _ hname) (hM _ hname') heq
  exact hrecorded

/-- Two manifests have one digest exactly when the same entries are recorded. -/
theorem Archive.topLevel_eq_iff {b : Archive} {names' : List Bytes} {M : Set Bytes}
    (hfree : Set.InjOn hexdigest M) (hlists : a.Lists names) (hlists' : b.Lists names')
    (hfine : a.Fine names) (hfine' : b.Fine names') (hM : ∀ n ∈ names, n ∈ M)
    (hM' : ∀ n ∈ names', n ∈ M) (hmanifest : topLevelManifest (a.tuples names) ∈ M)
    (hmanifest' : topLevelManifest (b.tuples names') ∈ M) :
    (⟨(a.tuples names).length, hexdigest (topLevelManifest (a.tuples names))⟩ : TopLevel) =
      ⟨(b.tuples names').length, hexdigest (topLevelManifest (b.tuples names'))⟩ ↔
        a.recorded = b.recorded := by
  rw [TopLevel.mk.injEq]
  constructor
  · rintro ⟨-, hdigest⟩
    have hserialized := topLevelManifest_inj hfine.fits hfine'.fits
      (hfree hmanifest hmanifest' hdigest)
    exact Set.Subset.antisymm
      (Archive.recorded_subset hfree hlists hfine hfine' hM hM' hserialized)
      (Archive.recorded_subset hfree hlists' hfine' hfine hM' hM hserialized.symm)
  · intro hrecorded
    have hpairs : (a.pairs names).Perm (b.pairs names') := by
      refine (List.perm_ext_iff_of_nodup (Archive.pairs_nodup hlists)
        (Archive.pairs_nodup hlists')).mpr fun e => ?_
      rw [Archive.mem_pairs_of_lists hlists, Archive.mem_pairs_of_lists hlists', hrecorded]
    have hshown : ((a.tuples names).map EntryTuple.shown).Perm
        ((b.tuples names').map EntryTuple.shown) := by
      rw [Archive.shown_tuples hfine.regular, Archive.shown_tuples hfine'.regular]
      exact hpairs.map shownOf
    have hsorted := shown_eq_of_perm (Archive.nodup_nameSha256 hfree hlists hfine hM)
      (Archive.nodup_nameSha256 hfree hlists' hfine' hM') hshown
    refine ⟨by simpa using hshown.length_eq, ?_⟩
    rw [topLevelManifest_eq, topLevelManifest_eq, hsorted]

end Recorded

/-! ## Passes -/

/-- A pass that finds this archive: entries and options come in some order. -/
structure Sees (F : Type) [Interpreter F] (reads : BindingReads) (a : Archive) : Prop where
  opened : reads.opened = some ⟨a.root, a.root⟩
  mount : reads.mount = a.mount
  findmnt : ∃ row, findmntRow F reads.findmnt = some row ∧ row.Reordered a.row
  rootBefore : reads.directory.rootBefore = some a.root
  listing : ∃ names, reads.directory.listing = some names ∧ a.Lists names
  entryBefore : reads.directory.entryBefore = a.entries
  entryAfter : reads.directory.entryAfter = a.entries
  rootAfter : reads.directory.rootAfter = some a.root
  finalMount : reads.finalMount = a.mount
  final : reads.final = some ⟨a.root, a.root⟩
  finalFindmnt : ∃ row, findmntRow F reads.finalFindmnt = some row ∧ row.Reordered a.row
  reopened : reads.reopened = some ⟨a.root, a.root⟩

section Passes

variable {F : Type} [Interpreter F] {reads : BindingReads} {a : Archive} {names : List Bytes}

theorem Sees.readEntry (h : Sees F reads a) : readEntry reads.directory = a.tuple := by
  funext n
  rw [ProtectedHost.readEntry, h.entryBefore]
  rfl

theorem Sees.topLevelRecords_eq_some (h : Sees F reads a)
    (hnames : reads.directory.listing = some names) {records : List EntryTuple} :
    topLevelRecords reads.directory = some records ↔
      a.Fine names ∧ records = a.tuples names := by
  simp only [topLevelRecords, hnames, h.readEntry, Option.bind_eq_bind, Option.bind_some,
    Option.bind_eq_some_iff, Option.guard_eq_some', mapM_eq_some, Option.some.injEq]
  constructor
  · rintro ⟨-, ⟨hshort, hnamed, hne⟩, _, ⟨hall, rfl⟩, -, hsmall, rfl⟩
    exact ⟨⟨hshort, hnamed, hne, hall, hsmall⟩, rfl⟩
  · rintro ⟨hfine, rfl⟩
    exact ⟨(), ⟨hfine.short, hfine.named, hfine.nonempty⟩, _, ⟨hfine.regular, rfl⟩, (), hfine.small,
      rfl⟩

/-- What the second look at the entries finds. -/
theorem Archive.entries_tuples (hregular : ∀ n ∈ names, (a.tuple n).isSome = true) :
    names.map a.entries = (a.tuples names).map fun r => some r.state := by
  induction names with
  | nil => rfl
  | cons n names ih =>
    rw [List.forall_mem_cons] at hregular
    obtain ⟨t, ht⟩ := Option.isSome_iff_exists.mp hregular.1
    obtain ⟨state, hstate, -, rfl⟩ := Archive.tuple_eq_some.mp ht
    rw [List.map_cons, ih hregular.2, Archive.tuples, Archive.tuples, List.filterMap_cons_some ht,
      List.map_cons, hstate]
    rfl

theorem Sees.topLevel_eq_some (h : Sees F reads a)
    (hnames : reads.directory.listing = some names) {t : TopLevel} :
    archiveTopLevelFingerprint reads.directory = some t ↔ a.root.isDir = true ∧ a.Fine names ∧
      t = ⟨(a.tuples names).length, hexdigest (topLevelManifest (a.tuples names))⟩ := by
  simp only [archiveTopLevelFingerprint, h.rootBefore, h.rootAfter, h.entryAfter, hnames,
    Option.bind_eq_bind, Option.bind_some, Option.bind_eq_some_iff, Option.guard_eq_some',
    h.topLevelRecords_eq_some hnames, Option.some.injEq]
  constructor
  · rintro ⟨-, hdir, _, ⟨hfine, rfl⟩, -, -, -, -, rfl⟩
    exact ⟨hdir, hfine, rfl⟩
  · rintro ⟨hdir, hfine, rfl⟩
    exact ⟨(), hdir, _, ⟨hfine, rfl⟩, (), Archive.entries_tuples hfine.regular, (), trivial, rfl⟩

/-! ## Identities -/

omit [Interpreter F] in
theorem strings_of_get? {record v : Value F} {key : String} (h : record.get? key = some v) :
    v.strings ⊆ record.strings := by
  cases record with
  | obj fields =>
    intro t ht
    rw [Value.strings, mem_fieldsStrings]
    exact ⟨_, mem_of_lookup h, ht⟩
  | _ => cases h

omit [Interpreter F] in
theorem mem_strings_of_get {record : Value F} {key : String} {t : Text}
    (h : record.get key = .str t) : t ∈ record.strings := by
  rw [Value.get] at h
  cases hget : record.get? key with
  | none =>
    rw [hget] at h
    cases h
  | some v =>
    rw [hget, Option.getD_some] at h
    exact strings_of_get? hget (h ▸ List.mem_singleton_self t)

omit [Interpreter F] in
theorem eq_of_safeFindmntString {v : Value F} {t : Text} (h : safeFindmntString v = some t) :
    v = .str t := by
  unfold safeFindmntString at h
  split at h
  · split_ifs at h
    exact congrArg _ (Option.some.inj h)
  · cases h

omit [Interpreter F] in
theorem eq_of_optionalFindmntString {v : Value F} {t : Text}
    (h : optionalFindmntString v = some (some t)) : v = .str t := by
  unfold optionalFindmntString at h
  split at h
  · cases h
  · split_ifs at h
    · cases h
    · obtain ⟨u, hu, heq⟩ := Option.map_eq_some_iff.mp h
      obtain rfl := Option.some.inj heq
      exact eq_of_safeFindmntString hu
  · cases h

def Row.texts (row : Row) : List Text :=
  [row.target, row.source, row.fstype, row.options, row.majorMinor] ++ row.uuid.toList ++
    row.partuuid.toList

theorem isJoined_of_findmntRow {stdout : Option Bytes} {row : Row}
    (h : findmntRow F stdout = some row) : ∀ t ∈ row.texts, t.isJoined = true := by
  simp only [findmntRow, Option.bind_eq_bind, Option.bind_eq_some_iff, Option.guard_eq_some',
    Option.some.injEq] at h
  obtain ⟨_, -, text, -, document, hdocument, -, -, record, hrecord, -, -, target, htarget, source,
    hsource, fstype, hfstype, options, hoptions, uuid, huuid, partuuid, hpartuuid, majorMinor,
    hmajorMinor, rfl⟩ := h
  have hloads : loads rejectDuplicates text.toList = .ok document := by
    cases heq : (loads rejectDuplicates text.toList : Except ReadError (Value F)) with
    | ok v =>
      rw [heq] at hdocument
      exact congrArg _ (Option.some.inj hdocument)
    | error e =>
      rw [heq] at hdocument
      cases hdocument
  have hjoined := isJoined_of_loads keeps_rejectDuplicates hloads
  have hsubset : record.strings ⊆ document.strings := by
    unfold onlyFilesystem at hrecord
    split at hrecord
    · next inner hget =>
      obtain rfl := Option.some.inj hrecord
      have hinner := strings_of_get? hget
      simpa [Value.strings, itemsStrings] using hinner
    · cases hrecord
  have hsafe : ∀ {key : String} {t : Text}, safeFindmntString (record.get key) = some t →
      t.isJoined = true :=
    fun heq => hjoined _ (hsubset (mem_strings_of_get (eq_of_safeFindmntString heq)))
  have hoptional : ∀ {key : String} {o : Option Text},
      optionalFindmntString (record.get key) = some o → ∀ t ∈ o.toList, t.isJoined = true := by
    intro key o heq t ht
    obtain rfl := Option.mem_toList.mp ht
    exact hjoined _ (hsubset (mem_strings_of_get (eq_of_optionalFindmntString heq)))
  intro t ht
  simp only [Row.texts, List.mem_append, List.mem_cons, List.not_mem_nil, or_false] at ht
  obtain ((rfl | rfl | rfl | rfl | rfl) | hmem) | hmem := ht
  · exact hsafe htarget
  · exact hsafe hsource
  · exact hsafe hfstype
  · exact hsafe hoptions
  · exact hsafe hmajorMinor
  · exact hoptional huuid t hmem
  · exact hoptional hpartuuid t hmem

theorem isJoined_infix {t : Text} (h : t.isJoined = true) {points : List ℕ}
    (hsegment : points <:+: t.points) : (Text.ofPoints points).isJoined = true := by
  obtain ⟨hrange, hchain⟩ := Text.isJoined_iff.mp h
  have hrange' : ∀ p ∈ points, p < 0x110000 := fun p hp => hrange p (hsegment.subset hp)
  rw [Text.isJoined_iff, points_ofPoints hrange']
  exact ⟨hrange', hchain.infix hsegment⟩

theorem isJoined_optionList {row : Row} (h : row.options.isJoined = true) :
    ∀ t ∈ row.optionList, t.isJoined = true := by
  intro t ht
  obtain ⟨piece, hpiece, rfl⟩ := List.mem_map.mp ht
  exact isJoined_infix h (PurePosixPath.infix_of_mem_splitOn hpiece)

theorem isJoined_subpathOf {source t : Text} (h : source.isJoined = true)
    (hsub : subpathOf source = some t) : t.isJoined = true := by
  unfold subpathOf at hsub
  split at hsub
  · next before hreverse =>
    dsimp only at hsub
    split_ifs at hsub
    obtain rfl := Option.some.inj hsub
    refine isJoined_infix h ?_
    have hprefix := (List.takeWhile_prefix (l := before)
      (fun p => decide (p ≠ 0x5b ∧ p ≠ 0x5d ∧ 32 ≤ p))).isInfix.trans
        (List.suffix_cons 0x5d before).isInfix
    rw [← hreverse] at hprefix
    simpa using List.reverse_infix.mpr hprefix
  · cases hsub

variable [Lowering]

theorem isJoined_identityOf {row : Row} {target type device : String} {i : MountIdentity}
    (hrow : ∀ t ∈ row.texts, t.isJoined = true) (h : identityOf row target type device = some i) :
    ∀ t ∈ i.texts, t.isJoined = true := by
  simp only [identityOf, Option.bind_eq_bind, Option.bind_eq_some_iff, Option.guard_eq_some',
    Option.some.injEq] at h
  obtain ⟨-, -, -, -, -, -, -, -, rfl⟩ := h
  have hmem : ∀ t, t ∈ [row.target, row.source, row.fstype, row.options, row.majorMinor] →
      t.isJoined = true :=
    fun t ht => hrow t (List.mem_append_left _ (List.mem_append_left _ ht))
  have hlower : ∀ o : Option Text, (∀ t ∈ o.toList, t ∈ row.texts) →
      ∀ t ∈ (o.map Lowering.lower).toList, t.isJoined = true := by
    rintro (_ | u) ho t ht
    · cases ht
    · obtain rfl := List.mem_singleton.mp ht
      exact Lowering.lower_isJoined u (hrow u (ho u (by simp)))
  intro t ht
  simp only [MountIdentity.texts, List.mem_cons, List.mem_append] at ht
  obtain rfl | rfl | (((hopt | huuid) | hpart) | hfallback) | hsubpath := ht
  · exact Lowering.lower_isJoined _ (hmem _ (by simp))
  · exact hmem _ (by simp)
  · rw [List.mem_insertionSort] at hopt
    exact isJoined_optionList (hmem _ (by simp)) t hopt
  · exact hlower row.uuid (fun u hu => List.mem_append_left _ (List.mem_append_right _ hu)) t huuid
  · exact hlower row.partuuid (fun u hu => List.mem_append_right _ hu) t hpart
  · split_ifs at hfallback
    · obtain rfl := List.mem_singleton.mp hfallback
      exact hmem _ (by simp)
    · cases hfallback
  · exact isJoined_subpathOf (hmem row.source (by simp)) (Option.mem_toList.mp hsubpath)

/-- The identity does not depend on the order of the options. -/
theorem identityOf_reordered {row other : Row} (h : row.Reordered other)
    (target type device : String) :
    identityOf row target type device = identityOf other target type device := by
  obtain ⟨heq, hperm⟩ := h
  have hsorted : row.optionList.insertionSort (fun s t => s.points ≤ t.points) =
      other.optionList.insertionSort (fun s t => s.points ≤ t.points) := by
    have hsort := ((List.perm_insertionSort (fun s t : Text => s.points ≤ t.points) _).trans
      hperm).trans (List.perm_insertionSort (fun s t : Text => s.points ≤ t.points) _).symm
    refine hsort.eq_of_pairwise (fun s t _ _ hst hts => ?_) (List.pairwise_insertionSort _ _)
      (List.pairwise_insertionSort _ _)
    exact Text.points_injective (le_antisymm hst hts)
  have hnone : Text.scalar "" ∉ row.optionList ↔ Text.scalar "" ∉ other.optionList :=
    not_congr hperm.mem_iff
  unfold identityOf
  rw [← hsorted]
  simp only [hnone]
  rw [← heq]

theorem findmntIdentity_eq {stdout : Option Bytes}
    (h : ∃ row, findmntRow F stdout = some row ∧ row.Reordered a.row) (record : MountInfoRecord)
    (device : String) : findmntIdentity F record device stdout =
      identityOf a.row (pathText record.mountPoint) record.filesystemType device := by
  obtain ⟨row, hrow, hreordered⟩ := h
  rw [findmntIdentity, hrow]
  exact identityOf_reordered hreordered _ _ _

/-! ## What is bound -/

/-- The mount identity fields of the payload. -/
def Archive.identity (a : Archive) : Option MountIdentity := do
  let record ← selectedRecord a.path a.mount
  identityOf a.row (pathText record.mountPoint) record.filesystemType (archiveDeviceIdentity a.root)

/-- What a pass over this archive with this listing binds. -/
structure Archive.Binds (a : Archive) (names : List Bytes) (b : Bound) : Prop where
  openable : isOpenable a.path = true
  directory : a.root.isDir = true
  noLink : a.root.isLnk = false
  device : ∃ record, selectedRecord a.path a.mount = some record ∧
    archiveDeviceIdentity a.root = record.majorMinor
  fine : a.Fine names
  identity : a.identity = some b.mountIdentity
  metadata : b.metadata = a.root
  topLevel : b.topLevel = ⟨(a.tuples names).length, hexdigest (topLevelManifest (a.tuples names))⟩

theorem Sees.archiveBinding_eq_some (h : Sees F reads a)
    (hnames : reads.directory.listing = some names) {b : Bound} :
    archiveBinding F a.path reads = some b ↔ a.Binds names b := by
  simp only [archiveBinding, h.opened, h.mount, h.finalMount, h.final, h.reopened,
    Option.bind_eq_bind, Option.bind_some, Option.bind_eq_some_iff, Option.guard_eq_some',
    findmntIdentity_eq h.findmnt, findmntIdentity_eq h.finalFindmnt, h.topLevel_eq_some hnames,
    Option.some.injEq, and_true, true_and, Bool.not_eq_true]
  constructor
  · rintro ⟨-, hopen, -, ⟨hdir, hlnk⟩, record, hrecord, -, hdevice, identity, hidentity, _,
      ⟨-, hfine, rfl⟩, -, -, -, -, -, -, -, -, -, rfl⟩
    refine ⟨hopen, hdir, hlnk, ⟨record, hrecord, hdevice⟩, hfine, ?_, rfl, rfl⟩
    rw [Archive.identity, hrecord]
    exact hidentity
  · intro hbinds
    obtain ⟨record, hrecord, hdevice⟩ := hbinds.device
    have hidentity := hbinds.identity
    rw [Archive.identity, hrecord] at hidentity
    refine ⟨(), hbinds.openable, (), ⟨hbinds.directory, hbinds.noLink⟩, record, hrecord, (),
      hdevice, b.mountIdentity, hidentity, b.topLevel,
      ⟨hbinds.directory, hbinds.fine, hbinds.topLevel⟩, record, hrecord, (), rfl, ?_⟩
    exact ⟨(), hdevice, (), hidentity, (), by rw [← hbinds.metadata]⟩

/-- The digest is the same in whatever order entries and options come. -/
theorem fingerprint_eq_of_sees {reads' : BindingReads} (h : Sees F reads a)
    (h' : Sees F reads' a) : archiveBindingFingerprint F a.path reads =
      archiveBindingFingerprint F a.path reads' := by
  obtain ⟨names, hnames, hlists⟩ := h.listing
  obtain ⟨names', hnames', hlists'⟩ := h'.listing
  have hperm := hlists.perm hlists'
  have htuples : (a.tuples names).Perm (a.tuples names') := hperm.filterMap a.tuple
  have htop : (⟨(a.tuples names).length, hexdigest (topLevelManifest (a.tuples names))⟩ : TopLevel) =
      ⟨(a.tuples names').length, hexdigest (topLevelManifest (a.tuples names'))⟩ := by
    rw [TopLevel.mk.injEq, topLevelManifest, topLevelManifest]
    exact ⟨htuples.length_eq, by rw [sortedRecords_eq_of_perm htuples]⟩
  have hbinds : ∀ b, a.Binds names b ↔ a.Binds names' b := by
    intro b
    constructor
    · rintro ⟨hopen, hdir, hlnk, hdevice, hfine, hidentity, hmetadata, htopLevel⟩
      exact ⟨hopen, hdir, hlnk, hdevice, hfine.of_perm hperm, hidentity, hmetadata,
        htopLevel.trans htop⟩
    · rintro ⟨hopen, hdir, hlnk, hdevice, hfine, hidentity, hmetadata, htopLevel⟩
      exact ⟨hopen, hdir, hlnk, hdevice, hfine.of_perm hperm.symm, hidentity, hmetadata,
        htopLevel.trans htop.symm⟩
  have hsame : archiveBinding F a.path reads = archiveBinding F a.path reads' := by
    refine Option.ext fun b => ?_
    exact (h.archiveBinding_eq_some hnames).trans
      ((hbinds b).trans (h'.archiveBinding_eq_some hnames').symm)
  rw [archiveBindingFingerprint, archiveBindingFingerprint, hsame]

/-! ## Identification -/

/-- The messages that a pass hashes. -/
def messages (F : Type) [Interpreter F] (path : String) (reads : BindingReads) : Set Bytes :=
  {m | (∃ names, reads.directory.listing = some names ∧ m ∈ names) ∨
    (∃ records, topLevelRecords reads.directory = some records ∧ m = topLevelManifest records) ∨
    ∃ b, archiveBinding F path reads = some b ∧ m = b.message}

theorem Archive.Binds.isJoined (h : Sees F reads a) {b : Bound} (hbinds : a.Binds names b) :
    ∀ t ∈ b.mountIdentity.texts, t.isJoined = true := by
  have hidentity := hbinds.identity
  obtain ⟨record, hrecord, -⟩ := hbinds.device
  obtain ⟨row, hrow, hreordered⟩ := h.findmnt
  rw [Archive.identity, hrecord] at hidentity
  have hseen : identityOf row (pathText record.mountPoint) record.filesystemType
      (archiveDeviceIdentity a.root) = some b.mountIdentity := by
    rw [identityOf_reordered hreordered]
    exact hidentity
  exact isJoined_identityOf (isJoined_of_findmntRow hrow) hseen

/-- Nothing but the names, the manifest and the payload is hashed. -/
theorem Sees.mem_messages (h : Sees F reads a) (hnames : reads.directory.listing = some names)
    {b : Bound} (hbinds : a.Binds names b) {m : Bytes} (hm : m ∈ messages F a.path reads) :
    m ∈ names ++ [topLevelManifest (a.tuples names), b.message] := by
  rw [List.mem_append, List.mem_pair]
  rcases hm with ⟨names', hnames', hm⟩ | ⟨records, hrecords, rfl⟩ | ⟨b', hb', rfl⟩
  · rw [hnames, Option.some.injEq] at hnames'
    exact .inl (hnames' ▸ hm)
  · rw [((h.topLevelRecords_eq_some hnames).mp hrecords).2]
    exact .inr (.inl rfl)
  · have hbound := (h.archiveBinding_eq_some hnames).mpr hbinds
    obtain rfl := Option.some.inj (hb'.symm.trans hbound)
    exact .inr (.inr rfl)

/-- Two bindings are equal exactly when the metadata of the roots, the recorded entries and the
identities of the mounts are. -/
theorem digest_eq_iff {b : Archive} {reads' : BindingReads} (h : Sees F reads a)
    (h' : Sees F reads' b) {d e : String}
    (hd : archiveBindingFingerprint F a.path reads = some d)
    (he : archiveBindingFingerprint F b.path reads' = some e)
    (hfree : Set.InjOn hexdigest (messages F a.path reads ∪ messages F b.path reads')) :
    d = e ↔ a.root.rootMetadata = b.root.rootMetadata ∧ a.recorded = b.recorded ∧
      a.identity = b.identity := by
  obtain ⟨x, hx, rfl⟩ := Option.map_eq_some_iff.mp hd
  obtain ⟨y, hy, rfl⟩ := Option.map_eq_some_iff.mp he
  obtain ⟨names, hnames, hlists⟩ := h.listing
  obtain ⟨names', hnames', hlists'⟩ := h'.listing
  have hbinds := (h.archiveBinding_eq_some hnames).mp hx
  have hbinds' := (h'.archiveBinding_eq_some hnames').mp hy
  have htop := Archive.topLevel_eq_iff hfree hlists hlists' hbinds.fine hbinds'.fine
    (fun n hn => .inl (.inl ⟨names, hnames, hn⟩)) (fun n hn => .inr (.inl ⟨names', hnames', hn⟩))
    (.inl (.inr (.inl ⟨_, (h.topLevelRecords_eq_some hnames).mpr ⟨hbinds.fine, rfl⟩, rfl⟩)))
    (.inr (.inr (.inl ⟨_, (h'.topLevelRecords_eq_some hnames').mpr ⟨hbinds'.fine, rfl⟩, rfl⟩)))
  rw [← hbinds.topLevel, ← hbinds'.topLevel] at htop
  rw [← htop, hbinds.identity, hbinds'.identity, Option.some.injEq, ← hbinds.metadata,
    ← hbinds'.metadata]
  constructor
  · intro hdigest
    have hmessage := hfree (.inl (.inr (.inr ⟨x, hx, rfl⟩))) (.inr (.inr (.inr ⟨y, hy, rfl⟩))) hdigest
    have hpayload := serialize_inj
      (archiveBindingPayload_isJoined _ (hbinds.isJoined h) _)
      (archiveBindingPayload_isJoined _ (hbinds'.isJoined h') _) hmessage
    obtain ⟨hroot, hidentity, htopLevel⟩ := archiveBindingPayload_inj hpayload
    exact ⟨hroot, htopLevel, hidentity⟩
  · rintro ⟨hroot, htopLevel, hidentity⟩
    rw [archiveBindingDigest, archiveBindingDigest, Bound.message, Bound.message,
      archiveBindingPayload_congr hroot, htopLevel, hidentity]

end Passes

end ProtectedHost
