import Mathlib
import WebsiteInfrastructure.Release.Epoch

/-!
# Writers and readers of an epoch

What `publication` and `validateIdentity` accept, spelled out, and how far the two agree.
-/

namespace Release

open Json Json.Value Raising

variable {F : Type}

/-! ## Tags -/

theorem version_eq_ok {tag : Value F} {v : Version} :
    version tag = .ok v ↔ tag = .text v.tag ∧ v.tag.length ≤ 64 := by
  unfold version
  split
  · rename_i name
    split
    · rename_i hlen
      split
      · rename_i w hw
        obtain rfl := matchTag_eq_some.mp hw
        rw [Except.ok.injEq, text, Value.str.injEq, Text.scalar.injEq]
        constructor
        · rintro rfl
          exact ⟨rfl, hlen⟩
        · rintro ⟨h, -⟩
          exact Version.tag_injective h
      · rename_i hw
        have hne : ∀ w : Version, name ≠ w.tag := by
          rintro w rfl
          rw [matchTag_tag] at hw
          simp at hw
        simp [invalid, text, hne]
    · rename_i hlen
      simp only [invalid, text, reduceCtorEq, Value.str.injEq, Text.scalar.injEq, false_iff, not_and]
      rintro rfl
      exact hlen
  · rename_i hne
    simp only [invalid, reduceCtorEq, false_iff, not_and]
    rintro rfl
    exact absurd rfl (hne _)

theorem nextTag_eq_ok {tag : Value F} {next : String} : nextTag tag = .ok next ↔
    ∃ v, version tag = .ok v ∧ (nextVersion (some v)).tag = next := by
  simp only [nextTag, bind_eq_ok, Except.ok.injEq]

theorem nextVersion_injective {v w : Version}
    (h : nextVersion (some v) = nextVersion (some w)) : v = w := by
  obtain ⟨a, b, c⟩ := v
  obtain ⟨d, e, f⟩ := w
  simpa [nextVersion] using h

/-! ## Scalars and entries -/

@[simp] theorem isShaValue_eq_true {v : Value F} :
    isShaValue v = true ↔ ∃ s, v = .text s ∧ isSha s = true := by
  unfold isShaValue
  split
  · rename_i s
    simp [text]
  · rename_i hne
    simp only [Bool.false_eq_true, false_iff, not_exists, not_and]
    rintro s rfl
    exact absurd rfl (hne s)

@[simp] theorem isExactInt_eq_true {v : Value F} {n : ℤ} : isExactInt v n = true ↔ v = .int n := by
  cases v <;> simp [isExactInt]

theorem item_eq_ok {record v : Value F} {key : String} :
    item record key = .ok v ↔ record.get? key = some v := by
  unfold item
  split
  · split <;> simp_all
  · rename_i hne
    have hnone : record.get? key = none := by
      cases record with
      | obj fields => exact absurd rfl (hne fields)
      | _ => rfl
    simp [hnone]

/-! ## Epochs -/

variable [Interpreter F]

theorem identity_eq_ok {tag : Value F} {selected : EpochIdentity} (h : identity tag = .ok selected) :
    ∃ v, version tag = .ok v ∧ selected.version = epochOf v ∧
      selected.repository = if epochOf v = 1 then oldRepository else newRepository := by
  simp only [identity, bind_eq_ok, Except.ok.injEq] at h
  obtain ⟨v, hv, rfl⟩ := h
  exact ⟨v, hv, rfl, rfl⟩

theorem identity_of_version {tag : Value F} {v : Version} (h : version tag = .ok v) :
    ∃ selected, identity tag = .ok selected ∧ selected.version = epochOf v ∧
      selected.repository = if epochOf v = 1 then oldRepository else newRepository := by
  rw [identity, h, ok_bind]
  exact ⟨_, rfl, rfl, rfl⟩

theorem firstV2_lt_firstV3 : firstV2 < firstV3 := by decide

theorem firstV3_lt_firstV4 : firstV3 < firstV4 := by decide

theorem epochOf_mono {v w : Version} (h : v ≤ w) : epochOf v ≤ epochOf w := by
  have h23 := firstV2_lt_firstV3
  have h34 := firstV3_lt_firstV4
  unfold epochOf
  by_cases h2 : w < firstV2
  · simp [h2, h.trans_lt h2]
  · by_cases h3 : w < firstV3
    · simp only [h2, h3, h.trans_lt h3, if_true, if_false]
      split <;> omega
    · by_cases h4 : w < firstV4
      · simp only [h2, h3, h4, h.trans_lt h4, if_true, if_false]
        split
        · omega
        · split <;> omega
      · simp only [h2, h3, h4, if_false]
        split_ifs <;> omega

theorem epochOf_eq_one {v : Version} : epochOf v = 1 ↔ v < firstV2 := by
  unfold epochOf
  split_ifs <;> simp_all

theorem epochOf_eq_four {v : Version} : epochOf v = 4 ↔ firstV4 ≤ v := by
  have h23 := firstV2_lt_firstV3
  have h34 := firstV3_lt_firstV4
  unfold epochOf
  by_cases h4 : firstV4 ≤ v
  · simp [h4, not_lt.mpr h4, not_lt.mpr (h34.le.trans h4), not_lt.mpr ((h23.trans h34).le.trans h4)]
  · rw [if_pos (not_le.mp h4)]
    simp only [h4, iff_false]
    split_ifs <;> omega

theorem historicalLoop_mem {tag : Value F} {candidate : Version} {releases : List HistoricalRelease}
    {frozen : HistoricalRelease} (h : historicalLoop tag candidate releases = some frozen) :
    frozen ∈ releases := by
  induction releases generalizing candidate with
  | nil => simp [historicalLoop] at h
  | cons source rest ih =>
    rw [historicalLoop] at h
    split at h
    · obtain rfl := Option.some.inj h
      exact List.mem_cons_self
    · exact List.mem_cons_of_mem _ (ih h)

theorem historicalRelease_mem {tag : Value F} {frozen : HistoricalRelease}
    (h : historicalRelease tag = some frozen) : frozen ∈ historicalReleases :=
  historicalLoop_mem h

theorem isSha_historical : ∀ frozen ∈ historicalReleases,
    isSha frozen.sourceSha = true ∧ isSha frozen.parentSha = true := by
  decide

theorem historical_sources_distinct : ∀ a ∈ historicalReleases, ∀ b ∈ historicalReleases,
    a.sourceSha = b.sourceSha → a = b := by
  decide

/-! ## What `publication` admits -/

theorem repository_eq_ok {name objectId result : Value F} :
    repository name objectId = .ok result ↔
      (name = .text oldRepository ∨ name = .text newRepository) ∧ objectId = .int repositoryId ∧
        name = result := by
  simp only [repository, raiseIf_bind_eq_ok, eq_text, not_or, not_and_or, not_not,
    Bool.not_eq_false, isExactInt_eq_true, Except.ok.injEq, and_assoc]

theorem publicationSource_eq_ok {tag baseSha sourceSha : Value F} {u : Unit} :
    publicationSource tag baseSha sourceSha = .ok u ↔ isShaValue sourceSha = true ∧
      (∀ frozen, historicalRelease tag = some frozen →
        sourceSha = .text frozen.sourceSha ∧ baseSha = .text frozen.parentSha) ∧
      (historicalRelease tag = none →
        ∀ entry ∈ historicalReleases, sourceSha ≠ .text entry.sourceSha) := by
  unfold publicationSource
  rw [raiseIf_bind_eq_ok, Bool.not_eq_false]
  refine and_congr_right fun _ => ?_
  cases historicalRelease tag <;> simp

theorem publication_eq_ok {name objectId tag baseTag baseSha sourceSha : Value F}
    {selected : EpochIdentity} :
    publication name objectId tag baseTag baseSha sourceSha = .ok selected ↔
      identity tag = .ok selected ∧ name = .text selected.repository ∧
      (name = .text oldRepository ∨ name = .text newRepository) ∧ objectId = .int repositoryId ∧
      isShaValue baseSha = true ∧ (∃ next, nextTag baseTag = .ok next ∧ tag = .text next) ∧
      (name = .text oldRepository → tag = .text terminalV1.tag ∧
        baseTag = .text checkpointTag ∧ baseSha = .text checkpointSource) ∧
      (tag = .text firstV3.tag → baseTag = .text terminalV2Tag ∧
        baseSha = .text terminalV2Source) ∧
      (selected.version = 4 → publicationSource tag baseSha sourceSha = .ok ()) := by
  simp only [publication, bind_eq_ok, repository_eq_ok, raiseIf_eq_ok, raiseIfAny_eq_ok,
    exists_const, List.mem_cons, List.not_mem_nil, or_false, forall_eq_or_imp, forall_eq, eq_text,
    Bool.not_eq_false, Except.ok.injEq, Bool.not_eq_eq_eq_not, Bool.not_false, not_and_not_right,
    doIf_eq_ok]
  constructor
  · rintro ⟨_, ⟨hname, hid, -⟩, hbase, a, ha, ⟨hrep, hnext⟩, hold, hv3, hv4, rfl⟩
    exact ⟨ha, hrep, hname, hid, hbase, hnext, hold, hv3, hv4⟩
  · rintro ⟨ha, hrep, hname, hid, hbase, hnext, hold, hv3, hv4⟩
    exact ⟨name, ⟨hname, hid, rfl⟩, hbase, selected, ha, ⟨hrep, hnext⟩, hold, hv3, hv4, rfl⟩

/-! ## What a signed document says -/

theorem itemDiffers_eq_false {record v : Value F} {key : String} :
    itemDiffers record key v = .ok false ↔ ∃ u, record.get? key = some u ∧ u.eq v = true := by
  simp [itemDiffers, item_eq_ok]

/-- The values of a document that `publication` looks at. -/
def signedTag (evidence : Value F) : Value F := (evidence.get "tag").get "name"

def signedBaseTag (evidence : Value F) : Value F := (evidence.get "predecessor").get "tag"

def signedBaseSha (evidence : Value F) : Value F := (evidence.get "predecessor").get "peeled_commit"

def signedSource (evidence : Value F) : Value F := (evidence.get "source").get "merge_sha"

/-- The executor of a document of the current epoch. -/
def signedExecutor (evidence : Value F) : Value F := (evidence.get "execution").get "source_sha"

omit [Interpreter F] in
theorem get_path {evidence v w : Value F} {key key' : String} (hv : evidence.get? key = some v)
    (hw : v.get? key' = some w) : (evidence.get key).get key' = w := by
  rw [get_of_get? hv, get_of_get? hw]

/-- What `validateIdentity` makes sure of. -/
structure Signed (evidence : Value F) (selected : EpochIdentity) : Prop where
  identity : identity (signedTag evidence) = .ok selected
  schema : evidence.get "schema" = .text selected.schema
  repository : evidence.get "repository" = .text selected.repository
  repositoryId : 2 ≤ selected.version → evidence.get "repository_id" = .int repositoryId
  edge : ∃ next, nextTag (signedBaseTag evidence) = .ok next ∧ signedTag evidence = .text next
  terminal : signedTag evidence = .text terminalV1.tag →
    signedBaseTag evidence = .text checkpointTag ∧ signedBaseSha evidence = .text checkpointSource
  execution : selected.version = 4 → validateExecution evidence = .ok ()

theorem isCheckpoint_entries {predecessor : Value F} (h : isCheckpoint predecessor = true) :
    predecessor.get? "tag" = some (.text checkpointTag) ∧
      predecessor.get? "peeled_commit" = some (.text checkpointSource) := by
  have hentry : ∀ (key : String) (w : Value F), (Text.scalar key, w) ∈
      [(Text.scalar "peeled_commit", text checkpointSource), (.scalar "tag", text checkpointTag)] →
      ∃ u, predecessor.get? key = some u ∧ u.eq w = true := fun _ _ hw => get?_of_eq h hw
  obtain ⟨tag, htag, heq⟩ := hentry "tag" (text checkpointTag) (by simp)
  obtain ⟨sha, hsha, heq'⟩ := hentry "peeled_commit" (text checkpointSource) (by simp)
  rw [eq_text] at heq heq'
  exact ⟨heq ▸ htag, heq' ▸ hsha⟩

theorem Signed.of_validateIdentity {evidence : Value F} {u : Unit}
    (h : validateIdentity evidence = .ok u) : ∃ selected, Signed evidence selected := by
  simp only [validateIdentity, bind_eq_ok, item_eq_ok, raiseIf_eq_ok, eq_text, not_not,
    Bool.not_eq_false, exists_const, doIf_eq_ok] at h
  obtain ⟨tag, htag, name, hname, selected, hidentity, ⟨hschema, hrepository⟩, hid,
    predecessor, hpredecessor, base, hbase, next, hnext, hedge, hterminal, -, -, -, hexecution⟩ := h
  have hsigned : signedTag evidence = name := get_path htag hname
  have hsignedBase : signedBaseTag evidence = base := get_path hpredecessor hbase
  refine ⟨selected, hsigned ▸ hidentity, hschema, hrepository, ?_, ?_, ?_, hexecution⟩
  · intro h2
    obtain ⟨_, hrep, -⟩ := hid h2
    exact (repository_eq_ok.mp hrep).2.1
  · exact ⟨next, hsignedBase ▸ hnext, hsigned ▸ hedge⟩
  · intro hlast
    rw [hsigned] at hlast
    obtain ⟨htag', hsha'⟩ := isCheckpoint_entries (by simpa [hlast] using hterminal)
    exact ⟨get_path hpredecessor htag', get_path hpredecessor hsha'⟩

/-- The executor rule, as the signed values state it. -/
structure Executed (evidence : Value F) : Prop where
  executor : isShaValue (signedExecutor evidence) = true
  ordinary : historicalRelease (signedTag evidence) = none →
    signedExecutor evidence = signedSource evidence
  historical : ∀ frozen, historicalRelease (signedTag evidence) = some frozen →
    signedSource evidence = .text frozen.sourceSha ∧
      signedBaseSha evidence = .text frozen.parentSha ∧
      (∀ entry ∈ historicalReleases, signedExecutor evidence ≠ .text entry.sourceSha) ∧
      signedExecutor evidence ≠ .text terminalV3Source

theorem Executed.of_validateExecution {evidence : Value F} {u : Unit}
    (h : validateExecution evidence = .ok u) : Executed evidence := by
  simp only [validateExecution, bind_eq_ok, item_eq_ok, raiseIf_eq_ok, exists_const, not_or,
    Bool.not_eq_false] at h
  obtain ⟨execution, hexecution, -, ⟨hexecutor, -⟩, -, source, hsource, tag, htag, name, hname,
    hmatch⟩ := h
  have hsigned : signedTag evidence = name := get_path htag hname
  have hexec : signedExecutor evidence = execution.get "source_sha" := by
    rw [signedExecutor, get_of_get? hexecution]
  refine ⟨hexec ▸ hexecutor, ?_, ?_⟩
  · intro hnone
    rw [hsigned] at hnone
    simp only [hnone, raiseIfAny_eq_ok, List.mem_cons, List.not_mem_nil, or_false,
      forall_eq_or_imp, forall_eq, bind_eq_ok, item_eq_ok, Except.ok.injEq,
      Bool.not_eq_eq_eq_not, Bool.not_false] at hmatch
    obtain ⟨⟨merge, hmerge, heq⟩, -⟩ := hmatch
    obtain ⟨s, hs, -⟩ := isShaValue_eq_true.mp hexecutor
    rw [hs, text_eq] at heq
    rw [hexec, signedSource, get_path hsource hmerge, hs, heq]
  · intro frozen hfrozen
    rw [hsigned] at hfrozen
    simp only [hfrozen, raiseIfAny_eq_ok, List.mem_cons, List.not_mem_nil, or_false,
      forall_eq_or_imp, forall_eq, bind_eq_ok, item_eq_ok, itemDiffers_eq_false, eq_text,
      Except.ok.injEq, List.any_eq_false, eq_text_eq_false] at hmatch
    obtain ⟨⟨_, hmerge, rfl⟩, -, ⟨predecessor, hpredecessor, _, hpeeled, rfl⟩, -, -, -, -, hnot,
      hterminal⟩ := hmatch
    refine ⟨get_path hsource hmerge, get_path hpredecessor hpeeled, ?_, ?_⟩
    · exact fun entry hentry heq => hnot entry hentry (hexec ▸ heq)
    · exact fun heq => hterminal (hexec ▸ heq)

/-! ## Where the two agree -/

theorem oldRepository_ne_newRepository : oldRepository ≠ newRepository := by decide

omit [Interpreter F] in
theorem Version.tag_eq_iff {v w : Version} : (text v.tag : Value F) = .text w.tag ↔ v = w := by
  rw [text_inj, Version.tag_injective.eq_iff]

/-- What a writer has to know beyond a signed document's own checks. -/
structure EdgeKnown (evidence : Value F) (selected : EpochIdentity) : Prop where
  base : isShaValue (signedBaseSha evidence) = true
  terminal : selected.version = 1 → signedTag evidence = .text terminalV1.tag
  checkpoint : signedTag evidence = .text firstV3.tag →
    signedBaseSha evidence = .text terminalV2Source
  source : selected.version = 4 → historicalRelease (signedTag evidence) = none →
    ∀ entry ∈ historicalReleases, signedSource evidence ≠ .text entry.sourceSha

theorem Signed.publication_iff {evidence : Value F} {selected : EpochIdentity}
    (h : Signed evidence selected) :
    publication (evidence.get "repository") (.int Release.repositoryId) (signedTag evidence)
        (signedBaseTag evidence) (signedBaseSha evidence) (signedSource evidence) = .ok selected ↔
      EdgeKnown evidence selected := by
  obtain ⟨v, hv, hversion, hname⟩ := identity_eq_ok h.identity
  have hone : evidence.get "repository" = .text oldRepository ↔ selected.version = 1 := by
    rw [h.repository, hname, hversion, text_inj]
    split <;> simp [*, oldRepository_ne_newRepository.symm]
  have hknown : evidence.get "repository" = .text oldRepository ∨
      evidence.get "repository" = .text newRepository := by
    rw [h.repository, hname]
    split <;> simp
  rw [publication_eq_ok]
  constructor
  · rintro ⟨-, -, -, -, hbase, -, hterminal, hv3, hv4⟩
    exact ⟨hbase, fun h1 => (hterminal (hone.mpr h1)).1, fun h3 => (hv3 h3).2,
      fun h4 => (publicationSource_eq_ok.mp (hv4 h4)).2.2⟩
  · intro hedge
    refine ⟨h.identity, h.repository, hknown, rfl, hedge.base, h.edge, ?_, ?_, ?_⟩
    · intro hold
      have hlast := hedge.terminal (hone.mp hold)
      exact ⟨hlast, h.terminal hlast⟩
    · intro h3
      refine ⟨?_, hedge.checkpoint h3⟩
      obtain ⟨next, hnext, htag⟩ := h.edge
      obtain ⟨base, hbase, rfl⟩ := nextTag_eq_ok.mp hnext
      rw [h3, Version.tag_eq_iff] at htag
      have hbase77 : base = ⟨0, 1, 77⟩ := nextVersion_injective htag.symm
      rw [(version_eq_ok.mp hbase).1, hbase77]
      exact congrArg text (by decide)
    · intro h4
      have hexecuted := Executed.of_validateExecution (h.execution h4)
      refine publicationSource_eq_ok.mpr ⟨?_, ?_, hedge.source h4⟩
      · cases hfrozen : historicalRelease (signedTag evidence) with
        | none => exact hexecuted.ordinary hfrozen ▸ hexecuted.executor
        | some frozen =>
          rw [(hexecuted.historical frozen hfrozen).1]
          exact isShaValue_eq_true.mpr
            ⟨_, rfl, (isSha_historical frozen (historicalRelease_mem hfrozen)).1⟩
      · intro frozen hfrozen
        obtain ⟨hsource, hbase, -⟩ := hexecuted.historical frozen hfrozen
        exact ⟨hsource, hbase⟩

/-- How far the writers and the readers of an epoch agree. -/
structure EpochsAgree (F : Type) [Interpreter F] : Prop where
  /-- In the current epoch a historical source is published on its own recorded edge only. -/
  historical : ∀ {name objectId tag baseTag baseSha sourceSha : Value F} {selected : EpochIdentity},
    publication name objectId tag baseTag baseSha sourceSha = .ok selected →
    selected.version = 4 → ∀ entry ∈ historicalReleases, sourceSha = .text entry.sourceSha →
      historicalRelease tag = some entry ∧ baseSha = .text entry.parentSha
  /-- The retired repository name is published on the terminal v1 edge only. -/
  retired : ∀ {objectId tag baseTag baseSha sourceSha : Value F} {selected : EpochIdentity},
    publication (.text oldRepository) objectId tag baseTag baseSha sourceSha = .ok selected →
      tag = .text terminalV1.tag ∧ baseTag = .text checkpointTag ∧ baseSha = .text checkpointSource
  /-- A signed document is admitted for publication exactly when its edge is known. -/
  signed : ∀ {evidence : Value F} {u : Unit}, validateIdentity evidence = .ok u →
    ∃ selected, identity (signedTag evidence) = .ok selected ∧
      (2 ≤ selected.version → evidence.get "repository_id" = .int repositoryId) ∧
      (publication (evidence.get "repository") (.int repositoryId) (signedTag evidence)
          (signedBaseTag evidence) (signedBaseSha evidence) (signedSource evidence) = .ok selected ↔
        EdgeKnown evidence selected)
  /-- A later tag never has an earlier epoch. -/
  monotone : ∀ {tag tag' : Value F} {v v' : Version} {selected selected' : EpochIdentity},
    version tag = .ok v → version tag' = .ok v' → v ≤ v' →
    identity tag = .ok selected → identity tag' = .ok selected' →
      selected.version ≤ selected'.version
  /-- An ordinary release is executed by its own source. -/
  ordinary : ∀ {evidence : Value F} {u : Unit}, validateExecution evidence = .ok u →
    historicalRelease (signedTag evidence) = none →
      signedExecutor evidence = signedSource evidence
  /-- A historical release is executed by a source of neither the history nor the last epoch. -/
  recovered : ∀ {evidence : Value F} {u : Unit} {frozen : HistoricalRelease},
    validateExecution evidence = .ok u → historicalRelease (signedTag evidence) = some frozen →
      (∀ entry ∈ historicalReleases, signedExecutor evidence ≠ .text entry.sourceSha) ∧
        signedExecutor evidence ≠ .text terminalV3Source

/-- Writers and readers agree for all strings. -/
theorem epochs_agree : EpochsAgree F where
  historical {_ _ tag _ _ _ _} h h4 entry hentry hsource := by
    obtain ⟨-, -, -, -, -, -, -, -, hv4⟩ := publication_eq_ok.mp h
    obtain ⟨-, hsome, hnone⟩ := publicationSource_eq_ok.mp (hv4 h4)
    cases hfrozen : historicalRelease tag with
    | none => exact absurd hsource (hnone hfrozen entry hentry)
    | some frozen =>
      obtain ⟨hown, hparent⟩ := hsome frozen hfrozen
      have hsame : frozen = entry := historical_sources_distinct _ (historicalRelease_mem hfrozen) _
        hentry (text_inj.mp (hown.symm.trans hsource))
      exact ⟨congrArg some hsame, hsame ▸ hparent⟩
  retired h := by
    obtain ⟨-, -, -, -, -, -, hold, -, -⟩ := publication_eq_ok.mp h
    exact hold rfl
  signed h := by
    obtain ⟨selected, hsigned⟩ := Signed.of_validateIdentity h
    exact ⟨selected, hsigned.identity, hsigned.repositoryId, hsigned.publication_iff⟩
  monotone hv hv' hle h h' := by
    obtain ⟨_, hw, hversion, -⟩ := identity_eq_ok h
    obtain ⟨_, hw', hversion', -⟩ := identity_eq_ok h'
    rw [hversion, hversion', ← Except.ok.inj (hv.symm.trans hw), ← Except.ok.inj (hv'.symm.trans hw')]
    exact epochOf_mono hle
  ordinary h := (Executed.of_validateExecution h).ordinary
  recovered h hfrozen := ((Executed.of_validateExecution h).historical _ hfrozen).2.2

namespace Sample

/-- A release signed under the retired name long before the terminal edge. -/
def retiredEvidence : Value (List Char) :=
  .obj [
    (.scalar "predecessor", .obj [(.scalar "peeled_commit", .text checkpointSource),
      (.scalar "tag", .text "v0.1.39")]),
    (.scalar "repository", .text oldRepository),
    (.scalar "schema", .text "https://snaraj.dev/schemas/platform-release-identity/v1"),
    (.scalar "tag", .obj [(.scalar "name", .text "v0.1.40")])]

/-- Publishing the first historical source with a tag of the epoch before. -/
def misplaced : Except Failure EpochIdentity :=
  publication (.text newRepository : Value (List Char)) (.int repositoryId) (.text "v0.1.79")
    (.text "v0.1.78") (.text terminalV2Source)
    (.text "060c9678e130487b27cdaec395b0f1c5d74b9240")

end Sample

/-- A historical source is admitted off its edge, and a signed document is not admitted. -/
theorem foreign_edges : ¬ ((∀ (name objectId tag baseTag baseSha sourceSha : Value (List Char))
      (selected : EpochIdentity),
      publication name objectId tag baseTag baseSha sourceSha = .ok selected →
      ∀ entry ∈ historicalReleases, sourceSha = .text entry.sourceSha →
        historicalRelease tag = some entry) ∨
    (∀ evidence : Value (List Char), validateIdentity evidence = .ok () →
      ∃ selected, publication (evidence.get "repository") (.int repositoryId)
        (signedTag evidence) (signedBaseTag evidence) (signedBaseSha evidence)
        (signedSource evidence) = .ok selected)) := by
  rintro (hwriter | hreader)
  · have hok : Sample.misplaced.isOk = true := by decide +kernel
    cases hselected : Sample.misplaced with
    | error e => simp [hselected, Except.isOk, Except.toBool] at hok
    | ok selected =>
      have hedge := hwriter _ _ _ _ _ _ _ hselected _ List.mem_cons_self rfl
      exact absurd hedge (by decide +kernel)
  · obtain ⟨selected, hselected⟩ := hreader Sample.retiredEvidence (by decide +kernel)
    have hdenied : publication (Sample.retiredEvidence.get "repository") (.int repositoryId)
        (signedTag Sample.retiredEvidence) (signedBaseTag Sample.retiredEvidence)
        (signedBaseSha Sample.retiredEvidence) (signedSource Sample.retiredEvidence) =
        .error (.builtin (.valueError "old-name publication is only the terminal v1 edge")) := by
      decide +kernel
    rw [hdenied] at hselected
    simp at hselected

end Release
