import Mathlib
import WebsiteInfrastructure.Release.Ledger

/-!
# What the ledger reader accepts

`platformTagBoundaries_eq_ok`: the code returns a ledger exactly when the listed tags are
the exact tags of boundaries whose part from the floor on is one chain of releases. The
listing is read as text lines, so the main point is that no unusual reference name can
hide behind a line of another one.
-/

namespace Release

open CommitGraph PythonText Raising

variable {repository : Repository} {store : ObjectStore}

/-! ## Characters of a tag -/

theorem Version.mem_tag {v : Version} {c : Char} (h : c ∈ v.tag.toList) :
    c = 'v' ∨ c = '.' ∨ c.isDigit = true := by
  rw [Version.toList_tag] at h
  simp only [List.mem_cons, List.mem_append] at h
  rcases h with rfl | h | rfl | h | rfl | h
  · exact .inl rfl
  · exact .inr (.inr (Nat.isDigit_of_mem_toDigits (by omega) (by omega) h))
  · exact .inr (.inl rfl)
  · exact .inr (.inr (Nat.isDigit_of_mem_toDigits (by omega) (by omega) h))
  · exact .inr (.inl rfl)
  · exact .inr (.inr (Nat.isDigit_of_mem_toDigits (by omega) (by omega) h))

theorem Version.tag_chars {v : Version} {c : Char} (h : c ∈ v.tag.toList) :
    isSpace c = false ∧ c ≠ '/' := by
  rcases Version.mem_tag h with rfl | rfl | hdigit
  · decide
  · decide
  · obtain ⟨hlt, heq⟩ := isDigit_eq_digitChar hdigit
    rw [heq]
    generalize c.toNat - 48 = n at hlt
    interval_cases n <;> decide

theorem Version.isRefText_tag (v : Version) : (GitText.text v.tag).isRefText = true := by
  rw [GitText.isRefText, List.all_eq_true]
  intro c hc
  rcases Version.mem_tag hc with rfl | rfl | hdigit
  · decide
  · decide
  · obtain ⟨hlt, heq⟩ := isDigit_eq_digitChar hdigit
    rw [heq]
    generalize c.toNat - 48 = n at hlt
    interval_cases n <;> decide

theorem Version.tag_ne_nil (v : Version) : v.tag.toList ≠ [] := by
  rw [Version.toList_tag]
  exact List.cons_ne_nil _ _

theorem Version.startsWith_tag (v : Version) : (GitText.text v.tag).startsWith "v" = true := by
  rw [GitText.startsWith, Version.toList_tag]
  rfl

/-- No tag continues another one below a slash. -/
theorem Version.not_startsWith_slash (v w : Version) :
    (GitText.text v.tag).startsWith (w.tag ++ "/") = false := by
  rw [GitText.startsWith, Bool.eq_false_iff, ne_eq, List.isPrefixOf_iff_prefix]
  intro hpre
  have hslash : '/' ∈ v.tag.toList := hpre.subset (by simp)
  exact (Version.tag_chars hslash).2 rfl

/-! ## One tag -/

theorem Repository.tagMetadata_eq_ok {name : String} {fields : TagFields String} :
    repository.tagMetadata name = .ok fields ↔ ∃ ref, repository.firstRef name = some ref ∧
      (repository.store.tagFields ref.oid).bind TagFields.decode = some fields := by
  unfold Repository.tagMetadata
  cases repository.firstRef name with
  | none => simp
  | some ref =>
    simp only [Option.some.injEq, exists_eq_left']
    cases hfields : repository.store.tagFields ref.oid with
    | none => simp
    | some raw =>
      simp only [Option.bind_some]
      cases raw.decode <;> simp

theorem Repository.readBoundary_eq_ok {version : Version} {name : String} {b : TagBoundary} :
    repository.readBoundary version name = .ok b ↔ b.version = version ∧ b.tag = name ∧
      isSha b.sourceSha = true ∧ ∃ ref, repository.firstRef name = some ref ∧
        ∃ date, repository.store.showDate b.sourceSha = .ok date ∧
          (repository.store.tagFields ref.oid).bind TagFields.decode =
            some (Repository.exactFields name b.sourceSha date) := by
  simp only [Repository.readBoundary, bind_eq_ok, tagMetadata_eq_ok, requireSha_eq_ok,
    raiseIf_eq_ok, exists_const, Except.ok.injEq, ne_eq, not_not]
  constructor
  · rintro ⟨fields, ⟨ref, href, hfields⟩, _, ⟨hsha, rfl⟩, date, hdate, hexact, rfl⟩
    exact ⟨rfl, rfl, hsha, ref, href, date, hdate, hexact ▸ hfields⟩
  · rintro ⟨rfl, rfl, hsha, ref, href, date, hdate, hfields⟩
    exact ⟨_, ⟨ref, href, hfields⟩, _, ⟨hsha, rfl⟩, date, hdate, rfl, rfl⟩

/-- The boundary is read from the line. -/
def Repository.ReadsLine (repository : Repository) (name : String) (b : TagBoundary) : Prop :=
  b.tag = b.version.tag ∧ repository.readBoundary b.version name = .ok b

theorem Repository.readBoundaries_eq_ok {seenVersions : List Version} {names : List String}
    {boundaries : List TagBoundary} :
    repository.readBoundaries seenVersions names = .ok boundaries ↔
      List.Forall₂ repository.ReadsLine names boundaries ∧
        (boundaries.map TagBoundary.version).Nodup ∧
        ∀ b ∈ boundaries, b.version ∉ seenVersions := by
  induction names generalizing seenVersions boundaries with
  | nil =>
    rw [readBoundaries, Except.ok.injEq, List.forall₂_nil_left_iff]
    constructor
    · rintro rfl
      simp
    · exact fun h => h.1.symm
  | cons name names ih =>
    rw [readBoundaries]
    cases hmatch : matchTag name with
    | none =>
      simp only [reduceCtorEq, false_iff, not_and]
      intro hlines
      cases hlines with
      | cons hline _ =>
        have hname := (readBoundary_eq_ok.mp hline.2).2.1
        rw [← hname, hline.1, matchTag_tag] at hmatch
        simp at hmatch
    | some version =>
      simp only [bind_eq_ok, raiseIf_eq_ok, exists_const, ih, Except.ok.injEq]
      rw [matchTag_eq_some] at hmatch
      constructor
      · rintro ⟨hnew, b, hb, bs, ⟨hlines, hnodup, hfresh⟩, rfl⟩
        obtain ⟨hversion, htag, -⟩ := readBoundary_eq_ok.mp hb
        refine ⟨.cons ⟨by rw [htag, hversion, hmatch], by rw [hversion]; exact hb⟩ hlines, ?_, ?_⟩
        · rw [List.map_cons, List.nodup_cons]
          refine ⟨?_, hnodup⟩
          intro hin
          obtain ⟨b', hb', heq⟩ := List.mem_map.mp hin
          exact hfresh b' hb' (by simp [heq, hversion])
        · intro b' hb'
          rcases List.mem_cons.mp hb' with rfl | hb'
          · rwa [hversion]
          · exact fun hin => hfresh b' hb' (List.mem_cons_of_mem _ hin)
      · rintro ⟨hlines, hnodup, hfresh⟩
        cases hlines with
        | @cons _ b _ bs hline hlines =>
          have hname := (readBoundary_eq_ok.mp hline.2).2.1
          have hversion : b.version = version := by
            apply Version.tag_injective
            rw [← hline.1, hname, hmatch]
          rw [List.map_cons, List.nodup_cons] at hnodup
          refine ⟨hversion ▸ hfresh b List.mem_cons_self, b, hversion ▸ hline.2, bs,
            ⟨hlines, hnodup.2, ?_⟩, rfl⟩
          intro b' hb' hin
          rcases List.mem_cons.mp hin with heq | hin
          · apply hnodup.1
            rw [hversion, ← heq]
            exact List.mem_map_of_mem hb'
          · exact hfresh b' (List.mem_cons_of_mem _ hb') hin

/-! ## The lines of the listing -/

section Lines

variable {texts : List String}

theorem Repository.mem_platformTags {ref : TagRef} :
    ref ∈ repository.platformTags ↔ ref ∈ repository.tags ∧ ref.name.startsWith "v" = true := by
  simp [platformTags]

theorem Repository.listed_head (h : repository.platformTags.map TagRef.name = texts.map .text) :
    ∀ l ∈ texts.map String.toList, ∃ c cs, l = c :: cs ∧ isSpace c = false := by
  intro l hl
  obtain ⟨t, ht, rfl⟩ := List.mem_map.mp hl
  have hin : GitText.text t ∈ repository.platformTags.map TagRef.name :=
    h ▸ List.mem_map_of_mem ht
  obtain ⟨ref, href, hname⟩ := List.mem_map.mp hin
  have hv := (mem_platformTags.mp href).2
  rw [hname, GitText.startsWith, List.isPrefixOf_iff_prefix] at hv
  obtain ⟨rest, hrest⟩ := hv
  exact ⟨'v', rest, hrest.symm, by decide⟩

theorem Repository.listed_no_return
    (h : repository.platformTags.map TagRef.name = texts.map .text) :
    ∀ l ∈ texts.map String.toList, '\r' ∉ l := by
  intro l hl hr
  obtain ⟨t, ht, rfl⟩ := List.mem_map.mp hl
  have hin : GitText.text t ∈ repository.platformTags.map TagRef.name :=
    h ▸ List.mem_map_of_mem ht
  obtain ⟨ref, -, hname⟩ := List.mem_map.mp hin
  have href := ref.isRef
  rw [hname, GitText.isRefText, List.all_eq_true] at href
  exact absurd (href _ hr) (by decide)

theorem nodup_listed (h : repository.platformTags.map TagRef.name = texts.map .text) :
    texts.Nodup := by
  have hnodup : (repository.platformTags.map TagRef.name).Nodup :=
    repository.nodup.sublist (List.filter_sublist.map _)
  rw [h] at hnodup
  exact hnodup.of_map _

/-- A reference that answers for a line is itself listed. -/
theorem Repository.firstRef_listed {ref : TagRef} {v : Version}
    (hfirst : repository.firstRef v.tag = some ref) :
    ref ∈ repository.platformTags ∧
      (ref.name = .text v.tag ∨ ref.name.startsWith (v.tag ++ "/") = true) := by
  have hname := List.find?_some hfirst
  rw [Bool.or_eq_true, beq_iff_eq] at hname
  refine ⟨mem_platformTags.mpr ⟨List.mem_of_find?_eq_some hfirst, ?_⟩, hname⟩
  rcases hname with hname | hname
  · rw [hname]
    exact v.startsWith_tag
  · have hv : "v".toList <+: (v.tag ++ "/").toList :=
      ⟨v.tag.toList.tail ++ ['/'], by rw [String.toList_append, Version.toList_tag]; rfl⟩
    cases href : ref.name with
    | text s =>
      rw [href, GitText.startsWith, List.isPrefixOf_iff_prefix] at hname
      rw [GitText.startsWith, List.isPrefixOf_iff_prefix]
      exact hv.trans hname
    | undecodable bytes invalid =>
      rw [href, GitText.startsWith, List.isPrefixOf_iff_prefix] at hname
      rw [GitText.startsWith, List.isPrefixOf_iff_prefix]
      have hencode : Utf8.encode "v" <+: Utf8.encode (v.tag ++ "/") := by
        obtain ⟨rest, hrest⟩ := hv
        rw [Utf8.encode, Utf8.encode, ← hrest, List.flatMap_append]
        exact List.prefix_append _ _
      exact hencode.trans hname

/-- When every line is a tag that some reference answers for, the lines are the names. -/
theorem Repository.lines_eq_texts (h : repository.platformTags.map TagRef.name = texts.map .text)
    (hnodup : (readLines (texts.map String.toList)).Nodup)
    (hline : ∀ l ∈ readLines (texts.map String.toList), ∃ (v : Version) (ref : TagRef),
      l = v.tag.toList ∧ repository.firstRef v.tag = some ref) :
    readLines (texts.map String.toList) = texts.map String.toList := by
  apply readLines_eq_self (listed_head h) (listed_no_return h) hnodup
  intro l hl
  obtain ⟨v, ref, rfl, hfirst⟩ := hline l hl
  refine ⟨?_, fun c hc => (Version.tag_chars hc).1⟩
  obtain ⟨hlisted, hname⟩ := firstRef_listed hfirst
  have hin : ref.name ∈ texts.map GitText.text := h ▸ List.mem_map_of_mem hlisted
  obtain ⟨t, ht, htext⟩ := List.mem_map.mp hin
  rcases hname with hname | hname
  · rw [← htext, GitText.text.injEq] at hname
    exact hname ▸ List.mem_map_of_mem ht
  · exfalso
    -- a reference below the tag would show as a line with a slash
    rw [← htext, GitText.startsWith, List.isPrefixOf_iff_prefix] at hname
    have hspace : ∀ c ∈ (v.tag ++ "/").toList, isSpace c = false := by
      intro c hc
      rw [String.toList_append, List.mem_append] at hc
      rcases hc with hc | hc
      · exact (Version.tag_chars hc).1
      · rw [List.mem_singleton.mp hc]
        decide
    obtain ⟨x, hx, hpre⟩ := exists_line_of_prefix (listed_head h) (listed_no_return h)
      (List.mem_map_of_mem ht) hname hspace
    obtain ⟨w, -, rfl, -⟩ := hline x hx
    exact (Version.tag_chars (hpre.subset (by simp))).2 rfl

/-- Among canonical tags, the first reference for a name is the reference of that name. -/
theorem Repository.firstRef_eq_some
    (hall : ∀ r ∈ repository.platformTags, ∃ v : Version, r.name = .text v.tag) {ref : TagRef}
    {v : Version} (href : ref ∈ repository.tags) (hname : ref.name = .text v.tag) :
    repository.firstRef v.tag = some ref := by
  have hsome : (repository.firstRef v.tag).isSome = true := by
    rw [firstRef, List.find?_isSome]
    exact ⟨ref, href, by simp [hname]⟩
  obtain ⟨ref', hfirst⟩ := Option.isSome_iff_exists.mp hsome
  obtain ⟨hlisted, hname'⟩ := firstRef_listed hfirst
  have hsame : ref'.name = ref.name := by
    rcases hname' with hname' | hname'
    · rw [hname', hname]
    · obtain ⟨w, hw⟩ := hall ref' hlisted
      rw [hw, Version.not_startsWith_slash] at hname'
      simp at hname'
  rw [hfirst, List.inj_on_of_nodup_map repository.nodup (mem_platformTags.mp hlisted).1 href hsame]

end Lines

/-! ## All tags -/

theorem tags_nodup_iff {boundaries : List TagBoundary}
    (htag : ∀ b ∈ boundaries, b.tag = b.version.tag) :
    (boundaries.map TagBoundary.tag).Nodup ↔ (boundaries.map TagBoundary.version).Nodup := by
  have hmap : boundaries.map TagBoundary.tag = (boundaries.map TagBoundary.version).map Version.tag := by
    rw [List.map_map]
    exact List.map_congr_left htag
  rw [hmap, List.nodup_map_iff Version.tag_injective]

theorem exactTag_names {refs : List TagRef} {boundaries : List TagBoundary}
    (h : List.Forall₂ (ExactTag store) refs boundaries) :
    refs.map TagRef.name = (boundaries.map TagBoundary.tag).map .text ∧
      ∀ b ∈ boundaries, b.tag = b.version.tag := by
  induction h with
  | nil => simp
  | cons hexact _ ih =>
    refine ⟨by rw [List.map_cons, hexact.name, ih.1]; rfl, ?_⟩
    intro b hb
    rcases List.mem_cons.mp hb with rfl | hb
    · exact hexact.tag
    · exact ih.2 b hb

theorem readsLine_names {names : List String} {boundaries : List TagBoundary}
    (h : List.Forall₂ repository.ReadsLine names boundaries) :
    names = boundaries.map TagBoundary.tag ∧
      ∀ b ∈ boundaries, repository.ReadsLine b.tag b := by
  induction h with
  | nil => simp
  | cons hline _ ih =>
    have hname := (Repository.readBoundary_eq_ok.mp hline.2).2.1
    refine ⟨by rw [List.map_cons, hname, ← ih.1], ?_⟩
    intro b hb
    rcases List.mem_cons.mp hb with rfl | hb
    · exact hname ▸ hline
    · exact ih.2 b hb

theorem readLines_tags {boundaries : List TagBoundary}
    (htag : ∀ b ∈ boundaries, b.tag = b.version.tag) :
    readLines ((boundaries.map TagBoundary.tag).map String.toList) =
      (boundaries.map TagBoundary.tag).map String.toList := by
  apply readLines_plain
  intro l hl
  rw [List.map_map] at hl
  obtain ⟨b, hb, rfl⟩ := List.mem_map.mp hl
  rw [Function.comp_apply, htag b hb]
  exact ⟨b.version.tag_ne_nil, fun c hc => (Version.tag_chars hc).1⟩

theorem map_ofList_toList (names : List String) :
    (names.map String.toList).map String.ofList = names := by
  rw [List.map_map]
  exact (List.map_congr_left fun s _ => String.ofList_toList).trans (List.map_id _)

theorem map_toList_ofList (lines : List (List Char)) :
    (lines.map String.ofList).map String.toList = lines := by
  rw [List.map_map]
  exact (List.map_congr_left fun l _ => String.toList_ofList).trans (List.map_id _)

/-- Reading the listing line by line reads exactly the tag of every reference. -/
theorem readBoundaries_tagList {boundaries : List TagBoundary} :
    (∃ names, repository.tagList = .ok names ∧
      repository.readBoundaries [] names = .ok boundaries) ↔
      List.Forall₂ (ExactTag repository.store) repository.platformTags boundaries := by
  constructor
  · rintro ⟨names, hlist, hread⟩
    obtain ⟨texts, htexts, rfl⟩ := repository.tagList_eq_ok.mp hlist
    obtain ⟨hlines, hnodup, -⟩ := Repository.readBoundaries_eq_ok.mp hread
    obtain ⟨hnames, hreads⟩ := readsLine_names hlines
    have htag : ∀ b ∈ boundaries, b.tag = b.version.tag := fun b hb => (hreads b hb).1
    have hmap := congrArg (List.map String.toList) hnames
    rw [map_toList_ofList] at hmap
    have hself : readLines (texts.map String.toList) = texts.map String.toList := by
      apply Repository.lines_eq_texts htexts
      · rw [hmap]
        exact ((tags_nodup_iff htag).mpr hnodup).map fun _ _ h => String.toList_injective h
      · intro l hl
        rw [hmap, List.map_map] at hl
        obtain ⟨b, hb, rfl⟩ := List.mem_map.mp hl
        obtain ⟨-, -, -, ref, hfirst, -⟩ := Repository.readBoundary_eq_ok.mp (hreads b hb).2
        exact ⟨b.version, ref, by rw [Function.comp_apply, htag b hb], htag b hb ▸ hfirst⟩
    have heq : texts = boundaries.map TagBoundary.tag := by
      rw [← hnames, hself, map_ofList_toList]
    subst heq
    have hall : ∀ r ∈ repository.platformTags, ∃ v : Version, r.name = .text v.tag := by
      intro r hr
      have hin : r.name ∈ (boundaries.map TagBoundary.tag).map GitText.text :=
        htexts ▸ List.mem_map_of_mem hr
      rw [List.map_map] at hin
      obtain ⟨b, hb, hname⟩ := List.mem_map.mp hin
      exact ⟨b.version, by rw [← hname, Function.comp_apply, htag b hb]⟩
    rw [List.map_map, ← List.forall₂_eq_eq_eq, List.forall₂_map_left_iff,
      List.forall₂_map_right_iff, List.forall₂_iff_zip] at htexts
    rw [List.forall₂_iff_zip]
    refine ⟨htexts.1, ?_⟩
    intro r b hrb
    obtain ⟨hr, hb⟩ := List.of_mem_zip hrb
    have hname : r.name = .text b.tag := htexts.2 hrb
    obtain ⟨-, -, hsha, ref, hfirst, hfields⟩ := Repository.readBoundary_eq_ok.mp (hreads b hb).2
    have hfirst' := Repository.firstRef_eq_some hall (Repository.mem_platformTags.mp hr).1
      (htag b hb ▸ hname)
    rw [htag b hb, hfirst', Option.some.injEq] at hfirst
    exact ⟨hname, htag b hb, hsha, hfirst ▸ hfields⟩
  · intro h
    obtain ⟨hnames, htag⟩ := exactTag_names h
    have hlines := readLines_tags htag
    refine ⟨boundaries.map TagBoundary.tag, repository.tagList_eq_ok.mpr ⟨_, hnames, ?_⟩, ?_⟩
    · rw [hlines, map_ofList_toList]
    rw [Repository.readBoundaries_eq_ok, List.forall₂_map_left_iff, List.forall₂_same]
    have hall : ∀ r ∈ repository.platformTags, ∃ v : Version, r.name = .text v.tag := by
      intro r hr
      have hin : r.name ∈ (boundaries.map TagBoundary.tag).map GitText.text :=
        hnames ▸ List.mem_map_of_mem hr
      rw [List.map_map] at hin
      obtain ⟨b, hb, hname⟩ := List.mem_map.mp hin
      exact ⟨b.version, by rw [← hname, Function.comp_apply, htag b hb]⟩
    refine ⟨?_, (tags_nodup_iff htag).mp ?_, by simp⟩
    · intro b hb
      obtain ⟨i, hi, rfl⟩ := List.mem_iff_getElem.mp hb
      obtain ⟨hlen, hget⟩ := List.forall₂_iff_get.mp h
      have hexact : ExactTag repository.store repository.platformTags[i] boundaries[i] :=
        hget i (hlen ▸ hi) hi
      have hin := (Repository.mem_platformTags.mp (List.getElem_mem (hlen ▸ hi))).1
      refine ⟨hexact.tag, Repository.readBoundary_eq_ok.mpr
        ⟨rfl, rfl, hexact.sha, _, ?_, hexact.fields⟩⟩
      rw [hexact.tag]
      exact Repository.firstRef_eq_some hall hin (hexact.tag ▸ hexact.name)
    · exact nodup_listed hnames

/-! ## The chain -/

theorem checkSuccessor_eq_ok {previous boundary : TagBoundary} {u : Unit} :
    checkSuccessor store previous boundary = .ok u ↔ Successor store previous boundary := by
  simp only [checkSuccessor, bind_eq_ok, raiseIf_eq_ok, exists_const, ne_eq, not_not,
    Bool.not_eq_false]
  constructor
  · rintro ⟨hversion, _, -, -, _, -, intents, hintents, hone⟩
    obtain ⟨intent, rfl⟩ := List.length_eq_one_iff.mp hone
    obtain ⟨path, hadds, -⟩ := releaseSurfaceIntents_eq_singleton.mp hintents
    exact ⟨hversion, path, hadds⟩
  · rintro ⟨hversion, path, hadds⟩
    have hne : boundary.sourceSha ≠ previous.sourceSha :=
      (store.graph.ne_of_linear hadds.linear).symm
    obtain ⟨commits, hcommits⟩ := linearCommits_eq_ok.mpr ⟨hadds.commits, hadds.linear⟩
    refine ⟨hversion, true, ?_, rfl, commits, hcommits, _, hadds.intents, by simp⟩
    rw [isLaterSource, if_neg hne, ObjectStore.isAncestor_eq_ok]
    exact ⟨hadds.commits, store.graph.isAncestor_iff.mpr
      (store.graph.ancestor_of_linear hadds.linear)⟩

theorem checkLedger_eq_ok {previous : TagBoundary} {rest : List TagBoundary} {u : Unit} :
    checkLedger store previous rest = .ok u ↔
      (previous :: rest).IsChain (Successor store) := by
  induction rest generalizing previous with
  | nil => simp [checkLedger]
  | cons boundary rest ih =>
    simp only [checkLedger, bind_eq_ok, checkSuccessor_eq_ok, ih, exists_const,
      List.isChain_cons_cons]

theorem mem_cutAtFloor {boundaries : List TagBoundary} {b : TagBoundary} :
    b ∈ cutAtFloor boundaries ↔ b ∈ boundaries ∧ floorVersion ≤ b.version := by
  simp [cutAtFloor, List.mem_insertionSort]

/-- The code returns a ledger exactly when the tags read as boundaries that form one. -/
theorem platformTagBoundaries_eq_ok {ledger : List TagBoundary} :
    platformTagBoundaries repository = .ok ledger ↔
      ∃ boundaries, Reads repository boundaries ∧ cutAtFloor boundaries = ledger := by
  have hcode : platformTagBoundaries repository = .ok ledger ↔ ∃ boundaries,
      List.Forall₂ (ExactTag repository.store) repository.platformTags boundaries ∧
        boundaries.length ≤ maxTagLedgerEntries ∧ IsLedger repository.store
          (cutAtFloor boundaries) ∧ cutAtFloor boundaries = ledger := by
    simp only [platformTagBoundaries, bind_eq_ok, raiseIf_eq_ok, exists_const, not_lt]
    constructor
    · rintro ⟨names, hnames, hbound, boundaries, hread, hledger⟩
      have hexact := readBoundaries_tagList.mp ⟨names, hnames, hread⟩
      have hlen : names.length = boundaries.length :=
        (Repository.readBoundaries_eq_ok.mp hread).1.length_eq
      refine ⟨boundaries, hexact, hlen ▸ hbound, ?_⟩
      cases hcut : cutAtFloor boundaries with
      | nil => simp [hcut] at hledger
      | cons floor rest =>
        rw [hcut] at hledger
        simp only [bind_eq_ok, raiseIf_eq_ok, exists_const, not_or, ne_eq, not_not,
          checkLedger_eq_ok, Except.ok.injEq] at hledger
        obtain ⟨⟨htag, hsha⟩, hchain, rfl⟩ := hledger
        refine ⟨⟨?_, hchain⟩, rfl⟩
        have hin : floor ∈ cutAtFloor boundaries := hcut ▸ List.mem_cons_self
        have hversion : floor.version = floorVersion := by
          apply Version.tag_injective
          rw [← (exactTag_names hexact).2 floor (mem_cutAtFloor.mp hin).1, htag, tag_floorVersion]
        rw [List.head?_cons, Option.some.injEq, floorBoundary, ← hversion, ← htag, ← hsha]
    · rintro ⟨boundaries, hexact, hbound, hledger, rfl⟩
      obtain ⟨names, hnames, hread⟩ := readBoundaries_tagList.mpr hexact
      have hlen : names.length = boundaries.length :=
        (Repository.readBoundaries_eq_ok.mp hread).1.length_eq
      refine ⟨names, hnames, hlen ▸ hbound, boundaries, hread, ?_⟩
      cases hcut : cutAtFloor boundaries with
      | nil =>
        have := hledger.floor
        simp [hcut] at this
      | cons floor rest =>
        rw [hcut] at hledger
        obtain rfl : floor = floorBoundary := by simpa using hledger.floor
        simp only [bind_eq_ok, raiseIf_eq_ok, exists_const, checkLedger_eq_ok]
        exact ⟨by simp [floorBoundary], hledger.chain, trivial⟩
  rw [hcode]
  constructor
  · rintro ⟨boundaries, hexact, hbound, hledger, heq⟩
    exact ⟨boundaries, ⟨hexact, hbound, hledger⟩, heq⟩
  · rintro ⟨boundaries, ⟨hexact, hbound, hledger⟩, heq⟩
    exact ⟨boundaries, hexact, hbound, hledger, heq⟩

theorem length_le_of_ledger {ledger : List TagBoundary}
    (h : platformTagBoundaries repository = .ok ledger) :
    repository.platformTags.length ≤ maxTagLedgerEntries := by
  obtain ⟨boundaries, hreads, -⟩ := platformTagBoundaries_eq_ok.mp h
  exact hreads.exact.length_eq ▸ hreads.bound

end Release
