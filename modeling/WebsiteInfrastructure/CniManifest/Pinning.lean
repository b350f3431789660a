import Mathlib
import WebsiteInfrastructure.CniManifest.Documents
import WebsiteInfrastructure.Library.RegexPieces

/-!
# Pinned images of an accepted manifest

An image key may be spelled in several ways, behind the dashes of a list and at any depth. In an
accepted manifest every image is pinned and pulled only if it is absent exactly if each image key is
spelled as the gate reads it, and its own item has a pull policy that the gate reads or that is right.
-/

namespace CniManifest

open PythonText Regex Regex.Pattern ProtectedHost

/-! ## Entries of block mappings -/

/-- What stands behind the dashes of a list. -/
def behindDashes : Text → Text
  | [] => []
  | c :: cs => if c = ' ' ∨ (c = '-' ∧ cs.head? = some ' ') then behindDashes cs else c :: cs

/-- A key in YAML, plain or quoted. -/
def spellings (key : Text) : List Text := [key, '\'' :: key ++ ['\''], '"' :: key ++ ['"']]

/-- The value behind the colon of a key; blanks may stand before the colon. -/
def behindKey (rest : Text) : Option Text :=
  match rest.dropWhile (· = ' ') with
  | ':' :: value => if value.head?.all (· = ' ') then some value else none
  | _ => none

structure Entry where
  /-- Where the key begins. -/
  column : ℕ
  /-- The key opens the content, is followed by its colon, and has a value on its line. -/
  plain : Bool
  value : Text

/-- The entry of a key on a line, in any spelling. -/
def entryOf (key : Text) (line : Line) : Option Entry :=
  let rest := behindDashes line.content
  (spellings key).findSome? fun spelling =>
    ((rest.dropPrefix? spelling).bind behindKey).map fun value =>
      ⟨line.indent + (line.content.length - rest.length),
        (key ++ [':']).isPrefixOf line.content && value ≠ [], unquote value⟩

/-- A line with the lines above it, last to first, and those below it. -/
structure Place where
  above : List Line
  line : Line
  below : List Line

def placesOf (above : List Line) : List Line → List Place
  | [] => []
  | l :: ls => ⟨above, l, ls⟩ :: placesOf (l :: above) ls

def places (manifest : Text) : List Place := placesOf [] (cleanLines manifest)

namespace Place

/-- The lines of the block mapping with a key of this line in a column: as far as nothing begins left
of the column, and the line before them, which may open the mapping behind a dash. -/
def mappingLines (p : Place) (column : ℕ) : List Line :=
  (if p.line.indent < column then []
    else (p.above.takeWhile fun l => column ≤ l.indent) ++
      (p.above.dropWhile fun l => column ≤ l.indent).head?.toList) ++
    p.line :: p.below.takeWhile fun l => column ≤ l.indent

/-- The pull policies beside a key. -/
def pullPolicies (p : Place) (e : Entry) : List Entry :=
  ((p.mappingLines e.column).filterMap (entryOf (spelled "imagePullPolicy" rfl))).filter
    fun policy => policy.column = e.column

end Place

/-! ## The property and the condition -/

/-- A digest behind a name. -/
def IsPinned (image : Text) : Prop :=
  ∃ name digest : Text, name ≠ [] ∧ image = name ++ (spelled "@sha256:" rfl ++ digest) ∧
    digest.length = 64 ∧ ∀ c ∈ digest, isHexDigit c = true

def ifNotPresent : Text := spelled "IfNotPresent" rfl

/-- An image that the scan of the gate has seen, pinned, with nothing but the right policy beside it. -/
structure Place.Settled (p : Place) (e : Entry) : Prop where
  seen : (recordOf p.line p.above p.below).isSome
  pinned : IsPinned e.value
  stated : p.pullPolicies e ≠ []
  pulled : ∀ policy ∈ p.pullPolicies e, policy.value = ifNotPresent

/-- An image key in flow style, in any spelling; as for the gate, a brace within quotes counts. -/
def flowKey : Pattern :=
  all [char fun c => c = '\x7b' || c = ',', spaces,
    alt (alt (lit "image") (lit "'image'")) (lit "\"image\""), spaces, lit ":"]

/-- Every image is settled, and every document is one of the contract. -/
structure Settled (manifest : Text) (contract : List Identity) : Prop where
  images : ∀ p ∈ places manifest, ∀ e ∈ entryOf (spelled "image" rfl) p.line, p.Settled e
  flow : flowKey.found (cleanText manifest) = false
  documents : ∀ d ∈ yamlDocuments manifest, ∃ id ∈ contract, (resourceOf d 0).identity = some id

/-- How a manifest has to be written for the gate to read all of it. -/
structure Legible (manifest : Text) : Prop where
  plain : ∀ p ∈ places manifest, ∀ e ∈ entryOf (spelled "image" rfl) p.line, e.plain = true
  stated : ∀ p ∈ places manifest, ∀ e ∈ entryOf (spelled "image" rfl) p.line, p.pullPolicies e ≠ []
  pulled : ∀ p ∈ places manifest, ∀ e ∈ entryOf (spelled "image" rfl) p.line,
    ∀ policy ∈ p.pullPolicies e, policy.plain = false → policy.value = ifNotPresent
  flow : flowKey.found (cleanText manifest) = false
  markers : ∀ ls ∈ stretches manifest, markersFirst ls = true

/-! ## Entries that the gate reads -/

theorem strip_dropWhile (value : Text) : strip (value.dropWhile isSpace) = strip value := by
  rw [strip, strip, List.dropWhile_idempotent]

theorem unquote_dropWhile (value : Text) : unquote (value.dropWhile isSpace) = unquote value := by
  rw [unquote, unquote, strip_dropWhile]

theorem scalarOf_append {key raw : Text} (h : raw ≠ []) :
    scalarOf key (key ++ ':' :: raw) = some (raw.dropWhile isSpace) := by
  have hdrop : (key ++ ':' :: raw).dropPrefix? (key ++ [':']) = some raw := by
    rw [List.dropPrefix?_eq_some_iff]
    exact ⟨key ++ [':'], by simp, beq_self_eq_true _⟩
  rw [scalarOf, hdrop]
  exact if_neg h

theorem scalarOf_eq_some {key content value : Text} (h : scalarOf key content = some value) :
    ∃ raw, content = key ++ ':' :: raw ∧ raw ≠ [] ∧ value = raw.dropWhile isSpace := by
  unfold scalarOf at h
  split at h
  · next raw hdrop =>
    obtain ⟨hraw, hvalue⟩ := Option.ite_none_left_eq_some.mp h
    obtain ⟨start, hcontent, hstart⟩ := List.dropPrefix?_eq_some_iff.mp hdrop
    refine ⟨raw, ?_, hraw, (Option.some.inj hvalue).symm⟩
    rw [hcontent, eq_of_beq hstart, List.append_assoc]
    rfl
  · cases h

variable {key : Text} {line : Line} {e : Entry}

theorem behindDashes_of_alpha {c : Char} {cs : Text} (h : c.isAlpha = true) :
    behindDashes (c :: cs) = c :: cs := by
  rw [behindDashes, if_neg]
  rintro (rfl | ⟨rfl, -⟩)
  · cases h
  · cases h

/-- A key at the start of a content, followed by its colon. -/
theorem entryOf_plain {c : Char} {cs raw : Text} (hkey : key = c :: cs) (hc : c.isAlpha = true)
    (hcontent : line.content = key ++ ':' :: raw) : entryOf key line =
      if raw.head?.all (· = ' ') then some ⟨line.indent, raw ≠ [], unquote raw⟩ else none := by
  have hdashes : behindDashes line.content = line.content := by
    rw [hcontent, hkey]
    exact behindDashes_of_alpha hc
  have hplain : line.content.dropPrefix? key = some (':' :: raw) := by
    rw [List.dropPrefix?_eq_some_iff]
    exact ⟨key, hcontent, beq_self_eq_true _⟩
  have hquoted : ∀ q, q.isAlpha = false → line.content.dropPrefix? (q :: key ++ [q]) = none := by
    intro q hq
    have hne : (c == q) = false := by
      rw [beq_eq_false_iff_ne]
      rintro rfl
      rw [hc] at hq
      cases hq
    rw [hcontent, hkey, List.cons_append, List.cons_append, List.dropPrefix?, hne]
    rfl
  have hprefix : (key ++ [':']).isPrefixOf line.content = true := by
    rw [List.isPrefixOf_iff_prefix, hcontent]
    exact ⟨raw, by simp⟩
  simp only [entryOf, hdashes, spellings, List.findSome?_cons, List.findSome?_nil, hplain,
    hquoted '\'' (by decide), hquoted '"' (by decide), Option.bind_some, Option.bind_none,
    Option.map_none, hprefix, Bool.true_and, Nat.sub_self, Nat.add_zero]
  have hcolon : (':' :: raw).dropWhile (fun x => decide (x = ' ')) = ':' :: raw :=
    List.dropWhile_cons_of_neg (by decide)
  rw [behindKey, hcolon]
  by_cases hblank : raw.head?.all (· = ' ') = true <;> simp [hblank]

/-- A plain entry is one that the gate reads, where the line begins. -/
theorem scalarOf_of_plain {c : Char} {cs : Text} (hkey : key = c :: cs) (hc : c.isAlpha = true)
    (h : entryOf key line = some e) (hplain : e.plain = true) :
    e.column = line.indent ∧
      ∃ value, scalarOf key line.content = some value ∧ unquote value = e.value := by
  obtain ⟨spelling, hspelling, hmap⟩ := List.exists_of_findSome?_eq_some h
  obtain ⟨value, -, heq⟩ := Option.map_eq_some_iff.mp hmap
  have hprefix : (key ++ [':']).isPrefixOf line.content = true := by
    rw [← heq, Bool.and_eq_true] at hplain
    exact hplain.1
  obtain ⟨raw, hraw⟩ := List.isPrefixOf_iff_prefix.mp hprefix
  have hcontent : line.content = key ++ ':' :: raw := by rw [← hraw, List.append_assoc]; rfl
  rw [entryOf_plain hkey hc hcontent, Option.ite_none_right_eq_some] at h
  obtain ⟨-, h⟩ := h
  rw [← Option.some.inj h] at hplain ⊢
  have hne : raw ≠ [] := of_decide_eq_true hplain
  refine ⟨rfl, raw.dropWhile isSpace, ?_, unquote_dropWhile raw⟩
  rw [hcontent, scalarOf_append hne]

/-- An entry that the gate reads is plain. -/
theorem plain_of_scalarOf {c : Char} {cs value : Text} (hkey : key = c :: cs)
    (hc : c.isAlpha = true) (h : entryOf key line = some e)
    (hscalar : scalarOf key line.content = some value) : e.plain = true := by
  obtain ⟨raw, hcontent, hne, -⟩ := scalarOf_eq_some hscalar
  rw [entryOf_plain hkey hc hcontent, Option.ite_none_right_eq_some] at h
  rw [← Option.some.inj h.2]
  exact decide_eq_true hne

/-! ## Records of the scan -/

theorem recordsOf_eq (above lines : List Line) :
    recordsOf above lines = (placesOf above lines).filterMap fun p =>
      recordOf p.line p.above p.below := by
  induction lines generalizing above with
  | nil => rfl
  | cons l ls ih =>
    rw [recordsOf, placesOf, List.filterMap_cons, ih]
    dsimp only
    cases recordOf l above ls <;> rfl

/-- The gate looks at least as far up as the mapping reaches. -/
theorem takeWhile_prefix_behindParent {indent : ℕ} {above between : List Line}
    (h : behindParent indent above = some between) :
    (above.takeWhile fun l => indent ≤ l.indent) <+: between := by
  induction above generalizing between with
  | nil => cases h
  | cons l ls ih =>
    rw [behindParent] at h
    split at h
    · cases h
    · split at h
      · next hparent =>
        rw [List.takeWhile_cons_of_neg (by simp; omega)]
        exact List.nil_prefix
      · obtain ⟨rest, hrest, rfl⟩ := Option.map_eq_some_iff.mp h
        rw [List.takeWhile_cons]
        split
        · exact List.cons_prefix_cons.mpr ⟨rfl, ih hrest⟩
        · exact List.nil_prefix

theorem takeWhile_subset {p q : Line → Bool} (h : ∀ l, p l = true → q l = true) {lines : List Line}
    {l : Line} (hl : l ∈ lines.takeWhile p) : l ∈ lines.takeWhile q := by
  induction lines with
  | nil => exact hl
  | cons x xs ih =>
    by_cases hx : p x = true
    · rw [List.takeWhile_cons_of_pos hx] at hl
      rw [List.takeWhile_cons_of_pos (h x hx)]
      rcases List.mem_cons.mp hl with rfl | hl
      · exact List.mem_cons_self
      · exact List.mem_cons_of_mem _ (ih hl)
    · rw [List.takeWhile_cons_of_neg hx] at hl
      cases hl

/-- A plain pull policy beside an image is among those that the gate takes for it. -/
theorem mem_policiesOf {p : Place} {image policy : Entry} {policies : List Text}
    (hcolumn : image.column = p.line.indent)
    (hpolicies : policiesOf p.line p.above p.below = some policies)
    (hmem : policy ∈ p.pullPolicies image) (hplain : policy.plain = true) :
    policy.value ∈ policies := by
  obtain ⟨between, hbetween, rfl⟩ := Option.map_eq_some_iff.mp hpolicies
  obtain ⟨hentry, hsame⟩ := List.mem_filter.mp hmem
  obtain ⟨l, hl, hentry⟩ := List.mem_filterMap.mp hentry
  obtain ⟨hindent, value, hscalar, hunquote⟩ := scalarOf_of_plain rfl (by decide) hentry hplain
  have hvalue : scalarOf (spelled "imagePullPolicy" rfl) l.content = some value := hscalar
  have hindent : l.indent = p.line.indent := by
    rw [← hindent, of_decide_eq_true hsame, hcolumn]
  rw [List.mem_filterMap]
  refine ⟨l, ?_, ?_⟩
  · rw [Place.mappingLines, hcolumn, if_neg (lt_irrefl _), List.mem_append, List.mem_append] at hl
    rw [List.mem_append, List.mem_reverse, List.mem_cons]
    rcases hl with (hl | hl) | hl
    · exact .inl ((takeWhile_prefix_behindParent hbetween).subset hl)
    · -- the line that opens the mapping begins left of the column
      have hout : ¬p.line.indent ≤ l.indent := by
        obtain ⟨rest, hrest⟩ := List.head?_eq_some_iff.mp (Option.mem_toList.mp hl)
        have hnot := List.head?_dropWhile_not (fun l : Line => decide (p.line.indent ≤ l.indent))
          p.above
        rw [hrest] at hnot
        simpa using hnot
      omega
    · rcases List.mem_cons.mp hl with rfl | hl
      · exact .inr (.inl rfl)
      · refine .inr (.inr (takeWhile_subset ?_ hl))
        intro l hl
        simp only [decide_eq_true_eq] at hl ⊢
        omega
  · rw [if_pos hindent, hvalue, Option.map_some, hunquote]

/-- A record with a pull policy has the only one of its item. -/
theorem policiesOf_of_record {line : Line} {above below : List Line} {r : Record} {policy : Text}
    (h : recordOf line above below = some r) (hpolicy : r.policy = some policy) :
    policiesOf line above below = some [policy] := by
  obtain ⟨raw, -, rfl⟩ := Option.map_eq_some_iff.mp h
  split at hpolicy
  · cases hpolicy
  · next found heq =>
    rw [heq, Option.some.inj hpolicy]
  · cases hpolicy

theorem image_of_record {line : Line} {above below : List Line} {r : Record}
    (h : recordOf line above below = some r) :
    ∃ raw, scalarOf (spelled "image" rfl) line.content = some raw ∧ r.image = unquote raw := by
  obtain ⟨raw, hraw, rfl⟩ := Option.map_eq_some_iff.mp h
  refine ⟨raw, hraw, ?_⟩
  split <;> rfl

theorem isSome_recordOf {line : Line} {above below : List Line} :
    (recordOf line above below).isSome = (scalarOf (spelled "image" rfl) line.content).isSome := by
  rw [recordOf, Option.isSome_map]

/-! ## Pinned references -/

theorem one_le_least_repositoryPart : 1 ≤ repositoryPart.least fun _ => true := by
  have hpart : 1 ≤ pathPart.least fun _ => true := by
    rw [pathPart, least, plus, least, least_char_of fun _ _ => rfl]
    omega
  rw [repositoryPart, least]
  exact hpart.trans (le_least_all List.mem_cons_self)

/-- What the gate takes for an image is pinned. -/
theorem isPinned_of_imageGroups {value : Text} (h : (imageGroups value).isSome) : IsPinned value := by
  rw [imageGroups, Option.isSome_map, List.find?_isSome] at h
  obtain ⟨d, hd, hend⟩ := h
  rw [image] at hd
  obtain ⟨repository, hrepository, hd⟩ := mem_all_cons.mp hd
  obtain ⟨tag, htag, hd⟩ := mem_all_cons.mp hd
  obtain ⟨sign, hsign, hd⟩ := mem_all_cons.mp hd
  obtain ⟨digest, hdigest, hd⟩ := mem_all_cons.mp hd
  have hd : d = digest := List.mem_singleton.mp hd
  obtain ⟨e, he, hgroup⟩ := mem_group.mp hdigest
  have hdigits : e ∈ (all (List.replicate 64 (char isHexDigit))).ends sign := by
    rwa [times, List.replicate_zero, List.append_nil] at he
  obtain ⟨hex, hhex, hlength, hall⟩ := taken_of_mem_replicate hdigits
  have hrest : e.rest = [] := by
    rw [hd, hgroup] at hend
    exact List.isEmpty_iff.mp hend
  rw [hrest, List.append_nil] at hhex
  have hsigned := (taken_of_mem_lit hsign).1
  obtain ⟨atag, hatag, -⟩ := taken_of_mem_ends htag
  obtain ⟨arepo, harepo, -⟩ := taken_of_mem_ends hrepository
  refine ⟨arepo ++ atag, hex, ?_, ?_, hlength, hall⟩
  · -- a repository has at least one character
    have hleast := least_add_le (p := fun _ => true) hrepository
    have hone := one_le_least_repositoryPart
    rw [List.countP_true, harepo, List.length_append] at hleast
    intro hnil
    rw [(List.append_eq_nil_iff.mp hnil).1, List.length_nil] at hleast
    omega
  · have hvalue : value = arepo ++ repository.rest := harepo
    simp (disch := exact rfl) only [toList_spelled] at hsigned
    rw [hvalue, hatag, hsigned, hhex, List.append_assoc]
    rfl

/-! ## Accepted manifests -/

theorem errorUnless_eq_nil {condition : Bool} {error : String} :
    errorUnless condition error = [] ↔ condition = true := by
  cases condition <;> simp [errorUnless]

/-- Resources without an error are resources of the contract. -/
theorem contract_of_contractErrors {contract : List Identity} {provider : Option Text}
    {seen : List Identity} {resources : List Resource}
    (h : contractErrors contract provider seen resources = []) :
    ∀ r ∈ resources, ∃ id ∈ contract, r.identity = some id := by
  induction resources generalizing seen with
  | nil => simp
  | cons r rs ih =>
    rw [List.forall_mem_cons]
    unfold contractErrors at h
    split at h
    · cases h
    · next id hid =>
      split at h
      · cases h
      · next hmem =>
        exact ⟨⟨id, not_not.mp hmem, hid⟩, ih (List.append_eq_nil_iff.mp h).2⟩

section Accepted

variable [Characters] [UnicodeDigits] {manifest decisionText : Text} {actual : Option Text}

/-- What the gate has made sure of. -/
structure Passed (manifest : Text) (contract : List Identity) : Prop where
  documents : ∀ r ∈ resourceIndex manifest, ∃ id ∈ contract, r.identity = some id
  images : ∀ r ∈ imageRecords manifest, (imageGroups r.image).isSome ∧
    r.policy = some ifNotPresent

theorem passed_of_validate (h : validate manifest decisionText actual = some []) :
    ∃ contract, resourceContract (cniProvider (parseDecisions decisionText)) = some contract ∧
      Passed manifest contract := by
  obtain ⟨decisionErrors, hdecisions, hall⟩ := Option.map_eq_some_iff.mp h
  simp only [List.append_eq_nil_iff] at hall
  obtain ⟨⟨⟨⟨⟨⟨⟨⟨⟨⟨-, -⟩, hnone⟩, -⟩, -⟩, hcontract⟩, -⟩, -⟩, -⟩, -⟩, himages⟩ := hall
  obtain ⟨foreign, -, hchecks⟩ := Option.map_eq_some_iff.mp hdecisions
  rw [hnone] at hchecks
  simp only [List.append_eq_nil_iff, errorUnless_eq_nil] at hchecks
  have hprovider := hchecks.1.1.1.1.1.1.1
  obtain ⟨contract, hfound⟩ : ∃ contract,
      resourceContract (cniProvider (parseDecisions decisionText)) = some contract := by
    rw [Bool.or_eq_true, decide_eq_true_eq, decide_eq_true_eq] at hprovider
    unfold resourceContract
    rcases hprovider with hprovider | hprovider <;> rw [hprovider]
    · exact ⟨_, if_pos rfl⟩
    · exact ⟨_, by rw [if_neg (by decide), if_pos rfl]⟩
  refine ⟨contract, hfound, ?_, ?_⟩
  · unfold validateResourceContract at hcontract
    rw [hfound] at hcontract
    exact contract_of_contractErrors hcontract
  · unfold validateImages at himages
    obtain ⟨-, himages⟩ := List.append_eq_nil_iff.mp himages
    intro r hr
    rw [if_neg (List.ne_nil_of_mem hr)] at himages
    simp only [List.append_eq_nil_iff, List.flatMap_eq_nil_iff, errorUnless_eq_nil,
      List.all_eq_true, decide_eq_true_eq] at himages
    exact ⟨himages.1.1 r hr, himages.1.2 r hr⟩

omit [Characters] [UnicodeDigits] in
theorem mem_imageRecords {p : Place} (hp : p ∈ places manifest) {r : Record}
    (h : recordOf p.line p.above p.below = some r) : r ∈ imageRecords manifest := by
  rw [imageRecords, recordsOf_eq]
  exact List.mem_filterMap.mpr ⟨p, hp, h⟩

variable {contract : List Identity}

omit [Characters] [UnicodeDigits] in
/-- What the gate has made sure of an image that it reads. -/
theorem settled_of_plain (h : Passed manifest contract) {p : Place} (hp : p ∈ places manifest)
    {e : Entry} (he : entryOf (spelled "image" rfl) p.line = some e) (hplain : e.plain = true)
    (hstated : p.pullPolicies e ≠ [])
    (hpulled : ∀ policy ∈ p.pullPolicies e, policy.plain = false → policy.value = ifNotPresent) :
    p.Settled e := by
  obtain ⟨hcolumn, value, hvalue, hunquote⟩ := scalarOf_of_plain rfl (by decide) he hplain
  have hscalar : scalarOf (spelled "image" rfl) p.line.content = some value := hvalue
  have hseen : (recordOf p.line p.above p.below).isSome := by
    rw [isSome_recordOf, hscalar]
    rfl
  obtain ⟨r, hr⟩ := Option.isSome_iff_exists.mp hseen
  obtain ⟨hgroups, hpolicy⟩ := h.images r (mem_imageRecords hp hr)
  obtain ⟨raw, hraw, himage⟩ := image_of_record hr
  have himage : r.image = e.value := by
    rw [hscalar] at hraw
    rw [himage, ← Option.some.inj hraw, hunquote]
  refine ⟨hseen, ?_, hstated, ?_⟩
  · rw [← himage]
    exact isPinned_of_imageGroups hgroups
  · intro policy hmem
    cases hkind : policy.plain with
    | false => exact hpulled policy hmem hkind
    | true =>
      have honly := mem_policiesOf hcolumn (policiesOf_of_record hr hpolicy) hmem hkind
      exact List.mem_singleton.mp honly

omit [Characters] [UnicodeDigits] in
/-- The documents of the gate are those by all markers, where no marker has anything before it. -/
theorem documents_iff (h : Passed manifest contract) :
    (∀ d ∈ yamlDocuments manifest, ∃ id ∈ contract, (resourceOf d 0).identity = some id) ↔
      ∀ ls ∈ stretches manifest, markersFirst ls = true := by
  have hbreaks : ∀ ls ∈ stretches manifest, ∀ l ∈ ls, ∀ c ∈ l, isLineBreak c = false := by
    intro ls hls l hl
    exact isLineBreak_of_mem_splitlines (mem_of_mem_stretches hls hl)
  have hparts : ∀ ls ∈ stretches manifest, (∀ part ∈ (atMarkers ls).filter fun part =>
      !isEmptyDocument part, ∃ id ∈ contract,
        (resourceOf (['\n'].intercalate part) 0).identity = some id) ↔ markersFirst ls = true := by
    intro ls hls
    cases hempty : isEmptyDocument ls with
    | true =>
      obtain ⟨hnone, hfirst⟩ := parts_of_isEmptyDocument hempty
      simp [hnone, hfirst]
    | false =>
      have hdocument : ['\n'].intercalate ls ∈ documents manifest := by
        refine List.mem_map.mpr ⟨ls, List.mem_filter.mpr ⟨hls, ?_⟩, rfl⟩
        rw [isEmptyDocument, List.all_eq_false] at hempty
        obtain ⟨l, hl, hnot⟩ := hempty
        exact List.any_eq_true.mpr ⟨l, hl, by simpa using hnot⟩
      obtain ⟨index, hindex⟩ : ∃ index, resourceOf (['\n'].intercalate ls) index ∈
          resourceIndex manifest := by
        obtain ⟨i, hi, heq⟩ := List.getElem_of_mem hdocument
        refine ⟨1 + i, List.mem_map.mpr ⟨((documents manifest)[i], 1 + i), ?_, by rw [heq]⟩⟩
        rw [List.mem_zipIdx_iff_le_and_getElem?_sub]
        simp [hi]
      obtain ⟨id, hmem, hid⟩ := h.documents _ hindex
      exact parts_reviewed_iff (hbreaks ls hls) hempty hid hmem
  simp only [yamlDocuments, List.forall_mem_map, List.mem_filter, List.mem_flatMap]
  simp only [List.mem_filter] at hparts
  constructor
  · intro hall ls hls
    rw [← hparts ls hls]
    exact fun part hpart => hall part ⟨⟨ls, hls, hpart.1⟩, hpart.2⟩
  · rintro hall part ⟨⟨ls, hls, hpart⟩, hfull⟩
    exact (hparts ls hls).mpr (hall ls hls) part ⟨hpart, hfull⟩

/-- Every image of an accepted manifest is pinned and every document reviewed, exactly if the manifest
is written as the gate reads it. -/
theorem settled_iff_legible (h : validate manifest decisionText actual = some []) :
    ∃ contract, resourceContract (cniProvider (parseDecisions decisionText)) = some contract ∧
      (Settled manifest contract ↔ Legible manifest) := by
  obtain ⟨contract, hcontract, hpassed⟩ := passed_of_validate h
  refine ⟨contract, hcontract, ?_, ?_⟩
  · intro hsettled
    refine ⟨?_, ?_, ?_, hsettled.flow, (documents_iff hpassed).mp hsettled.documents⟩
    · intro p hp e he
      have hseen := (hsettled.images p hp e he).seen
      rw [isSome_recordOf] at hseen
      obtain ⟨value, hvalue⟩ := Option.isSome_iff_exists.mp hseen
      exact plain_of_scalarOf rfl (by decide) he hvalue
    · exact fun p hp e he => (hsettled.images p hp e he).stated
    · exact fun p hp e he policy hpolicy _ => (hsettled.images p hp e he).pulled policy hpolicy
  · intro hlegible
    refine ⟨?_, hlegible.flow, (documents_iff hpassed).mpr hlegible.markers⟩
    intro p hp e he
    exact settled_of_plain hpassed hp he (hlegible.plain p hp e he) (hlegible.stated p hp e he)
      (hlegible.pulled p hp e he)

end Accepted

/-! ## A manifest of Cilium -/

/-- With some more lines in the list of containers. -/
def sampleManifest (extra : List Text) : Text := unlines ([
  spelled "apiVersion: v1" rfl,
  spelled "kind: ConfigMap" rfl,
  spelled "metadata:" rfl,
  spelled "  name: cilium-config" rfl,
  spelled "  namespace: kube-system" rfl,
  spelled "data:" rfl,
  spelled "  ipam: cluster-pool" rfl,
  spelled "  cluster-pool-ipv4-cidr: 10.0.0.0/8" rfl,
  spelled "  mtu: 1450" rfl,
  spelled "  kube-proxy-replacement: false" rfl,
  spelled "  enable-node-port: false" rfl,
  spelled "  bpf-lb-sock: false" rfl,
  spelled "  enable-policy: default" rfl,
  spelled "  routing-mode: native" rfl,
  spelled "  ipv4-native-routing-cidr: 10.0.0.0/8" rfl,
  spelled "---" rfl,
  spelled "apiVersion: apps/v1" rfl,
  spelled "kind: DaemonSet" rfl,
  spelled "metadata:" rfl,
  spelled "  name: cilium" rfl,
  spelled "  namespace: kube-system" rfl,
  spelled "spec:" rfl,
  spelled "  template:" rfl,
  spelled "    spec:" rfl,
  spelled "      containers:" rfl,
  spelled "        - name: agent" rfl,
  spelled "          image: quay.io/cilium/cilium:v1.20.0@sha256:" rfl ++ List.replicate 64 'a',
  spelled "          imagePullPolicy: IfNotPresent" rfl] ++ extra)

def sampleDecisions (digest : Text) : Text := unlines [
  spelled "POD_CIDR=10.0.0.0/8" rfl,
  spelled "KUBE_PROXY_OPERATION=installed" rfl,
  spelled "CNI_PROVIDER=cilium" rfl,
  spelled "CNI_VERSION=v1.20.0" rfl,
  spelled "CNI_DATAPLANE=kube-proxy" rfl,
  spelled "CNI_TUNNEL_MODE=native" rfl,
  spelled "CNI_MTU=1450" rfl,
  spelled "CNI_HOST_NETWORK_REQUIREMENTS=none" rfl,
  spelled "CNI_MANIFEST_SHA256=" rfl ++ digest,
  spelled "CNI_NETWORK_POLICY_PROVEN=yes" rfl]
def sampleDigest : Text := List.replicate 64 'b'

/-- A container whose image key is quoted. -/
def quotedContainer : List Text := [
  spelled "        - name: side" rfl,
  spelled "          \"image\": nginx:latest" rfl]

theorem sampleManifest_settled :
    @validate asciiCharacters asciiDigits (sampleManifest []) (sampleDecisions sampleDigest)
      (some sampleDigest) = some [] ∧ ∃ contract, Settled (sampleManifest []) contract := by
  have hvalidate : @validate asciiCharacters asciiDigits (sampleManifest [])
      (sampleDecisions sampleDigest) (some sampleDigest) = some [] := by decide +kernel
  obtain ⟨contract, -, hiff⟩ :=
    @settled_iff_legible asciiCharacters asciiDigits _ _ _ hvalidate
  refine ⟨hvalidate, contract, hiff.mpr ⟨?_, ?_, ?_, ?_, ?_⟩⟩
  all_goals decide +kernel

/-- The gate takes a quoted image key for no image. -/
theorem quotedContainer_unsettled :
    @validate asciiCharacters asciiDigits (sampleManifest quotedContainer)
      (sampleDecisions sampleDigest) (some sampleDigest) = some [] ∧
      ¬∃ contract, Settled (sampleManifest quotedContainer) contract := by
  refine ⟨by decide +kernel, ?_⟩
  rintro ⟨contract, h⟩
  have hunseen : ¬∀ p ∈ places (sampleManifest quotedContainer),
      ∀ e ∈ entryOf (spelled "image" rfl) p.line,
        (recordOf p.line p.above p.below).isSome = true := by decide +kernel
  exact hunseen fun p hp e he => (h.images p hp e he).seen

end CniManifest
