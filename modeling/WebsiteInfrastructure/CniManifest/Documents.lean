import Mathlib
import WebsiteInfrastructure.CniManifest.Validator

/-!
# The documents of a manifest

YAML lets a document begin on the line of its marker, as in `--- text`; the gate splits a manifest
only where a marker stands alone. Both splits yield the same reviewed documents exactly if no such
line has anything before it in its document.
-/

namespace CniManifest

open PythonText

/-! ## What the fields of a document depend on -/

/-- A line without its number. -/
def Line.bare (l : Line) : Line := { l with number := 0 }

def bareLines (text : Text) : List Line := (cleanLines text).map Line.bare

theorem bare_cleanLine (original : Text) (number : ℕ) :
    (cleanLine original number).map Line.bare = cleanLine original 0 := by
  unfold cleanLine
  split <;> rfl

theorem bareLines_eq (text : Text) : bareLines text = (splitlines text).filterMap (cleanLine · 0) := by
  rw [bareLines, cleanLines, List.map_filterMap]
  have hstep : ∀ (ls : List Text) (k : ℕ),
      ((ls.zipIdx k).filterMap fun l => (cleanLine l.1 l.2).map Line.bare) =
        ls.filterMap (cleanLine · 0) := by
    intro ls
    induction ls with
    | nil => intro k; rfl
    | cons l ls ih =>
      intro k
      rw [List.zipIdx_cons, List.filterMap_cons, List.filterMap_cons, ih, bare_cleanLine]
  exact hstep _ 1

theorem isBlank_nil : isBlank [] = true := by decide

theorem cleanLine_of_isBlank {line : Text} (h : isBlank line = true) (number : ℕ) :
    cleanLine line number = none := if_pos (.inr h)

/-- The lines of a text that is put together from lines. -/
theorem bareLines_intercalate {ls : List Text} (h : ∀ l ∈ ls, ∀ c ∈ l, isLineBreak c = false) :
    bareLines (['\n'].intercalate ls) = ls.filterMap (cleanLine · 0) := by
  have hline : ∀ l : Text, (∀ c ∈ l, isLineBreak c = false) →
      (splitlines l).filterMap (cleanLine · 0) = [l].filterMap (cleanLine · 0) := by
    intro l hl
    rcases eq_or_ne l [] with rfl | hne
    · rw [List.filterMap_cons, cleanLine_of_isBlank isBlank_nil]
      rfl
    · rw [splitlines_plain hne hl]
  rw [bareLines_eq]
  induction ls with
  | nil => rfl
  | cons l ls ih =>
    rw [List.forall_mem_cons] at h
    cases ls with
    | nil => simpa using hline l h.1
    | cons m ls =>
      have hjoin : ['\n'].intercalate (l :: m :: ls) =
          l ++ '\n' :: ['\n'].intercalate (m :: ls) := by simp [List.intercalate]
      rw [hjoin, splitlines_append_feed, splitlines_plain_newline h.1, List.filterMap_append, ih h.2,
        ← List.filterMap_append]
      rfl

theorem topMatches_eq (document key : Text) :
    topMatches document key = (bareLines document).filterMap fun l =>
      if l.indent = 0 then (scalarOf key l.content).map unquote else none := by
  rw [bareLines, List.filterMap_map]
  rfl

theorem children_bare (name : Text) (lines : List Line) :
    children name (lines.map Line.bare) = (children name lines).map Line.bare := by
  rw [children, children, List.dropWhile_map, ← List.map_drop, List.takeWhile_map, List.filter_map]
  rfl

theorem entries_addLine (name : Text) {m m' : Mapping} (h : m.entries = m'.entries) (line : Line) :
    (m.addLine name line).entries = (m'.addLine name line.bare).entries := by
  unfold Mapping.addLine
  simp only [Mapping.get?, h]
  cases hfield : fieldOf line.content with
  | none =>
    rw [show line.bare.content = line.content from rfl, hfield]
    exact h
  | some field =>
    rw [show line.bare.content = line.content from rfl, hfield]
    by_cases hkey : (m'.entries.lookup field.1).isSome
    · simp only [hkey, if_true]
    · by_cases hraw : field.2 = [] ∨ field.2 ∈ blockScalars
      · simp [hkey, hraw, h]
      · simp [hkey, hraw]

theorem entries_foldl (name : Text) {m m' : Mapping} (h : m.entries = m'.entries)
    (lines : List Line) :
    (lines.foldl (Mapping.addLine name) m).entries =
      ((lines.map Line.bare).foldl (Mapping.addLine name) m').entries := by
  induction lines generalizing m m' with
  | nil => exact h
  | cons l ls ih => exact ih (entries_addLine name h l)

/-- The entries of a mapping do not depend on where its lines stand in the document. -/
theorem directMapping_entries_congr {d d' : Text} (h : bareLines d = bareLines d') (name : Text) :
    (directMapping d name).entries = (directMapping d' name).entries := by
  have hcount : ∀ d, (cleanLines d).countP (isHeader name) = (bareLines d).countP (isHeader name) := by
    intro d
    rw [bareLines, List.countP_map]
    rfl
  have hentries : ∀ d, (directMapping d name).entries =
      if 1 < (bareLines d).countP (isHeader name) then []
      else ((children name (bareLines d)).foldl (Mapping.addLine name) ⟨[], []⟩).entries := by
    intro d
    have hfold := @entries_foldl name ⟨[], tabErrors d⟩ ⟨[], []⟩ rfl (children name (cleanLines d))
    rw [directMapping, hcount]
    split
    · rfl
    · rw [hfold, bareLines, children_bare]
  rw [hentries, hentries, h]

/-- The identity of a document is that of its lines. -/
theorem identity_congr {d d' : Text} (h : bareLines d = bareLines d') (index index' : ℕ) :
    (resourceOf d index).identity = (resourceOf d' index').identity := by
  simp only [Resource.identity, resourceOf, topScalar, topMatches_eq, metadata, Mapping.get?, h,
    directMapping_entries_congr h]

/-- A document with an identity has one line with its API version. -/
theorem length_topMatches_of_identity {d : Text} {index : ℕ} {id : Identity}
    (h : (resourceOf d index).identity = some id) :
    (topMatches d (spelled "apiVersion" rfl)).length = 1 := by
  obtain ⟨version, hversion, -⟩ := Option.bind_eq_some_iff.mp h
  have hversion : topScalar d (spelled "apiVersion" rfl) = some version := hversion
  unfold topScalar at hversion
  split at hversion
  · next value hvalue => rw [hvalue]; rfl
  · cases hversion

/-! ## Documents by their markers -/

/-- A marker with text behind it. -/
def opensDocument (line : Text) : Bool := ['-', '-', '-', ' '].isPrefixOf line

/-- Lines split before each marker. -/
def atMarkers : List Text → List (List Text)
  | [] => [[]]
  | l :: ls =>
    match atMarkers ls with
    | [] => [[l]]
    | d :: ds => if opensDocument l then [] :: (l :: d) :: ds else (l :: d) :: ds

/-- A document of which nothing but blanks and comments is left is none. -/
def isEmptyDocument (ls : List Text) : Bool := ls.all isBlank

/-- The documents of a manifest by all its markers. -/
def yamlDocuments (manifest : Text) : List Text :=
  (((stretches manifest).flatMap atMarkers).filter fun ls => !isEmptyDocument ls).map
    (['\n'].intercalate ·)

/-- Behind the first line with something on it, no line is a marker with text. -/
def markersFirst (ls : List Text) : Bool :=
  ((ls.dropWhile isBlank).drop 1).all fun l => !opensDocument l

theorem atMarkers_ne_nil (ls : List Text) : atMarkers ls ≠ [] := by
  cases ls with
  | nil => simp [atMarkers]
  | cons l ls =>
    unfold atMarkers
    split
    · simp
    · split <;> simp

theorem atMarkers_cons (l : Text) (ls : List Text) : ∃ d ds, atMarkers ls = d :: ds ∧
    atMarkers (l :: ls) = if opensDocument l then [] :: (l :: d) :: ds else (l :: d) :: ds := by
  obtain ⟨d, ds, h⟩ := List.exists_cons_of_ne_nil (atMarkers_ne_nil ls)
  exact ⟨d, ds, h, by rw [atMarkers, h]⟩

theorem flatten_atMarkers (ls : List Text) : (atMarkers ls).flatten = ls := by
  induction ls with
  | nil => rfl
  | cons l ls ih =>
    obtain ⟨d, ds, h, hcons⟩ := atMarkers_cons l ls
    rw [h] at ih
    rw [hcons]
    split <;> simpa using ih

theorem atMarkers_of_plain {ls : List Text} (h : ∀ l ∈ ls, opensDocument l = false) :
    atMarkers ls = [ls] := by
  induction ls with
  | nil => rfl
  | cons l ls ih =>
    rw [List.forall_mem_cons] at h
    rw [atMarkers, ih h.2]
    simp [h.1]

/-- What is before a marker is split on its own. -/
theorem atMarkers_append {l : Text} (h : opensDocument l = true) (a b : List Text) :
    ∃ d ds, atMarkers b = d :: ds ∧ atMarkers (a ++ l :: b) = atMarkers a ++ (l :: d) :: ds := by
  induction a with
  | nil =>
    obtain ⟨d, ds, hb, hcons⟩ := atMarkers_cons l b
    exact ⟨d, ds, hb, by rw [List.nil_append, hcons, if_pos h]; rfl⟩
  | cons x a ih =>
    obtain ⟨d, ds, hb, happend⟩ := ih
    obtain ⟨e, es, ha, hcons⟩ := atMarkers_cons x a
    refine ⟨d, ds, hb, ?_⟩
    rw [hcons, List.cons_append, atMarkers, happend, ha]
    dsimp only [List.cons_append]
    split <;> rfl

theorem beforeComment_dash (cs : Text) :
    ∃ ds, beforeComment none false none ('-' :: cs) = '-' :: ds :=
  ⟨beforeComment none false (some '-') cs, by simp [beforeComment]⟩

/-- A marker is no blank line. -/
theorem isBlank_of_opensDocument {l : Text} (h : opensDocument l = true) : isBlank l = false := by
  obtain ⟨cs, rfl⟩ := List.isPrefixOf_iff_prefix.mp h
  obtain ⟨ds, hds⟩ := beforeComment_dash ('-' :: '-' :: ' ' :: cs)
  have hdash : isSpace '-' = false := isSpace_of_printable (by decide)
  have hkept : ∀ rest : Text, ∃ more, (('-' :: rest).rdropWhile isSpace) = '-' :: more := by
    intro rest
    have hprefix : ['-'] <+: '-' :: rest := ⟨rest, rfl⟩
    obtain ⟨more, hmore⟩ := prefix_rdropWhile hprefix (by simp [hdash])
    exact ⟨more, hmore.symm⟩
  obtain ⟨es, hes⟩ := hkept ds
  obtain ⟨fs, hfs⟩ := hkept es
  have hwithout : withoutComment (['-', '-', '-', ' '] ++ cs) = '-' :: es := by
    rw [withoutComment, ← hes, ← hds]
    rfl
  rw [isBlank, hwithout, strip, List.dropWhile_cons_of_neg (by simp [hdash]), hfs]
  rfl

/-! ## The two splits -/

/-- The lines between boundaries are lines of the text. -/
theorem mem_of_mem_stretches {manifest : Text} {ls : List Text} (h : ls ∈ stretches manifest)
    {l : Text} (hl : l ∈ ls) : l ∈ splitlines manifest := by
  rw [stretches] at h
  generalize splitlines manifest = lines at h ⊢
  induction lines generalizing ls with
  | nil =>
    rw [List.splitOnP_nil, List.mem_singleton] at h
    rw [h] at hl
    cases hl
  | cons x xs ih =>
    rw [List.splitOnP_cons_eq_if_modifyHead] at h
    split at h
    · rcases List.mem_cons.mp h with rfl | h
      · cases hl
      · exact List.mem_cons_of_mem _ (ih hl h)
    · obtain ⟨first, rest, hsplit⟩ := List.exists_cons_of_ne_nil (List.splitOnP_ne_nil isBoundary xs)
      rw [hsplit, List.modifyHead_cons] at h
      rw [hsplit] at ih
      rcases List.mem_cons.mp h with rfl | h
      · rcases List.mem_cons.mp hl with rfl | hl
        · exact List.mem_cons_self
        · exact List.mem_cons_of_mem _ (ih hl List.mem_cons_self)
      · exact List.mem_cons_of_mem _ (ih hl (List.mem_cons_of_mem _ h))

/-- The API versions of a document in parts. -/
theorem topMatches_flatten {parts : List (List Text)}
    (h : ∀ part ∈ parts, ∀ l ∈ part, ∀ c ∈ l, isLineBreak c = false) (key : Text) :
    topMatches (['\n'].intercalate parts.flatten) key =
      parts.flatMap fun part => topMatches (['\n'].intercalate part) key := by
  have hflat : ∀ l ∈ parts.flatten, ∀ c ∈ l, isLineBreak c = false := by
    intro l hl
    obtain ⟨part, hpart, hl⟩ := List.mem_flatten.mp hl
    exact h part hpart l hl
  rw [topMatches_eq, bareLines_intercalate hflat]
  clear hflat
  induction parts with
  | nil => rfl
  | cons part parts ih =>
    rw [List.forall_mem_cons] at h
    rw [List.flatten_cons, List.filterMap_append, List.filterMap_append, ih h.2, List.flatMap_cons,
      topMatches_eq, bareLines_intercalate h.1]

variable {ls : List Text}

/-- Lines of which only one part has something on it. -/
theorem bareLines_of_blank {a b : List Text} (ha : isEmptyDocument a = true)
    (h : ∀ l ∈ a ++ b, ∀ c ∈ l, isLineBreak c = false) :
    bareLines (['\n'].intercalate (a ++ b)) = bareLines (['\n'].intercalate b) := by
  have hb : ∀ l ∈ b, ∀ c ∈ l, isLineBreak c = false := fun l hl => h l (List.mem_append_right _ hl)
  rw [bareLines_intercalate h, bareLines_intercalate hb, List.filterMap_append]
  have hnone : a.filterMap (cleanLine · 0) = [] := by
    rw [List.filterMap_eq_nil_iff]
    intro l hl
    exact cleanLine_of_isBlank (List.all_eq_true.mp ha l hl) 0
  rw [hnone, List.nil_append]

/-- Some marker has something before it. -/
theorem exists_marker_of_not_markersFirst (h : markersFirst ls = false) :
    ∃ a l b, ls = a ++ l :: b ∧ opensDocument l = true ∧ isEmptyDocument a = false := by
  rw [markersFirst, List.all_eq_false] at h
  obtain ⟨l, hl, hopens⟩ := h
  have hopens : opensDocument l = true := by simpa using hopens
  cases hdrop : ls.dropWhile isBlank with
  | nil =>
    rw [hdrop] at hl
    cases hl
  | cons x rest =>
    rw [hdrop] at hl
    obtain ⟨a, b, hsplit⟩ := List.append_of_mem (show l ∈ rest from hl)
    have hx : isBlank x = false := by
      have hnot := List.dropWhile_get_zero_not isBlank ls (by rw [hdrop]; simp)
      simpa [hdrop] using hnot
    refine ⟨ls.takeWhile isBlank ++ x :: a, l, b, ?_, hopens, ?_⟩
    · rw [List.append_assoc, List.cons_append, ← hsplit, ← hdrop, List.takeWhile_append_dropWhile]
    · rw [isEmptyDocument, List.all_eq_false]
      exact ⟨x, by simp, by simp [hx]⟩

/-- The parts of lines whose only marker, if any, comes first. -/
theorem parts_of_markersFirst (h : markersFirst ls = true) (hls : isEmptyDocument ls = false) :
    ∃ a b, ls = a ++ b ∧ isEmptyDocument a = true ∧
      ((atMarkers ls).filter fun part => !isEmptyDocument part) = [b] := by
  have hblank : ∀ l ∈ ls.takeWhile isBlank, isBlank l = true := fun l hl => List.mem_takeWhile_imp hl
  have hempty : isEmptyDocument (ls.takeWhile isBlank) = true := List.all_eq_true.mpr hblank
  have hplainBlank : ∀ l ∈ ls.takeWhile isBlank, opensDocument l = false := by
    intro l hl
    by_contra hopens
    have hnot := isBlank_of_opensDocument (Bool.not_eq_false _ ▸ hopens)
    rw [hblank l hl] at hnot
    cases hnot
  cases hdrop : ls.dropWhile isBlank with
  | nil =>
    have hall := List.takeWhile_append_dropWhile (p := isBlank) (l := ls)
    rw [hdrop, List.append_nil] at hall
    rw [← hall, hempty] at hls
    cases hls
  | cons x rest =>
    have hx : isBlank x = false := by
      have hnot := List.dropWhile_get_zero_not isBlank ls (by rw [hdrop]; simp)
      simpa [hdrop] using hnot
    have hsplit : ls = ls.takeWhile isBlank ++ x :: rest := by
      rw [← hdrop, List.takeWhile_append_dropWhile]
    have hrest : ∀ l ∈ rest, opensDocument l = false := by
      rw [markersFirst, hdrop] at h
      simpa using h
    have hfull : ∀ a : List Text, isEmptyDocument (a ++ x :: rest) = false := by
      intro a
      rw [isEmptyDocument, List.all_eq_false]
      exact ⟨x, by simp, by simp [hx]⟩
    cases hopens : opensDocument x with
    | true =>
      refine ⟨_, _, hsplit, hempty, ?_⟩
      obtain ⟨d, ds, hparts, happend⟩ := atMarkers_append hopens (ls.takeWhile isBlank) rest
      rw [atMarkers_of_plain hrest] at hparts
      obtain ⟨rfl, rfl⟩ := List.cons.inj hparts
      rw [hsplit, happend, atMarkers_of_plain hplainBlank]
      have hkept := hfull []
      rw [List.nil_append] at hkept
      simp [hempty, hkept]
    | false =>
      refine ⟨[], ls, rfl, rfl, ?_⟩
      have hplain : ∀ l ∈ ls, opensDocument l = false := by
        intro l hl
        rw [hsplit, List.mem_append, List.mem_cons] at hl
        rcases hl with hl | rfl | hl
        · exact hplainBlank l hl
        · exact hopens
        · exact hrest l hl
      rw [atMarkers_of_plain hplain]
      simp [hls]

/-- Lines with nothing on them have no document in any way. -/
theorem parts_of_isEmptyDocument (h : isEmptyDocument ls = true) :
    ((atMarkers ls).filter fun part => !isEmptyDocument part) = [] ∧ markersFirst ls = true := by
  rw [isEmptyDocument, List.all_eq_true] at h
  constructor
  · rw [List.filter_eq_nil_iff]
    intro part hpart
    have hempty : isEmptyDocument part = true := by
      rw [isEmptyDocument, List.all_eq_true]
      intro l hl
      apply h
      rw [← flatten_atMarkers ls]
      exact List.mem_flatten.mpr ⟨part, hpart, hl⟩
    simp [hempty]
  · have hdrop : ls.dropWhile isBlank = [] := List.dropWhile_eq_nil_iff.mpr h
    rw [markersFirst, hdrop]
    rfl

/-- The parts of reviewed lines are reviewed documents exactly if no marker has anything before it. -/
theorem parts_reviewed_iff {contract : List Identity} {index : ℕ} {id : Identity}
    (hplain : ∀ l ∈ ls, ∀ c ∈ l, isLineBreak c = false) (hls : isEmptyDocument ls = false)
    (hid : (resourceOf (['\n'].intercalate ls) index).identity = some id) (hmem : id ∈ contract) :
    (∀ part ∈ (atMarkers ls).filter fun part => !isEmptyDocument part, ∃ id ∈ contract,
      (resourceOf (['\n'].intercalate part) 0).identity = some id) ↔ markersFirst ls = true := by
  constructor
  · intro hparts
    by_contra hnot
    obtain ⟨a, l, b, rfl, hopens, ha⟩ :=
      exists_marker_of_not_markersFirst (Bool.not_eq_true _ ▸ hnot)
    obtain ⟨d, ds, -, happend⟩ := atMarkers_append hopens a b
    obtain ⟨part, hpart, hfull⟩ : ∃ part ∈ atMarkers a, isEmptyDocument part = false := by
      by_contra hall
      push Not at hall
      rw [← flatten_atMarkers a, isEmptyDocument, List.all_eq_false] at ha
      obtain ⟨x, hx, hnotBlank⟩ := ha
      obtain ⟨part, hpart, hx⟩ := List.mem_flatten.mp hx
      have hblank : isEmptyDocument part = true := Bool.ne_false_iff.mp (hall part hpart)
      exact hnotBlank (List.all_eq_true.mp hblank x hx)
    have hmarker : isEmptyDocument (l :: d) = false := by
      rw [isEmptyDocument, List.all_cons, isBlank_of_opensDocument hopens, Bool.false_and]
    -- two parts have an API version each, and the lines as a whole have but one
    have hone : ∀ part ∈ atMarkers (a ++ l :: b), isEmptyDocument part = false →
        (topMatches (['\n'].intercalate part) (spelled "apiVersion" rfl)).length = 1 := by
      intro part hpart hfull
      obtain ⟨id, -, hid⟩ := hparts part (List.mem_filter.mpr ⟨hpart, by simp [hfull]⟩)
      exact length_topMatches_of_identity hid
    have htotal := length_topMatches_of_identity hid
    have hbreaks : ∀ part ∈ atMarkers (a ++ l :: b), ∀ l ∈ part, ∀ c ∈ l, isLineBreak c = false := by
      intro part hpart x hx
      apply hplain
      rw [← flatten_atMarkers (a ++ l :: b)]
      exact List.mem_flatten.mpr ⟨part, hpart, hx⟩
    rw [← flatten_atMarkers (a ++ l :: b), topMatches_flatten hbreaks, happend, List.flatMap_append,
      List.flatMap_cons, List.length_append, List.length_append] at htotal
    have hsecond := hone (l :: d) (by rw [happend]; simp) hmarker
    have hfirst : 1 ≤ ((atMarkers a).flatMap fun part =>
        topMatches (['\n'].intercalate part) (spelled "apiVersion" rfl)).length := by
      rw [← hone part (by rw [happend]; exact List.mem_append_left _ hpart) hfull]
      apply List.Sublist.length_le
      exact List.sublist_flatten_of_mem (List.mem_map.mpr ⟨part, hpart, rfl⟩)
    omega
  · intro hfirst part hpart
    obtain ⟨a, b, rfl, hempty, hparts⟩ := parts_of_markersFirst hfirst hls
    rw [hparts, List.mem_singleton] at hpart
    rw [hpart, ← identity_congr (bareLines_of_blank hempty hplain) index 0]
    exact ⟨id, hmem, hid⟩

end CniManifest
