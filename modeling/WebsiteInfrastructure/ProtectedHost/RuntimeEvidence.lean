import Mathlib
import WebsiteInfrastructure.Library.AwkFields
import WebsiteInfrastructure.Library.LineReaders
import WebsiteInfrastructure.Library.Utf8
import WebsiteInfrastructure.ProtectedHost.Contract

/-!
# The runtime evidence

`parse_evidence_bytes` of `validate_protected_runtime_evidence.py`. Its lines are those of
`splitlines`: which accepted documents are the required fields in order, one line each.
-/

namespace ProtectedHost

open PythonText Utf8

/-! ## The schema -/

def evidenceSchema : String := "protected-legacy-host-review-v2"

def maxEvidenceBytes : ℕ := 4096

def maxEvidenceLines : ℕ := 32

def presenceField : String := "LEGACY_ARCHIVES_PRESENT"

def statusFields : List String :=
  ["ARCHIVE_INVENTORY_STATUS", "SYSTEM_MANAGER_UNITS_STATUS", "USER_MANAGER_UNITS_STATUS",
    "CONTAINERS_STATUS", "PACKAGE_ACTIVATION_STATUS", "SCHEDULERS_AUTOSTART_STATUS",
    "PROCESSES_STATUS", "CGROUPS_STATUS", "OPEN_FILES_STATUS", "LISTENERS_STATUS",
    "PRODUCT_EXECUTION_STATUS"]

def requiredFields : List String :=
  ["RUNTIME_EVIDENCE_SCHEMA", "BOOT_ID_SHA256", "CREATED_UNIX", presenceField] ++ statusFields

/-- `[1-9][0-9]{8,10}` -/
def isUnixEpoch (value : String) : Bool :=
  value.toList.all Char.isDigit && value.toList.head? ≠ some '0' &&
    (9 ≤ value.toList.length && value.toList.length ≤ 11)

/-- What `now_epoch` makes of a creation time: the age is negative, or over 600 seconds. -/
structure Clock where
  future : ℕ → Bool
  stale : ℕ → Bool

structure RuntimeEvidence where
  bootIdSha256 : String
  createdUnix : ℕ
  archivesPresent : Bool

/-! ## Lines -/

/-- `raw.decode("ascii")` -/
def decodeAscii? (raw : Bytes) : Option (List Char) :=
  if raw.all fun b => b < 128 then some (raw.map fun b => Char.ofNat b.toNat) else none

/-- The errors so far, and the entries in the order of `ordered_keys`. -/
structure Review where
  errors : List String
  entries : Entries

def Review.reject (review : Review) (number : ℕ) (message : String) : Review :=
  { review with
    errors := review.errors ++ ["runtime evidence line " ++ toString number ++ message] }

/-- One turn of the loop over the numbered lines. -/
def reviewLine (review : Review) (numbered : List Char × ℕ) : Review :=
  let (line, number) := numbered
  if line = [] ∨ line ≠ strip line ∨ line.count '=' ≠ 1 then
    review.reject number " is not canonical KEY=VALUE"
  else
    let key := String.ofList (line.takeWhile (· ≠ '='))
    let value := (line.dropWhile (· ≠ '=')).tail
    if key ∉ requiredFields then review.reject number " has an unsupported key"
    else if key ∈ review.entries.map Prod.fst then review.reject number " duplicates a field"
    else if value = [] ∨ value.any (fun c => c.toNat < 33 || 126 < c.toNat) then
      review.reject number " has an invalid value"
    else { review with entries := review.entries ++ [(key, String.ofList value)] }

def reviewLines (lines : List (List Char)) : Review :=
  (lines.zipIdx 1).foldl reviewLine ⟨[], []⟩

/-! ## Values -/

/-- `entries[key]`, for a key that is there -/
def valueOf (entries : Entries) (key : String) : String := (entries.lookup key).getD ""

def createdOf (entries : Entries) : ℕ :=
  let value := valueOf entries "CREATED_UNIX"
  if isUnixEpoch value then Nat.ofDigitChars 10 value.toList 0 else 0

def bootErrors (entries : Entries) (currentBootSha256 : String) : List String :=
  if isBinding currentBootSha256 = false then ["current boot identity is unavailable"]
  else if valueOf entries "BOOT_ID_SHA256" ≠ currentBootSha256 then
    ["runtime evidence belongs to a different boot"]
  else []

def timeErrors (entries : Entries) (clock : Clock) : List String :=
  if isUnixEpoch (valueOf entries "CREATED_UNIX") = false then
    ["runtime evidence creation time is invalid"]
  else if clock.future (createdOf entries) then
    ["runtime evidence creation time is in the future"]
  else if clock.stale (createdOf entries) then ["runtime evidence is stale"]
  else []

def valueErrors (entries : Entries) (currentBootSha256 : String) (clock : Clock) : List String :=
  (if valueOf entries "RUNTIME_EVIDENCE_SCHEMA" ≠ evidenceSchema then
    ["runtime evidence schema is unsupported"] else []) ++
  (if isBinding (valueOf entries "BOOT_ID_SHA256") = false then
    ["runtime evidence boot binding is not a lowercase SHA-256"] else []) ++
  bootErrors entries currentBootSha256 ++ timeErrors entries clock ++
  (if valueOf entries presenceField ∉ ["yes", "no"] then
    ["runtime evidence archive-presence decision is invalid"] else []) ++
  (if ∃ field ∈ statusFields, valueOf entries field ≠ "PASS" then
    ["runtime evidence contains a non-PASS status"] else [])

/-- The checks of the text that was decoded. -/
def reviewText (text : List Char) (currentBootSha256 : String) (clock : Clock) :
    Except (List String) RuntimeEvidence :=
  let lines := splitlines text
  if maxEvidenceLines < lines.length then .error ["runtime evidence exceeds the line limit"]
  else if lines.length ≠ requiredFields.length then
    .error ["runtime evidence has missing or extra fields"]
  else
    let review := reviewLines lines
    if review.errors ≠ [] then .error review.errors
    else if review.entries.map Prod.fst ≠ requiredFields then
      .error ["runtime evidence fields are not in canonical order"]
    else
      match valueErrors review.entries currentBootSha256 clock with
      | [] => .ok ⟨valueOf review.entries "BOOT_ID_SHA256", createdOf review.entries,
          valueOf review.entries presenceField = "yes"⟩
      | errors => .error errors

def parseEvidenceBytes (raw : Bytes) (currentBootSha256 : String) (clock : Clock) :
    Except (List String) RuntimeEvidence :=
  if maxEvidenceBytes < raw.length then .error ["runtime evidence exceeds the size limit"]
  else if ¬ [0x0a] <:+ raw ∨ (0x0d : UInt8) ∈ raw ∨ (0x00 : UInt8) ∈ raw then
    .error ["runtime evidence must use canonical LF-terminated ASCII"]
  else
    match decodeAscii? raw with
    | none => .error ["runtime evidence must be canonical ASCII"]
    | some text => reviewText text currentBootSha256 clock

/-! ## What an accepted document says -/

/-- A line that the loop takes as this entry. -/
def IsField (line : List Char) (entry : String × String) : Prop :=
  line = lineOf entry ∧ entry.1 ∈ requiredFields ∧
    ∀ c ∈ entry.2.toList, 33 ≤ c.toNat ∧ c.toNat ≤ 126

/-- A turn reports its line, or the line is a field. -/
theorem reviewLine_cases (review : Review) (line : List Char) (number : ℕ) :
    (∃ message, reviewLine review (line, number) = review.reject number message) ∨
      ∃ entry, IsField line entry ∧
        reviewLine review (line, number) = { review with entries := review.entries ++ [entry] } := by
  unfold reviewLine
  dsimp only
  split
  · exact .inl ⟨_, rfl⟩
  · next hline =>
    split
    · exact .inl ⟨_, rfl⟩
    · next hkey =>
      split
      · exact .inl ⟨_, rfl⟩
      · split
        · exact .inl ⟨_, rfl⟩
        · next hvalue =>
          refine .inr ⟨_, ⟨?_, not_not.mp hkey, ?_⟩, rfl⟩
          · have hcount : line.count '=' = 1 := by
              by_contra hne
              exact hline (.inr (.inr hne))
            have hmem : '=' ∈ line := List.count_pos_iff.mp (by omega)
            have hpair := ShellText.awk_pair hmem
            rw [ShellText.awkKey, ShellText.awkValue, ShellText.dropThrough, if_pos hmem,
              List.drop_one] at hpair
            rw [lineOf, String.toList_ofList, String.toList_ofList, hpair]
          · intro c hc
            rw [String.toList_ofList] at hc
            by_contra hrange
            apply hvalue
            right
            rw [List.any_eq_true]
            refine ⟨c, hc, ?_⟩
            simp only [Bool.or_eq_true, decide_eq_true_eq]
            omega

/-- A loop that reports nothing takes every line as a field. -/
theorem reviewLines_fields {lines : List (List Char)} {start : ℕ} {review : Review}
    (h : ((lines.zipIdx start).foldl reviewLine review).errors = []) :
    review.errors = [] ∧ ∃ entries, List.Forall₂ IsField lines entries ∧
      ((lines.zipIdx start).foldl reviewLine review).entries = review.entries ++ entries := by
  induction lines generalizing start review with
  | nil => exact ⟨h, [], .nil, by simp⟩
  | cons line lines ih =>
    rw [List.zipIdx_cons, List.foldl_cons] at h ⊢
    obtain ⟨herrors, entries, hfields, hrun⟩ := ih h
    rcases reviewLine_cases review line start with ⟨message, hturn⟩ | ⟨entry, hentry, hturn⟩
    · rw [hturn, Review.reject] at herrors
      simp at herrors
    · rw [hturn] at herrors
      refine ⟨herrors, entry :: entries, .cons hentry hfields, ?_⟩
      rw [hrun, hturn]
      simp

/-! ## Canonical documents -/

/-- The entries that the loop takes from the document. -/
def entriesOf (raw : Bytes) : Entries :=
  (reviewLines (splitlines (raw.map fun b => Char.ofNat b.toNat))).entries

/-- The fields in order, one line each that a line feed ends. -/
def document (entries : Entries) : Bytes :=
  (unlines (entries.map lineOf)).map fun c => UInt8.ofNat c.toNat

/-- The document is the required fields with their values. -/
def IsCanonical (raw : Bytes) : Prop :=
  (entriesOf raw).map Prod.fst = requiredFields ∧ raw = document (entriesOf raw)

/-- No byte of the document ends a line for Python alone. -/
def EndsWithFeeds (raw : Bytes) : Prop := ∀ b ∈ raw, b ∉ ([0x0b, 0x0c, 0x1c, 0x1d, 0x1e] : Bytes)

theorem key_printable : ∀ key ∈ requiredFields,
    key.toList.all (fun c => 33 ≤ c.toNat && c.toNat ≤ 126) = true := by
  decide

/-- The lines of an accepted document are its entries, which have the required fields in order. -/
theorem lines_of_accepted {raw : Bytes} {currentBootSha256 : String} {clock : Clock}
    {evidence : RuntimeEvidence}
    (h : parseEvidenceBytes raw currentBootSha256 clock = .ok evidence) :
    List.Forall₂ IsField (splitlines (raw.map fun b => Char.ofNat b.toNat)) (entriesOf raw) ∧
      (entriesOf raw).map Prod.fst = requiredFields := by
  unfold parseEvidenceBytes at h
  split at h
  · cases h
  · split at h
    · cases h
    · split at h
      · cases h
      · next text htext =>
        obtain rfl : raw.map (fun b => Char.ofNat b.toNat) = text := by
          unfold decodeAscii? at htext
          split at htext
          · exact Option.some.inj htext
          · cases htext
        unfold reviewText at h
        dsimp only at h
        split_ifs at h with hmany hcount herrors hnames
        obtain ⟨-, entries, hfields, hentries⟩ := reviewLines_fields (not_not.mp herrors)
        have hread : entriesOf raw = entries := hentries
        rw [hread]
        exact ⟨hfields, hread ▸ not_not.mp hnames⟩

/-- An accepted document is ASCII without carriage returns, and a line feed ends it. -/
theorem framed_of_accepted {raw : Bytes} {currentBootSha256 : String} {clock : Clock}
    {evidence : RuntimeEvidence}
    (h : parseEvidenceBytes raw currentBootSha256 clock = .ok evidence) :
    [0x0a] <:+ raw ∧ (0x0d : UInt8) ∉ raw ∧ ∀ b ∈ raw, b < 128 := by
  unfold parseEvidenceBytes at h
  split at h
  · cases h
  · split at h
    · cases h
    · next hends =>
      split at h
      · cases h
      · next text htext =>
        rw [not_or, not_or, not_not] at hends
        refine ⟨hends.1, hends.2.1, ?_⟩
        unfold decodeAscii? at htext
        split at htext
        · next hall => simpa using hall
        · cases htext

theorem toNat_ofNat_byte {b : UInt8} : (Char.ofNat b.toNat).toNat = b.toNat := by
  have hlt := b.toNat_lt
  rw [Char.ofNat, dif_pos (Or.inl (by omega))]
  rfl

theorem bytes_of_chars (raw : Bytes) :
    (raw.map fun b => Char.ofNat b.toNat).map (fun c => UInt8.ofNat c.toNat) = raw := by
  rw [List.map_map]
  conv_rhs => rw [← List.map_id raw]
  refine List.map_congr_left fun b _ => ?_
  simp [toNat_ofNat_byte]

/-- Every character of a field is printable. -/
theorem printable_of_isField {line : List Char} {entry : String × String} (h : IsField line entry) :
    ∀ c ∈ line, 33 ≤ c.toNat ∧ c.toNat ≤ 126 := by
  obtain ⟨rfl, hkey, hvalue⟩ := h
  intro c hc
  rcases List.mem_append.mp hc with hc | hc
  · simpa using List.all_eq_true.mp (key_printable _ hkey) c hc
  · rcases List.mem_cons.mp hc with rfl | hc
    · decide
    · exact hvalue c hc

theorem lines_eq_of_fields {lines : List (List Char)} {entries : Entries}
    (h : List.Forall₂ IsField lines entries) : lines = entries.map lineOf := by
  induction h with
  | nil => rfl
  | cons hfield _ ih => rw [List.map_cons, ← ih, ← hfield.1]

theorem field_of_mem {lines : List (List Char)} {entries : Entries}
    (h : List.Forall₂ IsField lines entries) {line : List Char} (hline : line ∈ lines) :
    ∃ entry ∈ entries, IsField line entry := by
  induction h with
  | nil => cases hline
  | cons hfield _ ih =>
    rcases List.mem_cons.mp hline with rfl | hline
    · exact ⟨_, .head _, hfield⟩
    · obtain ⟨entry, hentry, hfield⟩ := ih hline
      exact ⟨entry, .tail _ hentry, hfield⟩

/-- Of the characters of an accepted document, line feeds and these five end a line. -/
theorem feed_of_endsWithFeeds {raw : Bytes} (hascii : ∀ b ∈ raw, b < 128)
    (hreturn : (0x0d : UInt8) ∉ raw) (h : EndsWithFeeds raw) :
    ∀ c ∈ raw.map fun b => Char.ofNat b.toNat, isLineBreak c = true → c = '\n' := by
  intro c hc hbreak
  obtain ⟨b, hb, rfl⟩ := List.mem_map.mp hc
  have hlt : b.toNat < 128 := UInt8.lt_iff_toNat_lt.mp (hascii b hb)
  have hcode : ∀ c : Char, Char.ofNat b.toNat = c → b.toNat = c.toNat := by
    rintro c rfl
    exact toNat_ofNat_byte.symm
  have hnot : ∀ d ∈ ([0x0d, 0x0b, 0x0c, 0x1c, 0x1d, 0x1e] : Bytes), b.toNat ≠ d.toNat := by
    intro d hd heq
    obtain rfl := UInt8.toNat_inj.mp heq
    rcases List.mem_cons.mp hd with rfl | hd
    · exact hreturn hb
    · exact h _ hb hd
  simp only [isLineBreak, List.mem_cons, List.not_mem_nil, or_false, decide_eq_true_eq] at hbreak
  rcases hbreak with heq | heq | heq | heq | heq | heq | heq | heq | heq | heq
  · exact heq
  · exact absurd (hcode _ heq) (hnot 0x0d (by simp))
  · exact absurd (hcode _ heq) (hnot 0x0b (by simp))
  · exact absurd (hcode _ heq) (hnot 0x0c (by simp))
  · exact absurd (hcode _ heq) (hnot 0x1c (by simp))
  · exact absurd (hcode _ heq) (hnot 0x1d (by simp))
  · exact absurd (hcode _ heq) (hnot 0x1e (by simp))
  -- the other three lie beyond ASCII
  all_goals
    have hvalue := hcode _ heq
    simp at hvalue
    omega

theorem isCanonical_iff {raw : Bytes} {currentBootSha256 : String} {clock : Clock}
    {evidence : RuntimeEvidence}
    (h : parseEvidenceBytes raw currentBootSha256 clock = .ok evidence) :
    IsCanonical raw ↔ EndsWithFeeds raw := by
  obtain ⟨hfields, hnames⟩ := lines_of_accepted h
  obtain ⟨hend, hreturn, hascii⟩ := framed_of_accepted h
  constructor
  · rintro ⟨-, hraw⟩ b hb
    rw [hraw, document] at hb
    obtain ⟨c, hc, rfl⟩ := List.mem_map.mp hb
    obtain ⟨line, hline, hc⟩ := List.mem_flatMap.mp hc
    rcases List.mem_append.mp hc with hc | hc
    · have hrange : 33 ≤ c.toNat ∧ c.toNat ≤ 126 := by
        rw [← lines_eq_of_fields hfields] at hline
        obtain ⟨entry, -, hfield⟩ := field_of_mem hfields hline
        exact printable_of_isField hfield c hc
      have hbyte : (UInt8.ofNat c.toNat).toNat = c.toNat := by
        rw [UInt8.toNat_ofNat']
        omega
      intro hmem
      have hsmall : (UInt8.ofNat c.toNat).toNat < 33 := by
        have hall : ∀ d ∈ ([0x0b, 0x0c, 0x1c, 0x1d, 0x1e] : Bytes), d.toNat < 33 := by simp
        exact hall _ hmem
      omega
    · obtain rfl := List.mem_singleton.mp hc
      decide
  · intro hfeeds
    refine ⟨hnames, ?_⟩
    have htext : (raw.map fun b => Char.ofNat b.toNat).getLast? = some '\n' := by
      obtain ⟨front, rfl⟩ := hend
      simp
    rw [document, ← lines_eq_of_fields hfields,
      unlines_splitlines (feed_of_endsWithFeeds hascii hreturn hfeeds) (.inr htext),
      bytes_of_chars]

/-- An accepted document is the required fields in order, one line each, exactly when no other byte
than a line feed ends a line of it; and such a document is the only one of this kind with its
values. -/
theorem evidence_canonical_iff {raw : Bytes} {currentBootSha256 : String} {clock : Clock}
    {evidence : RuntimeEvidence}
    (h : parseEvidenceBytes raw currentBootSha256 clock = .ok evidence) :
    (IsCanonical raw ↔ EndsWithFeeds raw) ∧
      ∀ raw' currentBootSha256' clock' evidence',
        parseEvidenceBytes raw' currentBootSha256' clock' = .ok evidence' →
        entriesOf raw' = entriesOf raw → EndsWithFeeds raw → (raw' = raw ↔ EndsWithFeeds raw') := by
  refine ⟨isCanonical_iff h, fun raw' _ _ _ h' hsame hfeeds => ⟨?_, fun hfeeds' => ?_⟩⟩
  · rintro rfl
    exact hfeeds
  · have hraw := ((isCanonical_iff h).mpr hfeeds).2
    have hraw' := ((isCanonical_iff h').mpr hfeeds').2
    rw [hraw', hsame, ← hraw]

/-! ## A second spelling -/

namespace EvidenceSample

def digest : String := String.ofList (List.replicate 64 'a')

/-- The fields of a passed review, with `mark` after the schema. -/
def review (mark : Char) : List Char :=
  "RUNTIME_EVIDENCE_SCHEMA=protected-legacy-host-review-v2".toList ++ mark ::
    unlines ([("BOOT_ID_SHA256", digest), ("CREATED_UNIX", "100000000"),
      (presenceField, "no")].map lineOf ++ statusFields.map fun field => lineOf (field, "PASS"))

def evidence (mark : Char) : Bytes := (review mark).map fun c => UInt8.ofNat c.toNat

def clock : Clock := ⟨fun _ => false, fun _ => false⟩

def accepts (raw : Bytes) : Bool := (parseEvidenceBytes raw digest clock).isOk

def feeds (raw : Bytes) : Bool := raw.all fun b => b ∉ ([0x0b, 0x0c, 0x1c, 0x1d, 0x1e] : Bytes)

set_option maxRecDepth 20000 in
theorem accepted : accepts (evidence '\n') = true ∧ accepts (evidence '\x0b') = true ∧
    entriesOf (evidence '\x0b') = entriesOf (evidence '\n') ∧
    feeds (evidence '\n') = true ∧ feeds (evidence '\x0b') = false := by
  have hdigest : digest.toList = List.replicate 64 'a' := String.toList_ofList
  have hfield := toList_spelled (s := presenceField) rfl
  delta evidence review statusFields
  simp only [List.map_cons, List.map_nil, lineOf, hdigest, hfield, List.cons_append, List.nil_append]
  -- with its literals spelled out the document need not be decoded
  simp (disch := exact rfl) only [toList_spelled]
  decide +kernel

theorem feeds_iff {raw : Bytes} : feeds raw = true ↔ EndsWithFeeds raw := by
  simp [feeds, EndsWithFeeds]

theorem exists_review {raw : Bytes} (h : accepts raw = true) :
    ∃ review, parseEvidenceBytes raw digest clock = .ok review := by
  unfold accepts at h
  cases hrun : parseEvidenceBytes raw digest clock with
  | error errors => rw [hrun] at h; cases h
  | ok review => exact ⟨review, rfl⟩

end EvidenceSample

theorem evidence_canonical_iff_sample : IsCanonical (EvidenceSample.evidence '\n') := by
  obtain ⟨haccepts, -, -, hfeeds, -⟩ := EvidenceSample.accepted
  obtain ⟨review, hrun⟩ := EvidenceSample.exists_review haccepts
  exact (evidence_canonical_iff hrun).1.mpr (EvidenceSample.feeds_iff.mp hfeeds)

/-- Two accepted documents with the same values differ: a vertical tab ends a line of one. -/
theorem evidence_has_two_spellings : ¬ ∀ raw raw' boot boot' clock clock' evidence evidence',
    parseEvidenceBytes raw boot clock = .ok evidence →
    parseEvidenceBytes raw' boot' clock' = .ok evidence' →
    entriesOf raw' = entriesOf raw → raw' = raw := by
  intro h
  obtain ⟨haccepts, haccepts', hsame, hfeeds, htab⟩ := EvidenceSample.accepted
  obtain ⟨review, hrun⟩ := EvidenceSample.exists_review haccepts
  obtain ⟨review', hrun'⟩ := EvidenceSample.exists_review haccepts'
  rw [← h _ _ _ _ _ _ _ _ hrun hrun' hsame, htab] at hfeeds
  cases hfeeds

end ProtectedHost
