import Mathlib
import WebsiteInfrastructure.Assurance.Sanitized

/-!
# Accepted ledgers

What an accepted ledger is, the texts on which the validator raises, and the condition under which
an accepted ledger is sound.
-/

namespace Assurance

open Json Raising Regex Pattern PythonText

variable {F : Type} [Interpreter F]

/-! ## Raising -/

variable (F) in
/-- A line on which nothing raises: it is blank, no JSON, or a record without a list or a dict
where the set of pairs needs a hash. -/
def Readable (raw : List Char) : Prop :=
  raw ≠ [] → (∃ record : Option (Value F), parseLine raw = .ok record) ∧
    ∀ record : Value F, parseLine raw = .ok (some record) →
      record.hasExactly requiredFields = true →
        (pairOf record).1.hashable = true ∧ (pairOf record).2.1.hashable = true ∧
          (pairOf record).2.2.hashable = true

variable [Characters]

theorem recordErrors_returns {line : ℕ} {raw : List Char} {record : Value F}
    {previous : Option (List Char)} {seen : List (Pair F)} :
    (∃ found, recordErrors line raw record previous seen = .ok found) ↔
      (record.hasExactly requiredFields = true → (pairOf record).1.hashable = true ∧
        (pairOf record).2.1.hashable = true ∧ (pairOf record).2.2.hashable = true) := by
  cases record with
  | obj fields =>
    rw [recordErrors]
    split
    · next hkeys =>
      simp only [raiseIf_bind_eq_ok, exists_and_left, hkeys, forall_const, Bool.not_eq_false,
        Bool.and_eq_true, and_assoc, Except.ok.injEq, exists_eq', and_true]
    · next hkeys =>
      simp [hkeys]
  | _ => simp [recordErrors, Value.hasExactly]

theorem readLine_returns (progress : Progress F) (numbered : List Char × ℕ) :
    (∃ next, readLine progress numbered = .ok next) ↔ Readable F numbered.1 := by
  obtain ⟨raw, line⟩ := numbered
  rw [readLine, Readable]
  dsimp only
  split
  · next hblank => simp [hblank]
  · next hline =>
    cases hparsed : (parseLine raw : Except Fault (Option (Value F))) with
    | error fault => simp [hline]
    | ok record =>
      cases record with
      | none => simp [hline]
      | some record =>
        have hfound := @recordErrors_returns _ _ _ line raw record progress.previousTime
          progress.seenPairs
        simp only [ok_bind, bind_eq_ok, Prod.exists, Except.ok.injEq, ne_eq,
          hline, not_false_eq_true, forall_const, exists_eq', true_and, Option.some.injEq,
          forall_eq']
        rw [← hfound]
        constructor
        · rintro ⟨next, found, seen, hok, -⟩
          exact ⟨_, hok⟩
        · rintro ⟨⟨found, seen⟩, hok⟩
          exact ⟨_, found, seen, hok, rfl⟩

/-- The validator returns on a text exactly when nothing raises on any of its lines. -/
theorem ledgerErrors_returns (content : List Char) :
    (∃ errors, ledgerErrors F (some content) = .ok errors) ↔
      ∀ line ∈ linesOf content, Readable F line := by
  simp only [ledgerErrors, bind_eq_ok, Except.ok.injEq]
  have hcarry := carry_returns (readLine_returns (F := F))
  constructor
  · rintro ⟨errors, progress, hprogress, -⟩ line hline
    obtain ⟨i, hi, rfl⟩ := List.mem_iff_getElem.mp hline
    have hall := (hcarry _ _).mp ⟨progress, hprogress⟩
    apply hall ((linesOf content)[i], i + 1)
    rw [List.mem_iff_getElem]
    exact ⟨i, by simpa using hi, by simp [Nat.add_comm]⟩
  · intro hall
    obtain ⟨progress, hprogress⟩ := (hcarry _ ((linesOf content).zipIdx 1)).mpr (by
      intro numbered hmem
      exact hall _ (List.fst_mem_of_mem_zipIdx hmem))
    exact ⟨_, progress, hprogress, rfl⟩

/-! ## Accepting -/

theorem sweptErrors_eq_nil {line : ℕ} {raw : List Char} :
    sweptErrors line raw = [] ↔ ∀ p ∈ forbiddenPatterns, p.2.found raw = false := by
  simp [sweptErrors]

omit [Characters] in
theorem shapeErrors_eq_nil {line : ℕ} {record : Value F} :
    shapeErrors line record = [] ↔ ∀ check ∈ checks, check.2 (record.get check.1) = true := by
  simp [shapeErrors]

omit [Characters] [Interpreter F] in
theorem timeErrors_eq_nil {line : ℕ} {record : Value F} {previous : Option (List Char)} :
    timeErrors line record previous = [] ↔
      ∀ time ∈ timeOf record, ∀ earlier ∈ previous, earlier ≤ time := by
  rw [timeErrors.eq_def]
  cases timeOf record with
  | none => simp
  | some time =>
    cases previous with
    | none => simp
    | some earlier =>
      by_cases hlate : time < earlier
      · simp [hlate]
      · simpa [hlate] using not_lt.mp hlate

/-- A record that adds no error. -/
structure Accepted (raw : List Char) (record : Value F) (progress : Progress F) : Prop where
  canonical : Canonical record
  swept : ∀ p ∈ forbiddenPatterns, p.2.found raw = false
  later : ∀ time ∈ timeOf record, ∀ earlier ∈ progress.previousTime, earlier ≤ time
  fresh : ∀ pair ∈ progress.seenPairs, samePair (pairOf record) pair = false

theorem accepted_of_recordErrors {line : ℕ} {raw : List Char} {record : Value F}
    {progress : Progress F} {seen : List (Pair F)}
    (h : recordErrors line raw record progress.previousTime progress.seenPairs = .ok ([], seen)) :
    Accepted raw record progress ∧ seen = pairOf record :: progress.seenPairs := by
  cases record with
  | obj fields =>
    rw [recordErrors] at h
    split at h
    · next hkeys =>
      obtain ⟨-, h⟩ := raiseIf_bind_eq_ok.mp h
      obtain ⟨hnil, rfl⟩ := Prod.mk.inj (Except.ok.inj h)
      simp only [List.append_eq_nil_iff, sweptErrors_eq_nil, shapeErrors_eq_nil,
        timeErrors_eq_nil] at hnil
      obtain ⟨⟨⟨hswept, hshaped⟩, hlater⟩, hagain⟩ := hnil
      refine ⟨⟨⟨hkeys, hshaped⟩, hswept, hlater, ?_⟩, rfl⟩
      intro pair hpair
      rw [Bool.eq_false_iff]
      intro hsame
      rw [if_pos (List.any_eq_true.mpr ⟨pair, hpair, hsame⟩)] at hagain
      cases hagain
    · simp at h
  | _ => simp [recordErrors] at h

omit [Characters] in
theorem parseLine_eq_ok {raw : List Char} {record : Value F}
    (h : parseLine raw = .ok (some record)) : loads keepLast raw = .ok record := by
  rw [parseLine] at h
  split at h <;> simp_all

/-- What a line that adds no error does. -/
theorem readLine_accepts {progress next : Progress F} {raw : List Char} {line : ℕ}
    (h : readLine progress (raw, line) = .ok next) (hnil : next.errors = []) :
    progress.errors = [] ∧ ∃ record, loads keepLast raw = .ok record ∧
      Accepted raw record progress ∧ next.seenPairs = pairOf record :: progress.seenPairs ∧
      next.previousTime = (timeOf record).or progress.previousTime := by
  rw [readLine] at h
  dsimp only at h
  split at h
  · obtain rfl := Except.ok.inj h
    simp at hnil
  · obtain ⟨record, hparsed, h⟩ := bind_eq_ok.mp h
    cases record with
    | none =>
      obtain rfl := Except.ok.inj h
      simp at hnil
    | some record =>
      obtain ⟨⟨found, seen⟩, hfound, h⟩ := bind_eq_ok.mp h
      obtain rfl := Except.ok.inj h
      obtain ⟨herrors, rfl⟩ := List.append_eq_nil_iff.mp hnil
      obtain ⟨haccepted, rfl⟩ := accepted_of_recordErrors hfound
      exact ⟨herrors, record, parseLine_eq_ok hparsed, haccepted, rfl, rfl⟩

/-! ## Order and distinctness -/

omit [Characters] in
theorem Canonical.time {record : Value F} (h : Canonical record) :
    ∃ time, timeOf record = some time := by
  have hshaped := h.shaped ("time_utc", isLike isTime) (by simp [checks])
  obtain ⟨s, hs, htime⟩ := exists_text_of_isLike hshaped
  refine ⟨s.toList, ?_⟩
  rw [timeOf, hs, chars?, Option.filter_some, if_pos htime]

omit [Characters] in
theorem Canonical.samePair_self {record : Value F} (h : Canonical record) :
    samePair (pairOf record) (pairOf record) = true := by
  have hself {v : Value F} {shape : List Char → Bool} (hlike : isLike shape v = true) :
      v.eq v = true := by
    obtain ⟨s, rfl, -⟩ := exists_text_of_isLike hlike
    rw [Value.eq_str]
  have hcontrol := h.shaped ("control", isLike isControl) (by simp [checks])
  have hcommand := h.shaped ("command_id", isLike isCommand) (by simp [checks])
  have htime := h.shaped ("time_utc", isLike isTime) (by simp [checks])
  simp only [samePair, pairOf, hself hcontrol, hself hcommand, hself htime, Bool.and_self]

/-- What the lines so far are, as long as there is no error. -/
structure Kept (lines : List (List Char)) (records : List (Value F)) (progress : Progress F) :
    Prop where
  parsed : List.Forall₂ (fun line record => loads keepLast line = .ok record) lines records
  canonical : ∀ record ∈ records, Canonical record
  swept : ∀ line ∈ lines, ∀ p ∈ forbiddenPatterns, p.2.found line = false
  seen : ∀ record ∈ records, pairOf record ∈ progress.seenPairs
  distinct : (records.map pairOf).Nodup
  ordered : ∃ times : List (List Char), records.map timeOf = times.map some ∧ times.Pairwise (· ≤ ·) ∧
    progress.previousTime = times.getLast?

omit [Characters] in
theorem pairwise_concat {times : List (List Char)} {time : List Char}
    (h : times.Pairwise (· ≤ ·)) (hlast : ∀ earlier ∈ times.getLast?, earlier ≤ time) :
    (times ++ [time]).Pairwise (· ≤ ·) := by
  rw [List.pairwise_append]
  refine ⟨h, List.pairwise_singleton _ _, ?_⟩
  intro a ha b hb
  rw [List.mem_singleton.mp hb]
  rcases List.eq_nil_or_concat times with rfl | ⟨init, last, rfl⟩
  · cases ha
  · rw [List.concat_eq_append] at h ha hlast
    have hle : last ≤ time := hlast last (by simp)
    rcases List.mem_append.mp ha with ha | ha
    · exact ((List.pairwise_append.mp h).2.2 a ha last (by simp)).trans hle
    · rwa [List.mem_singleton.mp ha]

theorem Kept.step {lines : List (List Char)} {records : List (Value F)} {record : Value F}
    {progress next : Progress F} {raw : List Char} (h : Kept lines records progress)
    (hparsed : loads keepLast raw = .ok record) (ha : Accepted raw record progress)
    (hseen : next.seenPairs = pairOf record :: progress.seenPairs)
    (hprevious : next.previousTime = (timeOf record).or progress.previousTime) :
    Kept (lines ++ [raw]) (records ++ [record]) next := by
  obtain ⟨time, htime⟩ := ha.canonical.time
  refine ⟨List.rel_append h.parsed (.cons hparsed .nil), ?_, ?_, ?_, ?_, ?_⟩
  · exact List.forall_mem_append.mpr ⟨h.canonical, List.forall_mem_singleton.mpr ha.canonical⟩
  · exact List.forall_mem_append.mpr ⟨h.swept, List.forall_mem_singleton.mpr ha.swept⟩
  · rw [hseen]
    intro earlier hearlier
    rcases List.mem_append.mp hearlier with hearlier | hearlier
    · exact List.mem_cons_of_mem _ (h.seen earlier hearlier)
    · rw [List.mem_singleton.mp hearlier]
      exact List.mem_cons_self
  · rw [List.map_append, List.map_singleton, List.nodup_append]
    refine ⟨h.distinct, List.nodup_singleton _, ?_⟩
    intro a hmem b hb hab
    rw [List.mem_singleton] at hb
    obtain ⟨earlier, hearlier, rfl⟩ := List.mem_map.mp hmem
    have hfresh := ha.fresh _ (h.seen earlier hearlier)
    rw [hab, hb, ha.canonical.samePair_self] at hfresh
    cases hfresh
  · obtain ⟨times, htimes, hordered, hlast⟩ := h.ordered
    refine ⟨times ++ [time], ?_, ?_, ?_⟩
    · rw [List.map_append, List.map_append, htimes, List.map_singleton, htime, List.map_singleton]
    · apply pairwise_concat hordered
      intro earlier hearlier
      rw [← hlast] at hearlier
      exact ha.later time htime earlier hearlier
    · rw [hprevious, htime, Option.some_or, List.getLast?_concat]

theorem kept_of_carry {numbered : List (List Char × ℕ)} {errors : List LedgerError}
    {progress : Progress F} (h : carry readLine ⟨errors, none, []⟩ numbered = .ok progress)
    (hnil : progress.errors = []) :
    errors = [] ∧ ∃ records, Kept (numbered.map Prod.fst) records progress := by
  have hrun : progress.errors = [] → errors = [] ∧
      ∃ records, Kept (numbered.map Prod.fst) records progress := by
    apply carry_invariant (fun seen (state : Progress F) => state.errors = [] → errors = [] ∧
      ∃ records, Kept (seen.map Prod.fst) records state) _ _ h
    · intro seen state line next hinv hstep herrors
      obtain ⟨hbefore, record, hparsed, haccepted, hseen, hprevious⟩ :=
        readLine_accepts hstep herrors
      obtain ⟨hstart, records, hkept⟩ := hinv hbefore
      refine ⟨hstart, records ++ [record], ?_⟩
      rw [List.map_append, List.map_singleton]
      exact hkept.step hparsed haccepted hseen hprevious
    · intro hstart
      exact ⟨hstart, [], .nil, by simp, by simp, by simp, .nil, [], rfl, .nil, rfl⟩
  exact hrun hnil

theorem kept_of_accepted {content : List Char} (h : ledgerErrors F (some content) = .ok []) :
    (universalNewlines content = [] ∨ (universalNewlines content).getLast? = some '\n') ∧
      ∃ (records : List (Value F)) (progress : Progress F),
        Kept (linesOf content) records progress := by
  simp only [ledgerErrors] at h
  obtain ⟨progress, hprogress, h⟩ := bind_eq_ok.mp h
  obtain ⟨hending, records, hkept⟩ := kept_of_carry hprogress (Except.ok.inj h)
  rw [List.zipIdx_map_fst] at hkept
  refine ⟨?_, records, progress, hkept⟩
  by_contra hnot
  rw [not_or] at hnot
  rw [if_pos hnot] at hending
  cases hending

/-! ## Soundness -/

/-- What an accepted ledger should be. -/
structure Sound (content : List Char) (records : List (Value F)) : Prop where
  /-- Every line is one record, and is ended by a line feed. -/
  parsed : List.Forall₂ (fun line record => loads keepLast line = .ok record) (linesOf content)
    records
  terminated : content = unlines (linesOf content)
  sanitized : ∀ record ∈ records, ∀ t ∈ record.strings, ¬ Private t
  distinct : (records.map pairOf).Nodup
  ordered : ∃ times : List (List Char), records.map timeOf = times.map some ∧ times.Pairwise (· ≤ ·)

variable (F) in
/-- The text has no line break but the line feed, and no line with a backslash in it has notes
that a forbidden pattern matches. -/
structure Plain (content : List Char) : Prop where
  feeds : ∀ c ∈ content, isLineBreak c = true → c = '\n'
  visible : ∀ line ∈ linesOf content, ∀ record : Value F, loads keepLast line = .ok record →
    ∀ t, record.get "notes" = .str t → Private t → '\\' ∉ line

theorem local_forbidden : ∀ p ∈ forbiddenPatterns, p.2.Local '"' := by
  have hedge : wordEdge.Local '"' := by
    apply local_wordEdge
    rw [Characters.isWord_ascii _ (by decide)]
    decide
  have hdigit : digit.Local '"' := trivial
  have hpart : (times digit 1 2).Local '"' := local_times hdigit 1 2
  have hgroup : (seq (lit ".") (times digit 1 2)).Local '"' := ⟨local_lit _ _, hpart⟩
  simp only [forbiddenPatterns, List.forall_mem_cons]
  refine ⟨?_, ?_, ?_, ?_, local_lit _ _, ⟨local_litFolded _ _, local_litFolded _ _⟩,
    List.forall_mem_nil _⟩
  · apply local_all
    simp only [List.forall_mem_cons]
    exact ⟨hedge, hpart, local_times hgroup 3 0, hedge, List.forall_mem_nil _⟩
  · apply local_all
    simp only [List.forall_mem_cons]
    exact ⟨⟨trivial, trivial⟩, local_lit _ _, ⟨trivial, trivial⟩, local_lit _ _, trivial,
      ⟨trivial, trivial⟩, List.forall_mem_nil _⟩
  · apply local_all
    simp only [List.forall_mem_cons]
    exact ⟨local_lit _ _, ⟨local_lit _ _, local_lit _ _⟩, local_lit _ _, ⟨trivial, trivial⟩,
      List.forall_mem_nil _⟩
  · apply local_all
    simp only [List.forall_mem_cons]
    exact ⟨⟨local_litFolded _ _, local_litFolded _ _, local_litFolded _ _, local_litFolded _ _,
      local_litFolded _ _⟩, trivial, trivial, List.forall_mem_nil _⟩

/-- Without a backslash the sweep sees every private value that the record holds. -/
theorem found_of_private {line : List Char} {record : Value F} {t : Text} (hslash : '\\' ∉ line)
    (hparsed : loads keepLast line = .ok record) (ht : t ∈ record.strings) (hprivate : Private t) :
    ∃ p ∈ forbiddenPatterns, p.2.found line = true := by
  obtain ⟨s, rfl, p, hp, hfound⟩ := hprivate
  obtain ⟨head, s', tail, rfl, hs⟩ := loads_spelled keeps_keepLast hslash hparsed _ ht
  have hsame : s.toList = s' := by
    rw [Text.scalar.inj hs, String.toList_ofList]
  rw [hsame] at hfound
  exact ⟨p, hp, found_quoted (local_forbidden p hp) hfound head tail⟩

omit [Characters] in
theorem scalar_of_check : ∀ check ∈ (checks : List (String × (Value F → Bool))), ∀ v,
    check.2 v = true → v = .null ∨ ∃ t, v = .str t := by
  have hlike {shape : List Char → Bool} (v : Value F) (h : isLike shape v = true) :
      v = .null ∨ ∃ t, v = .str t := by
    obtain ⟨s, rfl, -⟩ := exists_text_of_isLike h
    exact .inr ⟨_, rfl⟩
  have htext {text : String} (v : Value F) (h : v.eq (.text text) = true) :
      v = .null ∨ ∃ t, v = .str t := by
    rw [Value.eq_text] at h
    exact .inr ⟨_, h⟩
  simp only [checks, List.forall_mem_cons]
  refine ⟨htext, hlike, hlike, hlike, hlike, hlike, hlike, ?_, ?_, htext, hlike,
    List.forall_mem_nil _⟩
  · intro v h
    obtain ⟨text, -, heq⟩ := List.any_eq_true.mp h
    exact htext v heq
  · intro v h
    rcases Bool.or_eq_true_iff.mp h with hnone | hsha
    · cases v <;> simp_all [Value.isNone]
    · exact hlike v hsha

omit [Characters] in
theorem exists_check {key : String} (h : key ∈ requiredFields) :
    ∃ check ∈ (checks : List (String × (Value F → Bool))), check.1 = key := by
  have hkeys : (checks : List (String × (Value F → Bool))).map Prod.fst = requiredFields := rfl
  rw [← hkeys] at h
  exact List.mem_map.mp h

omit [Characters] in
/-- A string of a canonical record is the value of one of its fields. -/
theorem Canonical.exists_field {line : List Char} {record : Value F} {t : Text}
    (h : Canonical record) (hparsed : loads keepLast line = .ok record)
    (ht : t ∈ record.strings) : ∃ key ∈ requiredFields, record.get key = .str t := by
  cases record with
  | obj fields =>
    rw [Value.strings, mem_fieldsStrings] at ht
    obtain ⟨⟨name, v⟩, hf, ht⟩ := ht
    have hkeys := h.keys
    rw [Value.hasExactly, Bool.and_eq_true, List.all_eq_true] at hkeys
    have hname := hkeys.1 _ hf
    rw [List.any_eq_true] at hname
    obtain ⟨key, hkey, hname⟩ := hname
    obtain rfl : name = .scalar key := of_decide_eq_true hname
    have hget := get_of_mem (nodup_of_inOrder (inOrder_of_loads hparsed)) hf
    obtain ⟨check, hcheck, rfl⟩ := exists_check (F := F) hkey
    have hshaped := h.shaped check hcheck
    rw [hget] at hshaped
    rcases scalar_of_check check hcheck v hshaped with rfl | ⟨t', rfl⟩
    · simp [Value.strings] at ht
    · rw [Value.strings, List.mem_singleton] at ht
      exact ⟨check.1, hkey, by rw [hget, ht]⟩
  | _ => cases h.keys

theorem Kept.record_of_line {lines : List (List Char)} {records : List (Value F)}
    {progress : Progress F} (h : Kept lines records progress) {record : Value F}
    (hrecord : record ∈ records) : ∃ line ∈ lines, loads keepLast line = .ok record := by
  obtain ⟨i, hi, rfl⟩ := List.mem_iff_getElem.mp hrecord
  obtain ⟨hlength, hat⟩ := List.forall₂_iff_get.mp h.parsed
  have hi' : i < lines.length := hlength ▸ hi
  exact ⟨lines[i], List.getElem_mem hi', hat i hi' hi⟩

omit [Characters] in
theorem record_of_mem {lines : List (List Char)} {records : List (Value F)}
    (h : List.Forall₂ (fun line record => loads keepLast line = .ok record) lines records)
    {line : List Char} (hline : line ∈ lines) {record : Value F}
    (hparsed : loads keepLast line = .ok record) : record ∈ records := by
  obtain ⟨i, hi, rfl⟩ := List.mem_iff_getElem.mp hline
  obtain ⟨hlength, hat⟩ := List.forall₂_iff_get.mp h
  have hi' : i < records.length := hlength ▸ hi
  have hsame : loads keepLast lines[i] = .ok records[i] := hat i hi hi'
  rw [hsame] at hparsed
  obtain rfl := Except.ok.inj hparsed
  exact List.getElem_mem hi'

/-- In an accepted ledger a private value is one of the notes, on a line with a backslash. -/
theorem Kept.notes_of_private {lines : List (List Char)} {records : List (Value F)}
    {progress : Progress F} (h : Kept lines records progress) {record : Value F}
    (hrecord : record ∈ records) {t : Text} (ht : t ∈ record.strings) (hprivate : Private t) :
    record.get "notes" = .str t ∧
      ∃ line ∈ lines, loads keepLast line = .ok record ∧ '\\' ∈ line := by
  obtain ⟨line, hline, hparsed⟩ := h.record_of_line hrecord
  obtain ⟨key, hkey, hvalue⟩ := (h.canonical record hrecord).exists_field hparsed ht
  have hnotes : key = "notes" := by
    by_contra hne
    obtain ⟨s, rfl, p, hp, hfound⟩ := hprivate
    have hharmless := (h.canonical record hrecord).harmless hkey hne hvalue
    rw [hharmless.not_found p hp] at hfound
    cases hfound
  refine ⟨hnotes ▸ hvalue, line, hline, hparsed, ?_⟩
  by_contra hslash
  obtain ⟨p, hp, hfound⟩ := found_of_private hslash hparsed ht hprivate
  rw [h.swept line hline p hp] at hfound
  cases hfound

omit [Interpreter F] [Characters] in
theorem mem_strings_of_get {record : Value F} {key : String} {t : Text}
    (h : record.get key = .str t) : t ∈ record.strings := by
  cases hget : record.get? key with
  | none =>
    rw [Value.get, hget] at h
    cases h
  | some v =>
    rw [Value.get_of_get? hget] at h
    cases record with
    | obj fields =>
      have hmem := mem_of_lookup hget
      rw [Value.strings, mem_fieldsStrings]
      exact ⟨_, hmem, by simp [h, Value.strings]⟩
    | _ => cases hget

/-- The validator returns exactly on the texts whose lines do not raise, and a ledger that it
accepts is sound exactly when it is plain. -/
theorem ledger_sound_iff (content : List Char) :
    ((∃ errors, ledgerErrors F (some content) = .ok errors) ↔
      ∀ line ∈ linesOf content, Readable F line) ∧
    (ledgerErrors F (some content) = .ok [] →
      ((∃ records : List (Value F), Sound content records) ↔ Plain F content)) := by
  refine ⟨ledgerErrors_returns content, ?_⟩
  intro haccepted
  obtain ⟨hend, records, progress, hkept⟩ := kept_of_accepted haccepted
  constructor
  · rintro ⟨records', hsound⟩
    constructor
    · intro c hc hbreak
      rw [hsound.terminated, unlines, List.mem_flatMap] at hc
      obtain ⟨line, hline, hc⟩ := hc
      rcases List.mem_append.mp hc with hc | hc
      · rw [isLineBreak_of_mem_splitlines hline c hc] at hbreak
        cases hbreak
      · exact List.mem_singleton.mp hc
    · intro line hline record hparsed t hnotes hprivate
      have hrecord := record_of_mem hsound.parsed hline hparsed
      exact absurd hprivate (hsound.sanitized record hrecord t (mem_strings_of_get hnotes))
  · intro hplain
    have hreturn : '\r' ∉ content := by
      intro hmem
      exact absurd (hplain.feeds _ hmem (by decide)) (by decide)
    obtain ⟨times, htimes, hordered, -⟩ := hkept.ordered
    rw [universalNewlines_of_plain hreturn] at hend
    refine ⟨records, hkept.parsed, ?_, ?_, hkept.distinct, times, htimes, hordered⟩
    · rw [linesOf, universalNewlines_of_plain hreturn, unlines_splitlines hplain.feeds hend]
    · intro record hrecord t ht hprivate
      obtain ⟨hnotes, line, hline, hparsed, hslash⟩ :=
        hkept.notes_of_private hrecord ht hprivate
      exact hplain.visible line hline record hparsed t hnotes hprivate hslash

/-! The notes of this record are an address, spelled with an escape. -/

namespace Sample

def line : List Char :=
  "\x7b\"schema\":\"platform-assurance/v1\",\"time_utc\":\"2026-08-10T19:20:00Z\",".toList ++
    "\"base_commit\":\"".toList ++ List.replicate 40 'a' ++ "\",\"branch\":".toList ++
    "\"fable/platform-a\",\"phase\":\"A\",\"control\":\"PLAT-A-001\",".toList ++
    "\"command_id\":\"abc\",\"result\":\"PASS\",\"evidence_sha256\":null,".toList ++
    "\"private_data\":\"ABSENT\",\"notes\":\"10\\u002e0.0.1\"\x7d".toList

def content : List Char := line ++ ['\n']

end Sample

omit [Characters] in
theorem sample_accepted :
    @ledgerErrors (List Char) _ asciiCharacters (some Sample.content) = .ok [] := by
  have hempty : (match @ledgerErrors (List Char) _ asciiCharacters (some Sample.content) with
      | .ok errors => errors.isEmpty
      | .error _ => false) = true := by
    delta Sample.content Sample.line
    -- with its literals spelled out the line need not be decoded
    simp (disch := exact rfl) only [PythonText.toList_spelled]
    decide +kernel
  split at hempty
  · next errors heq => rw [heq, List.isEmpty_iff.mp hempty]
  · cases hempty

omit [Characters] in
theorem sample_sound_iff :
    (∃ records : List (Value (List Char)), @Sound _ _ asciiCharacters Sample.content records) ↔
      @Plain (List Char) _ asciiCharacters Sample.content :=
  (@ledger_sound_iff (List Char) _ asciiCharacters Sample.content).2 sample_accepted

omit [Characters] in
/-- An escape hides an address from the sweep, and the ledger is accepted with it. -/
theorem escaped_address_is_accepted :
    @ledgerErrors (List Char) _ asciiCharacters (some Sample.content) = .ok [] ∧
      ¬ ∃ records : List (Value (List Char)), @Sound _ _ asciiCharacters Sample.content records := by
  let characters := asciiCharacters
  refine ⟨sample_accepted, ?_⟩
  rintro ⟨records, hsound⟩
  have hline : Sample.line ∈ linesOf Sample.content := by
    delta Sample.content Sample.line
    simp (disch := exact rfl) only [PythonText.toList_spelled]
    decide +kernel
  have hholds : (match (loads keepLast Sample.line : Except ReadError (Value (List Char))) with
      | .ok record => record.strings.contains (.scalar "10.0.0.1")
      | .error _ => false) = true := by
    delta Sample.line
    simp (disch := exact rfl) only [PythonText.toList_spelled]
    decide +kernel
  split at hholds
  · next record hparsed =>
    have hrecord := record_of_mem hsound.parsed hline hparsed
    have hprivate : Private (.scalar "10.0.0.1") :=
      ⟨"10.0.0.1", rfl, ("ipv4 address", address), List.mem_cons_self, by decide⟩
    exact hsound.sanitized record hrecord _ (List.contains_iff_mem.mp hholds) hprivate
  · cases hholds

end Assurance
