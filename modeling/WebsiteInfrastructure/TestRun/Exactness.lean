import Mathlib
import WebsiteInfrastructure.TestRun.Census

/-!
# A run that returns 0 is an exact census
-/

namespace TestRun

open Json Raising Dealing

/-! ## Partitions -/

theorem sorted_eq_iff {xs ys : List Text} : sorted xs = sorted ys ↔ xs.Perm ys := by
  constructor
  · intro h
    have hx : (sorted xs).Perm xs := List.perm_insertionSort _ xs
    have hy : (sorted ys).Perm ys := List.perm_insertionSort _ ys
    rw [h] at hx
    exact hx.symm.trans hy
  · intro h
    apply List.Perm.eq_of_pairwise' (r := (· ≤ ·))
    · exact List.pairwise_insertionSort _ xs
    · exact List.pairwise_insertionSort _ ys
    · exact (List.perm_insertionSort _ xs).trans (h.trans (List.perm_insertionSort _ ys).symm)

theorem length_dedup_eq_iff {xs : List Text} : xs.length = xs.dedup.length ↔ xs.Nodup := by
  constructor
  · intro h
    have hsame : xs.dedup = xs := (List.dedup_sublist xs).eq_of_length h.symm
    exact List.dedup_eq_self.mp hsame
  · intro h
    rw [h.dedup]

/-- The slices that a list of tests is cut into. -/
def slices (ids : List Text) (workers : ℤ) : List (List Text) :=
  deal (workers.toNat - 1) (min workers.toNat ids.length) ids

theorem flatten_slices {ids : List Text} {workers : ℤ} (h : 1 ≤ workers) :
    (slices ids workers).flatten.Perm ids := by
  have hcount : workers.toNat - 1 + 1 = workers.toNat := by omega
  have hdealt := flatten_deal_perm (workers.toNat - 1) ids
  rw [hcount] at hdealt
  rwa [slices, flatten_deal_min]

theorem partition_eq_ok {ids : List Text} {workers : ℤ} {groups : List (List Text)} :
    partition ids workers = .ok groups ↔ (1 ≤ workers ∧ workers ≤ 4) ∧ ids ≠ [] ∧ ids.Nodup ∧
      groups = slices ids workers := by
  have hfolded : partition ids workers = (do
      raiseIf (¬ (1 ≤ workers ∧ workers ≤ 4))
        (.valueError "worker count must be between one and four")
      raiseIf (slices ids workers = [] ∨ sorted (slices ids workers).flatten ≠ sorted ids ∨
          (slices ids workers).flatten.length ≠ (slices ids workers).flatten.dedup.length)
        (.valueError "partition does not contain every test exactly once")
      .ok (slices ids workers)) := rfl
  rw [hfolded, raiseIf_bind_eq_ok, not_not, raiseIf_bind_eq_ok, Except.ok.injEq]
  refine and_congr_right fun ⟨hlow, _⟩ => ?_
  have hperm : (slices ids workers).flatten.Perm ids := flatten_slices hlow
  have hempty : slices ids workers = [] ↔ ids = [] := by
    rw [slices, deal, List.map_eq_nil_iff, List.range_eq_nil, Nat.min_eq_zero_iff,
      List.length_eq_zero_iff]
    exact or_iff_right (by omega)
  simp only [ne_eq, not_or, not_not]
  rw [sorted_eq_iff, length_dedup_eq_iff, hempty, hperm.nodup_iff, and_assoc, and_assoc,
    eq_comm (b := groups)]
  exact and_congr_right fun _ => and_iff_right hperm

/-- Distinct tests, at least one, are dealt to one to four workers. -/
theorem partition_ok {ids : List Text} {workers : ℤ} (hne : ids ≠ []) (hnodup : ids.Nodup)
    (hlow : 1 ≤ workers) (hhigh : workers ≤ 4) : ∃ groups, partition ids workers = .ok groups ∧
      groups.Pairwise List.Disjoint ∧ groups.flatten.Perm ids := by
  have hperm : (slices ids workers).flatten.Perm ids := flatten_slices hlow
  refine ⟨slices ids workers, partition_eq_ok.mpr ⟨⟨hlow, hhigh⟩, hne, hnodup, rfl⟩, ?_, hperm⟩
  exact (List.nodup_flatten.mp (hperm.nodup_iff.mpr hnodup)).2

/-! ## Accepted results -/

variable {F : Type}

theorem eq_strings [Interpreter F] {v : Value F} {ids : List Text}
    (h : v.eq (.arr (ids.map .str)) = true) : v = .arr (ids.map .str) := by
  cases v with
  | arr items =>
    rw [Value.eq] at h
    congr 1
    induction ids generalizing items with
    | nil =>
      cases items with
      | nil => rfl
      | cons => simp [Value.eqItems] at h
    | cons id ids ih =>
      cases items with
      | nil => simp [Value.eqItems] at h
      | cons item items =>
        rw [List.map_cons, Value.eqItems, Bool.and_eq_true, Value.eq_str] at h
        rw [h.1, List.map_cons, ih items h.2]
  | _ => simp [Value.eq, Value.numEq, Value.asInt?] at h

/-- The record of a worker that ran its tests, all of them well. -/
structure Clean (expected : List Text) (record : Value F) : Prop where
  executed : record.get "executed" = .arr (expected.map .str)
  testsRun : record.get "tests_run" = .int expected.length
  counted : ∀ count : Count, ∃ n : ℕ, record.get count.key = .int n
  failures : record.get "failures" = .int 0
  errors : record.get "errors" = .int 0
  unexpectedSuccesses : record.get "unexpected_successes" = .int 0
  successful : record.get "successful" = .bool true

theorem Clean.executedIds {expected : List Text} {record : Value F} (h : Clean expected record) :
    executedIds record = expected := by
  rw [TestRun.executedIds, h.executed]
  simp [List.filterMap_map, Function.comp_def, Value.str?]

theorem Clean.countOf_testsRun {expected : List Text} {record : Value F}
    (h : Clean expected record) : countOf record .testsRun = expected.length := by
  rw [countOf, Count.key, h.testsRun]
  rfl

variable [Interpreter F]

theorem mem_counts (count : Count) : count ∈ counts := by
  cases count <;> decide

theorem clean_of_validateResult {expected : List Text} {record : Value F} {u : Unit}
    (h : validateResult expected record = .ok u) : Clean expected record := by
  simp only [validateResult, raiseIf_bind_eq_ok, raiseIf_eq_ok, not_or, not_exists, not_and,
    Bool.not_eq_false, Bool.not_eq_true] at h
  obtain ⟨-, ⟨hexecuted, hrun⟩, hcounts, -, hsuccessful, hzero⟩ := h
  have hcounted : ∀ count : Count, ∃ n : ℕ, record.get count.key = .int n := by
    intro count
    have hcount := hcounts count (mem_counts count)
    cases hint : (record.get count.key).int? with
    | none => simp [hint] at hcount
    | some n =>
      obtain ⟨k, rfl⟩ := Int.eq_ofNat_of_zero_le (by simpa [hint] using hcount)
      exact ⟨k, Value.int?_eq_some.mp hint⟩
  have hnone : ∀ count ∈ [Count.failures, .errors, .unexpectedSuccesses],
      record.get count.key = .int 0 := by
    intro count hmem
    obtain ⟨n, hn⟩ := hcounted count
    have hfalse := hzero count hmem
    rw [hn] at hfalse ⊢
    simpa [Value.truthy] using hfalse
  refine ⟨eq_strings hexecuted, ?_, hcounted, hnone .failures (by simp), hnone .errors (by simp),
    hnone .unexpectedSuccesses (by simp), ?_⟩
  · obtain ⟨n, hn⟩ := hcounted .testsRun
    rw [Count.key] at hn
    rw [hn] at hrun ⊢
    simpa [Value.eq, Value.numEq, Value.asInt?] using hrun
  · cases hbool : record.get "successful" with
    | bool b =>
      rw [hbool] at hsuccessful
      exact congrArg _ hsuccessful
    | _ => simp [hbool, Value.isTrue] at hsuccessful

/-- The record is what the worker's result file holds, and the worker ended with status 0. -/
structure Reported (worker : Worker) (record : Value F) : Prop where
  read : ∃ text, worker.result = .ok text ∧ parse text = .ok record
  exited : ∃ poll ∈ worker.polls, ∃ text, poll.isFile = .ok true ∧ poll.exitStatus = .ok text ∧
    readCode F text = .ok 0

theorem poll_of_waitWorker {deadline : ℚ} {polls : List Poll} {code : ℤ}
    (h : waitWorker F deadline polls = .ok code) : ∃ poll ∈ polls, ∃ text,
      poll.isFile = .ok true ∧ poll.exitStatus = .ok text ∧ readCode F text = .ok code := by
  induction polls with
  | nil => simp [waitWorker] at h
  | cons poll polls ih =>
    rw [waitWorker, bind_eq_ok] at h
    obtain ⟨exited, -, h⟩ := h
    rw [raiseIf_bind_eq_ok, bind_eq_ok] at h
    obtain ⟨-, present, hpresent, h⟩ := h
    cases present with
    | true =>
      obtain ⟨text, htext, hcode⟩ := bind_eq_ok.mp h
      exact ⟨poll, .head _, text, hpresent, htext, hcode⟩
    | false =>
      obtain ⟨-, hlater⟩ := raiseIf_bind_eq_ok.mp h
      obtain ⟨later, hmem, hread⟩ := ih hlater
      exact ⟨later, .tail _ hmem, hread⟩

theorem accepted {ending : ℚ} {group : List Text} {worker : Worker} {record : Value F}
    (h : acceptTask ending group worker = .ok record) :
    Clean group record ∧ Reported worker record := by
  rw [acceptTask, bind_eq_ok] at h
  obtain ⟨code, hcode, h⟩ := h
  obtain ⟨-, -, h⟩ := bind_eq_ok.mp h
  obtain ⟨text, htext, h⟩ := bind_eq_ok.mp h
  obtain ⟨read, hread, h⟩ := bind_eq_ok.mp h
  obtain ⟨u, hvalid, h⟩ := bind_eq_ok.mp h
  obtain ⟨hzero, h⟩ := raiseIf_bind_eq_ok.mp h
  obtain rfl := Except.ok.inj h
  rw [not_not.mp hzero] at hcode
  exact ⟨clean_of_validateResult hvalid, ⟨text, htext, hread⟩, poll_of_waitWorker hcode⟩

/-! ## The loop over the tasks -/

/-- As long as nothing failed, each task so far was accepted and the totals are their sums. -/
def Counted (ending : ℚ) (seen : List Task) (tally : Tally) : Prop :=
  tally.failed = false → ∃ records : List (Value F),
    List.Forall₂ (fun task record => acceptTask ending task.1 task.2 = .ok record) seen records ∧
    ∀ key, tally.totals key = (records.map fun record => countOf record key).sum

theorem counted_step {ending : ℚ} {seen : List Task} {tally next : Tally} {task : Task}
    (h : Counted (F := F) ending seen tally) (hstep : checkTask F ending tally task = .ok next) :
    Counted (F := F) ending (seen ++ [task]) next := by
  intro hclean
  rw [checkTask] at hstep
  split at hstep
  · next record hrecord =>
    obtain rfl := Except.ok.inj hstep
    obtain ⟨records, hseen, htotals⟩ := h hclean
    refine ⟨records ++ [record], List.rel_append hseen (.cons hrecord .nil), ?_⟩
    intro key
    simp [htotals key]
  · cases hstep
  · obtain rfl := Except.ok.inj hstep
    cases hclean

theorem counted_of_carry {ending : ℚ} {tasks : List Task} {tally : Tally}
    (h : carry (checkTask F ending) ⟨fun _ => 0, false⟩ tasks = .ok tally) :
    Counted (F := F) ending tasks tally := by
  apply carry_invariant (Counted (F := F) ending) _ _ h
  · intro seen s task t hs hstep
    exact counted_step hs hstep
  · intro _
    exact ⟨[], .nil, fun _ => rfl⟩

theorem startTasks_eq {workers : ℕ → Worker} {groups : List (List Text × ℕ)} {u : Unit}
    (h : (startTasks workers groups).2 = .ok u) :
    (startTasks workers groups).1 = groups.map fun group => (group.1, workers group.2) := by
  induction groups with
  | nil => rfl
  | cons group groups ih =>
    obtain ⟨ids, index⟩ := group
    cases hstarted : (workers index).started with
    | error fault => simp [startTasks, hstarted] at h
    | ok =>
      simp only [startTasks, hstarted] at h ⊢
      rw [List.map_cons, ih h]

/-! ## The census -/

/-- What a run that returns 0 has established. -/
structure Census (s : Session) (report : Report) (ids : List Text) (groups : List (List Text))
    (records : List (Value F)) : Prop where
  discovered : discover s.loaded = .ok ids
  partitioned : partition ids s.count = .ok groups
  /-- A worker's group is every `count`-th test, from its own index on. -/
  assigned : ∀ index group, groups[index]? = some group →
    ∀ i : ℕ, group[i]? = ids[index + i * s.count.toNat]?
  reported : ∀ (index : ℕ) record, records[index]? = some record →
    Reported (s.workers index) record
  /-- Each worker executed its own group, in order, without a failure. -/
  clean : List.Forall₂ Clean groups records
  /-- Over all workers every test was executed once, and nothing else was. -/
  once : ∀ id, (records.flatMap executedIds).count id = if id ∈ ids then 1 else 0
  totals : ∀ key, report.totals key = (records.map fun record => countOf record key).sum
  total : report.totals .testsRun = ids.length
  sizes : report.discovered = ids.length ∧ report.workers = groups.length

omit [Interpreter F] in
theorem flatMap_executedIds {groups : List (List Text)} {records : List (Value F)}
    (h : List.Forall₂ Clean groups records) : records.flatMap executedIds = groups.flatten := by
  induction h with
  | nil => rfl
  | cons hclean _ ih => rw [List.flatMap_cons, List.flatten_cons, hclean.executedIds, ih]

theorem slices_getElem? {ids group : List Text} {workers : ℤ} {index : ℕ} (hlow : 1 ≤ workers)
    (h : (slices ids workers)[index]? = some group) (i : ℕ) :
    group[i]? = ids[index + i * workers.toNat]? := by
  rw [slices, deal, List.getElem?_map, Option.map_eq_some_iff] at h
  obtain ⟨start, hstart, rfl⟩ := h
  obtain ⟨hlt, rfl⟩ := List.getElem?_eq_some_iff.mp hstart
  rw [List.getElem_range, getElem?_everyNth]
  congr 3
  omega

theorem discover_ok {loaded : Except Fault Loaded} {ids : List Text}
    (h : discover loaded = .ok ids) : ids.Nodup := by
  obtain ⟨found, -, h⟩ := bind_eq_ok.mp h
  obtain ⟨hgood, h⟩ := raiseIf_bind_eq_ok.mp h
  obtain rfl := Except.ok.inj h
  simp only [not_or, not_not] at hgood
  exact length_dedup_eq_iff.mp hgood.2.2

/-- `run` returns 0 only after every test was executed once, by the worker it was assigned to. -/
theorem census_of_run {s : Session} {report : Report} (h : run F s = .ok report) :
    ∃ ids groups, ∃ records : List (Value F), Census s report ids groups records := by
  obtain ⟨-, h⟩ := raiseIf_bind_eq_ok.mp h
  obtain ⟨ids, hids, h⟩ := bind_eq_ok.mp h
  obtain ⟨groups, hgroups, h⟩ := bind_eq_ok.mp h
  obtain ⟨-, -, h⟩ := bind_eq_ok.mp h
  obtain ⟨unclean, -, h⟩ := bind_eq_ok.mp h
  obtain ⟨tally, htally, h⟩ := bind_eq_ok.mp h
  obtain ⟨-, -, h⟩ := bind_eq_ok.mp h
  obtain ⟨hpassed, h⟩ := raiseIf_bind_eq_ok.mp h
  obtain rfl := Except.ok.inj h
  obtain ⟨u, hstarted, hcarried⟩ := bind_eq_ok.mp htally
  simp only [not_or, not_not, Bool.not_eq_true] at hpassed
  obtain ⟨records, hrecords, htotals⟩ := counted_of_carry hcarried hpassed.1
  rw [startTasks_eq hstarted, List.forall₂_map_left_iff] at hrecords
  obtain ⟨⟨hlow, -⟩, -, hnodup, hslices⟩ := partition_eq_ok.mp hgroups
  have hclean : List.Forall₂ Clean groups records := by
    have hzip := hrecords.imp fun _ _ haccepted => (accepted haccepted).1
    rw [← List.forall₂_map_left_iff (f := Prod.fst), List.zipIdx_map_fst] at hzip
    exact hzip
  have hperm : groups.flatten.Perm ids := by
    rw [hslices]
    exact flatten_slices hlow
  refine ⟨ids, groups, records, hids, hgroups, ?_, ?_, hclean, ?_, htotals, hpassed.2.2,
    rfl, rfl⟩
  · intro index group hgroup
    rw [hslices] at hgroup
    exact slices_getElem? hlow hgroup
  · intro index record hrecord
    obtain ⟨hlength, hat⟩ := List.forall₂_iff_get.mp hrecords
    obtain ⟨hlt, rfl⟩ := List.getElem?_eq_some_iff.mp hrecord
    have hreported := (accepted (hat index (hlength ▸ hlt) hlt)).2
    simpa using hreported
  · intro id
    rw [flatMap_executedIds hclean, hperm.count_eq]
    exact hnodup.count

/-! ## The claim of the runner -/

/-- The run is a census, and distinct tests can be dealt whenever there are any. -/
theorem run_is_census : (∀ s report, run F s = .ok report →
      ∃ ids groups, ∃ records : List (Value F), Census s report ids groups records) ∧
    ∀ (ids : List Text) (workers : ℤ), ids ≠ [] → ids.Nodup → 1 ≤ workers → workers ≤ 4 →
      ∃ groups, partition ids workers = .ok groups ∧ groups.Pairwise List.Disjoint ∧
        groups.flatten.Perm ids :=
  ⟨fun _ _ => census_of_run, fun _ _ => partition_ok⟩

/-! Two tests, two workers, each of which writes the record of one test that passed. -/

namespace Sample

def record (id : String) : List Char :=
  ("\x7b\"executed\": [\"" ++ id ++ "\"], \"successful\": true, \"tests_run\": 1, " ++
    "\"failures\": 0, \"errors\": 0, \"skipped\": 1, \"expected_failures\": 0, " ++
    "\"unexpected_successes\": 0\x7d").toList

def worker (id : String) : Worker where
  started := .ok ()
  clock := 1
  polls := [⟨.ok false, .ok false, .error .osError, 2⟩, ⟨.ok false, .ok true, .ok ['0'], 3⟩]
  log := .ok ()
  result := .ok (record id)
  stopped := .ok ()
  closed := .ok ()

def session : Session where
  timeout := 1200
  started := 0
  loaded := .ok ⟨[], [.suite [.case (.scalar "a.b"), .case (.scalar "a.c")]]⟩
  count := 2
  workers index := if index = 0 then worker "a.b" else worker "a.c"
  made := .ok ()
  removed := .ok ()

end Sample

theorem sample_run_is_census : (∃ report ids groups, ∃ records : List (Value (List Char)),
      Census Sample.session report ids groups records) ∧
    ∃ groups, partition [.scalar "a.b", .scalar "a.c", .scalar "a.d"] 2 = .ok groups ∧
      groups.Pairwise List.Disjoint ∧
      groups.flatten.Perm [.scalar "a.b", .scalar "a.c", .scalar "a.d"] := by
  have hpassed : (run (List Char) Sample.session).isOk = true := by
    decide +kernel
  constructor
  · cases hrun : run (List Char) Sample.session with
    | error fault => simp [hrun, Except.isOk, Except.toBool] at hpassed
    | ok report => exact ⟨report, run_is_census.1 _ _ hrun⟩
  · exact (run_is_census (F := List Char)).2 _ 2 (by decide) (by decide) (by decide) (by decide)

/-- The empty list of tests is refused. -/
theorem nothing_is_not_partitioned : ¬ ∀ (ids : List Text) (workers : ℤ), ids.Nodup →
    1 ≤ workers → workers ≤ 4 → ∃ groups, partition ids workers = .ok groups := by
  intro h
  obtain ⟨groups, hgroups⟩ := h [] 1 .nil le_rfl (by norm_num)
  cases hgroups

end TestRun
