import Mathlib
import WebsiteInfrastructure.Library.Dealing
import WebsiteInfrastructure.Library.JsonReading
import WebsiteInfrastructure.Library.PythonObjects
import WebsiteInfrastructure.Library.Raising

/-!
# The parallel test run

`run_python_tests.py` discovers the tests, deals them to isolated workers and reads back what
each says it executed. A worker is whatever it does: the files it leaves, when, and how it ends.
-/

namespace TestRun

open Json Raising Dealing

/-- An exception, by the `except` clauses that tell exceptions apart. -/
inductive Fault
  | valueError (message : String)
  | osError
  | timeoutExpired
  | exception
  | interrupt
  deriving DecidableEq

/-! ## Discovery -/

/-- What `loader.discover` collects. -/
inductive Test
  | case (id : Text)
  | suite (tests : List Test)

mutual

def testIds : Test → List Text
  | .case id => [id]
  | .suite tests => suiteIds tests

def suiteIds : List Test → List Text
  | [] => []
  | test :: tests => testIds test ++ suiteIds tests

end

structure Loaded where
  errors : List Text
  tests : List Test

def discover (loaded : Except Fault Loaded) : Except Fault (List Text) := do
  let loaded ← loaded
  let ids := suiteIds loaded.tests
  raiseIf (loaded.errors ≠ [] ∨ ids = [] ∨ ids.length ≠ ids.dedup.length)
    (.valueError "discovery is empty, duplicated or contains import errors")
  .ok ids

/-- Strings are ordered by their code points. -/
instance textOrder : LinearOrder Text := LinearOrder.lift' Text.points Text.points_injective

def sorted (ids : List Text) : List Text := ids.insertionSort (· ≤ ·)

def partition (ids : List Text) (workers : ℤ) : Except Fault (List (List Text)) := do
  raiseIf (¬ (1 ≤ workers ∧ workers ≤ 4))
    (.valueError "worker count must be between one and four")
  let count := workers.toNat
  let groups := deal (count - 1) (min count ids.length) ids
  let flattened := groups.flatten
  raiseIf (groups = [] ∨ sorted flattened ≠ sorted ids ∨
      flattened.length ≠ flattened.dedup.length)
    (.valueError "partition does not contain every test exactly once")
  .ok groups

/-! ## Results -/

inductive Count
  | testsRun | failures | errors | skipped | expectedFailures | unexpectedSuccesses
  deriving DecidableEq

def Count.key : Count → String
  | .testsRun => "tests_run"
  | .failures => "failures"
  | .errors => "errors"
  | .skipped => "skipped"
  | .expectedFailures => "expected_failures"
  | .unexpectedSuccesses => "unexpected_successes"

def counts : List Count :=
  [.testsRun, .failures, .errors, .skipped, .expectedFailures, .unexpectedSuccesses]

def resultKeys : List String := counts.map Count.key ++ ["executed", "successful"]

variable {F : Type}

/-- `record[key]` where it is an integer -/
def countOf (record : Value F) (count : Count) : ℤ := (record.get count.key).int?.getD 0

/-- The ids that a record says were executed. -/
def executedIds (record : Value F) : List Text :=
  match record.get "executed" with
  | .arr items => items.filterMap Value.str?
  | _ => []

variable [Interpreter F]

def validateResult (expected : List Text) (record : Value F) : Except Fault Unit := do
  -- a value that is no dict raises at `set(record)`, at the comparison or at the first subscript
  raiseIf (record.hasExactly resultKeys = false)
    (.valueError "worker result is incomplete or foreign")
  raiseIf ((record.get "executed").eq (.arr (expected.map .str)) = false ∨
      (record.get "tests_run").eq (.int expected.length) = false)
    (.valueError "worker did not execute its exact assigned tests")
  raiseIf (∃ count ∈ counts, (record.get count.key).int?.all (· < 0) = true)
    (.valueError "worker counts are malformed")
  raiseIf (countOf record .skipped + countOf record .expectedFailures > countOf record .testsRun)
    (.valueError "worker outcome counts exceed its execution census")
  raiseIf ((record.get "successful").isTrue = false ∨
      ∃ count ∈ [Count.failures, .errors, .unexpectedSuccesses],
        (record.get count.key).truthy = true)
    (.valueError "worker reported unsuccessful tests")

/-! ## Workers -/

/-- What one turn of the loop in `wait_worker` sees. -/
structure Poll where
  exited : Except Fault Bool
  isFile : Except Fault Bool
  exitStatus : Except Fault (List Char)
  clock : ℚ

structure Worker where
  started : Except Fault Unit
  /-- The clock when the wait begins. -/
  clock : ℚ
  polls : List Poll
  log : Except Fault Unit
  result : Except Fault (List Char)
  stopped : Except Fault Unit
  closed : Except Fault Unit

/-- `json.loads` -/
def parse (text : List Char) : Except Fault (Value F) :=
  match loads keepLast text with
  | .ok value => .ok value
  | .error _ => .error .exception

variable (F) in
def readCode (text : List Char) : Except Fault ℤ := do
  let value : Value F ← parse text
  match value.int? with
  | some code =>
    raiseIf (¬ (-127 ≤ code ∧ code ≤ 255)) (.valueError "worker process exit is malformed")
    .ok code
  | none => .error (.valueError "worker process exit is malformed")

variable (F) in
/-- The clock does not stand still: the last turn comes after the deadline. -/
def waitWorker (deadline : ℚ) : List Poll → Except Fault ℤ
  | [] => .error .timeoutExpired
  | poll :: polls => do
    let exited ← poll.exited
    raiseIf (exited = true) (.valueError "worker supervisor exited before cleanup")
    let present ← poll.isFile
    if present then
      let text ← poll.exitStatus
      readCode F text
    else do
      raiseIf (deadline - poll.clock ≤ 0) .timeoutExpired
      waitWorker deadline polls

/-- One turn of the loop over the tasks, up to the totals. -/
def acceptTask (ending : ℚ) (group : List Text) (worker : Worker) : Except Fault (Value F) := do
  let timeout := max 0 (ending - worker.clock)
  let code ← waitWorker F (worker.clock + timeout) worker.polls
  worker.log
  let text ← worker.result
  let record ← parse text
  validateResult group record
  raiseIf (code ≠ 0) (.valueError "worker exit contradicts its result")
  .ok record

structure Tally where
  totals : Count → ℤ
  failed : Bool

abbrev Task := List Text × Worker

variable (F) in
def checkTask (ending : ℚ) (tally : Tally) (task : Task) : Except Fault Tally :=
  match (acceptTask ending task.1 task.2 : Except Fault (Value F)) with
  | .ok record => .ok { tally with totals := fun key => tally.totals key + countOf record key }
  | .error .interrupt => .error .interrupt
  | .error _ => .ok { tally with failed := true }

/-- The tasks that were started, and whether all of them were. -/
def startTasks (workers : ℕ → Worker) : List (List Text × ℕ) → List Task × Except Fault Unit
  | [] => ([], .ok ())
  | (group, index) :: rest =>
    match (workers index).started with
    | .error fault => ([], .error fault)
    | .ok () =>
      let (tasks, outcome) := startTasks workers rest
      ((group, workers index) :: tasks, outcome)

/-- Whether the cleanup of a task failed. -/
def stopTask (worker : Worker) : Except Fault Bool := do
  let unclean ← match worker.stopped with
    | .ok () => .ok false
    | .error .osError | .error .timeoutExpired => .ok true
    | .error fault => .error fault
  worker.closed
  .ok unclean

def stopTasks (tasks : List Task) : Except Fault Bool :=
  carry (fun failed task => do
    let unclean ← stopTask task.2
    .ok (failed || unclean)) false tasks

/-! ## The run -/

structure Session where
  timeout : ℚ
  started : ℚ
  loaded : Except Fault Loaded
  count : ℤ
  workers : ℕ → Worker
  /-- Making and removing the temporary directory. -/
  made : Except Fault Unit
  removed : Except Fault Unit

structure Report where
  discovered : ℕ
  workers : ℕ
  totals : Count → ℤ

variable (F) in
/-- The report that is printed where `run` returns 0. -/
def run (s : Session) : Except Fault Report := do
  raiseIf (¬ (0 < s.timeout ∧ s.timeout ≤ 1200))
    (.valueError "worker timeout must be positive and at most twenty minutes")
  let ids ← discover s.loaded
  let groups ← partition ids s.count
  s.made
  let started := startTasks s.workers groups.zipIdx
  let body : Except Fault Tally := do
    started.2
    carry (checkTask F (s.started + s.timeout)) ⟨fun _ => 0, false⟩ started.1
  -- the `finally` block runs in any case, and what it raises is what is raised
  let unclean ← stopTasks started.1
  let tally ← body
  s.removed
  raiseIf (tally.failed = true ∨ unclean = true ∨ tally.totals .testsRun ≠ ids.length)
    (.valueError "complete discovered test inventory did not pass")
  .ok ⟨ids.length, groups.length, tally.totals⟩

end TestRun
