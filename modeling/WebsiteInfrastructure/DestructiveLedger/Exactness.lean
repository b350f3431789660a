import Mathlib
import WebsiteInfrastructure.DestructiveLedger.Evidence
import WebsiteInfrastructure.Library.JsonReading

/-!
# What an allowed ledger says

The command ends with a verdict, and an allowed ledger is exact, where the checks meet no value that
they raise on and no count that is a truth value or a float.
-/

namespace DestructiveLedger

open Json Raising

variable {F : Type} [Floats F]

/-- Everything up to the receipt passes. -/
structure Reached (document : Value F) (target : Text) (metrics : Metrics)
    (inventory : List (Value F)) : Prop where
  head : HeadPassed document
  listed : InventoryPassed document target inventory
  exclusions : ExclusionsPassed document
  measured : MetricsPassed document metrics
  guard : GuardPassed document
  journal : JournalPassed document

/-- Every check passes, with these lists, this fault target and these metrics. -/
structure Passed (document : Value F) (target : Text) (metrics : Metrics)
    (inventory evidence scenarios : List (Value F)) : Prop extends
    Reached document target metrics inventory where
  receipt : ReceiptPassed metrics document
  signals : SignalsPassed metrics document evidence
  fulfilled : ScenariosPassed document target metrics scenarios
  tail : TailPassed document

/-- The checks come to a value that they raise on: everything before it passes. -/
inductive Meets (document : Value F) : Prop
  | exclusions (target : Text) (inventory : List (Value F)) (head : HeadPassed document)
    (listed : InventoryPassed document target inventory) (raises : ExclusionsRaise document)
  | metrics (target : Text) (inventory : List (Value F)) (head : HeadPassed document)
    (listed : InventoryPassed document target inventory) (excluded : ExclusionsPassed document)
    (raises : MetricsRaise document)
  | receipt (target : Text) (metrics : Metrics) (inventory : List (Value F))
    (reached : Reached document target metrics inventory) (raises : ReceiptRaises document)
  | signals (target : Text) (metrics : Metrics) (inventory : List (Value F))
    (reached : Reached document target metrics inventory)
    (received : ReceiptPassed metrics document) (raises : SignalsRaise metrics document)
  | scenarios (target : Text) (metrics : Metrics) (inventory evidence : List (Value F))
    (reached : Reached document target metrics inventory)
    (received : ReceiptPassed metrics document)
    (signalled : SignalsPassed metrics document evidence)
    (raises : ScenariosRaise document target metrics)

variable {document : Value F} {metrics : Metrics} {target : Text}
  {inventory evidence scenarios : List (Value F)}

theorem denial_eq_ok : denial document = .ok () ↔
    ∃ target metrics inventory evidence scenarios,
      Passed document target metrics inventory evidence scenarios := by
  simp only [denial, bind_eq_ok, exists_const, checkHead_eq_ok, checkInventory_eq_ok,
    checkExclusions_eq_ok, checkMetrics_eq_ok, checkGuard_eq_ok, checkJournal_eq_ok,
    checkReceipt_eq_ok, checkSignals_eq_ok, checkScenarios_eq_ok, checkTail_eq_ok]
  constructor
  · rintro ⟨hhead, target, ⟨inventory, hinventory⟩, hexclusions, metrics, hmetrics, hguard,
      hjournal, hreceipt, ⟨evidence, hsignals⟩, ⟨scenarios, hscenarios⟩, htail⟩
    exact ⟨target, metrics, inventory, evidence, scenarios,
      ⟨hhead, hinventory, hexclusions, hmetrics, hguard, hjournal⟩, hreceipt, hsignals, hscenarios,
      htail⟩
  · rintro ⟨target, metrics, inventory, evidence, scenarios,
      ⟨hhead, hinventory, hexclusions, hmetrics, hguard, hjournal⟩, hreceipt, hsignals, hscenarios,
      htail⟩
    exact ⟨hhead, target, ⟨inventory, hinventory⟩, hexclusions, metrics, hmetrics, hguard, hjournal,
      hreceipt, ⟨evidence, hsignals⟩, ⟨scenarios, hscenarios⟩, htail⟩

theorem denial_eq_raised : denial document = .error .raised ↔ Meets document := by
  simp only [denial, bind_eq_error, exists_const, checkHead_eq_ok, checkInventory_eq_ok,
    checkExclusions_eq_ok, checkMetrics_eq_ok, checkGuard_eq_ok, checkJournal_eq_ok,
    checkReceipt_eq_ok, checkSignals_eq_ok, checkScenarios_eq_ok, checkHead_not_raised,
    checkInventory_not_raised, checkExclusions_eq_raised, checkMetrics_eq_raised,
    checkGuard_not_raised, checkJournal_not_raised, checkReceipt_eq_raised, checkSignals_eq_raised,
    checkScenarios_eq_raised, checkTail_not_raised, false_or, and_false, or_false]
  constructor
  · rintro ⟨hhead, target, ⟨inventory, hinventory⟩, hraises | ⟨hexclusions, hraises |
      ⟨metrics, hmetrics, hguard, hjournal, hlater⟩⟩⟩
    · exact .exclusions target inventory hhead hinventory hraises
    · exact .metrics target inventory hhead hinventory hexclusions hraises
    · have hreached : Reached document target metrics inventory :=
        ⟨hhead, hinventory, hexclusions, hmetrics, hguard, hjournal⟩
      rcases hlater with hraises | ⟨hreceipt, hraises | ⟨⟨evidence, hsignals⟩, hraises⟩⟩
      · exact .receipt target metrics inventory hreached hraises
      · exact .signals target metrics inventory hreached hreceipt hraises
      · exact .scenarios target metrics inventory evidence hreached hreceipt hsignals hraises
  · intro h
    cases h with
    | exclusions target inventory hhead hinventory hraises =>
      exact ⟨hhead, target, ⟨inventory, hinventory⟩, .inl hraises⟩
    | metrics target inventory hhead hinventory hexclusions hraises =>
      exact ⟨hhead, target, ⟨inventory, hinventory⟩, .inr ⟨hexclusions, .inl hraises⟩⟩
    | receipt target metrics inventory hreached hraises =>
      exact ⟨hreached.head, target, ⟨inventory, hreached.listed⟩, .inr ⟨hreached.exclusions,
        .inr ⟨metrics, hreached.measured, hreached.guard, hreached.journal, .inl hraises⟩⟩⟩
    | signals target metrics inventory hreached hreceipt hraises =>
      exact ⟨hreached.head, target, ⟨inventory, hreached.listed⟩, .inr ⟨hreached.exclusions,
        .inr ⟨metrics, hreached.measured, hreached.guard, hreached.journal,
          .inr ⟨hreceipt, .inl hraises⟩⟩⟩⟩
    | scenarios target metrics inventory evidence hreached hreceipt hsignals hraises =>
      exact ⟨hreached.head, target, ⟨inventory, hreached.listed⟩, .inr ⟨hreached.exclusions,
        .inr ⟨metrics, hreached.measured, hreached.guard, hreached.journal,
          .inr ⟨hreceipt, .inr ⟨⟨evidence, hsignals⟩, hraises⟩⟩⟩⟩⟩

/-! ## What is established -/

/-- The counts are integers of JSON. -/
structure Counted (document : Value F) (evidence scenarios : List (Value F)) : Prop where
  schemaVersion : document.get "schema_version" = .int 1
  rollbackLimit : (document.get "cleanup_guard").get "rollback_limit" = .int 1
  rollbackCount : (document.get "cleanup_receipt").get "rollback_count" = .int 1
  receiptCount : (document.get "cleanup_receipt").get "receipt_count" = .int 1
  residue : (document.get "cleanup_receipt").get "residue_orphans" = .int 0
  signalCounts : ∀ e ∈ evidence, e.get "rollback_count" = .int 1 ∧ e.get "receipt_count" = .int 1 ∧
    e.get "residue_orphans" = .int 0
  scenarioResidue : ∀ s ∈ scenarios, s.get "residue_orphans" = .int 0

/-- What an allowed ledger is to say. -/
structure Exact (document : Value F) (target : Text) (metrics : Metrics)
    (inventory evidence scenarios : List (Value F)) : Prop where
  listed : items? (document.get "inventory") = some inventory
  signalled : items? (document.get "signal_evidence") = some evidence
  fulfilled : items? (document.get "scenarios") = some scenarios
  /-- One entry of the inventory is the fault target, and every scenario names it. -/
  oneTarget : targetsOf inventory = [target]
  targeted : ∀ s ∈ scenarios, s.get "fault_target_uid" = .str target
  /-- Every scenario and every case of signals is there once. -/
  everyScenario : (scenarios.map fun s => s.get "name").Perm (scenarioNames.map .text)
  everySignal : (evidence.map fun e => e.get "name").Perm (signalCases.map fun c => .text c.1)
  oneReceipt : ∀ s ∈ scenarios,
    s.get "cleanup_receipt_sha256" = (document.get "cleanup_receipt").get "sha256"
  oneJournal : ∀ s ∈ scenarios,
    s.get "recovery_journal_sha256" = (document.get "recovery_journal").get "sha256"
  /-- What was observed is a finite number within the accepted metric. -/
  measured : MetricsPassed document metrics
  observed : ∀ s ∈ scenarios, ∀ o ∈ observations metrics s, o.2
  cleanup : Within ((document.get "cleanup_receipt").get "observed_cleanup_seconds") metrics.rto
  signalCleanup : ∀ e ∈ evidence, Within (e.get "observed_cleanup_seconds") metrics.rto
  counted : Counted document evidence scenarios

omit [Floats F] in
theorem isObject_of_hasExactly {v : Value F} {keys : List String}
    (h : v.hasExactly keys = true) : v.isObject = true := by
  cases v <;> first | rfl | cases h

omit [Floats F] in
theorem exists_str_of_isHash {v : Value F} (h : isHash v = true) : ∃ t, v = .str t := by
  cases v with
  | str t => exact ⟨t, rfl⟩
  | _ => cases h

/-- A value that equals a digest is that digest. -/
theorem eq_of_isHash {v w : Value F} (hw : isHash w = true) (h : v.eq w = true) : v = w := by
  obtain ⟨t, rfl⟩ := exists_str_of_isHash hw
  exact Value.eq_str.mp h

omit [Floats F] in
/-- The names of as many objects as there are names are the names in some order. -/
theorem perm_of_namesExact {items : List (Value F)} {names : List String} (hnodup : names.Nodup)
    (hlength : items.length = names.length) (h : NamesExact items names) :
    (items.map fun item => item.get "name").Perm (names.map .text) := by
  apply perm_of_equalsSet hnodup
  · rw [List.length_map, hlength]
  · intro name hname
    obtain ⟨item, hitem, -, heq⟩ := h.2 name hname
    exact List.mem_map.mpr ⟨item, hitem, heq⟩

theorem exact_of_passed (h : Passed document target metrics inventory evidence scenarios)
    (hcounted : Counted document evidence scenarios) :
    Exact document target metrics inventory evidence scenarios where
  listed := h.listed.listed
  signalled := h.signals.listed
  fulfilled := h.fulfilled.listed
  oneTarget := h.listed.target
  targeted s hs := (h.fulfilled.passed s hs).target
  everyScenario := perm_of_namesExact (by decide) h.fulfilled.length h.fulfilled.names
  everySignal := by
    have hperm := perm_of_namesExact (by decide) (by simpa using h.signals.length) h.signals.names
    rwa [List.map_map] at hperm
  oneReceipt s hs := eq_of_isHash h.receipt.hash (h.fulfilled.passed s hs).receipt
  oneJournal s hs := eq_of_isHash h.journal.hash (h.fulfilled.passed s hs).journal
  measured := h.measured
  observed s hs := (h.fulfilled.passed s hs).observed
  cleanup := h.receipt.seconds
  signalCleanup e he := (h.signals.passed e he).seconds
  counted := hcounted

/-! ## The command -/

/-- The text has no number with too many digits and no nesting that is too deep, its document has no
value that the checks raise on where they come to it, and if every check passes its counts are
integers. -/
structure Decided (F : Type) [Floats F] (text : List Char) : Prop where
  read : ∀ e, loads (rejectDuplicates : PairsHook F) text = .error e →
    e ≠ .digits ∧ e ≠ .recursion
  harmless : ∀ document, loads (rejectDuplicates : PairsHook F) text = .ok document →
    ¬ Meets document
  counted : ∀ document target metrics inventory evidence scenarios,
    loads (rejectDuplicates : PairsHook F) text = .ok document →
    Passed document target metrics inventory evidence scenarios →
    Counted document evidence scenarios

theorem main_eq_raised {text : List Char} : main (F := F) text = .raised ↔
    (∃ e, loads (rejectDuplicates : PairsHook F) text = .error e ∧ (e = .digits ∨ e = .recursion)) ∨
      ∃ document, loads (rejectDuplicates : PairsHook F) text = .ok document ∧ Meets document := by
  unfold main
  cases hloads : loads (rejectDuplicates : PairsHook F) text with
  | error e => cases e <;> simp
  | ok document =>
    simp only [reduceCtorEq, false_and, exists_false, false_or, Except.ok.injEq, exists_eq_left',
      ← denial_eq_raised]
    cases hdenial : denial document with
    | ok => simp
    | error stop => cases stop <;> simp

theorem main_eq_allow {text : List Char} : main (F := F) text = .allow ↔
    ∃ document, loads (rejectDuplicates : PairsHook F) text = .ok document ∧
      ∃ target metrics inventory evidence scenarios,
        Passed document target metrics inventory evidence scenarios := by
  unfold main
  cases hloads : loads (rejectDuplicates : PairsHook F) text with
  | error e => cases e <;> simp
  | ok document =>
    simp only [Except.ok.injEq, exists_eq_left', ← denial_eq_ok]
    cases hdenial : denial document with
    | ok => simp
    | error stop => cases stop <;> simp

/-- The command ends with a verdict and allows only exact ledgers, where the text is decided. -/
theorem verdict_exact_iff (text : List Char) :
    (main (F := F) text ≠ .raised ∧
      (main (F := F) text = .allow → ∃ document target metrics inventory evidence scenarios,
        loads (rejectDuplicates : PairsHook F) text = .ok document ∧
          Exact document target metrics inventory evidence scenarios)) ↔ Decided F text := by
  rw [main_eq_allow, ne_eq, main_eq_raised]
  constructor
  · rintro ⟨hraised, hallow⟩
    rw [not_or] at hraised
    refine ⟨fun e he => ?_,
      fun document hdocument hmeets => hraised.2 ⟨document, hdocument, hmeets⟩,
      fun document target metrics inventory evidence scenarios hdocument hpassed => ?_⟩
    · have hnot : ¬ (e = .digits ∨ e = .recursion) := fun h => hraised.1 ⟨e, he, h⟩
      exact not_or.mp hnot
    · obtain ⟨document', _, _, _, evidence', scenarios', hdocument', hexact⟩ :=
        hallow ⟨document, hdocument, target, metrics, inventory, evidence, scenarios, hpassed⟩
      obtain rfl := Except.ok.inj (hdocument.symm.trans hdocument')
      obtain rfl := Option.some.inj (hpassed.signals.listed.symm.trans hexact.signalled)
      obtain rfl := Option.some.inj (hpassed.fulfilled.listed.symm.trans hexact.fulfilled)
      exact hexact.counted
  · rintro ⟨hloads, hharmless, hcounted⟩
    refine ⟨?_, ?_⟩
    · rintro (⟨e, he, hbad⟩ | ⟨document, hdocument, hmeets⟩)
      · obtain ⟨hdigits, hrecursion⟩ := hloads e he
        tauto
      · exact hharmless document hdocument hmeets
    · rintro ⟨document, hdocument, target, metrics, inventory, evidence, scenarios, hpassed⟩
      exact ⟨document, target, metrics, inventory, evidence, scenarios, hdocument,
        exact_of_passed hpassed (hcounted _ _ _ _ _ _ hdocument hpassed)⟩

/-! ## A ledger that raises -/

/-- Floats by their literal; the ledger below has none. -/
instance literalFloats : Floats (List Char) where
  toInterpreter := literalInterpreter
  exact _ := none

def sampleHash : Value (List Char) := .text (String.ofList (List.replicate 64 'a'))

/-- A ledger up to its exclusions, of which one is a list. -/
def listedExclusion : Value (List Char) :=
  .obj [(.scalar "acceptance_metrics", .null), (.scalar "artifact_sha256", sampleHash),
    (.scalar "authorization", .text "explicit-owner-window"),
    (.scalar "classification", .text "ephemeral-disposable"), (.scalar "cleanup_guard", .null),
    (.scalar "cleanup_receipt", .null), (.scalar "cloudflare_connector", .null),
    (.scalar "desired_state_sha256", sampleHash), (.scalar "externalized_state", .bool true),
    (.scalar "inventory", .arr [.obj [(.scalar "apiVersion", .text "v1"),
      (.scalar "classification", .text "ephemeral-workload"), (.scalar "fault_target", .bool true),
      (.scalar "kind", .text "Pod"), (.scalar "name", .text "web"),
      (.scalar "namespace", .text "site"), (.scalar "scope", .text "Namespaced"),
      (.scalar "uid", .text "1")]]),
    (.scalar "protected_exclusions", .arr [.arr []]), (.scalar "recovery_journal", .null),
    (.scalar "recreate_from_zero", .null), (.scalar "scenarios", .null),
    (.scalar "schema_version", .int 1), (.scalar "serialized_lane", .null),
    (.scalar "signal_evidence", .null)]

/-- The command raises on it instead of ending with a verdict. -/
theorem listedExclusion_raises :
    main (F := List Char) (write true listedExclusion) = .raised := by
  have hchecks : listedExclusion.isPlain (Interpreter.readDepth (List Char)) = true ∧
      denial listedExclusion = .error .raised := by
    decide +kernel
  rw [main, loads_write builds_rejectDuplicates true hchecks.1]
  dsimp only
  rw [hchecks.2]

end DestructiveLedger
