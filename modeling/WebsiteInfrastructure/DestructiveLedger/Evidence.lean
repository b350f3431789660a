import Mathlib
import WebsiteInfrastructure.DestructiveLedger.Stages

/-!
# The evidence

What the checks of the guard, the journal, the receipt, the signals and the scenarios have
established, and what they raise on.
-/

namespace DestructiveLedger

open Json Raising

variable {F : Type} [Floats F] {document v : Value F} {metrics : Metrics} {target : Text}

/-! ## The guard, the journal and the receipt -/

structure GuardPassed (document : Value F) : Prop where
  fields : (document.get "cleanup_guard").hasExactly guardFields = true
  signals : ((document.get "cleanup_guard").get "signals").eq
    (.arr [.text "HUP", .text "INT", .text "TERM"]) = true
  reentryPolicy : (document.get "cleanup_guard").get "reentry_policy" = .text "ignore-after-first"
  rollbackLimit : ((document.get "cleanup_guard").get "rollback_limit").eq (.int 1) = true

theorem checkGuard_eq_ok {u : Unit} : checkGuard document = .ok u ↔ GuardPassed document := by
  simp only [checkGuard, bind_eq_ok, raiseIf_eq_ok, exists_const, not_or, Bool.not_eq_false,
    Value.eq_text]
  constructor
  · rintro ⟨hfields, hsignals, hpolicy, hlimit⟩
    exact ⟨hfields, hsignals, hpolicy, hlimit⟩
  · rintro ⟨hfields, hsignals, hpolicy, hlimit⟩
    exact ⟨hfields, hsignals, hpolicy, hlimit⟩

theorem checkGuard_not_raised : checkGuard document ≠ .error .raised := by
  simp only [checkGuard, ne_eq, bind_eq_error, raiseIf_eq_error, denied_ne_raised, and_false,
    exists_false, or_false, not_false_eq_true]

structure JournalPassed (document : Value F) : Prop where
  fields : (document.get "recovery_journal").hasExactly journalFields = true
  hash : isHash ((document.get "recovery_journal").get "sha256") = true
  created : ((document.get "recovery_journal").get "created_before_mutation").isTrue = true
  initialState : (document.get "recovery_journal").get "initial_state" = .text "prepared"
  finalState : (document.get "recovery_journal").get "final_state" = .text "closed"
  action : (document.get "recovery_journal").get "recovery_action" = .text "rollback-or-escalate"

theorem checkJournal_eq_ok {u : Unit} : checkJournal document = .ok u ↔ JournalPassed document := by
  simp only [checkJournal, bind_eq_ok, raiseIf_eq_ok, exists_const, not_or, Bool.not_eq_false,
    Value.eq_text]
  constructor
  · rintro ⟨hfields, hhash, hcreated, hinitial, hfinal, haction⟩
    exact ⟨hfields, hhash, hcreated, hinitial, hfinal, haction⟩
  · rintro ⟨hfields, hhash, hcreated, hinitial, hfinal, haction⟩
    exact ⟨hfields, hhash, hcreated, hinitial, hfinal, haction⟩

theorem checkJournal_not_raised : checkJournal document ≠ .error .raised := by
  simp only [checkJournal, ne_eq, bind_eq_error, raiseIf_eq_error, denied_ne_raised, and_false,
    exists_false, or_false, not_false_eq_true]

/-- The receipt before its seconds are looked at. -/
structure ReceiptStarted (document : Value F) : Prop where
  fields : (document.get "cleanup_receipt").hasExactly receiptFields = true
  hash : isHash ((document.get "cleanup_receipt").get "sha256") = true
  completed : time ((document.get "cleanup_receipt").get "completed_at") ≠ none
  deferred : ((document.get "cleanup_receipt").get "signals_deferred").isTrue = true
  rollbackCount : ((document.get "cleanup_receipt").get "rollback_count").eq (.int 1) = true
  receiptCount : ((document.get "cleanup_receipt").get "receipt_count").eq (.int 1) = true
  rollbackStatus : (document.get "cleanup_receipt").get "rollback_status" = .text "verified"
  residue : ((document.get "cleanup_receipt").get "residue_orphans").eq (.int 0) = true

structure ReceiptPassed (metrics : Metrics) (document : Value F) : Prop extends
    ReceiptStarted document where
  seconds : Within ((document.get "cleanup_receipt").get "observed_cleanup_seconds") metrics.rto

def ReceiptRaises (document : Value F) : Prop :=
  ReceiptStarted document ∧
    overflows ((document.get "cleanup_receipt").get "observed_cleanup_seconds") = true

theorem receiptStarted_iff : ReceiptStarted document ↔
    (document.get "cleanup_receipt").hasExactly receiptFields = true ∧
      (isHash ((document.get "cleanup_receipt").get "sha256") = true ∧
        time ((document.get "cleanup_receipt").get "completed_at") ≠ none) ∧
      ((document.get "cleanup_receipt").get "signals_deferred").isTrue = true ∧
      ((document.get "cleanup_receipt").get "rollback_count").eq (.int 1) = true ∧
      ((document.get "cleanup_receipt").get "receipt_count").eq (.int 1) = true ∧
      (document.get "cleanup_receipt").get "rollback_status" = .text "verified" ∧
      ((document.get "cleanup_receipt").get "residue_orphans").eq (.int 0) = true := by
  constructor
  · rintro ⟨hfields, hhash, htime, hdeferred, hrollback, hreceipt, hstatus, hresidue⟩
    exact ⟨hfields, ⟨hhash, htime⟩, hdeferred, hrollback, hreceipt, hstatus, hresidue⟩
  · rintro ⟨hfields, ⟨hhash, htime⟩, hdeferred, hrollback, hreceipt, hstatus, hresidue⟩
    exact ⟨hfields, hhash, htime, hdeferred, hrollback, hreceipt, hstatus, hresidue⟩

theorem checkReceipt_eq_ok {u : Unit} :
    checkReceipt metrics document = .ok u ↔ ReceiptPassed metrics document := by
  simp only [checkReceipt, bind_eq_ok, raiseIf_eq_ok, exists_const, not_or, Bool.not_eq_false,
    Value.eq_text, checkWithin_eq_ok]
  constructor
  · rintro ⟨hfields, hidentity, hcounts, hseconds⟩
    exact ⟨receiptStarted_iff.mpr ⟨hfields, hidentity, hcounts⟩, hseconds⟩
  · rintro ⟨hstarted, hseconds⟩
    obtain ⟨hfields, hidentity, hcounts⟩ := receiptStarted_iff.mp hstarted
    exact ⟨hfields, hidentity, hcounts, hseconds⟩

theorem checkReceipt_eq_raised :
    checkReceipt metrics document = .error .raised ↔ ReceiptRaises document := by
  simp only [checkReceipt, bind_eq_error, raiseIf_eq_error, denied_ne_raised, and_false, false_or,
    raiseIf_eq_ok, exists_const, not_or, Bool.not_eq_false, Value.eq_text,
    checkWithin_eq_raised denied_ne_raised, ReceiptRaises, receiptStarted_iff]
  tauto

/-! ## The signals -/

/-- The evidence of a signal before its seconds are looked at. -/
structure EvidenceStarted (evidence : Value F) : Prop where
  fields : evidence.hasExactly signalFields = true
  sequence : ∃ signalCase,
    signalCases.find? (fun c => (evidence.get "name").eq (.text c.1)) = some signalCase ∧
      (evidence.get "signals").eq (.arr (signalCase.2.map .text)) = true
  interval : isInterval evidence = true
  rollbackCount : (evidence.get "rollback_count").eq (.int 1) = true
  receiptCount : (evidence.get "receipt_count").eq (.int 1) = true
  residue : (evidence.get "residue_orphans").eq (.int 0) = true
  finalState : evidence.get "journal_final_state" = .text "closed"

structure EvidencePassed (metrics : Metrics) (evidence : Value F) : Prop extends
    EvidenceStarted evidence where
  seconds : Within (evidence.get "observed_cleanup_seconds") metrics.rto

/-- The name is one of a case. -/
def IsCase (evidence : Value F) : Prop := ∃ c ∈ signalCases, evidence.get "name" = .text c.1

theorem checkEvidence_eq_ok {u : Unit} :
    checkEvidence metrics v = .ok u ↔ EvidencePassed metrics v := by
  unfold checkEvidence
  rw [raiseIf_bind_eq_ok, Bool.not_eq_false]
  split
  · next hnone =>
    simp only [reduceCtorEq, and_false, false_iff]
    rintro ⟨⟨-, ⟨signalCase, hfound, -⟩, -⟩, -⟩
    rw [hfound] at hnone
    cases hnone
  · next signalCase hfound =>
    simp only [bind_eq_ok, raiseIf_eq_ok, exists_const, not_or, Bool.not_eq_false, Value.eq_text,
      checkWithin_eq_ok]
    constructor
    · rintro ⟨hfields, hsignals, hinterval, ⟨hrollback, hreceipt, hresidue, hfinal⟩, hseconds⟩
      exact ⟨⟨hfields, ⟨signalCase, hfound, hsignals⟩, hinterval, hrollback, hreceipt, hresidue,
        hfinal⟩, hseconds⟩
    · rintro ⟨⟨hfields, ⟨_, hfound', hsignals⟩, hinterval, hrollback, hreceipt, hresidue, hfinal⟩,
        hseconds⟩
      obtain rfl := Option.some.inj (hfound.symm.trans hfound')
      exact ⟨hfields, hsignals, hinterval, ⟨hrollback, hreceipt, hresidue, hfinal⟩, hseconds⟩

theorem checkEvidence_eq_raised (hcase : v.isObject = true → IsCase v) :
    checkEvidence metrics v = .error .raised ↔
      EvidenceStarted v ∧ overflows (v.get "observed_cleanup_seconds") = true := by
  unfold checkEvidence
  split
  · next hnone =>
    simp only [bind_eq_error, raiseIf_eq_error, denied_ne_raised, and_false, false_or,
      raiseIf_eq_ok, exists_const, Bool.not_eq_false, and_true]
    constructor
    · intro hfields
      have hobject : v.isObject = true := by
        cases v <;> simp_all [Value.hasExactly, Value.isObject]
      obtain ⟨c, hc, hname⟩ := hcase hobject
      have hnot := List.find?_eq_none.mp hnone c hc
      exact absurd (Value.eq_text.mpr hname) hnot
    · exact fun h => h.1.fields
  · next signalCase hfound =>
    simp only [bind_eq_error, raiseIf_eq_error, denied_ne_raised, and_false, false_or,
      raiseIf_eq_ok, exists_const, not_or, Bool.not_eq_false, Value.eq_text,
      checkWithin_eq_raised denied_ne_raised]
    constructor
    · rintro ⟨hfields, hsignals, hinterval, ⟨hrollback, hreceipt, hresidue, hfinal⟩, hover⟩
      exact ⟨⟨hfields, ⟨signalCase, hfound, hsignals⟩, hinterval, hrollback, hreceipt, hresidue,
        hfinal⟩, hover⟩
    · rintro ⟨⟨hfields, ⟨_, hfound', hsignals⟩, hinterval, hrollback, hreceipt, hresidue, hfinal⟩,
        hover⟩
      obtain rfl := Option.some.inj (hfound.symm.trans hfound')
      exact ⟨hfields, hsignals, hinterval, ⟨hrollback, hreceipt, hresidue, hfinal⟩, hover⟩

/-- The names of the objects in a list are these names. -/
def NamesExact (items : List (Value F)) (names : List String) : Prop :=
  (∀ item ∈ items, item.isObject = true → ∃ name ∈ names, item.get "name" = .text name) ∧
    ∀ name ∈ names, ∃ item ∈ items, item.isObject = true ∧ item.get "name" = .text name

/-- An object in the list has a name that is a list or an object. -/
def NamesRaise (items : List (Value F)) : Prop :=
  ∃ item ∈ items, item.isObject = true ∧ (item.get "name").hashable = false

theorem namesEqual_eq_ok {items : List (Value F)} {names : List String} :
    namesEqual items names = .ok true ↔ NamesExact items names := by
  simp only [namesEqual, equalsSet_eq_ok, List.mem_map, List.mem_filter, NamesExact,
    forall_exists_index, and_imp, and_assoc]
  refine and_congr_left fun _ => ?_
  constructor
  · intro h item hitem hobject
    exact h _ item hitem hobject rfl
  · rintro h _ item hitem hobject rfl
    exact h item hitem hobject

theorem namesEqual_eq_raised {items : List (Value F)} {names : List String} :
    namesEqual items names = .error .raised ↔ NamesRaise items := by
  simp only [namesEqual, equalsSet_eq_raised, List.mem_map, List.mem_filter, NamesRaise]
  constructor
  · rintro ⟨_, ⟨item, ⟨hitem, hobject⟩, rfl⟩, hhash⟩
    exact ⟨item, hitem, hobject, hhash⟩
  · rintro ⟨item, hitem, hobject, hhash⟩
    exact ⟨_, ⟨item, ⟨hitem, hobject⟩, rfl⟩, hhash⟩

/-- The first item that does not pass has this. -/
def First (passes has : Value F → Prop) (items : List (Value F)) : Prop :=
  ∃ before item after, items = before ++ item :: after ∧ (∀ other ∈ before, passes other) ∧ has item

/-- The evidence is one item for each case, and each passes. -/
structure SignalsPassed (metrics : Metrics) (document : Value F) (evidence : List (Value F)) :
    Prop where
  listed : items? (document.get "signal_evidence") = some evidence
  length : evidence.length = signalCases.length
  names : NamesExact evidence (signalCases.map (·.1))
  passed : ∀ e ∈ evidence, EvidencePassed metrics e

def SignalsRaise (metrics : Metrics) (document : Value F) : Prop :=
  ∃ evidence, items? (document.get "signal_evidence") = some evidence ∧
    evidence.length = signalCases.length ∧
    (NamesRaise evidence ∨ NamesExact evidence (signalCases.map (·.1)) ∧
      First (EvidencePassed metrics) (fun e => EvidenceStarted e ∧
        overflows (e.get "observed_cleanup_seconds") = true) evidence)

theorem checkSignals_eq_ok {u : Unit} : checkSignals metrics document = .ok u ↔
    ∃ evidence, SignalsPassed metrics document evidence := by
  unfold checkSignals
  split
  · next hnone =>
    simp only [reduceCtorEq, false_iff, not_exists]
    intro evidence h
    rw [h.listed] at hnone
    cases hnone
  · next evidence hlisted =>
    simp only [bind_eq_ok, raiseIf_eq_ok, exists_const, not_ne_iff, Bool.not_eq_false, each_eq_ok,
      checkEvidence_eq_ok]
    constructor
    · rintro ⟨hlength, _, hnames, rfl, hpassed⟩
      exact ⟨evidence, hlisted, hlength, namesEqual_eq_ok.mp hnames, hpassed⟩
    · rintro ⟨_, hlisted', hlength, hnames, hpassed⟩
      obtain rfl := Option.some.inj (hlisted.symm.trans hlisted')
      exact ⟨hlength, true, namesEqual_eq_ok.mpr hnames, rfl, hpassed⟩

theorem checkSignals_eq_raised :
    checkSignals metrics document = .error .raised ↔ SignalsRaise metrics document := by
  unfold checkSignals
  split
  · next hnone => simp [SignalsRaise, hnone, deny]
  · next evidence hlisted =>
    have heach : NamesExact evidence (signalCases.map (·.1)) →
        (each (checkEvidence metrics) evidence = .error .raised ↔
          First (EvidencePassed metrics) (fun e => EvidenceStarted e ∧
            overflows (e.get "observed_cleanup_seconds") = true) evidence) := by
      intro hnames
      have hcase : ∀ e ∈ evidence, e.isObject = true → IsCase e := by
        intro e he hobject
        obtain ⟨name, hname, heq⟩ := hnames.1 e he hobject
        obtain ⟨c, hc, rfl⟩ := List.mem_map.mp hname
        exact ⟨c, hc, heq⟩
      rw [each_eq_error, First]
      constructor
      · rintro ⟨before, e, after, rfl, hbefore, he⟩
        have hraised := (checkEvidence_eq_raised (hcase e (by simp))).mp he
        exact ⟨before, e, after, rfl, fun y hy => checkEvidence_eq_ok.mp (hbefore y hy), hraised⟩
      · rintro ⟨before, e, after, rfl, hbefore, he⟩
        have hraised : checkEvidence metrics e = .error .raised :=
          (checkEvidence_eq_raised (hcase e (by simp))).mpr he
        exact ⟨before, e, after, rfl, fun y hy => checkEvidence_eq_ok.mpr (hbefore y hy), hraised⟩
    simp only [bind_eq_error, raiseIf_eq_error, denied_ne_raised, and_false, false_or,
      raiseIf_eq_ok, exists_const, not_ne_iff, Bool.not_eq_false, SignalsRaise, hlisted,
      Option.some.injEq, exists_eq_left', namesEqual_eq_raised]
    refine and_congr_right fun _ => or_congr_right ?_
    constructor
    · rintro ⟨_, hnames, rfl, hraised⟩
      have hexact := namesEqual_eq_ok.mp hnames
      exact ⟨hexact, (heach hexact).mp hraised⟩
    · rintro ⟨hexact, hfirst⟩
      exact ⟨true, namesEqual_eq_ok.mpr hexact, rfl, (heach hexact).mpr hfirst⟩

/-! ## The scenarios -/

/-- A scenario before its numbers are looked at. -/
structure ScenarioStarted (document : Value F) (target : Text) (scenario : Value F) : Prop where
  fields : scenario.hasExactly scenarioFields = true
  target : scenario.get "fault_target_uid" = .str target
  receipt : (scenario.get "cleanup_receipt_sha256").eq
    ((document.get "cleanup_receipt").get "sha256") = true
  journal : (scenario.get "recovery_journal_sha256").eq
    ((document.get "recovery_journal").get "sha256") = true
  hashes : ∀ key ∈ hashKeys, isHash (scenario.get key) = true
  interval : isInterval scenario = true

/-- The times are within the metrics, the availability is not below them. -/
def observations (metrics : Metrics) (scenario : Value F) : List (Value F × Prop) :=
  [(scenario.get "observed_downtime_seconds",
      Within (scenario.get "observed_downtime_seconds") metrics.expectedDowntime),
    (scenario.get "observed_rto_seconds",
      Within (scenario.get "observed_rto_seconds") metrics.rto),
    (scenario.get "observed_readiness_seconds",
      Within (scenario.get "observed_readiness_seconds") metrics.readiness),
    (scenario.get "observed_availability_percent",
      ∃ q, HasMetric true (scenario.get "observed_availability_percent") q ∧
        metrics.availability ≤ q)]

structure ScenarioPassed (document : Value F) (target : Text) (metrics : Metrics)
    (scenario : Value F) : Prop extends ScenarioStarted document target scenario where
  observed : ∀ o ∈ observations metrics scenario, o.2
  residue : (scenario.get "residue_orphans").eq (.int 0) = true
  rollbackStatus : scenario.get "rollback_status" = .text "verified"
  readiness : (scenario.get "readiness_accepted").isTrue = true
  availability : (scenario.get "availability_accepted").isTrue = true
  connector : (document.get "cloudflare_connector").isTrue = true →
    (scenario.get "public_https_recovered").isTrue = true

def ScenarioRaises (document : Value F) (target : Text) (metrics : Metrics) (scenario : Value F) :
    Prop :=
  ScenarioStarted document target scenario ∧ FirstOverflows (observations metrics scenario)

theorem checkScenario_eq_ok {u : Unit} : checkScenario document target metrics v = .ok u ↔
    ScenarioPassed document target metrics v := by
  simp only [checkScenario, bind_eq_ok, raiseIf_eq_ok, exists_const, not_or, Bool.not_eq_false,
    Value.eq_text, Value.eq_str, each_eq_ok, checkWithin_eq_ok, not_and, not_not]
  constructor
  · rintro ⟨hfields, htarget, hreceipt, hjournal, hhashes, hinterval, hobserved, available,
      havailable, ⟨q, rfl, hle⟩, ⟨hresidue, hstatus⟩, ⟨hready, haccepted⟩, hconnector⟩
    refine ⟨⟨hfields, htarget, hreceipt, hjournal, hhashes, hinterval⟩, ?_, hresidue, hstatus,
      hready, haccepted, hconnector⟩
    simp only [observations, List.forall_mem_cons, List.not_mem_nil, false_implies, implies_true,
      and_true] at hobserved ⊢
    exact ⟨hobserved.1, hobserved.2.1, hobserved.2.2, q, metric_eq_ok.mp havailable, hle⟩
  · rintro ⟨⟨hfields, htarget, hreceipt, hjournal, hhashes, hinterval⟩, hobserved, hresidue,
      hstatus, hready, haccepted, hconnector⟩
    simp only [observations, List.forall_mem_cons, List.not_mem_nil, false_implies, implies_true,
      and_true] at hobserved
    obtain ⟨hdowntime, hrto, hreadiness, q, hmetric, hle⟩ := hobserved
    refine ⟨hfields, htarget, hreceipt, hjournal, hhashes, hinterval, ?_, some q,
      metric_eq_ok.mpr hmetric, ⟨q, rfl, hle⟩, ⟨hresidue, hstatus⟩, ⟨hready, haccepted⟩, hconnector⟩
    simp only [List.forall_mem_cons, List.not_mem_nil, false_implies, implies_true, and_true]
    exact ⟨hdowntime, hrto, hreadiness⟩

theorem checkScenario_eq_raised : checkScenario document target metrics v = .error .raised ↔
    ScenarioRaises document target metrics v := by
  have hstop : ∀ reason : List Char, Stop.denied reason ≠ .raised := fun _ h => by cases h
  simp only [checkScenario, each, hashKeys, bind_eq_error, raiseIf_eq_error, denied_ne_raised,
    checkWithin_eq_raised (hstop _), checkWithin_eq_ok, metric_eq_raised, reduceCtorEq, and_false,
    false_or, or_false, exists_false, raiseIf_eq_ok, exists_const, bind_eq_ok, Bool.not_eq_false,
    Value.eq_str, ScenarioRaises, observations, FirstOverflows, and_true]
  constructor
  · rintro ⟨hfields, htarget, hreceipt, hjournal, hhashes, hinterval, hnumbers⟩
    refine ⟨⟨hfields, htarget, hreceipt, hjournal, ?_, hinterval⟩, by tauto⟩
    simpa [hashKeys] using hhashes
  · rintro ⟨⟨hfields, htarget, hreceipt, hjournal, hhashes, hinterval⟩, hnumbers⟩
    refine ⟨hfields, htarget, hreceipt, hjournal, ?_, hinterval, by tauto⟩
    simpa [hashKeys] using hhashes

/-- The scenarios are one item for each required name, and each passes. -/
structure ScenariosPassed (document : Value F) (target : Text) (metrics : Metrics)
    (scenarios : List (Value F)) : Prop where
  listed : items? (document.get "scenarios") = some scenarios
  length : scenarios.length = scenarioNames.length
  names : NamesExact scenarios scenarioNames
  passed : ∀ s ∈ scenarios, ScenarioPassed document target metrics s

def ScenariosRaise (document : Value F) (target : Text) (metrics : Metrics) : Prop :=
  ∃ scenarios, items? (document.get "scenarios") = some scenarios ∧
    (NamesRaise scenarios ∨ NamesExact scenarios scenarioNames ∧
      scenarios.length = scenarioNames.length ∧
      First (ScenarioPassed document target metrics) (ScenarioRaises document target metrics)
        scenarios)

theorem checkScenarios_eq_ok {u : Unit} : checkScenarios target metrics document = .ok u ↔
    ∃ scenarios, ScenariosPassed document target metrics scenarios := by
  unfold checkScenarios
  split
  · next hnone =>
    simp only [reduceCtorEq, false_iff, not_exists]
    intro scenarios h
    rw [h.listed] at hnone
    cases hnone
  · next scenarios hlisted =>
    simp only [bind_eq_ok, raiseIf_eq_ok, exists_const, not_ne_iff, Bool.not_eq_false, each_eq_ok,
      checkScenario_eq_ok]
    constructor
    · rintro ⟨_, hnames, rfl, hlength, hpassed⟩
      exact ⟨scenarios, hlisted, hlength, namesEqual_eq_ok.mp hnames, hpassed⟩
    · rintro ⟨_, hlisted', hlength, hnames, hpassed⟩
      obtain rfl := Option.some.inj (hlisted.symm.trans hlisted')
      exact ⟨true, namesEqual_eq_ok.mpr hnames, rfl, hlength, hpassed⟩

theorem checkScenarios_eq_raised : checkScenarios target metrics document = .error .raised ↔
    ScenariosRaise document target metrics := by
  unfold checkScenarios
  split
  · next hnone => simp [ScenariosRaise, hnone, deny]
  · next scenarios hlisted =>
    have heach : each (checkScenario document target metrics) scenarios = .error .raised ↔
        First (ScenarioPassed document target metrics) (ScenarioRaises document target metrics)
          scenarios := by
      simp only [each_eq_error, checkScenario_eq_ok, checkScenario_eq_raised, First]
    simp only [bind_eq_error, raiseIf_eq_error, denied_ne_raised, and_false, false_or,
      raiseIf_eq_ok, exists_const, not_ne_iff, Bool.not_eq_false, ScenariosRaise, hlisted,
      Option.some.injEq, exists_eq_left', namesEqual_eq_raised, heach]
    refine or_congr_right ?_
    constructor
    · rintro ⟨_, hnames, rfl, hlength, hfirst⟩
      exact ⟨namesEqual_eq_ok.mp hnames, hlength, hfirst⟩
    · rintro ⟨hnames, hlength, hfirst⟩
      exact ⟨true, namesEqual_eq_ok.mpr hnames, rfl, hlength, hfirst⟩

structure TailPassed (document : Value F) : Prop where
  connector : isBool (document.get "cloudflare_connector") = true
  serialized : (document.get "serialized_lane").isTrue = true
  recreate : (document.get "recreate_from_zero").isTrue = true

omit [Floats F] in
theorem checkTail_eq_ok {u : Unit} : checkTail document = .ok u ↔ TailPassed document := by
  simp only [checkTail, bind_eq_ok, raiseIf_eq_ok, exists_const, not_or, Bool.not_eq_false]
  constructor
  · rintro ⟨hconnector, hserialized, hrecreate⟩
    exact ⟨hconnector, hserialized, hrecreate⟩
  · rintro ⟨hconnector, hserialized, hrecreate⟩
    exact ⟨hconnector, hserialized, hrecreate⟩

omit [Floats F] in
theorem checkTail_not_raised : checkTail document ≠ .error .raised := by
  simp only [checkTail, ne_eq, bind_eq_error, raiseIf_eq_error, denied_ne_raised, and_false,
    exists_false, or_false, not_false_eq_true]

end DestructiveLedger
