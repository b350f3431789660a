import Mathlib
import WebsiteInfrastructure.GuardTransaction.Restoration
import WebsiteInfrastructure.GuardTransaction.Finality

/-!
# Rollback is exact

From wherever an installation or a retrofit was killed, and a recovery after it, recovery ends with
the prestate of the attempt.
-/

namespace GuardTransaction

open Crash

variable {j : Journal} {s : Host}

/-! ## Installation and retrofit -/

/-- What the host is like between any two undisturbed steps. -/
structure Tended (s : Host) : Prop where
  loads : LoadSound s
  machine : s.machine.IsSound
  journal : ∀ j, s.journal = some j → j.phase.isClosed = false → Ready j s

theorem Tended.loadKeeps {t : Host} (h : Tended s) (hkeeps : LoadKeeps s t) : Tended t := by
  refine ⟨hkeeps.sound, ?_, fun j hj hopen => ?_⟩
  · rw [hkeeps.machine]
    exact h.machine
  · exact (h.journal j (hkeeps.journal ▸ hj) hopen).loadKeeps hkeeps

/-- The current attempt is in this state. -/
theorem Ready.tended (h : Ready j s) (hj : s.journal = some j) : Tended s := by
  refine ⟨h.loads, h.machine.machine, fun j' hj' _ => ?_⟩
  obtain rfl := Option.some.inj (hj'.symm.trans hj)
  exact h

theorem Recovering.tended (h : Recovering j s) : Tended s := by
  obtain ⟨phase, receipt, h⟩ | h := h
  · exact h.ready.tended h.journal
  · refine ⟨h.loads, h.machine, fun j' hj' hopen => ?_⟩
    obtain rfl := Option.some.inj (hj'.symm.trans h.journal)
    simp [Phase.isClosed] at hopen

/-- A program that an undisturbed host keeps up with. -/
def Tends {ε α : Type} (p : Prog Host ε α) (s : Host) (post : α → Host → Prop) : Prop :=
  Holds noFault (fun _ => Tended) post (fun _ => Tended) p s

/-- The attempt of a journal is current, and can be undone. -/
structure Working (j : Journal) (s : Host) : Prop where
  ready : Ready j s
  journal : s.journal = some j

theorem Working.tended (h : Working j s) : Tended s := h.ready.tended h.journal

theorem Tends.seq {α β : Type} {p : Install α} {k : α → Install β} {post : α → Host → Prop}
    {post' : β → Host → Prop} (hp : Tends p s post) (hk : ∀ a t, post a t → Tends (k a) t post') :
    Tends (p >>= k) s post' := Holds.seq hp (fun _ _ h => h) hk

theorem tends_orExit {post : Unit → Host → Prop} (h : post () s) :
    Tends (.orExit () : Install Unit) s post := holds_orExit.mpr ⟨h, fun h => h.elim⟩

theorem tends_require {b : Bool} {post : Unit → Host → Prop} (hs : Tended s)
    (h : b = true → post () s) : Tends (.require b () : Install Unit) s post := by
  refine holds_require.mpr ?_
  split_ifs with hb
  · exact h hb
  · exact hs

theorem Working.withMachine (h : Working j s) {m : Machine} (hm : Undoable j.prestate m) :
    Working j { s with machine := m } := ⟨h.ready.withMachine hm, h.journal⟩

theorem Undoable.setDirectory {p : Prestate} {m : Machine} (h : Undoable p m) {d : Directory}
    (hparent : ∀ d', d.parent? = some d' → m.directory d' = true) :
    Undoable p { m with directory := Function.update m.directory d true } := by
  have hmono : ∀ x, m.directory x = true → Function.update m.directory d true x = true := by
    intro x hx
    rw [Function.update_apply]
    split_ifs
    exacts [rfl, hx]
  refine ⟨h.prestate, ⟨fun a x hx ha => hmono x (h.machine.file a x hx ha), ?_, h.machine.stopped⟩,
    h.known, h.file, fun x hx => hmono x (h.directory x hx), h.enabled, h.kubelet⟩
  intro x x' hx hpresent
  by_cases heq : x = d
  · subst heq
    exact hmono x' (hparent x' hx)
  · have hbefore : m.directory x = true := by simpa [heq] using hpresent
    exact hmono x' (h.machine.directory x x' hx hbefore)

theorem Undoable.setFile {p : Prestate} {m : Machine} (h : Undoable p m) {a : Artifact}
    (hdirectory : ∀ d, a.directory? = some d → m.directory d = true) :
    Undoable p { m with file := Function.update m.file a .exact } := by
  refine ⟨h.prestate, ⟨?_, h.machine.directory, ?_⟩, ?_, ?_, h.directory, h.enabled, h.kubelet⟩
  · intro x d hd hx
    by_cases heq : x = a
    · subst heq
      exact hdirectory d hd
    · have hbefore : m.file x ≠ .absent := by simpa [heq] using hx
      exact h.machine.file x d hd hbefore
  · intro hunit
    by_cases heq : Artifact.unit = a
    · simp [← heq] at hunit
    · exact h.machine.stopped (by simpa [heq] using hunit)
  · intro x
    show Function.update m.file a .exact x ≠ .other
    rw [Function.update_apply]
    split_ifs
    · simp
    · exact h.known x
  · intro x hx
    show Function.update m.file a .exact x = .exact
    rw [Function.update_apply]
    split_ifs
    · rfl
    · exact h.file x hx

theorem ensureDirectory_tends (h : Working j s) (d : Directory) :
    Tends (ensureDirectory d) s (fun _ t => Working j t) := by
  refine holds_bind.mpr (holds_get.mpr ?_)
  split_ifs
  · exact h
  · refine holds_bind.mpr (tends_require h.tended fun hparent => ?_)
    refine holds_bind.mpr (tends_orExit ?_)
    have hcreated : Working j (s.setDirectory d true) := by
      refine h.withMachine (h.ready.machine.setDirectory fun d' hd' => ?_)
      simpa [hd'] using hparent
    refine holds_bind.mpr (holds_modify.mpr ⟨hcreated.tended, ?_⟩)
    exact tends_orExit hcreated

theorem ensureDirectories_tends (h : Working j s) (ds : List Directory) :
    Tends (ensureDirectories ds) s (fun _ t => Working j t) := by
  induction ds generalizing s with
  | nil => exact h
  | cons d rest ih => exact (ensureDirectory_tends h d).seq fun _ t ht => ih ht

/-- The files that are there stay, and the new one is among them. -/
theorem installExact_tends (h : Working j s) (a : Artifact) :
    Tends (installExact a) s (fun _ t => Working j t ∧ t.machine.file a ≠ .absent ∧
      ∀ x, s.machine.file x ≠ .absent → t.machine.file x ≠ .absent) := by
  refine holds_bind.mpr (holds_get.mpr ?_)
  cases hfile : s.machine.file a with
  | exact =>
    refine ⟨h, ?_, fun _ hx => hx⟩
    simp [hfile]
  | other => exact h.tended
  | absent =>
    refine holds_bind.mpr (tends_require h.tended fun hdirectory => ?_)
    refine holds_bind.mpr (tends_orExit ?_)
    have hinstalled : Working j (s.setFile a .exact) := by
      refine h.withMachine (h.ready.machine.setFile fun d hd => ?_)
      simpa [hd] using hdirectory
    refine holds_bind.mpr (holds_modify.mpr ⟨hinstalled.tended, ?_⟩)
    refine tends_orExit ⟨hinstalled, by simp [Host.setFile], fun x hx => ?_⟩
    by_cases heq : x = a
    · simp [Host.setFile, heq]
    · simpa [Host.setFile, heq] using hx

theorem installFiles_tends (h : Working j s) (as : List Artifact) :
    Tends (installFiles as) s (fun _ t => Working j t ∧
      (∀ a ∈ as, t.machine.file a ≠ .absent) ∧
      ∀ x, s.machine.file x ≠ .absent → t.machine.file x ≠ .absent) := by
  induction as generalizing s with
  | nil => exact ⟨h, by simp, fun _ hx => hx⟩
  | cons a rest ih =>
    refine (installExact_tends h a).seq ?_
    rintro _ t ⟨ht, ha, hstay⟩
    refine (ih ht).weaken ?_ fun _ _ h => h
    rintro _ u ⟨hu, hrest, hstay'⟩
    refine ⟨hu, fun x hx => ?_, fun x hx => hstay' x (hstay x hx)⟩
    rcases List.mem_cons.mp hx with rfl | hx
    · exact hstay' x ha
    · exact hrest x hx

/-- The next phase of the attempt. -/
theorem journalWrite_tends (h : Working j s) (phase : Phase) (receipt : Option Document) :
    Tends (journalWrite { j with phase, receipt } ()) s
      (fun _ t => Working { j with phase, receipt } t ∧ t.machine = s.machine) := by
  have hnext : Working { j with phase, receipt } { s with journal := some { j with phase, receipt } } :=
    ⟨(h.ready.withJournal _).inPhase _ _, rfl⟩
  simp only [Tends, journalWrite, holds_bind, holds_orExit, holds_modify]
  exact ⟨⟨hnext.tended, ⟨hnext, trivial⟩, fun h => h.elim⟩, fun h => h.elim⟩

theorem Working.units (h : Working j s) {enabled guard kubelet queued : Bool}
    (henabled : j.prestate.enabled = true → enabled = true)
    (hkubelet : kubelet = true → j.prestate.kubelet = true)
    (hstopped : s.machine.file .unit = .absent → guard = false ∧ queued = false) :
    Working j { s with machine := { s.machine with enabled, guard, kubelet, queued } } :=
  h.withMachine (h.ready.machine.units henabled hkubelet hstopped)

theorem prepareGuard_tends (h : Working j s) : Tends (prepareGuard j) s (fun _ => Tended) := by
  have hqueue : ∀ v, Working { j with phase := .artifactsInstalled } v →
      v.machine.file .unit ≠ .absent → Tends (do
        let j := { j with phase := .guardStartIntent }
        journalWrite j ()
        .orExit ()
        .modify fun s => { s with machine := { s.machine with queued := true } }
        return j : Install Journal) v fun _ => Tended := by
    intro v hv hunit
    refine (journalWrite_tends hv .guardStartIntent j.receipt).seq ?_
    rintro _ w ⟨hw, hmachine⟩
    refine holds_bind.mpr (tends_orExit ?_)
    have hqueued : Working { j with phase := .guardStartIntent }
        { w with machine := { w.machine with queued := true } } := by
      refine hw.units hw.ready.machine.enabled hw.ready.machine.kubelet fun habsent => ?_
      rw [hmachine] at habsent
      exact absurd habsent hunit
    exact holds_bind.mpr (holds_modify.mpr ⟨hqueued.tended, hqueued.tended⟩)
  rw [prepareGuard]
  refine (ensureDirectories_tends h _).seq fun _ t ht => ?_
  refine (installFiles_tends ht _).seq ?_
  rintro _ t ⟨ht, hfiles, -⟩
  have hunit : t.machine.file .unit ≠ .absent := by
    apply hfiles
    cases j.mode <;> simp [preparedFiles, allArtifacts]
  refine (journalWrite_tends ht .artifactsInstalled j.receipt).seq ?_
  rintro _ u ⟨hu, hmachine⟩
  refine holds_bind.mpr (tends_orExit ?_)
  rw [← hmachine] at hunit
  dsimp only
  split
  · refine holds_bind.mpr (tends_orExit ?_)
    have henabled : Working { j with phase := .artifactsInstalled }
        { u with machine := { u.machine with enabled := true } } :=
      hu.units (fun _ => rfl) hu.ready.machine.kubelet hu.ready.machine.machine.stopped
    exact holds_bind.mpr (holds_modify.mpr ⟨henabled.tended, hqueue _ henabled hunit⟩)
  · exact hqueue u hu hunit

/-- A fresh prestate can be restored at once. -/
theorem undoable_prestate {m : Machine} {mode : Mode} (hm : m.IsSound) (hadmits : m.admits mode = true)
    (hknown : ∀ a, m.file a ≠ .other) : Undoable m.prestate m := by
  have hfile : ∀ a, m.prestate.file a = .exact → m.file a = .exact := by
    intro a ha
    have hexistence : (m.file a).existence = .exact := ha
    have hnot := hknown a
    cases hstate : m.file a <;> simp_all [FileState.existence]
  have hdirectory : ∀ d, m.prestate.directory d = .exact ↔ m.directory d = true := by
    intro d
    show (if m.directory d then Existence.exact else .absent) = .exact ↔ _
    cases m.directory d <;> simp
  refine ⟨⟨rfl, fun a d hd ha => ?_, fun d d' hd hpresent => ?_, fun hkubelet => ?_, fun henabled => ?_⟩,
    hm, hknown, hfile, fun d => (hdirectory d).mp, fun henabled => ?_, fun h => h⟩
  · exact (hdirectory d).mpr (hm.file a d hd (by simp [hfile a ha]))
  · exact (hdirectory d').mpr (hm.directory d d' hd ((hdirectory d).mp hpresent))
  · have hkubelet' : m.kubelet = true := hkubelet
    have hdropin : m.file .dropin = .absent := by
      cases mode <;> simp_all [Machine.admits]
    show (m.file .dropin).existence = .absent
    rw [hdropin]
    rfl
  · have henabled' : m.isEnabled = true := henabled
    have hunit : m.file .unit ≠ .absent := by
      simp only [Machine.isEnabled, Bool.and_eq_true, decide_eq_true_eq] at henabled'
      exact henabled'.2
    show (m.file .unit).existence = .exact
    cases hstate : m.file .unit <;> simp_all [FileState.existence]
  · have henabled' : m.isEnabled = true := henabled
    simp only [Machine.isEnabled, Bool.and_eq_true] at henabled'
    exact henabled'.1

theorem prepare_tends (h : Tended s) (hs : Recorded s) (mode : Mode) (bundle : Bundle)
    (scope : Option String) : Tends (prepare mode bundle scope) s (fun _ => Tended) := by
  have hbump : Tended { s with uuid := s.uuid + 1 } :=
    ⟨h.loads.congr rfl fun _ _ => rfl, h.machine, fun j hj hopen =>
      ⟨(h.journal j hj hopen).loads.congr rfl fun _ _ => rfl, (h.journal j hj hopen).contents,
        (h.journal j hj hopen).table, (h.journal j hj hopen).machine, (h.journal j hj hopen).retrofit⟩⟩
  have hfresh : s.machine.admits mode = true → s.table = .absent →
      (∀ a, s.machine.file a ≠ .other) → Tends (do
        journalWrite (freshJournal mode bundle scope s) ()
        prepareGuard (freshJournal mode bundle scope s) : Install Journal)
        { s with uuid := s.uuid + 1 } (fun _ => Tended) := by
    intro hadmits htable hknown
    have hwork : Working (freshJournal mode bundle scope s)
        { s with uuid := s.uuid + 1, journal := some (freshJournal mode bundle scope s) } := by
      refine ⟨⟨h.loads.congr rfl fun _ _ => rfl, fun result => ?_, ?_, ?_, ?_⟩, rfl⟩
      · have habsent := (bump_isFresh hs).1 (receiptPath (freshJournal mode bundle scope s) result) rfl
        rw [habsent]
        trivial
      · show s.table ≠ .other
        simp [htable]
      · exact undoable_prestate h.machine hadmits hknown
      · intro hmode
        have hretrofit : mode = .retrofit := hmode
        subst hretrofit
        simp only [Machine.admits, Bool.and_eq_true] at hadmits
        exact hadmits.1.1.1
    simp only [Tends, journalWrite, holds_bind, holds_orExit, holds_modify]
    exact ⟨⟨hwork.tended, prepareGuard_tends hwork, fun h => h.elim⟩, fun h => h.elim⟩
  have hrest : Tends (do
      .require (s.machine.admits mode) ()
      .orExit ()
      .require (← verifyAbsentCapture) ()
      let s ← .get
      .require (allArtifacts.all fun a => s.machine.file a ≠ .other) ()
      .require (s.machine.guardUnitPrestate (s.machine.prestate.file .unit)) ()
      .orExit ()
      .modify fun s => { s with uuid := s.uuid + 1 }
      let j := freshJournal mode bundle scope s
      journalWrite j ()
      prepareGuard j : Install Journal) s (fun _ => Tended) := by
    refine holds_bind.mpr (tends_require h fun hadmits => ?_)
    refine holds_bind.mpr (tends_orExit ?_)
    refine holds_bind.mpr (holds_verifyAbsentCapture.mpr ⟨?_, fun hf => hf.elim⟩)
    refine holds_bind.mpr (tends_require h fun habsent => ?_)
    refine holds_bind.mpr (holds_get.mpr ?_)
    refine holds_bind.mpr (tends_require h fun hfiles => ?_)
    refine holds_bind.mpr (tends_require h fun _ => ?_)
    refine holds_bind.mpr (tends_orExit ?_)
    refine holds_bind.mpr (holds_modify.mpr ⟨hbump, hfresh hadmits (by simpa using habsent) fun a => ?_⟩)
    have hknown : ∀ a ∈ allArtifacts, s.machine.file a ≠ .other := by simpa using hfiles
    exact hknown a (by cases a <;> simp [allArtifacts])
  rw [prepare]
  refine holds_bind.mpr (tends_orExit ?_)
  refine holds_bind.mpr (holds_get.mpr ?_)
  cases s.journal with
  | none => exact hrest
  | some j => exact holds_bind.mpr (tends_require h fun _ => hrest)

theorem verifyInstalled_tends (h : Working j s) : Tends verifyInstalled s (fun _ t => Working j t) := by
  rw [verifyInstalled]
  refine holds_bind.mpr (tends_orExit ?_)
  refine holds_bind.mpr (holds_get.mpr ?_)
  refine holds_bind.mpr (tends_require h.tended fun _ => ?_)
  refine holds_bind.mpr (tends_require h.tended fun _ => ?_)
  exact tends_require h.tended fun _ => h

theorem writeReceipt_tends (h : Working j s) {result : Result}
    {guardState persistence dependency rollback : String}
    (hdocument : receiptDocument j result guardState persistence dependency rollback = mainReceipt j result) :
    Tends (writeReceipt j result guardState persistence dependency rollback () : Install Document) s
      (fun _ t => Working j t) := by
  have hcarried := (@writeReceipt_noFault Unit () s j result _ _ _ _ hdocument
    (h.ready.contents result)).carry h fun u t hu hstep => by
      obtain ⟨-, slot, hslot, rfl⟩ := hstep
      exact ⟨hu.ready.setReceipt hslot, hu.journal⟩
  exact hcarried.mono (fun _ _ h => h.2.2.tended) (fun _ _ h => h.2) fun _ t h => (h.1.elim : Tended t)

/-- A receipt, and the phase that it decides. -/
theorem decide_tends (h : Working j s) {result : Result}
    {guardState persistence dependency rollback : String} {phase : Phase}
    (hdocument : receiptDocument j result guardState persistence dependency rollback = mainReceipt j result) :
    Tends (do
      let receipt ← writeReceipt j result guardState persistence dependency rollback ()
      journalWrite { j with phase, receipt := some receipt } ()) s (fun _ => Tended) := by
  refine (writeReceipt_tends h hdocument).seq fun d t ht => ?_
  exact (journalWrite_tends ht phase (some d)).weaken (fun _ _ h => h.1.tended) fun _ _ h => h

theorem commit_tends {phase : Phase} {receipt : Option Document}
    (h : Working { j with phase, receipt } s) : Tends (commit j) s (fun _ => Tended) := by
  refine (journalWrite_tends h .commitIntent j.receipt).seq ?_
  rintro _ t ⟨ht, -⟩
  exact decide_tends ht rfl

theorem complete_tends (h : Working j s) : Tends (complete j) s (fun _ => Tended) := by
  rw [complete]
  cases hmode : j.mode with
  | offline =>
    refine holds_bind.mpr (tends_orExit ?_)
    refine (journalWrite_tends h .guardActive j.receipt).seq ?_
    rintro _ t ⟨ht, -⟩
    exact (verifyInstalled_tends ht).seq fun _ t ht => commit_tends ht
  | retrofit =>
    refine holds_bind.mpr (tends_orExit ?_)
    refine holds_bind.mpr (holds_get.mpr ?_)
    refine holds_bind.mpr (tends_require h.tended fun _ => ?_)
    refine holds_bind.mpr (holds_verifyLiveCapture.mpr ⟨?_, fun hf => hf.elim⟩)
    refine holds_bind.mpr (tends_require h.tended fun _ => ?_)
    refine (journalWrite_tends h .guardActive j.receipt).seq ?_
    rintro _ t ⟨ht, -⟩
    refine (installExact_tends ht .dropin).seq ?_
    rintro _ t ⟨ht, -, -⟩
    refine holds_bind.mpr (tends_orExit ?_)
    refine (journalWrite_tends ht .dropinInstalled j.receipt).seq ?_
    rintro _ t ⟨ht, -⟩
    refine (journalWrite_tends ht .kubeletRestartIntent j.receipt).seq ?_
    rintro _ t ⟨ht, -⟩
    refine holds_bind.mpr (tends_orExit ?_)
    have hrestarted : Working { j with phase := .kubeletRestartIntent }
        { t with machine := { t.machine with kubelet := true } } :=
      ht.units ht.ready.machine.enabled (fun _ => h.ready.retrofit hmode)
        ht.ready.machine.machine.stopped
    refine holds_bind.mpr (holds_modify.mpr ⟨hrestarted.tended, ?_⟩)
    refine (verifyInstalled_tends hrestarted).seq fun _ t ht => ?_
    refine holds_bind.mpr (tends_orExit ?_)
    refine (journalWrite_tends ht .awaitingRebootIntent j.receipt).seq ?_
    rintro _ t ⟨ht, -⟩
    exact decide_tends ht rfl

theorem closeAfterReboot_tends (h : Tended s) (bundle : Bundle) :
    Tends (closeAfterReboot bundle) s (fun _ => Tended) := by
  rw [closeAfterReboot]
  refine holds_bind.mpr (tends_orExit ?_)
  refine holds_bind.mpr (holds_get.mpr ?_)
  cases hj : s.journal with
  | none => exact h
  | some j =>
    refine holds_bind.mpr (tends_require h fun hawaiting => ?_)
    simp only [Bool.and_eq_true, decide_eq_true_eq] at hawaiting
    have hwork : Working j s := ⟨h.journal j hj (by rw [hawaiting.1.2]; rfl), hj⟩
    refine holds_bind.mpr (tends_require h fun _ => ?_)
    refine holds_bind.mpr (tends_orExit ?_)
    refine holds_bind.mpr (tends_require h fun _ => ?_)
    refine holds_bind.mpr (tends_require h fun _ => ?_)
    refine (verifyInstalled_tends hwork).seq fun _ t ht => ?_
    exact holds_bind.mpr (tends_orExit (@commit_tends j _ j.phase j.receipt ht))

/-! ## Recovery of any attempt -/

/-- The receipt that decides an intent. -/
def Phase.decision? : Phase → Option Result
  | .commitIntent => some .pass
  | .awaitingRebootIntent => some .pendingReboot
  | _ => none

/-- No receipt has decided the attempt. -/
def IsUndecided (j : Journal) (s : Host) : Prop :=
  ∀ result, j.phase.decision? = some result → ¬ s.IsPublished (receiptPath j result)

/-- An open attempt can be undone up to its decision. -/
theorem Tended.undecided (h : Tended s) (hs : Recorded s) (hj : s.journal = some j)
    (hopen : j.phase.isClosed = false) (hundecided : IsUndecided j s) : Undecided j s := by
  refine ⟨⟨h.journal j hj hopen, hj, fun hp => ?_⟩, hopen, fun hphase => ?_⟩
  · cases hcommit : j.phase.isCommit with
    | false => exact hs.not_pass hj hcommit _ _ hp
    | true =>
      have hphase : j.phase = .commitIntent := by
        cases hphase : j.phase <;> simp_all [Phase.isCommit, Phase.isClosed]
      exact hundecided .pass (by rw [hphase]; rfl) hp
  · exact hundecided .pendingReboot (by rw [hphase]; rfl)

/-- A published decision is completed. -/
theorem completeIntent_tends (h : Working j s) {result : Result} {persistence dependency : String}
    {phase : Phase} (hpublished : s.IsPublished (receiptPath j result))
    (hdocument : receiptDocument j result "verified" persistence dependency "not-needed" =
      mainReceipt j result) :
    Tends (completeIntent j result persistence dependency phase) s
      (fun done t => done = true ∧ Tended t) := by
  have hexists : (s.receipts (receiptPath j result)).exists = true := hpublished
  rw [completeIntent]
  refine holds_bind.mpr (holds_get.mpr ?_)
  rw [if_pos hexists]
  refine holds_bind.mpr (tends_require h.tended fun _ => ?_)
  refine (writeReceipt_tends h hdocument).seq fun d t ht => ?_
  refine (journalWrite_tends ht phase (some d)).seq ?_
  rintro _ u ⟨hu, -⟩
  exact ⟨rfl, hu.tended⟩

theorem recover_tends (h : Tended s) (hs : Recorded s) (bundle : Bundle) (automatic : Bool) :
    Tends (recover bundle automatic) s (fun _ => Tended) := by
  by_cases hundecided : ∃ j, s.journal = some j ∧ j.bundle = bundle ∧ Undecided j s
  · obtain ⟨j, -, rfl, hj⟩ := hundecided
    exact (recover_noFault hj automatic).mono (fun _ _ ht => ht.tended)
      (fun _ _ ht => Recovering.tended (.inr ht.2)) fun _ _ hf => hf.elim
  rw [recover]
  refine holds_bind.mpr (tends_orExit ?_)
  refine holds_bind.mpr (holds_get.mpr ?_)
  cases hj : s.journal with
  | none => exact h
  | some j =>
    refine holds_bind.mpr (tends_require h fun hbundle => ?_)
    refine holds_bind.mpr (tends_orExit ?_)
    have hcarried := (reconcile_noFault h.loads).carry h fun _ _ h hkeeps => h.loadKeeps hkeeps.1
    refine Tends.seq (hcarried.mono (fun _ _ h => h.2.2) (fun _ _ h => h) fun _ t h =>
      (h.1.elim : Tended t)) ?_
    rintro _ t ⟨⟨-, -, hframe, -⟩, ht⟩
    have hpublished : ∀ result, j.phase.decision? = some result →
        Working j t ∧ t.IsPublished (receiptPath j result) := by
      intro result hresult
      have hopen : j.phase.isClosed = false := by
        cases hphase : j.phase <;> simp_all [Phase.decision?, Phase.isClosed]
      refine ⟨⟨ht.journal j (hframe.journal.trans hj) hopen, hframe.journal.trans hj⟩, ?_⟩
      by_contra hnot
      refine hundecided ⟨j, hj, by simpa using hbundle, h.undecided hs hj hopen fun result' h' => ?_⟩
      obtain rfl := Option.some.inj (h'.symm.trans hresult)
      rwa [Host.IsPublished, ← hframe.receipts _ (by simp [receiptPath])]
    have hnot : j.phase.isClosed = false → j.phase.decision? = none → False := by
      intro hopen hnone
      refine hundecided ⟨j, hj, by simpa using hbundle, h.undecided hs hj hopen fun result h' => ?_⟩
      simp [hnone] at h'
    have hclosed : Tends (do
        let s ← .get
        .require (closedReceipt s j) ()
        .orExit ()
        return 0 : Recovery ℕ) t (fun _ => Tended) := by
      refine holds_bind.mpr (holds_get.mpr ?_)
      exact holds_bind.mpr (tends_require ht fun _ => holds_bind.mpr (tends_orExit ht))
    cases hphase : j.phase with
    | prepared | artifactsInstalled | guardStartIntent | guardActive | dropinInstalled
    | kubeletRestartIntent | awaitingReboot | rollbackIntent | recoveryRequired =>
      rw [hphase] at hnot
      exact (hnot rfl rfl).elim
    | committed | rolledBack => exact hclosed
    | commitIntent =>
      obtain ⟨hwork, hp⟩ := hpublished .pass (by rw [hphase]; rfl)
      refine (completeIntent_tends hwork hp rfl).seq ?_
      rintro _ u ⟨rfl, hu⟩
      exact hu
    | awaitingRebootIntent =>
      obtain ⟨hwork, hp⟩ := hpublished .pendingReboot (by rw [hphase]; rfl)
      refine (completeIntent_tends hwork hp rfl).seq ?_
      rintro _ u ⟨rfl, hu⟩
      exact hu

theorem load_tends (h : Tended s) (hs : Recorded s) :
    Holds noFault (fun _ => Tended) (fun _ => Tended) (fun _ => Tended) load s := by
  have hload : Holds noFault LoadKeeps (fun _ t => LoadSound t) (fun _ t => LoadSound t) load s :=
    (load_keeps hs h.loads).restrict fun _ _ => trivial
  have hcarried := hload.carry h fun _ _ h hkeeps => h.loadKeeps hkeeps
  exact hcarried.mono (fun _ _ h => h.2.2) (fun _ _ h => h.2) fun _ _ h => h.2

/-! ## Undisturbed runs -/

/-- Nobody starts a kubelet that an open attempt has found stopped. -/
def Host.Minds (s : Host) (kubelet : Bool) : Prop :=
  ∀ j, s.journal = some j → j.phase.isClosed = false → kubelet = true → j.prestate.kubelet = true

/-- No command fails, and only the scripts and systemd change the host. -/
def calm (s : System) : Move → Prop
  | .fault => False
  | .serve guard kubelet queued => s.host.Minds kubelet ∧
    (s.host.machine.file .unit = .absent → guard = false ∧ queued = false)
  | .reboot kubelet => s.host.Minds kubelet
  | m => alone s m

theorem calm_alone {s : System} {m : Move} (h : calm s m) : alone s m := by
  cases m with
  | fault => exact h.elim
  | serve => trivial
  | reboot => trivial
  | enter | resume | run | leave | kill | abandon => exact h

theorem Run.mono {allowed allowed' : System → Move → Prop} {s t : System} (h : Run allowed s t)
    (hallowed : ∀ s m, allowed s m → allowed' s m) : Run allowed' s t := by
  induction h with
  | refl => exact .refl
  | tail _ hstep ih =>
    obtain ⟨m, hm, hstep⟩ := hstep
    exact ih.tail ⟨m, hallowed _ _ hm, hstep⟩

theorem Tended.serve {guard kubelet queued : Bool} (h : Tended s) (hminds : s.Minds kubelet)
    (hstopped : s.machine.file .unit = .absent → guard = false ∧ queued = false) :
    Tended (s.serve guard kubelet queued) := by
  refine ⟨h.loads.congr rfl fun _ _ => rfl, ⟨h.machine.file, h.machine.directory, hstopped⟩, ?_⟩
  intro j hj hopen
  have hready := h.journal j hj hopen
  exact hready.withMachine (hready.machine.units hready.machine.enabled (hminds j hj hopen) hstopped)

theorem Tended.reboot {kubelet : Bool} (h : Tended s) (hminds : s.Minds kubelet) :
    Tended (s.reboot kubelet) := by
  refine ⟨h.loads.congr rfl fun _ _ => rfl, ⟨h.machine.file, h.machine.directory, fun _ => ⟨rfl, rfl⟩⟩, ?_⟩
  intro j hj hopen
  have hready := h.journal j hj hopen
  have hmachine : Undoable j.prestate (s.reboot kubelet).machine :=
    hready.machine.units hready.machine.enabled (hminds j hj hopen) fun _ => ⟨rfl, rfl⟩
  exact ⟨hready.loads.congr rfl fun _ _ => rfl, hready.contents, by simp [Host.reboot], hmachine,
    hready.retrofit⟩

/-- The invariant of the undisturbed system. -/
structure Calm (s : System) : Prop where
  host : Tended s.host
  holder : ∀ h, s.holder = some h → Tends h.program s.host fun _ => Tended

theorem toTheEnd_tends {α : Type} {p : Prog Host Unit α} (h : Tends p s fun _ => Tended) :
    Tends (toTheEnd p) s fun _ => Tended := h.seq fun _ _ ht => ht

theorem entry_tends (h : Tended s) (hs : Recorded s) (e : Entry) :
    Tends e.program s fun _ => Tended := by
  cases e with
  | prepare mode bundle scope => exact (prepare_tends h hs mode bundle scope).seq fun _ _ ht => ht
  | closeAfterReboot bundle => exact toTheEnd_tends (closeAfterReboot_tends h bundle)
  | recover bundle automatic => exact toTheEnd_tends (recover_tends h hs bundle automatic)
  | load => exact toTheEnd_tends (load_tends h hs)

theorem calm_step {s t : System} {m : Move} (halone : Alone s) (hs : Calm s) (hm : calm s m)
    (hstep : SystemStep s m t) : Calm t := by
  cases hstep with
  | enter e =>
    refine ⟨hs.host, ?_⟩
    rintro _ ⟨⟩
    exact entry_tends hs.host halone.recorded e
  | @resume s w w' j =>
    refine ⟨hs.host, ?_⟩
    rintro _ ⟨⟩
    obtain hw | ⟨j', hw, ⟨hcurrent, hphase⟩, -⟩ := halone.waiting
    · simp at hw
    · obtain ⟨-, rfl, -⟩ : w = [] ∧ j = j' ∧ w' = [] := by
        simpa [List.append_eq_singleton_iff] using hw
      have hready := hs.host.journal j hcurrent.2 (by rw [hphase]; rfl)
      exact toTheEnd_tends (complete_tends ⟨hready, hcurrent.2⟩)
  | @run s t r p q w hrun =>
    have htends : Tends p s fun _ => Tended := hs.holder ⟨r, p⟩ rfl
    obtain ⟨hchange, hrest⟩ := htends.step hrun
    refine ⟨?_, ?_⟩
    · rcases hchange with rfl | hchange
      exacts [hs.host, hchange]
    · rintro _ ⟨⟩
      exact hrest
  | fault => exact hm.elim
  | leave => exact ⟨hs.host, fun h hh => by simp at hh⟩
  | kill => exact ⟨hs.host, fun h hh => by simp at hh⟩
  | abandon => exact ⟨hs.host, hs.holder⟩
  | serve guard kubelet queued => exact ⟨hs.host.serve hm.1 hm.2, fun h hh => by simp at hh⟩
  | reboot kubelet => exact ⟨hs.host.reboot hm, fun h hh => by simp at hh⟩

theorem calm_run {s₀ : Host} {s : System} (hblank : s₀.IsBlank) (hsound : s₀.machine.IsSound)
    (hrun : Run calm ⟨s₀, none, []⟩ s) : Recorded s.host ∧ Tended s.host := by
  have halone : ∀ t, Run calm ⟨s₀, none, []⟩ t → Alone t := fun t ht =>
    ((Reachable.start hblank).run (ht.mono fun _ _ => calm_alone)).alone
  have hcalm : Calm s := by
    induction hrun with
    | refl =>
      refine ⟨⟨⟨fun l hl => ?_, fun l hl => ?_⟩, hsound, fun j hj => ?_⟩, fun h hh => ?_⟩
      · simp [hblank.loadJournal] at hl
      · simp [hblank.loadJournal] at hl
      · simp [hblank.journal] at hj
      · simp at hh
    | tail hrun hstep ih =>
      obtain ⟨m, hm, hstep⟩ := hstep
      exact calm_step (halone _ hrun) ih hm hstep
  exact ⟨(halone s hrun).recorded, hcalm.host⟩

/-- Rollback is exact and idempotent: from every host that an undisturbed run leaves behind with an
open attempt that no receipt has decided, and after any number of recoveries that were killed,
recovery closes the attempt as rolled back with its prestate restored, and changes nothing after
that. -/
theorem rollback_is_exact {s₀ t : Host} {s : System} {j : Journal} (hblank : s₀.IsBlank)
    (hsound : s₀.machine.IsSound) (hrun : Run calm ⟨s₀, none, []⟩ s) (hj : s.host.journal = some j)
    (hopen : j.phase.isClosed = false) (hundecided : IsUndecided j s.host)
    (hrerun : Rerun j.bundle s.host t) (automatic : Bool) :
    ∃ u receipt, (recover j.bundle automatic).run t = (.inr 0, u) ∧
      u.journal = some { j with phase := .rolledBack, receipt := some receipt } ∧
      Restored j.prestate u ∧ ∀ automatic', (recover j.bundle automatic').run u = (.inr 0, u) := by
  obtain ⟨hrecorded, htended⟩ := calm_run hblank hsound hrun
  have hstart : Recovering j s.host := .inl (htended.undecided hrecorded hj hopen hundecided).stillOpen
  obtain ⟨u, hu, hfinished⟩ := (hstart.rerun hrerun).run automatic
  exact ⟨u, mainReceipt j .rollbackVerified, hu, hfinished.journal, hfinished.restored, hfinished.run⟩

theorem bareHost_isSound : bareHost.machine.IsSound :=
  ⟨fun _ _ _ h => (h rfl).elim, fun _ _ _ h => h, fun _ => ⟨rfl, rfl⟩⟩

/-- An installer killed while it waits for the guard, and a recovery killed after it. -/
theorem rollback_is_exact_killed : ∃ u receipt,
    (recover someBundle true).run ((recover someBundle false).advance 20 handedHost).2 = (.inr 0, u) ∧
      u.journal = some { handedOver with phase := .rolledBack, receipt := some receipt } ∧
      Restored bareHost.machine.prestate u ∧
      ∀ automatic, (recover someBundle automatic).run u = (.inr 0, u) := by
  have hentered : Run calm ⟨bareHost, none, []⟩
      ⟨bareHost, some ((Entry.prepare .offline someBundle none).holder bareHost), []⟩ :=
    .single ⟨.enter (.prepare .offline someBundle none), rfl, .enter _⟩
  have hruns : Reaches noFault ((Entry.prepare .offline someBundle none).program, bareHost)
      (.ret (some handedOver), handedHost) := by
    exact @reaches_run _ _ _ noFault (Entry.prepare .offline someBundle none).program bareHost
  have hrun : Run calm ⟨bareHost, none, []⟩ ⟨handedHost, some ⟨none, .ret (some handedOver)⟩, []⟩ :=
    hentered.trans (Run.runs (fun _ => trivial) hruns)
  have hkilled : Rerun someBundle handedHost ((recover someBundle false).advance 20 handedHost).2 :=
    .single ⟨false, _, reaches_advance 20 _ _⟩
  exact rollback_is_exact bareHost_isBlank bareHost_isSound hrun rfl rfl (fun _ h => by cases h)
    hkilled true

end GuardTransaction
