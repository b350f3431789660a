import Mathlib
import WebsiteInfrastructure.KubernetesInstall.Script

/-!
# What the mutation phase has recorded

Between any two commands the records are true: a recorded directory and a recorded destination are
there and were made by the run, and what others made is as it was. They may be incomplete by one
entry.
-/

namespace KubernetesInstall

variable {start w w' : World} {p q : Path} {e : Entry} {kind : Kind}

/-! ## Entries -/

@[simp] theorem make_entries : (w.make p kind).entries = w.entries.insert p ⟨kind, true⟩ := rfl

@[simp] theorem appear_entries : (w.appear p kind).entries = w.entries.insert p ⟨kind, false⟩ := rfl

@[simp] theorem remove_entries : (w.remove p).entries = w.entries.erase p := rfl

theorem lookup_insert_of_absent (h : p ∉ w.entries) (hq : w.entries.lookup q = some e) (f : Entry) :
    (w.entries.insert p f).lookup q = some e := by
  have hne : q ≠ p := by
    rintro rfl
    exact h (Finmap.mem_of_lookup_eq_some hq)
  rwa [Finmap.lookup_insert_of_ne _ hne]

/-- The records, the services and what others made, at every point. -/
structure Sound (start w : World) : Prop where
  tree : ∀ p, p ∈ w.entries → IsDirectory w.entries (parent p)
  created : ∀ p ∈ w.createdDirectories, w.entries.lookup p = some ⟨.directory, true⟩
  ordered : w.createdDirectories.Pairwise fun p q => q ≠ p ∧ q ≠ parent p
  installed : ∀ p ∈ w.installedDestinations, ∃ hash, w.entries.lookup p = some ⟨.file hash, true⟩
  hashed : ∀ x ∈ w.installedDestinations.zip w.installedHashes,
    w.entries.lookup x.1 = some ⟨.file x.2, true⟩
  pendingKind : ∀ p e, w.pendingDestination = some p → w.entries.lookup p = some e →
    e.mine = true → ∃ hash, e.kind = .file hash
  pendingFresh : ∀ p, w.pendingDestination = some p → p ∉ w.installedDestinations
  service : w.serviceMutationStarted = false → ∀ name, w.service name = .off
  before : ∀ p e, start.entries.lookup p = some e → w.entries.lookup p = some e ∧ e.mine = false
  appeared : ∀ x ∈ w.appeared, w.entries.lookup x.1 = some x.2 ∧ x.2.mine = false
  others : ∀ p e, w.entries.lookup p = some e → e.mine = false →
    start.entries.lookup p = some e ∨ (p, e) ∈ w.appeared

def Balanced (w : World) : Prop := w.installedDestinations.length = w.installedHashes.length

def Idle (w : World) : Prop := Balanced w ∧ w.pendingDestination = none

/-- The staging file is there. -/
def Staged (w : World) : Prop :=
  ∃ p hash, w.pendingDestination = some p ∧ w.entries.lookup p = some ⟨.file hash, true⟩

/-- The target is linked and not yet recorded. -/
def Linked (w : World) (t : Target) : Prop :=
  w.entries.lookup t.destination = some ⟨.file t.hash, true⟩ ∧
    w.pendingDestination ≠ some t.destination

/-- What the next command relies on. -/
def Expected : List Command → World → Prop
  | .ensureDirectory p true :: _, w => w.entries.lookup p = some ⟨.directory, true⟩ ∧
      (∀ q ∈ w.createdDirectories, p ≠ q ∧ p ≠ parent q) ∧ Idle w
  | .exclusiveInstall _ .copying :: _, w => Balanced w ∧ Staged w
  | .exclusiveInstall _ .comparing :: _, w => Balanced w ∧ Staged w
  | .exclusiveInstall _ .linking :: _, w => Balanced w ∧ Staged w
  | .exclusiveInstall t .recordingDestination :: _, w => Balanced w ∧ Staged w ∧ Linked w t
  | .exclusiveInstall t .recordingHash :: _, w => Staged w ∧ Linked w t ∧
      ∃ installed, w.installedDestinations = installed ++ [t.destination] ∧
        installed.length = w.installedHashes.length
  | .exclusiveInstall _ .removing :: _, w => Balanced w ∧ Staged w
  | .exclusiveInstall _ .clearing :: _, w => Balanced w
  | _, w => Idle w

/-- A command that no other one has begun. -/
def Command.Initial : Command → Prop
  | .ensureDirectory _ made => made = false
  | .exclusiveInstall _ stage => stage = .staging
  | _ => True

theorem expected_of_idle {commands : List Command} (hcommands : ∀ c ∈ commands, c.Initial)
    (h : Idle w) : Expected commands w := by
  cases commands with
  | nil => exact h
  | cons c rest =>
    have hc := hcommands c (by simp)
    cases c with
    | ensureDirectory p made =>
      cases (show made = false from hc)
      exact h
    | exclusiveInstall t stage =>
      cases (show stage = .staging from hc)
      exact h
    | startServices => exact h
    | changeServices => exact h
    | check => exact h

theorem script_initial (targets : List Target) : ∀ c ∈ script targets, c.Initial := by
  intro c hc
  simp only [script, List.mem_append, List.mem_map, List.mem_cons, List.not_mem_nil, or_false,
    List.mem_replicate] at hc
  obtain ((⟨p, -, rfl⟩ | ⟨t, -, rfl⟩) | rfl | rfl | rfl | rfl) | ⟨-, rfl⟩ := hc
  all_goals first | rfl | trivial

/-- No service changes before `service_mutation_started` is set. -/
def Guarded : List Command → Prop
  | [] => True
  | .startServices :: _ => True
  | .changeServices :: _ => False
  | _ :: rest => Guarded rest

theorem guarded_append {commands rest : List Command}
    (h : ∀ c ∈ commands, c ≠ .startServices ∧ c ≠ .changeServices) :
    Guarded (commands ++ rest) ↔ Guarded rest := by
  induction commands with
  | nil => exact Iff.rfl
  | cons c commands ih =>
    have hc := h c (by simp)
    have hcommands := ih fun d hd => h d (by simp [hd])
    cases c with
    | ensureDirectory p made => exact hcommands
    | exclusiveInstall t stage => exact hcommands
    | startServices => exact absurd rfl hc.1
    | changeServices => exact absurd rfl hc.2
    | check => exact hcommands

theorem script_guarded (targets : List Target) : Guarded (script targets) := by
  rw [script, List.append_assoc, List.append_assoc, guarded_append, guarded_append]
  · trivial
  · intro c hc
    obtain ⟨t, -, rfl⟩ := List.mem_map.mp hc
    simp
  · intro c hc
    obtain ⟨p, -, rfl⟩ := List.mem_map.mp hc
    simp

/-! ## Single changes -/

theorem Sound.insert_absent (h : Sound start w) (habsent : p ∉ w.entries)
    (hparent : IsDirectory w.entries (parent p)) (hpending : w.pendingDestination ≠ some p ∨ e.mine = false)
    (f : List (Path × Entry)) (hf : ∀ x ∈ f, (w.entries.insert p e).lookup x.1 = some x.2 ∧
      x.2.mine = false) (hnew : w.appeared ⊆ f) (hother : e.mine = false → (p, e) ∈ f) :
    Sound start { w with entries := w.entries.insert p e, appeared := f } where
  tree q hq := by
    rw [Finmap.mem_insert] at hq
    obtain rfl | hq := hq
    · exact hparent.imp fun _ hlookup => lookup_insert_of_absent habsent hlookup e
    · exact (h.tree q hq).imp fun _ hlookup => lookup_insert_of_absent habsent hlookup e
  created q hq := lookup_insert_of_absent habsent (h.created q hq) e
  ordered := h.ordered
  installed q hq := (h.installed q hq).imp fun _ hash => lookup_insert_of_absent habsent hash e
  hashed x hx := lookup_insert_of_absent habsent (h.hashed x hx) e
  pendingKind q g hq hlookup hmine := by
    by_cases hqp : q = p
    · subst hqp
      rw [Finmap.lookup_insert] at hlookup
      cases hlookup
      obtain hne | hother := hpending
      · exact absurd hq hne
      · rw [hmine] at hother
        cases hother
    · rw [Finmap.lookup_insert_of_ne _ hqp] at hlookup
      exact h.pendingKind q g hq hlookup hmine
  pendingFresh := h.pendingFresh
  service := h.service
  before q g hg := (h.before q g hg).imp_left fun hlookup => lookup_insert_of_absent habsent hlookup e
  appeared := hf
  others q g hq hmine := by
    by_cases hqp : q = p
    · subst hqp
      rw [Finmap.lookup_insert] at hq
      cases hq
      exact .inr (hother hmine)
    · rw [Finmap.lookup_insert_of_ne _ hqp] at hq
      exact (h.others q g hq hmine).imp_right fun hx => hnew hx

theorem Sound.appear (h : Sound start w) (habsent : p ∉ w.entries) (hparent : IsDirectory w.entries (parent p))
    (kind : Kind) : Sound start (w.appear p kind) := by
  apply h.insert_absent habsent hparent (.inr rfl)
  · intro x hx
    rw [List.mem_append, List.mem_singleton] at hx
    obtain hx | rfl := hx
    · exact (h.appeared x hx).imp_left fun hlookup => lookup_insert_of_absent habsent hlookup _
    · exact ⟨Finmap.lookup_insert _, rfl⟩
  · exact List.subset_append_left _ _
  · simp

theorem Sound.make (h : Sound start w) (habsent : p ∉ w.entries) (hparent : IsDirectory w.entries (parent p))
    (hpending : w.pendingDestination ≠ some p) (kind : Kind) : Sound start (w.make p kind) := by
  apply h.insert_absent habsent hparent (.inl hpending)
  · intro x hx
    exact (h.appeared x hx).imp_left fun hlookup => lookup_insert_of_absent habsent hlookup _
  · exact List.Subset.refl _
  · simp

/-- Only the staging file changes, or goes. -/
theorem Sound.changePending (h : Sound start w) {hash : String} {entries : Entries}
    (hpending : w.pendingDestination = some p) (hfile : w.entries.lookup p = some ⟨.file hash, true⟩)
    (hothers : ∀ q, q ≠ p → entries.lookup q = w.entries.lookup q)
    (hchanged : ∀ e, entries.lookup p = some e → ∃ hash, e = ⟨.file hash, true⟩) :
    Sound start { w with entries } := by
  have hdirectory (q : Path) (mine : Bool) (hq : w.entries.lookup q = some ⟨.directory, mine⟩) :
      q ≠ p := by
    rintro rfl
    rw [hfile] at hq
    cases hq
  have hother (q : Path) (e : Entry) (hq : w.entries.lookup q = some e) (he : e.mine = false) :
      q ≠ p := by
    rintro rfl
    rw [hfile] at hq
    cases hq
    cases he
  have hinstalled (q : Path) (hq : q ∈ w.installedDestinations) : q ≠ p := by
    rintro rfl
    exact h.pendingFresh q hpending hq
  refine ⟨fun q hq => ?_, fun q hq => ?_, h.ordered, fun q hq => ?_, fun x hx => ?_, ?_,
    h.pendingFresh, h.service, fun q e hq => ?_, fun x hx => ?_, fun q e hq hmine => ?_⟩
  · have hmem : q ∈ w.entries := by
      by_cases hqp : q = p
      · rw [hqp]
        exact Finmap.mem_of_lookup_eq_some hfile
      · rw [← Finmap.lookup_isSome, ← hothers q hqp, Finmap.lookup_isSome]
        exact hq
    obtain ⟨mine, hparent⟩ := h.tree q hmem
    refine ⟨mine, ?_⟩
    show entries.lookup (parent q) = _
    rw [hothers _ (hdirectory _ _ hparent)]
    exact hparent
  · have hq := h.created q hq
    show entries.lookup q = _
    rw [hothers q (hdirectory q _ hq)]
    exact hq
  · show ∃ hash, entries.lookup q = _
    rw [hothers q (hinstalled q hq)]
    exact h.installed q hq
  · show entries.lookup x.1 = _
    rw [hothers x.1 (hinstalled x.1 (List.of_mem_zip hx).1)]
    exact h.hashed x hx
  · intro q e hq hlookup hmine
    cases hpending.symm.trans hq
    obtain ⟨hash, rfl⟩ := hchanged e hlookup
    exact ⟨hash, rfl⟩
  · obtain ⟨hlookup, hmine⟩ := h.before q e hq
    refine ⟨?_, hmine⟩
    show entries.lookup q = _
    rw [hothers q (hother q e hlookup hmine)]
    exact hlookup
  · obtain ⟨hlookup, hmine⟩ := h.appeared x hx
    refine ⟨?_, hmine⟩
    show entries.lookup x.1 = _
    rw [hothers x.1 (hother x.1 x.2 hlookup hmine)]
    exact hlookup
  · by_cases hqp : q = p
    · subst hqp
      obtain ⟨hash, rfl⟩ := hchanged e hq
      cases hmine
    · apply h.others q e _ hmine
      rw [← hothers q hqp]
      exact hq

theorem Sound.copy (h : Sound start w) {hash : String} (hpending : w.pendingDestination = some p)
    (hfile : w.entries.lookup p = some ⟨.file hash, true⟩) (copied : String) :
    Sound start (w.make p (.file copied)) := by
  apply h.changePending hpending hfile
  · intro q hq
    exact Finmap.lookup_insert_of_ne _ hq
  · intro e he
    rw [Finmap.lookup_insert] at he
    cases he
    exact ⟨copied, rfl⟩

theorem Sound.unlink (h : Sound start w) {hash : String} (hpending : w.pendingDestination = some p)
    (hfile : w.entries.lookup p = some ⟨.file hash, true⟩) : Sound start (w.remove p) := by
  apply h.changePending hpending hfile
  · intro q hq
    exact Finmap.lookup_erase_ne hq
  · intro e he
    rw [Finmap.lookup_erase] at he
    cases he

theorem Sound.recordDirectory (h : Sound start w) (hlookup : w.entries.lookup p = some ⟨.directory, true⟩)
    (hnew : ∀ q ∈ w.createdDirectories, p ≠ q ∧ p ≠ parent q) :
    Sound start { w with createdDirectories := w.createdDirectories ++ [p] } where
  tree := h.tree
  created q hq := by
    rw [List.mem_append, List.mem_singleton] at hq
    obtain hq | rfl := hq
    · exact h.created q hq
    · exact hlookup
  ordered := by
    rw [List.pairwise_append]
    refine ⟨h.ordered, List.pairwise_singleton _ _, fun q hq r hr => ?_⟩
    rw [List.mem_singleton] at hr
    rw [hr]
    exact hnew q hq
  installed := h.installed
  hashed := h.hashed
  pendingKind := h.pendingKind
  pendingFresh := h.pendingFresh
  service := h.service
  before := h.before
  appeared := h.appeared
  others := h.others

theorem Sound.stage (h : Sound start w) (habsent : p ∉ w.entries)
    (hparent : IsDirectory w.entries (parent p)) (hpending : w.pendingDestination = none) :
    Sound start { w.make p (.file "") with pendingDestination := some p } := by
  have hmade := h.make habsent hparent (by simp [hpending]) (.file "")
  refine ⟨hmade.tree, hmade.created, hmade.ordered, hmade.installed, hmade.hashed, ?_, ?_,
    hmade.service, hmade.before, hmade.appeared, hmade.others⟩
  · intro q e hq hlookup _
    cases hq
    rw [make_entries, Finmap.lookup_insert] at hlookup
    cases hlookup
    exact ⟨"", rfl⟩
  · intro q hq
    cases hq
    intro hinstalled
    obtain ⟨hash, hlookup⟩ := h.installed p hinstalled
    exact habsent (Finmap.mem_of_lookup_eq_some hlookup)

theorem zip_append_singleton {destinations : List Path} {hashes : List String}
    (h : destinations.length = hashes.length) (p : Path) :
    (destinations ++ [p]).zip hashes = destinations.zip hashes := by
  induction destinations generalizing hashes with
  | nil => cases hashes <;> simp_all
  | cons q destinations ih =>
    cases hashes with
    | nil => cases h
    | cons hash hashes => simp [ih (Nat.succ.inj h)]

theorem Sound.recordDestination (h : Sound start w) {t : Target} (hbalanced : Balanced w)
    (hlinked : Linked w t) :
    Sound start { w with installedDestinations := w.installedDestinations ++ [t.destination] } where
  tree := h.tree
  created := h.created
  ordered := h.ordered
  installed q hq := by
    rw [List.mem_append, List.mem_singleton] at hq
    obtain hq | rfl := hq
    · exact h.installed q hq
    · exact ⟨_, hlinked.1⟩
  hashed x hx := by
    rw [zip_append_singleton hbalanced] at hx
    exact h.hashed x hx
  pendingKind := h.pendingKind
  pendingFresh q hq := by
    rw [List.mem_append, List.mem_singleton, not_or]
    refine ⟨h.pendingFresh q hq, ?_⟩
    rintro rfl
    exact hlinked.2 hq
  service := h.service
  before := h.before
  appeared := h.appeared
  others := h.others

theorem Sound.recordHash (h : Sound start w) {t : Target} (hlinked : Linked w t)
    {installed : List Path} (hinstalled : w.installedDestinations = installed ++ [t.destination])
    (hlength : installed.length = w.installedHashes.length) :
    Sound start { w with installedHashes := w.installedHashes ++ [t.hash] } where
  tree := h.tree
  created := h.created
  ordered := h.ordered
  installed := h.installed
  hashed x hx := by
    rw [hinstalled, List.zip_append hlength, List.mem_append] at hx
    obtain hx | hx := hx
    · apply h.hashed x
      rw [hinstalled, zip_append_singleton hlength]
      exact hx
    · simp only [List.zip_cons_cons, List.zip_nil_left, List.mem_singleton] at hx
      rw [hx]
      exact hlinked.1
  pendingKind := h.pendingKind
  pendingFresh := h.pendingFresh
  service := h.service
  before := h.before
  appeared := h.appeared
  others := h.others

theorem Sound.withServices (h : Sound start w) {service : Service → ServiceState} {started : Bool}
    (hservice : started = false → ∀ name, service name = .off) :
    Sound start { w with service, serviceMutationStarted := started } :=
  ⟨h.tree, h.created, h.ordered, h.installed, h.hashed, h.pendingKind, h.pendingFresh, hservice,
    h.before, h.appeared, h.others⟩

/-! ## Steps -/

/-- What holds before each command of a run. -/
structure Progress (start : World) (commands : List Command) (w : World) : Prop where
  sound : Sound start w
  expected : Expected commands w
  rest : ∀ c ∈ commands.tail, c.Initial
  guarded : w.serviceMutationStarted = true ∨ Guarded commands

theorem Staged.appear (h : Staged w) (habsent : p ∉ w.entries) (kind : Kind) :
    Staged (w.appear p kind) := by
  obtain ⟨q, hash, hpending, hlookup⟩ := h
  exact ⟨q, hash, hpending, lookup_insert_of_absent habsent hlookup _⟩

theorem Linked.appear {t : Target} (h : Linked w t) (habsent : p ∉ w.entries) (kind : Kind) :
    Linked (w.appear p kind) t :=
  ⟨lookup_insert_of_absent habsent h.1 _, h.2⟩

theorem Expected.appear {commands : List Command} (h : Expected commands w) (habsent : p ∉ w.entries)
    (kind : Kind) : Expected commands (w.appear p kind) := by
  unfold Expected at h ⊢
  split at h
  · exact ⟨lookup_insert_of_absent habsent h.1 _, h.2⟩
  · exact ⟨h.1, h.2.appear habsent kind⟩
  · exact ⟨h.1, h.2.appear habsent kind⟩
  · exact ⟨h.1, h.2.appear habsent kind⟩
  · exact ⟨h.1, h.2.1.appear habsent kind, h.2.2.appear habsent kind⟩
  · exact ⟨h.1.appear habsent kind, h.2.1.appear habsent kind, h.2.2⟩
  · exact ⟨h.1, h.2.appear habsent kind⟩
  · exact h
  · exact h

theorem Progress.command {c : Command} {next rest : List Command} (h : Progress start (c :: rest) w)
    (hruns : c.Runs w next w') : Progress start (next ++ rest) w' := by
  have hsound := h.sound
  have hexpected := h.expected
  have hguarded := h.guarded
  have hrest : ∀ c ∈ rest, c.Initial := h.rest
  have htail : ∀ c ∈ rest.tail, c.Initial := fun c hc => hrest c (List.mem_of_mem_tail hc)
  cases hruns with
  | present hentry hdirectory =>
    exact ⟨hsound, expected_of_idle hrest hexpected, htail, hguarded⟩
  | @makeDirectory p habsent hparent =>
    refine ⟨hsound.make habsent hparent ?_ _, ⟨Finmap.lookup_insert _, fun q hq => ?_, hexpected⟩,
      hrest, hguarded⟩
    · rw [hexpected.2]
      simp
    · -- What is there already has its parent, and the new directory is neither.
      have hq := Finmap.mem_of_lookup_eq_some (hsound.created q hq)
      obtain ⟨mine, hlookup⟩ := hsound.tree q hq
      constructor
      · rintro rfl
        exact habsent hq
      · rintro rfl
        exact habsent (Finmap.mem_of_lookup_eq_some hlookup)
  | recordDirectory =>
    exact ⟨hsound.recordDirectory hexpected.1 hexpected.2.1,
      expected_of_idle hrest hexpected.2.2, htail, hguarded⟩
  | stage habsent hparent hbeside =>
    exact ⟨hsound.stage habsent hparent hexpected.2,
      ⟨hexpected.1, _, _, rfl, Finmap.lookup_insert _⟩, hrest, hguarded⟩
  | copy hpending hash =>
    obtain ⟨hbalanced, q, old, hq, hlookup⟩ := hexpected
    cases hpending.symm.trans hq
    exact ⟨hsound.copy hq hlookup hash, ⟨hbalanced, _, _, hq, Finmap.lookup_insert _⟩, hrest, hguarded⟩
  | compare hpending hentry hhash => exact ⟨hsound, hexpected, hrest, hguarded⟩
  | @link t habsent hparent =>
    obtain ⟨hbalanced, q, hash, hq, hlookup⟩ := hexpected
    have hne : w.pendingDestination ≠ some t.destination := by
      rw [hq]
      intro hsame
      cases hsame
      exact habsent (Finmap.mem_of_lookup_eq_some hlookup)
    exact ⟨hsound.make habsent hparent hne _,
      ⟨hbalanced, ⟨q, hash, hq, lookup_insert_of_absent habsent hlookup _⟩,
        Finmap.lookup_insert _, hne⟩, hrest, hguarded⟩
  | recordDestination =>
    obtain ⟨hbalanced, hstaged, hlinked⟩ := hexpected
    exact ⟨hsound.recordDestination hbalanced hlinked,
      ⟨hstaged, hlinked, w.installedDestinations, rfl, hbalanced⟩, hrest, hguarded⟩
  | recordHash =>
    obtain ⟨hstaged, hlinked, installed, hinstalled, hlength⟩ := hexpected
    refine ⟨hsound.recordHash hlinked hinstalled hlength, ⟨?_, hstaged⟩, hrest, hguarded⟩
    simp [Balanced, hinstalled, hlength]
  | unlink hpending =>
    obtain ⟨hbalanced, q, hash, hq, hlookup⟩ := hexpected
    cases hpending.symm.trans hq
    exact ⟨hsound.unlink hq hlookup, hbalanced, hrest, hguarded⟩
  | clear =>
    refine ⟨⟨hsound.tree, hsound.created, hsound.ordered, hsound.installed, hsound.hashed, ?_, ?_,
      hsound.service, hsound.before, hsound.appeared, hsound.others⟩,
      expected_of_idle hrest ⟨hexpected, rfl⟩, htail, hguarded⟩
    · intro q e hq
      cases hq
    · intro q hq
      cases hq
  | startServices =>
    refine ⟨hsound.withServices (fun h => ?_), expected_of_idle hrest hexpected, htail, .inl rfl⟩
    cases h
  | changeServices service =>
    obtain hstarted | hfalse := hguarded
    · refine ⟨hsound.withServices (fun h => ?_), expected_of_idle hrest hexpected, htail, .inl hstarted⟩
      rw [hstarted] at h
      cases h
    · exact hfalse.elim
  | check => exact ⟨hsound, expected_of_idle hrest hexpected, htail, hguarded⟩

theorem Progress.step {commands next : List Command} (h : Progress start commands w)
    (hstep : Step (commands, w) (next, w')) : Progress start next w' := by
  cases hstep with
  | command hruns => exact h.command hruns
  | appear habsent hparent kind =>
    exact ⟨h.sound.appear habsent hparent kind, h.expected.appear habsent kind, h.rest, h.guarded⟩

theorem Start.progress {targets : List Target} (h : Start targets start) :
    Progress start (script targets) start where
  sound := {
    tree := h.tree
    created := by simp [h.createdDirectories]
    ordered := by simp [h.createdDirectories]
    installed := by simp [h.installedDestinations]
    hashed := by simp [h.installedDestinations]
    pendingKind := by simp [h.pendingDestination]
    pendingFresh := by simp [h.pendingDestination]
    service := fun _ => h.collisionFree.2
    before := fun p e he => ⟨he, h.others p e he⟩
    appeared := by simp [h.appeared]
    others := fun _ _ hlookup _ => .inl hlookup }
  expected := expected_of_idle (script_initial targets)
    ⟨by simp [Balanced, h.installedDestinations, h.installedHashes], h.pendingDestination⟩
  rest c hc := script_initial targets c (List.mem_of_mem_tail hc)
  guarded := .inr (script_guarded targets)

theorem progress_of_steps {targets : List Target} (hstart : Start targets start)
    {c : List Command × World} (h : Relation.ReflTransGen Step (script targets, start) c) :
    Progress start c.1 c.2 := by
  induction h with
  | refl => exact hstart.progress
  | tail _ hstep ih => exact ih.step hstep

/-- What a failing command leaves is as sound as what it found. -/
theorem Progress.failure {c : Command} {rest : List Command} (h : Progress start (c :: rest) w)
    (hfails : c.Fails w w') : Sound start w' := by
  have hsound := h.sound
  have hexpected := h.expected
  cases hfails with
  | unchanged => exact hsound
  | makeDirectory habsent hparent =>
    apply hsound.make habsent hparent
    rw [hexpected.2]
    simp
  | stage habsent hparent hbeside =>
    apply hsound.make habsent hparent
    rw [hexpected.2]
    simp
  | copy hpending hash =>
    obtain ⟨-, q, old, hq, hlookup⟩ := hexpected
    cases hpending.symm.trans hq
    exact hsound.copy hq hlookup hash
  | copyRemoved hpending =>
    obtain ⟨-, q, old, hq, hlookup⟩ := hexpected
    cases hpending.symm.trans hq
    exact hsound.unlink hq hlookup
  | changeServices service =>
    obtain hstarted | hfalse := h.guarded
    · refine hsound.withServices fun h => ?_
      rw [hstarted] at h
      cases h
    · exact hfalse.elim

theorem Stopped.sound {targets : List Target} (hstart : Start targets start)
    (h : Stopped targets start w) : Sound start w := by
  cases h with
  | signal hsteps => exact (progress_of_steps hstart hsteps).sound
  | failure hsteps hfails => exact (progress_of_steps hstart hsteps).failure hfails

end KubernetesInstall
