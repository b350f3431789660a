import Mathlib
import WebsiteInfrastructure.FluxInstall.Readings

/-!
# A rollback among others

What a rollback deletes, and what its success says, whatever others do to the cluster between its
requests and whichever responses are lost.
-/

namespace FluxInstall

open Interference ShellText PythonText

variable {attempt : Text} {ours : Set Text} {manifests : List Text} {w : World}

/-- The API server of the installer. -/
abbrev api (attempt : Text) : Server Request Response World := apiServer entryApiPath attempt

/-- What is asked to be deleted was read under the marker of the attempt. The Namespace is only
deleted where a read has found each other object of the Namespace missing. -/
def Guard (attempt : Text) (ours : Set Text) (manifests : List Text) : Request → World → Prop
  | .get _, _ => True
  | .delete path uid version, w => Sound attempt ours w ∧
      ∃ e ∈ attempted manifests, entryApiPath e = some path ∧
        Recorded attempt ours e uid version w ∧
        (e = namespaceEntry → ∀ e' ∈ attempted manifests, entryIsClusterScoped e' = false →
          Missing e' w)

/-! ## Facts that last -/

/-- A fact that no step of the cluster takes back. -/
def Lasts (ours : Set Text) (p : World → Prop) : Prop :=
  ∀ w w', ours ⊆ w.issued → Evolves w w' → p w → p w'

/-- A fact about a sound cluster. -/
def Upheld (attempt : Text) (ours : Set Text) (p : World → Prop) (w : World) : Prop :=
  Sound attempt ours w ∧ p w

theorem lasts_left (entry : Text) (uids : Set Text) : Lasts ours (Left ours entry uids) :=
  fun _ _ hissued hw h => h.evolves hissued hw

theorem lasts_missing (entry : Text) : Lasts ours (Missing entry) := fun _ _ _ hw h => hw.log _ h

theorem lasts_recorded (entry uid version : Text) :
    Lasts ours (Recorded attempt ours entry uid version) := fun _ _ _ hw h => h.evolves hw

theorem lasts_const (p : Prop) : Lasts ours (fun _ => p) := fun _ _ _ _ h => h

theorem Lasts.and {p q : World → Prop} (hp : Lasts ours p) (hq : Lasts ours q) :
    Lasts ours (fun w => p w ∧ q w) :=
  fun w w' hissued hw h => ⟨hp w w' hissued hw h.1, hq w w' hissued hw h.2⟩

theorem Lasts.or {p q : World → Prop} (hp : Lasts ours p) (hq : Lasts ours q) :
    Lasts ours (fun w => p w ∨ q w) :=
  fun w w' hissued hw h => h.imp (hp w w' hissued hw) (hq w w' hissued hw)

theorem Lasts.all {α : Type} {p : α → World → Prop} (hp : ∀ a, Lasts ours (p a)) :
    Lasts ours (fun w => ∀ a, p a w) :=
  fun w w' hissued hw h a => hp a w w' hissued hw (h a)

theorem Lasts.of_imp {q : Prop} {p : World → Prop} (hp : Lasts ours p) :
    Lasts ours (fun w => q → p w) := fun w w' hissued hw h hq => hp w w' hissued hw (h hq)

theorem lasts_shown (entry : Text) (captured : Captured) :
    Lasts ours (Shown attempt ours entry captured) := by
  cases captured with
  | error => exact lasts_const True
  | absent => exact (lasts_left entry ∅).and (lasts_missing entry)
  | present m =>
    exact (lasts_left entry {m.uid}).and
      ((lasts_left entry ∅).of_imp.and (lasts_recorded entry m.uid m.version).of_imp)

theorem Upheld.interferes {p : World → Prop} (hp : Lasts ours p) {w' : World}
    (h : Upheld attempt ours p w) (hw : Interferes attempt w w') : Upheld attempt ours p w' :=
  ⟨hw.sound h.1, hp w w' h.1.issued hw.evolves h.2⟩

theorem Upheld.answers {p : World → Prop} (hp : Lasts ours p) {w' : World} {q : Request}
    {r : Response q} (h : Upheld attempt ours p w) (hw : (api attempt).answers w q r w') :
    Upheld attempt ours p w' := by
  obtain ⟨hevolves, hsound⟩ := answers_sound h.1 hw
  exact ⟨hsound, hp w w' h.1.issued hevolves h.2⟩

/-! ## The functions -/

section Functions

variable {p : World → Prop}

abbrev Does (attempt : Text) (ours : Set Text) (manifests : List Text) {α : Type} (s : Script α)
    (post : α → World → Prop) (w : World) : Prop :=
  Holds (api attempt) (Guard attempt ours manifests) s post w

theorem does_done {α : Type} {a : α} {post : α → World → Prop} (hpost : Lasts ours (post a))
    (h : Upheld attempt ours (post a) w) :
    Does attempt ours manifests (.done a) (fun b => Upheld attempt ours (post b)) w :=
  holds_done fun _ hw => h.interferes hpost hw

theorem does_capture (hattempt : IsField attempt) (hp : Lasts ours p) (entry : Text)
    (h : Upheld attempt ours p w) : Does attempt ours manifests (captureEntryMetadata entry)
      (fun captured => Upheld attempt ours fun w => p w ∧ Shown attempt ours entry captured w) w := by
  apply holds_bind
  apply holds_request
  · intro t _
    trivial
  · intro t hw r u hanswer v hv
    have ht := h.interferes hp hw
    have hu := ht.answers hp hanswer
    have hshown := shown_of_answer hattempt ht.1 hanswer
    have hshows : Lasts ours (Shown attempt ours entry r.captured) := lasts_shown entry r.captured
    have hlasts := hp.and hshows
    have hknown : Upheld attempt ours
        (fun w => p w ∧ Shown attempt ours entry r.captured w) u := ⟨hu.1, hu.2, hshown⟩
    exact fun t' ht' => (hknown.interferes hlasts hv).interferes hlasts ht'

theorem does_delete (hp : Lasts ours p) {entry uid version : Text}
    (hguard : ∀ t path, Upheld attempt ours p t → entryApiPath entry = some path →
      Guard attempt ours manifests (.delete path uid version) t)
    (h : Upheld attempt ours p w) :
    Does attempt ours manifests (conditionalDeleteEntry entry uid version)
      (fun _ => Upheld attempt ours p) w := by
  rw [conditionalDeleteEntry]
  split
  · exact does_done hp h
  · rename_i path hpath
    apply holds_request
    · intro t ht
      exact hguard t path (h.interferes hp ht) hpath
    · intro t ht r u hanswer v hv
      exact ((h.interferes hp ht).answers hp hanswer).interferes hp hv

/-! ## The harvest -/

/-- What the ledger says of one of its lines. -/
def Record.Holds (attempt : Text) (ours : Set Text) (r : Record) (w : World) : Prop :=
  Left ours r.entry {r.uid} w ∧ Recorded attempt ours r.entry r.uid r.version w

theorem Record.lasts (r : Record) : Lasts ours (r.Holds attempt ours) :=
  (lasts_left r.entry {r.uid}).and (lasts_recorded r.entry r.uid r.version)

/-- An entry of a manifest is settled, uncertain or in the ledger. -/
def Harvest.Accounts (h : Harvest) (ours : Set Text) (entry : Text) (w : World) : Prop :=
  (Settled ours entry w ∧ (Missing entry w ∨ entry ∈ h.collisions)) ∨ entry ∈ h.uncertain ∨
    ∃ r ∈ h.ledger, r.entry = entry

/-- What the harvest has established of the entries so far. -/
def Harvest.Known (h : Harvest) (attempt : Text) (ours : Set Text) (seen : List Text)
    (w : World) : Prop :=
  (∀ r, r ∈ h.ledger → r.entry ∈ seen ∧ r.Holds attempt ours w) ∧
    ∀ entry, entry ∈ seen → h.Accounts ours entry w

theorem Harvest.lasts (h : Harvest) (seen : List Text) : Lasts ours (h.Known attempt ours seen) := by
  refine Lasts.and (Lasts.all fun r => ((lasts_const _).and r.lasts).of_imp)
    (Lasts.all fun entry => Lasts.of_imp (Lasts.or ?_ (lasts_const _)))
  exact (lasts_left entry ∅).and ((lasts_missing entry).or (lasts_const _))

theorem Harvest.Accounts.mono {h h' : Harvest} {entry : Text} (ha : h.Accounts ours entry w)
    (hcollisions : ∀ e ∈ h.collisions, e ∈ h'.collisions)
    (huncertain : ∀ e ∈ h.uncertain, e ∈ h'.uncertain) (hledger : ∀ r ∈ h.ledger, r ∈ h'.ledger) :
    h'.Accounts ours entry w := by
  rcases ha with ⟨hsettled, hmissing⟩ | hmem | ⟨r, hr, hentry⟩
  · exact .inl ⟨hsettled, hmissing.imp id (hcollisions entry)⟩
  · exact .inr (.inl (huncertain entry hmem))
  · exact .inr (.inr ⟨r, hledger r hr, hentry⟩)

/-- One turn accounts for one more entry. -/
theorem Harvest.Known.add {h h' : Harvest} {seen : List Text} {entry : Text}
    (hk : h.Known attempt ours seen w) (hcollisions : ∀ e ∈ h.collisions, e ∈ h'.collisions)
    (huncertain : ∀ e ∈ h.uncertain, e ∈ h'.uncertain) (hledger : ∀ r ∈ h.ledger, r ∈ h'.ledger)
    (hnew : ∀ r ∈ h'.ledger, r ∈ h.ledger ∨ r.entry = entry ∧ r.Holds attempt ours w)
    (haccounts : h'.Accounts ours entry w) : h'.Known attempt ours (seen ++ [entry]) w := by
  constructor
  · intro r hr
    rcases hnew r hr with hold | ⟨hentry, hholds⟩
    · exact ⟨List.mem_append_left _ (hk.1 r hold).1, (hk.1 r hold).2⟩
    · rw [hentry]
      exact ⟨by simp, hholds⟩
  · intro e he
    rcases List.mem_append.mp he with he | he
    · exact (hk.2 e he).mono hcollisions huncertain hledger
    · rw [List.mem_singleton.mp he]
      exact haccounts

theorem harvestEntry_does (hattempt : IsField attempt) {h : Harvest} {seen : List Text}
    {entry : Text} (hk : Upheld attempt ours (h.Known attempt ours seen) w) :
    Does attempt ours manifests (harvestEntry attempt h entry)
      (fun h' => Upheld attempt ours (h'.Known attempt ours (seen ++ [entry]))) w := by
  apply holds_bind
  apply (does_capture hattempt (h.lasts seen) entry hk).mono
  rintro captured t ⟨hsound, hknown, hshown⟩
  have hdone : ∀ h' : Harvest, h'.Known attempt ours (seen ++ [entry]) t →
      Does attempt ours manifests (.done h')
        (fun h' : Harvest => Upheld attempt ours (h'.Known attempt ours (seen ++ [entry]))) t :=
    fun h' hh' => does_done (h'.lasts _) ⟨hsound, hh'⟩
  apply hdone
  cases captured with
  | error =>
    refine hknown.add (fun _ he => he) (fun e he => List.mem_append_left _ he) (fun _ hr => hr)
      (fun r hr => .inl hr) (.inr (.inl ?_))
    simp
  | absent =>
    exact hknown.add (fun _ he => he) (fun _ he => he) (fun _ hr => hr) (fun r hr => .inl hr)
      (.inl ⟨hshown.1, .inl hshown.2⟩)
  | present m =>
    obtain ⟨hleft, hforeign, hown⟩ := hshown
    by_cases hm : m.attempt = attempt
    · simp only [if_pos hm]
      refine hknown.add (fun _ he => he) (fun _ he => he) (fun r hr => List.mem_append_left _ hr)
        ?_ (.inr (.inr ⟨⟨entry, m.uid, m.version⟩, by simp, rfl⟩))
      intro r hr
      rcases List.mem_append.mp hr with hr | hr
      · exact .inl hr
      · rw [List.mem_singleton.mp hr]
        exact .inr ⟨rfl, hleft, hown hm⟩
    · simp only [if_neg hm]
      refine hknown.add (fun e he => List.mem_append_left _ he) (fun _ he => he) (fun _ hr => hr)
        (fun r hr => .inl hr) (.inl ⟨hforeign hm, .inr ?_⟩)
      simp

theorem harvestLedger_does (hattempt : IsField attempt) (hw : Sound attempt ours w) :
    Does attempt ours manifests (harvestLedger attempt manifests)
      (fun h => Upheld attempt ours (h.Known attempt ours (attempted manifests))) w := by
  have hstart : Upheld attempt ours (Harvest.Known ⟨[], [], []⟩ attempt ours []) w :=
    ⟨hw, by simp [Harvest.Known]⟩
  exact holds_fold (fun seen (h : Harvest) => Upheld attempt ours (h.Known attempt ours seen))
    (fun seen h _ _ hs ht => hs.interferes (h.lasts seen) ht) (attempted manifests)
    (fun _ _ _ _ _ hk => harvestEntry_does hattempt hk) [] hstart

end Functions

end FluxInstall
