import Mathlib
import WebsiteInfrastructure.FluxInstall.Rollback

/-!
# What a rollback takes and what it leaves

A rollback takes only unchanged objects of its own attempt, the Namespace last, and where it
succeeds nothing of the attempt is left under the entries of its manifests.
-/

namespace FluxInstall

open Interference ShellText PythonText

section Rollback

variable {attempt : Text} {ours : Set Text} {manifests : List Text} {w : World} {h : Harvest}

/-! ## Deletions -/

/-- The first loop asks only for the deletion of recorded objects, the Namespace apart. -/
theorem removeRecords_does (hk : Upheld attempt ours (h.Known attempt ours (attempted manifests)) w) :
    Does attempt ours manifests (Client.fold removeRecord () h.ledger.reverse)
      (fun _ => Upheld attempt ours (h.Known attempt ours (attempted manifests))) w := by
  have hlasts : Lasts ours (h.Known attempt ours (attempted manifests)) := h.lasts _
  refine holds_fold (fun _ _ => Upheld attempt ours (h.Known attempt ours (attempted manifests)))
    (fun _ _ _ _ hs ht => hs.interferes hlasts ht) h.ledger.reverse ?_ [] hk
  intro seen _ t r hr ht
  rw [List.mem_reverse] at hr
  rw [removeRecord]
  split
  · exact does_done hlasts ht
  · rename_i hne
    apply holds_bind
    refine (does_delete hlasts ?_ ht).mono fun _ u hu => does_done hlasts hu
    intro u path hu hpath
    obtain ⟨hmem, -, hrecorded⟩ := hu.2.1 r hr
    exact ⟨hu.1, r.entry, hmem, hpath, hrecorded, fun heq => absurd heq hne⟩

/-! ## Proofs of deletion -/

/-- What the second loop has established of a line of the ledger. -/
def Residue.Clears (s : Residue) (ours : Set Text) (r : Record) (w : World) : Prop :=
  r.entry = namespaceEntry ∨
    (r.entry ∈ s.entries ∧ (entryIsClusterScoped r.entry = false → s.preserveNamespace = true)) ∨
    (Settled ours r.entry w ∧ (Missing r.entry w ∨ entryIsClusterScoped r.entry = true ∨
      s.preserveNamespace = true))

theorem Residue.lasts (s : Residue) (r : Record) : Lasts ours (s.Clears ours r) :=
  (lasts_const _).or ((lasts_const _).or
    ((lasts_left r.entry ∅).and ((lasts_missing r.entry).or (lasts_const _))))

/-- What is known after some lines of the ledger. -/
def Checked (h : Harvest) (attempt : Text) (ours : Set Text) (manifests : List Text) (s : Residue)
    (seen : List Record) (w : World) : Prop :=
  h.Known attempt ours (attempted manifests) w ∧
    (h.preserveNamespace = true → s.preserveNamespace = true) ∧ ∀ r, r ∈ seen → s.Clears ours r w

theorem lasts_checked (s : Residue) (seen : List Record) :
    Lasts ours (Checked h attempt ours manifests s seen) :=
  (h.lasts _).and ((lasts_const _).and (Lasts.all fun r => (s.lasts r).of_imp))

theorem Residue.Clears.add {s : Residue} {r : Record} (hs : s.Clears ours r w) (entry : Text)
    (gone : Gone) : (s.add entry gone).Clears ours r w := by
  have hentries : ∀ e ∈ s.entries, e ∈ (s.add entry gone).entries := by
    intro e he
    cases gone <;> simp [Residue.add, he]
  have hpreserve : s.preserveNamespace = true → (s.add entry gone).preserveNamespace = true := by
    intro hp
    cases gone <;> simp [Residue.add, hp]
  rcases hs with hns | ⟨hmem, hscoped⟩ | ⟨hsettled, hmissing⟩
  · exact .inl hns
  · exact .inr (.inl ⟨hentries _ hmem, fun hfalse => hpreserve (hscoped hfalse)⟩)
  · exact .inr (.inr ⟨hsettled, hmissing.imp id (Or.imp id hpreserve)⟩)

/-- The state after a read says what the residue says of the line. -/
theorem clears_of_shown {s : Residue} {r : Record} {captured : Captured}
    (hr : r.Holds attempt ours w) (hshown : Shown attempt ours r.entry captured w) :
    (s.add r.entry (captured.gone r.uid)).Clears ours r w := by
  have hnamespaced : ∀ p : Bool, entryIsClusterScoped r.entry = false →
      (p || !entryIsClusterScoped r.entry) = true := by
    intro p hfalse
    rw [hfalse, Bool.not_false, Bool.or_true]
  cases captured with
  | error =>
    refine .inr (.inl ⟨?_, hnamespaced s.preserveNamespace⟩)
    simp [Captured.gone, Residue.add]
  | absent => exact .inr (.inr ⟨hshown.1, .inl hshown.2⟩)
  | present m =>
    by_cases hne : m.uid ≠ r.uid
    · have hsettled := hr.1.settled hshown.1 hne
      refine .inr (.inr ⟨hsettled, .inr ?_⟩)
      simp only [Captured.gone, if_pos hne, Residue.add]
      cases hscoped : entryIsClusterScoped r.entry with
      | true => exact .inl rfl
      | false => exact .inr (by simp)
    · refine .inr (.inl ⟨?_, ?_⟩)
      · simp [Captured.gone, hne, Residue.add]
      · simp only [Captured.gone, if_neg hne, Residue.add]
        exact hnamespaced s.preserveNamespace

theorem checkRecords_does (hattempt : IsField attempt)
    (hk : Upheld attempt ours (h.Known attempt ours (attempted manifests)) w) :
    Does attempt ours manifests (Client.fold checkRecord ⟨[], h.preserveNamespace⟩ h.ledger)
      (fun s => Upheld attempt ours (Checked h attempt ours manifests s h.ledger)) w := by
  have hstart : Upheld attempt ours
      (Checked h attempt ours manifests ⟨[], h.preserveNamespace⟩ []) w :=
    ⟨hk.1, hk.2, fun hp => hp, by simp⟩
  refine holds_fold (fun seen s => Upheld attempt ours (Checked h attempt ours manifests s seen))
    (fun seen s _ _ hs ht => hs.interferes (lasts_checked s seen) ht) h.ledger ?_ [] hstart
  intro seen s t r hr ht
  have hdone : ∀ (s' : Residue) (u : World),
      Upheld attempt ours (Checked h attempt ours manifests s' (seen ++ [r])) u →
      Does attempt ours manifests (.done s')
        (fun s => Upheld attempt ours (Checked h attempt ours manifests s (seen ++ [r]))) u :=
    fun s' u hu => does_done (lasts_checked s' _) hu
  rw [checkRecord]
  split
  · rename_i hns
    apply hdone
    refine ⟨ht.1, ht.2.1, ht.2.2.1, fun r' hr' => ?_⟩
    rcases List.mem_append.mp hr' with hr' | hr'
    · exact ht.2.2.2 r' hr'
    · rw [List.mem_singleton.mp hr']
      exact .inl hns
  · apply holds_bind
    rw [attemptUidIsGone]
    apply holds_bind
    apply (does_capture hattempt (lasts_checked s seen) r.entry ht).mono
    rintro captured u ⟨hsound, ⟨hknown, hpreserve, hclears⟩, hshown⟩
    have hadded : Upheld attempt ours (Checked h attempt ours manifests
        (s.add r.entry (captured.gone r.uid)) (seen ++ [r])) u := by
      refine ⟨hsound, hknown, fun hp => ?_, fun r' hr' => ?_⟩
      · have hp' := hpreserve hp
        cases captured.gone r.uid <;> simp [Residue.add, hp']
      · rcases List.mem_append.mp hr' with hr' | hr'
        · exact (hclears r' hr').add r.entry _
        · rw [List.mem_singleton.mp hr']
          exact clears_of_shown (hknown.1 r hr).2 hshown
    exact fun v hv => hdone _ v (hadded.interferes (lasts_checked _ _) hv)

/-! ## The Namespace -/

theorem clusterScoped_namespaceEntry : entryIsClusterScoped namespaceEntry = true := by decide

/-- Where the Namespace need not be kept, each other object of it was found missing. -/
theorem missing_of_checked {s : Residue} (hc : Checked h attempt ours manifests s h.ledger w)
    (hpreserve : s.preserveNamespace = false) {entry : Text} (hentry : entry ∈ attempted manifests)
    (hscoped : entryIsClusterScoped entry = false) : Missing entry w := by
  obtain ⟨hknown, hkept, hclears⟩ := hc
  have hharvest : ∀ e ∈ h.collisions ++ h.uncertain, entryIsClusterScoped e = true := by
    intro e he
    by_contra hfalse
    have hany : h.preserveNamespace = true :=
      List.any_eq_true.mpr ⟨e, he, by simpa using hfalse⟩
    rw [hkept hany] at hpreserve
    cases hpreserve
  have hlisted : entry ∉ h.collisions ++ h.uncertain := by
    intro hmem
    rw [hharvest entry hmem] at hscoped
    cases hscoped
  rw [List.mem_append, not_or] at hlisted
  rcases hknown.2 entry hentry with ⟨-, hmissing | hmem⟩ | hmem | ⟨r, hr, rfl⟩
  · exact hmissing
  · exact absurd hmem hlisted.1
  · exact absurd hmem hlisted.2
  · rcases hclears r hr with hns | ⟨-, hkeeps⟩ | ⟨-, hmissing | htrue | hkeeps⟩
    · rw [hns, clusterScoped_namespaceEntry] at hscoped
      cases hscoped
    · rw [hkeeps hscoped] at hpreserve
      cases hpreserve
    · exact hmissing
    · rw [htrue] at hscoped
      cases hscoped
    · rw [hkeeps] at hpreserve
      cases hpreserve

/-- Nothing is left of the Namespace where it is not reported. -/
theorem removeNamespace_does (hattempt : IsField attempt) {s : Residue} {r : Record}
    (hr : r ∈ h.ledger) (hentry : r.entry = namespaceEntry)
    (hc : Upheld attempt ours (Checked h attempt ours manifests s h.ledger) w) :
    Does attempt ours manifests (removeNamespace s r)
      (fun residue => Upheld attempt ours fun w =>
        Checked h attempt ours manifests s h.ledger w ∧
          (residue = [] → s.entries = [] ∧ Settled ours namespaceEntry w)) w := by
  have hlasts : Lasts ours (Checked h attempt ours manifests s h.ledger) := lasts_checked s h.ledger
  have hpost : ∀ residue : List Text, Lasts ours (fun w =>
      Checked h attempt ours manifests s h.ledger w ∧
        (residue = [] → s.entries = [] ∧ Settled ours namespaceEntry w)) := fun residue =>
    hlasts.and ((lasts_const _).and (lasts_left namespaceEntry ∅)).of_imp
  rw [removeNamespace]
  split
  · intro t ht
    refine Upheld.interferes (hpost _) ⟨hc.1, hc.2, fun hnil => ?_⟩ ht
    simp at hnil
  · rename_i hpreserve
    rw [Bool.not_eq_true] at hpreserve
    apply holds_bind
    refine (does_delete hlasts ?_ hc).mono fun _ t ht => ?_
    · intro t path ht hpath
      obtain ⟨hmem, -, hrecorded⟩ := ht.2.1.1 r hr
      exact ⟨ht.1, r.entry, hmem, hpath, hrecorded,
        fun _ e he hscoped => missing_of_checked ht.2 hpreserve he hscoped⟩
    · rw [attemptUidIsGone]
      apply holds_bind
      apply holds_bind
      apply (does_capture hattempt hlasts r.entry ht).mono
      rintro captured u ⟨hsound, hchecked, hshown⟩ v hv v' hv'
      have hleft := (hchecked.1.1 r hr).2.1
      refine Upheld.interferes (hpost _) (Upheld.interferes (hpost _)
        ⟨hsound, hchecked, fun hnil => ?_⟩ hv) hv'
      rw [hentry] at hleft hshown
      cases captured with
      | error => simp [Captured.gone] at hnil
      | absent => exact ⟨by simpa [Captured.gone] using hnil, hshown.1⟩
      | present m =>
        by_cases hne : m.uid ≠ r.uid
        · exact ⟨by simpa [Captured.gone, hne] using hnil, hleft.settled hshown.1 hne⟩
        · simp [Captured.gone, hne] at hnil

/-! ## The rollback -/

/-- Nothing of the attempt is left where neither the harvest nor the loops report anything. -/
theorem settled_of_checked {s : Residue} (hc : Checked h attempt ours manifests s h.ledger w)
    (hentries : s.entries = []) (huncertain : h.uncertain = [])
    (hns : (∃ r ∈ h.ledger, r.entry = namespaceEntry) → Settled ours namespaceEntry w) :
    ∀ entry, entry ∈ attempted manifests → Settled ours entry w := by
  intro entry hentry
  rcases hc.1.2 entry hentry with ⟨hsettled, -⟩ | hmem | ⟨r, hr, rfl⟩
  · exact hsettled
  · rw [huncertain] at hmem
    cases hmem
  · rcases hc.2.2 r hr with heq | ⟨hmem, -⟩ | ⟨hsettled, -⟩
    · rw [heq]
      exact hns ⟨r, hr, heq⟩
    · rw [hentries] at hmem
      cases hmem
    · exact hsettled

theorem rollback_does (hattempt : IsField attempt) (hw : Sound attempt ours w) :
    Does attempt ours manifests (rollback attempt manifests)
      (fun ok => Upheld attempt ours fun w => ok = true →
        ∀ entry, entry ∈ attempted manifests → Settled ours entry w) w := by
  have hpost : ∀ ok : Bool, Lasts ours (fun w => ok = true →
      ∀ entry, entry ∈ attempted manifests → Settled ours entry w) := fun ok =>
    (Lasts.all fun entry => (lasts_left entry ∅).of_imp).of_imp
  apply holds_bind
  apply (harvestLedger_does hattempt hw).mono
  intro h t hk
  split
  · rename_i hempty
    rw [List.isEmpty_iff] at hempty
    intro u hu
    refine Upheld.interferes (hpost _) ⟨hk.1, fun hok entry hentry => ?_⟩ hu
    rw [List.isEmpty_iff] at hok
    rcases hk.2.2 entry hentry with ⟨hsettled, -⟩ | hmem | ⟨r, hr, -⟩
    · exact hsettled
    · rw [hok] at hmem
      cases hmem
    · rw [hempty] at hr
      cases hr
  · apply holds_bind
    refine (removeRecords_does hk).mono fun _ u hu => ?_
    apply holds_bind
    refine (checkRecords_does hattempt hu).mono fun s v hv => ?_
    cases hfind : h.ledger.find? (fun r => decide (r.entry = namespaceEntry)) with
    | none =>
      rw [List.find?_eq_none] at hfind
      intro x hx
      refine Upheld.interferes (hpost _) ⟨hv.1, fun hok => ?_⟩ hx
      rw [List.isEmpty_iff, List.append_eq_nil_iff] at hok
      refine settled_of_checked hv.2 hok.1 hok.2 ?_
      rintro ⟨r, hr, hentry⟩
      exact absurd (decide_eq_true hentry) (hfind r hr)
    | some r =>
      have hr := List.mem_of_find?_eq_some hfind
      have hentry : r.entry = namespaceEntry := by simpa using List.find?_some hfind
      apply holds_bind
      apply (removeNamespace_does hattempt hr hentry hv).mono
      rintro residue x ⟨hsound, hchecked, hresidue⟩ y hy
      refine Upheld.interferes (hpost _) ⟨hsound, fun hok => ?_⟩ hy
      rw [List.isEmpty_iff, List.append_eq_nil_iff] at hok
      exact settled_of_checked hchecked (hresidue hok.1).1 hok.2 fun _ => (hresidue hok.1).2

/-- Where a rollback succeeds, whatever others did and whichever responses were lost, no object that
the attempt has created is left under an entry of its manifests, but for those whose marker others
have changed. -/
theorem rollback_truthful (hattempt : isAttemptId attempt = true) (hw : Sound attempt ours w)
    {w' : World} (hrun : Runs (api attempt) (rollback attempt manifests) w true w') :
    ∀ entry ∈ attempted manifests, ∀ o, w'.objects entry = some o → o.uid ∈ ours →
      o.uid ∈ w'.stripped := by
  intro entry hentry o ho hours
  have hdoes : Does attempt ours manifests (rollback attempt manifests) _ w :=
    rollback_does (isField_attempt hattempt) hw
  have hsettled := (hdoes.returns hrun).2 rfl entry hentry
  exact (hsettled o ho hours).resolve_right (Set.notMem_empty _)

/-! ## Paths -/

theorem split_append {entry : Text} (h : '/' ∈ entry) :
    (splitEntry entry).1 ++ '/' :: (splitEntry entry).2 = entry := by
  rw [splitEntry]
  induction entry with
  | nil => cases h
  | cons c entry ih =>
    by_cases hc : c = '/'
    · simp [hc]
    · have hmem : '/' ∈ entry := (List.mem_cons.mp h).resolve_left fun heq => hc heq.symm
      simpa [hc] using ih hmem

theorem notMem_objectName {name : Text} (h : isObjectName name = true) : '/' ∉ name := by
  rw [isObjectName, Bool.and_eq_true, List.all_eq_true] at h
  intro hmem
  exact absurd (h.2 '/' hmem) (by decide)

theorem collections_end : ∀ p ∈ collections, p.2.getLast? = some '/' := by decide

theorem collections_injective : ∀ p ∈ collections, ∀ q ∈ collections, p.2 = q.2 → p = q := by decide

/-- A path ends with a name, behind the last slash. -/
theorem rdropWhile_path {collection name : Text} (hcollection : collection.getLast? = some '/')
    (hname : '/' ∉ name) : (collection ++ name).rdropWhile (· ≠ '/') = collection := by
  obtain ⟨init, rfl⟩ := List.getLast?_eq_some_iff.mp hcollection
  have hall : ∀ c ∈ name.reverse, decide (c ≠ '/') = true := by
    intro c hc
    rw [decide_eq_true_eq]
    rintro rfl
    exact hname (List.mem_reverse.mp hc)
  rw [List.rdropWhile, List.reverse_append, List.dropWhile_append_of_pos hall]
  simp

/-- A path belongs to one entry. -/
theorem entryApiPath_injective {e e' path : Text} (h : entryApiPath e = some path)
    (h' : entryApiPath e' = some path) : e = e' := by
  have hparts : ∀ {x : Text}, entryApiPath x = some path → ∃ p ∈ collections,
      ∃ name, '/' ∉ name ∧ x = p.1 ++ '/' :: name ∧ path = p.2 ++ name := by
    intro x hx
    rw [entryApiPath] at hx
    split at hx
    · rename_i hvalid
      rw [Bool.and_eq_true, decide_eq_true_eq] at hvalid
      obtain ⟨collection, hlookup, rfl⟩ := Option.map_eq_some_iff.mp hx
      obtain ⟨before, after, hsplit, -⟩ := List.lookup_eq_some_iff.mp hlookup
      refine ⟨((splitEntry x).1, collection), by simp [hsplit], (splitEntry x).2,
        notMem_objectName hvalid.2, (split_append hvalid.1).symm, rfl⟩
    · cases hx
  obtain ⟨p, hp, name, hname, rfl, hpath⟩ := hparts h
  obtain ⟨q, hq, name', hname', rfl, hpath'⟩ := hparts h'
  have hp' := rdropWhile_path (collections_end p hp) hname
  have hq' := rdropWhile_path (collections_end q hq) hname'
  rw [← hpath] at hp'
  rw [← hpath'] at hq'
  obtain rfl := collections_injective p hp q hq (hp'.symm.trans hq')
  rw [List.append_cancel_left (hpath.symm.trans hpath')]

/-! ## What is taken -/

theorem resourceVersion_injective {o o' : Object} (h : o.resourceVersion = o'.resourceVersion) :
    o.version = o'.version := by
  have hdigits := congrArg (fun t => Nat.ofDigitChars 10 t 0) h
  simpa only [Object.resourceVersion, Nat.ofDigitChars_ten_toDigits] using hdigits

/-- A deletion changes at most the object of its path, identity and version. -/
theorem taken_of_delete {entry path uid version : Text} {t u : World} {r : Bool}
    (hpath : entryApiPath entry = some path)
    (hanswer : DeleteAnswers entryApiPath t path uid version r u) {e : Text} {o : Object}
    (ho : t.objects e = some o) (hne : u.objects e ≠ some o) :
    e = entry ∧ o.uid = uid ∧ o.resourceVersion = version := by
  have hupdate : ∀ {e' : Text} {x : Object} {next : Option Object},
      entryApiPath e' = some path → t.objects e' = some x → x.uid = uid →
      x.resourceVersion = version → Function.update t.objects e' next e ≠ some o →
      e = entry ∧ o.uid = uid ∧ o.resourceVersion = version := by
    intro e' x next he' hx huid hversion hchanged
    by_cases heq : e = e'
    · subst heq
      obtain rfl : x = o := Option.some.inj (hx.symm.trans ho)
      exact ⟨entryApiPath_injective he' hpath, huid, hversion⟩
    · rw [Function.update_of_ne heq] at hchanged
      exact absurd ho hchanged
  cases hanswer with
  | refused => exact absurd ho hne
  | deleted hp hlive huid hversion => exact hupdate hp hlive huid hversion hne
  | marked hp hlive huid hversion hn => exact hupdate hp hlive huid hversion hne

/-- Whatever others do, a deletion that a rollback asks for takes an object of its attempt only, as
a read has shown it under the marker of the attempt and unchanged since. When the rollback asks for
the deletion of the Namespace, a read has found each other object of the Namespace missing. -/
theorem rollback_takes_own (hattempt : isAttemptId attempt = true) (hw : Sound attempt ours w)
    {path uid version : Text} {t u : World} {r : Bool}
    (hask : Asks (api attempt) (rollback attempt manifests) w (.delete path uid version) t)
    (hanswer : DeleteAnswers entryApiPath t path uid version r u) :
    (∀ e o, t.objects e = some o → u.objects e ≠ some o → e ∈ attempted manifests ∧ o.uid ∈ ours ∧
      o.marker = attempt ∧ (e, some o) ∈ t.log) ∧
    (entryApiPath namespaceEntry = some path → ∀ e ∈ attempted manifests,
      entryIsClusterScoped e = false → Missing e t) := by
  have hdoes : Does attempt ours manifests (rollback attempt manifests) _ w :=
    rollback_does (isField_attempt hattempt) hw
  obtain ⟨hsound, entry, hentry, hpath, ⟨hours, o', hlogged, hmarker, huid', hversion'⟩, hmissing⟩ :=
    hdoes.guarded hask
  constructor
  · intro e o ho hne
    have htaken : e = entry ∧ o.uid = uid ∧ o.resourceVersion = version :=
      taken_of_delete hpath hanswer ho hne
    obtain ⟨rfl, huid, hversion⟩ := htaken
    have hsame : o.version = o'.version := resourceVersion_injective (hversion.trans hversion'.symm)
    rcases hsound.read_before e o' hlogged o ho (huid.trans huid'.symm) with rfl | hlater
    · exact ⟨hentry, huid ▸ hours, hmarker, hlogged⟩
    · omega
  · intro hnamespace
    exact hmissing (entryApiPath_injective hpath hnamespace)

end Rollback

/-! ## A canary -/

namespace Sample

def attempt : Text := List.replicate 64 'a'

def manifest : Text := spelled "kind: Pod\nmetadata:\n  name: canary\n" rfl

def entry : Text := spelled "pod/canary" rfl

def path : Text := spelled "/api/v1/namespaces/flux-system/pods/canary" rfl

def canary : Object where
  marker := attempt
  uid := spelled "11111111-2222-3333-4444-555555555555" rfl
  version := 5
  uid_canonical := by decide
  version_pos := by decide

theorem live_canary {e : Text} {o : Object}
    (h : Function.update (fun _ => none) entry (some canary) e = some o) :
    e = entry ∧ o = canary := by
  by_cases he : e = entry
  · subst he
    rw [Function.update_self, Option.some.injEq] at h
    exact ⟨rfl, h.symm⟩
  · rw [Function.update_of_ne he] at h
    cases h

/-- A cluster with the canary of the attempt. -/
def cluster : World where
  objects := Function.update (fun _ => none) entry (some canary)
  issued := {canary.uid}
  stripped := ∅
  log := []
  issued_live _ o h := by
    obtain ⟨-, rfl⟩ := live_canary h
    rfl

theorem live_entry : cluster.objects entry = some canary := by
  change Function.update (fun _ => none) entry (some canary) entry = some canary
  rw [Function.update_self]

theorem sound_cluster : Sound attempt {canary.uid} cluster where
  issued := subset_rfl
  signed e o h _ := by
    obtain ⟨-, rfl⟩ := live_canary h
    exact ⟨rfl, rfl⟩
  marked e o h _ := by
    obtain ⟨-, rfl⟩ := live_canary h
    exact .inr rfl
  read_issued e o h := by
    cases h
  read_before e o h := by
    cases h

theorem entries_manifest : attempted [manifest] = [entry] := by decide

theorem readMetadata_canary :
    readMetadata canary.text = some ⟨attempt, canary.uid, canary.resourceVersion⟩ := by
  have hattempt : isAttemptId attempt = true := by decide
  exact readMetadata_text (isField_attempt hattempt) rfl

theorem path_entry : entryApiPath entry = some path := by decide

theorem entry_ne : entry ≠ namespaceEntry := by decide

def seen : World := cluster.logged entry (some canary)

theorem seen_entry : seen.objects entry = some canary := live_entry

/-- The cluster behind the deletion and the last read. -/
def gone : World := (seen.without entry).logged entry none

theorem gone_entry : (seen.without entry).objects entry = none := by
  change Function.update seen.objects entry none entry = none
  rw [Function.update_self]

/-- The deletion is carried out, with its response lost. -/
theorem delete_canary : DeleteAnswers entryApiPath seen path canary.uid canary.resourceVersion
    false (seen.without entry) :=
  DeleteAnswers.deleted path_entry seen_entry rfl rfl false

/-- The rollback reads the canary, asks for its deletion and reads it again. -/
theorem rollback_canary : ∃ k, rollback attempt [manifest] = .ask (.get entry) k ∧
    ∃ k', k (.found canary.text) = .ask (.delete path canary.uid canary.resourceVersion) k' ∧
      ∃ k'', k' false = .ask (.get entry) k'' ∧ k'' .notFound = .done true := by
  rw [rollback, harvestLedger, entries_manifest]
  simp only [Client.bind, Client.fold, harvestEntry, captureEntryMetadata, kubeGet, Client.request]
  refine ⟨_, rfl, ?_⟩
  simp only [Client.bind, Client.fold, Reading.captured, readMetadata_canary, Option.map_some,
    Option.getD_some, if_true, List.nil_append, List.isEmpty_cons, Bool.false_eq_true, if_false,
    List.reverse_singleton, removeRecord, if_neg entry_ne, conditionalDeleteEntry, path_entry,
    kubeDelete, Client.request]
  refine ⟨_, rfl, ?_⟩
  simp only [Client.bind, checkRecord, if_neg entry_ne, attemptUidIsGone, captureEntryMetadata,
    kubeGet, Client.request]
  refine ⟨_, rfl, ?_⟩
  simp only [Reading.captured, Captured.gone, Residue.add]
  rw [List.find?_cons_of_neg (by simp [entry_ne]), List.find?_nil]
  rfl

theorem runs_cluster : Runs (api attempt) (rollback attempt [manifest]) cluster true gone := by
  obtain ⟨k, hread, k', hdelete, k'', hcheck, hend⟩ := rollback_canary
  rw [hread]
  refine .ask (Interferes.refl _ _) (GetAnswers.found live_entry) ?_
  rw [hdelete]
  refine .ask (Interferes.refl _ _) delete_canary ?_
  rw [hcheck]
  refine .ask (Interferes.refl _ _) (GetAnswers.notFound gone_entry) ?_
  rw [hend]
  exact .done (Interferes.refl _ _)

theorem canary_gone : Runs (api attempt) (rollback attempt [manifest]) cluster true gone ∧
    ∀ e ∈ attempted [manifest], ∀ o, gone.objects e = some o →
      o.uid ∈ ({canary.uid} : Set Text) → o.uid ∈ gone.stripped :=
  ⟨runs_cluster, rollback_truthful (by decide) sound_cluster runs_cluster⟩

theorem asks_delete : Asks (api attempt) (rollback attempt [manifest]) cluster
    (.delete path canary.uid canary.resourceVersion) seen := by
  obtain ⟨k, hread, k', hdelete, -⟩ := rollback_canary
  rw [hread]
  refine .later (Interferes.refl _ _) (GetAnswers.found live_entry) ?_
  rw [hdelete]
  exact .here (Interferes.refl _ _)

theorem canary_taken : (∀ e o, seen.objects e = some o → (seen.without entry).objects e ≠ some o →
      e ∈ attempted [manifest] ∧ o.uid ∈ ({canary.uid} : Set Text) ∧ o.marker = attempt ∧
      (e, some o) ∈ seen.log) ∧
    (entryApiPath namespaceEntry = some path → ∀ e ∈ attempted [manifest],
      entryIsClusterScoped e = false → Missing e seen) :=
  rollback_takes_own (by decide) sound_cluster asks_delete delete_canary

end Sample

end FluxInstall
