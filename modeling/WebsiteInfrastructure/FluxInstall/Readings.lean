import Mathlib
import WebsiteInfrastructure.FluxInstall.Script

/-!
# What a read establishes

The server keeps the identities of objects apart, whoever changes them. From this follows what the
installer may conclude from the answer to a read, then and ever after.
-/

namespace FluxInstall

open Interference ShellText PythonText

/-- `^[0-9a-f]{64}$` -/
def isAttemptId (attempt : Text) : Bool := attempt.length = 64 && attempt.all isHexDigit

theorem isHexDigit_ne {c : Char} (h : isHexDigit c = true) : c ≠ '|' ∧ c ≠ '\n' := by
  constructor
  · rintro rfl
    exact absurd h (by decide)
  · rintro rfl
    exact absurd h (by decide)

/-! ## Metadata -/

/-- A text that stands in one field of one line. -/
def IsField (t : Text) : Prop := ∀ c ∈ t, c ≠ '|' ∧ c ≠ '\n'

theorem isField_attempt {attempt : Text} (h : isAttemptId attempt = true) : IsField attempt := by
  rw [isAttemptId, Bool.and_eq_true, List.all_eq_true] at h
  exact fun c hc => isHexDigit_ne (h.2 c hc)

theorem isField_uid (o : Object) : IsField o.uid := by
  have h := o.uid_canonical
  rw [isUid, Bool.and_eq_true, List.all_eq_true] at h
  intro c hc
  have hchar := h.2 c hc
  rw [Bool.or_eq_true, decide_eq_true_eq] at hchar
  rcases hchar with rfl | hhex
  · decide
  · exact isHexDigit_ne hhex

theorem isDigit_resourceVersion (o : Object) : ∀ c ∈ o.resourceVersion, c.isDigit = true :=
  fun _ hc => Nat.isDigit_of_mem_toDigits (by omega) (by omega) hc

theorem isField_resourceVersion (o : Object) : IsField o.resourceVersion := by
  intro c hc
  have hhex : isHexDigit c = true := by
    rw [isHexDigit, isDigit_resourceVersion o c hc, Bool.true_or]
  exact isHexDigit_ne hhex

theorem isResourceVersion_object (o : Object) : isResourceVersion o.resourceVersion = true := by
  obtain ⟨c, cs, hcs, hc⟩ := head_toDigits_ne_zero o.version_pos
  have hall : o.resourceVersion.all Char.isDigit = true :=
    List.all_eq_true.mpr (isDigit_resourceVersion o)
  rw [isResourceVersion, hall, Bool.and_true, Object.resourceVersion, hcs]
  simpa using hc

theorem takeField_append {t : Text} (h : IsField t) (rest : Text) :
    takeField (t ++ '|' :: rest) = (t, rest) := by
  have hall : ∀ c ∈ t, decide (c ≠ '|') = true := fun c hc => decide_eq_true (h c hc).1
  rw [takeField, List.takeWhile_append_of_pos hall, List.dropWhile_append_of_pos hall]
  simp

theorem takeWhile_text {attempt : Text} (hattempt : IsField attempt) {o : Object}
    (h : o.marker = attempt) : o.text.takeWhile (· ≠ '\n') = o.text := by
  rw [List.takeWhile_eq_self_iff]
  intro c hc
  rw [Object.text, h] at hc
  simp only [List.mem_append, List.mem_cons, List.not_mem_nil, or_false] at hc
  rw [decide_eq_true_eq]
  rcases hc with hc | rfl | hc | rfl | hc | rfl | rfl | rfl | rfl
  · exact (hattempt c hc).2
  · decide
  · exact (isField_uid o c hc).2
  · decide
  · exact (isField_resourceVersion o c hc).2
  all_goals decide

/-- An object under the marker of the attempt is read as it is. -/
theorem readMetadata_text {attempt : Text} (hattempt : IsField attempt) {o : Object}
    (h : o.marker = attempt) :
    readMetadata o.text = some ⟨attempt, o.uid, o.resourceVersion⟩ := by
  have hline := takeWhile_text hattempt h
  have hfirst : takeField o.text =
      (attempt, o.uid ++ '|' :: (o.resourceVersion ++ ['|', 'E', 'N', 'D'])) := by
    rw [Object.text, h]
    exact takeField_append hattempt _
  have hsecond := takeField_append (isField_uid o) (o.resourceVersion ++ ['|', 'E', 'N', 'D'])
  have hthird := takeField_append (isField_resourceVersion o) ['E', 'N', 'D']
  have hfourth : takeField ['E', 'N', 'D'] = (['E', 'N', 'D'], []) := by decide
  have hlast : lastField [] = [] := by decide
  simp only [readMetadata, hline, hfirst, hsecond, hthird, hfourth, hlast, o.uid_canonical,
    isResourceVersion_object, and_self, if_true]

/-- The identity of the attempt is only read from a marker that begins with it. -/
theorem isSigned_of_readMetadata {attempt : Text} {o : Object} {m : Metadata}
    (h : readMetadata o.text = some m) (hm : m.attempt = attempt) : o.IsSigned attempt := by
  have hfield : m.attempt = (takeField (o.text.takeWhile (· ≠ '\n'))).1 := by
    rw [readMetadata] at h
    split at h
    · rw [← Option.some.inj h]
    · cases h
  rw [Object.IsSigned, ← hm, hfield, takeField, List.takeWhile_takeWhile, Object.text]
  clear h hfield hm
  induction o.marker with
  | nil => simp
  | cons c marker ih =>
    rw [List.cons_append, List.takeWhile_cons, List.takeWhile_cons, ih]
    by_cases hpipe : c = '|' <;> by_cases hline : c = '\n' <;> simp [hpipe, hline]

/-! ## What the server keeps -/

/-- The objects of the attempt are those that its requests have created. They bear its marker unless
others have changed it, nothing else does, and an object that was read is unchanged or has a later
version. -/
structure Sound (attempt : Text) (ours : Set Text) (w : World) : Prop where
  issued : ours ⊆ w.issued
  signed : ∀ e o, w.objects e = some o → o.IsSigned attempt → o.uid ∈ ours ∧ o.marker = attempt
  marked : ∀ e o, w.objects e = some o → o.uid ∈ ours → o.uid ∈ w.stripped ∨ o.marker = attempt
  read_issued : ∀ e o, (e, some o) ∈ w.log → o.uid ∈ w.issued
  read_before : ∀ e o, (e, some o) ∈ w.log → ∀ o', w.objects e = some o' → o'.uid = o.uid →
    o' = o ∨ o.version < o'.version

/-- What every step of the cluster has in common: objects go, and new ones have new identities. -/
structure Evolves (w w' : World) : Prop where
  issued : w.issued ⊆ w'.issued
  stripped : w.stripped ⊆ w'.stripped
  log : ∀ x ∈ w.log, x ∈ w'.log
  objects : ∀ e o', w'.objects e = some o' →
    (∃ o, w.objects e = some o ∧ o.uid = o'.uid) ∨ o'.uid ∉ w.issued

section Steps

variable {attempt : Text} {ours : Set Text} {w w' : World} {path : Text → Option Text}

theorem Interferes.evolves (h : Interferes attempt w w') : Evolves w w' where
  issued := h.issued
  stripped := h.stripped
  log x hx := by
    rwa [h.log]
  objects e o' ho' := by
    rcases h.objects e o' ho' with ⟨o, ho, huid, -, -⟩ | ⟨hnew, -⟩
    · exact .inl ⟨o, ho, huid⟩
    · exact .inr hnew

theorem Interferes.sound (h : Interferes attempt w w') (hw : Sound attempt ours w) :
    Sound attempt ours w' where
  issued := hw.issued.trans h.issued
  signed e o' ho' hsigned := by
    rcases h.objects e o' ho' with ⟨o, ho, huid, -, hmarker | ⟨hunsigned, -⟩⟩ | ⟨-, hunsigned⟩
    · rw [Object.IsSigned, hmarker] at hsigned
      rw [← huid, hmarker]
      exact hw.signed e o ho hsigned
    · exact absurd hsigned hunsigned
    · exact absurd hsigned hunsigned
  marked e o' ho' hours := by
    rcases h.objects e o' ho' with ⟨o, ho, huid, -, hmarker | ⟨-, hstripped⟩⟩ | ⟨hnew, -⟩
    · rw [← huid] at hours ⊢
      rw [hmarker]
      exact (hw.marked e o ho hours).imp (fun hs => h.stripped hs) id
    · exact .inl hstripped
    · exact absurd (hw.issued hours) hnew
  read_issued e o ho := by
    rw [h.log] at ho
    exact h.issued (hw.read_issued e o ho)
  read_before e o ho o' ho' huid := by
    rw [h.log] at ho
    rcases h.objects e o' ho' with ⟨x, hx, hxuid, hversion, -⟩ | ⟨hnew, -⟩
    · have hread := hw.read_before e o ho x hx (hxuid.trans huid)
      rcases hversion with rfl | hlater
      · exact hread
      · rcases hread with rfl | hbefore
        · exact .inr hlater
        · exact .inr (hbefore.trans hlater)
    · rw [huid] at hnew
      exact absurd (hw.read_issued e o ho) hnew

theorem evolves_logged (w : World) (entry : Text) (seen : Option Object) :
    Evolves w (w.logged entry seen) where
  issued := subset_rfl
  stripped := subset_rfl
  log _ hx := List.mem_cons_of_mem _ hx
  objects _ o ho := .inl ⟨o, ho, rfl⟩

theorem Sound.logged (hw : Sound attempt ours w) {entry : Text} {seen : Option Object}
    (hseen : w.objects entry = seen) : Sound attempt ours (w.logged entry seen) where
  issued := hw.issued
  signed := hw.signed
  marked := hw.marked
  read_issued e o ho := by
    rcases List.mem_cons.mp ho with heq | ho
    · obtain ⟨rfl, rfl⟩ := Prod.mk.inj heq
      exact w.issued_live e o hseen
    · exact hw.read_issued e o ho
  read_before e o ho o' ho' huid := by
    rcases List.mem_cons.mp ho with heq | ho
    · obtain ⟨rfl, rfl⟩ := Prod.mk.inj heq
      rw [show w.objects e = some o' from ho'] at hseen
      exact .inl (Option.some.inj hseen)
    · exact hw.read_before e o ho o' ho' huid

/-- An object that is gone or marked for deletion. -/
theorem evolves_update {entry : Text} {o : Object} {next : Option Object}
    (hlive : w.objects entry = some o) (hnext : ∀ o' ∈ next, o'.uid = o.uid)
    (hobjects : w'.objects = Function.update w.objects entry next) (hissued : w'.issued = w.issued)
    (hstripped : w'.stripped = w.stripped) (hlog : w'.log = w.log) : Evolves w w' where
  issued := hissued.ge
  stripped := hstripped.ge
  log x hx := by
    rwa [hlog]
  objects e o' ho' := by
    rw [hobjects] at ho'
    by_cases he : e = entry
    · subst he
      rw [Function.update_self] at ho'
      exact .inl ⟨o, hlive, (hnext o' ho').symm⟩
    · rw [Function.update_of_ne he] at ho'
      exact .inl ⟨o', ho', rfl⟩

theorem Sound.update (hw : Sound attempt ours w) {entry : Text} {o : Object} {next : Option Object}
    (hlive : w.objects entry = some o)
    (hnext : ∀ o' ∈ next, o'.uid = o.uid ∧ o'.marker = o.marker ∧ o.version < o'.version)
    (hobjects : w'.objects = Function.update w.objects entry next) (hissued : w'.issued = w.issued)
    (hstripped : w'.stripped = w.stripped) (hlog : w'.log = w.log) : Sound attempt ours w' := by
  have hback : ∀ e o', w'.objects e = some o' → ∃ x, w.objects e = some x ∧ x.uid = o'.uid ∧
      o'.marker = x.marker ∧ (o' = x ∨ x.version < o'.version) := by
    intro e o' ho'
    rw [hobjects] at ho'
    by_cases he : e = entry
    · subst he
      rw [Function.update_self] at ho'
      obtain ⟨huid, hmarker, hversion⟩ := hnext o' ho'
      exact ⟨o, hlive, huid.symm, hmarker, .inr hversion⟩
    · rw [Function.update_of_ne he] at ho'
      exact ⟨o', ho', rfl, rfl, .inl rfl⟩
  constructor
  · rw [hissued]
    exact hw.issued
  · intro e o' ho' hsigned
    obtain ⟨x, hx, huid, hmarker, -⟩ := hback e o' ho'
    rw [Object.IsSigned, hmarker] at hsigned
    rw [← huid, hmarker]
    exact hw.signed e x hx hsigned
  · intro e o' ho' hours
    obtain ⟨x, hx, huid, hmarker, -⟩ := hback e o' ho'
    rw [← huid] at hours ⊢
    rw [hmarker, hstripped]
    exact hw.marked e x hx hours
  · intro e o ho
    rw [hlog] at ho
    rw [hissued]
    exact hw.read_issued e o ho
  · intro e o ho o' ho' huid
    rw [hlog] at ho
    obtain ⟨x, hx, hxuid, -, hversion⟩ := hback e o' ho'
    have hread := hw.read_before e o ho x hx (hxuid.trans huid)
    rcases hversion with rfl | hlater
    · exact hread
    · rcases hread with rfl | hbefore
      · exact .inr hlater
      · exact .inr (hbefore.trans hlater)

/-- Whatever the server answers, the cluster evolves and stays sound. -/
theorem answers_sound (hw : Sound attempt ours w) {q : Request} {r : Response q}
    (h : (apiServer path attempt).answers w q r w') : Evolves w w' ∧ Sound attempt ours w' := by
  cases q with
  | get entry =>
    cases h with
    | found hlive => exact ⟨evolves_logged w entry _, hw.logged hlive⟩
    | notFound habsent => exact ⟨evolves_logged w entry _, hw.logged habsent⟩
    | failed => exact ⟨⟨subset_rfl, subset_rfl, fun _ hx => hx, fun e o ho => .inl ⟨o, ho, rfl⟩⟩, hw⟩
  | delete target uid version =>
    cases h with
    | refused => exact ⟨⟨subset_rfl, subset_rfl, fun _ hx => hx, fun e o ho => .inl ⟨o, ho, rfl⟩⟩, hw⟩
    | deleted hpath hlive huid hversion =>
      exact ⟨evolves_update hlive (by simp) rfl rfl rfl rfl,
        hw.update hlive (by simp) rfl rfl rfl rfl⟩
    | marked hpath hlive huid hversion hn =>
      exact ⟨evolves_update hlive (by simp) rfl rfl rfl rfl,
        hw.update hlive (by simpa using hn) rfl rfl rfl rfl⟩

end Steps

/-! ## What a read shows -/

section Facts

variable (attempt : Text) (ours : Set Text)

/-- Of the objects of the attempt, only those with an identity of the set can be left under the
entry, besides those whose marker others have changed. -/
def Left (entry : Text) (uids : Set Text) (w : World) : Prop :=
  ∀ o, w.objects entry = some o → o.uid ∈ ours → o.uid ∈ w.stripped ∨ o.uid ∈ uids

/-- There is nothing left of the attempt under the entry. -/
def Settled (entry : Text) (w : World) : Prop := Left ours entry ∅ w

/-- A read has shown that there was no object. -/
def Missing (entry : Text) (w : World) : Prop := (entry, none) ∈ w.log

/-- A read has shown an object of the attempt under its marker. -/
def Recorded (entry uid version : Text) (w : World) : Prop :=
  uid ∈ ours ∧ ∃ o, (entry, some o) ∈ w.log ∧ o.marker = attempt ∧ o.uid = uid ∧
    o.resourceVersion = version

/-- What the result of a read says. -/
def Shown (entry : Text) (captured : Captured) (w : World) : Prop :=
  match captured with
  | .error => True
  | .absent => Settled ours entry w ∧ Missing entry w
  | .present m => Left ours entry {m.uid} w ∧
      (m.attempt ≠ attempt → Settled ours entry w) ∧
      (m.attempt = attempt → Recorded attempt ours entry m.uid m.version w)

end Facts

section Facts

variable {attempt : Text} {ours : Set Text} {entry : Text} {w w' : World}

theorem Left.evolves {uids : Set Text} (h : Left ours entry uids w) (hours : ours ⊆ w.issued)
    (hw : Evolves w w') : Left ours entry uids w' := by
  intro o' ho' hmem
  rcases hw.objects entry o' ho' with ⟨o, ho, huid⟩ | hnew
  · rw [← huid] at hmem ⊢
    exact (h o ho hmem).imp (fun hs => hw.stripped hs) id
  · exact absurd (hours hmem) hnew

theorem Recorded.evolves {uid version : Text} (h : Recorded attempt ours entry uid version w)
    (hw : Evolves w w') : Recorded attempt ours entry uid version w' := by
  obtain ⟨hours, o, ho, hrest⟩ := h
  exact ⟨hours, o, hw.log _ ho, hrest⟩

/-- A replaced object is none of the attempt. -/
theorem Left.settled {uid uid' : Text} (h : Left ours entry {uid} w) (h' : Left ours entry {uid'} w)
    (hne : uid' ≠ uid) : Settled ours entry w := by
  intro o ho hours
  rcases h o ho hours with hs | huid
  · exact .inl hs
  · rcases h' o ho hours with hs | huid'
    · exact .inl hs
    · exact absurd (huid'.symm.trans huid) hne

theorem shown_of_answer (hattempt : IsField attempt) (hw : Sound attempt ours w) {r : Reading}
    (h : GetAnswers w entry r w') : Shown attempt ours entry r.captured w' := by
  cases h with
  | failed => exact trivial
  | notFound habsent =>
    refine ⟨fun o ho => ?_, List.mem_cons_self⟩
    rw [show w.objects entry = some o from ho] at habsent
    cases habsent
  | @found o hlive =>
    have hexact : ∀ m, readMetadata o.text = some m → o.marker = attempt →
        m = ⟨attempt, o.uid, o.resourceVersion⟩ := by
      intro m hm hmarker
      rw [readMetadata_text hattempt hmarker] at hm
      exact (Option.some.inj hm).symm
    rw [Reading.captured]
    cases hm : readMetadata o.text with
    | none => exact trivial
    | some m =>
      refine ⟨?_, ?_, ?_⟩
      · intro o' ho' hours
        obtain rfl : o = o' := Option.some.inj (hlive.symm.trans ho')
        apply (hw.marked entry o hlive hours).imp id
        intro hmarker
        rw [hexact m hm hmarker]
        rfl
      · intro hforeign o' ho' hours
        obtain rfl : o = o' := Option.some.inj (hlive.symm.trans ho')
        rcases hw.marked entry o hlive hours with hs | hmarker
        · exact .inl hs
        · rw [hexact m hm hmarker] at hforeign
          exact absurd rfl hforeign
      · intro hown
        obtain ⟨hours, hmarker⟩ := hw.signed entry o hlive (isSigned_of_readMetadata hm hown)
        rw [hexact m hm hmarker]
        exact ⟨hours, o, List.mem_cons_self, hmarker, rfl, rfl⟩

end Facts

end FluxInstall
