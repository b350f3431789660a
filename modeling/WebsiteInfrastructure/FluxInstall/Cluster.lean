import Mathlib
import WebsiteInfrastructure.Library.Interference
import WebsiteInfrastructure.Library.ShellText

/-!
# The cluster of an installation

What the installer of the Flux controllers asks of the API server, and what others may do to the
cluster between two of its requests.
-/

namespace FluxInstall

open Interference ShellText

/-! ## Objects -/

/-- `[0-9a-f]` -/
def isHexDigit (c : Char) : Bool := c.isDigit || 'a' ≤ c && c ≤ 'f'

/-- `[0-9a-f]{8}-[0-9a-f]{4}-[0-9a-f]{4}-[0-9a-f]{4}-[0-9a-f]{12}` -/
def isUid (t : Text) : Bool :=
  (t.splitOn '-').map List.length = [8, 4, 4, 4, 12] && t.all fun c => c = '-' || isHexDigit c

/-- What the installer sees of an object; the marker is the annotation of the attempt as the
template of a request prints it. -/
structure Object where
  marker : Text
  uid : Text
  version : ℕ
  uid_canonical : isUid uid = true
  version_pos : 0 < version

/-- `.metadata.resourceVersion` -/
def Object.resourceVersion (o : Object) : Text := Nat.toDigits 10 o.version

/-- What the template prints of an object. -/
def Object.text (o : Object) : Text :=
  o.marker ++ '|' :: (o.uid ++ '|' :: (o.resourceVersion ++ ['|', 'E', 'N', 'D']))

/-- The marker begins with the identity of an attempt as its first field. -/
def Object.IsSigned (attempt : Text) (o : Object) : Prop :=
  o.marker.takeWhile (fun c => c ≠ '|' ∧ c ≠ '\n') = attempt

/-! ## The cluster -/

/-- The objects under the names that the script has for them, and what happened so far: the
identities that the server has assigned, those of the objects whose marker others have changed, and
what the answered reads have seen. -/
structure World where
  objects : Text → Option Object
  issued : Set Text
  stripped : Set Text
  log : List (Text × Option Object)
  issued_live : ∀ e o, objects e = some o → o.uid ∈ issued

namespace World

def logged (w : World) (entry : Text) (seen : Option Object) : World :=
  { w with log := (entry, seen) :: w.log }

/-- An object that is gone, or is about to go under a later version. -/
def without (w : World) (entry : Text) : World where
  objects := Function.update w.objects entry none
  issued := w.issued
  stripped := w.stripped
  log := w.log
  issued_live e o h := by
    by_cases he : e = entry
    · subst he
      simp at h
    · rw [Function.update_of_ne he] at h
      exact w.issued_live e o h

/-- An object under a later version. -/
def terminating (w : World) (entry : Text) (o : Object) (n : ℕ) (hlive : w.objects entry = some o)
    (hn : o.version < n) : World where
  objects := Function.update w.objects entry
    (some { o with version := n, version_pos := o.version_pos.trans hn })
  issued := w.issued
  stripped := w.stripped
  log := w.log
  issued_live e o' h := by
    by_cases he : e = entry
    · subst he
      rw [Function.update_self, Option.some.injEq] at h
      rw [← h]
      exact w.issued_live e o hlive
    · rw [Function.update_of_ne he] at h
      exact w.issued_live e o' h

end World

/-- What others may do. Every new object has a new identity and every change gives a new version.
Nobody else writes the identity of the attempt. -/
structure Interferes (attempt : Text) (w w' : World) : Prop where
  issued : w.issued ⊆ w'.issued
  stripped : w.stripped ⊆ w'.stripped
  log : w'.log = w.log
  objects : ∀ e o', w'.objects e = some o' →
    (∃ o, w.objects e = some o ∧ o.uid = o'.uid ∧ (o' = o ∨ o.version < o'.version) ∧
      (o'.marker = o.marker ∨ ¬o'.IsSigned attempt ∧ o'.uid ∈ w'.stripped)) ∨
    (o'.uid ∉ w.issued ∧ ¬o'.IsSigned attempt)

theorem Interferes.refl (attempt : Text) (w : World) : Interferes attempt w w where
  issued := subset_rfl
  stripped := subset_rfl
  log := rfl
  objects _ o' h := .inl ⟨o', h, rfl, .inl rfl, .inl rfl⟩

/-! ## Requests -/

/-- `kubectl get`, and `kubectl delete --raw` with both preconditions. -/
inductive Request
  | get (entry : Text)
  | delete (path uid version : Text)

/-- The output of a read without complaints, the report that there is no such object, or anything
else. -/
inductive Reading
  | found (output : Text)
  | notFound
  | failed

/-- The answer to a deletion is whether the command succeeded. -/
abbrev Response : Request → Type
  | .get _ => Reading
  | .delete _ _ _ => Bool

/-- The answers to a read. Any read may fail. -/
inductive GetAnswers (w : World) (entry : Text) : Reading → World → Prop
  | found {o : Object} (h : w.objects entry = some o) :
    GetAnswers w entry (.found o.text) (w.logged entry (some o))
  | notFound (h : w.objects entry = none) : GetAnswers w entry .notFound (w.logged entry none)
  | failed : GetAnswers w entry .failed w

/-- The answers to a deletion, which may be lost whether it was carried out or not. The object is
gone at once, or later. -/
inductive DeleteAnswers (path : Text → Option Text) (w : World) (target uid version : Text) :
    Bool → World → Prop
  | refused : DeleteAnswers path w target uid version false w
  | deleted {e : Text} {o : Object} (hpath : path e = some target) (h : w.objects e = some o)
    (huid : o.uid = uid) (hversion : o.resourceVersion = version) (r : Bool) :
    DeleteAnswers path w target uid version r (w.without e)
  | marked {e : Text} {o : Object} {n : ℕ} (hpath : path e = some target)
    (h : w.objects e = some o) (huid : o.uid = uid) (hversion : o.resourceVersion = version)
    (hn : o.version < n) (r : Bool) :
    DeleteAnswers path w target uid version r (w.terminating e o n h hn)

/-- The API server, with the path of each object. -/
def apiServer (path : Text → Option Text) (attempt : Text) : Server Request Response World where
  answers w q r w' :=
    match q, r with
    | .get entry, r => GetAnswers w entry r w'
    | .delete target uid version, r => DeleteAnswers path w target uid version r w'
  others := Interferes attempt
  refl := Interferes.refl attempt

end FluxInstall
