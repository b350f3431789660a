import Mathlib

/-!
# Clients of a shared server

A client asks a server one request after the other, and between any two of them others change the
server. What a client does in every run is shown one request at a time, from what the others are
relied on to keep.
-/

namespace Interference

variable {Q : Type} {R : Q → Type} {S α β : Type}

/-- A program that returns a value, or asks a request and goes on with its answer. -/
inductive Client (Q : Type) (R : Q → Type) (α : Type)
  | done (a : α)
  | ask (q : Q) (k : R q → Client Q R α)

namespace Client

def bind (p : Client Q R α) (f : α → Client Q R β) : Client Q R β :=
  match p with
  | done a => f a
  | ask q k => ask q fun r => (k r).bind f

instance : Monad (Client Q R) where
  pure := done
  bind := bind

/-- The client that returns the answer to one request. -/
def request (q : Q) : Client Q R (R q) := ask q done

/-- A loop that carries a value. -/
def fold {σ : Type} (f : σ → α → Client Q R σ) : σ → List α → Client Q R σ
  | s, [] => done s
  | s, x :: xs => (f s x).bind fun s => fold f s xs

end Client

/-- How a server answers a request, and what others may do to it in the meantime. -/
structure Server (Q : Type) (R : Q → Type) (S : Type) where
  answers : S → (q : Q) → R q → S → Prop
  others : S → S → Prop
  refl : ∀ s, others s s

section Runs

variable (server : Server Q R S)

/-- A whole run, with what it returns and the server behind it. -/
inductive Runs : Client Q R α → S → α → S → Prop
  | done {a : α} {s t : S} (h : server.others s t) : Runs (.done a) s a t
  | ask {q : Q} {k : R q → Client Q R α} {s t u v : S} {r : R q} {a : α}
    (hothers : server.others s t) (hanswer : server.answers t q r u) (hrest : Runs (k r) u a v) :
    Runs (.ask q k) s a v

/-- The client comes to ask a request of the server in a state. -/
inductive Asks : Client Q R α → S → Q → S → Prop
  | here {q : Q} {k : R q → Client Q R α} {s t : S} (h : server.others s t) : Asks (.ask q k) s q t
  | later {q q' : Q} {k : R q → Client Q R α} {s t u v : S} {r : R q}
    (hothers : server.others s t) (hanswer : server.answers t q r u) (hrest : Asks (k r) u q' v) :
    Asks (.ask q k) s q' v

/-- Whatever the others do, every request that is asked is one that the guard admits, and what is
returned satisfies the postcondition. -/
def Holds (guard : Q → S → Prop) : Client Q R α → (α → S → Prop) → S → Prop
  | .done a, post, s => ∀ t, server.others s t → post a t
  | .ask q k, post, s => ∀ t, server.others s t → guard q t ∧
      ∀ r u, server.answers t q r u → Holds guard (k r) post u

end Runs

section Rules

variable {server : Server Q R S} {guard : Q → S → Prop} {p : Client Q R α} {post : α → S → Prop}
  {s t : S}

theorem Holds.returns (h : Holds server guard p post s) {a : α} (hrun : Runs server p s a t) :
    post a t := by
  induction hrun with
  | done hothers => exact h _ hothers
  | ask hothers hanswer _ ih => exact ih ((h _ hothers).2 _ _ hanswer)

theorem Holds.guarded (h : Holds server guard p post s) {q : Q} (hask : Asks server p s q t) :
    guard q t := by
  induction hask with
  | here hothers => exact (h _ hothers).1
  | later hothers hanswer _ ih => exact ih ((h _ hothers).2 _ _ hanswer)

theorem Holds.mono {post' : α → S → Prop} (h : Holds server guard p post s)
    (hpost : ∀ a t, post a t → post' a t) : Holds server guard p post' s := by
  induction p generalizing s with
  | done a => exact fun t hothers => hpost a t (h t hothers)
  | ask q k ih =>
    intro t hothers
    obtain ⟨hguard, hrest⟩ := h t hothers
    exact ⟨hguard, fun r u hanswer => ih r (hrest r u hanswer)⟩

theorem holds_done {a : α} (hkept : ∀ t, server.others s t → post a t) :
    Holds server guard (.done a) post s := hkept

theorem holds_bind {f : α → Client Q R β} {post : β → S → Prop}
    (h : Holds server guard p (fun a t => Holds server guard (f a) post t) s) :
    Holds server guard (p.bind f) post s := by
  induction p generalizing s with
  | done a => exact h s (server.refl s)
  | ask q k ih =>
    intro t hothers
    obtain ⟨hguard, hrest⟩ := h t hothers
    exact ⟨hguard, fun r u hanswer => ih r (hrest r u hanswer)⟩

theorem holds_request {q : Q} {post : R q → S → Prop} (hguard : ∀ t, server.others s t → guard q t)
    (hpost : ∀ t, server.others s t → ∀ r u, server.answers t q r u →
      ∀ v, server.others u v → post r v) :
    Holds server guard (Client.request q) post s :=
  fun t hothers => ⟨hguard t hothers, fun r u hanswer v hv => hpost t hothers r u hanswer v hv⟩

/-- A loop keeps an invariant of the items taken so far that each turn keeps. -/
theorem holds_fold {σ : Type} {f : σ → α → Client Q R σ} (inv : List α → σ → S → Prop)
    (hothers : ∀ seen a s t, inv seen a s → server.others s t → inv seen a t)
    (xs : List α) (hstep : ∀ seen a s, ∀ x ∈ xs, inv seen a s →
      Holds server guard (f a x) (inv (seen ++ [x])) s)
    (seen : List α) {a : σ} (h : inv seen a s) :
    Holds server guard (Client.fold f a xs) (inv (seen ++ xs)) s := by
  induction xs generalizing seen a s with
  | nil =>
    rw [List.append_nil]
    exact fun t ht => hothers seen a s t h ht
  | cons x xs ih =>
    apply holds_bind
    apply (hstep seen a s x List.mem_cons_self h).mono
    intro b t hb
    have hrest := ih (fun seen a s y hy => hstep seen a s y (List.mem_cons_of_mem x hy))
      (seen ++ [x]) hb
    rwa [List.append_assoc] at hrest

end Rules

end Interference
