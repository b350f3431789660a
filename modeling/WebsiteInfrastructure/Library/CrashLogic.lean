import Mathlib

/-!
# Programs that can be killed

A program changes a state that outlives it, one atomic change after the other. It can be killed
between any two of them, it can end by itself with an exit value, and the commands it calls may
fail where faults are admitted.
-/

namespace Crash

variable {σ ε ε' α β : Type}

inductive Prog (σ ε α : Type) : Type
  | ret (a : α)
  | exit (e : ε)
  | act (f : σ → σ) (next : Prog σ ε α)
  | read (next : σ → Prog σ ε α)
  | call (next : Bool → Prog σ ε α)

namespace Prog

def bind : Prog σ ε α → (α → Prog σ ε β) → Prog σ ε β
  | ret a, k => k a
  | exit e, _ => exit e
  | act f p, k => act f (p.bind k)
  | read p, k => read fun s => (p s).bind k
  | call p, k => call fun b => (p b).bind k

instance : Monad (Prog σ ε) where
  pure := ret
  bind := bind

/-- An exit handler. -/
def trap : Prog σ ε α → (ε → Prog σ ε' α) → Prog σ ε' α
  | ret a, _ => ret a
  | exit e, h => h e
  | act f p, h => act f (p.trap h)
  | read p, h => read fun s => (p s).trap h
  | call p, h => call fun b => (p b).trap h

def modify (f : σ → σ) : Prog σ ε Unit := act f (ret ())

def get : Prog σ ε σ := read ret

/-- Whether a command succeeds. -/
def succeeds : Prog σ ε Bool := call ret

/-- A command whose failure ends the program. -/
def orExit (e : ε) : Prog σ ε Unit := call fun ok => if ok then ret () else exit e

/-- A condition whose failure ends the program. -/
def require (b : Bool) (e : ε) : Prog σ ε Unit := if b then ret () else exit e

/-- A command substitution: the program goes on after an exit in it. -/
def subshell (p : Prog σ ε α) : Prog σ ε' (Option α) :=
  (p.bind fun a => ret (some a)).trap fun _ => ret none

/-- The undisturbed run, in which every command succeeds. -/
def run : Prog σ ε α → σ → (ε ⊕ α) × σ
  | ret a, s => (.inr a, s)
  | exit e, s => (.inl e, s)
  | act f p, s => p.run (f s)
  | read p, s => (p s).run s
  | call p, s => (p true).run s

/-- The undisturbed run, cut off after a number of steps. -/
def advance : ℕ → Prog σ ε α → σ → Prog σ ε α × σ
  | 0, p, s => (p, s)
  | n + 1, act f p, s => p.advance n (f s)
  | n + 1, read p, s => (p s).advance n s
  | n + 1, call p, s => (p true).advance n s
  | _ + 1, p, s => (p, s)

end Prog

/-! ## Steps -/

/-- In which states commands may fail. -/
def anyFault : σ → Prop := fun _ => True

def noFault : σ → Prop := fun _ => False

variable {faulty : σ → Prop}

inductive Step (faulty : σ → Prop) : Prog σ ε α × σ → Prog σ ε α × σ → Prop
  | act {f : σ → σ} {p : Prog σ ε α} {s : σ} : Step faulty (.act f p, s) (p, f s)
  | read {p : σ → Prog σ ε α} {s : σ} : Step faulty (.read p, s) (p s, s)
  | ok {p : Bool → Prog σ ε α} {s : σ} : Step faulty (.call p, s) (p true, s)
  | fault {p : Bool → Prog σ ε α} {s : σ} : faulty s → Step faulty (.call p, s) (p false, s)

theorem Step.mono {faulty' : σ → Prop} {c c' : Prog σ ε α × σ} (h : Step faulty c c')
    (hfaulty : ∀ s, faulty s → faulty' s) : Step faulty' c c' := by
  cases h with
  | act => exact .act
  | read => exact .read
  | ok => exact .ok
  | fault hf => exact .fault (hfaulty _ hf)

def Reaches (faulty : σ → Prop) : Prog σ ε α × σ → Prog σ ε α × σ → Prop :=
  Relation.ReflTransGen (Step faulty)

/-- A state in which a run can be killed, or in which it ends. -/
def Leaves (faulty : σ → Prop) (p : Prog σ ε α) (s t : σ) : Prop :=
  ∃ q : Prog σ ε α, Reaches faulty (p, s) (q, t)

theorem reaches_run (p : Prog σ ε α) (s : σ) :
    Reaches faulty (p, s) ((p.run s).1.elim .exit .ret, (p.run s).2) := by
  induction p generalizing s with
  | ret a => exact .refl
  | exit e => exact .refl
  | act f p ih => exact .head .act (ih (f s))
  | read p ih => exact .head .read (ih s s)
  | call p ih => exact .head .ok (ih true s)

theorem reaches_advance (n : ℕ) (p : Prog σ ε α) (s : σ) :
    Reaches faulty (p, s) (p.advance n s) := by
  induction n generalizing p s with
  | zero => exact .refl
  | succ n ih =>
    cases p with
    | ret a => exact .refl
    | exit e => exact .refl
    | act f p => exact .head .act (ih p (f s))
    | read p => exact .head .read (ih (p s) s)
    | call p => exact .head .ok (ih (p true) s)

/-! ## Runs of composed programs -/

section Composition

variable {p q : Prog σ ε α} {s t : σ}

theorem Step.bind (h : Step faulty (p, s) (q, t)) (k : α → Prog σ ε β) :
    Step faulty (p >>= k, s) (q >>= k, t) := by
  cases h with
  | act => exact .act
  | read => exact .read
  | ok => exact .ok
  | fault hf => exact .fault hf

theorem Step.trap (h : Step faulty (p, s) (q, t)) (handler : ε → Prog σ ε' α) :
    Step faulty (p.trap handler, s) (q.trap handler, t) := by
  cases h with
  | act => exact .act
  | read => exact .read
  | ok => exact .ok
  | fault hf => exact .fault hf

theorem Reaches.bind (h : Reaches faulty (p, s) (q, t)) (k : α → Prog σ ε β) :
    Reaches faulty (p >>= k, s) (q >>= k, t) :=
  h.lift (fun c : Prog σ ε α × σ => (c.1 >>= k, c.2)) fun _ _ hstep => hstep.bind k

theorem Reaches.trap (h : Reaches faulty (p, s) (q, t)) (handler : ε → Prog σ ε' α) :
    Reaches faulty (p.trap handler, s) (q.trap handler, t) :=
  h.lift (fun c : Prog σ ε α × σ => (c.1.trap handler, c.2)) fun _ _ hstep => hstep.trap handler

/-- A program that returns has returned from its first part. -/
theorem reaches_bind_ret {k : α → Prog σ ε β} {b : β} (h : Reaches faulty (p >>= k, s) (.ret b, t)) :
    ∃ a u, Reaches faulty (p, s) (.ret a, u) ∧ Reaches faulty (k a, u) (.ret b, t) := by
  induction p generalizing s with
  | ret a => exact ⟨a, s, .refl, h⟩
  | exit e =>
    obtain heq | ⟨c, hstep, -⟩ := Relation.ReflTransGen.cases_head h
    · cases heq
    · cases hstep
  | act f p ih =>
    obtain heq | ⟨c, hstep, hrest⟩ := Relation.ReflTransGen.cases_head h
    · cases heq
    · cases hstep
      obtain ⟨a, u, hp, hk⟩ := ih hrest
      exact ⟨a, u, .head .act hp, hk⟩
  | read p ih =>
    obtain heq | ⟨c, hstep, hrest⟩ := Relation.ReflTransGen.cases_head h
    · cases heq
    · cases hstep
      obtain ⟨a, u, hp, hk⟩ := ih s hrest
      exact ⟨a, u, .head .read hp, hk⟩
  | call p ih =>
    obtain heq | ⟨c, hstep, hrest⟩ := Relation.ReflTransGen.cases_head h
    · cases heq
    · cases hstep with
      | ok =>
        obtain ⟨a, u, hp, hk⟩ := ih true hrest
        exact ⟨a, u, .head .ok hp, hk⟩
      | fault hf =>
        obtain ⟨a, u, hp, hk⟩ := ih false hrest
        exact ⟨a, u, .head (.fault hf) hp, hk⟩

/-- A program with an exit handler returns by itself, or from the handler. -/
theorem reaches_trap_ret {handler : ε → Prog σ ε' α} {a : α}
    (h : Reaches faulty (p.trap handler, s) (.ret a, t)) : Reaches faulty (p, s) (.ret a, t) ∨
      ∃ e u, Reaches faulty (p, s) (.exit e, u) ∧ Reaches faulty (handler e, u) (.ret a, t) := by
  induction p generalizing s with
  | ret b =>
    obtain heq | ⟨c, hstep, -⟩ := Relation.ReflTransGen.cases_head h
    · cases heq
      exact .inl .refl
    · cases hstep
  | exit e => exact .inr ⟨e, s, .refl, h⟩
  | act f p ih =>
    obtain heq | ⟨c, hstep, hrest⟩ := Relation.ReflTransGen.cases_head h
    · cases heq
    · cases hstep
      obtain hp | ⟨e, u, hp, hk⟩ := ih hrest
      exacts [.inl (.head .act hp), .inr ⟨e, u, .head .act hp, hk⟩]
  | read p ih =>
    obtain heq | ⟨c, hstep, hrest⟩ := Relation.ReflTransGen.cases_head h
    · cases heq
    · cases hstep
      obtain hp | ⟨e, u, hp, hk⟩ := ih s hrest
      exacts [.inl (.head .read hp), .inr ⟨e, u, .head .read hp, hk⟩]
  | call p ih =>
    obtain heq | ⟨c, hstep, hrest⟩ := Relation.ReflTransGen.cases_head h
    · cases heq
    · cases hstep with
      | ok =>
        obtain hp | ⟨e, u, hp, hk⟩ := ih true hrest
        exacts [.inl (.head .ok hp), .inr ⟨e, u, .head .ok hp, hk⟩]
      | fault hf =>
        obtain hp | ⟨e, u, hp, hk⟩ := ih false hrest
        exacts [.inl (.head (.fault hf) hp), .inr ⟨e, u, .head (.fault hf) hp, hk⟩]

end Composition

/-! ## Conditions on all runs -/

/-- Every change is admitted by `guarantee`, `post` holds on return and `onExit` on exit,
whatever commands fail where they may. -/
def Holds (faulty : σ → Prop) (guarantee : σ → σ → Prop) (post : α → σ → Prop) (onExit : ε → σ → Prop) :
    Prog σ ε α → σ → Prop
  | .ret a, s => post a s
  | .exit e, s => onExit e s
  | .act f p, s => guarantee s (f s) ∧ Holds faulty guarantee post onExit p (f s)
  | .read p, s => Holds faulty guarantee post onExit (p s) s
  | .call p, s => Holds faulty guarantee post onExit (p true) s ∧
      (faulty s → Holds faulty guarantee post onExit (p false) s)

section Rules

variable {guarantee guarantee' : σ → σ → Prop} {post post' : α → σ → Prop}
  {onExit onExit' : ε → σ → Prop} {s : σ}

@[simp] theorem holds_ret {a : α} : Holds faulty guarantee post onExit (.ret a) s ↔ post a s :=
  Iff.rfl

@[simp] theorem holds_pure {a : α} :
    Holds faulty guarantee post onExit (pure a : Prog σ ε α) s ↔ post a s := Iff.rfl

@[simp] theorem holds_exit {e : ε} :
    Holds faulty guarantee post onExit (.exit e : Prog σ ε α) s ↔ onExit e s := Iff.rfl

@[simp] theorem holds_read {p : σ → Prog σ ε α} :
    Holds faulty guarantee post onExit (.read p) s ↔ Holds faulty guarantee post onExit (p s) s :=
  Iff.rfl

@[simp] theorem holds_call {p : Bool → Prog σ ε α} :
    Holds faulty guarantee post onExit (.call p) s ↔ Holds faulty guarantee post onExit (p true) s ∧
      (faulty s → Holds faulty guarantee post onExit (p false) s) := Iff.rfl

@[simp] theorem holds_modify {f : σ → σ} {post : Unit → σ → Prop} :
    Holds faulty guarantee post onExit (.modify f : Prog σ ε Unit) s ↔
      guarantee s (f s) ∧ post () (f s) := Iff.rfl

@[simp] theorem holds_get {post : σ → σ → Prop} :
    Holds faulty guarantee post onExit (.get : Prog σ ε σ) s ↔ post s s := Iff.rfl

@[simp] theorem holds_succeeds {post : Bool → σ → Prop} :
    Holds faulty guarantee post onExit (.succeeds : Prog σ ε Bool) s ↔
      post true s ∧ (faulty s → post false s) := Iff.rfl

@[simp] theorem holds_orExit {e : ε} {post : Unit → σ → Prop} :
    Holds faulty guarantee post onExit (.orExit e : Prog σ ε Unit) s ↔
      post () s ∧ (faulty s → onExit e s) := by
  simp [Prog.orExit]

@[simp] theorem holds_require {b : Bool} {e : ε} {post : Unit → σ → Prop} :
    Holds faulty guarantee post onExit (.require b e : Prog σ ε Unit) s ↔
      if b then post () s else onExit e s := by
  cases b <;> simp [Prog.require]

theorem holds_bind' {p : Prog σ ε α} {k : α → Prog σ ε β} {post : β → σ → Prop} :
    Holds faulty guarantee post onExit (p.bind k) s ↔
      Holds faulty guarantee (fun a t => Holds faulty guarantee post onExit (k a) t) onExit p s := by
  induction p generalizing s with
  | ret a => exact Iff.rfl
  | exit e => exact Iff.rfl
  | act f p ih => exact and_congr_right fun _ => ih
  | read p ih => exact ih s
  | call p ih => exact and_congr (ih true) (imp_congr_right fun _ => ih false)

@[simp] theorem holds_bind {p : Prog σ ε α} {k : α → Prog σ ε β} {post : β → σ → Prop} :
    Holds faulty guarantee post onExit (p >>= k) s ↔
      Holds faulty guarantee (fun a t => Holds faulty guarantee post onExit (k a) t) onExit p s :=
  holds_bind'

@[simp] theorem holds_trap {p : Prog σ ε α} {h : ε → Prog σ ε' α} {onExit : ε' → σ → Prop} :
    Holds faulty guarantee post onExit (p.trap h) s ↔
      Holds faulty guarantee post (fun e t => Holds faulty guarantee post onExit (h e) t) p s := by
  induction p generalizing s with
  | ret a => exact Iff.rfl
  | exit e => exact Iff.rfl
  | act f p ih => exact and_congr_right fun _ => ih
  | read p ih => exact ih s
  | call p ih => exact and_congr (ih true) (imp_congr_right fun _ => ih false)

@[simp] theorem holds_subshell {p : Prog σ ε α} {post : Option α → σ → Prop} {onExit : ε' → σ → Prop} :
    Holds faulty guarantee post onExit p.subshell s ↔
      Holds faulty guarantee (fun a t => post (some a) t) (fun _ t => post none t) p s := by
  simp [Prog.subshell, holds_bind']

@[simp] theorem holds_ite {c : Prop} [Decidable c] {p q : Prog σ ε α} :
    Holds faulty guarantee post onExit (if c then p else q) s ↔
      if c then Holds faulty guarantee post onExit p s else Holds faulty guarantee post onExit q s := by
  split_ifs <;> rfl

/-- The rule of consequence. -/
theorem Holds.mono {p : Prog σ ε α} (h : Holds faulty guarantee post onExit p s)
    (hguarantee : ∀ s t, guarantee s t → guarantee' s t) (hpost : ∀ a t, post a t → post' a t)
    (hexit : ∀ e t, onExit e t → onExit' e t) : Holds faulty guarantee' post' onExit' p s := by
  induction p generalizing s with
  | ret a => exact hpost a s h
  | exit e => exact hexit e s h
  | act f p ih => exact ⟨hguarantee _ _ h.1, ih h.2⟩
  | read p ih => exact ih s h
  | call p ih => exact ⟨ih true h.1, fun hf => ih false (h.2 hf)⟩

/-- The rule of sequence, for a program whose own conditions are known. -/
theorem Holds.seq {p : Prog σ ε α} {k : α → Prog σ ε β} {post' : β → σ → Prop}
    (h : Holds faulty guarantee post onExit p s) (hexit : ∀ e t, onExit e t → onExit' e t)
    (hnext : ∀ a t, post a t → Holds faulty guarantee post' onExit' (k a) t) :
    Holds faulty guarantee post' onExit' (p >>= k) s :=
  holds_bind.mpr (h.mono (fun _ _ hg => hg) hnext hexit)

/-- The rule of consequence for what is known at the end. -/
theorem Holds.weaken {p : Prog σ ε α} (h : Holds faulty guarantee post onExit p s)
    (hpost : ∀ a t, post a t → post' a t) (hexit : ∀ e t, onExit e t → onExit' e t) :
    Holds faulty guarantee post' onExit' p s :=
  h.mono (fun _ _ hg => hg) hpost hexit

/-- What holds with faults holds with fewer of them. -/
theorem Holds.restrict {faulty' : σ → Prop} {p : Prog σ ε α}
    (h : Holds faulty guarantee post onExit p s) (hfaulty : ∀ t, faulty' t → faulty t) :
    Holds faulty' guarantee post onExit p s := by
  induction p generalizing s with
  | ret a => exact h
  | exit e => exact h
  | act f p ih => exact ⟨h.1, ih h.2⟩
  | read p ih => exact ih s h
  | call p ih => exact ⟨ih true h.1, fun hf => ih false (h.2 (hfaulty s hf))⟩

theorem Holds.and {p : Prog σ ε α} (h : Holds faulty guarantee post onExit p s)
    (h' : Holds faulty guarantee' post' onExit' p s) :
    Holds faulty (fun s t => guarantee s t ∧ guarantee' s t) (fun a t => post a t ∧ post' a t)
      (fun e t => onExit e t ∧ onExit' e t) p s := by
  induction p generalizing s with
  | ret a => exact ⟨h, h'⟩
  | exit e => exact ⟨h, h'⟩
  | act f p ih => exact ⟨⟨h.1, h'.1⟩, ih h.2 h'.2⟩
  | read p ih => exact ih s h h'
  | call p ih => exact ⟨ih true h.1 h'.1, fun hf => ih false (h.2 hf) (h'.2 hf)⟩

/-- What every change preserves can be relied on at each change and at the end. -/
theorem Holds.carry {invariant : σ → Prop} {p : Prog σ ε α}
    (h : Holds faulty guarantee post onExit p s) (hs : invariant s)
    (hpreserved : ∀ s t, invariant s → guarantee s t → invariant t) :
    Holds faulty (fun s t => guarantee s t ∧ invariant s ∧ invariant t)
      (fun a t => post a t ∧ invariant t) (fun e t => onExit e t ∧ invariant t) p s := by
  induction p generalizing s with
  | ret a => exact ⟨h, hs⟩
  | exit e => exact ⟨h, hs⟩
  | act f p ih =>
    have hnext := hpreserved _ _ hs h.1
    exact ⟨⟨h.1, hs, hnext⟩, ih h.2 hnext⟩
  | read p ih => exact ih s h hs
  | call p ih => exact ⟨ih true h.1 hs, fun hf => ih false (h.2 hf) hs⟩

/-- One step is admitted, and the rest of the program keeps its conditions. -/
theorem Holds.step {p q : Prog σ ε α} {t : σ} (h : Holds faulty guarantee post onExit p s)
    (hstep : Step faulty (p, s) (q, t)) :
    (t = s ∨ guarantee s t) ∧ Holds faulty guarantee post onExit q t := by
  cases hstep with
  | act => exact ⟨.inr h.1, h.2⟩
  | read => exact ⟨.inl rfl, h⟩
  | ok => exact ⟨.inl rfl, h.1⟩
  | fault hf => exact ⟨.inl rfl, h.2 hf⟩

/-- A step whose change of the state, if any, is admitted. -/
def AdmittedStep (faulty : σ → Prop) (guarantee : σ → σ → Prop) (c c' : Prog σ ε α × σ) : Prop :=
  Step faulty c c' ∧ (c'.2 = c.2 ∨ guarantee c.2 c'.2)

/-- Every run consists of admitted steps, and the rest of the program keeps its conditions. -/
theorem Holds.path {p : Prog σ ε α} {c : Prog σ ε α × σ} (h : Holds faulty guarantee post onExit p s)
    (hr : Reaches faulty (p, s) c) :
    Relation.ReflTransGen (AdmittedStep faulty guarantee) (p, s) c ∧
      Holds faulty guarantee post onExit c.1 c.2 := by
  induction hr with
  | refl => exact ⟨.refl, h⟩
  | tail _ hstep ih =>
    obtain ⟨hchange, hrest⟩ := ih.2.step hstep
    exact ⟨ih.1.tail ⟨hstep, hchange⟩, hrest⟩

theorem Holds.reaches {p q : Prog σ ε α} {t : σ} (h : Holds faulty guarantee post onExit p s)
    (hr : Reaches faulty (p, s) (q, t)) :
    Relation.ReflTransGen guarantee s t ∧ Holds faulty guarantee post onExit q t := by
  obtain ⟨hpath, hrest⟩ := h.path hr
  refine ⟨hpath.lift' Prod.snd fun c c' hstep => ?_, hrest⟩
  obtain hsame | hchange := hstep.2
  · show Relation.ReflTransGen guarantee c.2 c'.2
    rw [hsame]
  · exact .single hchange

/-- Whatever is left behind by a kill was reached by admitted changes. -/
theorem Holds.leaves {p : Prog σ ε α} {t : σ} (h : Holds faulty guarantee post onExit p s)
    (hl : Leaves faulty p s t) : Relation.ReflTransGen guarantee s t := by
  obtain ⟨q, hq⟩ := hl
  exact (h.reaches hq).1

theorem Holds.run {p : Prog σ ε α} (h : Holds faulty guarantee post onExit p s) :
    (p.run s).1.elim (onExit · (p.run s).2) (post · (p.run s).2) := by
  have hrest := (h.reaches (reaches_run p s)).2
  cases hrun : (p.run s).1 with
  | inl e =>
    rw [hrun] at hrest
    exact hrest
  | inr a =>
    rw [hrun] at hrest
    exact hrest

/-- A program that cannot exit returns. -/
theorem Holds.run_ret {p : Prog σ ε α} (h : Holds faulty guarantee post (fun _ _ => False) p s) :
    ∃ a, p.run s = (.inr a, (p.run s).2) ∧ post a (p.run s).2 := by
  have hrun := h.run
  cases hresult : (p.run s).1 with
  | inl e =>
    rw [hresult] at hrun
    exact hrun.elim
  | inr a =>
    rw [hresult] at hrun
    exact ⟨a, Prod.ext hresult rfl, hrun⟩

/-- An invariant of every change holds wherever the program is killed. -/
theorem Holds.invariant {invariant : σ → Prop} {p : Prog σ ε α} {t : σ}
    (h : Holds faulty (fun s t => invariant s → invariant t) post onExit p s)
    (hs : invariant s) (hl : Leaves faulty p s t) : invariant t := by
  have hchanges := h.leaves hl
  clear hl
  induction hchanges with
  | refl => exact hs
  | tail _ hchange ih => exact hchange ih

end Rules

/-- What holds of the undisturbed run, where no command may fail. -/
theorem holds_noFault_iff {p : Prog σ ε α} {post : α → σ → Prop} {onExit : ε → σ → Prop} {s : σ} :
    Holds noFault (fun _ _ => True) post onExit p s ↔
      (p.run s).1.elim (onExit · (p.run s).2) (post · (p.run s).2) := by
  induction p generalizing s with
  | ret a => exact Iff.rfl
  | exit e => exact Iff.rfl
  | act f p ih => exact (and_iff_right trivial).trans ih
  | read p ih => exact ih s
  | call p ih => exact (and_iff_left fun hf => hf.elim).trans (ih true)

/-- An invariant holds after every change. -/
def Always (faulty : σ → Prop) (invariant : σ → Prop) (p : Prog σ ε α) (s : σ) : Prop :=
  Holds faulty (fun _ t => invariant t) (fun _ t => invariant t) (fun _ t => invariant t) p s

section Always

variable {invariant : σ → Prop} {p : Prog σ ε α} {s t : σ}

theorem Always.seq {k : α → Prog σ ε β} (h : Always faulty invariant p s)
    (hk : ∀ a t, invariant t → Always faulty invariant (k a) t) :
    Always faulty invariant (p >>= k) s :=
  Holds.seq h (fun _ _ ht => ht) hk

theorem Always.ensures {post : α → σ → Prop} (h : Always faulty invariant p s)
    (hpost : ∀ a t, invariant t → post a t) :
    Holds faulty (fun _ t => invariant t) post (fun _ t => invariant t) p s :=
  h.weaken hpost fun _ _ ht => ht

theorem Always.leaves (h : Always faulty invariant p s) (hs : invariant s)
    (hl : Leaves faulty p s t) : invariant t := by
  have hpreserved : Holds faulty (fun s t => invariant s → invariant t) (fun _ t => invariant t)
      (fun _ t => invariant t) p s :=
    Holds.mono h (fun _ _ ht _ => ht) (fun _ _ ht => ht) fun _ _ ht => ht
  exact hpreserved.invariant hs hl

theorem Always.run (h : Always faulty invariant p s) (hs : invariant s) : invariant (p.run s).2 :=
  h.leaves hs ⟨_, reaches_run p s⟩

theorem Always.advance (h : Always faulty invariant p s) (hs : invariant s) (n : ℕ) :
    invariant (p.advance n s).2 :=
  h.leaves hs ⟨_, reaches_advance n p s⟩

end Always

/-! ## Points that every run passes -/

/-- Every run comes to a marked point, unless it ends with an exit that is excused. -/
def Passes (faulty : σ → Prop) (mark : Prog σ ε α → σ → Prop) (excused : ε → σ → Prop) :
    Prog σ ε α → σ → Prop
  | .ret a, s => mark (.ret a) s
  | .exit e, s => mark (.exit e) s ∨ excused e s
  | .act f p, s => mark (.act f p) s ∨ Passes faulty mark excused p (f s)
  | .read p, s => mark (.read p) s ∨ Passes faulty mark excused (p s) s
  | .call p, s => mark (.call p) s ∨ Passes faulty mark excused (p true) s ∧
      (faulty s → Passes faulty mark excused (p false) s)

section Points

variable {mark : Prog σ ε α → σ → Prop} {mark' : Prog σ ε' α → σ → Prop} {excused : ε → σ → Prop}
  {excused' : ε' → σ → Prop} {p : Prog σ ε α} {s : σ}

theorem Passes.here (h : mark p s) : Passes faulty mark excused p s := by
  cases p with
  | ret a => exact h
  | exit e => exact .inl h
  | act f p => exact .inl h
  | read p => exact .inl h
  | call p => exact .inl h

theorem Passes.step {q : Prog σ ε α} {t : σ} (h : Passes faulty mark excused p s)
    (hstep : Step faulty (p, s) (q, t)) : mark p s ∨ Passes faulty mark excused q t := by
  cases hstep with
  | act => exact h
  | read => exact h
  | ok => exact h.imp_right fun h => h.1
  | fault hf => exact h.imp_right fun h => h.2 hf

/-- A run that returns has passed a marked point. -/
theorem Passes.reached {a : α} {t : σ} (h : Passes faulty mark excused p s)
    (hr : Reaches faulty (p, s) (.ret a, t)) :
    ∃ q u, Reaches faulty (p, s) (q, u) ∧ mark q u ∧ Reaches faulty (q, u) (.ret a, t) := by
  generalize hstart : (p, s) = c at hr
  induction hr using Relation.ReflTransGen.head_induction_on generalizing p s with
  | refl =>
    cases hstart
    exact ⟨_, _, .refl, h, .refl⟩
  | @head c d hstep hrest ih =>
    subst hstart
    obtain hmark | hnext := @Passes.step _ _ _ _ _ _ _ _ d.1 d.2 h hstep
    · exact ⟨_, _, .refl, hmark, .head hstep hrest⟩
    · obtain ⟨q, u, hq, hmark, hret⟩ := ih hnext rfl
      exact ⟨q, u, .head hstep hq, hmark, hret⟩

/-- The marked point comes after the first part. -/
theorem Passes.bind {β : Type} {p : Prog σ ε β} {k : β → Prog σ ε α} {guarantee : σ → σ → Prop}
    {post : β → σ → Prop} {onExit : ε → σ → Prop} (h : Holds faulty guarantee post onExit p s)
    (hexit : ∀ e t, onExit e t → excused e t)
    (hk : ∀ a t, post a t → Passes faulty mark excused (k a) t) :
    Passes faulty mark excused (p >>= k) s := by
  induction p generalizing s with
  | ret a => exact hk a s h
  | exit e => exact .inr (hexit e s h)
  | act f p ih => exact .inr (ih h.2)
  | read p ih => exact .inr (ih s h)
  | call p ih => exact .inr ⟨ih true h.1, fun hf => ih false (h.2 hf)⟩

theorem Passes.trap {handler : ε → Prog σ ε' α} (h : Passes faulty mark excused p s)
    (hmark : ∀ q t, mark q t → mark' (q.trap handler) t)
    (hhandler : ∀ e t, excused e t → Passes faulty mark' excused' (handler e) t) :
    Passes faulty mark' excused' (p.trap handler) s := by
  induction p generalizing s with
  | ret a => exact .here (hmark _ s h)
  | exit e => exact h.elim (fun h => .here (hmark _ s h)) (hhandler e s)
  | act f p ih => exact h.imp (hmark _ s) ih
  | read p ih => exact h.imp (hmark _ s) (ih s)
  | call p ih => exact h.imp (hmark _ s) fun h => ⟨ih true h.1, fun hf => ih false (h.2 hf)⟩

/-- A program that never returns passes any point. -/
theorem Passes.of_exits {guarantee : σ → σ → Prop} {onExit : ε → σ → Prop}
    (h : Holds faulty guarantee (fun _ _ => False) onExit p s)
    (hexit : ∀ e t, onExit e t → excused e t) : Passes faulty mark excused p s := by
  induction p generalizing s with
  | ret a => exact h.elim
  | exit e => exact .inr (hexit e s h)
  | act f p ih => exact .inr (ih h.2)
  | read p ih => exact .inr (ih s h)
  | call p ih => exact .inr ⟨ih true h.1, fun hf => ih false (h.2 hf)⟩

end Points

/-- Nothing is required. -/
theorem holds_true (p : Prog σ ε α) (s : σ) :
    Holds faulty (fun _ _ => True) (fun _ _ => True) (fun _ _ => True) p s := by
  induction p generalizing s with
  | ret a => trivial
  | exit e => trivial
  | act f p ih => exact ⟨trivial, ih (f s)⟩
  | read p ih => exact ih s s
  | call p ih => exact ⟨ih true s, fun _ => ih false s⟩

end Crash
