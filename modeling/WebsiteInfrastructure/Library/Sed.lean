import Mathlib

/-!
# Global substitution in a line

`sed 's/.../.../g'` goes through a line from the left, replaces a match and goes on behind it. A
rule that finds no match across a point of the line can be applied to the two parts.
-/

namespace Sed

abbrev Text := List Char

/-- What a substitution does at a place of the line: how many characters behind the first one it
takes, and what it puts there. The flag says whether the place is the start of the line. -/
abbrev Rule := Bool → Text → Option (ℕ × Text)

/-- The first `skip` characters belong to the last match. -/
def replaceFrom (r : Rule) (start : Bool) (skip : ℕ) : Text → Text
  | [] => []
  | c :: cs =>
    match skip with
    | skip + 1 => replaceFrom r false skip cs
    | 0 =>
      match r start (c :: cs) with
      | none => c :: replaceFrom r false 0 cs
      | some (taken, replacement) => replacement ++ replaceFrom r false taken cs

/-- `s/.../.../g` -/
def replaceAll (r : Rule) (line : Text) : Text := replaceFrom r true 0 line

section Replace

variable {r : Rule} {start : Bool}

@[simp] theorem replaceFrom_nil (skip : ℕ) : replaceFrom r start skip [] = [] := rfl

@[simp] theorem replaceFrom_succ (skip : ℕ) (c : Char) (cs : Text) :
    replaceFrom r start (skip + 1) (c :: cs) = replaceFrom r false skip cs := rfl

theorem replaceFrom_of_none {c : Char} {cs : Text} (h : r start (c :: cs) = none) :
    replaceFrom r start 0 (c :: cs) = c :: replaceFrom r false 0 cs := by
  simp [replaceFrom, h]

theorem replaceFrom_of_some {c : Char} {cs : Text} {taken : ℕ} {replacement : Text}
    (h : r start (c :: cs) = some (taken, replacement)) :
    replaceFrom r start 0 (c :: cs) = replacement ++ replaceFrom r false taken cs := by
  simp [replaceFrom, h]

/-- Skipped characters leave no trace. -/
theorem replaceFrom_skip (u v : Text) :
    replaceFrom r false u.length (u ++ v) = replaceFrom r false 0 v := by
  induction u with
  | nil => rfl
  | cons c u ih => exact ih

/-- No match that starts in `u` depends on the text behind it. -/
def Apart (r : Rule) (u w : Text) : Prop :=
  ∀ x, x <:+ u → x ≠ [] → ∀ start, r start (x ++ w) = r start x ∧
    ∀ taken replacement, r start x = some (taken, replacement) → taken < x.length

theorem Apart.of_suffix {u v w : Text} (h : Apart r u w) (hsuffix : v <:+ u) : Apart r v w :=
  fun x hx => h x (hx.trans hsuffix)

theorem replaceFrom_append {u w : Text} (h : Apart r u w) (hu : u ≠ []) (skip : ℕ)
    (hskip : skip ≤ u.length) :
    replaceFrom r start skip (u ++ w) = replaceFrom r start skip u ++ replaceFrom r false 0 w := by
  induction u generalizing start skip with
  | nil => exact absurd rfl hu
  | cons c u ih =>
    have hrest : ∀ k ≤ u.length, replaceFrom r false k (u ++ w) =
        replaceFrom r false k u ++ replaceFrom r false 0 w := by
      intro k hk
      by_cases hnil : u = []
      · subst hnil
        have hzero : k = 0 := by simpa using hk
        subst hzero
        rfl
      · exact ih (h.of_suffix (List.suffix_cons c u)) hnil k hk
    cases skip with
    | succ skip =>
      have hle : skip ≤ u.length := by simpa using hskip
      exact hrest skip hle
    | zero =>
      obtain ⟨hsame, hinside⟩ := h (c :: u) List.suffix_rfl (by simp) start
      rw [List.cons_append] at hsame
      cases hmatch : r start (c :: u) with
      | none =>
        have hwhole := replaceFrom_of_none (hsame.trans hmatch)
        rw [List.cons_append, hwhole, replaceFrom_of_none hmatch, hrest 0 (Nat.zero_le _)]
        rfl
      | some found =>
        obtain ⟨taken, replacement⟩ := found
        have hlt : taken < (c :: u).length := hinside taken replacement hmatch
        have hle : taken ≤ u.length := Nat.lt_succ_iff.mp hlt
        have hwhole := replaceFrom_of_some (hsame.trans hmatch)
        rw [List.cons_append, hwhole, replaceFrom_of_some hmatch, hrest taken hle,
          List.append_assoc]

/-- A rule that only removes. -/
theorem replaceFrom_sublist (h : ∀ b text taken replacement,
    r b text = some (taken, replacement) → replacement = []) (skip : ℕ) (line : Text) :
    (replaceFrom r start skip line).Sublist line := by
  induction line generalizing start skip with
  | nil => exact List.Sublist.refl _
  | cons c cs ih =>
    cases skip with
    | succ skip => exact (ih skip).cons c
    | zero =>
      cases hmatch : r start (c :: cs) with
      | none =>
        rw [replaceFrom_of_none hmatch]
        exact (ih 0).cons_cons c
      | some found =>
        obtain ⟨taken, replacement⟩ := found
        rw [replaceFrom_of_some hmatch, h _ _ _ _ hmatch, List.nil_append]
        exact (ih taken).cons c

theorem mem_replaceFrom {x : Char} {skip : ℕ} {line : Text}
    (h : x ∈ replaceFrom r start skip line) : x ∈ line ∨
      ∃ b text taken replacement, r b text = some (taken, replacement) ∧ x ∈ replacement := by
  induction line generalizing start skip with
  | nil => simp at h
  | cons c cs ih =>
    cases skip with
    | succ skip =>
      rw [replaceFrom_succ] at h
      exact (ih h).imp (List.mem_cons_of_mem c) id
    | zero =>
      cases hmatch : r start (c :: cs) with
      | none =>
        rw [replaceFrom_of_none hmatch] at h
        rcases List.mem_cons.mp h with rfl | h
        · exact .inl List.mem_cons_self
        · exact (ih h).imp (List.mem_cons_of_mem c) id
      | some found =>
        obtain ⟨taken, replacement⟩ := found
        rw [replaceFrom_of_some hmatch] at h
        rcases List.mem_append.mp h with h | h
        · exact .inr ⟨_, _, _, _, hmatch, h⟩
        · exact (ih h).imp (List.mem_cons_of_mem c) id

/-- A whole match. -/
theorem replaceFrom_match {c : Char} {cs v replacement : Text}
    (h : r start (c :: (cs ++ v)) = some (cs.length, replacement)) :
    replaceFrom r start 0 (c :: (cs ++ v)) = replacement ++ replaceFrom r false 0 v := by
  rw [replaceFrom_of_some h, replaceFrom_skip]

end Replace

/-! ## Fixed sequences of classes -/

/-- A part of a regular expression without choices. -/
inductive Item
  /-- `[p]` -/
  | one (p : Char → Bool)
  /-- `[p]+` -/
  | plus (p : Char → Bool)
  /-- `[p]*` -/
  | star (p : Char → Bool)

def lit (text : Text) : List Item := text.map fun c => .one (· = c)

/-- The length of the match at the start of a text. A run is as long as it can be, so the item
behind it must not be able to take a character of its class. -/
def matchLength : List Item → Text → Option ℕ
  | [], _ => some 0
  | .one p :: items, text =>
    match text with
    | [] => none
    | c :: cs => if p c then (matchLength items cs).map (· + 1) else none
  | .plus p :: items, text =>
    let run := text.takeWhile p
    if run = [] then none else (matchLength items (text.dropWhile p)).map (· + run.length)
  | .star p :: items, text =>
    (matchLength items (text.dropWhile p)).map (· + (text.takeWhile p).length)

/-- `s/items/replacement/` -/
def fixed (items : List Item) (replacement : Text) : Rule := fun _ text =>
  match matchLength items text with
  | some (length + 1) => some (length, replacement)
  | _ => none

theorem eq_of_fixed {items : List Item} {replacement found : Text} {b : Bool} {text : Text}
    {taken : ℕ} (h : fixed items replacement b text = some (taken, found)) :
    found = replacement := by
  unfold fixed at h
  split at h
  next => exact (congrArg Prod.snd (Option.some.inj h)).symm
  next => simp at h

theorem mem_replaceAll_fixed {items : List Item} {replacement line : Text} {x : Char}
    (h : x ∈ replaceAll (fixed items replacement) line) : x ∈ line ∨ x ∈ replacement := by
  rcases mem_replaceFrom h with hline | ⟨b, text, taken, found, hmatch, hfound⟩
  · exact .inl hline
  · rw [eq_of_fixed hmatch] at hfound
    exact .inr hfound

/-- These rules do not look at where a line starts. -/
theorem replaceFrom_fixed (items : List Item) (replacement : Text) (start : Bool) (line : Text) :
    replaceFrom (fixed items replacement) start 0 line = replaceAll (fixed items replacement) line := by
  cases line with
  | nil => rfl
  | cons c cs => rfl

/-- A line that starts with a character outside of the first class keeps it. -/
theorem replaceFrom_fixed_cons {p : Char → Bool} {items : List Item} {replacement : Text}
    {start : Bool} {c : Char} (hc : p c = false) (cs : Text) :
    replaceFrom (fixed (.one p :: items) replacement) start 0 (c :: cs) =
      c :: replaceFrom (fixed (.one p :: items) replacement) false 0 cs := by
  apply replaceFrom_of_none
  simp [fixed, matchLength, hc]

section Apart

variable {items : List Item} {w : Text}

/-- The classes of the runs. -/
def Item.run : Item → Option (Char → Bool)
  | one _ => none
  | plus p => some p
  | star p => some p

/-- No run goes on into `w`, and no end of the items matches there. -/
def Avoids : List Item → Text → Prop
  | [], _ => True
  | item :: items, w => matchLength (item :: items) w = none ∧
      (∀ p ∈ item.run, w.head?.all fun c => !p c) ∧ Avoids items w

theorem takeWhile_append {p : Char → Bool} (hw : w.head?.all (fun c => !p c) = true) (x : Text) :
    (x ++ w).takeWhile p = x.takeWhile p ∧ (x ++ w).dropWhile p = x.dropWhile p ++ w := by
  induction x with
  | nil =>
    cases w with
    | nil => simp
    | cons c w =>
      have hc : p c = false := by simpa using hw
      simp [hc]
  | cons c x ih =>
    by_cases hc : p c = true
    · simp [hc, ih.1, ih.2]
    · simp [hc]

theorem matchLength_append (h : Avoids items w) (x : Text) :
    matchLength items (x ++ w) = matchLength items x := by
  induction items generalizing x with
  | nil => rfl
  | cons item items ih =>
    obtain ⟨hnone, hrun, hrest⟩ := h
    cases item with
    | one p =>
      cases x with
      | nil => exact hnone
      | cons c x => simp only [List.cons_append, matchLength, ih hrest]
    | plus p =>
      obtain ⟨htake, hdrop⟩ := takeWhile_append (hrun p rfl) x
      simp only [matchLength, htake, hdrop, ih hrest]
    | star p =>
      obtain ⟨htake, hdrop⟩ := takeWhile_append (hrun p rfl) x
      simp only [matchLength, htake, hdrop, ih hrest]

theorem matchLength_le {x : Text} {n : ℕ} (h : matchLength items x = some n) : n ≤ x.length := by
  induction items generalizing x n with
  | nil => simp [matchLength] at h; omega
  | cons item items ih =>
    have hrun : ∀ p : Char → Bool, ∀ m, matchLength items (x.dropWhile p) = some m →
        m + (x.takeWhile p).length ≤ x.length := by
      intro p m hm
      have hle := ih hm
      have hsplit := congrArg List.length (List.takeWhile_append_dropWhile (p := p) (l := x))
      rw [List.length_append] at hsplit
      omega
    cases item with
    | one p =>
      cases x with
      | nil => simp [matchLength] at h
      | cons c x =>
        simp only [matchLength] at h
        split_ifs at h
        obtain ⟨m, hm, rfl⟩ := Option.map_eq_some_iff.mp h
        have hle := ih hm
        simpa using hle
    | plus p =>
      simp only [matchLength] at h
      split_ifs at h
      obtain ⟨m, hm, rfl⟩ := Option.map_eq_some_iff.mp h
      exact hrun p m hm
    | star p =>
      simp only [matchLength] at h
      obtain ⟨m, hm, rfl⟩ := Option.map_eq_some_iff.mp h
      exact hrun p m hm

/-- A pattern is apart from a text that no end of it matches. -/
theorem apart_fixed {p : Char → Bool} (h : Avoids items w) (replacement u : Text) :
    Apart (fixed (.one p :: items) replacement) u w := by
  intro x hx hne start
  constructor
  · cases x with
    | nil => exact absurd rfl hne
    | cons c x => simp only [fixed, List.cons_append, matchLength, matchLength_append h]
  · intro taken found hfound
    unfold fixed at hfound
    split at hfound
    next length heq =>
      have hle := matchLength_le heq
      simp only [Option.some.injEq, Prod.mk.injEq] at hfound
      omega
    next => simp at hfound

theorem replaceAll_append {p : Char → Bool} (h : Avoids items w) (replacement u : Text) :
    replaceAll (fixed (.one p :: items) replacement) (u ++ w) =
      replaceAll (fixed (.one p :: items) replacement) u ++
        replaceAll (fixed (.one p :: items) replacement) w := by
  by_cases hu : u = []
  · subst hu
    rfl
  · have hapart := apart_fixed (p := p) h replacement u
    have hparts : replaceFrom (fixed (.one p :: items) replacement) true 0 (u ++ w) = _ :=
      replaceFrom_append hapart hu 0 (Nat.zero_le _)
    rwa [replaceFrom_fixed _ _ false] at hparts

end Apart

end Sed
