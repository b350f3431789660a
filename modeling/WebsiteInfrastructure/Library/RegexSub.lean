import Mathlib
import WebsiteInfrastructure.Library.RegexMatches

/-!
# Substitution

`pattern.sub` over items that each show a character, so that items can carry more than the
character: the output tells of each item whether it was kept.
-/

namespace Regex

variable {α β : Type}

/-- The items with every match replaced; `replace` gets a match and the items it takes. -/
def splice (replace : Match → List α → List α) : Cursor → List Match → List α → List α
  | _, [], items => items
  | c, m :: ms, items =>
    let before := c.rest.length - m.start.rest.length
    let inside := m.start.rest.length - m.stop.rest.length
    items.take before ++ (replace m ((items.drop before).take inside) ++
      splice replace m.stop ms (items.drop (before + inside)))

/-- `pattern.sub`, for patterns that take something -/
def Pattern.sub (r : Pattern) (shown : α → Char) (replace : Match → List α → List α)
    (items : List α) : List α :=
  splice replace (.ofText (items.map shown)) (r.findAll (items.map shown)) items

/-- A replacement text, between a group at the start of the match and one at its end. -/
structure Replacement where
  head : Option String
  text : String
  tail : Option String

/-- What stands in the place of a match; `plain` makes items of the replacement text. -/
def Replacement.apply (plain : Char → α) (replacement : Replacement) (m : Match) (taken : List α) :
    List α :=
  let kept (name : Option String) := (name.map fun name => (m.group name).length).getD 0
  taken.take (kept replacement.head) ++ (replacement.text.toList.map plain ++
    taken.drop (taken.length - kept replacement.tail))

/-! ## What becomes of the items -/

theorem mem_splice {replace : Match → List α → List α} {P : α → Prop}
    (hreplace : ∀ m taken, (∀ x ∈ taken, P x) → ∀ x ∈ replace m taken, P x) {c : Cursor}
    {ms : List Match} {items : List α} (h : ∀ x ∈ items, P x) :
    ∀ x ∈ splice replace c ms items, P x := by
  induction ms generalizing c items with
  | nil => exact h
  | cons m ms ih =>
    have hdrop : ∀ n, ∀ x ∈ items.drop n, P x := fun n x hx => h x (List.mem_of_mem_drop hx)
    rw [splice, List.forall_mem_append, List.forall_mem_append]
    refine ⟨fun x hx => h x (List.mem_of_mem_take hx), ?_, ih (hdrop _)⟩
    apply hreplace
    intro x hx
    exact hdrop _ x (List.mem_of_mem_take hx)

/-- What holds of the items and of the replacement text holds of the result. -/
theorem mem_sub {r : Pattern} {shown : α → Char} {plain : Char → α} {replacement : Replacement}
    {P : α → Prop} (hplain : ∀ c, P (plain c)) {items : List α} (h : ∀ x ∈ items, P x) :
    ∀ x ∈ r.sub shown (replacement.apply plain) items, P x := by
  apply mem_splice _ h
  intro m taken htaken
  rw [Replacement.apply, List.forall_mem_append, List.forall_mem_append, List.forall_mem_map]
  exact ⟨fun x hx => htaken x (List.mem_of_mem_take hx), fun c _ => hplain c,
    fun x hx => htaken x (List.mem_of_mem_drop hx)⟩

theorem map_splice (f : α → β) {replace : Match → List α → List α}
    {replace' : Match → List β → List β}
    (hreplace : ∀ m taken, (replace m taken).map f = replace' m (taken.map f)) (c : Cursor)
    (ms : List Match) (items : List α) :
    (splice replace c ms items).map f = splice replace' c ms (items.map f) := by
  induction ms generalizing c items with
  | nil => rfl
  | cons m ms ih =>
    rw [splice, splice, List.map_append, List.map_append, hreplace, ih, List.map_take, List.map_take,
      List.map_drop, List.map_drop]

/-- The substitution looks at the characters only. -/
theorem map_sub (f : α → β) {r : Pattern} {shown : α → Char} {shown' : β → Char}
    {plain : Char → α} {plain' : Char → β} (hshown : ∀ x, shown' (f x) = shown x)
    (hplain : ∀ c, f (plain c) = plain' c) (replacement : Replacement) (items : List α) :
    (r.sub shown (replacement.apply plain) items).map f =
      r.sub shown' (replacement.apply plain') (items.map f) := by
  have hitems : (items.map f).map shown' = items.map shown := by
    rw [List.map_map]
    exact List.map_congr_left fun x _ => hshown x
  rw [Pattern.sub, Pattern.sub, hitems]
  apply map_splice
  intro m taken
  simp only [Replacement.apply, List.map_append, List.map_take, List.map_drop, List.map_map,
    List.length_map]
  congr 3
  exact funext hplain

end Regex
