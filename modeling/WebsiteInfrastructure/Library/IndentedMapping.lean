import Mathlib

/-!
# Indented mappings

A mapping written with one entry a line and two more spaces for each level: the blocks that such
entries form, and the paths that they give their values.
-/

namespace Indented

variable {κ ν : Type}

/-- One line: how far it is indented, its key, and its value unless it opens a mapping. -/
structure Entry (κ ν : Type) where
  indent : ℕ
  key : κ
  value : Option ν

/-- What a mapping gives: every key by its path, and its scalar if it has one. -/
abbrev Found (κ ν : Type) := List (List κ × Option ν)

/-- The entries are one mapping at this indentation, under this path. -/
inductive Block : ℕ → List κ → List (Entry κ ν) → Found κ ν → Prop
  | nil {indent path} : Block indent path [] []
  | scalar {indent path key value rest found} (hrest : Block indent path rest found) :
      Block indent path (⟨indent, key, some value⟩ :: rest) ((path ++ [key], some value) :: found)
  | mapping {indent path key inner foundInner rest found}
      (hinner : Block (indent + 2) (path ++ [key]) inner foundInner)
      (hrest : Block indent path rest found) :
      Block indent path (⟨indent, key, none⟩ :: (inner ++ rest))
        ((path ++ [key], none) :: (foundInner ++ found))

/-- The open mappings, the innermost first, and the entries that close them one after another. -/
inductive Blocks : List (ℕ × List κ) → List (Entry κ ν) → Found κ ν → Prop
  | nil : Blocks [] [] []
  | cons {level path stack entries found rest foundRest}
      (hblock : Block level path entries found) (hrest : Blocks stack rest foundRest) :
      Blocks ((level, path) :: stack) (entries ++ rest) (found ++ foundRest)

namespace Block

variable {indent : ℕ} {path : List κ} {entries : List (Entry κ ν)} {found : Found κ ν}

theorem le_indent (h : Block indent path entries found) : ∀ e ∈ entries, indent ≤ e.indent := by
  induction h with
  | nil => simp
  | scalar _ ih =>
    intro e he
    rcases List.mem_cons.mp he with rfl | he
    · exact le_rfl
    · exact ih e he
  | mapping _ _ ihInner ihRest =>
    intro e he
    rcases List.mem_cons.mp he with rfl | he
    · exact le_rfl
    · rcases List.mem_append.mp he with he | he
      · exact (Nat.le_add_right _ _).trans (ihInner e he)
      · exact ihRest e he

/-- Every path goes on from the path of the mapping, through a key of its own. -/
theorem path_of_mem (h : Block indent path entries found) :
    ∀ f ∈ found, ∃ key more, f.1 = path ++ key :: more ∧
      ∃ value, (path ++ [key], value) ∈ found ∧ (more ≠ [] → value = none) := by
  induction h with
  | nil => simp
  | @scalar indent path key value rest found _ ih =>
    intro f hf
    rcases List.mem_cons.mp hf with rfl | hf
    · exact ⟨key, [], rfl, some value, List.mem_cons_self, fun hne => absurd rfl hne⟩
    · obtain ⟨key', more, hpath, value', hmem, hvalue⟩ := ih f hf
      exact ⟨key', more, hpath, value', List.mem_cons_of_mem _ hmem, hvalue⟩
  | @mapping indent path key inner foundInner rest found _ _ ihInner ihRest =>
    intro f hf
    rcases List.mem_cons.mp hf with rfl | hf
    · exact ⟨key, [], rfl, none, List.mem_cons_self, fun _ => rfl⟩
    · rcases List.mem_append.mp hf with hf | hf
      · obtain ⟨key', more, hpath, -⟩ := ihInner f hf
        refine ⟨key, key' :: more, by simp [hpath], none, List.mem_cons_self, fun _ => rfl⟩
      · obtain ⟨key', more, hpath, value', hmem, hvalue⟩ := ihRest f hf
        exact ⟨key', more, hpath, value',
          List.mem_cons_of_mem _ (List.mem_append_right _ hmem), hvalue⟩

/-- The entries at the indentation of the mapping are its keys. -/
theorem mem_own (h : Block indent path entries found) {key : κ} {value : Option ν} :
    (⟨indent, key, value⟩ : Entry κ ν) ∈ entries ↔ (path ++ [key], value) ∈ found := by
  induction h with
  | nil => simp
  | @scalar indent path key' value' rest found _ ih => simp [ih]
  | @mapping indent path key' inner foundInner rest found hinner _ _ ihRest =>
    have hdeep : (⟨indent, key, value⟩ : Entry κ ν) ∉ inner := by
      intro hmem
      have hle := hinner.le_indent _ hmem
      simp at hle
    have hlong : (path ++ [key], value) ∉ foundInner := by
      intro hmem
      obtain ⟨key'', more, hpath, -⟩ := hinner.path_of_mem _ hmem
      have hlength := congrArg List.length hpath
      simp at hlength
    simp [hdeep, hlong, ihRest]

end Block

/-- Where no key comes twice, the one found is the one there is. -/
theorem lookup_eq_some {α β : Type} [BEq α] [LawfulBEq α] {entries : List (α × β)}
    (hnodup : (entries.map Prod.fst).Nodup) {key : α} {value : β} :
    entries.lookup key = some value ↔ (key, value) ∈ entries := by
  induction entries with
  | nil => simp
  | cons e entries ih =>
    obtain ⟨key', value'⟩ := e
    rw [List.map_cons, List.nodup_cons] at hnodup
    by_cases hkey : key = key'
    · subst hkey
      have habsent : (key, value) ∉ entries :=
        fun hmem => hnodup.1 (List.mem_map.mpr ⟨_, hmem, rfl⟩)
      simp [List.lookup_cons_self, habsent, eq_comm]
    · have hbeq : (key == key') = false := beq_false_of_ne hkey
      rw [List.lookup_cons, hbeq]
      simp [ih hnodup.2, hkey]

/-! ## Reading entries with a stack of contexts -/

section Read

variable [DecidableEq κ]

/-- What was found, and the path of each mapping that is open. -/
structure Progress (κ ν : Type) where
  found : Found κ ν
  contexts : List (ℕ × List κ)

/-- One entry: it closes the deeper mappings, and its own must be open and without its key. -/
def readEntry (progress : Progress κ ν) (e : Entry κ ν) : Option (Progress κ ν) :=
  let contexts := progress.contexts.filter (·.1 ≤ e.indent)
  match contexts.lookup e.indent with
  | none => none
  | some parent =>
    if parent ++ [e.key] ∈ progress.found.map Prod.fst then none
    else
      let others := contexts.filter (·.1 ≠ e.indent + 2)
      some ⟨progress.found ++ [(parent ++ [e.key], e.value)],
        if e.value.isNone then (e.indent + 2, parent ++ [e.key]) :: others else others⟩

def readEntries (progress : Progress κ ν) : List (Entry κ ν) → Option (Progress κ ν)
  | [] => some progress
  | e :: entries => do
    let progress ← readEntry progress e
    readEntries progress entries

/-- Open mappings, each two deeper than the next. -/
def IsStack (base : ℕ) : List (ℕ × List κ) → Prop
  | [] => True
  | (level, _) :: stack => level = base + 2 * stack.length ∧ IsStack base stack

omit [DecidableEq κ] in
theorem IsStack.le {base : ℕ} {stack : List (ℕ × List κ)} (h : IsStack base stack) :
    ∀ c ∈ stack, c.1 < base + 2 * stack.length := by
  induction stack with
  | nil => simp
  | cons c stack ih =>
    obtain ⟨level, path⟩ := c
    obtain ⟨rfl, hstack⟩ := h
    intro c hc
    rcases List.mem_cons.mp hc with rfl | hc
    · simp
    · have hlt := ih hstack c hc
      simp only [List.length_cons]
      omega

omit [DecidableEq κ] in
/-- The mappings that an entry leaves open, and the one of its own indentation on top. -/
theorem IsStack.filter_le {base i : ℕ} {stack : List (ℕ × List κ)} (h : IsStack base stack) :
    (∃ closed, stack = closed ++ stack.filter (·.1 ≤ i)) ∧
      IsStack base (stack.filter (·.1 ≤ i)) ∧
      ∀ parent, (stack.filter (·.1 ≤ i)).lookup i = some parent →
        ∃ rest, stack.filter (·.1 ≤ i) = (i, parent) :: rest ∧ ∀ c ∈ rest, c.1 < i := by
  induction stack with
  | nil => exact ⟨⟨[], rfl⟩, trivial, by simp⟩
  | cons c stack ih =>
    obtain ⟨level, path⟩ := c
    obtain ⟨hlevel, hstack⟩ := h
    obtain ⟨⟨closed, hclosed⟩, hfiltered, hlookup⟩ := ih hstack
    by_cases hle : level ≤ i
    · have hall : stack.filter (·.1 ≤ i) = stack := by
        rw [List.filter_eq_self]
        intro c hc
        have hlt := hstack.le c hc
        simp only [decide_eq_true_eq]
        omega
      rw [List.filter_cons_of_pos (by simpa using hle), hall]
      refine ⟨⟨[], rfl⟩, ⟨hlevel, hstack⟩, fun parent hparent => ?_⟩
      have hlower : ∀ c ∈ stack, c.1 < level := fun c hc => hlevel ▸ hstack.le c hc
      by_cases heq : i = level
      · subst heq
        rw [List.lookup_cons_self] at hparent
        obtain rfl := Option.some.inj hparent
        exact ⟨stack, rfl, hlower⟩
      · rw [List.lookup_cons, beq_false_of_ne heq] at hparent
        obtain ⟨before, after, hsplit, -⟩ := List.lookup_eq_some_iff.mp hparent
        have hlt := hlower (i, parent) (by rw [hsplit]; simp)
        simp only at hlt
        omega
    · rw [List.filter_cons_of_neg (by simpa using hle)]
      exact ⟨⟨(level, path) :: closed, by rw [List.cons_append, ← hclosed]⟩, hfiltered, hlookup⟩

omit [DecidableEq κ] in
/-- Mappings may close without a further entry. -/
theorem Blocks.closed {closed stack : List (ℕ × List κ)} {entries : List (Entry κ ν)}
    {found : Found κ ν} (h : Blocks stack entries found) : Blocks (closed ++ stack) entries found := by
  induction closed with
  | nil => exact h
  | cons c closed ih =>
    obtain ⟨level, path⟩ := c
    exact .cons .nil ih

omit [DecidableEq κ] in
theorem Blocks.none (stack : List (ℕ × List κ)) : Blocks stack ([] : List (Entry κ ν)) [] := by
  have h : Blocks (stack ++ []) ([] : List (Entry κ ν)) [] := Blocks.closed .nil
  rwa [List.append_nil] at h

/-- What the reader takes with a stack of open mappings are the blocks of these mappings, and it
finds no path twice. -/
theorem readEntries_blocks {base : ℕ} {entries : List (Entry κ ν)} {progress result : Progress κ ν}
    (hstack : IsStack base progress.contexts) (hnodup : (progress.found.map Prod.fst).Nodup)
    (h : readEntries progress entries = some result) :
    (result.found.map Prod.fst).Nodup ∧
      ∃ more, result.found = progress.found ++ more ∧ Blocks progress.contexts entries more := by
  induction entries generalizing progress with
  | nil =>
    obtain rfl := Option.some.inj h
    exact ⟨hnodup, [], by simp, .none _⟩
  | cons e entries ih =>
    rw [readEntries, Option.bind_eq_bind, Option.bind_eq_some_iff] at h
    obtain ⟨next, hnext, hrest⟩ := h
    obtain ⟨⟨closed, hclosed⟩, hfiltered, hlookup⟩ := hstack.filter_le (i := e.indent)
    unfold readEntry at hnext
    dsimp only at hnext
    split at hnext
    · cases hnext
    · next parent hparent =>
      split at hnext
      · cases hnext
      · next hnew =>
        obtain rfl := Option.some.inj hnext
        obtain ⟨rest, htop, hlower⟩ := hlookup parent hparent
        have hothers : (progress.contexts.filter (·.1 ≤ e.indent)).filter (·.1 ≠ e.indent + 2) =
            (e.indent, parent) :: rest := by
          rw [htop, List.filter_eq_self]
          intro c hc
          have hle : c.1 ≤ e.indent := by
            rcases List.mem_cons.mp hc with rfl | hc
            · exact le_rfl
            · exact (hlower c hc).le
          simp only [decide_eq_true_eq]
          omega
        have hnodup' : ((progress.found ++ [(parent ++ [e.key], e.value)]).map Prod.fst).Nodup := by
          rw [List.map_append, List.nodup_append]
          refine ⟨hnodup, by simp, fun a ha b hb heq => hnew ?_⟩
          obtain rfl : b = parent ++ [e.key] := by simpa using hb
          exact heq ▸ ha
        rw [htop] at hfiltered hclosed
        rw [hothers] at hrest
        rw [hclosed]
        obtain ⟨indent, key, value⟩ := e
        cases value with
        | some value =>
          obtain ⟨hresult, more, hfound, hblocks⟩ := ih hfiltered hnodup' hrest
          refine ⟨hresult, (parent ++ [key], some value) :: more, by rw [hfound]; simp, .closed ?_⟩
          cases hblocks with
          | cons hblock hmore => exact .cons (.scalar hblock) hmore
        | none =>
          have hopened : IsStack base ((indent + 2, parent ++ [key]) :: (indent, parent) :: rest) := by
            refine ⟨?_, hfiltered⟩
            have hlevel : indent = base + 2 * rest.length := hfiltered.1
            rw [List.length_cons]
            omega
          obtain ⟨hresult, more, hfound, hblocks⟩ := ih hopened hnodup' hrest
          refine ⟨hresult, (parent ++ [key], none) :: more, by rw [hfound]; simp, .closed ?_⟩
          cases hblocks with
          | cons hinner hblocks =>
            cases hblocks with
            | cons hblock hmore =>
              rw [← List.append_assoc, ← List.append_assoc]
              exact .cons (.mapping hinner hblock) hmore

end Read

/-! ## Walking down a path -/

section Walk

variable [DecidableEq κ]

/-- The entries with this key at this indentation, each with what follows it. -/
def ownMatches (indent : ℕ) (key : κ) : List (Entry κ ν) → List (Option ν × List (Entry κ ν))
  | [] => []
  | e :: entries =>
    if e.indent = indent ∧ e.key = key then (e.value, entries) :: ownMatches indent key entries
    else ownMatches indent key entries

/-- The value of the one entry with this key, and the entries that are indented under it. -/
def child (indent : ℕ) (key : κ) (entries : List (Entry κ ν)) :
    Option (Option ν × List (Entry κ ν)) :=
  match ownMatches indent key entries with
  | [(value, after)] => some (value, after.takeWhile (indent < ·.indent))
  | _ => none

/-- The scalar at the end of a path. -/
def walk (indent : ℕ) : List κ → List (Entry κ ν) → Option ν
  | [], _ => none
  | [key], entries => do
    let (value, _) ← child indent key entries
    value
  | key :: keys, entries => do
    let (value, nested) ← child indent key entries
    if value.isNone then walk (indent + 2) keys nested else none

theorem ownMatches_append (indent : ℕ) (key : κ) {front : List (Entry κ ν)}
    (hfront : ∀ e ∈ front, ¬ (e.indent = indent ∧ e.key = key)) (rest : List (Entry κ ν)) :
    ownMatches indent key (front ++ rest) = ownMatches indent key rest := by
  induction front with
  | nil => rfl
  | cons e front ih =>
    rw [List.forall_mem_cons] at hfront
    rw [List.cons_append, ownMatches, if_neg hfront.1, ih hfront.2]

theorem ownMatches_eq_nil {indent : ℕ} {key : κ} {entries : List (Entry κ ν)}
    (h : ∀ e ∈ entries, ¬ (e.indent = indent ∧ e.key = key)) : ownMatches indent key entries = [] := by
  have happend := ownMatches_append indent key h []
  rwa [List.append_nil] at happend

namespace Block

variable {indent : ℕ} {path : List κ} {entries : List (Entry κ ν)} {found : Found κ ν}

omit [DecidableEq κ] in
/-- A mapping that does not find a key has no entry of it. -/
theorem no_own (h : Block indent path entries found) {key : κ}
    (habsent : path ++ [key] ∉ found.map Prod.fst) :
    ∀ e ∈ entries, ¬ (e.indent = indent ∧ e.key = key) := by
  rintro ⟨i, k, value⟩ he ⟨rfl, rfl⟩
  exact habsent (List.mem_map.mpr ⟨_, h.mem_own.mp he, rfl⟩)

omit [DecidableEq κ] in
/-- A mapping ends where the next entry is indented no deeper than what holds it. -/
theorem takeWhile_deeper (h : Block (indent + 2) path entries found) {rest : List (Entry κ ν)}
    {path' : List κ} {found' : Found κ ν} (hrest : Block indent path' rest found') :
    (entries ++ rest).takeWhile (fun e => indent < e.indent) = entries := by
  have hdeep : ∀ e ∈ entries, decide (indent < e.indent) = true := by
    intro e he
    have hle := h.le_indent e he
    simp only [decide_eq_true_eq]
    omega
  rw [List.takeWhile_append_of_pos hdeep]
  cases hrest <;> simp

/-- A key that a mapping finds once has one entry, and under it stands what is found through it. -/
theorem ownMatches_of_mem (h : Block indent path entries found)
    (hnodup : (found.map Prod.fst).Nodup) {key : κ} {value : Option ν}
    (hmem : (path ++ [key], value) ∈ found) :
    ∃ after, ownMatches indent key entries = [(value, after)] ∧
      (value = none → ∃ inner,
        Block (indent + 2) (path ++ [key]) (after.takeWhile (indent < ·.indent)) inner ∧
          (inner.map Prod.fst).Nodup ∧
          ∀ keys v, keys ≠ [] →
            ((path ++ key :: keys, v) ∈ found ↔ (path ++ key :: keys, v) ∈ inner)) := by
  induction h with
  | nil => cases hmem
  | @scalar indent path key' value' rest found hrest ih =>
    rw [List.map_cons, List.nodup_cons] at hnodup
    by_cases hkey : key' = key
    · subst hkey
      have hvalue : value = some value' := by
        rcases List.mem_cons.mp hmem with heq | hmem
        · exact (Prod.mk.inj heq).2
        · exact absurd (List.mem_map.mpr ⟨_, hmem, rfl⟩) hnodup.1
      subst hvalue
      refine ⟨rest, ?_, by simp⟩
      rw [ownMatches, if_pos ⟨rfl, rfl⟩, ownMatches_eq_nil (hrest.no_own hnodup.1)]
    · have hmem' : (path ++ [key], value) ∈ found := by
        rcases List.mem_cons.mp hmem with heq | hmem
        · simp [Ne.symm hkey] at heq
        · exact hmem
      obtain ⟨after, hown, hinner⟩ := ih hnodup.2 hmem'
      refine ⟨after, by rw [ownMatches, if_neg (by simp [hkey]), hown], fun hnone => ?_⟩
      obtain ⟨inner, hblock, hdistinct, hsame⟩ := hinner hnone
      refine ⟨inner, hblock, hdistinct, fun keys v hkeys => ?_⟩
      rw [← hsame keys v hkeys, List.mem_cons]
      simp [Ne.symm hkey]
  | @mapping indent path key' nested foundNested rest found hnested hrest _ ih =>
    rw [List.map_cons, List.nodup_cons, List.map_append, List.mem_append, not_or,
      List.nodup_append] at hnodup
    obtain ⟨⟨-, hfresh⟩, hnestedNodup, hrestNodup, -⟩ := hnodup
    have hdeep : ∀ e ∈ nested, ¬ (e.indent = indent ∧ e.key = key) := by
      rintro e he ⟨heq, -⟩
      have hle := hnested.le_indent e he
      omega
    by_cases hkey : key' = key
    · subst hkey
      have hlong : (path ++ [key'], value) ∉ foundNested := by
        intro hmem
        obtain ⟨key'', more, hpath, -⟩ := hnested.path_of_mem _ hmem
        have hlength := congrArg List.length hpath
        simp at hlength
      have hvalue : value = none := by
        rcases List.mem_cons.mp hmem with heq | hmem
        · exact (Prod.mk.inj heq).2
        · rcases List.mem_append.mp hmem with hmem | hmem
          · exact absurd hmem hlong
          · exact absurd (List.mem_map.mpr ⟨_, hmem, rfl⟩) hfresh
      subst hvalue
      refine ⟨nested ++ rest, ?_, fun _ => ⟨foundNested, ?_, hnestedNodup, fun keys v hkeys => ?_⟩⟩
      · rw [ownMatches, if_pos ⟨rfl, rfl⟩, ownMatches_append indent key' hdeep,
          ownMatches_eq_nil (hrest.no_own hfresh)]
      · rw [hnested.takeWhile_deeper hrest]
        exact hnested
      · constructor
        · intro hmem
          rcases List.mem_cons.mp hmem with heq | hmem
          · have hpath := (Prod.mk.inj heq).1
            simp [hkeys] at hpath
          · rcases List.mem_append.mp hmem with hmem | hmem
            · exact hmem
            · obtain ⟨key'', more, hpath, value', hown, -⟩ := hrest.path_of_mem _ hmem
              obtain ⟨rfl, -⟩ := List.cons.inj (List.append_cancel_left hpath)
              exact absurd (List.mem_map.mpr ⟨_, hown, rfl⟩) hfresh
        · exact fun hmem => List.mem_cons_of_mem _ (List.mem_append_left _ hmem)
    · have hother : ∀ keys v, (path ++ key :: keys, v) ∉ foundNested := by
        intro keys v hmem
        obtain ⟨key'', more, hpath, -⟩ := hnested.path_of_mem _ hmem
        rw [List.append_assoc] at hpath
        exact hkey (List.cons.inj (List.append_cancel_left hpath)).1.symm
      have hmem' : (path ++ [key], value) ∈ found := by
        rcases List.mem_cons.mp hmem with heq | hmem
        · simp [Ne.symm hkey] at heq
        · exact (List.mem_append.mp hmem).resolve_left (hother [] value)
      obtain ⟨after, hown, hinner⟩ := ih hrestNodup hmem'
      refine ⟨after, ?_, fun hnone => ?_⟩
      · rw [ownMatches, if_neg (by simp [hkey]), ownMatches_append indent key hdeep, hown]
      · obtain ⟨inner, hblock, hdistinct, hsame⟩ := hinner hnone
        refine ⟨inner, hblock, hdistinct, fun keys v hkeys => ?_⟩
        rw [← hsame keys v hkeys, List.mem_cons, List.mem_append]
        simp [hother, Ne.symm hkey]

/-- A walk along a path ends at the scalar that the mapping finds there, and nowhere else. -/
theorem walk_eq_some (h : Block indent path entries found) (hnodup : (found.map Prod.fst).Nodup)
    {keys : List κ} {v : ν} :
    walk indent keys entries = some v ↔ keys ≠ [] ∧ (path ++ keys, some v) ∈ found := by
  induction keys generalizing indent path entries found with
  | nil => simp [walk]
  | cons key keys ih =>
    by_cases hown : ∃ value, (path ++ [key], value) ∈ found
    · obtain ⟨value, hmem⟩ := hown
      obtain ⟨after, hmatches, hinner⟩ := h.ownMatches_of_mem hnodup hmem
      have hchild : child indent key entries =
          some (value, after.takeWhile (indent < ·.indent)) := by
        rw [child, hmatches]
      have hunique : ∀ other, (path ++ [key], other) ∈ found → other = value := by
        intro other hother
        have heq := List.inj_on_of_nodup_map hnodup hother hmem rfl
        exact (Prod.mk.inj heq).2
      cases keys with
      | nil =>
        have hwalk : walk indent [key] entries = value := by
          rw [walk, hchild]
          rfl
        rw [hwalk]
        constructor
        · rintro rfl
          exact ⟨List.cons_ne_nil _ _, hmem⟩
        · exact fun hsome => (hunique _ hsome.2).symm
      | cons next keys =>
        have hwalk : walk indent (key :: next :: keys) entries =
            if value.isNone then
              walk (indent + 2) (next :: keys) (after.takeWhile (indent < ·.indent))
            else none := by
          rw [walk, hchild]
          · rfl
          · simp
        rw [hwalk]
        cases value with
        | some scalar =>
          simp only [Option.isNone_some, Bool.false_eq_true, if_false, reduceCtorEq, false_iff]
          rintro ⟨-, hdeep⟩
          -- a longer path goes through a mapping, and this key holds a scalar
          obtain ⟨key', more, hpath, value', hvalue', hnone⟩ := h.path_of_mem _ hdeep
          obtain ⟨rfl, rfl⟩ := List.cons.inj (List.append_cancel_left hpath)
          have hclash := hunique _ hvalue'
          rw [hnone (List.cons_ne_nil _ _)] at hclash
          cases hclash
        | none =>
          obtain ⟨inner, hblock, hdistinct, hsame⟩ := hinner rfl
          rw [if_pos Option.isNone_none, ih hblock hdistinct, hsame (next :: keys) (some v) (List.cons_ne_nil _ _)]
          simp
    · have habsent : path ++ [key] ∉ found.map Prod.fst := by
        intro hmem
        obtain ⟨⟨p, value⟩, hfound, rfl⟩ := List.mem_map.mp hmem
        exact hown ⟨value, hfound⟩
      have hchild : child indent key entries = none := by
        rw [child, ownMatches_eq_nil (h.no_own habsent)]
      have hwalk : walk indent (key :: keys) entries = none := by
        cases keys with
        | nil => rw [walk, hchild]; rfl
        | cons next keys =>
          rw [walk, hchild]
          · rfl
          · simp
      rw [hwalk]
      simp only [reduceCtorEq, false_iff]
      rintro ⟨-, hdeep⟩
      obtain ⟨key', more, hpath, value', hvalue', -⟩ := h.path_of_mem _ hdeep
      obtain ⟨rfl, rfl⟩ := List.cons.inj (List.append_cancel_left hpath)
      exact hown ⟨value', hvalue'⟩

end Block

end Walk

end Indented
