import Mathlib
import WebsiteInfrastructure.KubeadmConfig.Parser

/-!
# Block layout

Which tokens are written for which value, key by key and item by item. The parser takes a list of
tokens exactly where they are written for a value without equal keys, and then gives this value.
-/

namespace KubeadmConfig

open PythonText Raising

/-! ## What is written for a value -/

/-- The token is a line `key: raw` at this indentation. -/
structure IsPair (t : Token) (indent : ℕ) (key raw : Text) : Prop where
  indent : t.indent = indent
  noItem : t.isItem = false
  split : splitPair t.content t.line = .ok (key, raw)

/-- The token is a line `- raw` at this indentation. -/
structure IsItem (t : Token) (indent : ℕ) (raw : Text) : Prop where
  indent : t.indent = indent
  item : t.isItem = true
  raw : strip (t.content.drop 1) = raw

mutual

/-- What stands behind a key or a dash: a scalar on the same line, or a block on the lines below. -/
inductive Field : ℕ → ℕ → Text → Value → List Token → List Token → Prop
  | scalar {indent line raw value tokens} (hraw : raw ≠ [])
      (hvalue : stripScalar raw line = .ok value) : Field indent line raw value tokens tokens
  | block {indent line value tokens rest} (hblock : Block indent value tokens rest) :
      Field indent line [] value tokens rest

/-- The entries of a mapping at this indentation, and the tokens behind them -/
inductive Mapping : ℕ → Entries → List Token → List Token → Prop
  | done {indent tokens}
      (hend : ∀ t ∈ tokens.head?, t.indent < indent ∨ t.indent = indent ∧ t.isItem = true) :
      Mapping indent [] tokens tokens
  | entry {indent t key raw value entries tokens middle rest} (hpair : IsPair t indent key raw)
      (hfield : Field (indent + 2) t.line raw value tokens middle)
      (hrest : Mapping indent entries middle rest) :
      Mapping indent ((key, value) :: entries) (t :: tokens) rest

/-- The items of a sequence at this indentation, and the tokens behind them -/
inductive Sequence : ℕ → List Value → List Token → List Token → Prop
  | done {indent tokens} (hend : ∀ t ∈ tokens.head?, t.indent < indent) :
      Sequence indent [] tokens tokens
  | block {indent t item items tokens middle rest} (hitem : IsItem t indent [])
      (hblock : Block (indent + 2) item tokens middle) (hrest : Sequence indent items middle rest) :
      Sequence indent (item :: items) (t :: tokens) rest
  | mapping {indent t raw key value first entries items tokens middle last rest}
      (hitem : IsItem t indent raw) (hopens : opensPair raw = true)
      (hsplit : splitPair raw t.line = .ok (key, value))
      (hfield : Field (indent + 4) t.line value first tokens middle)
      (hentries : Mapping (indent + 2) entries middle last)
      (hrest : Sequence indent items last rest) :
      Sequence indent (.mapping ((key, first) :: entries) :: items) (t :: tokens) rest
  | scalar {indent t raw item items tokens rest} (hitem : IsItem t indent raw) (hraw : raw ≠ [])
      (hopens : opensPair raw = false) (hvalue : stripScalar raw t.line = .ok item)
      (hflat : ∀ next ∈ tokens.head?, next.indent ≤ indent)
      (hrest : Sequence indent items tokens rest) :
      Sequence indent (item :: items) (t :: tokens) rest

/-- A mapping with an entry or a sequence with an item, at this indentation -/
inductive Block : ℕ → Value → List Token → List Token → Prop
  | mapping {indent entries tokens rest} (hne : entries ≠ [])
      (hentries : Mapping indent entries tokens rest) : Block indent (.mapping entries) tokens rest
  | sequence {indent items tokens rest} (hne : items ≠ [])
      (hitems : Sequence indent items tokens rest) : Block indent (.list items) tokens rest

end

/-- No mapping in the value has two equal keys. -/
inductive Distinct : Value → Prop
  | scalar (text : Text) : Distinct (.scalar text)
  | list {items : List Value} (h : ∀ item ∈ items, Distinct item) : Distinct (.list items)
  | mapping {entries : Entries} (hkeys : (entries.map Prod.fst).Nodup)
      (h : ∀ e ∈ entries, Distinct e.2) : Distinct (.mapping entries)

/-! ## Tokens are used up -/

mutual

theorem Field.length_le {indent line : ℕ} {raw : Text} {value : Value} {tokens rest : List Token} :
    Field indent line raw value tokens rest → rest.length ≤ tokens.length
  | .scalar _ _ => le_rfl
  | .block hblock => hblock.length_lt.le

theorem Mapping.length_le {indent : ℕ} {entries : Entries} {tokens rest : List Token} :
    Mapping indent entries tokens rest → rest.length ≤ tokens.length
  | .done _ => le_rfl
  | .entry _ hfield hrest =>
    (hrest.length_le.trans hfield.length_le).trans (Nat.le_succ _)

theorem Sequence.length_le {indent : ℕ} {items : List Value} {tokens rest : List Token} :
    Sequence indent items tokens rest → rest.length ≤ tokens.length
  | .done _ => le_rfl
  | .block _ hblock hrest => (hrest.length_le.trans hblock.length_lt.le).trans (Nat.le_succ _)
  | .mapping _ _ _ hfield hentries hrest =>
    ((hrest.length_le.trans hentries.length_le).trans hfield.length_le).trans (Nat.le_succ _)
  | .scalar _ _ _ _ _ hrest => hrest.length_le.trans (Nat.le_succ _)

theorem Block.length_lt {indent : ℕ} {value : Value} {tokens rest : List Token} :
    Block indent value tokens rest → rest.length < tokens.length
  | .mapping hne (.done _) => absurd rfl hne
  | .mapping _ (.entry _ hfield hrest) =>
    Nat.lt_succ_of_le (hrest.length_le.trans hfield.length_le)
  | .sequence hne (.done _) => absurd rfl hne
  | .sequence _ (.block _ hblock hrest) =>
    Nat.lt_succ_of_le (hrest.length_le.trans hblock.length_lt.le)
  | .sequence _ (.mapping _ _ _ hfield hentries hrest) =>
    Nat.lt_succ_of_le ((hrest.length_le.trans hentries.length_le).trans hfield.length_le)
  | .sequence _ (.scalar _ _ _ _ _ hrest) => Nat.lt_succ_of_le hrest.length_le

end

/-! ## What is taken is written so -/

theorem distinct_of_stripScalar {raw : Text} {line : ℕ} {value : Value}
    (h : stripScalar raw line = .ok value) : Distinct value := by
  unfold stripScalar at h
  dsimp only at h
  split at h
  · obtain rfl := Except.ok.inj h
    exact .list (by simp)
  · split at h
    · cases h
    · split at h
      · split at h
        · cases h
        · obtain rfl := Except.ok.inj h
          exact .scalar _
      · split at h
        · cases h
        · obtain rfl := Except.ok.inj h
          exact .scalar _

/-- What a parser of mappings gives is written so, behind what it had. -/
def MappingSound (n : ℕ) : Prop :=
  ∀ {tokens indent result entries rest},
    parseMapping n tokens indent result = .ok (entries, rest) → (result.map Prod.fst).Nodup →
      ∃ more, entries = result ++ more ∧ Mapping indent more tokens rest ∧
        (entries.map Prod.fst).Nodup ∧ ∀ e ∈ more, Distinct e.2

def SequenceSound (n : ℕ) : Prop :=
  ∀ {tokens indent result items rest},
    parseSequence n tokens indent result = .ok (items, rest) →
      ∃ more, items = result ++ more ∧ Sequence indent more tokens rest ∧ ∀ v ∈ more, Distinct v

def BlockSound (n : ℕ) : Prop :=
  ∀ {tokens indent value rest}, parseBlock n tokens indent = .ok (value, rest) →
    Block indent value tokens rest ∧ Distinct value

theorem nodup_concat {result : Entries} (h : (result.map Prod.fst).Nodup) {key : Text}
    (hnew : key ∉ result.map Prod.fst) (value : Value) :
    ((result ++ [(key, value)]).map Prod.fst).Nodup := by
  rw [List.map_append, List.nodup_append]
  refine ⟨h, by simp, fun a ha b hb heq => hnew ?_⟩
  obtain rfl : b = key := by simpa using hb
  exact heq ▸ ha

theorem mappingSound_succ {n : ℕ} (hmapping : MappingSound n) (hblock : BlockSound n) :
    MappingSound (n + 1) := by
  intro tokens indent result entries rest h hnodup
  cases tokens with
  | nil =>
    obtain ⟨rfl, rfl⟩ := Prod.mk.inj (Except.ok.inj h)
    exact ⟨[], by simp, .done (by simp), hnodup, by simp⟩
  | cons t ts =>
    rw [parseMapping] at h
    split at h
    · next hlow =>
      obtain ⟨rfl, rfl⟩ := Prod.mk.inj (Except.ok.inj h)
      exact ⟨[], by simp, .done (by simp [hlow]), hnodup, by simp⟩
    · next hlow =>
      split at h
      · cases h
      · next hhigh =>
        have hindent : t.indent = indent := by omega
        split at h
        · next hitem =>
          obtain ⟨rfl, rfl⟩ := Prod.mk.inj (Except.ok.inj h)
          exact ⟨[], by simp, .done (by simp [hindent, hitem]), hnodup, by simp⟩
        · next hitem =>
          obtain ⟨⟨key, raw⟩, hsplit, h⟩ := bind_eq_ok.mp h
          obtain ⟨hnew, h⟩ := raiseIf_bind_eq_ok.mp h
          have hpair : IsPair t indent key raw := ⟨hindent, by simpa using hitem, hsplit⟩
          split at h
          · next hraw =>
            obtain ⟨value, hvalue, h⟩ := bind_eq_ok.mp h
            obtain ⟨more, rfl, hmore, hkeys, hdistinct⟩ := hmapping h (nodup_concat hnodup hnew value)
            refine ⟨(key, value) :: more, by simp, .entry hpair (.scalar hraw hvalue) hmore, hkeys,
              List.forall_mem_cons.mpr ⟨distinct_of_stripScalar hvalue, hdistinct⟩⟩
          · next hraw =>
            obtain ⟨-, h⟩ := raiseIf_bind_eq_ok.mp h
            obtain ⟨⟨value, middle⟩, hvalue, h⟩ := bind_eq_ok.mp h
            obtain ⟨hwritten, hdistinctValue⟩ := hblock hvalue
            obtain ⟨more, rfl, hmore, hkeys, hdistinct⟩ := hmapping h (nodup_concat hnodup hnew value)
            rw [not_not.mp hraw] at hpair
            refine ⟨(key, value) :: more, by simp, .entry hpair (.block hwritten) hmore, hkeys,
              List.forall_mem_cons.mpr ⟨hdistinctValue, hdistinct⟩⟩

theorem sequenceSound_succ {n : ℕ} (hmapping : MappingSound n) (hsequence : SequenceSound n)
    (hblock : BlockSound n) : SequenceSound (n + 1) := by
  intro tokens indent result items rest h
  cases tokens with
  | nil =>
    obtain ⟨rfl, rfl⟩ := Prod.mk.inj (Except.ok.inj h)
    exact ⟨[], by simp, .done (by simp), by simp⟩
  | cons t ts =>
    rw [parseSequence] at h
    split at h
    · next hlow =>
      obtain ⟨rfl, rfl⟩ := Prod.mk.inj (Except.ok.inj h)
      exact ⟨[], by simp, .done (by simp [hlow]), by simp⟩
    · obtain ⟨hat, h⟩ := raiseIf_bind_eq_ok.mp h
      rw [not_or, not_not, Bool.not_eq_false] at hat
      have hitem : IsItem t indent (strip (t.content.drop 1)) := ⟨hat.1, hat.2, rfl⟩
      generalize strip (t.content.drop 1) = raw at hitem h
      dsimp only at h
      split at h
      · next hraw =>
        subst hraw
        obtain ⟨-, h⟩ := raiseIf_bind_eq_ok.mp h
        obtain ⟨⟨item, middle⟩, hvalue, h⟩ := bind_eq_ok.mp h
        obtain ⟨hwritten, hdistinctItem⟩ := hblock hvalue
        obtain ⟨more, rfl, hmore, hdistinct⟩ := hsequence h
        exact ⟨item :: more, by simp, .block hitem hwritten hmore,
          List.forall_mem_cons.mpr ⟨hdistinctItem, hdistinct⟩⟩
      · next hraw =>
        split at h
        · next hopens =>
          obtain ⟨⟨key, value⟩, hsplit, h⟩ := bind_eq_ok.mp h
          dsimp only at h
          split at h
          · next hvalue =>
            subst hvalue
            obtain ⟨-, h⟩ := raiseIf_bind_eq_ok.mp h
            obtain ⟨⟨nested, middle⟩, hnested, h⟩ := bind_eq_ok.mp h
            obtain ⟨⟨entries, last⟩, hentries, h⟩ := bind_eq_ok.mp h
            obtain ⟨hwritten, hdistinctNested⟩ := hblock hnested
            obtain ⟨others, rfl, hothers, hkeys, hdistinctOthers⟩ := hmapping hentries (by simp)
            obtain ⟨more, rfl, hmore, hdistinct⟩ := hsequence h
            refine ⟨.mapping ((key, nested) :: others) :: more, by simp,
              .mapping hitem hopens hsplit (.block hwritten) hothers hmore,
              List.forall_mem_cons.mpr ⟨.mapping hkeys ?_, hdistinct⟩⟩
            exact List.forall_mem_cons.mpr ⟨hdistinctNested, hdistinctOthers⟩
          · next hvalue =>
            obtain ⟨first, hfirst, h⟩ := bind_eq_ok.mp h
            obtain ⟨⟨entries, last⟩, hentries, h⟩ := bind_eq_ok.mp h
            obtain ⟨others, rfl, hothers, hkeys, hdistinctOthers⟩ := hmapping hentries (by simp)
            obtain ⟨more, rfl, hmore, hdistinct⟩ := hsequence h
            refine ⟨.mapping ((key, first) :: others) :: more, by simp,
              .mapping hitem hopens hsplit (.scalar hvalue hfirst) hothers hmore,
              List.forall_mem_cons.mpr ⟨.mapping hkeys ?_, hdistinct⟩⟩
            exact List.forall_mem_cons.mpr ⟨distinct_of_stripScalar hfirst, hdistinctOthers⟩
        · next hopens =>
          obtain ⟨item, hvalue, h⟩ := bind_eq_ok.mp h
          obtain ⟨hflat, h⟩ := raiseIf_bind_eq_ok.mp h
          obtain ⟨more, rfl, hmore, hdistinct⟩ := hsequence h
          have hnext : ∀ next ∈ ts.head?, next.indent ≤ indent := by
            intro next hnext
            rw [Option.mem_def.mp hnext] at hflat
            simpa using hflat
          exact ⟨item :: more, by simp,
            .scalar hitem hraw (by simpa using hopens) hvalue hnext hmore,
            List.forall_mem_cons.mpr ⟨distinct_of_stripScalar hvalue, hdistinct⟩⟩

theorem blockSound_succ {n : ℕ} (hmapping : MappingSound n) (hsequence : SequenceSound n) :
    BlockSound (n + 1) := by
  intro tokens indent value rest h
  cases tokens with
  | nil => cases h
  | cons t ts =>
    rw [parseBlock] at h
    split at h
    · cases h
    · next hindent =>
      rw [not_not] at hindent
      split at h
      · next hitem =>
        obtain ⟨⟨items, rest'⟩, hitems, h⟩ := bind_eq_ok.mp h
        obtain ⟨rfl, rfl⟩ := Prod.mk.inj (Except.ok.inj h)
        obtain ⟨more, rfl, hmore, hdistinct⟩ := hsequence hitems
        refine ⟨.sequence ?_ hmore, .list hdistinct⟩
        rintro rfl
        cases hmore with
        | done hend =>
          have hlow := hend t rfl
          omega
      · next hitem =>
        obtain ⟨⟨entries, rest'⟩, hentries, h⟩ := bind_eq_ok.mp h
        obtain ⟨rfl, rfl⟩ := Prod.mk.inj (Except.ok.inj h)
        obtain ⟨more, rfl, hmore, hkeys, hdistinct⟩ := hmapping hentries (by simp)
        refine ⟨.mapping ?_ hmore, .mapping hkeys hdistinct⟩
        rintro rfl
        cases hmore with
        | done hend =>
          rcases hend t rfl with hlow | ⟨-, hdash⟩
          · omega
          · exact hitem hdash

theorem parse_sound (n : ℕ) : MappingSound n ∧ SequenceSound n ∧ BlockSound n := by
  induction n with
  | zero =>
    refine ⟨?_, ?_, ?_⟩
    · intro tokens indent result entries rest h
      cases h
    · intro tokens indent result items rest h
      cases h
    · intro tokens indent value rest h
      cases h
  | succ n ih =>
    obtain ⟨hmapping, hsequence, hblock⟩ := ih
    exact ⟨mappingSound_succ hmapping hblock, sequenceSound_succ hmapping hsequence hblock,
      blockSound_succ hmapping hsequence⟩

/-! ## What is written is taken -/

def MappingComplete (n : ℕ) : Prop :=
  ∀ {tokens indent entries rest} (result : Entries), 2 * tokens.length + 1 ≤ n →
    Mapping indent entries tokens rest → ((result ++ entries).map Prod.fst).Nodup →
      (∀ e ∈ entries, Distinct e.2) →
        parseMapping n tokens indent result = .ok (result ++ entries, rest)

def SequenceComplete (n : ℕ) : Prop :=
  ∀ {tokens indent items rest} (result : List Value), 2 * tokens.length + 1 ≤ n →
    Sequence indent items tokens rest → (∀ item ∈ items, Distinct item) →
      parseSequence n tokens indent result = .ok (result ++ items, rest)

def BlockComplete (n : ℕ) : Prop :=
  ∀ {tokens indent value rest}, 2 * tokens.length + 2 ≤ n → Block indent value tokens rest →
    Distinct value → parseBlock n tokens indent = .ok (value, rest)

/-- A block begins at its indentation. -/
theorem Block.head {indent : ℕ} {value : Value} {tokens rest : List Token}
    (h : Block indent value tokens rest) : ∃ t ts, tokens = t :: ts ∧ t.indent = indent := by
  cases h with
  | mapping hne hentries =>
    cases hentries with
    | done _ => exact absurd rfl hne
    | entry hpair _ _ => exact ⟨_, _, rfl, hpair.indent⟩
  | sequence hne hitems =>
    cases hitems with
    | done _ => exact absurd rfl hne
    | block hitem _ _ => exact ⟨_, _, rfl, hitem.indent⟩
    | mapping hitem _ _ _ _ _ => exact ⟨_, _, rfl, hitem.indent⟩
    | scalar hitem _ _ _ _ _ => exact ⟨_, _, rfl, hitem.indent⟩

theorem mappingComplete_succ {n : ℕ} (hmapping : MappingComplete n) (hblock : BlockComplete n) :
    MappingComplete (n + 1) := by
  intro tokens indent entries rest result hn h hnodup hdistinct
  cases h with
  | done hend =>
    rw [List.append_nil]
    cases tokens with
    | nil => rfl
    | cons t ts =>
      rw [parseMapping]
      rcases hend t rfl with hlow | ⟨hsame, hitem⟩
      · rw [if_pos hlow]
      · rw [if_neg (by omega), if_neg (by omega), if_pos hitem]
  | @entry _ t key raw value entries ts middle _ hpair hfield hrest =>
    have hindent := hpair.indent
    have hnew : key ∉ result.map Prod.fst := by
      rw [List.map_append, List.nodup_append] at hnodup
      exact fun hold => hnodup.2.2 key hold key (by simp) rfl
    rw [List.forall_mem_cons] at hdistinct
    rw [List.append_cons] at hnodup ⊢
    rw [List.length_cons] at hn
    rw [parseMapping, if_neg (by omega), if_neg (by omega), if_neg (by simp [hpair.noItem]),
      hpair.split]
    simp only [ok_bind, raiseIf_neg hnew]
    cases hfield with
    | scalar hraw hvalue =>
      rw [if_pos hraw, hvalue]
      exact hmapping _ (by omega) hrest hnodup hdistinct.2
    | block hwritten =>
      have hshort := hwritten.length_lt
      have hcalls : 2 * middle.length + 1 ≤ n := by omega
      obtain ⟨next, more, rfl, hnext⟩ := hwritten.head
      have hdeep : ¬ ((next :: more).head?.all (·.indent ≤ indent) = true) := by
        simp only [List.head?_cons, Option.all_some, decide_eq_true_eq]
        omega
      rw [if_neg (by simp), raiseIf_neg hdeep, hblock (by omega) hwritten hdistinct.1]
      exact hmapping _ hcalls hrest hnodup hdistinct.2

theorem sequenceComplete_succ {n : ℕ} (hmapping : MappingComplete n)
    (hsequence : SequenceComplete n) (hblock : BlockComplete n) : SequenceComplete (n + 1) := by
  intro tokens indent items rest result hn h hdistinct
  have hstart : ∀ {t : Token} {raw : Text}, IsItem t indent raw →
      ¬ t.indent < indent ∧ ¬ (t.indent ≠ indent ∨ t.isItem = false) := by
    intro t raw hitem
    have hindent := hitem.indent
    simp [hindent, hitem.item]
  cases h with
  | done hend =>
    rw [List.append_nil]
    cases tokens with
    | nil => rfl
    | cons t ts => rw [parseSequence, if_pos (hend t rfl)]
  | @block _ t item items ts middle _ hitem hwritten hrest =>
    rw [List.forall_mem_cons] at hdistinct
    rw [List.length_cons] at hn
    have hshort := hwritten.length_lt
    have hat := hstart hitem
    rw [parseSequence, if_neg hat.1, raiseIf_neg hat.2, hitem.raw]
    obtain ⟨next, more, rfl, hnext⟩ := hwritten.head
    have hdeep : ¬ ((next :: more).head?.all (·.indent ≤ indent) = true) := by
      simp only [List.head?_cons, Option.all_some, decide_eq_true_eq]
      omega
    rw [List.append_cons]
    simp only [ok_bind, if_true, raiseIf_neg hdeep, hblock (by omega) hwritten hdistinct.1]
    exact hsequence _ (by omega) hrest hdistinct.2
  | @mapping _ t raw key value first entries items ts middle last _ hitem hopens hsplit hfield
      hentries hrest =>
    rw [List.forall_mem_cons] at hdistinct
    rw [List.length_cons] at hn
    have hat := hstart hitem
    have hraw : raw ≠ [] := by
      rintro rfl
      cases hopens
    have hfields := hfield.length_le
    have hlast := hentries.length_le
    rw [parseSequence, if_neg hat.1, raiseIf_neg hat.2, hitem.raw, List.append_cons]
    simp only [ok_bind, if_neg hraw, if_pos hopens, hsplit]
    cases hdistinct.1 with
    | mapping hkeys hvalues =>
      rw [List.forall_mem_cons] at hvalues
      cases hfield with
      | scalar hvalue hfirst =>
        simp only [if_neg hvalue, hfirst, ok_bind,
          hmapping [(key, first)] (by omega) hentries hkeys hvalues.2]
        exact hsequence _ (by omega) hrest hdistinct.2
      | block hwritten =>
        have hshort := hwritten.length_lt
        obtain ⟨next, more, rfl, hnext⟩ := hwritten.head
        have hdeep : ¬ ((next :: more).head?.all (·.indent ≠ indent + 4) = true) := by
          simp [hnext]
        simp only [if_true, raiseIf_neg hdeep, ok_bind, hblock (by omega) hwritten hvalues.1,
          hmapping [(key, first)] (by omega) hentries hkeys hvalues.2]
        exact hsequence _ (by omega) hrest hdistinct.2
  | @scalar _ t raw item items ts _ hitem hraw hopens hvalue hflat hrest =>
    rw [List.forall_mem_cons] at hdistinct
    rw [List.length_cons] at hn
    have hat := hstart hitem
    have hshallow : ¬ (ts.head?.any (indent < ·.indent) = true) := by
      intro hany
      obtain ⟨next, hnext, hdeep⟩ := (Option.any_eq_true _ _).mp hany
      have hle := hflat next hnext
      simp only [decide_eq_true_eq] at hdeep
      omega
    rw [parseSequence, if_neg hat.1, raiseIf_neg hat.2, hitem.raw, List.append_cons]
    simp only [ok_bind, if_neg hraw, hopens, Bool.false_eq_true, if_false, hvalue,
      raiseIf_neg hshallow]
    exact hsequence _ (by omega) hrest hdistinct.2

theorem blockComplete_succ {n : ℕ} (hmapping : MappingComplete n)
    (hsequence : SequenceComplete n) : BlockComplete (n + 1) := by
  intro tokens indent value rest hn h hdistinct
  obtain ⟨t, ts, rfl, hindent⟩ := h.head
  rw [parseBlock, if_neg (not_not.mpr hindent)]
  cases h with
  | mapping hne hentries =>
    have hitem : t.isItem = false := by
      cases hentries with
      | done _ => exact absurd rfl hne
      | entry hpair _ _ => exact hpair.noItem
    cases hdistinct with
    | mapping hkeys hvalues =>
      rw [if_neg (by simp [hitem]), hmapping [] (by omega) hentries hkeys hvalues]
      rfl
  | sequence hne hitems =>
    have hitem : t.isItem = true := by
      cases hitems with
      | done _ => exact absurd rfl hne
      | block hitem _ _ => exact hitem.item
      | mapping hitem _ _ _ _ _ => exact hitem.item
      | scalar hitem _ _ _ _ _ => exact hitem.item
    cases hdistinct with
    | list hvalues =>
      rw [if_pos hitem, hsequence [] (by omega) hitems hvalues]
      rfl

theorem parse_complete (n : ℕ) : MappingComplete n ∧ SequenceComplete n ∧ BlockComplete n := by
  induction n with
  | zero =>
    refine ⟨?_, ?_, ?_⟩
    · intro tokens indent entries rest result hn
      omega
    · intro tokens indent items rest result hn
      omega
    · intro tokens indent value rest hn
      omega
  | succ n ih =>
    obtain ⟨hmapping, hsequence, hblock⟩ := ih
    exact ⟨mappingComplete_succ hmapping hblock, sequenceComplete_succ hmapping hsequence hblock,
      blockComplete_succ hmapping hsequence⟩

/-! ## The calls are enough -/

/-- The parser does not stop for want of calls. -/
def HasCalls {α : Type} (x : Except ParseError α) : Prop := x ≠ .error .calls

theorem HasCalls.bind {α β : Type} {x : Except ParseError α} {f : α → Except ParseError β}
    (hx : HasCalls x) (hf : ∀ a, x = .ok a → HasCalls (f a)) : HasCalls (x >>= f) := by
  cases x with
  | error error =>
    intro h
    exact hx (congrArg Except.error (Except.error.inj h))
  | ok a => exact hf a rfl

theorem hasCalls_ok {α : Type} (a : α) : HasCalls (.ok a : Except ParseError α) := by
  intro h
  cases h

theorem hasCalls_configSyntax {α : Type} (message : String) :
    HasCalls (.error (.configSyntax message) : Except ParseError α) := by
  intro h
  cases h

theorem hasCalls_raiseIf (bad : Prop) [Decidable bad] (message : String) :
    HasCalls (raiseIf bad (.configSyntax message)) := by
  unfold raiseIf
  split
  · exact hasCalls_configSyntax _
  · exact hasCalls_ok _

theorem hasCalls_stripScalar (raw : Text) (line : ℕ) : HasCalls (stripScalar raw line) := by
  unfold stripScalar
  dsimp only
  split_ifs
  all_goals first
    | exact hasCalls_ok _
    | exact hasCalls_configSyntax _

theorem hasCalls_splitPair (content : Text) (line : ℕ) : HasCalls (splitPair content line) := by
  unfold splitPair
  split
  · exact hasCalls_ok _
  · exact hasCalls_configSyntax _

def MappingHasCalls (n : ℕ) : Prop := ∀ (tokens : List Token) (indent : ℕ) (result : Entries),
  2 * tokens.length + 1 ≤ n → (result.map Prod.fst).Nodup →
    HasCalls (parseMapping n tokens indent result)

def SequenceHasCalls (n : ℕ) : Prop := ∀ (tokens : List Token) (indent : ℕ) (result : List Value),
  2 * tokens.length + 1 ≤ n → HasCalls (parseSequence n tokens indent result)

def BlockHasCalls (n : ℕ) : Prop := ∀ (tokens : List Token) (indent : ℕ),
  2 * tokens.length + 2 ≤ n → HasCalls (parseBlock n tokens indent)

theorem mappingHasCalls_succ {n : ℕ} (hmapping : MappingHasCalls n) (hblock : BlockHasCalls n) :
    MappingHasCalls (n + 1) := by
  intro tokens indent result hn hnodup
  cases tokens with
  | nil => exact hasCalls_ok _
  | cons t ts =>
    rw [List.length_cons] at hn
    rw [parseMapping]
    split
    · exact hasCalls_ok _
    split
    · exact hasCalls_configSyntax _
    split
    · exact hasCalls_ok _
    refine (hasCalls_splitPair _ _).bind fun pair _ => ?_
    obtain ⟨key, raw⟩ := pair
    refine (hasCalls_raiseIf _ _).bind fun _ hraise => ?_
    have hnew := raiseIf_eq_ok.mp hraise
    dsimp only
    split
    · refine (hasCalls_stripScalar _ _).bind fun value _ => ?_
      exact hmapping ts indent _ (by omega) (nodup_concat hnodup hnew value)
    · refine (hasCalls_raiseIf _ _).bind fun _ _ => ?_
      refine (hblock ts (indent + 2) (by omega)).bind fun found hfound => ?_
      have hshort := ((parse_sound n).2.2 hfound).1.length_lt
      exact hmapping found.2 indent _ (by omega) (nodup_concat hnodup hnew found.1)

theorem sequenceHasCalls_succ {n : ℕ} (hmapping : MappingHasCalls n)
    (hsequence : SequenceHasCalls n) (hblock : BlockHasCalls n) : SequenceHasCalls (n + 1) := by
  intro tokens indent result hn
  cases tokens with
  | nil => exact hasCalls_ok _
  | cons t ts =>
    rw [List.length_cons] at hn
    rw [parseSequence]
    split
    · exact hasCalls_ok _
    refine (hasCalls_raiseIf _ _).bind fun _ _ => ?_
    dsimp only
    split
    · refine (hasCalls_raiseIf _ _).bind fun _ _ => ?_
      refine (hblock ts (indent + 2) (by omega)).bind fun found hfound => ?_
      have hshort := ((parse_sound n).2.2 hfound).1.length_lt
      exact hsequence found.2 indent _ (by omega)
    split
    · refine (hasCalls_splitPair _ _).bind fun pair _ => ?_
      obtain ⟨key, value⟩ := pair
      -- the entries behind the first one may use up more tokens
      have hentries : ∀ (middle : List Token) (first : Value), middle.length ≤ ts.length →
          HasCalls (parseMapping n middle (indent + 2) [(key, first)] >>= fun found =>
            parseSequence n found.2 indent (result ++ [.mapping found.1])) := by
        intro middle first hshort
        refine (hmapping middle (indent + 2) _ (by omega) (by simp)).bind fun found hfound => ?_
        obtain ⟨more, -, hmore, -⟩ := (parse_sound n).1 hfound (by simp)
        have hlast := hmore.length_le
        exact hsequence found.2 indent _ (by omega)
      dsimp only
      split
      · refine (hasCalls_raiseIf _ _).bind fun _ _ => ?_
        refine (hblock ts (indent + 4) (by omega)).bind fun found hfound => ?_
        exact hentries found.2 found.1 ((parse_sound n).2.2 hfound).1.length_lt.le
      · refine (hasCalls_stripScalar _ _).bind fun first _ => ?_
        exact hentries ts first le_rfl
    · refine (hasCalls_stripScalar _ _).bind fun item _ => ?_
      refine (hasCalls_raiseIf _ _).bind fun _ _ => ?_
      exact hsequence ts indent _ (by omega)

theorem blockHasCalls_succ {n : ℕ} (hmapping : MappingHasCalls n)
    (hsequence : SequenceHasCalls n) : BlockHasCalls (n + 1) := by
  intro tokens indent hn
  cases tokens with
  | nil => exact hasCalls_configSyntax _
  | cons t ts =>
    rw [parseBlock]
    split
    · exact hasCalls_configSyntax _
    split
    · exact (hsequence (t :: ts) indent [] (by omega)).bind fun _ _ => hasCalls_ok _
    · exact (hmapping (t :: ts) indent [] (by omega) (by simp)).bind fun _ _ => hasCalls_ok _

/-- The parser ends on every list of tokens. -/
theorem parse_hasCalls (n : ℕ) : MappingHasCalls n ∧ SequenceHasCalls n ∧ BlockHasCalls n := by
  induction n with
  | zero =>
    refine ⟨?_, ?_, ?_⟩
    · intro tokens indent result hn
      omega
    · intro tokens indent result hn
      omega
    · intro tokens indent hn
      omega
  | succ n ih =>
    obtain ⟨hmapping, hsequence, hblock⟩ := ih
    exact ⟨mappingHasCalls_succ hmapping hblock, sequenceHasCalls_succ hmapping hsequence hblock,
      blockHasCalls_succ hmapping hsequence⟩

/-! ## One value for the tokens -/

/-- A mapping with an entry does not begin with a dash, and a sequence with an item does. -/
theorem Mapping.head_noItem {indent : ℕ} {entries : Entries} {tokens rest : List Token}
    (h : Mapping indent entries tokens rest) (hne : entries ≠ []) :
    ∃ t ∈ tokens.head?, t.isItem = false := by
  cases h with
  | done _ => exact absurd rfl hne
  | entry hpair _ _ => exact ⟨_, rfl, hpair.noItem⟩

theorem Sequence.head_item {indent : ℕ} {items : List Value} {tokens rest : List Token}
    (h : Sequence indent items tokens rest) (hne : items ≠ []) :
    ∃ t ∈ tokens.head?, t.isItem = true := by
  cases h with
  | done _ => exact absurd rfl hne
  | block hitem _ _ => exact ⟨_, rfl, hitem.item⟩
  | mapping hitem _ _ _ _ _ => exact ⟨_, rfl, hitem.item⟩
  | scalar hitem _ _ _ _ _ => exact ⟨_, rfl, hitem.item⟩

theorem no_mapping_and_sequence {indent indent' : ℕ} {entries : Entries} {items : List Value}
    {tokens rest rest' : List Token} (hentries : Mapping indent entries tokens rest)
    (hne : entries ≠ []) (hitems : Sequence indent' items tokens rest') (hne' : items ≠ []) :
    False := by
  obtain ⟨t, ht, hno⟩ := hentries.head_noItem hne
  obtain ⟨t', ht', hitem⟩ := hitems.head_item hne'
  obtain rfl := Option.some.inj (ht.symm.trans ht')
  rw [hno] at hitem
  cases hitem

theorem IsPair.unique {t : Token} {indent : ℕ} {key key' raw raw' : Text}
    (h : IsPair t indent key raw) (h' : IsPair t indent key' raw') : key = key' ∧ raw = raw' := by
  have heq := h.split.symm.trans h'.split
  exact Prod.mk.inj (Except.ok.inj heq)

mutual

theorem Field.unique {indent line : ℕ} {raw : Text} {value value' : Value}
    {tokens rest rest' : List Token} : Field indent line raw value tokens rest →
      Field indent line raw value' tokens rest' → value = value' ∧ rest = rest'
  | .scalar _ hvalue, .scalar _ hvalue' => ⟨Except.ok.inj (hvalue.symm.trans hvalue'), rfl⟩
  | .scalar hraw _, .block _ => absurd rfl hraw
  | .block _, .scalar hraw _ => absurd rfl hraw
  | .block hblock, .block hblock' => hblock.unique hblock'
  termination_by structural h => h

theorem Mapping.unique {indent : ℕ} {entries entries' : Entries} {tokens rest rest' : List Token} :
    Mapping indent entries tokens rest → Mapping indent entries' tokens rest' →
      entries = entries' ∧ rest = rest'
  | .done _, .done _ => ⟨rfl, rfl⟩
  | .done hend, .entry hpair _ _ => by
    rcases hend _ rfl with hlow | ⟨-, hitem⟩
    · exact absurd hpair.indent hlow.ne
    · rw [hpair.noItem] at hitem
      cases hitem
  | .entry hpair _ _, .done hend => by
    rcases hend _ rfl with hlow | ⟨-, hitem⟩
    · exact absurd hpair.indent hlow.ne
    · rw [hpair.noItem] at hitem
      cases hitem
  | .entry hpair hfield hrest, .entry hpair' hfield' hrest' => by
    obtain ⟨rfl, rfl⟩ := hpair.unique hpair'
    obtain ⟨rfl, rfl⟩ := hfield.unique hfield'
    obtain ⟨rfl, rfl⟩ := hrest.unique hrest'
    exact ⟨rfl, rfl⟩
  termination_by structural h => h

theorem Sequence.unique {indent : ℕ} {items items' : List Value} {tokens rest rest' : List Token} :
    Sequence indent items tokens rest → Sequence indent items' tokens rest' →
      items = items' ∧ rest = rest'
  | .done _, .done _ => ⟨rfl, rfl⟩
  | .block hitem hblock hrest, .block hitem' hblock' hrest' => by
    obtain ⟨rfl, rfl⟩ := hblock.unique hblock'
    obtain ⟨rfl, rfl⟩ := hrest.unique hrest'
    exact ⟨rfl, rfl⟩
  | .mapping hitem hopens hsplit hfield hentries hrest,
      .mapping hitem' hopens' hsplit' hfield' hentries' hrest' => by
    obtain rfl := hitem.raw.symm.trans hitem'.raw
    obtain ⟨rfl, rfl⟩ := Prod.mk.inj (Except.ok.inj (hsplit.symm.trans hsplit'))
    obtain ⟨rfl, rfl⟩ := hfield.unique hfield'
    obtain ⟨rfl, rfl⟩ := hentries.unique hentries'
    obtain ⟨rfl, rfl⟩ := hrest.unique hrest'
    exact ⟨rfl, rfl⟩
  | .scalar hitem hraw hopens hvalue hflat hrest,
      .scalar hitem' hraw' hopens' hvalue' hflat' hrest' => by
    obtain rfl := hitem.raw.symm.trans hitem'.raw
    obtain rfl := Except.ok.inj (hvalue.symm.trans hvalue')
    obtain ⟨rfl, rfl⟩ := hrest.unique hrest'
    exact ⟨rfl, rfl⟩
  | .done hend, .block hitem _ _ => absurd hitem.indent (hend _ rfl).ne
  | .done hend, .mapping hitem _ _ _ _ _ => absurd hitem.indent (hend _ rfl).ne
  | .done hend, .scalar hitem _ _ _ _ _ => absurd hitem.indent (hend _ rfl).ne
  | .block hitem _ _, .done hend => absurd hitem.indent (hend _ rfl).ne
  | .mapping hitem _ _ _ _ _, .done hend => absurd hitem.indent (hend _ rfl).ne
  | .scalar hitem _ _ _ _ _, .done hend => absurd hitem.indent (hend _ rfl).ne
  | .block hitem _ _, .mapping hitem' hopens' _ _ _ _ => by
    rw [← hitem'.raw, hitem.raw] at hopens'
    cases hopens'
  | .mapping hitem' hopens' _ _ _ _, .block hitem _ _ => by
    rw [← hitem'.raw, hitem.raw] at hopens'
    cases hopens'
  | .block hitem _ _, .scalar hitem' hraw' _ _ _ _ =>
    absurd (hitem'.raw.symm.trans hitem.raw) hraw'
  | .scalar hitem' hraw' _ _ _ _, .block hitem _ _ =>
    absurd (hitem'.raw.symm.trans hitem.raw) hraw'
  | .mapping hitem hopens _ _ _ _, .scalar hitem' _ hopens' _ _ _ => by
    rw [← hitem'.raw, hitem.raw, hopens] at hopens'
    cases hopens'
  | .scalar hitem' _ hopens' _ _ _, .mapping hitem hopens _ _ _ _ => by
    rw [← hitem'.raw, hitem.raw, hopens] at hopens'
    cases hopens'
  termination_by structural h => h

theorem Block.unique {indent : ℕ} {value value' : Value} {tokens rest rest' : List Token} :
    Block indent value tokens rest → Block indent value' tokens rest' →
      value = value' ∧ rest = rest'
  | .mapping _ hentries, .mapping _ hentries' => by
    obtain ⟨rfl, rfl⟩ := hentries.unique hentries'
    exact ⟨rfl, rfl⟩
  | .sequence _ hitems, .sequence _ hitems' => by
    obtain ⟨rfl, rfl⟩ := hitems.unique hitems'
    exact ⟨rfl, rfl⟩
  | .mapping hne hentries, .sequence hne' hitems =>
    (no_mapping_and_sequence hentries hne hitems hne').elim
  | .sequence hne' hitems, .mapping hne hentries =>
    (no_mapping_and_sequence hentries hne hitems hne').elim
  termination_by structural h => h

end

end KubeadmConfig
