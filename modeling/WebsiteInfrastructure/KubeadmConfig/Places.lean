import Mathlib
import WebsiteInfrastructure.KubeadmConfig.Rendering

/-!
# Where a line ends up

A line of a text that is neither blank nor a comment is a token of a document. At the left margin it
is an entry of the document, and two spaces further in an entry of one of its mappings.
-/

namespace KubeadmConfig

open PythonText Raising

/-! ## Tokens of a layout -/

mutual

/-- What a block takes is not to the left of it. -/
theorem Field.indent_le {indent line : ℕ} {raw : Text} {value : Value} {tokens rest : List Token} :
    Field indent line raw value tokens rest → ∀ t ∈ tokens, t ∈ rest ∨ indent ≤ t.indent
  | .scalar _ _, _, ht => .inl ht
  | .block hblock, t, ht => hblock.indent_le t ht

theorem Mapping.indent_le {indent : ℕ} {entries : Entries} {tokens rest : List Token} :
    Mapping indent entries tokens rest → ∀ t ∈ tokens, t ∈ rest ∨ indent ≤ t.indent
  | .done _, _, ht => .inl ht
  | .entry hpair hfield hrest, t, ht => by
    rcases List.mem_cons.mp ht with rfl | ht
    · exact .inr hpair.indent.ge
    · rcases hfield.indent_le t ht with ht | hdeep
      · exact hrest.indent_le t ht
      · exact .inr (by omega)

theorem Sequence.indent_le {indent : ℕ} {items : List Value} {tokens rest : List Token} :
    Sequence indent items tokens rest → ∀ t ∈ tokens, t ∈ rest ∨ indent ≤ t.indent
  | .done _, _, ht => .inl ht
  | .block hitem hblock hrest, t, ht => by
    rcases List.mem_cons.mp ht with rfl | ht
    · exact .inr hitem.indent.ge
    · rcases hblock.indent_le t ht with ht | hdeep
      · exact hrest.indent_le t ht
      · exact .inr (by omega)
  | .mapping hitem _ _ hfield hentries hrest, t, ht => by
    rcases List.mem_cons.mp ht with rfl | ht
    · exact .inr hitem.indent.ge
    · rcases hfield.indent_le t ht with ht | hdeep
      · rcases hentries.indent_le t ht with ht | hdeep
        · exact hrest.indent_le t ht
        · exact .inr (by omega)
      · exact .inr (by omega)
  | .scalar hitem _ _ _ _ hrest, t, ht => by
    rcases List.mem_cons.mp ht with rfl | ht
    · exact .inr hitem.indent.ge
    · exact hrest.indent_le t ht

theorem Block.indent_le {indent : ℕ} {value : Value} {tokens rest : List Token} :
    Block indent value tokens rest → ∀ t ∈ tokens, t ∈ rest ∨ indent ≤ t.indent
  | .mapping _ hentries, t, ht => hentries.indent_le t ht
  | .sequence _ hitems, t, ht => hitems.indent_le t ht

end

/-- A block is no scalar. -/
def Value.isScalar : Value → Bool
  | .scalar _ => true
  | _ => false

theorem Block.not_scalar {indent : ℕ} {value : Value} {tokens rest : List Token}
    (h : Block indent value tokens rest) : value.isScalar = false := by
  cases h <;> rfl

/-- The token is the line of this entry, with its scalar or above its block. -/
structure IsEntry (t : Token) (indent : ℕ) (entry : Text × Value) (raw : Text) : Prop where
  pair : IsPair t indent entry.1 raw
  scalar : raw ≠ [] → stripScalar raw t.line = .ok entry.2
  block : raw = [] → entry.2.isScalar = false

theorem IsPair.isEntry {t : Token} {indent : ℕ} {key raw : Text} {value : Value}
    {tokens rest : List Token} (hpair : IsPair t indent key raw)
    (hfield : Field (indent + 2) t.line raw value tokens rest) :
    IsEntry t indent (key, value) raw := by
  cases hfield with
  | scalar hraw hvalue => exact ⟨hpair, fun _ => hvalue, fun hnil => absurd hnil hraw⟩
  | block hblock => exact ⟨hpair, fun hne => absurd rfl hne, fun _ => hblock.not_scalar⟩

/-- A token of a mapping is the line of an entry, or further in. -/
theorem Mapping.entry_of_mem {indent : ℕ} {entries : Entries} {tokens rest : List Token} :
    Mapping indent entries tokens rest → ∀ t ∈ tokens, t ∈ rest ∨ indent < t.indent ∨
      ∃ e ∈ entries, ∃ raw, IsEntry t indent e raw
  | .done _, _, ht => .inl ht
  | .entry hpair hfield hrest, t, ht => by
    rcases List.mem_cons.mp ht with rfl | ht
    · exact .inr (.inr ⟨_, List.mem_cons_self, _, hpair.isEntry hfield⟩)
    · rcases hfield.indent_le t ht with ht | hdeep
      · rcases hrest.entry_of_mem t ht with hmem | hdeep | ⟨e, he, raw, hentry⟩
        · exact .inl hmem
        · exact .inr (.inl hdeep)
        · exact .inr (.inr ⟨e, List.mem_cons_of_mem _ he, raw, hentry⟩)
      · exact .inr (.inl (by omega))

/-- A token of a sequence is an item, or further in. -/
theorem Sequence.item_of_mem {indent : ℕ} {items : List Value} {tokens rest : List Token} :
    Sequence indent items tokens rest → ∀ t ∈ tokens, t ∈ rest ∨ indent < t.indent ∨
      t.isItem = true
  | .done _, _, ht => .inl ht
  | .block hitem hblock hrest, t, ht => by
    rcases List.mem_cons.mp ht with rfl | ht
    · exact .inr (.inr hitem.item)
    · rcases hblock.indent_le t ht with ht | hdeep
      · exact hrest.item_of_mem t ht
      · exact .inr (.inl (by omega))
  | .mapping hitem _ _ hfield hentries hrest, t, ht => by
    rcases List.mem_cons.mp ht with rfl | ht
    · exact .inr (.inr hitem.item)
    · rcases hfield.indent_le t ht with ht | hdeep
      · rcases hentries.indent_le t ht with ht | hdeep
        · exact hrest.item_of_mem t ht
        · exact .inr (.inl (by omega))
      · exact .inr (.inl (by omega))
  | .scalar hitem _ _ _ _ hrest, t, ht => by
    rcases List.mem_cons.mp ht with rfl | ht
    · exact .inr (.inr hitem.item)
    · exact hrest.item_of_mem t ht

/-- A token at the margin of a block that is no item is the line of an entry of a mapping. -/
theorem Block.entry_of_mem {indent : ℕ} {value : Value} {tokens rest : List Token}
    (h : Block indent value tokens rest) {t : Token} (ht : t ∈ tokens) (hindent : t.indent = indent)
    (hitem : t.isItem = false) :
    t ∈ rest ∨ ∃ inner, value = .mapping inner ∧ ∃ e ∈ inner, ∃ raw, IsEntry t indent e raw := by
  cases h with
  | mapping _ hentries =>
    rcases hentries.entry_of_mem t ht with hmem | hdeep | hentry
    · exact .inl hmem
    · omega
    · exact .inr ⟨_, rfl, hentry⟩
  | sequence _ hitems =>
    rcases hitems.item_of_mem t ht with hmem | hdeep | htrue
    · exact .inl hmem
    · omega
    · rw [hitem] at htrue
      cases htrue

/-- One level further in, it is the line of an entry of a mapping in the mapping. -/
theorem Mapping.inner_of_mem {indent : ℕ} {entries : Entries} {tokens rest : List Token} :
    Mapping indent entries tokens rest → ∀ t ∈ tokens, t.indent = indent + 2 → t.isItem = false →
      t ∈ rest ∨ ∃ key inner, (key, .mapping inner) ∈ entries ∧
        ∃ e ∈ inner, ∃ raw, IsEntry t (indent + 2) e raw
  | .done _, _, ht, _, _ => .inl ht
  | .entry hpair hfield hrest, t, ht, hindent, hitem => by
    have hlater : t ∈ _ → _ := fun ht => hrest.inner_of_mem t ht hindent hitem
    have hmore : ∀ {entry : Text × Value} {entries : Entries},
        (∃ key inner, (key, .mapping inner) ∈ entries ∧
          ∃ e ∈ inner, ∃ raw, IsEntry t (indent + 2) e raw) →
        ∃ key inner, (key, .mapping inner) ∈ entry :: entries ∧
          ∃ e ∈ inner, ∃ raw, IsEntry t (indent + 2) e raw := by
      rintro entry entries ⟨key, inner, hmem, hentry⟩
      exact ⟨key, inner, List.mem_cons_of_mem _ hmem, hentry⟩
    rcases List.mem_cons.mp ht with rfl | ht
    · have := hpair.indent
      omega
    · cases hfield with
      | scalar _ _ => exact (hlater ht).imp_right hmore
      | block hblock =>
        rcases hblock.entry_of_mem ht hindent hitem with ht | ⟨inner, rfl, hentry⟩
        · exact (hlater ht).imp_right hmore
        · exact .inr ⟨_, inner, List.mem_cons_self, hentry⟩

/-! ## Lines of a text -/

/-- A line is still there when the lines are joined. -/
theorem mem_splitlines_intercalate {ls : List Text} (h : ∀ l ∈ ls, ∀ c ∈ l, isLineBreak c = false)
    {line : Text} (hline : line ∈ ls) (hne : line ≠ []) :
    line ∈ splitlines (['\n'].intercalate ls) := by
  rcases List.eq_nil_or_concat ls with rfl | ⟨init, last, rfl⟩
  · cases hline
  · rw [List.concat_eq_append] at h hline ⊢
    have hinit : ∀ l ∈ init, ∀ c ∈ l, isLineBreak c = false := fun l hl => h l (by simp [hl])
    have hlines : (init.flatMap fun l => splitlines (l ++ ['\n'])) = init := by
      rw [← splitlines_unlines_eq, splitlines_unlines hinit]
    rw [ShellText.intercalate_concat]
    change line ∈ splitlines (unlines init ++ last)
    rw [splitlines_unlines_append, hlines, List.mem_append]
    rcases List.mem_append.mp hline with hmem | hmem
    · exact .inl hmem
    · obtain rfl := List.mem_singleton.mp hmem
      rw [splitlines_plain hne (h line (by simp))]
      exact .inr (List.mem_singleton_self _)

/-- A line of the text is in a finished chunk or in the current one. -/
def Chunks.Has (c : Chunks) (line : Text) : Prop :=
  line ∈ c.current ∨ ∃ chunk ∈ c.chunks, line ∈ splitlines chunk.1

theorem Chunks.Has.finish {c : Chunks} {line : Text} (h : c.Has line) (start : ℕ)
    (hplain : ∀ l ∈ c.current, ∀ d ∈ l, isLineBreak d = false) (hcontent : hasContent line = true) :
    ∃ chunk ∈ c.finish start, line ∈ splitlines chunk.1 := by
  have hne : line ≠ [] := by
    rintro rfl
    cases hcontent
  unfold Chunks.finish
  rcases h with hcurrent | ⟨chunk, hchunk, hline⟩
  · rw [if_pos (List.any_eq_true.mpr ⟨line, hcurrent, hcontent⟩)]
    exact ⟨_, List.mem_append_right _ (List.mem_singleton_self _),
      mem_splitlines_intercalate hplain hcurrent hne⟩
  · refine ⟨chunk, ?_, hline⟩
    split
    · exact List.mem_append_left _ hchunk
    · exact hchunk

theorem Chunks.Has.step {c : Chunks} {line : Text} (h : c.Has line)
    (hplain : ∀ l ∈ c.current, ∀ d ∈ l, isLineBreak d = false) (hcontent : hasContent line = true)
    (n : ℕ) (next : Text) : (chunkLine c n next).Has line := by
  unfold chunkLine
  split
  · exact .inr (h.finish c.chunkStart hplain hcontent)
  · exact h.imp_left fun hcurrent => List.mem_append_left _ hcurrent

theorem chunkLine_plain {c : Chunks} (hplain : ∀ l ∈ c.current, ∀ d ∈ l, isLineBreak d = false)
    {next : Text} (hnext : ∀ d ∈ next, isLineBreak d = false) (n : ℕ) :
    ∀ l ∈ (chunkLine c n next).current, ∀ d ∈ l, isLineBreak d = false := by
  unfold chunkLine
  split
  · simp
  · exact List.forall_mem_append.mpr ⟨hplain, List.forall_mem_singleton.mpr hnext⟩

/-- Once there, a line stays; and it gets there in its turn. -/
theorem chunkLines_has {lines : List Text} (hlines : ∀ l ∈ lines, ∀ d ∈ l, isLineBreak d = false)
    {c : Chunks} (hplain : ∀ l ∈ c.current, ∀ d ∈ l, isLineBreak d = false) {line : Text}
    (hcontent : hasContent line = true) (hmarker : strip line ≠ ['-', '-', '-']) (n : ℕ)
    (h : c.Has line ∨ line ∈ lines) :
    (chunkLines c n lines).Has line ∧
      ∀ l ∈ (chunkLines c n lines).current, ∀ d ∈ l, isLineBreak d = false := by
  induction lines generalizing c n with
  | nil => exact ⟨h.resolve_right (List.not_mem_nil), hplain⟩
  | cons next lines ih =>
    rw [List.forall_mem_cons] at hlines
    apply ih hlines.2 (chunkLine_plain hplain hlines.1 n)
    rcases h with h | h
    · exact .inl (h.step hplain hcontent n next)
    · rcases List.mem_cons.mp h with rfl | h
      · left
        rw [chunkLine, if_neg hmarker]
        exact .inl (List.mem_append_right _ (List.mem_singleton_self _))
      · exact .inr h

/-- Every line with content is in a chunk, unless it is a marker. -/
theorem exists_chunk {text line : Text} (hline : line ∈ splitlines text)
    (hcontent : hasContent line = true) (hmarker : strip line ≠ ['-', '-', '-']) :
    ∃ chunk ∈ chunksOf text, line ∈ splitlines chunk.1 := by
  obtain ⟨hhas, hplain⟩ := chunkLines_has (c := ⟨[], [], 1, 1⟩)
    (fun l hl => isLineBreak_of_mem_splitlines hl) (by simp) hcontent hmarker 1 (.inr hline)
  exact hhas.finish _ hplain hcontent

/-! ## Lines of the documents -/

theorem exists_token {lines : List Text} {n : ℕ} {tokens : List Token}
    (h : tokensOf lines n = .ok tokens) {line : Text} (hline : line ∈ lines) :
    ∃ m token, tokenOf line m = .ok token ∧ ∀ t ∈ token, t ∈ tokens := by
  induction lines generalizing n tokens with
  | nil => cases hline
  | cons next lines ih =>
    obtain ⟨token, htoken, h⟩ := bind_eq_ok.mp h
    obtain ⟨later, hlater, h⟩ := bind_eq_ok.mp h
    obtain rfl := Except.ok.inj h
    rcases List.mem_cons.mp hline with rfl | hline
    · refine ⟨n, token, htoken, fun t ht => List.mem_append_left _ ?_⟩
      rwa [Option.mem_toList]
    · obtain ⟨m, token', htoken', hmem⟩ := ih hlater hline
      exact ⟨m, token', htoken', fun t ht => List.mem_append_right _ (hmem t ht)⟩

/-- Every chunk is one of the documents. -/
theorem addDocuments_chunk {documents result : Documents} {chunks : List (Text × ℕ)}
    (h : addDocuments documents chunks = .ok result) :
    documents ⊆ result ∧ ∀ chunk ∈ chunks, ∃ d ∈ result,
      parseChunk chunk.1 chunk.2 = .ok d.2 ∧ ∃ entries, d.2 = .mapping entries := by
  induction chunks generalizing documents with
  | nil =>
    obtain rfl := Except.ok.inj h
    exact ⟨List.Subset.refl _, by simp⟩
  | cons chunk chunks ih =>
    obtain ⟨next, hnext, h⟩ := bind_eq_ok.mp h
    obtain ⟨parsed, hparsed, hnext⟩ := bind_eq_ok.mp hnext
    obtain ⟨hsubset, hchunks⟩ := ih h
    split at hnext
    · next entries =>
      split at hnext
      · next kind _ =>
        obtain ⟨-, hnext⟩ := raiseIf_bind_eq_ok.mp hnext
        obtain rfl := Except.ok.inj hnext
        refine ⟨fun d hd => hsubset (List.mem_append_left _ hd), ?_⟩
        rw [List.forall_mem_cons]
        exact ⟨⟨_, hsubset (List.mem_append_right _ (List.mem_singleton_self _)), hparsed,
          entries, rfl⟩, hchunks⟩
      · cases hnext
    · cases hnext

/-- A line with content of a text whose documents are read is a token of one of them. -/
theorem line_is_token {text : Text} {documents : Documents}
    (h : parseDocuments text = .ok documents) {line : Text} (hline : line ∈ splitlines text)
    (hcontent : hasContent line = true) (hmarker : strip line ≠ ['-', '-', '-']) :
    ∃ kind entries tokens n token, (kind, .mapping entries) ∈ documents ∧
      Mapping 0 entries tokens [] ∧ Distinct (.mapping entries) ∧
        tokenOf line n = .ok token ∧ ∀ t ∈ token, t ∈ tokens := by
  obtain ⟨chunk, hchunk, hmem⟩ := exists_chunk hline hcontent hmarker
  obtain ⟨⟨kind, value⟩, hd, hparsed, entries, rfl⟩ := (addDocuments_chunk h).2 chunk hchunk
  obtain ⟨tokens, htokens, hblock, -, hdistinct⟩ := parseChunk_reads hparsed
  obtain ⟨tokens', htokens', htokens⟩ := bind_eq_ok.mp htokens
  obtain ⟨-, htokens⟩ := raiseIf_bind_eq_ok.mp htokens
  obtain rfl := Except.ok.inj htokens
  obtain ⟨n, token, htoken, htake⟩ := exists_token htokens' hmem
  cases hblock with
  | mapping _ hentries =>
    exact ⟨kind, entries, _, n, token, hd, hentries, hdistinct, htoken, htake⟩

end KubeadmConfig
