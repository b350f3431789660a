import Mathlib
import WebsiteInfrastructure.Library.Raising
import WebsiteInfrastructure.ReleaseState.CanonicalYaml

/-!
# The values of a HelmRelease

`load_helm_release` gives the values of a release twice: as a mapping, and as a text of its own that
is cut out of the manifest and moved to the left. Both say the same.
-/

namespace ReleaseState

open PythonText Raising ShellText Utf8

/-! ## The contract -/

/-- `RELEASE_CONTRACTS`, what `load_helm_release` reads of a row. -/
structure Contract where
  namespaceName : String
  repository : Option String
  readiness : String
  interval : String
  chart : String
  source : String
  chartRef : Option String

def publicConnectorSites : List String := ["naranjo-online", "lidersea-com", "obsync"]

def releaseContracts : List (String × Contract) :=
  [("cloudflare-public",
    { namespaceName := "cloudflare-public"
      repository := none
      readiness := "suspended-until-tunnel-token-ceremony"
      interval := "10m0s"
      chart := "./kubernetes/platform/cloudflare-public/chart"
      source := "cloudflare-public-source"
      chartRef := none })]

/-- A line of the shape: the text itself, or a pattern for it -/
inductive Requirement
  | exactly (line : String)
  | suspend
  | tokenRevision

/-- `TOKEN_REVISION_RE` -/
def isTokenRevision (value : Text) : Bool :=
  let revision := value.drop 4
  value = "not-configured".toList || value = "UNRESOLVED".toList ||
    (value.take 4 = "rev-".toList && revision.head?.any (fun c => c.isLower || c.isDigit) &&
      revision.length ≤ 63 && revision.all fun c => c.isLower || c.isDigit || c ∈ ['.', '_', '-'])

def Requirement.meets : Requirement → Text → Bool
  | .exactly line, actual => actual = line.toList
  | .suspend, actual => actual = "  suspend: true".toList || actual = "  suspend: false".toList
  | .tokenRevision, actual =>
    let label := "        tokenRevision: ".toList
    actual.take label.length = label && isTokenRevision (actual.drop label.length)

/-- The chart binding of a site, or of the connectors -/
def chartShape (contract : Contract) : List Requirement :=
  match contract.chartRef with
  | some chartRef =>
    [.exactly "  chartRef:", .exactly "    kind: OCIRepository",
      .exactly s!"    name: {chartRef}"]
  | none =>
    [.exactly "  chart:", .exactly "    spec:",
      .exactly s!"      chart: {contract.chart}",
      .exactly "      reconcileStrategy: Revision", .exactly "      sourceRef:",
      .exactly "        kind: GitRepository",
      .exactly s!"        name: {contract.source}", .exactly "      interval: 10m0s"]

def valuesShape (contract : Contract) : List Requirement :=
  match contract.chartRef with
  | some _ => [.exactly "    deploymentReady: true"]
  | none =>
    .exactly "    connectors:" :: publicConnectorSites.flatMap fun site =>
      [.exactly s!"      {site}:", .tokenRevision]

/-- `_helm_release_shape` -/
def helmReleaseShape (name : String) (contract : Contract) : List Requirement :=
  List.flatten
    [[.exactly "apiVersion: helm.toolkit.fluxcd.io/v2", .exactly "kind: HelmRelease",
        .exactly "metadata:", .exactly s!"  name: {name}",
        .exactly s!"  namespace: {contract.namespaceName}"],
      if contract.repository.isSome then
        [.exactly "  labels:", .exactly "    app.kubernetes.io/managed-by: fluxcd"]
      else [],
      [.exactly "  annotations:",
        .exactly s!"    platform.snaraj.dev/readiness: {contract.readiness}",
        .exactly "spec:", .suspend, .exactly s!"  interval: {contract.interval}",
        .exactly "  maxHistory: 2", .exactly s!"  releaseName: {name}",
        .exactly "  serviceAccountName: helm-reconciler"],
      if contract.repository.isSome then
        [.exactly "  driftDetection:", .exactly "    mode: enabled"]
      else [],
      chartShape contract,
      [.exactly "  install:", .exactly "    remediation:", .exactly "      retries: 0",
        .exactly "  upgrade:", .exactly "    cleanupOnFail: true", .exactly "    remediation:",
        .exactly "      retries: 0", .exactly "      strategy: rollback", .exactly "  values:"],
      valuesShape contract]

/-- `_require_exact_significant_lines` -/
def requireExactSignificantLines (text : Text) (expected : List Requirement) : Except String Unit :=
  let actual := (text.splitOn '\n').filter (!isSkipped ·)
  if actual.length ≠ expected.length then
    .error "release YAML shape is outside the closed contract"
  else if (actual.zip expected).all fun pair => pair.2.meets pair.1 then .ok ()
  else .error "release YAML shape is outside the closed contract"

/-! ## Loading -/

/-- `HelmReleaseState` -/
structure HelmReleaseState where
  suspended : Bool
  values : Parsed
  valuesText : Text

/-- `_bool_scalar` -/
def boolScalar (value : Text) : Except String Bool :=
  if value ≠ "true".toList ∧ value ≠ "false".toList then
    .error "release boolean must be explicit true or false"
  else .ok (value = "true".toList)

/-- `if canonical_scalar(text, path) != expected` -/
def requireScalar (text : Text) (path : List String) (expected message : String) :
    Except String Unit := do
  let scalar ← canonicalScalar text (path.map String.toList)
  if scalar ≠ expected.toList then .error message else .ok ()

/-- What a line of the section becomes in the text of the values. -/
def renderLine (base : ℕ) (line : Text) : Except String Text :=
  if isSkipped line then .ok []
  else if indentOf line < base then .error "release values escaped their mapping"
  else .ok (line.drop base)

def renderLines (base : ℕ) : List Text → Except String (List Text)
  | [] => .ok []
  | line :: lines => do
    let rendered ← renderLine base line
    let others ← renderLines base lines
    .ok (rendered :: others)

/-- `"\n".join(rendered_lines).rstrip("\n") + "\n"` -/
def joinLines (rendered : List Text) : Text :=
  (['\n'].intercalate rendered).rdropWhile (· = '\n') ++ ['\n']

/-- The check of the values that the chart of the release asks for -/
def requireValues (contract : Contract) (values : Parsed) : Except String Unit :=
  if contract.chartRef.isSome then
    if values ≠ [(["deploymentReady".toList], some "true".toList)] then
      .error "site release values must contain exactly deploymentReady: true"
    else .ok ()
  else if publicConnectorSites.all fun site =>
      (values.lookup ["connectors".toList, site.toList, "tokenRevision".toList]).join.any
        isTokenRevision then
    .ok ()
  else .error "tunnel token revision is not canonical"

/-- `load_helm_release`, once the text is read -/
def loadRelease (name : String) (contract : Contract) (text : Text) :
    Except String HelmReleaseState := do
  requireExactSignificantLines text (helmReleaseShape name contract)
  requireScalar text ["apiVersion"] "helm.toolkit.fluxcd.io/v2" "release apiVersion is unsupported"
  requireScalar text ["kind"] "HelmRelease" "release kind is unsupported"
  requireScalar text ["metadata", "name"] name "release name does not match its closed identity"
  requireScalar text ["metadata", "namespace"] contract.namespaceName
    "release namespace does not match its closed identity"
  let suspended ← boolScalar (← canonicalScalar text ["spec".toList, "suspend".toList])
  let (lines, base) ← sectionUnder (text.splitOn '\n') 0 ["spec".toList, "values".toList]
  let values ← parseSimpleMapping lines base
  let rendered ← renderLines base lines
  requireValues contract values
  .ok ⟨suspended, values, joinLines rendered⟩

/-- `load_helm_release`, on the bytes of the release's manifest -/
def loadHelmRelease (name : String) (raw : Bytes) : Except String HelmReleaseState := do
  match releaseContracts.lookup name with
  | none => .error "KeyError"
  | some contract =>
    let text ← readCanonicalText false raw
    loadRelease name contract text

/-! ## Moving a line to the left -/

theorem indentOf_append (base : ℕ) (line : Text) :
    indentOf (List.replicate base ' ' ++ line) = base + indentOf line := by
  unfold indentOf
  rw [List.takeWhile_append_of_pos (by simp), List.length_append, List.length_replicate]

theorem lstrip_append (base : ℕ) (line : Text) :
    lstrip (List.replicate base ' ' ++ line) = lstrip line := by
  have hspace : isSpace ' ' = true := by decide
  unfold lstrip
  rw [List.dropWhile_append_of_pos]
  intro c hc
  rw [List.eq_of_mem_replicate hc]
  exact hspace

theorem isSkipped_append (base : ℕ) (line : Text) :
    isSkipped (List.replicate base ' ' ++ line) = isSkipped line := by
  rw [Bool.eq_iff_iff, isSkipped_iff, isSkipped_iff, lstrip_append]

theorem mappingEntry_append (base : ℕ) (line : Text) (indent : ℕ) :
    mappingEntry (List.replicate base ' ' ++ line) (base + indent) = mappingEntry line indent := by
  unfold mappingEntry
  rw [indentOf_append, ← List.drop_drop, List.drop_left' List.length_replicate]
  simp only [ne_eq, Nat.add_left_cancel_iff]

/-- A line that is indented at least so far begins with so many spaces. -/
theorem eq_append_of_le_indentOf {base : ℕ} {line : Text} (h : base ≤ indentOf line) :
    line = List.replicate base ' ' ++ line.drop base := by
  have htake : line.take base = List.replicate base ' ' := by
    have hspaces : line.take base = (line.takeWhile (· = ' ')).take base := by
      conv_lhs => rw [← List.takeWhile_append_dropWhile (p := (· = ' ')) (l := line)]
      rw [List.take_append_of_le_length h]
    rw [hspaces, List.eq_replicate_iff]
    refine ⟨by rw [List.length_take]; exact min_eq_left h, fun c hc => ?_⟩
    have hspace := List.mem_takeWhile_imp (List.mem_of_mem_take hc)
    simpa using hspace
  rw [← htake, List.take_append_drop]

/-- A rendered line is blank for a line that is skipped, and otherwise the line moved to the left. -/
theorem renderLine_eq_ok {base : ℕ} {line rendered : Text} (h : renderLine base line = .ok rendered) :
    (isSkipped line = true ∧ rendered = []) ∨
      (isSkipped line = false ∧ isSkipped rendered = false ∧
        line = List.replicate base ' ' ++ rendered) := by
  unfold renderLine at h
  split at h
  · next hskip => exact .inl ⟨hskip, (Except.ok.inj h).symm⟩
  · next hskip =>
    split at h
    · cases h
    · next hindent =>
      obtain rfl := Except.ok.inj h
      have heq := eq_append_of_le_indentOf (Nat.le_of_not_lt hindent)
      have hskip' : isSkipped line = false := by simpa using hskip
      refine .inr ⟨hskip', ?_, heq⟩
      rw [heq, isSkipped_append] at hskip'
      exact hskip'

/-! ## The mapping of the moved lines -/

/-- The same paths, with the open mappings further to the right -/
def moved (base : ℕ) (progress : Progress) : Progress :=
  ⟨progress.found, progress.contexts.map fun c => (base + c.1, c.2)⟩

theorem filter_moved (base : ℕ) (contexts : List (ℕ × List Text)) (p q : ℕ → Bool)
    (h : ∀ level, p (base + level) = q level) :
    (contexts.map fun c => (base + c.1, c.2)).filter (fun c => p c.1) =
      (contexts.filter fun c => q c.1).map fun c => (base + c.1, c.2) := by
  rw [List.filter_map]
  congr 1
  apply List.filter_congr
  exact fun c _ => h c.1

theorem lookup_moved (base : ℕ) (contexts : List (ℕ × List Text)) (level : ℕ) :
    (contexts.map fun c => (base + c.1, c.2)).lookup (base + level) = contexts.lookup level := by
  induction contexts with
  | nil => rfl
  | cons c contexts ih =>
    obtain ⟨level', path⟩ := c
    by_cases heq : level = level'
    · subst heq
      rw [List.map_cons, List.lookup_cons_self, List.lookup_cons_self]
    · have hmoved : base + level ≠ base + level' := by omega
      rw [List.map_cons, List.lookup_cons, List.lookup_cons, beq_false_of_ne hmoved,
        beq_false_of_ne heq, ih]

/-- A line and the line moved to the left are taken in the same way. -/
theorem observeLine_moved (base : ℕ) (progress : Progress) {line rendered : Text}
    (hskip : isSkipped rendered = false) (hline : line = List.replicate base ' ' ++ rendered) :
    observeLine base (moved base progress) line =
      (observeLine 0 progress rendered).map (moved base) := by
  have hskip' : isSkipped line = false := by rw [hline, isSkipped_append, hskip]
  have hindent : indentOf line = base + indentOf rendered := by rw [hline, indentOf_append]
  have hentry : mappingEntry line (indentOf line) = mappingEntry rendered (indentOf rendered) := by
    rw [hindent, hline, mappingEntry_append]
  have hopen : (moved base progress).contexts.filter (·.1 ≤ indentOf line) =
      (progress.contexts.filter (·.1 ≤ indentOf rendered)).map fun c => (base + c.1, c.2) :=
    filter_moved base _ (fun level => level ≤ indentOf line)
      (fun level => level ≤ indentOf rendered) fun level => by simp [hindent]
  have hnot : ¬ isSkipped rendered = true := by simp [hskip]
  have hnot' : ¬ isSkipped line = true := by simp [hskip']
  unfold observeLine
  rw [if_neg hnot, if_neg hnot']
  dsimp only
  rw [hentry, hopen, hindent, lookup_moved]
  have hlevel : (base + indentOf rendered < base ∨ (base + indentOf rendered - base) % 2 ≠ 0) ↔
      (indentOf rendered < 0 ∨ (indentOf rendered - 0) % 2 ≠ 0) := by
    rw [Nat.add_sub_cancel_left]
    omega
  rw [if_congr hlevel rfl rfl]
  by_cases hodd : indentOf rendered < 0 ∨ (indentOf rendered - 0) % 2 ≠ 0
  · rw [if_pos hodd, if_pos hodd]
    rfl
  · rw [if_neg hodd, if_neg hodd]
    cases (progress.contexts.filter (·.1 ≤ indentOf rendered)).lookup (indentOf rendered) with
    | none => rfl
    | some parent =>
      cases mappingEntry rendered (indentOf rendered) with
      | error error => rfl
      | ok entry =>
        match entry with
        | none => rfl
        | some (key, value) =>
          simp only [bind, Except.bind, moved]
          by_cases hold : parent ++ [key] ∈ progress.found.map Prod.fst
          · rw [if_pos hold]
            exact if_pos hold
          · have hothers : ((progress.contexts.filter (·.1 ≤ indentOf rendered)).map fun c =>
                  (base + c.1, c.2)).filter (fun c => c.1 ≠ base + indentOf rendered + 2) =
                ((progress.contexts.filter (·.1 ≤ indentOf rendered)).filter
                  (fun c => c.1 ≠ indentOf rendered + 2)).map fun c => (base + c.1, c.2) :=
              filter_moved base _ (fun level => level ≠ base + indentOf rendered + 2)
                (fun level => level ≠ indentOf rendered + 2) fun level => by simp [add_assoc]
            rw [if_neg hold, hothers]
            refine (if_neg hold).trans ?_
            cases value <;> rfl

theorem observeLines_moved {base : ℕ} {lines rendered : List Text}
    (h : renderLines base lines = .ok rendered) (progress : Progress) :
    observeLines base (moved base progress) lines =
      (observeLines 0 progress rendered).map (moved base) := by
  induction lines generalizing rendered progress with
  | nil =>
    obtain rfl := Except.ok.inj h
    rfl
  | cons line lines ih =>
    rw [renderLines] at h
    cases hline : renderLine base line with
    | error error =>
      rw [hline] at h
      cases h
    | ok first =>
      cases hlines : renderLines base lines with
      | error error =>
        rw [hline, hlines] at h
        cases h
      | ok others =>
        rw [hline, hlines] at h
        obtain rfl := Except.ok.inj h
        rw [observeLines, observeLines]
        rcases renderLine_eq_ok hline with ⟨hskip, rfl⟩ | ⟨-, hskip, heq⟩
        · have hblank : isSkipped [] = true := by decide
          rw [isSkipped_iff_observeLine.mp hskip, isSkipped_iff_observeLine.mp hblank]
          exact ih hlines progress
        · rw [observeLine_moved base progress hskip heq]
          cases observeLine 0 progress first with
          | error error => rfl
          | ok next => exact ih hlines next

/-- The lines moved to the left give the same mapping. -/
theorem parseSimpleMapping_rendered {base : ℕ} {lines rendered : List Text}
    (h : renderLines base lines = .ok rendered) :
    parseSimpleMapping rendered 0 = parseSimpleMapping lines base := by
  have hmoved := observeLines_moved h ⟨[], [(0, [])]⟩
  unfold parseSimpleMapping
  have hstart : moved base ⟨[], [(0, [])]⟩ = ⟨[], [(base, [])]⟩ := rfl
  rw [← hstart, hmoved]
  cases observeLines 0 ⟨[], [(0, [])]⟩ rendered <;> rfl

/-! ## The text of the values -/

/-- Blank lines change nothing. -/
theorem observeLines_filter (base : ℕ) (progress : Progress) (lines : List Text) :
    observeLines base progress (lines.filter (· ≠ [])) = observeLines base progress lines := by
  induction lines generalizing progress with
  | nil => rfl
  | cons line lines ih =>
    by_cases hblank : line = []
    · subst hblank
      have hskip : isSkipped [] = true := by decide
      rw [List.filter_cons_of_neg (by simp), observeLines, isSkipped_iff_observeLine.mp hskip]
      exact ih progress
    · rw [List.filter_cons_of_pos (by simpa using hblank), observeLines, observeLines]
      cases observeLine base progress line with
      | error error => rfl
      | ok next => exact ih next

theorem parseSimpleMapping_congr {base : ℕ} {lines lines' : List Text}
    (h : lines.filter (· ≠ []) = lines'.filter (· ≠ [])) :
    parseSimpleMapping lines base = parseSimpleMapping lines' base := by
  unfold parseSimpleMapping
  rw [← observeLines_filter, h, observeLines_filter]

/-- Joined and ended by one line feed, lines keep all that are not blank. -/
theorem filter_joinLines {rendered : List Text} (h : ∀ line ∈ rendered, '\n' ∉ line) :
    ((joinLines rendered).splitOn '\n').filter (· ≠ []) = rendered.filter (· ≠ []) := by
  have hkeep := filterMap_rdropWhile (f := fun line : Text => if line ≠ [] then some line else none)
    (by simp) (['\n'].intercalate rendered)
  have hfilter : ∀ lines : List Text,
      lines.filterMap (fun line => if line ≠ [] then some line else none) =
        lines.filter (· ≠ []) := by
    intro lines
    rw [← List.filterMap_eq_filter]
    congr 1
    funext line
    by_cases hline : line = [] <;> simp [hline, Option.guard]
  rw [hfilter, hfilter] at hkeep
  rw [joinLines, splitOn_concat, List.filter_append, hkeep]
  rcases List.eq_nil_or_concat rendered with rfl | ⟨init, last, rfl⟩
  · rfl
  · rw [List.splitOn_intercalate '\n' h (by simp)]
    simp

/-- The lines that are rendered are the ones that are not skipped, without the first spaces. -/
theorem filter_rendered {base : ℕ} {lines rendered : List Text}
    (h : renderLines base lines = .ok rendered) :
    rendered.filter (· ≠ []) = (lines.filter (!isSkipped ·)).map (·.drop base) ∧
      ∀ line ∈ lines, isSkipped line = false → base ≤ indentOf line := by
  induction lines generalizing rendered with
  | nil =>
    obtain rfl := Except.ok.inj h
    exact ⟨rfl, by simp⟩
  | cons line lines ih =>
    rw [renderLines] at h
    cases hline : renderLine base line with
    | error error =>
      rw [hline] at h
      cases h
    | ok first =>
      cases hlines : renderLines base lines with
      | error error =>
        rw [hline, hlines] at h
        cases h
      | ok others =>
        rw [hline, hlines] at h
        obtain rfl := Except.ok.inj h
        obtain ⟨hothers, hindents⟩ := ih hlines
        rcases renderLine_eq_ok hline with ⟨hskip, rfl⟩ | ⟨hskip, hcontent, heq⟩
        · rw [List.filter_cons_of_neg (by simp), List.filter_cons_of_neg (by simp [hskip]), hothers]
          refine ⟨rfl, List.forall_mem_cons.mpr ⟨fun hnot => ?_, hindents⟩⟩
          rw [hskip] at hnot
          cases hnot
        · have hne : first ≠ [] := by
            rintro rfl
            cases hcontent
          have hdrop : line.drop base = first := by
            rw [heq, List.drop_left' List.length_replicate]
          rw [List.filter_cons_of_pos (by simpa using hne),
            List.filter_cons_of_pos (by simp [hskip]), List.map_cons, hdrop, hothers]
          refine ⟨rfl, List.forall_mem_cons.mpr ⟨fun _ => ?_, hindents⟩⟩
          rw [heq, indentOf_append]
          exact Nat.le_add_right _ _

/-- A rendered line is made of the characters of a line. -/
theorem subset_of_rendered {base : ℕ} {lines rendered : List Text}
    (h : renderLines base lines = .ok rendered) : ∀ first ∈ rendered, ∃ line ∈ lines, first ⊆ line := by
  induction lines generalizing rendered with
  | nil =>
    obtain rfl := Except.ok.inj h
    simp
  | cons line lines ih =>
    obtain ⟨first, hline, h⟩ := bind_eq_ok.mp h
    obtain ⟨others, hlines, h⟩ := bind_eq_ok.mp h
    obtain rfl := Except.ok.inj h
    intro r hr
    rcases List.mem_cons.mp hr with rfl | hr
    · refine ⟨line, List.mem_cons_self, ?_⟩
      rcases renderLine_eq_ok hline with ⟨-, rfl⟩ | ⟨-, -, heq⟩
      · exact List.nil_subset _
      · rw [heq]
        exact List.subset_append_right _ _
    · obtain ⟨other, hother, hsub⟩ := ih hlines r hr
      exact ⟨other, List.mem_cons_of_mem _ hother, hsub⟩

/-! ## The block of the values -/

/-- The line that opens a mapping -/
def opener (indent : ℕ) (key : Text) : Text := List.replicate indent ' ' ++ key ++ [':']

/-- These lines are what stands under the one line that opens the mapping: they are indented deeper
or passed over, and the next line, if there is one, is neither. -/
structure IsBody (lines : List Text) (indent : ℕ) (key : Text) (body : List Text) : Prop where
  split : ∃ front rest, lines = front ++ opener indent key :: (body ++ rest) ∧
    opener indent key ∉ front ++ (body ++ rest) ∧
      ∀ line ∈ rest.head?, isSkipped line = false ∧ indentOf line ≤ indent
  deeper : ∀ line ∈ body, isSkipped line = true ∨ indent < indentOf line

theorem IsBody.subset {lines body : List Text} {indent : ℕ} {key : Text}
    (h : IsBody lines indent key body) : body ⊆ lines := by
  obtain ⟨front, rest, rfl, -⟩ := h.split
  intro line hline
  simp [hline]

theorem eq_opener {line key : Text} {indent : ℕ}
    (h : mappingEntry line indent = .ok (some (key, none))) : line = opener indent key := by
  unfold mappingEntry at h
  split at h
  · cases h
  · next hindent =>
    rw [not_not] at hindent
    dsimp only at h
    split at h
    · cases h
    · split at h
      · cases h
      · next hcolon =>
        rw [not_or, not_or, not_not] at hcolon
        split at h
        · next hsuffix =>
          obtain ⟨hkey, -⟩ := Prod.mk.inj (Option.some.inj (Except.ok.inj h))
          rw [hkey] at hcolon hsuffix
          have hcontent : key ++ (line.drop indent).drop key.length = line.drop indent := by
            rw [← hkey]
            exact List.prefix_iff_eq_append.mp (List.takeWhile_prefix _)
          have hlast : (line.drop indent).drop key.length = [':'] := by
            cases hrest : (line.drop indent).drop key.length with
            | nil => simp [hrest] at hcolon
            | cons c rest =>
              rw [hrest] at hcolon hsuffix
              obtain rfl : c = ':' := by simpa using hcolon.2.1
              obtain rfl : rest = [] := by simpa using hsuffix
              rfl
          rw [hlast] at hcontent
          have hline := eq_append_of_le_indentOf hindent.ge
          rw [← hcontent, ← List.append_assoc] at hline
          exact hline
        · split at h
          · cases h
          · split at h <;> cases h

/-- The first line is passed over or says something else, or it is the first entry of the key. -/
theorem entriesOf_cons {line : Text} {lines : List Text} {indent : ℕ} {key : Text}
    {found : List (Option Text × List Text)} (h : entriesOf indent key (line :: lines) = .ok found) :
    (entriesOf indent key lines = .ok found ∧ (isSkipped line = true ∨
      ∀ value, mappingEntry line indent ≠ .ok (some (key, value)))) ∨
    ∃ value rest, found = (value, lines) :: rest ∧ entriesOf indent key lines = .ok rest ∧
      isSkipped line = false ∧ mappingEntry line indent = .ok (some (key, value)) := by
  rw [entriesOf] at h
  by_cases hline : isSkipped line = true
  · rw [if_pos hline] at h
    exact .inl ⟨h, .inl hline⟩
  · rw [if_neg hline] at h
    cases hfirst : mappingEntry line indent with
    | error error =>
      rw [hfirst] at h
      cases h
    | ok entry =>
      cases hrest : entriesOf indent key lines with
      | error error =>
        rw [hfirst, hrest] at h
        cases h
      | ok rest =>
        rw [hfirst, hrest] at h
        cases entry with
        | none =>
          refine .inl ⟨by rw [Except.ok.inj h], .inr fun value heq => ?_⟩
          cases heq
        | some pair =>
          obtain ⟨other, value⟩ := pair
          simp only [bind, Except.bind] at h
          obtain rfl := Except.ok.inj h
          by_cases hother : other = key
          · subst hother
            exact .inr ⟨value, rest, by rw [if_pos rfl], rfl, by simpa using hline, rfl⟩
          · rw [if_neg hother]
            refine .inl ⟨rfl, .inr fun value' heq => hother ?_⟩
            exact (Prod.mk.inj (Option.some.inj (Except.ok.inj heq))).1

/-- Lines without an entry of the key do not open its mapping. -/
theorem opener_not_mem {lines : List Text} {indent : ℕ} {key : Text}
    (h : entriesOf indent key lines = .ok [])
    (hentry : mappingEntry (opener indent key) indent = .ok (some (key, none)))
    (hskip : isSkipped (opener indent key) = false) : opener indent key ∉ lines := by
  induction lines with
  | nil => simp
  | cons line lines ih =>
    rcases entriesOf_cons h with ⟨hlines, hother⟩ | ⟨value, rest, hcons, -⟩
    · rw [List.mem_cons, not_or]
      refine ⟨?_, ih hlines⟩
      rintro rfl
      rcases hother with hpassed | hother
      · rw [hskip] at hpassed
        cases hpassed
      · exact hother none hentry
    · cases hcons

/-- The one entry of a key without a scalar is the line that opens its mapping. -/
theorem entriesOf_singleton {lines after : List Text} {indent : ℕ} {key : Text}
    (h : entriesOf indent key lines = .ok [(none, after)]) :
    mappingEntry (opener indent key) indent = .ok (some (key, none)) ∧
      isSkipped (opener indent key) = false ∧
        ∃ front, lines = front ++ opener indent key :: after ∧
          opener indent key ∉ front ++ after := by
  induction lines with
  | nil => cases h
  | cons line lines ih =>
    rcases entriesOf_cons h with ⟨hlines, hother⟩ | ⟨value, rest, hcons, hrest, hskip, hentry⟩
    · obtain ⟨hentry, hskip, front, hsplit, habsent⟩ := ih hlines
      refine ⟨hentry, hskip, line :: front, by rw [hsplit]; rfl, ?_⟩
      rw [List.cons_append, List.mem_cons, not_or]
      refine ⟨?_, habsent⟩
      rintro rfl
      rcases hother with hpassed | hother
      · rw [hskip] at hpassed
        cases hpassed
      · exact hother none hentry
    · obtain ⟨hfirst, rfl⟩ := List.cons.inj hcons
      obtain ⟨rfl, rfl⟩ := Prod.mk.inj hfirst
      obtain rfl := eq_opener hentry
      exact ⟨hentry, hskip, [], rfl, by simpa using opener_not_mem hrest hentry hskip⟩

/-- The child of a container is its body. -/
theorem isBody_of_child {lines nested : List Text} {indent : ℕ} {key : Text} {value : Option Text}
    (h : child lines indent key true = .ok (value, nested)) : IsBody lines indent key nested := by
  unfold child at h
  cases hfound : entriesOf indent key lines with
  | error error =>
    rw [hfound] at h
    cases h
  | ok found =>
    rw [hfound] at h
    match found, h with
    | [], h => cases h
    | _ :: _ :: _, h => cases h
    | [(some scalar, after)], h => cases h
    | [(none, after)], h =>
      obtain ⟨-, rfl⟩ := Prod.mk.inj (Except.ok.inj h)
      obtain ⟨-, -, front, hlines, habsent⟩ := entriesOf_singleton hfound
      let rest := after.dropWhile fun line => isSkipped line || indent < indentOf line
      have hafter : nestedLines indent after ++ rest = after := List.takeWhile_append_dropWhile
      refine ⟨⟨front, rest, ?_, ?_, ?_⟩, ?_⟩
      · rw [hafter, hlines]
      · rw [hafter]
        exact habsent
      · intro line hline
        have hnot := List.head?_dropWhile_not
          (fun line => isSkipped line || indent < indentOf line) after
        rw [Option.mem_def.mp hline] at hnot
        simpa using hnot
      · intro line hline
        have hkept := List.mem_takeWhile_imp hline
        simpa using hkept

/-! ## What is loaded -/

/-- The text of the values is read to the values, and its lines that are not blank are the lines of
the block of `spec.values` that are no comments and not blank, without their first four spaces. -/
theorem loadHelmRelease_values {name : String} {raw : Bytes} {state : HelmReleaseState}
    (h : loadHelmRelease name raw = .ok state) :
    parseSimpleMapping (state.valuesText.splitOn '\n') 0 = .ok state.values ∧
      ∃ text spec values, readCanonicalText false raw = .ok text ∧
        IsBody (text.splitOn '\n') 0 "spec".toList spec ∧ IsBody spec 2 "values".toList values ∧
          (state.valuesText.splitOn '\n').filter (· ≠ []) =
            (values.filter (!isSkipped ·)).map (·.drop 4) ∧
          ∀ line ∈ values, isSkipped line = false → 4 ≤ indentOf line := by
  unfold loadHelmRelease at h
  split at h
  · cases h
  · obtain ⟨text, htext, h⟩ := bind_eq_ok.mp h
    unfold loadRelease at h
    obtain ⟨_, -, h⟩ := bind_eq_ok.mp h
    obtain ⟨_, -, h⟩ := bind_eq_ok.mp h
    obtain ⟨_, -, h⟩ := bind_eq_ok.mp h
    obtain ⟨_, -, h⟩ := bind_eq_ok.mp h
    obtain ⟨_, -, h⟩ := bind_eq_ok.mp h
    obtain ⟨scalar, -, h⟩ := bind_eq_ok.mp h
    obtain ⟨suspended, -, h⟩ := bind_eq_ok.mp h
    obtain ⟨⟨lines, base⟩, hsection, h⟩ := bind_eq_ok.mp h
    obtain ⟨values, hvalues, h⟩ := bind_eq_ok.mp h
    obtain ⟨rendered, hrendered, h⟩ := bind_eq_ok.mp h
    obtain ⟨_, -, h⟩ := bind_eq_ok.mp h
    obtain rfl := Except.ok.inj h
    obtain ⟨⟨_, spec⟩, hspec, hsection⟩ := bind_eq_ok.mp hsection
    obtain ⟨⟨_, block⟩, hblock, hsection⟩ := bind_eq_ok.mp hsection
    obtain ⟨rfl, rfl⟩ := Prod.mk.inj (Except.ok.inj hsection)
    obtain ⟨hnonblank, hindents⟩ := filter_rendered hrendered
    have hspecBody := isBody_of_child hspec
    have hbody := isBody_of_child hblock
    have hfeeds : ∀ line ∈ rendered, '\n' ∉ line := by
      intro first hfirst hfeed
      obtain ⟨line, hline, hsub⟩ := subset_of_rendered hrendered first hfirst
      exact (of_mem_splitOn (hspecBody.subset (hbody.subset hline))).1 (hsub hfeed)
    have hjoined := filter_joinLines hfeeds
    refine ⟨?_, text, spec, block, htext, hspecBody, hbody, ?_, hindents⟩
    · rw [parseSimpleMapping_congr hjoined, parseSimpleMapping_rendered hrendered]
      exact hvalues
    · rw [hjoined]
      exact hnonblank

theorem loadHelmRelease_of_loadRelease {name : String} {contract : Contract} {raw : Bytes}
    {text : Text} (hcontract : releaseContracts.lookup name = some contract)
    (hread : readCanonicalText false raw = .ok text)
    (hloads : (loadRelease name contract text).toBool = true) :
    ∃ state, loadHelmRelease name raw = .ok state := by
  cases h : loadRelease name contract text with
  | error error =>
    rw [h] at hloads
    cases hloads
  | ok state =>
    refine ⟨state, ?_⟩
    rw [loadHelmRelease, hcontract]
    simp only [hread, bind, Except.bind]
    exact h

/-- A manifest of the connectors, with a comment and a blank line in the block of its values -/
def publicLines : List String :=
  ["apiVersion: helm.toolkit.fluxcd.io/v2", "kind: HelmRelease", "metadata:",
    "  name: cloudflare-public", "  namespace: cloudflare-public", "  annotations:",
    "    platform.snaraj.dev/readiness: suspended-until-tunnel-token-ceremony", "spec:",
    "  suspend: true", "  interval: 10m0s", "  maxHistory: 2", "  releaseName: cloudflare-public",
    "  serviceAccountName: helm-reconciler", "  chart:", "    spec:",
    "      chart: ./kubernetes/platform/cloudflare-public/chart",
    "      reconcileStrategy: Revision", "      sourceRef:", "        kind: GitRepository",
    "        name: cloudflare-public-source", "      interval: 10m0s", "  install:",
    "    remediation:", "      retries: 0", "  upgrade:", "    cleanupOnFail: true",
    "    remediation:", "      retries: 0", "      strategy: rollback", "  values:",
    "    connectors:", "# values:", "      naranjo-online:", "        tokenRevision: rev-1", "",
    "      lidersea-com:", "        tokenRevision: not-configured", "      obsync:",
    "        tokenRevision: UNRESOLVED"]

def publicRelease : Text := ShellText.unlines (publicLines.map String.toList)

theorem publicRelease_loads :
    (publicRelease.flatMap String.utf8EncodeChar).length ≤ maxReleaseYamlBytes ∧
      (publicRelease.flatMap String.utf8EncodeChar).getLast? = some 10 ∧
        publicRelease.any isForbidden = false ∧
          (publicRelease.splitOn '\n').any isDocumentMarker = false ∧
            (releaseContracts.lookup "cloudflare-public").any (fun contract =>
              (loadRelease "cloudflare-public" contract publicRelease).toBool) = true := by
  decide +kernel

theorem loadHelmRelease_values_public : ∃ state,
    loadHelmRelease "cloudflare-public" (encode (String.ofList publicRelease)) = .ok state ∧
      parseSimpleMapping (state.valuesText.splitOn '\n') 0 = .ok state.values := by
  obtain ⟨hlength, hlast, hchars, hmarkers, hany⟩ := publicRelease_loads
  obtain ⟨contract, hcontract, hloads⟩ := (Option.any_eq_true _ _).mp hany
  have hread := readCanonicalText_encode hlength hlast hchars hmarkers
  obtain ⟨state, hstate⟩ := loadHelmRelease_of_loadRelease hcontract hread hloads
  exact ⟨state, hstate, (loadHelmRelease_values hstate).1⟩

end ReleaseState
