import Mathlib
import WebsiteInfrastructure.AccountAudit.Script

/-!
# What one accepted answer shows

Where a check has no finding, its promise holds of the answer if and only if the answer leaves
nothing to the defaults of the filters.
-/

namespace AccountAudit

open ShellText Jq Jq.Value

variable {env : Env} {api : Api} {site : Site} {response detail config : Value}

/-! ## What is promised of one answer -/

/-- An accepted answer of an object, with a property. -/
def ObjectSays (api : Api) (call : Call) (path : Text) (P : Value → Prop) : Prop :=
  ∃ response, apiObject api call path = some response ∧ P response

/-- An accepted answer of a collection, with a property. -/
def CollectionSays (env : Env) (api : Api) (call : Call) (path : Text) (P : Value → Prop) : Prop :=
  ∃ response, apiCollection env api call path = some response ∧ P response

/-- No total count beyond the items that were seen. -/
def Complete (response : Value) : Prop :=
  ∀ total, response.at? ["result_info", "total_count"] = some (.num total) →
    total ≤ (resultItems response).length

/-- The proxied CNAME record of the apex. -/
structure ProxiedApex (site : Site) (target : Text) (record : Value) : Prop where
  name : record.entry "name" = some (.string site.zone)
  type : record.entry "type" = some (.string "CNAME")
  content : record.entry "content" = some (.str target)
  proxied : record.entry "proxied" = some (.bool true)

/-- The records of a zone are exactly one. -/
def DnsExact (site : Site) (target : Text) (response : Value) : Prop :=
  ∃ record, resultItems response = [record] ∧ ProxiedApex site target record

/-- A rule applies to every path. -/
def AnyPath (rule : Value) : Prop :=
  rule.entry "path" = none ∨ rule.entry "path" = some .null ∨ rule.entry "path" = some (.string "")

structure HostnameRule (site : Site) (rule : Value) : Prop where
  hostname : rule.entry "hostname" = some (.string site.zone)
  service : rule.entry "service" = some (.string site.origin)
  anyPath : AnyPath rule

structure TerminalRule (rule : Value) : Prop where
  hostname : rule.entry "hostname" = none
  service : rule.entry "service" = some (.string "http_status:404")
  anyPath : AnyPath rule

/-- The ingress of a Tunnel is the unconditional rule and the terminal one. -/
def IngressExact (site : Site) (config : Value) : Prop :=
  ∃ rule terminal, config.at? ["result", "config", "ingress"] = some (.arr [rule, terminal]) ∧
    HostnameRule site rule ∧ TerminalRule terminal

/-- A value is there, and is the required one. -/
def HasValue (keys : List String) (required : Value) (response : Value) : Prop :=
  response.at? keys = some required

/-- Every permission group is there, as an allow of a Read permission. -/
def ReadOnly (detail : Value) : Prop :=
  ∃ policies, detail.at? ["result", "policies"] = some (.arr policies) ∧
    ∀ policy ∈ policies, ∃ groups, policy.entry "permission_groups" = some (.arr groups) ∧
      ∀ group ∈ groups, policy.entry "effect" = some (.string "allow") ∧
        ∃ name, group.entry "name" = some name ∧ testEnd "Read" name = some true

/-! ## What the filters take on trust -/

/-- A value that only reads as the required text. -/
def Lookalike (env : Env) (text : String) (required v : Value) : Prop :=
  captured env (some v) = text.toList ∧ v ≠ required

/-- A value that is there is not a look-alike of the required text. -/
def Genuine (env : Env) (keys : List String) (text : String) (response : Value) : Prop :=
  ∀ v, response.at? keys = some v → ¬ Lookalike env text (.string text) v

/-- The record is the one that is counted, or it has a type that can be listed. -/
def Listed (env : Env) (site : Site) (target : Text) (record : Value) : Prop :=
  if apexCname site record = some true then exactCname site target record = some true
  else ∃ type, record.field "type" = some type ∧ Printable env type

/-- No rule of the ingress has a path. -/
def Pathless (config : Value) : Prop :=
  ∀ rules, config.at? ["result", "config", "ingress"] = some (.arr rules) →
    ∀ rule ∈ rules, AnyPath rule

/-- The switch of the managed policy is there, and is not a look-alike of `false`. -/
def SwitchGiven (env : Env) (response : Value) : Prop :=
  ∃ v, response.at? ["result", "value", "strict_transport_security", "enabled"] = some v ∧
    v ≠ .null ∧ ¬ Lookalike env "false" (.bool false) v

/-- Policies and groups are lists; a policy with a group has an effect, and every group a name that
prints as something. -/
def PermissionsGiven (detail : Value) : Prop :=
  ∃ policies, detail.at? ["result", "policies"] = some (.arr policies) ∧
    ∀ policy ∈ policies, ∃ groups, policy.entry "permission_groups" = some (.arr groups) ∧
      ∀ group ∈ groups, (∃ effect, policy.entry "effect" = some effect ∧ effect.truthy = true) ∧
        ∃ name, group.entry "name" = some (.str name) ∧ substitution name ≠ []

/-! ## One answer -/

/-- The filter gives a value, and it is there. -/
theorem exists_at? {keys : List String} {text : String} (htext : text ≠ "null") (hne : text ≠ "")
    (h : captured env (response.fields keys) = text.toList) :
    ∃ v, response.at? keys = some v ∧ captured env (some v) = text.toList := by
  cases hfields : response.fields keys with
  | none =>
    rw [hfields] at h
    exact absurd (String.toList_inj.mp (h.symm.trans rfl)) hne
  | some v =>
    rw [hfields] at h
    refine ⟨v, at?_of_fields hfields ?_, h⟩
    rintro rfl
    have hnull : captured env (some .null) = "null".toList := by
      show substitution "null".toList = "null".toList
      decide
    exact htext (String.toList_inj.mp (h.symm.trans hnull))

theorem genuine_iff {keys : List String} {text : String} (htext : text ≠ "null") (hne : text ≠ "")
    (h : captured env (response.fields keys) = text.toList) :
    HasValue keys (.string text) response ↔ Genuine env keys text response := by
  obtain ⟨v, hthere, hreads⟩ := exists_at? htext hne h
  constructor
  · rintro hvalue w hw ⟨-, hdiffers⟩
    rw [HasValue, hw] at hvalue
    exact hdiffers (Option.some.inj hvalue)
  · intro hgenuine
    by_contra hother
    refine hgenuine v hthere ⟨hreads, ?_⟩
    rintro rfl
    exact hother hthere

/-- A text that is not the default is read from the value itself. -/
theorem captured_of_alt {x : Option Value} {default text : String} (hdefault : text ≠ default)
    (hplain : substitution default.toList = default.toList)
    (h : captured env (alt env x (some (.string default))) = text.toList) :
    captured env x = text.toList := by
  have hnot : captured env (some (.string default)) ≠ text.toList := by
    intro heq
    rw [show captured env (some (.string default)) = default.toList from hplain] at heq
    exact hdefault (String.toList_inj.mp heq.symm)
  cases x with
  | none =>
    simp only [alt] at h
    split at h
    · exact absurd h hnot
    · exact h
  | some v =>
    simp only [alt] at h
    split at h
    · exact h
    · exact absurd h hnot

theorem ssl_iff {keys : List String}
    (h : captured env (response.fields keys) = "full".toList ∨
      captured env (response.fields keys) = "strict".toList) :
    (HasValue keys (.string "full") response ∨ HasValue keys (.string "strict") response) ↔
      Genuine env keys "full" response ∧ Genuine env keys "strict" response := by
  have hother : ∀ {text other : String}, text ≠ "null" → text ≠ "" → text ≠ other →
      captured env (response.fields keys) = text.toList → Genuine env keys other response := by
    intro text other htext hne hdiffers hreads w hw hlike
    rw [fields_of_at? hw, hlike.1] at hreads
    exact hdiffers (String.toList_inj.mp hreads).symm
  have hunlike : ∀ {text other : String}, text ≠ other →
      captured env (response.fields keys) = text.toList →
      substitution other.toList = other.toList → ¬ HasValue keys (.string other) response := by
    intro text other hdiffers hreads hplain hvalue
    rw [fields_of_at? hvalue, show captured env (some (.string other)) = other.toList from hplain]
      at hreads
    exact hdiffers (String.toList_inj.mp hreads).symm
  rcases h with h | h
  · have hgenuine := hother (by decide) (by decide) (show "full" ≠ "strict" by decide) h
    have hnot := hunlike (show "full" ≠ "strict" by decide) h (by decide)
    rw [or_iff_left hnot, and_iff_left hgenuine, genuine_iff (by decide) (by decide) h]
  · have hgenuine := hother (by decide) (by decide) (show "strict" ≠ "full" by decide) h
    have hnot := hunlike (show "strict" ≠ "full" by decide) h (by decide)
    rw [or_iff_right hnot, and_iff_right hgenuine, genuine_iff (by decide) (by decide) h]

theorem switch_iff
    (h : captured env (alt env
      (response.fields ["result", "value", "strict_transport_security", "enabled"])
      (some (.bool false))) = "false".toList) :
    HasValue ["result", "value", "strict_transport_security", "enabled"] (.bool false) response ↔
      SwitchGiven env response := by
  constructor
  · intro hvalue
    exact ⟨_, hvalue, by simp, fun hlike => hlike.2 rfl⟩
  · rintro ⟨v, hv, hnull, hgenuine⟩
    rw [fields_of_at? hv] at h
    by_contra hother
    have hne : v ≠ .bool false := by
      rintro rfl
      exact hother hv
    have htruthy : v.truthy = true := by
      rcases v with _ | (_ | _) | _ | _ | _ | _ <;> simp_all [truthy]
    rw [alt_of_truthy htruthy] at h
    exact hgenuine ⟨h, hne⟩

/-! ## DNS -/

/-- A key whose value is the given text is there. -/
theorem entry_of_isStr {key : String} {v w : Value} {t : Text} (hw : v.field key = some w)
    (ht : w.isStr t = true) : v.entry key = some (.str t) := by
  obtain rfl := isStr_iff.mp ht
  exact entry_of_field hw (by simp)

theorem proxiedApex_of_exact {target : Text} {record : Value}
    (h : exactCname site target record = some true) : ProxiedApex site target record := by
  simp only [exactCname, Option.bind_eq_bind] at h
  obtain ⟨name, hname, h⟩ := Option.bind_eq_some_iff.mp h
  split at h
  · cases h
  · rename_i hnamed
    obtain ⟨type, htype, h⟩ := Option.bind_eq_some_iff.mp h
    split at h
    · cases h
    · rename_i htyped
      obtain ⟨content, hcontent, h⟩ := Option.bind_eq_some_iff.mp h
      split at h
      · cases h
      · rename_i htargets
        obtain ⟨proxied, hproxied, h⟩ := Option.bind_eq_some_iff.mp h
        split at h
        · cases h
        · rename_i hproxies
          simp only [Bool.not_eq_true', Bool.not_eq_false] at hnamed htyped htargets hproxies
          obtain rfl := isTrue_iff.mp hproxies
          exact ⟨entry_of_isStr hname hnamed, entry_of_isStr htype htyped,
            entry_of_isStr hcontent htargets, entry_of_field hproxied (by simp)⟩

theorem listed_select {target : Text} {records : List Value}
    (hlisted : ∀ record ∈ records, Listed env site target record) :
    ∃ others, select (fun record => (apexCname site record).map (!·)) records = some others := by
  refine select_of_forall fun record hrecord => ?_
  have hrecord' := hlisted record hrecord
  unfold Listed at hrecord'
  split at hrecord'
  · rename_i happle
    exact ⟨false, by rw [happle]; rfl⟩
  · obtain ⟨type, htype, t, hscalar, hreads⟩ := hrecord'
    cases record with
    | null =>
      cases htype
      cases hscalar
      exact absurd rfl hreads
    | obj fields =>
      refine ⟨!(apexCname site (.obj fields)).getD false, ?_⟩
      simp only [apexCname, field, Option.bind_eq_bind, Option.bind_some, Option.pure_def]
      split <;> rfl
    | _ => cases htype

theorem dns_iff {target : Text}
    (hexact : (select (exactCname site target) (resultItems response)).map List.length = some 1)
    (hunexpected : capturedText (unexpectedTypes env site (resultItems response)) = []) :
    DnsExact site target response ↔
      ∀ record ∈ resultItems response, Listed env site target record := by
  obtain ⟨chosen, hchosen, hlength⟩ := Option.map_eq_some_iff.mp hexact
  obtain ⟨hall, hmem⟩ := select_eq_some hchosen
  constructor
  · rintro ⟨record, hrecords, happle⟩ record' hrecord'
    rw [hrecords, List.mem_singleton] at hrecord'
    rw [hrecord']
    have hapex : apexCname site record = some true := by
      simp [apexCname, field_of_entry happle.name, field_of_entry happle.type, isStr, Value.string]
    rw [Listed, if_pos hapex]
    obtain ⟨v, rest⟩ := List.exists_cons_of_length_pos (show 0 < chosen.length by omega)
    obtain ⟨rest, rfl⟩ := rest
    obtain ⟨hv, htrue⟩ := hmem v List.mem_cons_self
    rw [hrecords, List.mem_singleton] at hv
    rw [← hv]
    exact htrue
  · intro hlisted
    -- A listed record beyond the apex would be printed.
    obtain ⟨others, hothers⟩ := @listed_select env site target _ hlisted
    obtain ⟨hapexes, hbeyond⟩ := select_eq_some hothers
    have hprintable : ∀ record ∈ others, ∃ type, record.field "type" = some type ∧
        Printable env type := by
      intro record hrecord
      obtain ⟨hin, hnot⟩ := hbeyond record hrecord
      have hrecord' := hlisted record hin
      unfold Listed at hrecord'
      split at hrecord'
      · rename_i htrue
        rw [htrue] at hnot
        cases hnot
      · exact hrecord'
    obtain ⟨types, htypes⟩ := @mapM_of_forall _ (field "type") others fun record hrecord => by
      obtain ⟨type, htype, -⟩ := hprintable record hrecord
      exact ⟨type, htype⟩
    obtain ⟨hfrom, hto⟩ := mem_mapM htypes
    have hnone : types = [] := by
      by_contra hsome
      have hreads : capturedText (join env (unique (sort types))) ≠ [] := by
        refine join_reads (fun type htype => ?_) fun hsort => hsome ?_
        · obtain ⟨record, hrecord, hfield⟩ := hfrom type ((List.mem_insertionSort _).mp htype)
          obtain ⟨type', htype', hprint⟩ := hprintable record hrecord
          rw [hfield] at htype'
          rw [Option.some.inj htype']
          exact hprint
        · have hsorted := List.length_insertionSort (fun v w : Value => v.le w = true) types
          unfold sort at hsort
          rw [hsort] at hsorted
          exact List.length_eq_zero_iff.mp hsorted.symm
      refine hreads ?_
      simpa [unexpectedTypes, hothers, htypes] using hunexpected
    have hempty : others = [] := by
      by_contra hsome
      obtain ⟨record, hrecord⟩ := List.exists_mem_of_ne_nil _ hsome
      obtain ⟨type, htype, -⟩ := hto record hrecord
      rw [hnone] at htype
      cases htype
    have hsame : ∀ record ∈ resultItems response, exactCname site target record = some true := by
      intro record hrecord
      obtain ⟨c, hc, hkept⟩ := hapexes record hrecord
      have hapex : apexCname site record = some true := by
        obtain ⟨b, hb, hnot⟩ := Option.map_eq_some_iff.mp hc
        cases b
        · have hin := hkept hnot.symm
          rw [hempty] at hin
          cases hin
        · exact hb
      have hrecord' := hlisted record hrecord
      rwa [Listed, if_pos hapex] at hrecord'
    have hchosen' := hchosen
    rw [select_all hsame] at hchosen'
    have hone : (resultItems response).length = 1 := by
      rw [Option.some.inj hchosen']
      exact hlength
    obtain ⟨record, hrecord⟩ := List.length_eq_one_iff.mp hone
    refine ⟨record, hrecord, ?_⟩
    exact proxiedApex_of_exact (hsame record (by simp [hrecord]))

/-! ## Ingress -/

theorem ingress_iff (h : holds (ingressExact site config) = true) :
    IngressExact site config ↔ Pathless config := by
  simp only [holds, decide_eq_true_eq, ingressExact, Option.bind_eq_bind] at h
  obtain ⟨result, hresult, h⟩ := Option.bind_eq_some_iff.mp h
  obtain ⟨configuration, hconfiguration, h⟩ := Option.bind_eq_some_iff.mp h
  obtain ⟨ingress, hingress, h⟩ := Option.bind_eq_some_iff.mp h
  have hpath : config.fields ["result", "config", "ingress"] = some ingress := by
    simp [fields, hresult, hconfiguration, hingress]
  split at h
  · rename_i rule terminal
    have hthere := at?_of_fields hpath (by simp)
    obtain ⟨hostname, hhostname, h⟩ := Option.bind_eq_some_iff.mp h
    split at h
    · cases h
    · rename_i hnamed
      obtain ⟨service, hservice, h⟩ := Option.bind_eq_some_iff.mp h
      split at h
      · cases h
      · rename_i hserved
        obtain ⟨named, hhas, h⟩ := Option.bind_eq_some_iff.mp h
        split at h
        · cases h
        · rename_i hunnamed
          obtain ⟨last, hlast, h⟩ := Option.bind_eq_some_iff.mp h
          simp only [Bool.not_eq_true', Bool.not_eq_false] at hnamed hserved
          have hterminal : terminal.entry "hostname" = none := by
            rw [Bool.not_eq_true] at hunnamed
            exact entry_of_has (hunnamed ▸ hhas)
          have hstatus : terminal.entry "service" = some (.string "http_status:404") :=
            entry_of_isStr hlast (by simpa using h)
          constructor
          · rintro ⟨r, t, hrules, hrule, hterm⟩ rules hrules' r' hr'
            rw [hrules] at hrules'
            cases hrules'
            simp only [List.mem_cons, List.not_mem_nil, or_false] at hr'
            rcases hr' with rfl | rfl
            · exact hrule.anyPath
            · exact hterm.anyPath
          · intro hpathless
            have hany := hpathless _ hthere
            exact ⟨rule, terminal, hthere,
              ⟨entry_of_isStr hhostname hnamed, entry_of_isStr hservice hserved,
                hany rule (by simp)⟩,
              ⟨hterminal, hstatus, hany terminal (by simp)⟩⟩
  · cases h

/-! ## Permissions -/

/-- What the filter prints of a policy whose groups, effect and names are given. -/
theorem nonReadOfPolicy_given {policy : Value} {groups : List Value}
    (hgroups : policy.entry "permission_groups" = some (.arr groups))
    (hgiven : ∀ group ∈ groups,
      (∃ effect, policy.entry "effect" = some effect ∧ effect.truthy = true) ∧
        ∃ name, group.entry "name" = some (.str name) ∧ substitution name ≠ []) :
    ∃ names, nonReadOfPolicy env policy = some names ∧ (∀ name ∈ names, Printable env name) ∧
      (names = [] → ∀ group ∈ groups, policy.entry "effect" = some (.string "allow") ∧
        ∃ name, group.entry "name" = some name ∧ testEnd "Read" name = some true) := by
  have heffect : ∃ effect, alt env (policy.field "effect") (some (.string "allow")) = some effect ∧
      (groups ≠ [] → policy.entry "effect" = some effect) := by
    by_cases hempty : groups = []
    · cases policy with
      | obj fields =>
        simp only [field, alt]
        split
        · exact ⟨_, rfl, fun hne => absurd hempty hne⟩
        · exact ⟨_, rfl, fun hne => absurd hempty hne⟩
      | _ => cases hgroups
    · obtain ⟨group, hgroup⟩ := List.exists_mem_of_ne_nil _ hempty
      obtain ⟨⟨effect, hthere, htruthy⟩, -⟩ := hgiven group hgroup
      exact ⟨effect, by rw [field_of_entry hthere, alt_of_truthy htruthy], fun _ => hthere⟩
  obtain ⟨effect, halt, hthere⟩ := heffect
  have hname : ∀ group ∈ groups, ∃ name, group.entry "name" = some (.str name) ∧
      substitution name ≠ [] ∧
      ∀ default, alt env (group.field "name") default = some (.str name) := by
    intro group hgroup
    obtain ⟨-, name, hentry, hreads⟩ := hgiven group hgroup
    exact ⟨name, hentry, hreads, fun default => by rw [field_of_entry hentry, alt_of_truthy rfl]⟩
  obtain ⟨selected, hselected⟩ := @select_of_forall (fun group => do
      if !effect.isStr "allow".toList then some true
      else (← testEnd "Read" (← alt env (group.field "name") (some (.string "")))).not) groups
    fun group hgroup => by
      obtain ⟨name, -, -, halts⟩ := hname group hgroup
      simp only [halts, testEnd, Option.bind_eq_bind, Option.bind_some]
      split <;> exact ⟨_, rfl⟩
  obtain ⟨hkept, hmem⟩ := select_eq_some hselected
  obtain ⟨names, hnames⟩ := @mapM_of_forall _
    (fun group => alt env (group.field "name") (some (.string "unnamed"))) selected
    fun group hgroup => by
      obtain ⟨name, -, -, halts⟩ := hname group (hmem group hgroup).1
      exact ⟨_, halts _⟩
  obtain ⟨hfrom, hto⟩ := mem_mapM hnames
  refine ⟨names, ?_, ?_, ?_⟩
  · simp only [nonReadOfPolicy, halt, field_of_entry hgroups, Option.bind_eq_bind,
      Option.bind_some, each]
    simp only [Option.bind_eq_bind] at hselected
    rw [hselected]
    exact hnames
  · intro name hin
    obtain ⟨group, hgroup, hprinted⟩ := hfrom name hin
    obtain ⟨text, -, hreads, halts⟩ := hname group (hmem group hgroup).1
    rw [halts] at hprinted
    rw [← Option.some.inj hprinted]
    exact ⟨text, rfl, hreads⟩
  · intro hempty group hgroup
    obtain ⟨chosen, hchosen, hin⟩ := hkept group hgroup
    have hnot : chosen = false := by
      by_contra htrue
      obtain ⟨name, hprinted, -⟩ := hto group (hin (by simpa using htrue))
      rw [hempty] at hprinted
      cases hprinted
    obtain ⟨name, hentry, -, halts⟩ := hname group hgroup
    subst hnot
    simp only [halts, Option.bind_eq_bind, Option.bind_some] at hchosen
    split at hchosen
    · cases hchosen
    · rename_i hallow
      obtain ⟨read, hread, hno⟩ := Option.bind_eq_some_iff.mp hchosen
      have hallow' : effect.isStr "allow".toList = true := by simpa using hallow
      refine ⟨?_, .str name, hentry, ?_⟩
      · rw [hthere (List.ne_nil_of_mem hgroup), isStr_iff.mp hallow']
        rfl
      · cases read
        · cases hno
        · exact hread

theorem permissions_iff (h : capturedText (nonRead env detail) = []) :
    ReadOnly detail ↔ PermissionsGiven detail := by
  constructor
  · rintro ⟨policies, hpolicies, hall⟩
    refine ⟨policies, hpolicies, fun policy hpolicy => ?_⟩
    obtain ⟨groups, hgroups, hread⟩ := hall policy hpolicy
    refine ⟨groups, hgroups, fun group hgroup => ?_⟩
    obtain ⟨heffect, name, hname, htest⟩ := hread group hgroup
    refine ⟨⟨_, heffect, rfl⟩, ?_⟩
    cases name with
    | str text =>
      refine ⟨text, hname, ?_⟩
      have hletter : 'R' ∈ text := by
        simp only [testEnd, Option.some.injEq, Bool.or_eq_true, decide_eq_true_eq] at htest
        rcases htest with hsuffix | hsuffix
        · exact hsuffix.subset (by decide)
        · exact hsuffix.subset (by decide)
      exact substitution_ne_nil hletter (by decide) (by decide)
    | _ => cases htest
  · rintro ⟨policies, hpolicies, hall⟩
    refine ⟨policies, hpolicies, ?_⟩
    obtain ⟨found, hfound⟩ : ∃ found, policies.mapM (nonReadOfPolicy env) = some found := by
      have hsome : ∀ policy ∈ policies, ∃ names, nonReadOfPolicy env policy = some names := by
        intro policy hpolicy
        obtain ⟨groups, hgroups, hgiven⟩ := hall policy hpolicy
        obtain ⟨names, hnames, -⟩ := @nonReadOfPolicy_given env policy groups hgroups hgiven
        exact ⟨names, hnames⟩
      exact mapM_of_forall hsome
    obtain ⟨hfrom, hto⟩ := mem_mapM hfound
    have hjoin : nonRead env detail = join env (unique found.flatten) := by
      have hfields := fields_of_at? hpolicies
      simp only [fields, List.foldl_cons, List.foldl_nil, Option.bind_some] at hfields
      obtain ⟨result, hresult, hlist⟩ := Option.bind_eq_some_iff.mp hfields
      simp [nonRead, hresult, hlist, each, hfound]
    have hflat : found.flatten = [] := by
      by_contra hsome
      rw [hjoin] at h
      refine join_reads (fun name hname => ?_) hsome h
      obtain ⟨names, hnames, hin⟩ := List.mem_flatten.mp hname
      obtain ⟨policy, hpolicy, hprinted⟩ := hfrom names hnames
      obtain ⟨groups, hgroups, hgiven⟩ := hall policy hpolicy
      obtain ⟨names', hnames', hprintable, -⟩ :=
        @nonReadOfPolicy_given env policy groups hgroups hgiven
      rw [hprinted] at hnames'
      rw [Option.some.inj hnames'] at hin
      exact hprintable name hin
    intro policy hpolicy
    obtain ⟨groups, hgroups, hgiven⟩ := hall policy hpolicy
    obtain ⟨names, hnames, -, hnone⟩ := @nonReadOfPolicy_given env policy groups hgroups hgiven
    obtain ⟨names', hin, hprinted⟩ := hto policy hpolicy
    rw [hnames] at hprinted
    refine ⟨groups, hgroups, hnone ?_⟩
    rw [Option.some.inj hprinted]
    exact List.flatten_eq_nil_iff.mp hflat names' hin

end AccountAudit
