import Mathlib
import WebsiteInfrastructure.AccountAudit.Answers

/-!
# Soundness of the audit

The promises of an audit that ends with status zero, over the answers to its own requests, and
when they hold.
-/

namespace AccountAudit

open ShellText Jq Jq.Value

/-! ## What the run refers to -/

section Run

variable (env : Env) (api : Api)

def zoneOf (site : Site) : Text := zoneId (zoneIdentity env api site)

def accountOf : Text := accountId (zoneIdentity env api .naranjoOnline)

/-- The identifier of a site's own Tunnel. -/
def tunnelOf (site : Site) : Text :=
  tunnelIdFor env (auditTunnels env api (accountOf env api)).2 site

def tokenOf : Text :=
  match apiObject api .tokenVerify "/user/tokens/verify".toList with
  | none => []
  | some verify => tokenId env verify

/-- Every collection that a statement about its number of items is based on is complete. -/
structure CollectionsComplete : Prop where
  zones : ∀ site, CollectionSays env api (.zone site) (zonesPath site) Complete
  subscriptions : CollectionSays env api .accountSubscriptions
    (accountPath (accountOf env api) "/subscriptions") Complete
  tunnels : CollectionSays env api .tunnels
    (accountPath (accountOf env api) "/cfd_tunnel?is_deleted=false") Complete
  routes : CollectionSays env api .privateRoutes
    (accountPath (accountOf env api) "/teamnet/routes?is_deleted=false") Complete
  profiles : CollectionSays env api .deviceProfiles
    (accountPath (accountOf env api) "/devices/policies") Complete
  records : ∀ site, CollectionSays env api (.dnsRecords site)
    (zonePath (zoneOf env api site) "/dns_records") Complete

/-- What is promised of the answers. -/
structure Sound : Prop where
  collections : CollectionsComplete env api
  dns : ∀ site, CollectionSays env api (.dnsRecords site)
    (zonePath (zoneOf env api site) "/dns_records")
    (DnsExact site (tunnelTarget (tunnelOf env api site)))
  ingress : ∀ site, ObjectSays api (.tunnelConfiguration site)
    (tunnelPath (accountOf env api) (tunnelOf env api site) "/configurations") (IngressExact site)
  setting : ∀ site, ∀ setting ∈ settings, ObjectSays api (.setting site setting)
    (settingPath (zoneOf env api site) setting.name)
    (HasValue ["result", "value"] (.string setting.expected))
  ssl : ∀ site, ObjectSays api (.ssl site) (settingPath (zoneOf env api site) "ssl")
    fun response => HasValue ["result", "value"] (.string "full") response ∨
      HasValue ["result", "value"] (.string "strict") response
  managedHsts : ∀ site, ObjectSays api (.securityHeader site)
    (settingPath (zoneOf env api site) "security_header")
    (HasValue ["result", "value", "strict_transport_security", "enabled"] (.bool false))
  dnssec : ∀ site, ObjectSays api (.dnssec site) (zonePath (zoneOf env api site) "/dnssec")
    (HasValue ["result", "status"] (.string site.dnssec))
  tokenActive : ObjectSays api .tokenVerify "/user/tokens/verify".toList
    (HasValue ["result", "status"] (.string "active"))
  tokenRead : ObjectSays api .tokenDetail (tokenPath (tokenOf env api)) ReadOnly

/-- The answers leave nothing to the defaults of the filters. -/
structure Explicit : Prop where
  collections : CollectionsComplete env api
  dns : ∀ site, CollectionSays env api (.dnsRecords site)
    (zonePath (zoneOf env api site) "/dns_records")
    fun response => ∀ record ∈ resultItems response,
      Listed env site (tunnelTarget (tunnelOf env api site)) record
  ingress : ∀ site, ObjectSays api (.tunnelConfiguration site)
    (tunnelPath (accountOf env api) (tunnelOf env api site) "/configurations") Pathless
  setting : ∀ site, ∀ setting ∈ settings, ObjectSays api (.setting site setting)
    (settingPath (zoneOf env api site) setting.name)
    (Genuine env ["result", "value"] setting.expected)
  ssl : ∀ site, ObjectSays api (.ssl site) (settingPath (zoneOf env api site) "ssl")
    fun response => Genuine env ["result", "value"] "full" response ∧
      Genuine env ["result", "value"] "strict" response
  managedHsts : ∀ site, ObjectSays api (.securityHeader site)
    (settingPath (zoneOf env api site) "security_header") (SwitchGiven env)
  dnssec : ∀ site, ObjectSays api (.dnssec site) (zonePath (zoneOf env api site) "/dnssec")
    (Genuine env ["result", "status"] site.dnssec)
  tokenActive : ObjectSays api .tokenVerify "/user/tokens/verify".toList
    (Genuine env ["result", "status"] "active")
  tokenRead : ObjectSays api .tokenDetail (tokenPath (tokenOf env api)) PermissionsGiven

end Run

variable {env : Env} {api : Api} {site : Site}

/-! ## Checks without a finding -/

theorem require_eq_nil {met : Bool} {finding : Finding} : require met finding = [] ↔ met = true := by
  cases met <;> simp [require]

theorem objectSays_congr {call : Call} {path : Text} {Q P P' : Value → Prop}
    (h : ObjectSays api call path Q) (hiff : ∀ response, Q response → (P response ↔ P' response)) :
    ObjectSays api call path P ↔ ObjectSays api call path P' := by
  obtain ⟨response, hresponse, hq⟩ := h
  constructor
  · rintro ⟨r, hr, hp⟩
    obtain rfl := Option.some.inj (hresponse.symm.trans hr)
    exact ⟨response, hresponse, (hiff _ hq).mp hp⟩
  · rintro ⟨r, hr, hp⟩
    obtain rfl := Option.some.inj (hresponse.symm.trans hr)
    exact ⟨response, hresponse, (hiff _ hq).mpr hp⟩

theorem collectionSays_congr {call : Call} {path : Text} {Q P P' : Value → Prop}
    (h : CollectionSays env api call path Q)
    (hiff : ∀ response, Q response → (P response ↔ P' response)) :
    CollectionSays env api call path P ↔ CollectionSays env api call path P' := by
  obtain ⟨response, hresponse, hq⟩ := h
  constructor
  · rintro ⟨r, hr, hp⟩
    obtain rfl := Option.some.inj (hresponse.symm.trans hr)
    exact ⟨response, hresponse, (hiff _ hq).mp hp⟩
  · rintro ⟨r, hr, hp⟩
    obtain rfl := Option.some.inj (hresponse.symm.trans hr)
    exact ⟨response, hresponse, (hiff _ hq).mpr hp⟩

theorem settingValue_eq {response : Value} :
    settingValue env response = captured env (response.fields ["result", "value"]) := rfl

theorem auditSetting_nil {zone : Text} {setting : Setting}
    (h : auditSetting env api site zone setting = []) :
    ObjectSays api (.setting site setting) (settingPath zone setting.name) fun response =>
      captured env (response.fields ["result", "value"]) = setting.expected.toList := by
  unfold auditSetting at h
  split at h
  · cases h
  · rename_i response hresponse
    rw [require_eq_nil, decide_eq_true_eq, settingValue_eq] at h
    exact ⟨response, hresponse, h⟩

theorem auditSslMode_nil {zone : Text} (h : auditSslMode env api site zone = []) :
    ObjectSays api (.ssl site) (settingPath zone "ssl") fun response =>
      captured env (response.fields ["result", "value"]) = "full".toList ∨
        captured env (response.fields ["result", "value"]) = "strict".toList := by
  unfold auditSslMode at h
  split at h
  · cases h
  · rename_i response hresponse
    rw [require_eq_nil, Bool.or_eq_true, decide_eq_true_eq, decide_eq_true_eq] at h
    exact ⟨response, hresponse, h⟩

theorem auditManagedHsts_nil {zone : Text} (h : auditManagedHsts env api site zone = []) :
    ObjectSays api (.securityHeader site) (settingPath zone "security_header") fun response =>
      captured env (alt env
        (response.fields ["result", "value", "strict_transport_security", "enabled"])
        (some (.bool false))) = "false".toList := by
  unfold auditManagedHsts at h
  split at h
  · cases h
  · rename_i response hresponse
    rw [require_eq_nil, decide_eq_true_eq] at h
    refine ⟨response, hresponse, ?_⟩
    simpa [fields, Option.bind_assoc] using h

theorem auditDnssec_nil {zone : Text} (h : auditDnssec env api site zone = []) :
    ObjectSays api (.dnssec site) (zonePath zone "/dnssec") fun response =>
      captured env (response.fields ["result", "status"]) = site.dnssec.toList := by
  unfold auditDnssec at h
  split at h
  · cases h
  · rename_i response hresponse
    rw [require_eq_nil, decide_eq_true_eq] at h
    refine ⟨response, hresponse, captured_of_alt ?_ (by decide) h⟩
    cases site <;> decide

theorem auditDnsRecords_nil {zone id : Text} (h : auditDnsRecords env api site zone id = []) :
    CollectionSays env api (.dnsRecords site) (zonePath zone "/dns_records") fun response =>
      (select (exactCname site (tunnelTarget id)) (resultItems response)).map List.length = some 1 ∧
        capturedText (unexpectedTypes env site (resultItems response)) = [] := by
  unfold auditDnsRecords at h
  split at h
  · cases h
  · rename_i response hresponse
    simp only [List.append_eq_nil_iff, require_eq_nil, decide_eq_true_eq] at h
    obtain ⟨⟨-, happle⟩, hunexpected⟩ := h
    split at happle
    · cases happle
    · exact ⟨response, hresponse, by simpa [require_eq_nil] using happle, hunexpected⟩

theorem auditTunnelDetail_nil {account : Text} {tunnels : List Value}
    (h : auditTunnelDetail env api account tunnels site = []) :
    ObjectSays api (.tunnelConfiguration site)
      (tunnelPath account (tunnelIdFor env tunnels site) "/configurations")
      fun config => holds (ingressExact site config) = true := by
  simp only [auditTunnelDetail] at h
  split at h
  · cases h
  · cases hconfig : apiObject api (.tunnelConfiguration site)
      (tunnelPath account (tunnelIdFor env tunnels site) "/configurations") with
    | none =>
      rw [hconfig] at h
      split at h
      · simp at h
      · simp at h
    | some config =>
      rw [hconfig] at h
      have hmet : require (holds (ingressExact site config)) ("tunnel[" ++ site.tunnel ++ "]") =
          [] := by
        split at h
        · simp at h
        · exact (List.append_eq_nil_iff.mp h).1
      exact ⟨config, hconfig, require_eq_nil.mp hmet⟩

theorem auditToken_nil (h : (auditToken env api).1 = []) :
    ObjectSays api .tokenVerify "/user/tokens/verify".toList
      (fun response => captured env (response.fields ["result", "status"]) = "active".toList) ∧
    ObjectSays api .tokenDetail (tokenPath (tokenOf env api))
      fun detail => capturedText (nonRead env detail) = [] := by
  unfold auditToken at h
  split at h
  · cases h
  · rename_i verify hverify
    have hid : tokenOf env api = tokenId env verify := by
      unfold tokenOf
      rw [hverify]
    simp only at h
    split at h
    · simp at h
    · split at h
      · simp at h
      · rename_i detail hdetail
        simp only [List.append_eq_nil_iff, require_eq_nil, decide_eq_true_eq] at h
        obtain ⟨⟨hactive, hread⟩, -⟩ := h
        refine ⟨⟨verify, hverify, captured_of_alt (by decide) (by decide) hactive⟩, ?_⟩
        rw [hid]
        exact ⟨detail, hdetail, hread⟩

/-! ## The run -/

/-- What is left of a run without findings. -/
theorem runAudit_eq_zero (h : runAudit env api = 0) :
    (auditToken env api).1 = [] ∧ auditAccount env api (zoneIdentity env api .naranjoOnline)
      (zoneIdentity env api .liderseaCom) = [] := by
  simp only [runAudit] at h
  split at h
  · cases h
  · split at h
    · cases h
    · split at h
      · rename_i hfindings
        exact List.append_eq_nil_iff.mp hfindings
      · cases h

/-- An audit with status zero has been shown what it promises, if and only if its answers leave
nothing to the defaults of the filters. -/
theorem sound_iff_explicit (h : runAudit env api = 0) : Sound env api ↔ Explicit env api := by
  obtain ⟨htoken, haccount⟩ := runAudit_eq_zero h
  simp only [auditAccount, List.append_eq_nil_iff] at haccount
  obtain ⟨⟨⟨⟨⟨⟨⟨⟨⟨⟨⟨⟨⟨-, -⟩, -⟩, -⟩, hsettingsA⟩, hsettingsB⟩, hdnssecA⟩, hdnssecB⟩, -⟩, hdetailA⟩,
    hdetailB⟩, -⟩, hrecordsA⟩, hrecordsB⟩ := haccount
  have hsettings : ∀ site, auditZoneSettings env api site (zoneOf env api site) = [] := by
    intro site
    cases site
    · exact hsettingsA
    · exact hsettingsB
  simp only [auditZoneSettings, List.append_eq_nil_iff] at hsettings
  have hdns : ∀ site, (CollectionSays env api (.dnsRecords site)
      (zonePath (zoneOf env api site) "/dns_records")
      (DnsExact site (tunnelTarget (tunnelOf env api site))) ↔
        CollectionSays env api (.dnsRecords site) (zonePath (zoneOf env api site) "/dns_records")
          fun response => ∀ record ∈ resultItems response,
            Listed env site (tunnelTarget (tunnelOf env api site)) record) := by
    intro site
    have hnil : auditDnsRecords env api site (zoneOf env api site) (tunnelOf env api site) = [] := by
      cases site
      · exact hrecordsA
      · exact hrecordsB
    exact collectionSays_congr (auditDnsRecords_nil hnil) fun response hfacts =>
      dns_iff hfacts.1 hfacts.2
  have hingress : ∀ site, (ObjectSays api (.tunnelConfiguration site)
      (tunnelPath (accountOf env api) (tunnelOf env api site) "/configurations")
      (IngressExact site) ↔ ObjectSays api (.tunnelConfiguration site)
        (tunnelPath (accountOf env api) (tunnelOf env api site) "/configurations") Pathless) := by
    intro site
    have hnil : auditTunnelDetail env api (accountOf env api)
        (auditTunnels env api (accountOf env api)).2 site = [] := by
      cases site
      · exact hdetailA
      · exact hdetailB
    exact objectSays_congr (auditTunnelDetail_nil hnil) fun config hfacts => ingress_iff hfacts
  have hsetting : ∀ site, ∀ setting ∈ settings, (ObjectSays api (.setting site setting)
      (settingPath (zoneOf env api site) setting.name)
      (HasValue ["result", "value"] (.string setting.expected)) ↔
        ObjectSays api (.setting site setting) (settingPath (zoneOf env api site) setting.name)
          (Genuine env ["result", "value"] setting.expected)) := by
    intro site setting hsetting
    have hnil := List.flatMap_eq_nil_iff.mp (hsettings site).1.1 setting hsetting
    refine objectSays_congr (auditSetting_nil hnil) fun response hreads => ?_
    exact genuine_iff (by cases setting <;> decide) (by cases setting <;> decide) hreads
  have hssl := fun site => objectSays_congr (auditSslMode_nil (hsettings site).1.2)
    fun response hreads => ssl_iff hreads
  have hhsts := fun site => objectSays_congr (auditManagedHsts_nil (hsettings site).2)
    fun response hreads => switch_iff hreads
  have hdnssec : ∀ site, (ObjectSays api (.dnssec site) (zonePath (zoneOf env api site) "/dnssec")
      (HasValue ["result", "status"] (.string site.dnssec)) ↔
        ObjectSays api (.dnssec site) (zonePath (zoneOf env api site) "/dnssec")
          (Genuine env ["result", "status"] site.dnssec)) := by
    intro site
    have hnil : auditDnssec env api site (zoneOf env api site) = [] := by
      cases site
      · exact hdnssecA
      · exact hdnssecB
    refine objectSays_congr (auditDnssec_nil hnil) fun response hreads => ?_
    exact genuine_iff (by cases site <;> decide) (by cases site <;> decide) hreads
  obtain ⟨hactive, hread⟩ := auditToken_nil htoken
  have hactive' := objectSays_congr hactive fun response hreads =>
    @genuine_iff env response ["result", "status"] "active" (by decide) (by decide) hreads
  have hread' := objectSays_congr hread fun detail hnone => permissions_iff hnone
  constructor
  · intro hsound
    exact ⟨hsound.collections, fun site => (hdns site).mp (hsound.dns site),
      fun site => (hingress site).mp (hsound.ingress site),
      fun site setting hs => (hsetting site setting hs).mp (hsound.setting site setting hs),
      fun site => (hssl site).mp (hsound.ssl site),
      fun site => (hhsts site).mp (hsound.managedHsts site),
      fun site => (hdnssec site).mp (hsound.dnssec site), hactive'.mp hsound.tokenActive,
      hread'.mp hsound.tokenRead⟩
  · intro hexplicit
    exact ⟨hexplicit.collections, fun site => (hdns site).mpr (hexplicit.dns site),
      fun site => (hingress site).mpr (hexplicit.ingress site),
      fun site setting hs => (hsetting site setting hs).mpr (hexplicit.setting site setting hs),
      fun site => (hssl site).mpr (hexplicit.ssl site),
      fun site => (hhsts site).mpr (hexplicit.managedHsts site),
      fun site => (hdnssec site).mpr (hexplicit.dnssec site), hactive'.mpr hexplicit.tokenActive,
      hread'.mpr hexplicit.tokenRead⟩

/-- An object with the given fields. -/
def object (fields : List (String × Value)) : Value :=
  .obj (fields.map fun field => (field.1.toList, field.2))

/-- A successful envelope. -/
def envelope (result : Value) : Value := object [("success", .bool true), ("result", result)]

def sampleEnv : Env := ⟨false, fun _ => [], fun _ => [], fun _ => []⟩

def sampleTunnel : Site → String
  | .naranjoOnline => "00000000-0000-0000-0000-000000000001"
  | .liderseaCom => "00000000-0000-0000-0000-000000000002"

def sampleRule (site : Site) : Value :=
  object [("hostname", .string site.zone), ("service", .string site.origin)]

def sampleRecord (site : Site) : Value :=
  object [("name", .string site.zone), ("type", .string "CNAME"),
    ("content", .string (sampleTunnel site ++ ".cfargotunnel.com")), ("proxied", .bool true),
    ("ttl", .num 1)]

/-- The answers of an account in the target state. -/
def sampleApi : Api := fun call _ =>
  match call with
  | .tokenVerify => some (envelope (object
      [("status", .string "active"), ("id", .string "00000000000000000000000000000000")]))
  | .tokenDetail => some (envelope (object
      [("policies", .arr [object [("effect", .string "allow"),
        ("permission_groups", .arr [object [("name", .string "Zone Read")]])]]),
        ("expires_on", .string "2026-01-01T00:00:00Z")]))
  | .zone _ | .zonePlan _ => some (envelope (.arr [object [("id", .string "z"),
      ("account", object [("id", .string "a")]), ("plan", object [("name", .string "Free")])]]))
  | .zoneSubscription _ => some (envelope (object
      [("rate_plan", object [("id", .string "free")]), ("price", .num 0)]))
  | .setting _ setting => some (envelope (object [("value", .string setting.expected)]))
  | .ssl _ => some (envelope (object [("value", .string "strict")]))
  | .securityHeader _ => some (envelope (object
      [("value", object [("strict_transport_security", object [("enabled", .bool false)])])]))
  | .dnssec site => some (envelope (object [("status", .string site.dnssec)]))
  | .tunnels => some (envelope (.arr
      [object [("name", .string "naranjo-online"), ("id", .string (sampleTunnel .naranjoOnline))],
        object [("name", .string "lidersea-com"), ("id", .string (sampleTunnel .liderseaCom))]]))
  | .tunnelConfiguration site => some (envelope (object [("config", object [("ingress", .arr
      [sampleRule site, object [("service", .string "http_status:404")]])])]))
  | .dnsRecords site => some (envelope (.arr [sampleRecord site]))
  | _ => some (envelope (.arr []))

theorem objectSays_of {call : Call} {path : Text} {response : Value} {P : Value → Prop}
    (hpath : validPath path = true) (hanswer : api call path = some response)
    (hsucceeded : succeeded response = some true) (hp : P response) :
    ObjectSays api call path P :=
  ⟨response, by simp [apiObject, apiGet, hpath, hanswer, hsucceeded], hp⟩

/-- The path of the first page of a collection. -/
def pagePath (path : Text) : Text :=
  path ++ (if '?' ∈ path then "&".toList else "?".toList) ++ "per_page=100&page=1".toList

theorem collectionSays_of {call : Call} {path : Text} {response : Value} {P : Value → Prop}
    (hpath : validPath (pagePath path) = true) (hanswer : api call (pagePath path) = some response)
    (hcomplete : collectionComplete env response = some true) (hp : P response) :
    CollectionSays env api call path P := by
  refine ⟨response, ?_, hp⟩
  unfold pagePath at hpath hanswer
  simp only [apiCollection, apiGet, hpath, hanswer, hcomplete, if_true, Option.bind_eq_bind,
    Option.bind_some]

theorem genuine_of_hasValue {keys : List String} {text : String} {response : Value}
    (h : HasValue keys (.string text) response) : Genuine env keys text response := by
  rintro v hv ⟨-, hdiffers⟩
  rw [HasValue, hv] at h
  exact hdiffers (Option.some.inj h)

theorem complete_of_none {response : Value}
    (h : response.at? ["result_info", "total_count"] = none) : Complete response := by
  intro total htotal
  rw [h] at htotal
  cases htotal

theorem sampleApi_explicit : Explicit sampleEnv sampleApi where
  collections :=
    ⟨fun site => collectionSays_of (by cases site <;> decide) rfl rfl (complete_of_none rfl),
      collectionSays_of (by decide) rfl rfl (complete_of_none rfl),
      collectionSays_of (by decide) rfl rfl (complete_of_none rfl),
      collectionSays_of (by decide) rfl rfl (complete_of_none rfl),
      collectionSays_of (by decide) rfl rfl (complete_of_none rfl),
      fun site => collectionSays_of (by cases site <;> decide) rfl
        (by cases site <;> decide) (complete_of_none (by cases site <;> rfl))⟩
  dns site := by
    refine collectionSays_of (by cases site <;> decide) rfl
      (by cases site <;> decide) fun record hrecord => ?_
    have hone : resultItems (envelope (.arr [sampleRecord site])) = [sampleRecord site] := by
      cases site <;> rfl
    rw [hone] at hrecord
    obtain rfl := List.mem_singleton.mp hrecord
    have hexact : exactCname site (tunnelTarget (tunnelOf sampleEnv sampleApi site))
        (sampleRecord site) = some true := by
      cases site <;> decide
    unfold Listed
    split
    · exact hexact
    · refine ⟨.string "CNAME", by cases site <;> rfl, _, rfl, by decide⟩
  ingress site := by
    refine objectSays_of (by cases site <;> decide) rfl (by cases site <;> decide)
      fun rules hrules rule hrule => ?_
    have hboth : rules = [sampleRule site, object [("service", .string "http_status:404")]] := by
      cases site <;> cases hrules <;> rfl
    simp only [hboth, List.mem_cons, List.not_mem_nil, or_false] at hrule
    rcases hrule with rfl | rfl
    · exact .inl (by cases site <;> rfl)
    · exact .inl rfl
  setting site setting _ :=
    objectSays_of (by cases site <;> cases setting <;> decide) rfl
      (by cases setting <;> decide) (genuine_of_hasValue (by cases setting <;> rfl))
  ssl site := by
    refine objectSays_of (by cases site <;> decide) rfl rfl ⟨?_, genuine_of_hasValue rfl⟩
    rintro v hv ⟨hreads, -⟩
    cases hv
    revert hreads
    decide
  managedHsts site := objectSays_of (by cases site <;> decide) rfl rfl
    ⟨_, rfl, by simp, fun hlike => hlike.2 rfl⟩
  dnssec site := objectSays_of (by cases site <;> decide) rfl
    (by cases site <;> decide) (genuine_of_hasValue (by cases site <;> rfl))
  tokenActive := objectSays_of (by decide) rfl rfl (genuine_of_hasValue rfl)
  tokenRead := by
    refine objectSays_of (by decide) rfl rfl ⟨_, rfl, fun policy hpolicy => ?_⟩
    obtain rfl := List.mem_singleton.mp hpolicy
    refine ⟨_, rfl, fun group hgroup => ?_⟩
    obtain rfl := List.mem_singleton.mp hgroup
    exact ⟨⟨_, rfl, rfl⟩, _, rfl, by decide⟩

theorem sample_audit_sound : Sound sampleEnv sampleApi :=
  (sound_iff_explicit (by decide)).mpr sampleApi_explicit

/-- The second zone answers for its managed policy without saying whether it is on. -/
def silentApi : Api := fun call path =>
  match call with
  | .securityHeader .liderseaCom => some (envelope (object [("value", object [])]))
  | _ => sampleApi call path

/-- A switch that is absent is reported as off. -/
theorem absent_switch_passes : ¬ ∀ (env : Env) (api : Api), runAudit env api = 0 → Sound env api := by
  intro h
  have hsound := h sampleEnv silentApi (by decide)
  obtain ⟨response, hresponse, hvalue⟩ := hsound.managedHsts .liderseaCom
  have hanswer : response = envelope (object [("value", object [])]) := by
    simp only [apiObject, Option.bind_eq_bind] at hresponse
    obtain ⟨answer, hanswer, hsame⟩ := Option.bind_eq_some_iff.mp hresponse
    unfold apiGet at hanswer
    split at hanswer
    · cases hanswer
      split at hsame
      · exact (Option.some.inj hsame).symm
      · cases hsame
    · cases hanswer
  rw [hanswer] at hvalue
  cases hvalue

end AccountAudit
