import Mathlib
import WebsiteInfrastructure.EdgeProbe.Evidence

/-!
# Enforced runs

What a run with status zero has established, in every round, and the outcomes that it takes for
an answer although the remote side gave none.
-/

namespace EdgeProbe

open ShellText Regex

variable {zones : Zones} {zone : Zone} {other : Option Zone} {round : ℕ} {calls : ZoneCalls}
  {preflight : Protocol → Capability} {records found : List Record} {r : Record}

/-! ## One site -/

/-- The call that follows redirects has failed after the first one. -/
def BrokenChain (chain : Curl) : Prop :=
  chain.completed = false ∧ starts "1:" (redirectHops chain) = true

/-- The transcript says that there was no handshake, and holds no answer of the TLS layer. -/
def SummaryOnly (out : Text) : Prop :=
  (∃ line ∈ transcriptLines out, summaryLine line = true ∨ localLine line = true) ∧
    ¬ TlsAnswered out

/-- No call about the site is taken for an answer that was not given. -/
structure Unambiguous (zone : Zone) (calls : ZoneCalls) : Prop where
  redirectRoot : ¬ BrokenChain calls.redirectRoot.chain
  redirectPathQuery : ¬ BrokenChain calls.redirectPathQuery.chain
  tls10 : ¬ SummaryOnly (calls.tls .tls1).output
  tls11 : ¬ SummaryOnly (calls.tls .tls1_1).output
  dnssec : DnssecAnswered calls zone.dnssec

theorem redirect_established_iff {item : Item} {path : String} {redirect : RedirectCalls}
    (h : Passes (probeHttpRedirect round zone item path redirect)) :
    RedirectEstablished zone path redirect ↔ ¬ BrokenChain redirect.chain := by
  obtain ⟨hfirst, hcode, hlocation, hhops⟩ := redirect_passes h
  constructor
  · rintro hestablished ⟨hfailed, -⟩
    rw [hestablished.followed] at hfailed
    cases hfailed
  · intro hbroken
    have hcompleted : redirect.chain.completed = true := by
      by_contra hfailed
      exact hbroken ⟨Bool.not_eq_true _ ▸ hfailed, hhops⟩
    refine ⟨hfirst, hcode, hlocation, hcompleted, ?_⟩
    simpa [redirectHops, hcompleted] using hhops

theorem tlsAnswered_iff {capability : Capability} {item : Item} {proto : Protocol}
    {call : Bounded} (h : Passes (probeTlsVersion capability round zone item proto .refused call)) :
    TlsAnswered call.output ↔ ¬ SummaryOnly call.output := by
  constructor
  · intro hanswered hsummary
    exact hsummary.2 hanswered
  · intro hsummary
    obtain ⟨line, hline, hsigns⟩ := classify_eq_refused (tlsRefused_passes h)
    by_contra hanswered
    rcases hsigns with hsign | hsign | hsign
    · exact hsummary ⟨⟨line, hline, .inl hsign⟩, hanswered⟩
    · exact hsummary ⟨⟨line, hline, .inr hsign⟩, hanswered⟩
    · exact hanswered ⟨line, hline, hsign⟩

theorem probeZone_eq_ok (h : probeZone preflight round zone other calls = .ok found) :
    ∃ dnssec www, probeDnssec round zone zone.dnssec calls = .ok dnssec ∧
      probeWwwAbsent round zone zone.dnssec calls = .ok www ∧
      found = probeSite preflight round zone other calls ++ dnssec ++ www := by
  simp only [probeZone, bind_eq_ok] at h
  obtain ⟨dnssec, hdnssec, www, hwww, h⟩ := h
  cases h
  exact ⟨dnssec, www, hdnssec, hwww, rfl⟩

theorem zone_established_iff (h : probeZone preflight round zone other calls = .ok found)
    (hpass : Passes found) : SiteEstablished zone other calls ↔ Unambiguous zone calls := by
  obtain ⟨dnssec, www, hdnssec, hwww, rfl⟩ := probeZone_eq_ok h
  have hsite : Passes (probeSite preflight round zone other calls) :=
    hpass.subset fun r hr => by simp [hr]
  unfold probeSite at hsite
  have hdnssec' := dnssec_passes hdnssec (hpass.subset fun r hr => by simp [hr])
  obtain ⟨hone, htwo⟩ := www_passes hwww (hpass.subset fun r hr => by simp [hr])
  have hroot := redirect_established_iff (@Passes.subset _
    (probeHttpRedirect round zone .httpRedirectRoot "/" calls.redirectRoot) hsite
    fun r hr => by simp [hr])
  have hpath := redirect_established_iff (@Passes.subset _
    (probeHttpRedirect round zone .httpRedirectPathQuery "/readyz?probe=1&x=2"
      calls.redirectPathQuery) hsite fun r hr => by simp [hr])
  have htls10 := tlsAnswered_iff (@Passes.subset _
    (probeTlsVersion (preflight .tls1) round zone .tls10Refused .tls1 .refused (calls.tls .tls1))
    hsite fun r hr => by simp [hr])
  have htls11 := tlsAnswered_iff (@Passes.subset _
    (probeTlsVersion (preflight .tls1_1) round zone .tls11Refused .tls1_1 .refused
      (calls.tls .tls1_1)) hsite fun r hr => by simp [hr])
  have htls12 := tlsAccepted_passes (@Passes.subset _
    (probeTlsVersion (preflight .tls1_2) round zone .tls12Accepted .tls1_2 .accepted
      (calls.tls .tls1_2)) hsite fun r hr => by simp [hr])
  have htls13 := tlsAccepted_passes (@Passes.subset _
    (probeTlsVersion (preflight .tls1_3) round zone .tls13Accepted .tls1_3 .accepted
      (calls.tls .tls1_3)) hsite fun r hr => by simp [hr])
  have hzero := zeroRtt_passes (@Passes.subset _
    (probeZeroRtt (preflight .tls1_3) round zone calls.zeroRtt) hsite fun r hr => by simp [hr])
  obtain ⟨hhsts, hheaders⟩ := headers_passes (@Passes.subset _
    (probeHttpsHeaders round zone calls.headers) hsite fun r hr => by simp [hr])
  have hready := readyz_passes (@Passes.subset _ (probeReadyz round zone calls.readyz) hsite
    fun r hr => by simp [hr])
  have hidentity := identity_passes (@Passes.subset _ (probeIdentity round zone other calls.body)
    hsite fun r hr => by simp [hr])
  have hcertificate := certificate_passes (@Passes.subset _
    (probeCertificate round zone calls.certificate calls.checkend calls.enddate) hsite
    fun r hr => by simp [hr])
  constructor
  · intro hestablished
    exact ⟨hroot.mp hestablished.redirectRoot, hpath.mp hestablished.redirectPathQuery,
      htls10.mp hestablished.tls10, htls11.mp hestablished.tls11, hestablished.dnssecAnswered⟩
  · intro hclear
    exact ⟨hroot.mpr hclear.redirectRoot, hpath.mpr hclear.redirectPathQuery,
      htls10.mpr hclear.tls10, htls11.mpr hclear.tls11, htls12, htls13, hzero, hhsts, hheaders,
      hready, hidentity, hcertificate, hclear.dnssec, hdnssec', hone, htwo⟩

/-! ## The records of a run -/

/-- A record of a run: of a site, or about both. -/
def InRun (zones : Zones) (round : ℕ) (r : Record) : Prop :=
  (∃ zone items, Shaped round zone items r) ∨
    r.round = round ∧ r.zone = none ∧ r.item = .sitesDistinct ∧
      (r.tier = if zones = .both then .asserted else .recorded) ∧
      (r.tier = .asserted → r.verdict = .pass ∨ r.verdict = .gap ∨ r.verdict = .skip ∨
        r.verdict = .error)

theorem shaped_site (hr : r ∈ probeSite preflight round zone other calls) :
    ∃ items, Shaped round zone items r := by
  unfold probeSite at hr
  simp only [List.mem_append] at hr
  rcases hr with (((((((((((hr | hr) | hr) | hr) | hr) | hr) | hr) | hr) | hr) | hr) | hr) | hr) | hr
  · exact ⟨_, shaped_redirect rfl hr⟩
  · exact ⟨_, shaped_redirect rfl hr⟩
  · exact ⟨_, shaped_cleartext hr⟩
  · exact ⟨_, shaped_tls rfl hr⟩
  · exact ⟨_, shaped_tls rfl hr⟩
  · exact ⟨_, shaped_tls rfl hr⟩
  · exact ⟨_, shaped_tls rfl hr⟩
  · exact ⟨_, shaped_zeroRtt hr⟩
  · exact ⟨_, shaped_headers hr⟩
  · exact ⟨_, shaped_readyz hr⟩
  · exact ⟨_, shaped_identity hr⟩
  · exact ⟨_, shaped_certificate hr⟩
  · exact ⟨_, shaped_details hr⟩

theorem shaped_zone (h : probeZone preflight round zone other calls = .ok found) (hr : r ∈ found) :
    ∃ items, Shaped round zone items r := by
  obtain ⟨dnssec, www, hdnssec, hwww, rfl⟩ := probeZone_eq_ok h
  simp only [List.mem_append] at hr
  rcases hr with (hr | hr) | hr
  · exact shaped_site hr
  · exact ⟨_, shaped_dnssec hdnssec hr⟩
  · exact ⟨_, shaped_www hwww hr⟩

theorem inRun_distinctness : InRun zones round (probeCrossZoneDistinctness zones round records) := by
  right
  unfold probeCrossZoneDistinctness
  simp only
  split_ifs with hsingle hnone hsame <;> simp_all [record]

theorem probeZones_eq_ok {round : ℕ} {calls : Round} {list : List Zone}
    (h : probeZones preflight zones round calls list = .ok found) :
    (∀ zone ∈ list, ∃ site, probeZone preflight round zone (zones.otherOf zone) (calls zone) =
      .ok site ∧ ∀ r ∈ site, r ∈ found) ∧ ∀ r ∈ found, InRun zones round r := by
  induction list generalizing found with
  | nil =>
    cases h
    simp
  | cons zone rest ih =>
    simp only [probeZones, bind_eq_ok] at h
    obtain ⟨site, hsite, others, hothers, h⟩ := h
    cases h
    obtain ⟨hzones, hshape⟩ := ih hothers
    constructor
    · intro z hz
      rcases List.mem_cons.mp hz with rfl | hz
      · exact ⟨site, hsite, fun r hr => List.mem_append_left _ hr⟩
      · obtain ⟨site', hsite', hmem⟩ := hzones z hz
        exact ⟨site', hsite', fun r hr => List.mem_append_right _ (hmem r hr)⟩
    · intro r hr
      rcases List.mem_append.mp hr with hr | hr
      · exact .inl ⟨zone, shaped_zone hsite hr⟩
      · exact hshape r hr

/-- What a run keeps of one of its rounds. -/
structure Kept (preflight : Protocol → Capability) (zones : Zones) (calls : Round)
    (records : List Record) (round : ℕ) (before found : List Record) : Prop where
  probed : probeZones preflight zones round calls zones.list = .ok found
  recorded : ∀ r ∈ found, r ∈ records
  distinct : probeCrossZoneDistinctness zones round (before ++ found) ∈ records
  earlier : ∀ r ∈ before, r.round < round

theorem InRun.round_eq (h : InRun zones round r) : r.round = round := by
  rcases h with ⟨zone, items, h⟩ | ⟨h, -⟩
  · exact h.round
  · exact h

theorem probeRounds_eq_ok {rounds : List Round} {before : List Record}
    (h : probeRounds preflight zones round rounds before = .ok records)
    (hbefore : ∀ r ∈ before, r.round < round ∧ InRun zones r.round r) :
    (∀ r ∈ before, r ∈ records) ∧ (∀ r ∈ records, InRun zones r.round r) ∧
      ∀ calls ∈ rounds, ∃ round before found,
        Kept preflight zones calls records round before found := by
  induction rounds generalizing round before with
  | nil =>
    cases h
    exact ⟨fun r hr => hr, fun r hr => (hbefore r hr).2, by simp⟩
  | cons calls rest ih =>
    simp only [probeRounds, bind_eq_ok] at h
    obtain ⟨found, hfound, h⟩ := h
    have hshape := (probeZones_eq_ok hfound).2
    have hdistinct := @inRun_distinctness zones round (before ++ found)
    obtain ⟨hkept, hrun, hrest⟩ := ih h (by
      intro r hr
      rcases List.mem_append.mp hr with hr | hr
      · rcases List.mem_append.mp hr with hr | hr
        · exact ⟨Nat.lt_succ_of_lt (hbefore r hr).1, (hbefore r hr).2⟩
        · have hround := (hshape r hr).round_eq
          exact ⟨by omega, hround ▸ hshape r hr⟩
      · rw [List.mem_singleton.mp hr]
        have hround := hdistinct.round_eq
        exact ⟨by omega, by rw [hround]; exact hdistinct⟩)
    refine ⟨fun r hr => hkept r (by simp [hr]), hrun, ?_⟩
    intro c hc
    rcases List.mem_cons.mp hc with rfl | hc
    · exact ⟨round, before, found, hfound, fun r hr => hkept r (by simp [hr]),
        hkept _ (by simp), fun r hr => (hbefore r hr).1⟩
    · exact hrest c hc

/-! ## Status zero -/

theorem probeDnssec_error {expectation : Expectation} {exit : ℕ}
    (h : probeDnssec round zone expectation calls = .error exit) : exit ≠ 0 := by
  simp only [probeDnssec, bind_eq_error] at h
  rcases h with h | ⟨adOne, -, h | ⟨adTwo, -, h | ⟨adCd, -, h⟩⟩⟩
  · exact piped_eq_error h
  · exact piped_eq_error h
  · exact piped_eq_error h
  · cases expectation <;> simp only at h <;> split at h <;> cases h

theorem probeWwwAbsent_error {expectation : Expectation} {exit : ℕ}
    (h : probeWwwAbsent round zone expectation calls = .error exit) : exit ≠ 0 := by
  simp only [probeWwwAbsent, bind_eq_error] at h
  rcases h with h | ⟨one, -, h | ⟨two, -, h⟩⟩
  · exact piped_eq_error h
  · exact piped_eq_error h
  · split_ifs at h <;> cases h

theorem probeZones_error {calls : Round} {list : List Zone} {exit : ℕ}
    (h : probeZones preflight zones round calls list = .error exit) : exit ≠ 0 := by
  induction list with
  | nil => cases h
  | cons zone rest ih =>
    simp only [probeZones, probeZone, bind_eq_error, bind_eq_ok] at h
    rcases h with (h | ⟨dnssec, -, h | ⟨www, -, h⟩⟩) | ⟨site, -, h | ⟨others, -, h⟩⟩
    · exact probeDnssec_error h
    · exact probeWwwAbsent_error h
    · cases h
    · exact ih h
    · cases h

theorem probeRounds_error {rounds : List Round} {before : List Record} {exit : ℕ}
    (h : probeRounds preflight zones round rounds before = .error exit) : exit ≠ 0 := by
  induction rounds generalizing round before with
  | nil => cases h
  | cons calls rest ih =>
    simp only [probeRounds, bind_eq_error] at h
    rcases h with h | ⟨found, -, h⟩
    · exact probeZones_error h
    · exact ih h

/-- A record of one key has the same tier in every round. -/
theorem InRun.tier_eq {s : Record} {n m : ℕ} (hr : InRun zones n r) (hs : InRun zones m s)
    (hkey : r.key = s.key) : r.tier = s.tier := by
  obtain ⟨hzone, hitem⟩ := Prod.mk.inj hkey
  rcases hr with ⟨z, items, hr⟩ | ⟨-, hrzone, -, hrtier, -⟩
  · rcases hs with ⟨z', items', hs⟩ | ⟨-, hszone, -⟩
    · rw [hr.tier, hs.tier, hitem]
    · rw [hr.zone, hszone] at hzone
      cases hzone
  · rcases hs with ⟨z', items', hs⟩ | ⟨-, -, -, hstier, -⟩
    · rw [hrzone, hs.zone] at hzone
      cases hzone
    · rw [hrtier, hstier]

theorem InRun.verdict (h : InRun zones round r) (htier : r.tier = .asserted) :
    r.verdict = .pass ∨ r.verdict = .gap ∨ r.verdict = .skip ∨ r.verdict = .error := by
  rcases h with ⟨zone, items, h⟩ | ⟨-, -, -, -, h⟩
  · exact h.verdict htier
  · exact h htier

/-- Under enforcement, status zero is a pass for every asserted record. -/
theorem passes_of_report (hrun : ∀ r ∈ records, InRun zones r.round r)
    (h : printReport true records = 0) : Passes records := by
  intro r hr htier
  have hcollapsed := @collapsed_finalVerdicts records
  obtain ⟨s, hs, hkey⟩ := hcollapsed.covered r hr
  have hmet : s.unmet = false := by
    by_contra hunmet
    have hany : (finalVerdicts records).any Summary.unmet = true :=
      List.any_eq_true.mpr ⟨s, hs, by simpa using hunmet⟩
    simp [printReport, hany] at h
  simp only [Summary.unmet, Bool.or_eq_false_iff, decide_eq_false_iff_not] at hmet
  have hverdict := (hcollapsed.agreed s hs).resolve_left hmet.2 r hr hkey.symm
  obtain ⟨r', hr', hkey', htier'⟩ := hcollapsed.tier s hs
  have hsame : r'.tier = r.tier := (hrun r' hr').tier_eq (hrun r hr) (hkey'.trans hkey)
  have hasserted : s.tier = .asserted := by rw [← htier', hsame, htier]
  have hnone := hmet.1
  rw [← hverdict] at hnone
  rcases (hrun r hr).verdict htier with hpass | hgap | hskip | herror
  · exact hpass
  · simp [hasserted, hgap] at hnone
  · simp [hasserted, hskip] at hnone
  · simp [hasserted, herror] at hnone

/-! ## Assets -/

/-- The assets that a round has recorded for a site. -/
def assetRecords (records : List Record) (round : ℕ) (zone : Zone) : List Record :=
  records.filter fun r => r.round = round ∧ r.zone = some zone ∧ r.item = .assets

theorem assetRecords_append {more : List Record} : assetRecords (records ++ more) round zone =
    assetRecords records round zone ++ assetRecords more round zone := by
  simp [assetRecords]

theorem assetRecords_eq_nil (h : ∀ r ∈ found, ∃ round' zone' items, Shaped round' zone' items r ∧
    (round' ≠ round ∨ zone' ≠ zone ∨ .assets ∉ items)) : assetRecords found round zone = [] := by
  refine List.filter_eq_nil_iff.mpr fun r hr => ?_
  obtain ⟨round', zone', items, hshape, hdiffers⟩ := h r hr
  simp only [decide_eq_true_eq, not_and]
  rintro hround hzone hitem
  rcases hdiffers with hdiffers | hdiffers | hdiffers
  · exact hdiffers (hshape.round.symm.trans hround)
  · rw [hshape.zone] at hzone
    exact hdiffers (Option.some.inj hzone)
  · exact hdiffers (hitem ▸ hshape.item)

/-- What a completed request records about the assets. -/
def assetRecord (round : ℕ) (zone : Zone) (call : Curl) : Record :=
  record round (some zone) .assets .recorded .recorded (assetList call.output)
    "asset filenames are the distinctness marker; the body hash never is"

theorem assetRecords_identity {call : Curl} (hcompleted : call.completed = true) :
    assetRecords (probeIdentity round zone other call) round zone = [assetRecord round zone call] := by
  simp only [probeIdentity, hcompleted, Bool.not_true, Bool.false_eq_true, if_false]
  split_ifs <;> simp [assetRecords, assetRecord, record]

theorem assetRecords_other {items : List Item} (hitems : .assets ∉ items)
    (h : ∀ r ∈ found, Shaped round zone items r) : assetRecords found round zone = [] :=
  assetRecords_eq_nil fun r hr => ⟨round, zone, items, h r hr, .inr (.inr hitems)⟩

theorem assetRecords_site (hcompleted : calls.body.completed = true) :
    assetRecords (probeSite preflight round zone other calls) round zone =
      [assetRecord round zone calls.body] := by
  have hredirect : ∀ item path redirect, item.tier = .asserted →
      assetRecords (probeHttpRedirect round zone item path redirect) round zone = [] := by
    intro item path redirect hitem
    refine assetRecords_other ?_ fun r hr => shaped_redirect hitem hr
    rw [List.mem_singleton]
    rintro rfl
    cases hitem
  have htls : ∀ capability item proto expectation call, item.tier = .asserted →
      assetRecords (probeTlsVersion capability round zone item proto expectation call) round zone =
        [] := by
    intro capability item proto expectation call hitem
    refine assetRecords_other ?_ fun r hr => shaped_tls hitem hr
    rw [List.mem_singleton]
    rintro rfl
    cases hitem
  have hcleartext := @assetRecords_other zone round _ _ (by decide) fun r hr =>
    @shaped_cleartext zone round r calls.cleartext hr
  have hzero := @assetRecords_other zone round _ _ (by decide) fun r hr =>
    @shaped_zeroRtt zone round r (preflight .tls1_3) calls.zeroRtt hr
  have hheaders := @assetRecords_other zone round _ _ (by decide) fun r hr =>
    @shaped_headers zone round r calls.headers hr
  have hreadyz := @assetRecords_other zone round _ _ (by decide) fun r hr =>
    @shaped_readyz zone round r calls.readyz hr
  have hcertificate := @assetRecords_other zone round _ _ (by decide) fun r hr =>
    @shaped_certificate zone round r calls.certificate calls.checkend calls.enddate hr
  have hdetails := @assetRecords_other zone round _ _ (by decide) fun r hr =>
    @shaped_details zone round r (preflight .tls1_3) calls.details hr
  simp only [probeSite, assetRecords_append, assetRecords_identity hcompleted, hcleartext, hzero,
    hheaders, hreadyz, hcertificate, hdetails]
  rw [hredirect _ _ _ rfl, hredirect _ _ _ rfl, htls _ _ _ _ _ rfl, htls _ _ _ _ _ rfl,
    htls _ _ _ _ _ rfl, htls _ _ _ _ _ rfl]
  rfl

theorem assetRecords_zone (h : probeZone preflight round zone other calls = .ok found)
    (hcompleted : calls.body.completed = true) :
    assetRecords found round zone = [assetRecord round zone calls.body] := by
  obtain ⟨dnssec, www, hdnssec, hwww, rfl⟩ := probeZone_eq_ok h
  rw [assetRecords_append, assetRecords_append, assetRecords_site hcompleted,
    assetRecords_other (by decide) fun r hr => shaped_dnssec hdnssec hr,
    assetRecords_other (by decide) fun r hr => shaped_www hwww hr]
  rfl

/-- What the records of a round say about a site is the list of its last response. -/
theorem recordedAssets_eq {calls : Round} {before : List Record}
    (hearlier : ∀ r ∈ before, r.round < round)
    (h : probeZones preflight .both round calls Zones.both.list = .ok found)
    (hcompleted : (calls zone).body.completed = true) :
    recordedAssets (before ++ found) round zone =
      substitution (unlines [substitution (flattened (assetList (calls zone).body.output))]) := by
  have hbefore : assetRecords before round zone = [] := by
    refine List.filter_eq_nil_iff.mpr fun r hr => ?_
    have := hearlier r hr
    simp only [decide_eq_true_eq, not_and]
    omega
  have hfound : assetRecords found round zone = [assetRecord round zone (calls zone).body] := by
    simp only [Zones.list, probeZones, bind_eq_ok] at h
    obtain ⟨a, ha, others, ⟨b, hb, none, hnone, hothers⟩, h⟩ := h
    cases hnone
    cases hothers
    cases h
    have hforeign : ∀ {site : List Record} {z : Zone}, z ≠ zone →
        probeZone preflight round z (Zones.both.otherOf z) (calls z) = .ok site →
        assetRecords site round zone = [] := by
      intro site z hz hsite
      refine assetRecords_eq_nil fun r hr => ?_
      obtain ⟨items, hshape⟩ := shaped_zone hsite hr
      exact ⟨round, z, items, hshape, .inr (.inl hz)⟩
    rw [assetRecords_append, assetRecords_append]
    cases zone
    · rw [assetRecords_zone ha hcompleted, hforeign (by decide) hb]
      rfl
    · rw [assetRecords_zone hb hcompleted, hforeign (by decide) ha]
      rfl
  have hrecords : assetRecords (before ++ found) round zone =
      [assetRecord round zone (calls zone).body] := by
    rw [assetRecords_append, hbefore, hfound]
    rfl
  unfold recordedAssets
  unfold assetRecords at hrecords
  rw [hrecords]
  rfl

/-- The asset lists of two sites are the same, or share no name. -/
def AssetsApart (calls : Round) : Prop :=
  siteAssets (calls .naranjoOnline).body.output = siteAssets (calls .liderseaCom).body.output ∨
    ∀ name ∈ siteAssets (calls .naranjoOnline).body.output,
      name ∉ siteAssets (calls .liderseaCom).body.output

/-- No outcome of a round is taken for an answer that was not given. -/
structure RoundUnambiguous (zones : Zones) (calls : Round) : Prop where
  sites : ∀ zone ∈ zones.list, Unambiguous zone (calls zone)
  assets : zones = .both → AssetsApart calls

theorem round_established_iff {calls : Round} {before : List Record} (hpass : Passes records)
    (h : Kept preflight zones calls records round before found) :
    RoundEstablished zones calls ↔ RoundUnambiguous zones calls := by
  obtain ⟨hsites, -⟩ := probeZones_eq_ok h.probed
  have hzone : ∀ zone ∈ zones.list, ∃ site,
      probeZone preflight round zone (zones.otherOf zone) (calls zone) = .ok site ∧ Passes site := by
    intro zone hzone
    obtain ⟨site, hsite, hmem⟩ := hsites zone hzone
    exact ⟨site, hsite, hpass.subset fun r hr => h.recorded r (hmem r hr)⟩
  have hiff : ∀ zone ∈ zones.list,
      (SiteEstablished zone (zones.otherOf zone) (calls zone) ↔ Unambiguous zone (calls zone)) := by
    intro zone hmem
    obtain ⟨site, hsite, hpasses⟩ := hzone zone hmem
    exact zone_established_iff hsite hpasses
  have hdistinct : zones = .both → siteAssets (calls .naranjoOnline).body.output ≠
      siteAssets (calls .liderseaCom).body.output := by
    rintro rfl hsame
    have hcompleted : ∀ zone, (calls zone).body.completed = true := by
      intro zone
      obtain ⟨site, hsite, hpasses⟩ := hzone zone (by cases zone <;> simp [Zones.list])
      obtain ⟨dnssec, www, -, -, rfl⟩ := probeZone_eq_ok hsite
      have hidentity := identity_passes (@Passes.subset _
        (probeIdentity round zone (Zones.both.otherOf zone) (calls zone).body) hpasses
        fun r hr => by simp [probeSite, hr])
      exact hidentity.answered
    have ha := recordedAssets_eq h.earlier h.probed (hcompleted .naranjoOnline)
    have hb := recordedAssets_eq h.earlier h.probed (hcompleted .liderseaCom)
    have heq : recordedAssets (before ++ found) round .naranjoOnline =
        recordedAssets (before ++ found) round .liderseaCom := by
      rw [ha, hb, assetList, assetList, hsame]
    have hverdict := hpass _ h.distinct
    unfold probeCrossZoneDistinctness at hverdict
    simp only [ne_eq, not_true_eq_false, if_false, heq] at hverdict
    split_ifs at hverdict <;> simp [record] at hverdict
  constructor
  · intro hestablished
    exact ⟨fun zone hmem => (hiff zone hmem).mp (hestablished.sites zone hmem),
      fun hboth => .inr (hestablished.distinct hboth)⟩
  · intro hclear
    exact ⟨fun zone hmem => (hiff zone hmem).mpr (hclear.sites zone hmem),
      fun hboth => (hclear.assets hboth).resolve_left (hdistinct hboth)⟩

/-- No round that disagrees with another one is resolved to a pass. -/
def NoneResolved (zones : Zones) (loopback : Protocol → List (Option Text)) (rounds : List Round) :
    Prop :=
  ∃ records, probeRounds (preflightState loopback) zones 1 rounds [] = .ok records ∧
    ∀ s ∈ finalVerdicts records, s.verdict = .pass →
      ∀ r ∈ records, r.key = s.key → r.verdict = .pass

/-- The transcript of a handshake that was completed or refused. -/
def sampleTranscript : Protocol → Text
  | .tls1 | .tls1_1 =>
    "ssl3_read_bytes:tlsv1 alert protocol version\nNew, (NONE), Cipher is (NONE)\n".toList
  | .tls1_2 => "New, TLSv1.2, Cipher is X\nProtocol: TLSv1.2\n".toList
  | .tls1_3 => "New, TLSv1.3, Cipher is X\nProtocol: TLSv1.3\n".toList

/-- The answers of the unsigned site in its target state. -/
def sampleCalls : ZoneCalls where
  redirectRoot := ⟨⟨true, "301 https://lidersea.com/".toList⟩, ⟨true, "1:200".toList⟩⟩
  redirectPathQuery :=
    ⟨⟨true, "301 https://lidersea.com/readyz?probe=1&x=2".toList⟩, ⟨true, "1:200".toList⟩⟩
  cleartext := ⟨true, []⟩
  tls proto := ⟨true, sampleTranscript proto⟩
  zeroRtt := ⟨true, "Max Early Data: 0\n".toList⟩
  headers := ⟨true, "strict-transport-security: max-age=31536000\r\ncontent-security-policy: x\r\nx-content-type-options: x\r\nreferrer-policy: x\r\npermissions-policy: x\r\nx-frame-options: x\r\ncross-origin-resource-policy: x\r\n".toList⟩
  readyz := ⟨true, "ok\n200".toList⟩
  body := ⟨true, "<title>lidersea.com</title>\n".toList⟩
  certificate := ⟨true, []⟩
  checkend _ := true
  enddate := []
  details := ⟨true, []⟩
  dsOne := ⟨0, [], some .noerror⟩
  dsTwo := ⟨0, [], some .noerror⟩
  adOne := ⟨0, "status: NOERROR\nflags: qr rd ra;\n".toList⟩
  adTwo := ⟨0, "status: NOERROR\nflags: qr rd ra;\n".toList⟩
  adCd := ⟨0, "status: NOERROR\nflags: qr rd ra;\n".toList⟩
  wwwOne := ⟨0, "status: NXDOMAIN\n".toList⟩
  wwwTwo := ⟨0, "status: NXDOMAIN\n".toList⟩

/-- The loopback server speaks every protocol at the first attempt. -/
def sampleLoopback (_ : Protocol) : List (Option Text) := [some "New, TLSv1.3\n".toList]

theorem sampleCalls_unambiguous : Unambiguous .liderseaCom sampleCalls where
  redirectRoot := by simp [BrokenChain, sampleCalls]
  redirectPathQuery := by simp [BrokenChain, sampleCalls]
  tls10 h := h.2 (by unfold TlsAnswered; decide)
  tls11 h := h.2 (by unfold TlsAnswered; decide)
  dnssec := by
    refine ⟨rfl, rfl, ?_, ?_⟩ <;> decide

theorem sampleCalls_pass :
    runProbe true (.only .liderseaCom) sampleLoopback [fun _ => sampleCalls] = 0 := by
  delta sampleLoopback sampleCalls sampleTranscript
  -- with its literals spelled out the transcript need not be decoded
  simp (disch := exact rfl) only [PythonText.toList_spelled]
  decide +kernel

/-- The connection is reset in the handshake of TLS 1.0. -/
def resetCalls : ZoneCalls :=
  { sampleCalls with
    tls := fun proto =>
      match proto with
      | .tls1 => ⟨false, "write:errno=104\nNew, (NONE), Cipher is (NONE)\n".toList⟩
      | proto => ⟨true, sampleTranscript proto⟩ }

end EdgeProbe
