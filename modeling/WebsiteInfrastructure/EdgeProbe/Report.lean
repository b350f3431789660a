import Mathlib
import WebsiteInfrastructure.EdgeProbe.Probes

/-!
# Rounds and report

The rounds append to the records; the report collapses them to one verdict for every zone and
item, where rounds that disagree give `divergent`.
-/

namespace EdgeProbe

open ShellText Regex

/-- `present` or `absent`, by whether the output is empty. -/
def presence (out : Text) : Text := if out ≠ [] then "present".toList else "absent".toList

/-- A pipeline that begins with `dig` fails when `dig` does. -/
def Dig.piped {α : Type} (call : Dig) (parse : Text → α) : Except ℕ α :=
  if call.exit = 0 then .ok (parse call.output) else .error call.exit

def probeDnssec (round : ℕ) (zone : Zone) (expectation : Expectation) (calls : ZoneCalls) :
    Except ℕ (List Record) := do
  let dsOne := substitution calls.dsOne.output
  let dsTwo := substitution calls.dsTwo.output
  let adOne ← calls.adOne.piped dnssecAdVerdict
  let adTwo ← calls.adTwo.piped dnssecAdVerdict
  let adCd ← calls.adCd.piped dnssecAdVerdict
  let observed := "ds1=".toList ++ presence dsOne ++ " ds2=".toList ++ presence dsTwo ++ [' '] ++
    adOne.text ++ ['/'] ++ adTwo.text ++ " cd=".toList ++ adCd.text
  let entry := record round (some zone) .dnssec .asserted
  match expectation with
  | .signed =>
    if dsOne ≠ [] ∧ dsTwo ≠ [] ∧ adOne = .ad ∧ adTwo = .ad ∧ adCd = .noAd then
      return [entry .pass observed ""]
    else
      return [entry .gap observed "the zone is expected to be signed and validating at two independent resolvers with the negative control clearing AD"]
  | .unsigned =>
    if dsOne = [] ∧ dsTwo = [] ∧ adOne = .noAd ∧ adTwo = .noAd then
      return [entry .pass observed
          "unsigned is the recorded expectation for this zone until the owner signing ceremony",
        record round (some zone) .dnssecParity .recorded .recorded "unsigned".toList
          "signing parity with the other zone is pending an owner ceremony; not a defect of this run"]
    else
      return [entry .gap observed "the zone state changed from the recorded unsigned expectation; re-read the expectation before trusting this verdict"]

def probeWwwAbsent (round : ℕ) (zone : Zone) (expectation : Expectation) (calls : ZoneCalls) :
    Except ℕ (List Record) := do
  let one ← calls.wwwOne.piped dnsAbsenceVerdict
  let two ← calls.wwwTwo.piped dnsAbsenceVerdict
  let note :=
    match expectation with
    | .signed => "NOERROR/NODATA rather than NXDOMAIN is the expected shape on a DNSSEC-signed Cloudflare zone (compact denial of existence)"
    | .unsigned => ""
  let observed := one.text ++ [' '] ++ two.text
  let entry := record round (some zone) .wwwAbsent .asserted
  if one.isAbsent && two.isAbsent then return [entry .pass observed note]
  else if one.isError || two.isError then
    return [entry .error observed "the resolvers did not answer"]
  else
    return [entry .gap observed "a www record exists; ADR 0015 leaves www as terminal 404 or one exact redirect, never a new address record"]

/-! ## Rounds -/

/-- The selected scope: both sites, or a single one. -/
inductive Zones
  | both
  | only (zone : Zone)
  deriving DecidableEq

def Zones.list : Zones → List Zone
  | .both => [.naranjoOnline, .liderseaCom]
  | .only zone => [zone]

/-- The other site, when it is in the scope too. -/
def Zones.otherOf (zones : Zones) (zone : Zone) : Option Zone :=
  if zones = .both then some zone.other else none

/-- The probes of one site that cannot end the script. -/
def probeSite (preflight : Protocol → Capability) (round : ℕ) (zone : Zone) (other : Option Zone)
    (calls : ZoneCalls) : List Record :=
  probeHttpRedirect round zone .httpRedirectRoot "/" calls.redirectRoot ++
  probeHttpRedirect round zone .httpRedirectPathQuery "/readyz?probe=1&x=2"
    calls.redirectPathQuery ++
  probeCleartextHsts round zone calls.cleartext ++
  probeTlsVersion (preflight .tls1) round zone .tls10Refused .tls1 .refused (calls.tls .tls1) ++
  probeTlsVersion (preflight .tls1_1) round zone .tls11Refused .tls1_1 .refused
    (calls.tls .tls1_1) ++
  probeTlsVersion (preflight .tls1_2) round zone .tls12Accepted .tls1_2 .accepted
    (calls.tls .tls1_2) ++
  probeTlsVersion (preflight .tls1_3) round zone .tls13Accepted .tls1_3 .accepted
    (calls.tls .tls1_3) ++
  probeZeroRtt (preflight .tls1_3) round zone calls.zeroRtt ++
  probeHttpsHeaders round zone calls.headers ++
  probeReadyz round zone calls.readyz ++
  probeIdentity round zone other calls.body ++
  probeCertificate round zone calls.certificate calls.checkend calls.enddate ++
  probeTlsDetails (preflight .tls1_3) round zone calls.details

def probeZone (preflight : Protocol → Capability) (round : ℕ) (zone : Zone) (other : Option Zone)
    (calls : ZoneCalls) : Except ℕ (List Record) := do
  let dnssec ← probeDnssec round zone zone.dnssec calls
  let www ← probeWwwAbsent round zone zone.dnssec calls
  return probeSite preflight round zone other calls ++ dnssec ++ www

/-- What the records of a round say about the assets of a site. -/
def recordedAssets (records : List Record) (round : ℕ) (zone : Zone) : Text :=
  substitution (unlines ((records.filter fun r =>
    r.round = round ∧ r.zone = some zone ∧ r.item = .assets).map (·.observed)))

def probeCrossZoneDistinctness (zones : Zones) (round : ℕ) (records : List Record) : Record :=
  if zones ≠ .both then
    record round none .sitesDistinct .recorded .inapplicable "single-zone-run".toList
      "cross-zone distinctness needs both sites in the same run; this item does not apply to the selected scope and is not an unproven target"
  else
    let a := recordedAssets records round .naranjoOnline
    let b := recordedAssets records round .liderseaCom
    if a = [] ∨ b = [] then
      record round none .sitesDistinct .asserted .error "assets-unavailable".toList
        "asset filenames could not be read from one of the sites"
    else if a = b then
      record round none .sitesDistinct .asserted .gap "assets-identical".toList
        "both sites served the same asset filenames"
    else record round none .sitesDistinct .asserted .pass "assets-disjoint".toList ""

/-- The tool calls of one round. -/
abbrev Round := Zone → ZoneCalls

def probeZones (preflight : Protocol → Capability) (zones : Zones) (round : ℕ) (calls : Round) :
    List Zone → Except ℕ (List Record)
  | [] => .ok []
  | zone :: rest => do
    let found ← probeZone preflight round zone (zones.otherOf zone) (calls zone)
    let others ← probeZones preflight zones round calls rest
    return found ++ others

/-- The rounds from a given number on, with the records so far. -/
def probeRounds (preflight : Protocol → Capability) (zones : Zones) :
    ℕ → List Round → List Record → Except ℕ (List Record)
  | _, [], records => .ok records
  | round, calls :: rest, records => do
    let found ← probeZones preflight zones round calls zones.list
    let records := records ++ found
    probeRounds preflight zones (round + 1) rest
      (records ++ [probeCrossZoneDistinctness zones round records])

/-! ## Report -/

/-- One verdict for one zone and item. -/
structure Summary where
  zone : Option Zone
  item : Item
  tier : Tier
  verdict : Verdict
  observed : Text
  note : String
  deriving DecidableEq

def Record.key (r : Record) : Option Zone × Item := (r.zone, r.item)

def Summary.key (s : Summary) : Option Zone × Item := (s.zone, s.item)

/-- A later record of the same zone and item: a different verdict diverges. -/
def Summary.absorb (s : Summary) (r : Record) : Summary :=
  { s with
    verdict := if s.verdict ≠ r.verdict then .divergent else s.verdict
    observed := r.observed
    note := if r.note ≠ "" then r.note else s.note }

def Summary.ofRecord (r : Record) : Summary :=
  ⟨r.zone, r.item, r.tier, r.verdict, r.observed, r.note⟩

def collapse (summaries : List Summary) (r : Record) : List Summary :=
  if summaries.any fun s => s.key = r.key then
    summaries.map fun s => if s.key = r.key then s.absorb r else s
  else summaries ++ [.ofRecord r]

def finalVerdicts (records : List Record) : List Summary := records.foldl collapse []

/-- What is left unmet: a gap, a skip or an error of an asserted item, and any divergence. -/
def Summary.unmet (s : Summary) : Bool :=
  s.tier = .asserted && (s.verdict = .gap || s.verdict = .skip || s.verdict = .error) ||
    s.verdict = .divergent

def printReport (enforce : Bool) (records : List Record) : ℕ :=
  if enforce && (finalVerdicts records).any Summary.unmet then 1 else 0

/-- The exit status of a run, from what the loopback attempts wrote and from the calls of every
round. -/
def runProbe (enforce : Bool) (zones : Zones) (loopback : Protocol → List (Option Text))
    (rounds : List Round) : ℕ :=
  match probeRounds (preflightState loopback) zones 1 rounds [] with
  | .ok records => printReport enforce records
  | .error exit => exit

/-! ## Collapsing rounds -/

section Collapse

variable {records found : List Record} {r : Record}

/-- What the summaries keep of the records before them. -/
structure Collapsed (records : List Record) (summaries : List Summary) : Prop where
  covered : ∀ r ∈ records, ∃ s ∈ summaries, s.key = r.key
  agreed : ∀ s ∈ summaries, s.verdict = .divergent ∨
    ∀ r ∈ records, r.key = s.key → r.verdict = s.verdict
  tier : ∀ s ∈ summaries, ∃ r ∈ records, r.key = s.key ∧ r.tier = s.tier

theorem Summary.absorb_key {s : Summary} : (s.absorb r).key = s.key := rfl

theorem collapsed_nil : Collapsed [] [] where
  covered r hr := by cases hr
  agreed s hs := by cases hs
  tier s hs := by cases hs

theorem collapsed_step {summaries : List Summary}
    (h : Collapsed records summaries) : Collapsed (records ++ [r]) (collapse summaries r) := by
  unfold collapse
  split
  · rename_i hany
    constructor
    · intro r' hr'
      have hold : ∃ s ∈ summaries, s.key = r'.key := by
        rcases List.mem_append.mp hr' with hr' | hr'
        · exact h.covered r' hr'
        · rw [List.mem_singleton.mp hr']
          simpa using hany
      obtain ⟨s, hs, hkey⟩ := hold
      refine ⟨_, List.mem_map_of_mem hs, ?_⟩
      split
      · exact hkey
      · exact hkey
    · intro s' hs'
      obtain ⟨s, hs, rfl⟩ := List.mem_map.mp hs'
      split
      · rename_i hkey
        by_cases hverdict : s.verdict = r.verdict
        · have heq : (s.absorb r).verdict = s.verdict := by simp [Summary.absorb, hverdict]
          rw [heq, Summary.absorb_key]
          refine (h.agreed s hs).imp_right fun hall r' hr' hkey' => ?_
          rcases List.mem_append.mp hr' with hr' | hr'
          · exact hall r' hr' hkey'
          · rw [List.mem_singleton.mp hr', hverdict]
        · exact .inl (by simp [Summary.absorb, hverdict])
      · rename_i hkey
        refine (h.agreed s hs).imp_right fun hall r' hr' hkey' => ?_
        rcases List.mem_append.mp hr' with hr' | hr'
        · exact hall r' hr' hkey'
        · rw [List.mem_singleton.mp hr'] at hkey'
          exact absurd hkey'.symm hkey
    · intro s' hs'
      obtain ⟨s, hs, rfl⟩ := List.mem_map.mp hs'
      obtain ⟨r', hr', hkey, htier⟩ := h.tier s hs
      refine ⟨r', List.mem_append_left _ hr', ?_⟩
      split
      · exact ⟨hkey, htier⟩
      · exact ⟨hkey, htier⟩
  · rename_i hnew
    have hfresh : ∀ r' ∈ records, r'.key ≠ r.key := by
      intro r' hr' hkey
      obtain ⟨s, hs, hskey⟩ := h.covered r' hr'
      refine hnew (List.any_eq_true.mpr ⟨s, hs, ?_⟩)
      rw [decide_eq_true_eq, hskey, hkey]
    constructor
    · intro r' hr'
      rcases List.mem_append.mp hr' with hr' | hr'
      · obtain ⟨s, hs, hkey⟩ := h.covered r' hr'
        exact ⟨s, List.mem_append_left _ hs, hkey⟩
      · rw [List.mem_singleton.mp hr']
        exact ⟨.ofRecord r, by simp, rfl⟩
    · intro s hs
      rcases List.mem_append.mp hs with hs | hs
      · refine (h.agreed s hs).imp_right fun hall r' hr' hkey => ?_
        rcases List.mem_append.mp hr' with hr' | hr'
        · exact hall r' hr' hkey
        · rw [List.mem_singleton.mp hr'] at hkey
          refine absurd (List.any_eq_true.mpr ⟨s, hs, ?_⟩) hnew
          rw [decide_eq_true_eq, hkey]
      · rw [List.mem_singleton.mp hs]
        refine .inr fun r' hr' hkey => ?_
        rcases List.mem_append.mp hr' with hr' | hr'
        · exact absurd hkey (hfresh r' hr')
        · rw [List.mem_singleton.mp hr']
          rfl
    · intro s hs
      rcases List.mem_append.mp hs with hs | hs
      · obtain ⟨r', hr', hkey⟩ := h.tier s hs
        exact ⟨r', List.mem_append_left _ hr', hkey⟩
      · rw [List.mem_singleton.mp hs]
        exact ⟨r, by simp, rfl, rfl⟩

theorem collapsed_foldl {summaries : List Summary} (h : Collapsed found summaries) :
    Collapsed (found ++ records) (records.foldl collapse summaries) := by
  induction records generalizing found summaries with
  | nil => simpa using h
  | cons r records ih =>
    have hstep : Collapsed (found ++ [r]) (collapse summaries r) := collapsed_step h
    have hrest := ih hstep
    simpa using hrest

theorem collapsed_finalVerdicts : Collapsed records (finalVerdicts records) := by
  simpa [finalVerdicts] using @collapsed_foldl records [] [] collapsed_nil

end Collapse

end EdgeProbe
