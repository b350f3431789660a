import Mathlib
import WebsiteInfrastructure.EdgeProbe.Report

/-!
# What an enforced run has established

A run that ends with status zero has a pass for every asserted item of every round. Whether the
remote side answered for each of them depends on five kinds of outcomes that a pass leaves open.
-/

namespace EdgeProbe

open ShellText Regex

variable {zones : Zones} {zone : Zone} {other : Option Zone} {round : ℕ} {calls : ZoneCalls}
  {preflight : Protocol → Capability} {records found : List Record} {r : Record}

/-! ## What the remote side has answered -/

/-- One permanent redirect that keeps path and query, and a completed request behind it. -/
structure RedirectEstablished (zone : Zone) (path : String) (calls : RedirectCalls) : Prop where
  answered : calls.first.completed = true
  permanent : redirectCode calls.first.output = "301".toList ∨
    redirectCode calls.first.output = "308".toList
  preserved : redirectLocation calls.first.output = httpsUrl zone path
  followed : calls.chain.completed = true
  once : starts "1:" (substitution calls.chain.output) = true

/-- The TLS layer of the server has answered, with an alert or with a record of another version. -/
def TlsAnswered (out : Text) : Prop := ∃ line ∈ transcriptLines out, answerLine line = true

/-- The handshake was completed. -/
def TlsCompleted (out : Text) : Prop := ∃ line ∈ transcriptLines out, completedLine line = true

/-- A ticket has announced no early data, and none has announced any. -/
def EarlyDataOff (out : Text) : Prop :=
  ['0'] ∈ earlyDataValues out ∧ ∀ value ∈ earlyDataValues out, value = [] ∨ value = ['0']

/-- The header of the answer has exactly the target value. -/
structure HstsEstablished (call : Curl) : Prop where
  answered : call.completed = true
  value : trim (dropThrough ':' ((headerLine "strict-transport-security" call.output).filter
    (· ≠ '\r'))) = hstsTarget

structure HeadersEstablished (call : Curl) : Prop where
  answered : call.completed = true
  present : ∀ name ∈ securityHeaders, ∃ line ∈ lines call.output,
    startsIgnoringCase (name ++ ":") line = true

structure ReadyEstablished (call : Curl) : Prop where
  answered : call.completed = true
  code : substitution ((lines call.output).getLast?.getD []) = "200".toList

structure IdentityEstablished (zone : Zone) (other : Option Zone) (call : Curl) : Prop where
  answered : call.completed = true
  title : siteTitle call.output = zone.name.toList
  alone : ∀ z, other = some z → ∀ line ∈ lines call.output,
    mentions ("<title>" ++ z.name ++ "</title>") line = false

structure CertificateEstablished (call : Bounded) (checkend : Text → Bool) : Prop where
  answered : call.completed = true
  headroom : checkend (unlines (firstCertificate false (lines call.output))) = true

/-- The state that the expectation of a zone asks for, as the answers show it. -/
def DnssecState (calls : ZoneCalls) : Expectation → Prop
  | .signed =>
    substitution calls.dsOne.output ≠ [] ∧ substitution calls.dsTwo.output ≠ [] ∧
      dnssecAdVerdict calls.adOne.output = .ad ∧ dnssecAdVerdict calls.adTwo.output = .ad ∧
      dnssecAdVerdict calls.adCd.output = .noAd
  | .unsigned =>
    substitution calls.dsOne.output = [] ∧ substitution calls.dsTwo.output = [] ∧
      dnssecAdVerdict calls.adOne.output = .noAd ∧ dnssecAdVerdict calls.adTwo.output = .noAd

/-- The answers that the state is read from have the code NOERROR. -/
def DnssecAnswered (calls : ZoneCalls) : Expectation → Prop
  | .signed =>
    calls.dsOne.answer = some .noerror ∧ calls.dsTwo.answer = some .noerror ∧
      dnsStatus calls.adOne.output = "NOERROR".toList ∧
      dnsStatus calls.adTwo.output = "NOERROR".toList ∧
      dnsStatus calls.adCd.output = "NOERROR".toList
  | .unsigned =>
    calls.dsOne.answer = some .noerror ∧ calls.dsTwo.answer = some .noerror ∧
      dnsStatus calls.adOne.output = "NOERROR".toList ∧
      dnsStatus calls.adTwo.output = "NOERROR".toList

/-- Both resolvers deny the name: it does not exist, or it has no address. -/
def NameAbsent (answer : Text) : Prop :=
  dnsStatus answer = "NXDOMAIN".toList ∨
    dnsStatus answer = "NOERROR".toList ∧ dnsCount answer = ['0']

/-- Every asserted item about a site, as the remote side has answered it. -/
structure SiteEstablished (zone : Zone) (other : Option Zone) (calls : ZoneCalls) : Prop where
  redirectRoot : RedirectEstablished zone "/" calls.redirectRoot
  redirectPathQuery : RedirectEstablished zone "/readyz?probe=1&x=2" calls.redirectPathQuery
  tls10 : TlsAnswered (calls.tls .tls1).output
  tls11 : TlsAnswered (calls.tls .tls1_1).output
  tls12 : TlsCompleted (calls.tls .tls1_2).output
  tls13 : TlsCompleted (calls.tls .tls1_3).output
  zeroRtt : EarlyDataOff calls.zeroRtt.output
  hsts : HstsEstablished calls.headers
  headers : HeadersEstablished calls.headers
  readyz : ReadyEstablished calls.readyz
  identity : IdentityEstablished zone other calls.body
  certificate : CertificateEstablished calls.certificate calls.checkend
  dnssecAnswered : DnssecAnswered calls zone.dnssec
  dnssecState : DnssecState calls zone.dnssec
  wwwOne : NameAbsent calls.wwwOne.output
  wwwTwo : NameAbsent calls.wwwTwo.output

/-- Every asserted item of a round; sites in one scope share no asset. -/
structure RoundEstablished (zones : Zones) (calls : Round) : Prop where
  sites : ∀ zone ∈ zones.list, SiteEstablished zone (zones.otherOf zone) (calls zone)
  distinct : zones = .both → ∀ name ∈ siteAssets (calls .naranjoOnline).body.output,
    name ∉ siteAssets (calls .liderseaCom).body.output

/-! ## The form of the records -/

section Shapes

/-- The tier under which an item about one site is recorded. -/
def Item.tier : Item → Tier
  | .hstsOverCleartext | .altSvc | .edgeColo | .assets | .bodyBytes | .certNotafter
  | .tls13Group | .alpn | .dnssecParity => .recorded
  | _ => .asserted

/-- A record of a probe for one site. -/
structure Shaped (round : ℕ) (zone : Zone) (items : List Item) (r : Record) : Prop where
  round : r.round = round
  zone : r.zone = some zone
  item : r.item ∈ items
  tier : r.tier = r.item.tier
  verdict : r.tier = .asserted →
    r.verdict = .pass ∨ r.verdict = .gap ∨ r.verdict = .skip ∨ r.verdict = .error

theorem shaped_redirect {item : Item} {path : String} {redirect : RedirectCalls}
    (hitem : item.tier = .asserted) (hr : r ∈ probeHttpRedirect round zone item path redirect) :
    Shaped round zone [item] r := by
  simp only [probeHttpRedirect] at hr
  split_ifs at hr <;> rw [List.mem_singleton.mp hr] <;> constructor <;> simp [record, hitem]

theorem shaped_cleartext {call : Curl} (hr : r ∈ probeCleartextHsts round zone call) :
    Shaped round zone [.hstsOverCleartext] r := by
  simp only [probeCleartextHsts] at hr
  split_ifs at hr <;> rw [List.mem_singleton.mp hr] <;> constructor <;> simp [record, Item.tier]

theorem shaped_headers {call : Curl} (hr : r ∈ probeHttpsHeaders round zone call) :
    Shaped round zone [.hstsExact, .securityHeaders, .altSvc, .edgeColo] r := by
  simp only [probeHttpsHeaders] at hr
  split at hr
  · simp only [List.mem_cons, List.not_mem_nil, or_false] at hr
    rcases hr with rfl | rfl <;> constructor <;> simp [record, Item.tier]
  · simp only [List.mem_cons, List.not_mem_nil, or_false] at hr
    rcases hr with rfl | rfl | rfl | rfl
    · split <;> constructor <;> simp [record, Item.tier]
    · split <;> constructor <;> simp [record, Item.tier]
    · constructor <;> simp [record, Item.tier]
    · constructor <;> simp [record, Item.tier]

theorem shaped_readyz {call : Curl} (hr : r ∈ probeReadyz round zone call) :
    Shaped round zone [.readyz] r := by
  simp only [probeReadyz] at hr
  split_ifs at hr <;> rw [List.mem_singleton.mp hr] <;> constructor <;> simp [record, Item.tier]

theorem shaped_tls {capability : Capability} {item : Item} {proto : Protocol}
    {expectation : TlsExpectation} {call : Bounded} (hitem : item.tier = .asserted)
    (hr : r ∈ probeTlsVersion capability round zone item proto expectation call) :
    Shaped round zone [item] r := by
  simp only [probeTlsVersion] at hr
  split at hr
  · rw [List.mem_singleton.mp hr]
    constructor <;> simp [record, hitem]
  · split at hr <;> rw [List.mem_singleton.mp hr] <;> constructor <;> simp [record, hitem]

theorem shaped_zeroRtt {capability : Capability} {call : Bounded}
    (hr : r ∈ probeZeroRtt capability round zone call) : Shaped round zone [.zeroRttOff] r := by
  simp only [probeZeroRtt] at hr
  split at hr
  · rw [List.mem_singleton.mp hr]
    constructor <;> simp [record, Item.tier]
  · split at hr <;> rw [List.mem_singleton.mp hr] <;> constructor <;> simp [record, Item.tier]

theorem shaped_identity {call : Curl} (hr : r ∈ probeIdentity round zone other call) :
    Shaped round zone [.siteIdentity, .assets, .bodyBytes] r := by
  simp only [probeIdentity] at hr
  split at hr
  · rw [List.mem_singleton.mp hr]
    constructor <;> simp [record, Item.tier]
  · simp only [List.mem_cons, List.not_mem_nil, or_false] at hr
    rcases hr with rfl | rfl | rfl
    · split_ifs <;> constructor <;> simp [record, Item.tier]
    · constructor <;> simp [record, Item.tier]
    · constructor <;> simp [record, Item.tier]

theorem shaped_certificate {call : Bounded} {checkend : Text → Bool} {enddate : Text}
    (hr : r ∈ probeCertificate round zone call checkend enddate) :
    Shaped round zone [.certHeadroom, .certNotafter] r := by
  simp only [probeCertificate] at hr
  split at hr
  · rw [List.mem_singleton.mp hr]
    constructor <;> simp [record, Item.tier]
  · simp only [List.mem_cons, List.not_mem_nil, or_false] at hr
    rcases hr with rfl | rfl
    · split_ifs <;> constructor <;> simp [record, Item.tier]
    · constructor <;> simp [record, Item.tier]

theorem shaped_details {capability : Capability} {call : Bounded}
    (hr : r ∈ probeTlsDetails capability round zone call) :
    Shaped round zone [.tls13Group, .alpn] r := by
  simp only [probeTlsDetails] at hr
  split at hr
  · cases hr
  · simp only [List.mem_cons, List.not_mem_nil, or_false] at hr
    rcases hr with rfl | rfl <;> constructor <;> simp [record, Item.tier]

theorem piped_eq_ok {α : Type} {call : Dig} {parse : Text → α} {a : α} :
    call.piped parse = .ok a ↔ call.exit = 0 ∧ parse call.output = a := by
  unfold Dig.piped
  split <;> simp_all

theorem piped_eq_error {α : Type} {call : Dig} {parse : Text → α} {exit : ℕ}
    (h : call.piped parse = .error exit) : exit ≠ 0 := by
  unfold Dig.piped at h
  split at h
  · cases h
  · cases h
    assumption

theorem bind_eq_ok {α β : Type} {x : Except ℕ α} {f : α → Except ℕ β} {b : β} :
    (x >>= f) = .ok b ↔ ∃ a, x = .ok a ∧ f a = .ok b := by
  cases x <;> simp [bind, Except.bind]

theorem bind_eq_error {α β : Type} {x : Except ℕ α} {f : α → Except ℕ β} {exit : ℕ} :
    (x >>= f) = .error exit ↔ x = .error exit ∨ ∃ a, x = .ok a ∧ f a = .error exit := by
  cases x <;> simp [bind, Except.bind]

/-- The records about DNSSEC: a gap, or the pass with what is recorded beside it. -/
theorem probeDnssec_cases {expectation : Expectation}
    (h : probeDnssec round zone expectation calls = .ok found) :
    (∃ observed note, found = [record round (some zone) .dnssec .asserted .gap observed note]) ∨
      DnssecState calls expectation ∧ ∃ observed note rest,
        found = record round (some zone) .dnssec .asserted .pass observed note :: rest ∧
        ∀ r ∈ rest, ∃ observed note,
          r = record round (some zone) .dnssecParity .recorded .recorded observed note := by
  simp only [probeDnssec, bind_eq_ok, piped_eq_ok] at h
  obtain ⟨adOne, ⟨-, rfl⟩, adTwo, ⟨-, rfl⟩, adCd, ⟨-, rfl⟩, h⟩ := h
  cases expectation
  · simp only at h
    split at h
    · rename_i hstate
      cases h
      exact .inr ⟨hstate, _, _, [], rfl, by simp⟩
    · cases h
      exact .inl ⟨_, _, rfl⟩
  · simp only at h
    split at h
    · rename_i hstate
      cases h
      refine .inr ⟨hstate, _, _, _, rfl, ?_⟩
      intro r hr
      exact ⟨_, _, List.mem_singleton.mp hr⟩
    · cases h
      exact .inl ⟨_, _, rfl⟩

theorem shaped_dnssec {expectation : Expectation}
    (h : probeDnssec round zone expectation calls = .ok found) (hr : r ∈ found) :
    Shaped round zone [.dnssec, .dnssecParity] r := by
  rcases probeDnssec_cases h with ⟨observed, note, rfl⟩ | ⟨-, observed, note, rest, rfl, hrest⟩
  · rw [List.mem_singleton.mp hr]
    constructor <;> simp [record, Item.tier]
  · rcases List.mem_cons.mp hr with rfl | hr
    · constructor <;> simp [record, Item.tier]
    · obtain ⟨observed, note, rfl⟩ := hrest r hr
      constructor <;> simp [record, Item.tier]

theorem probeWwwAbsent_cases {expectation : Expectation}
    (h : probeWwwAbsent round zone expectation calls = .ok found) :
    ∃ verdict observed note,
      found = [record round (some zone) .wwwAbsent .asserted verdict observed note] ∧
      (verdict = .error ∨ verdict = .gap ∨ verdict = .pass ∧
        NameAbsent calls.wwwOne.output ∧ NameAbsent calls.wwwTwo.output) := by
  simp only [probeWwwAbsent, bind_eq_ok, piped_eq_ok] at h
  obtain ⟨one, ⟨-, rfl⟩, two, ⟨-, rfl⟩, h⟩ := h
  split at h
  · rename_i habsent
    rw [Bool.and_eq_true] at habsent
    cases h
    exact ⟨_, _, _, rfl, .inr (.inr ⟨rfl, absence_of_isAbsent habsent.1,
      absence_of_isAbsent habsent.2⟩)⟩
  · split at h
    · cases h
      exact ⟨_, _, _, rfl, .inl rfl⟩
    · cases h
      exact ⟨_, _, _, rfl, .inr (.inl rfl)⟩

theorem shaped_www {expectation : Expectation}
    (h : probeWwwAbsent round zone expectation calls = .ok found) (hr : r ∈ found) :
    Shaped round zone [.wwwAbsent] r := by
  obtain ⟨verdict, observed, note, rfl, hverdict⟩ := probeWwwAbsent_cases h
  rw [List.mem_singleton.mp hr]
  rcases hverdict with rfl | rfl | ⟨rfl, -⟩ <;> constructor <;> simp [record, Item.tier]

end Shapes

/-! ## What a pass says -/

section Passes

/-- Every asserted record is a pass. -/
def Passes (found : List Record) : Prop := ∀ r ∈ found, r.tier = .asserted → r.verdict = .pass

theorem Passes.subset (h : Passes records) (hsub : ∀ r ∈ found, r ∈ records) : Passes found :=
  fun r hr => h r (hsub r hr)

theorem passes_singleton : Passes [r] ↔ (r.tier = .asserted → r.verdict = .pass) := by
  simp [Passes]

theorem redirect_passes {item : Item} {path : String} {redirect : RedirectCalls}
    (h : Passes (probeHttpRedirect round zone item path redirect)) :
    redirect.first.completed = true ∧
      (redirectCode redirect.first.output = "301".toList ∨
        redirectCode redirect.first.output = "308".toList) ∧
      redirectLocation redirect.first.output = httpsUrl zone path ∧
      starts "1:" (redirectHops redirect.chain) = true := by
  simp only [probeHttpRedirect] at h
  split_ifs at h with hfirst hcode hlocation hplain hhops hother
  all_goals first | (simp [passes_singleton, record] at h; done) | skip
  exact ⟨by simpa using hfirst, hcode, by simpa using hlocation, by simpa using hhops⟩

theorem tlsRefused_passes {capability : Capability} {item : Item} {proto : Protocol}
    {call : Bounded} (h : Passes (probeTlsVersion capability round zone item proto .refused call)) :
    classifyTlsTranscript call.output = .refused := by
  simp only [probeTlsVersion] at h
  split at h
  · simp [passes_singleton, record] at h
  · split at h <;> first | assumption | (simp [passes_singleton, record] at h; done) | contradiction

theorem tlsAccepted_passes {capability : Capability} {item : Item} {proto : Protocol}
    {call : Bounded} (h : Passes (probeTlsVersion capability round zone item proto .accepted call)) :
    TlsCompleted call.output := by
  simp only [probeTlsVersion] at h
  split at h
  · simp [passes_singleton, record] at h
  · split at h
    · contradiction
    · contradiction
    · rename_i haccepted
      exact classify_eq_accepted haccepted
    · simp [passes_singleton, record] at h
    · simp [passes_singleton, record] at h

theorem zeroRtt_passes {capability : Capability} {call : Bounded}
    (h : Passes (probeZeroRtt capability round zone call)) : EarlyDataOff call.output := by
  simp only [probeZeroRtt] at h
  split at h
  · simp [passes_singleton, record] at h
  · split at h
    · rename_i hoff
      exact earlyData_eq_off hoff
    · simp [passes_singleton, record] at h
    · simp [passes_singleton, record] at h

theorem readyz_passes {call : Curl} (h : Passes (probeReadyz round zone call)) :
    ReadyEstablished call := by
  simp only [probeReadyz] at h
  split_ifs at h with hcompleted hcode
  · simp [passes_singleton, record] at h
  · exact ⟨by simpa using hcompleted, hcode⟩
  · simp [passes_singleton, record] at h

theorem headers_passes {call : Curl} (h : Passes (probeHttpsHeaders round zone call)) :
    HstsEstablished call ∧ HeadersEstablished call := by
  simp only [probeHttpsHeaders] at h
  split at h
  · simp [Passes, record] at h
  · rename_i hcompleted
    have hanswered : call.completed = true := by simpa using hcompleted
    have hhsts := h _ List.mem_cons_self
    have hsecurity := h _ (List.mem_cons_of_mem _ List.mem_cons_self)
    constructor
    · refine ⟨hanswered, ?_⟩
      split at hhsts
      · rename_i hexact
        exact hstsVerdict_eq_exact hexact
      · simp [record] at hhsts
      · simp [record] at hhsts
    · refine ⟨hanswered, ?_⟩
      split at hsecurity
      · simp [record] at hsecurity
      · rename_i hmissing
        intro name hname
        by_contra hnone
        have hmem : name ∈ missingHeaders call.output := by
          refine List.mem_filter.mpr ⟨hname, ?_⟩
          simpa using hnone
        rw [not_not.mp hmissing] at hmem
        cases hmem

theorem identity_passes {call : Curl} (h : Passes (probeIdentity round zone other call)) :
    IdentityEstablished zone other call := by
  simp only [probeIdentity] at h
  split at h
  · simp [passes_singleton, record] at h
  · rename_i hcompleted
    have htitle := h _ List.mem_cons_self
    split_ifs at htitle with hother hcarries
    · simp [record] at htitle
    · simp [record] at htitle
    · refine ⟨by simpa using hcompleted, not_not.mp hother, ?_⟩
      rintro z rfl line hline
      simp only [Option.any_some, List.any_eq_true, not_exists, not_and, Bool.not_eq_true] at hcarries
      exact hcarries line hline

theorem certificate_passes {call : Bounded} {checkend : Text → Bool} {enddate : Text}
    (h : Passes (probeCertificate round zone call checkend enddate)) :
    CertificateEstablished call checkend := by
  simp only [probeCertificate] at h
  split at h
  · simp [passes_singleton, record] at h
  · rename_i hcompleted
    have hcert := h _ List.mem_cons_self
    split_ifs at hcert with hend
    · exact ⟨by simpa using hcompleted, hend⟩
    · simp [record] at hcert

theorem dnssec_passes {expectation : Expectation}
    (h : probeDnssec round zone expectation calls = .ok found) (hpass : Passes found) :
    DnssecState calls expectation := by
  rcases probeDnssec_cases h with ⟨observed, note, rfl⟩ | ⟨hstate, -⟩
  · simp [passes_singleton, record] at hpass
  · exact hstate

theorem www_passes {expectation : Expectation}
    (h : probeWwwAbsent round zone expectation calls = .ok found) (hpass : Passes found) :
    NameAbsent calls.wwwOne.output ∧ NameAbsent calls.wwwTwo.output := by
  obtain ⟨verdict, observed, note, rfl, hverdict⟩ := probeWwwAbsent_cases h
  rw [passes_singleton] at hpass
  have hverdict' : verdict = .pass := hpass rfl
  rcases hverdict with rfl | rfl | ⟨-, hboth⟩
  · cases hverdict'
  · cases hverdict'
  · exact hboth

end Passes

end EdgeProbe
