import Mathlib
import WebsiteInfrastructure.EdgeProbe.Parsers

/-!
# The probes

A probe turns what its tools answered into records. The calls of one round against one site are
inputs: every tool may answer anything, fail, or be stopped by the watchdog. A failing `dig` in a
pipeline ends the whole script, as `set -e` with `pipefail` does.
-/

namespace EdgeProbe

open ShellText Regex

inductive Zone
  | naranjoOnline
  | liderseaCom
  deriving DecidableEq

def Zone.name : Zone → String
  | .naranjoOnline => "naranjo.online"
  | .liderseaCom => "lidersea.com"

inductive Expectation
  | signed
  | unsigned
  deriving DecidableEq

/-- The encoded expectation of each zone. -/
def Zone.dnssec : Zone → Expectation
  | .naranjoOnline => .signed
  | .liderseaCom => .unsigned

def Zone.other : Zone → Zone
  | .naranjoOnline => .liderseaCom
  | .liderseaCom => .naranjoOnline

inductive Protocol
  | tls1
  | tls1_1
  | tls1_2
  | tls1_3
  deriving DecidableEq

/-- What `curl` wrote, and whether it ended with status zero. -/
structure Curl where
  completed : Bool
  output : Text

/-- What a process under the watchdog wrote, and whether it ended with status zero in time. -/
structure Bounded where
  completed : Bool
  output : Text

/-- What `dig` wrote, and its exit status. -/
structure Dig where
  exit : ℕ
  output : Text

/-- The response code of the answer that a resolver gave. -/
inductive Rcode
  | noerror
  | servfail
  | nxdomain
  | refused
  | other (code : ℕ)
  deriving DecidableEq

/-- A `dig +short` call. Its output has no header, so the code of the answer, if there was one,
stands beside it; the script does not see it. -/
structure ShortDig where
  exit : ℕ
  output : Text
  answer : Option Rcode

/-- The request for one path and the one that follows redirects. -/
structure RedirectCalls where
  first : Curl
  chain : Curl

/-- Every tool call of one round against one site. -/
structure ZoneCalls where
  redirectRoot : RedirectCalls
  redirectPathQuery : RedirectCalls
  cleartext : Curl
  tls : Protocol → Bounded
  zeroRtt : Bounded
  headers : Curl
  readyz : Curl
  body : Curl
  certificate : Bounded
  /-- `openssl x509 -checkend` on the first certificate of the transcript. -/
  checkend : Text → Bool
  enddate : Text
  details : Bounded
  dsOne : ShortDig
  dsTwo : ShortDig
  adOne : Dig
  adTwo : Dig
  adCd : Dig
  wwwOne : Dig
  wwwTwo : Dig

inductive Item
  | httpRedirectRoot
  | httpRedirectPathQuery
  | hstsOverCleartext
  | tls10Refused
  | tls11Refused
  | tls12Accepted
  | tls13Accepted
  | zeroRttOff
  | hstsExact
  | securityHeaders
  | altSvc
  | edgeColo
  | readyz
  | siteIdentity
  | assets
  | bodyBytes
  | certHeadroom
  | certNotafter
  | tls13Group
  | alpn
  | dnssec
  | dnssecParity
  | wwwAbsent
  | sitesDistinct
  deriving DecidableEq

inductive Tier
  | asserted
  | recorded
  deriving DecidableEq

inductive Verdict
  | pass
  | gap
  | skip
  | error
  | recorded
  | inapplicable
  | divergent
  deriving DecidableEq

/-- One line of the records. A record about no single site has no zone. -/
structure Record where
  round : ℕ
  zone : Option Zone
  item : Item
  tier : Tier
  verdict : Verdict
  observed : Text
  note : String
  deriving DecidableEq

/-- `tr '\t\n' '  '` -/
def flattened (t : Text) : Text := t.map fun c => if c = '\t' ∨ c = '\n' then ' ' else c

def record (round : ℕ) (zone : Option Zone) (item : Item) (tier : Tier) (verdict : Verdict)
    (observed : Text) (note : String) : Record :=
  ⟨round, zone, item, tier, verdict, substitution (flattened observed), note⟩

/-! ## The capability preflight -/

inductive Capability
  | capable
  | incapable
  | unproven
  deriving DecidableEq

def Capability.text : Capability → Text
  | .capable => "capable".toList
  | .incapable => "incapable".toList
  | .unproven => "unproven".toList

def TlsVerdict.isError : TlsVerdict → Bool
  | .errorTransport | .errorUnclassified => true
  | _ => false

/-- The verdict after some attempts: an attempt whose server did not stay is left out, and the
first one that is not an error is the last. -/
def lastAttempt (verdict : Option TlsVerdict) : List (Option Text) → Option TlsVerdict
  | [] => verdict
  | none :: attempts => lastAttempt verdict attempts
  | some transcript :: attempts =>
    let verdict := classifyTlsTranscript transcript
    if verdict.isError then lastAttempt (some verdict) attempts else some verdict

def preflightProtocol (attempts : List (Option Text)) : Capability :=
  match lastAttempt none (attempts.take 3) with
  | some (.accepted _) => .capable
  | some .clientLimited => .incapable
  | _ => .unproven

/-- The state of the preflight, from what the loopback attempts wrote. -/
def preflightState (loopback : Protocol → List (Option Text)) (proto : Protocol) : Capability :=
  preflightProtocol (loopback proto)

/-! ## HTTP -/

/-- `http_code` and `redirect_url` -/
def redirectCode (out : Text) : Text := substitution (unlines ((lines out).map firstField))

def redirectLocation (out : Text) : Text :=
  dropStart " " (substitution (unlines ((lines out).map otherFields)))

/-- `num_redirects:http_code`, followed by `error` where the call failed. -/
def redirectHops (chain : Curl) : Text :=
  substitution (chain.output ++ if chain.completed then [] else "error".toList)

def orNone (location : Text) : Text := if location = [] then "<none>".toList else location

def httpsUrl (zone : Zone) (path : String) : Text := ("https://" ++ zone.name ++ path).toList

def probeHttpRedirect (round : ℕ) (zone : Zone) (item : Item) (path : String)
    (calls : RedirectCalls) : List Record :=
  let entry := record round (some zone) item .asserted
  if !calls.first.completed then
    [entry .error "curl-failed".toList "the plaintext HTTP request could not complete"]
  else
    let code := redirectCode calls.first.output
    let location := redirectLocation calls.first.output
    let expected := httpsUrl zone path
    let seen := "http_code=".toList ++ code ++ " location=".toList
    if code = "301".toList ∨ code = "308".toList then
      if location ≠ expected then
        if starts "http://" location then
          [entry .gap (seen ++ location)
            ("the redirect stays on plaintext http; expected https://" ++ zone.name ++ path)]
        else
          [entry .gap (seen ++ orNone location)
            ("the redirect does not preserve path and query; expected https://" ++ zone.name ++ path)]
      else
        let hops := redirectHops calls.chain
        let observed := seen ++ location ++ " chain=".toList ++ hops
        if !starts "1:" hops then
          [entry .gap observed "the target state is exactly one redirect hop"]
        else [entry .pass observed ""]
    else if code = "302".toList ∨ code = "303".toList ∨ code = "307".toList then
      [entry .gap (seen ++ orNone location) "the target state is a permanent redirect (301 or 308)"]
    else
      [entry .gap (seen ++ orNone location)
        "plaintext HTTP is served directly; Always Use HTTPS is off"]

/-- The first header line of a name, in any case of its letters. -/
def headerLine (name : String) (out : Text) : Text :=
  ((lines out).find? (startsIgnoringCase (name ++ ":"))).getD []

def probeCleartextHsts (round : ℕ) (zone : Zone) (call : Curl) : List Record :=
  let entry := record round (some zone) .hstsOverCleartext .recorded .recorded
  if !call.completed then
    [entry "unavailable".toList "the plaintext request could not complete"]
  else if headerLine "strict-transport-security" call.output ≠ [] then
    [entry "present".toList "the origin emits HSTS over cleartext, so the running build predates the https-gated HSTS change; browsers ignore it (RFC 6797 7.2) and it never substitutes for the edge redirect"]
  else
    [entry "absent".toList "no HSTS over cleartext: either the https-gated build is deployed, or the edge is already answering the plaintext request itself"]

def securityHeaders : List String :=
  ["content-security-policy", "x-content-type-options", "referrer-policy", "permissions-policy",
    "x-frame-options", "cross-origin-resource-policy"]

def missingHeaders (out : Text) : List String :=
  securityHeaders.filter fun name => !(lines out).any (startsIgnoringCase (name ++ ":"))

def probeHttpsHeaders (round : ℕ) (zone : Zone) (call : Curl) : List Record :=
  let entry := fun item tier => record round (some zone) item tier
  if !call.completed then
    [entry .hstsExact .asserted .error "curl-failed".toList "the HTTPS request could not complete",
      entry .securityHeaders .asserted .error "curl-failed".toList
        "the HTTPS request could not complete"]
  else
    let verdict := hstsVerdict (headerLine "strict-transport-security" call.output)
    let hsts :=
      match verdict with
      | .exact => entry .hstsExact .asserted .pass hstsTarget ""
      | .absent => entry .hstsExact .asserted .gap "absent".toList
          "no Strict-Transport-Security header on the HTTPS response"
      | _ => entry .hstsExact .asserted .gap verdict.text
          "the target state is exactly max-age=31536000"
    let missing := missingHeaders call.output
    let security :=
      if missing ≠ [] then
        entry .securityHeaders .asserted .gap
          ("missing:".toList ++ (String.intercalate " " missing).toList)
          "the application response header set is incomplete"
      else entry .securityHeaders .asserted .pass "all-present".toList ""
    let altSvc := (headerLine "alt-svc" call.output).filter (· ≠ '\r')
    let ray := (headerLine "cf-ray" call.output).filter (· ≠ '\r')
    [hsts, security,
      entry .altSvc .recorded .recorded (orNone altSvc)
        "HTTP/3 advertisement only; QUIC connectivity is not tested here",
      entry .edgeColo .recorded .recorded (dropThroughLast '-' ray)
        "the colo serving this vantage point; Cloudflare configuration is global"]

def probeReadyz (round : ℕ) (zone : Zone) (call : Curl) : List Record :=
  let entry := record round (some zone) .readyz .asserted
  if !call.completed then
    [entry .error "curl-failed".toList "the readiness request could not complete"]
  else
    let code := substitution ((lines call.output).getLast?.getD [])
    let body := substitution ((lines call.output).head?.getD [])
    if code = "200".toList then [entry .pass ("http_code=200 body=".toList ++ body) ""]
    else [entry .gap ("http_code=".toList ++ code) "the public readiness endpoint is not answering 200"]

/-! ## TLS -/

inductive TlsExpectation
  | refused
  | accepted
  deriving DecidableEq

def Protocol.text : Protocol → String
  | .tls1 => "tls1"
  | .tls1_1 => "tls1_1"
  | .tls1_2 => "tls1_2"
  | .tls1_3 => "tls1_3"

def probeTlsVersion (capability : Capability) (round : ℕ) (zone : Zone) (item : Item)
    (proto : Protocol) (expectation : TlsExpectation) (call : Bounded) : List Record :=
  let entry := record round (some zone) item .asserted
  if capability ≠ .capable then
    [entry .skip ("client=".toList ++ capability.text)
      ("the local TLS client could not be proven able to speak " ++ proto.text ++ " against a local server, so a remote result would describe the client, not the edge")]
  else
    let verdict := classifyTlsTranscript call.output
    match expectation, verdict with
    | .refused, .refused => [entry .pass verdict.text ""]
    | .refused, .accepted _ =>
      [entry .gap verdict.text "the zone minimum TLS version is below 1.2"]
    | .accepted, .accepted _ => [entry .pass verdict.text ""]
    | .accepted, .refused =>
      [entry .gap verdict.text "a required modern protocol was refused by the edge"]
    | _, _ => [entry .error verdict.text "the handshake produced no classifiable result"]

def probeZeroRtt (capability : Capability) (round : ℕ) (zone : Zone) (call : Bounded) :
    List Record :=
  let entry := record round (some zone) .zeroRttOff .asserted
  if capability ≠ .capable then
    [entry .skip "client=incapable".toList
      "the local client could not be proven able to speak TLS 1.3"]
  else
    match earlyDataVerdict call.output with
    | .off => [entry .pass "max-early-data=0".toList ""]
    | .on => [entry .gap "max-early-data>0".toList
        "0-RTT is enabled at the edge; replayable early data is accepted"]
    | .noTicket => [entry .skip "no-ticket".toList
        "no post-handshake session ticket was observed; this is the signature of a truncated probe, not evidence about the edge"]

/-- The first certificate block of a transcript. -/
def firstCertificate : Bool → List Text → List Text
  | _, [] => []
  | inside, line :: rest =>
    let inside := inside || mentions "-----BEGIN CERTIFICATE-----" line
    if inside then
      line :: if mentions "-----END CERTIFICATE-----" line then [] else firstCertificate true rest
    else firstCertificate false rest

def probeCertificate (round : ℕ) (zone : Zone) (call : Bounded) (checkend : Text → Bool)
    (enddate : Text) : List Record :=
  let entry := fun item tier => record round (some zone) item tier
  if !call.completed then
    [entry .certHeadroom .asserted .error "handshake-failed".toList
      "the certificate could not be read"]
  else
    let chain := unlines (firstCertificate false (lines call.output))
    [if checkend chain then
        entry .certHeadroom .asserted .pass "more-than-21-days".toList ""
      else entry .certHeadroom .asserted .gap "less-than-21-days".toList
        "the leaf certificate is inside the renewal alert threshold",
      entry .certNotafter .recorded .recorded (dropStart "notAfter=" (substitution enddate))
        "recorded for the audit trail; certificate identity is never gated on"]

def probeTlsDetails (capability : Capability) (round : ℕ) (zone : Zone) (call : Bounded) :
    List Record :=
  let entry := fun item => record round (some zone) item .recorded .recorded
  let firstLine := fun phrase => ((lines call.output).find? (mentions phrase)).getD []
  if capability ≠ .capable then []
  else
    [entry .tls13Group (dropThroughText ": " (firstLine "Negotiated TLS1.3 group"))
        "Cloudflare rotates negotiated defaults; recorded, never gated",
      entry .alpn (dropThroughText ": " (firstLine "ALPN protocol")) "recorded, never gated"]

/-! ## The site -/

def titlePattern : Pattern := .all [.lit "<title>", .star (.char (· ≠ '<')), .lit "</title>"]

def assetPattern : Pattern :=
  .all [.lit "/assets/index-", .plus (.char fun c => c.isAlphanum || c = '_' || c = '-'), .lit ".",
    .alt (.lit "js") (.lit "css")]

def siteTitle (out : Text) : Text :=
  dropEnd "</title>" (dropStart "<title>" (substitution (firstMatches titlePattern (lines out))))

/-- `sort -u`, by the bytes of the names. -/
def sortUnique (names : List Text) : List Text :=
  names.dedup.insertionSort fun a b => a.map Char.toNat ≤ b.map Char.toNat

/-- The asset file names that a response body mentions. -/
def siteAssets (out : Text) : List Text := sortUnique (allMatches assetPattern (lines out))

/-- The names, with commas between them. -/
def assetList (out : Text) : Text := List.intercalate [','] (siteAssets out)

def probeIdentity (round : ℕ) (zone : Zone) (other : Option Zone) (call : Curl) : List Record :=
  let entry := fun item tier => record round (some zone) item tier
  if !call.completed then
    [entry .siteIdentity .asserted .error "curl-failed".toList "the root request could not complete"]
  else
    let title := siteTitle call.output
    let carriesOther := other.any fun other =>
      (lines call.output).any (mentions ("<title>" ++ other.name ++ "</title>"))
    [if title ≠ zone.name.toList then
        entry .siteIdentity .asserted .gap ("title=".toList ++ orNone title)
          "the apex does not serve its own identity"
      else if carriesOther then
        entry .siteIdentity .asserted .gap ("title=".toList ++ title)
          "the response also carries the other site identity"
      else entry .siteIdentity .asserted .pass ("title=".toList ++ title) "",
      entry .assets .recorded .recorded (assetList call.output)
        "asset filenames are the distinctness marker; the body hash never is",
      entry .bodyBytes .recorded .recorded (toString (call.output.map Char.utf8Size).sum).toList
        "body length is stable across rounds; the body hash is not"]

end EdgeProbe
