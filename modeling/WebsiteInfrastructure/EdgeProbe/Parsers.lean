import Mathlib
import WebsiteInfrastructure.Library.ShellText

/-!
# Transcript parsers of the edge probe

Every parser reads a transcript and gives one classification.
-/

namespace EdgeProbe

open ShellText Regex

/-- What an `openssl s_client` transcript is classified as. -/
inductive TlsVerdict
  | accepted (version : Text)
  | refused
  | clientLimited
  | errorTransport
  | errorUnclassified
  deriving DecidableEq

def TlsVerdict.text : TlsVerdict → Text
  | .accepted version => "accepted ".toList ++ version
  | .refused => "refused".toList
  | .clientLimited => "client-limited".toList
  | .errorTransport => "error transport".toList
  | .errorUnclassified => "error unclassified".toList

/-- `[Uu]nknown option` or `unknown protocol` -/
def unknownLine (line : Text) : Bool :=
  mentions "Unknown option" line || mentions "unknown option" line || mentions "unknown protocol" line

/-- `^New, TLSv[0-9]` -/
def completedLine (line : Text) : Bool :=
  starts "New, TLSv" line && (line.drop "New, TLSv".toList.length).head?.any Char.isDigit

/-- `^Protocol[[:blank:]]*:` -/
def protocolLine (line : Text) : Bool :=
  starts "Protocol" line &&
    ((line.drop "Protocol".toList.length).dropWhile isBlank).head? = some ':'

/-- The summary of a handshake that did not complete, for whatever reason. -/
def summaryLine (line : Text) : Bool := starts "New, (NONE)" line

/-- The client found no protocol that it may offer. -/
def localLine (line : Text) : Bool := mentions "no protocols available" line

/-- An alert of the server, or what the TLS layer says about a record that the server sent. -/
def answerLine (line : Text) : Bool :=
  mentions "alert protocol version" line || mentions "alert handshake failure" line ||
    mentions "unsupported protocol" line || mentions "wrong version number" line ||
    mentions "sslv3 alert" line || mentions "tlsv1 alert" line

def transportLine (line : Text) : Bool :=
  mentions "connect:errno" line || mentions "Connection refused" line ||
    mentions "getaddrinfo" line || mentions "Name or service not known" line ||
    mentions "no such host" line

/-- The lines of a transcript that was read with `transcript="$(cat)"`. -/
def transcriptLines (out : Text) : List Text := printedLines (substitution out)

def classifyTlsTranscript (out : Text) : TlsVerdict :=
  let transcript := transcriptLines out
  if transcript.any unknownLine then .clientLimited
  else if transcript.any completedLine then
    let summary := (transcript.find? protocolLine).getD []
    let version := (dropThrough ':' summary).filter fun c => !isBlank c
    .accepted (if version = [] then "unknown".toList else version)
  else if transcript.any fun line => summaryLine line || localLine line || answerLine line then .refused
  else if transcript.any transportLine then .errorTransport
  else .errorUnclassified

/-- What a transcript says about early data. -/
inductive EarlyData
  | off
  | on
  | noTicket
  deriving DecidableEq

/-- The digits of every line that announces a budget for early data. -/
def earlyDataValues (out : Text) : List Text :=
  ((transcriptLines out).filter (mentions "Max Early Data")).map (·.filter Char.isDigit)

def earlyDataVerdict (out : Text) : EarlyData :=
  let values := (earlyDataValues out).filter (· ≠ [])
  if values = [] then .noTicket
  else if values.any (· ≠ ['0']) then .on
  else .off

/-- The exact target value. -/
def hstsTarget : Text := "max-age=31536000".toList

inductive HstsVerdict
  | exact
  | extra (value : Text)
  | wrong (value : Text)
  | absent
  deriving DecidableEq

def HstsVerdict.text : HstsVerdict → Text
  | .exact => "exact".toList
  | .extra value => "extra ".toList ++ value
  | .wrong value => "wrong ".toList ++ value
  | .absent => "absent".toList

def hstsVerdict (header : Text) : HstsVerdict :=
  let value := trim (dropThrough ':' (header.filter (· ≠ '\r')))
  if value = [] then .absent
  else if value = hstsTarget then .exact
  else if hstsTarget <+: value then .extra value
  else .wrong value

/-- What a full `dig` answer says about the existence of a name. -/
inductive Absence
  | absentNxdomain
  | absentNodata
  | present (count : Text)
  | error (status : Text)
  deriving DecidableEq

def Absence.text : Absence → Text
  | .absentNxdomain => "absent-nxdomain".toList
  | .absentNodata => "absent-nodata".toList
  | .present count => "present ".toList ++ count
  | .error status => "error ".toList ++ status

/-- `absent-*` -/
def Absence.isAbsent : Absence → Bool
  | .absentNxdomain | .absentNodata => true
  | _ => false

/-- `error*` -/
def Absence.isError : Absence → Bool
  | .error _ => true
  | _ => false

def statusPattern : Pattern := .all [.lit "status: ", .plus (.char Char.isUpper)]

def countPattern : Pattern := .all [.lit "ANSWER: ", .plus (.char Char.isDigit)]

/-- The response code that a full `dig` answer reports. -/
def dnsStatus (answer : Text) : Text :=
  dropStart "status: " (substitution (firstMatches statusPattern (transcriptLines answer)))

/-- The number of answer records that a full `dig` answer reports. -/
def dnsCount (answer : Text) : Text :=
  dropStart "ANSWER: " (substitution (firstMatches countPattern (transcriptLines answer)))

def dnsAbsenceVerdict (answer : Text) : Absence :=
  let status := dnsStatus answer
  let count := dnsCount answer
  if status = "NXDOMAIN".toList then .absentNxdomain
  else if status ≠ "NOERROR".toList ∨ count = [] then
    .error (if status = [] then "none".toList else status)
  else if count = ['0'] then .absentNodata
  else .present count

/-- Whether a `dig +dnssec` answer carries the flag for authenticated data. -/
inductive AdFlag
  | ad
  | noAd
  deriving DecidableEq

def AdFlag.text : AdFlag → Text
  | .ad => "ad".toList
  | .noAd => "no-ad".toList

def flagsPattern : Pattern :=
  .all [.lit "flags:", .star (.char fun c => ('a' ≤ c && c ≤ 'z') || c = ' ')]

def dnssecAdVerdict (answer : Text) : AdFlag :=
  let flags := substitution (firstMatches flagsPattern (transcriptLines answer))
  if mentions " ad " (' ' :: flags ++ [' ']) then .ad else .noAd

/-! ## What the classifications come from -/

theorem classify_eq_refused {out : Text} (h : classifyTlsTranscript out = .refused) :
    ∃ line ∈ transcriptLines out,
      summaryLine line = true ∨ localLine line = true ∨ answerLine line = true := by
  simp only [classifyTlsTranscript] at h
  split at h
  · cases h
  · split at h
    · cases h
    · split at h
      · rename_i hany
        simpa [or_assoc] using hany
      · split at h <;> cases h

theorem classify_eq_accepted {out version : Text}
    (h : classifyTlsTranscript out = .accepted version) :
    ∃ line ∈ transcriptLines out, completedLine line = true := by
  simp only [classifyTlsTranscript] at h
  split at h
  · cases h
  · split at h
    · rename_i hany
      simpa using hany
    · split at h
      · cases h
      · split at h <;> cases h

theorem earlyData_eq_off {out : Text} (h : earlyDataVerdict out = .off) :
    ['0'] ∈ earlyDataValues out ∧ ∀ value ∈ earlyDataValues out, value = [] ∨ value = ['0'] := by
  simp only [earlyDataVerdict] at h
  split at h
  · cases h
  · rename_i hsome
    split at h
    · cases h
    · rename_i hzero
      simp only [List.any_eq_true, List.mem_filter, decide_eq_true_eq, not_exists, not_and,
        not_not, and_imp] at hzero
      have hall : ∀ value ∈ earlyDataValues out, value = [] ∨ value = ['0'] := by
        intro value hvalue
        by_cases hempty : value = []
        · exact .inl hempty
        · exact .inr (hzero value hvalue hempty)
      obtain ⟨value, hvalue⟩ := List.exists_mem_of_ne_nil _ hsome
      obtain ⟨hmem, hne⟩ := List.mem_filter.mp hvalue
      have hzero' := (hall value hmem).resolve_left (by simpa using hne)
      exact ⟨hzero' ▸ hmem, hall⟩

theorem hstsVerdict_eq_exact {header : Text} (h : hstsVerdict header = .exact) :
    trim (dropThrough ':' (header.filter (· ≠ '\r'))) = hstsTarget := by
  simp only [hstsVerdict] at h
  split at h
  · cases h
  · split at h
    · assumption
    · split at h <;> cases h

theorem absence_of_isAbsent {answer : Text} (h : (dnsAbsenceVerdict answer).isAbsent = true) :
    dnsStatus answer = "NXDOMAIN".toList ∨
      dnsStatus answer = "NOERROR".toList ∧ dnsCount answer = ['0'] := by
  simp only [dnsAbsenceVerdict] at h
  split at h
  · exact .inl ‹_›
  · split at h
    · cases h
    · rename_i hboth
      push Not at hboth
      split at h
      · exact .inr ⟨hboth.1, ‹_›⟩
      · cases h

end EdgeProbe
