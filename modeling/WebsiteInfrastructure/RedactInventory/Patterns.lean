import Mathlib
import WebsiteInfrastructure.Library.RegexSub

/-!
# The patterns of the redactor

`PATTERNS` of `redact_inventory.py`, in their order.
-/

namespace RedactInventory

open Regex Regex.Pattern

abbrev Text := List Char

section Notation

variable [Characters]

/-- A class of characters. -/
def oneOf (characters : String) : Pattern := char fun c => characters.toList.contains c

/-- A class of characters under `(?i)`. -/
def oneOfFolded (characters : String) : Pattern :=
  char fun c => characters.toList.any fun x => Characters.folds x c

/-- `r{least,}` -/
def atLeast (r : Pattern) (least : ℕ) : Pattern := seq (r.times least 0) (star r)

/-- The first of some patterns that matches. -/
def anyOf (first : Pattern) (rs : List Pattern) : Pattern := rs.foldl alt first

/-- A look-behind that wants none of some characters before. -/
def notAfter (p : Char → Bool) : Pattern := edge fun before _ => !before.any p

/-- A look-ahead that wants none of some characters behind. -/
def notBefore (p : Char → Bool) : Pattern := edge fun _ next => !next.any p

end Notation

/-! ## Classes -/

def lowerLetters : String := "abcdefghijklmnopqrstuvwxyz"

def upperLetters : String := "ABCDEFGHIJKLMNOPQRSTUVWXYZ"

def decimalDigits : String := "0123456789"

/-- `[0-9a-f]`, to be used under `(?i)` -/
def hexDigits : String := "0123456789abcdef"

/-- `[A-Za-z0-9]` -/
def alphanumerics : String := upperLetters ++ lowerLetters ++ decimalDigits

/-- `[1-9A-HJ-NP-Za-km-z]` -/
def base58 : String := "123456789ABCDEFGHJKLMNPQRSTUVWXYZabcdefghijkmnopqrstuvwxyz"

/-- `[023456789ac-hj-np-z]`, to be used under `(?i)` -/
def bech32 : String := "023456789acdefghjklmnpqrstuvwxyz"

/-- `[a-z2-7]`, to be used under `(?i)` -/
def base32 : String := lowerLetters ++ "234567"

section Patterns

variable [Characters]

def hex : Pattern := oneOfFolded hexDigits

def isHex (c : Char) : Bool := hexDigits.toList.any fun x => Characters.folds x c

/-- `[\"']?` -/
def quotation : Pattern := opt (oneOf "\"'")

/-- `\s*[:=]\s*` -/
def assignment : Pattern := all [spaces, oneOf ":=", spaces]

/-- `[0-9a-f]{8}(?:-[0-9a-f]{4}){3}-[0-9a-f]{12}` -/
def uuid : Pattern :=
  all [hex.times 8 0, (seq (lit "-") (hex.times 4 0)).times 3 0, lit "-", hex.times 12 0]

def machineId : Pattern :=
  all [wordEdge, alt (litFolded "machine") (litFolded "boot"), opt (oneOf " -"), litFolded "id",
    assignment, atLeast hex 16, wordEdge]

def namedUuid : Pattern :=
  all [wordEdge, alt (litFolded "PARTUUID") (litFolded "UUID"), opt (lit "="), uuid, wordEdge]

def bareUuid : Pattern := all [wordEdge, uuid, wordEdge]

/-- `(?:\d{1,3}\.){3}\d{1,3}` -/
def dottedQuad : List Pattern := [(seq (digit.times 1 2) (lit ".")).times 3 0, digit.times 1 2]

def ipv4 : Pattern :=
  all ([notAfter fun c => Characters.isDigit c || c = '.'] ++ dottedQuad ++
    [opt (seq (lit "/") (digit.times 1 1))])

def ipv6 : Pattern :=
  all [notAfter fun c => isHex c || c = ':', (seq (hex.times 0 4) (lit ":")).times 2 5, hex.times 0 4,
    opt (seq (lit "/") (digit.times 1 2))]

def mac : Pattern :=
  all [notAfter isHex, (seq (hex.times 2 0) (lit ":")).times 5 0, hex.times 2 0, notBefore isHex]

def ageIdentity : Pattern :=
  all [lit "AGE-SECRET-KEY-", opt (lit "PQ-"), lit "1", plus (oneOf (upperLetters ++ decimalDigits))]

def githubToken : Pattern :=
  all [wordEdge,
    alt (all [lit "gh", oneOf "pousr", lit "_", atLeast (oneOf alphanumerics) 12])
      (all [lit "github_pat_", atLeast (oneOf (alphanumerics ++ "_")) 12]),
    wordEdge]

def cloudflareToken : Pattern :=
  all [wordEdge, anyOf (lit "cfk") [lit "cfut", lit "cfat"], lit "_", (oneOf alphanumerics).times 40 0,
    (oneOf "0123456789ABCDEFabcdef").times 8 0, wordEdge]

def cloudflareApiToken : Pattern :=
  all [group "1" (all [wordEdge, litFolded "cloudflare_api_token", wordEdge, quotation, assignment,
      quotation]),
    atLeast (oneOfFolded (alphanumerics ++ "_-")) 20, group "2" quotation]

def bearer : Pattern :=
  all [group "1" (all [litFolded "authorization:", spaces, litFolded "bearer", plus space]),
    plus (char fun c => !PythonText.isSpace c)]

/-- `[A-Za-z0-9+/_-]`, to be used under `(?i)` -/
def tokenLetters : String := alphanumerics ++ "+/_-"

def tunnelToken : Pattern :=
  all [group "1" (all [wordEdge, opt (seq (litFolded "cloudflared") (opt (oneOf "_ -"))),
      litFolded "tunnel", opt (oneOf "_ -"), litFolded "token", wordEdge, quotation, assignment,
      quotation]),
    alt (all [litFolded "eyJ", atLeast (oneOfFolded tokenLetters) 20, (lit "=").times 0 2])
      (all [atLeast (oneOfFolded tokenLetters) 80, (lit "=").times 0 2]),
    group "2" quotation]

def onion : Pattern :=
  all [wordEdge, alt ((oneOfFolded base32).times 16 0) ((oneOfFolded base32).times 56 0), lit ".",
    litFolded "onion", wordEdge]

def extendedKey : Pattern :=
  all [wordEdge,
    anyOf (lit "xpub") (["xprv", "tpub", "tprv", "ypub", "yprv", "zpub", "zprv", "upub", "uprv", "vpub",
      "vprv", "Ypub", "Yprv", "Zpub", "Zprv", "Upub", "Uprv", "Vpub", "Vprv"].map lit),
    atLeast (oneOf base58) 64, wordEdge]

def privateKey : Pattern :=
  all [wordEdge, oneOf "5KL", (oneOf base58).times 50 1, wordEdge]

def segwitAddress : Pattern :=
  all [wordEdge, anyOf (litFolded "bc1") [litFolded "tb1", litFolded "bcrt1"],
    (oneOfFolded bech32).times 11 79, wordEdge]

def walletAddress : Pattern :=
  all [wordEdge, oneOf "13mn2", (oneOf base58).times 25 36, wordEdge]

def keyOrigin : Pattern :=
  all [lit "[", hex.times 8 0,
    star (all [lit "/", plus (oneOf decimalDigits), opt (oneOfFolded "h'")]), lit "]"]

def rpcCredential : Pattern :=
  all [bol,
    group "1" (all [spaces, anyOf (litFolded "rpcuser") [litFolded "rpcpassword", litFolded "rpcauth"],
      spaces, lit "=", spaces]),
    plus (char fun c => !PythonText.isSpace c)]

/-- `[^\r\n]+` -/
def restOfLine : Pattern := plus (char fun c => c ≠ '\r' && c ≠ '\n')

def wireguardKey : Pattern :=
  all [bol,
    group "1" (all [spaces, alt (litFolded "privatekey") (litFolded "presharedkey"), spaces, lit "=",
      spaces]),
    restOfLine]

def torPassword : Pattern :=
  all [bol,
    group "1" (all [spaces, alt (litFolded "controlpassword") (litFolded "hashedcontrolpassword"),
      alt (all [spaces, lit "=", spaces]) (plus space)]),
    restOfLine]

/-- `PATTERNS` -/
def patterns : List (Pattern × Replacement) :=
  [(machineId, ⟨none, "[REDACTED_MACHINE_ID]", none⟩),
    (namedUuid, ⟨none, "[REDACTED_UUID]", none⟩),
    (bareUuid, ⟨none, "[REDACTED_UUID]", none⟩),
    (ipv4, ⟨none, "[REDACTED_IPv4]", none⟩),
    (ipv6, ⟨none, "[REDACTED_IPv6]", none⟩),
    (mac, ⟨none, "[REDACTED_MAC]", none⟩),
    (ageIdentity, ⟨none, "[REDACTED_AGE_IDENTITY]", none⟩),
    (githubToken, ⟨none, "[REDACTED_TOKEN]", none⟩),
    (cloudflareToken, ⟨none, "[REDACTED_CLOUDFLARE_TOKEN]", none⟩),
    (cloudflareApiToken, ⟨some "1", "[REDACTED]", some "2"⟩),
    (bearer, ⟨some "1", "[REDACTED]", none⟩),
    (tunnelToken, ⟨some "1", "[REDACTED]", some "2"⟩),
    (onion, ⟨none, "[REDACTED_ONION_IDENTITY]", none⟩),
    (extendedKey, ⟨none, "[REDACTED_EXTENDED_KEY]", none⟩),
    (privateKey, ⟨none, "[REDACTED_PRIVATE_KEY]", none⟩),
    (segwitAddress, ⟨none, "[REDACTED_WALLET_ADDRESS]", none⟩),
    (walletAddress, ⟨none, "[REDACTED_WALLET_ADDRESS]", none⟩),
    (keyOrigin, ⟨none, "[REDACTED_KEY_ORIGIN]", none⟩),
    (rpcCredential, ⟨some "1", "[REDACTED]", none⟩),
    (wireguardKey, ⟨some "1", "[REDACTED]", none⟩),
    (torPassword, ⟨some "1", "[REDACTED]", none⟩)]

end Patterns

/-! ## The main loop -/

section Loop

variable [Characters] {α : Type} (shown : α → Char) (plain : Char → α)

/-- The substitutions, one after the other. -/
def scrub (line : List α) : List α :=
  patterns.foldl (fun line entry => entry.1.sub shown (entry.2.apply plain) line) line

/-- `[A-Z0-9 ]` -/
def labelLetter (c : Char) : Bool :=
  ('A' ≤ c && c ≤ 'Z') || ('0' ≤ c && c ≤ '9') || c = ' '

/-- `-----BEGIN [A-Z0-9 ]*PRIVATE KEY-----` -/
def beginMarker : Pattern :=
  all [lit "-----BEGIN ", star (char labelLetter), lit "PRIVATE KEY-----"]

/-- `-----END [A-Z0-9 ]*PRIVATE KEY-----` -/
def endMarker : Pattern :=
  all [lit "-----END ", star (char labelLetter), lit "PRIVATE KEY-----"]

/-- One line: whether the loop is inside a key behind it, and what is written. -/
def redactLine (insidePrivateKey : Bool) (line : List α) : Bool × List α :=
  let text := line.map shown
  if insidePrivateKey then (!endMarker.found text, [])
  else if beginMarker.found text then
    (!endMarker.found text, "[REDACTED_PRIVATE_KEY_BLOCK]\n".toList.map plain)
  else (false, scrub shown plain line)

def redactLines : Bool → List (List α) → List α
  | _, [] => []
  | inside, line :: lines =>
    let next := redactLine shown plain inside line
    next.2 ++ redactLines next.1 lines

/-- What is written for a stream of lines. -/
def redact (lines : List (List α)) : List α := redactLines shown plain false lines

end Loop

end RedactInventory
