import Mathlib
import WebsiteInfrastructure.Library.Utf8

/-!
# Publication predicates

What one path and one blob of a published commit are held to. Unicode case folding and the
scans built on regular expressions and entropy are parameters.
-/

namespace History

open Utf8

/-! ## Bounds and tables -/

def maxOutgoingCommits : ℕ := 256
def maxCommitObjectBytes : ℕ := 256 * 1024
def maxTreeInventoryBytes : ℕ := 2 * 1024 * 1024
def maxAllTreeInventoriesBytes : ℕ := 32 * 1024 * 1024
def maxTreeEntries : ℕ := 20000
def maxAllTreeEntries : ℕ := 200000
def maxBlobBytes : ℕ := 2 * 1024 * 1024
def maxTreeBytes : ℕ := 16 * 1024 * 1024
def maxUniqueBlobBytes : ℕ := 64 * 1024 * 1024
def maxFindingsReported : ℕ := 64
def maxUiAssetBytes : ℕ := 1 * 1024 * 1024
def maxAssetTreeBytes : ℕ := 2 * 1024 * 1024
def maxTextBadgeBytes : ℕ := 2048

def forbiddenComponents : List String := [
  ".artifacts", ".cache", ".git", ".idea", ".ssh", ".terraform", ".vscode", "__pycache__",
  "coverage", "local-evidence", "node_modules", "results"]

def forbiddenFilePatterns : List String := [
  ".ds_store", ".env", ".env.*", ".gitleaksignore", ".terraformrc", "*.7z", "*.age", "*.agekey",
  "*.aes", "*.asc", "*.auto.tfvars", "*.auto.tfvars.json", "*.backend.hcl", "*.bak", "*.bz2",
  "*.cab", "*.bin", "*.blob", "*.ciphertext", "*.dec.*", "*.enc", "*.encrypted", "*.gpg", "*.gz",
  "*.key", "*.kubeconfig", "*.lz", "*.lz4", "*.p12", "*.pem", "*.pfx", "*.pgp", "*.plaintext.*",
  "*.pyc", "*.pyd", "*.pyo", "*.rar", "*.sarif", "*.sbom.json", "*.sops.env", "*.sops.ini",
  "*.sops.json", "*.swo", "*.swp", "*.tar", "*.tar.*", "*.tfbackend", "*.tfplan",
  "*.tfplan.json", "*.tgz", "*.tmp", "*.token", "*.txz", "*.xz", "*.zip", "*.zst", "*~",
  "cloudflared-token*", "crash.*.log", "crash.log", "id_ed25519*", "id_rsa*", "keys.txt",
  "known_hosts*", "kubeconfig*", "api-encryption-config.yaml", "encryption-config.yaml.local",
  "powershell_transcript.*.txt", "*.transcript.txt", "thumbs.db", "terraform.rc",
  "terraform.tfvars", "terraform.tfvars.json"]

def forbiddenExactPaths : List String := [
  "bootstrap/pi/cni-manifest.local.yaml", "bootstrap/pi/decisions.env.local",
  "bootstrap/pi/encryption-config.yaml.local", "bootstrap/pi/images.lock.local",
  "bootstrap/pi/kubeadm-config.yaml.local",
  "bootstrap/pi/protected-legacy-runtime-evidence.local",
  "bootstrap/pi/protected-services.env.local"]

def allowedDistPaths : List String := [
  "websites/lidersea.com/internal/web/dist/.gitkeep",
  "websites/naranjo.online/internal/web/dist/.gitkeep"]

def structuralSecretExamplePath : String :=
  "kubernetes/platform/cloudflare-public/examples/tunnel-token.invalid-example.yaml"

def structuralSecretExampleSha256 : String :=
  "4595e398a051186524a4e40a1a2029054eb6e2ee38703f886f3746e04a9b972d"

def mediaSuffixes : List String := [
  ".aac", ".avif", ".avi", ".bmp", ".flac", ".gif", ".heic", ".heif", ".ico", ".jpeg", ".jpg",
  ".m4a", ".mkv", ".mov", ".mp3", ".mp4", ".ogg", ".ogv", ".otf", ".png", ".svg", ".tif", ".tiff",
  ".ttf", ".wav", ".webm", ".webp", ".woff", ".woff2"]

def textSuffixes : List String := [
  ".conf", ".css", ".env", ".example", ".go", ".hcl", ".html", ".js", ".json", ".lock", ".md",
  ".mjs", ".rego", ".service", ".sh", ".svelte", ".tf", ".timer", ".toml", ".tpl", ".ts", ".txt",
  ".yaml", ".yml"]

def approvedTextBadgePaths : List String := ["docs/badges/coverage.svg"]

def badgeRequiredPrefix : String := "<svg xmlns=\"http://www.w3.org/2000/svg\" "

def badgeForbiddenFragments : List String := [
  "base64", "data:", "script", "href", "xlink", "import", "foreignobject", "<image", "<use",
  "url(", "&#", "http", "<!", "<?"]

def badgeAllowedElements : List String := ["svg", "title", "g", "rect", "text"]

/-! ## Scans taken as parameters -/

/-- Case folding, and the scans for labels; text is given by the bytes it is decoded from. -/
structure Scans where
  casefold : String → String
  textFindings : Bytes → String → Bool → List String
  opaqueArtifactFinding : Bytes → String → Option String
  embedsMedia : Bytes → Bool
  containsSecretDocument : Bytes → Bool

/-! ## Paths -/

/-- `fnmatch.fnmatchcase` for patterns whose only wildcard is `*`. -/
def fnmatchcase : List Char → List Char → Bool
  | [], name => name.isEmpty
  | '*' :: pattern, name => name.tails.any (fnmatchcase pattern)
  | c :: pattern, d :: name => c == d && fnmatchcase pattern name
  | _ :: _, [] => false

def splitPath (path : String) : List String := path.splitOn "/"

def lastComponent (path : String) : String := (splitPath path).getLast?.getD ""

/-- `".sops.yaml"` or `".sops.yml"` at the end, or before a final newline. -/
def hasSopsSuffix (lowered : String) : Bool :=
  [".sops.yaml", ".sops.yml", ".sops.yaml\n", ".sops.yml\n"].any fun ending => lowered.endsWith ending

/-- `fragment in text` -/
def occursIn (fragment text : List Char) : Bool := text.tails.any (fragment.isPrefixOf ·)

def contains (text fragment : String) : Bool := occursIn fragment.toList text.toList

def pathFindings (s : Scans) (relativePath : String) : List String :=
  let lowered := s.casefold relativePath
  let components := splitPath lowered
  let name := lastComponent lowered
  (if relativePath.isEmpty || relativePath.startsWith "/" || contains relativePath "\\" ||
      contains relativePath "//" || (splitPath relativePath).any (["", ".", ".."].contains ·) ||
      relativePath.toList.any (fun c => c.toNat < 32 || c.toNat = 127) then
    ["unsafe path encoding"] else []) ++
  (if components.any (forbiddenComponents.contains ·) then ["forbidden local-only path"] else []) ++
  (if name ≠ ".env.example" && forbiddenFilePatterns.any fun pattern =>
      fnmatchcase pattern.toList name.toList then ["forbidden local-only path"] else []) ++
  (if forbiddenExactPaths.contains lowered ||
      (contains name "cloudflare" && contains name "receipt" && name.endsWith ".json") ||
      name.endsWith ".tfstate" || contains name ".tfstate." || name.endsWith "_override.tf" ||
      name.endsWith "_override.tf.json" || ["override.tf", "override.tf.json"].contains name then
    ["forbidden local-only path"] else []) ++
  (if components.contains "dist" && !allowedDistPaths.contains lowered then
    ["forbidden generated-output path"] else []) ++
  (if components.contains "apps" || components.contains "clusters" then
    ["forbidden repository layout"] else []) ++
  (if components.take 2 = ["kubernetes", "homelab"] then ["forbidden repository layout"] else []) ++
  (if hasSopsSuffix lowered then ["forbidden SOPS ciphertext path"] else [])

def isTestPath (s : Scans) (relativePath : String) : Bool :=
  let components := splitPath (s.casefold relativePath)
  components.contains "tests" || (components.getLast?.getD "").startsWith "test_"

/-- `Path(relative_path).suffix` -/
def pathSuffix (relativePath : String) : String :=
  let name := (((splitPath relativePath).filter fun part => part ≠ "" && part ≠ ".").getLast?.getD "").toList
  let extension := name.reverse.takeWhile (· ≠ '.')
  if extension.length + 1 < name.length && !extension.isEmpty then
    String.ofList ('.' :: extension.reverse) else ""

/-- The site and kind of an approved frontend asset tree. -/
def assetScope (s : Scans) (relativePath : String) : Option (String × String) :=
  match splitPath (s.casefold relativePath) with
  | root :: site :: rest =>
    if ["naranjo.online", "lidersea.com"].contains site && root = "websites" then
      if rest.take 3 = ["frontend", "src", "assets"] && 4 ≤ rest.length then some (site, "source")
      else if rest.take 4 = ["internal", "web", "dist", "assets"] && 5 ≤ rest.length then
        some (site, "generated")
      else none
    else none
  | _ => none

/-! ## Bytes -/

def ascii (text : String) : Bytes := encode text

/-- The bytes `bytes.lstrip()` drops. -/
def isByteSpace (b : UInt8) : Bool := [9, 10, 11, 12, 13, 32].contains b

def lowerByte (b : UInt8) : UInt8 := if 65 ≤ b && b ≤ 90 then b + 32 else b

def hasMediaMagic (data : Bytes) : Bool :=
  let start := data.take 64
  let stripped := start.dropWhile isByteSpace
  [[0x89, 0x50, 0x4e, 0x47, 0x0d, 0x0a, 0x1a, 0x0a], [0xff, 0xd8, 0xff], ascii "GIF87a",
    ascii "GIF89a", ascii "OggS", ascii "fLaC", ascii "ID3", [0x1a, 0x45, 0xdf, 0xa3],
    [0x00, 0x01, 0x00, 0x00], ascii "wOFF", ascii "wOF2", ascii "OTTO", ascii "BM",
    [0x49, 0x49, 0x2a, 0x00], [0x4d, 0x4d, 0x00, 0x2a]].any (·.isPrefixOf start) ||
  ((ascii "RIFF").isPrefixOf start &&
    [ascii "WEBP", ascii "WAVE", ascii "AVI "].contains ((start.drop 8).take 4)) ||
  (12 ≤ start.length && (start.drop 4).take 4 = ascii "ftyp") ||
  (ascii "<svg").isPrefixOf (stripped.map lowerByte)

/-- The element names of a badge: letters, digits and dashes after `<` and an optional `/`. -/
def elementNames (text : List Char) : List String :=
  text.tails.filterMap fun
    | '<' :: rest =>
      let blank := fun c : Char => c = ' ' || c = '\n'
      let opened := rest.dropWhile blank
      let closing := (match opened with | '/' :: after => after | other => other).dropWhile blank
      match closing with
      | c :: _ =>
        if c.isAlpha then
          some (String.ofList (closing.takeWhile fun d => d.isAlphanum || d = '-'))
        else none
      | [] => none
    | _ => none

def approvedBadgeViolation (data : Bytes) : Bool :=
  if maxTextBadgeBytes < data.length || data.any (128 ≤ ·) then true
  else
    let text := data.map fun b => Char.ofNat b.toNat
    if text.any (fun c => c.toNat < 32 && c ≠ '\n') then true
    else if !(badgeRequiredPrefix.toList.isPrefixOf text && "</svg>\n".toList.isSuffixOf text) then true
    else
      let remainder := (text.drop badgeRequiredPrefix.length).map Char.toLower
      badgeForbiddenFragments.any (fun fragment => occursIn fragment.toList remainder) ||
        (elementNames text).any fun element => !badgeAllowedElements.contains element.toLower

end History
