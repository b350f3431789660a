import Mathlib
import WebsiteInfrastructure.KubeconfigSnapshot.Credentials
import WebsiteInfrastructure.Library.LineReaders

/-!
# One spelling

An accepted text is the canonical one of what is read from it, so credentials and servers are equal
where their texts are.
-/

namespace KubeconfigSnapshot

open PythonText
open ShellText (intercalate_concat)
open Json (Value)
open Utf8 (Bytes)

variable {F : Type} {value other : Value F} {label : Label} {der bytes : Bytes}
  {allowedLabels : List Label} {minimum : ℕ}

/-! ## Base64 -/

/-- The canonical encodings are what is accepted. -/
theorem canonicalBase64_eq_some : canonicalBase64 value = some bytes ↔
    bytes ≠ [] ∧ bytes.length ≤ maxEmbeddedBytes ∧
      value = .text (String.ofList (Base64.encode bytes)) := by
  constructor
  · intro h
    unfold canonicalBase64 at h
    split at h
    · next text =>
      simp only [Option.bind_eq_bind, Option.bind_eq_some_iff] at h
      obtain ⟨decoded, -, h⟩ := h
      split_ifs at h with hsize hcanonical
      cases h
      rw [not_or, not_lt] at hsize
      have htext : text = String.ofList (Base64.encode bytes) := by
        rw [not_ne_iff.mp hcanonical, String.ofList_toList]
      exact ⟨hsize.1, hsize.2, by rw [htext]; rfl⟩
    · cases h
  · rintro ⟨hne, hle, rfl⟩
    simp only [Value.text, canonicalBase64, String.toList_ofList, Base64.decode_encode,
      Option.bind_eq_bind, Option.bind_some]
    rw [if_neg (by simp [hne, hle]), if_neg (by simp)]

/-! ## Lines of a document -/

theorem flatten_canonicalLines (body : List Char) : (canonicalLines body).flatten = body := by
  have htake : ∀ k : ℕ, ((List.range k).map fun i => (body.drop (64 * i)).take 64).flatten =
      body.take (64 * k) := by
    intro k
    induction k with
    | zero => simp
    | succ k ih =>
      rw [List.range_succ, List.map_append, List.flatten_append, ih, List.map_singleton,
        List.flatten_singleton, Nat.mul_succ, List.take_add]
  rw [canonicalLines, htake, List.take_of_length_le (by omega)]

theorem feed_not_mem_encode (bytes : Bytes) : '\n' ∉ Base64.encode bytes := by
  intro h
  rcases Base64.mem_encode bytes _ h with hdigit | hpad
  · cases hdigit
  · cases hpad

theorem mem_canonicalLines {body line : List Char} (h : line ∈ canonicalLines body) :
    ∀ c ∈ line, c ∈ body := by
  obtain ⟨i, -, rfl⟩ := List.mem_map.mp h
  exact fun c hc => List.mem_of_mem_drop (List.mem_of_mem_take hc)

theorem beginLine_injective : Function.Injective Label.beginLine := by
  intro a b h
  cases a <;> cases b <;> first | rfl | exact absurd h (by decide)

theorem feed_not_mem_borders (label : Label) : '\n' ∉ label.beginLine ∧ '\n' ∉ label.endLine := by
  cases label <;> decide

theorem return_not_mem_borders (label : Label) : '\r' ∉ label.beginLine ∧ '\r' ∉ label.endLine := by
  cases label <;> decide

theorem return_not_mem_encode (bytes : Bytes) : '\r' ∉ Base64.encode bytes := by
  intro h
  rcases Base64.mem_encode bytes _ h with hdigit | hpad
  · cases hdigit
  · cases hpad

/-- The lines of the document of a label. -/
def pemLines (label : Label) (der : Bytes) : List (List Char) :=
  label.beginLine :: canonicalLines (Base64.encode der) ++ [label.endLine]

theorem pemText_eq (label : Label) (der : Bytes) : pemText label der =
    ['\n'].intercalate (pemLines label der) ++ ['\n'] := by
  have hlines : label.beginLine :: canonicalLines (Base64.encode der) ++ [label.endLine, []] =
      pemLines label der ++ [[]] := by
    simp [pemLines]
  rw [pemText, hlines, intercalate_concat, pemLines, intercalate_concat, List.flatMap_append]
  simp

theorem mem_pemLines {line : List Char} (h : line ∈ pemLines label der) {c : Char} (hc : c ∈ line) :
    c ∈ label.beginLine ∨ c ∈ Base64.encode der ∨ c ∈ label.endLine := by
  rw [pemLines, List.mem_append, List.mem_cons, List.mem_singleton] at h
  rcases h with (rfl | hline) | rfl
  · exact .inl hc
  · exact .inr (.inl (mem_canonicalLines hline c hc))
  · exact .inr (.inr hc)

theorem feed_not_mem_pemLines : ∀ line ∈ pemLines label der, '\n' ∉ line := by
  intro line hline hfeed
  rcases mem_pemLines hline hfeed with hbegin | hbody | hend
  · exact (feed_not_mem_borders label).1 hbegin
  · exact feed_not_mem_encode der hbody
  · exact (feed_not_mem_borders label).2 hend

theorem splitOn_pemText : (pemText label der).dropLast.splitOn '\n' = pemLines label der := by
  rw [pemText_eq, List.dropLast_concat,
    List.splitOn_intercalate '\n' feed_not_mem_pemLines (by simp [pemLines])]

theorem mem_pemText {c : Char} (h : c ∈ pemText label der) :
    c = '\n' ∨ c ∈ label.beginLine ∨ c ∈ Base64.encode der ∨ c ∈ label.endLine := by
  rw [pemText_eq, pemLines, intercalate_concat, List.append_assoc, List.mem_append,
    List.mem_append, List.mem_singleton] at h
  rcases h with hlines | hend | hfeed
  · obtain ⟨line, hline, hc⟩ := List.mem_flatMap.mp hlines
    rcases List.mem_append.mp hc with hc | hc
    · exact .inr (mem_pemLines (List.mem_append_left _ hline) hc)
    · exact .inl (List.mem_singleton.mp hc)
  · exact .inr (.inr (.inr hend))
  · exact .inl hfeed

/-- The label and the bytes are read back from their document. -/
theorem readPem_pemText (hlabel : label ∈ allowedLabels) (hne : der ≠ []) :
    readPem (pemText label der) allowedLabels = some (label, der) := by
  have hreturn : ¬ ('\r' ∈ pemText label der ∨ (pemText label der).getLast? ≠ some '\n') := by
    rw [not_or, not_ne_iff]
    refine ⟨fun h => ?_, by rw [pemText_eq, List.getLast?_concat]⟩
    rcases mem_pemText h with hfeed | hbegin | hbody | hend
    · cases hfeed
    · exact (return_not_mem_borders label).1 hbegin
    · exact return_not_mem_encode der hbody
    · exact (return_not_mem_borders label).2 hend
  have hbody : Base64.encode der ≠ [] := fun h => hne (Base64.encode_eq_nil.mp h)
  have hlong : ¬ (pemLines label der).length < 3 := by
    have hpos := List.length_pos_of_ne_nil hbody
    simp only [pemLines, canonicalLines, List.length_append, List.length_cons, List.length_map,
      List.length_range, List.length_nil]
    omega
  have hfound : allowedLabels.find? (fun l => (pemLines label der).head? = some l.beginLine) =
      some label := by
    cases hfind : allowedLabels.find? fun l => (pemLines label der).head? = some l.beginLine with
    | none =>
      have hnone := List.find?_eq_none.mp hfind label hlabel
      exact absurd (decide_eq_true rfl) hnone
    | some found =>
      have hhead : (pemLines label der).head? = some found.beginLine := by
        simpa using List.find?_some hfind
      rw [pemLines, List.cons_append, List.head?_cons, Option.some.injEq] at hhead
      rw [beginLine_injective hhead]
  have hlast : (pemLines label der).getLast? = some label.endLine := by
    rw [pemLines, List.getLast?_concat]
  have hflat : (pemLines label der).tail.dropLast.flatten = Base64.encode der := by
    rw [pemLines, List.cons_append, List.tail_cons, List.dropLast_concat, flatten_canonicalLines]
  rw [readPem, if_neg hreturn, splitOn_pemText]
  dsimp only
  rw [if_neg hlong, hfound]
  simp only [Option.bind_eq_bind, Option.bind_some]
  rw [if_neg (not_ne_iff.mpr hlast), hflat, Base64.decode_encode]
  rfl

theorem mem_of_readPem {text : List Char} (h : readPem text allowedLabels = some (label, der)) :
    label ∈ allowedLabels := by
  simp only [readPem, Option.bind_eq_bind] at h
  split_ifs at h
  obtain ⟨found, hfound, h⟩ := Option.bind_eq_some_iff.mp h
  split_ifs at h
  obtain ⟨bytes, -, h⟩ := Option.bind_eq_some_iff.mp h
  cases h
  exact List.mem_of_find?_eq_some hfound

/-! ## The bytes of a document -/

theorem decodeAscii_encodeAscii {text : List Char} (h : ∀ c ∈ text, c.toNat < 128) :
    decodeAscii (encodeAscii text) = some text := by
  have hbytes : ∀ c ∈ text, (UInt8.ofNat c.toNat).toNat = c.toNat := by
    intro c hc
    have := h c hc
    rw [UInt8.toNat_ofNat']
    omega
  rw [decodeAscii, encodeAscii, if_pos]
  · rw [List.map_map]
    refine congrArg some ((List.map_congr_left fun c hc => ?_).trans (List.map_id' _))
    rw [Function.comp_apply, hbytes c hc, Char.ofNat_toNat]
  · simp only [List.all_map, List.all_eq_true, Function.comp_apply, decide_eq_true_eq,
      UInt8.lt_iff_toNat_lt]
    intro c hc
    rw [hbytes c hc]
    exact h c hc

theorem encodeAscii_of_decodeAscii {text : List Char} (h : decodeAscii bytes = some text) :
    bytes = encodeAscii text := by
  unfold decodeAscii at h
  split_ifs at h with hall
  cases h
  rw [encodeAscii, List.map_map]
  refine (List.map_id' _).symm.trans (List.map_congr_left fun b hb => ?_)
  have hlt := of_decide_eq_true (List.all_eq_true.mp hall b hb)
  rw [UInt8.lt_iff_toNat_lt] at hlt
  have hpoint : (Char.ofNat b.toNat).toNat = b.toNat := by
    rw [Char.toNat_ofNat, if_pos]
    exact .inl (lt_trans hlt (by decide))
  rw [Function.comp_apply, hpoint, UInt8.ofNat_toNat]

theorem ascii_of_isDigit {c : Char} (h : Base64.isDigit c = true) : c.toNat < 128 := by
  simp only [Base64.isDigit, Char.isAlphanum, Char.isAlpha, Char.isUpper, Char.isLower,
    Char.isDigit, Bool.or_eq_true, Bool.and_eq_true, decide_eq_true_eq, UInt32.le_iff_toNat_le] at h
  rcases h with (h | rfl) | rfl
  · have hrange : ((65 ≤ c.toNat ∧ c.toNat ≤ 90) ∨ (97 ≤ c.toNat ∧ c.toNat ≤ 122)) ∨
        (48 ≤ c.toNat ∧ c.toNat ≤ 57) := h
    omega
  · decide
  · decide

theorem ascii_borders (label : Label) : ∀ c ∈ label.beginLine ++ label.endLine, c.toNat < 128 := by
  have hall : (label.beginLine ++ label.endLine).all (fun c => c.toNat.blt 128) = true := by
    cases label <;> rfl
  intro c hc
  exact Nat.blt_eq.mp (List.all_eq_true.mp hall c hc)

theorem ascii_pemText : ∀ c ∈ pemText label der, c.toNat < 128 := by
  intro c hc
  rcases mem_pemText hc with hfeed | hbegin | hbody | hend
  · rw [hfeed]
    decide
  · exact ascii_borders label c (List.mem_append_left _ hbegin)
  · rcases Base64.mem_encode der c hbody with hdigit | hpad
    · exact ascii_of_isDigit hdigit
    · rw [hpad]
      decide
  · exact ascii_borders label c (List.mem_append_right _ hend)

/-- The canonical documents of an allowed label are what is accepted. -/
theorem canonicalPem_eq_some : canonicalPem value allowedLabels minimum = some bytes ↔
    ∃ label ∈ allowedLabels, ∃ der : Bytes, minimum ≤ der.length ∧ der.length ≤ maxEmbeddedBytes ∧
      der.head? = some 0x30 ∧ bytes = encodeAscii (pemText label der) ∧
      bytes.length ≤ maxEmbeddedBytes ∧ value = .text (String.ofList (Base64.encode bytes)) := by
  constructor
  · intro h
    simp only [canonicalPem, Option.bind_eq_bind, Option.bind_eq_some_iff] at h
    obtain ⟨pem, hpem, text, htext, ⟨label, der⟩, hread, h⟩ := h
    split_ifs at h with hsize hcanonical
    cases h
    obtain ⟨-, hlength, hvalue⟩ := canonicalBase64_eq_some.mp hpem
    rw [not_or, not_or, not_lt, not_lt, not_ne_iff] at hsize
    refine ⟨label, ?_, der, hsize.1, hsize.2.1, hsize.2.2, ?_, hlength, hvalue⟩
    · exact mem_of_readPem hread
    · rw [← not_ne_iff.mp hcanonical]
      exact encodeAscii_of_decodeAscii htext
  · rintro ⟨label, hlabel, der, hminimum, hmaximum, hhead, rfl, hlength, rfl⟩
    have hne : der ≠ [] := by
      rintro rfl
      cases hhead
    have hsome : encodeAscii (pemText label der) ≠ [] := by
      rw [pemText_eq]
      simp [encodeAscii]
    have hbase : canonicalBase64 (.text (String.ofList (Base64.encode
        (encodeAscii (pemText label der)))) : Value F) = some (encodeAscii (pemText label der)) :=
      canonicalBase64_eq_some.mpr ⟨hsome, hlength, rfl⟩
    simp only [canonicalPem, Option.bind_eq_bind, hbase, Option.bind_some,
      decodeAscii_encodeAscii ascii_pemText, readPem_pemText hlabel hne]
    rw [if_neg (by simp [hminimum, hmaximum, hhead]), if_neg (by simp)]

/-! ## What a text stands for -/

def allLabels : List Label := [.certificate, .privateKey, .rsaPrivateKey, .ecPrivateKey]

/-- The label and the DER that a text decodes to, whatever its spelling. -/
def credential : Value F → Option (Label × Bytes)
  | .str (.scalar value) => do
    let pem ← Base64.decode value.toList
    let text ← decodeAscii pem
    readPem text allLabels
  | _ => none

/-- The text with one spelling of the label and the DER. -/
def spelling (label : Label) (der : Bytes) : Value F :=
  .text (String.ofList (Base64.encode (encodeAscii (pemText label der))))

theorem credential_spelling (label : Label) (hne : der ≠ []) :
    credential (spelling label der : Value F) = some (label, der) := by
  have hlabel : label ∈ allLabels := by cases label <;> simp [allLabels]
  simp only [credential, spelling, Value.text, String.toList_ofList, Base64.decode_encode,
    Option.bind_eq_bind, Option.bind_some, decodeAscii_encodeAscii ascii_pemText,
    readPem_pemText hlabel hne]

theorem spelling_of_canonicalPem (h : canonicalPem value allowedLabels minimum = some bytes) :
    ∃ label ∈ allowedLabels, ∃ der, credential value = some (label, der) ∧
      value = spelling label der ∧ bytes = encodeAscii (pemText label der) := by
  obtain ⟨label, hlabel, der, -, -, hhead, hbytes, -, hvalue⟩ := canonicalPem_eq_some.mp h
  have hne : der ≠ [] := by
    rintro rfl
    cases hhead
  rw [hbytes] at hvalue
  exact ⟨label, hlabel, der, by rw [hvalue]; exact credential_spelling label hne, hvalue, hbytes⟩

theorem credential_eq_iff {allowedLabels' : List Label} {minimum' : ℕ} {bytes' : Bytes}
    (hvalue : canonicalPem value allowedLabels minimum = some bytes)
    (hother : canonicalPem other allowedLabels' minimum' = some bytes') :
    credential value = credential other ↔ value = other := by
  constructor
  · intro h
    obtain ⟨label, -, der, hread, rfl, -⟩ := spelling_of_canonicalPem hvalue
    obtain ⟨label', -, der', hread', rfl, -⟩ := spelling_of_canonicalPem hother
    rw [hread, hread', Option.some.injEq, Prod.mk.injEq] at h
    rw [h.1, h.2]
  · rintro rfl
    rfl

/-- The certificates are accepted where their bytes differ. -/
theorem acceptsCertificates_iff {cluster user : Value F} {caPem clientPem keyPem caDer clientDer : Bytes}
    (hca : canonicalPem (cluster.get "certificate-authority-data") [.certificate] 64 = some caPem)
    (hclient : canonicalPem (user.get "client-certificate-data") [.certificate] 64 = some clientPem)
    (hkey : canonicalPem (user.get "client-key-data") keyLabels 32 = some keyPem)
    (hcaDer : credential (cluster.get "certificate-authority-data") = some (.certificate, caDer))
    (hclientDer :
      credential (user.get "client-certificate-data") = some (.certificate, clientDer)) :
    acceptsCertificates cluster user = true ↔ caDer ≠ clientDer := by
  obtain ⟨label, -, der, hread, hspelled, rfl⟩ := spelling_of_canonicalPem hca
  obtain ⟨label', -, der', hread', hspelled', rfl⟩ := spelling_of_canonicalPem hclient
  rw [hread, Option.some.injEq, Prod.mk.injEq] at hcaDer
  rw [hread', Option.some.injEq, Prod.mk.injEq] at hclientDer
  obtain ⟨rfl, rfl⟩ := hcaDer
  obtain ⟨rfl, rfl⟩ := hclientDer
  simp only [acceptsCertificates, hca, hclient, hkey, decide_eq_true_eq]
  rw [not_iff_not]
  constructor
  · intro h
    have htext : pemText .certificate der = pemText .certificate der' := by
      have := congrArg decodeAscii h
      rwa [decodeAscii_encodeAscii ascii_pemText, decodeAscii_encodeAscii ascii_pemText,
        Option.some.injEq] at this
    have hvalues : cluster.get "certificate-authority-data" = user.get "client-certificate-data" := by
      rw [hspelled, hspelled', spelling, htext, spelling]
    rw [hvalues, hread', Option.some.injEq, Prod.mk.injEq] at hread
    exact hread.2.symm
  · rintro rfl
    rfl

/-! ## Servers -/

section Server

variable [Addresses]

/-- An accepted text is the canonical one of its host and its port. -/
theorem server_of_validateServer {text : String} {isAddress : Bool}
    (h : validateServer (.text text : Value F) = some isAddress) :
    ∃ host port, serverOf text.toList = some (host, port) ∧
      text.toList = "https://".toList ++ canonicalNetloc host port := by
  simp only [Value.text, validateServer, Option.bind_eq_bind] at h
  split_ifs at h
  obtain ⟨parsed, hparsed, h⟩ := Option.bind_eq_some_iff.mp h
  obtain ⟨hostname, hhostname, h⟩ := Option.bind_eq_some_iff.mp h
  split_ifs at h with hparts hascii hhost hnetloc
  rw [not_or, not_ne_iff, not_ne_iff] at hnetloc
  refine ⟨hostOf hostname, parsed.port, ?_, hnetloc.2⟩
  simp [serverOf, hparsed, hhostname]

/-- No two accepted texts name one host and one port. -/
theorem text_eq_of_serverOf {first second : String}
    (hfirst : (validateServer (.text first : Value F)).isSome = true)
    (hsecond : (validateServer (.text second : Value F)).isSome = true)
    (h : serverOf first.toList = serverOf second.toList) : first = second := by
  obtain ⟨_, hfirst⟩ := Option.isSome_iff_exists.mp hfirst
  obtain ⟨_, hsecond⟩ := Option.isSome_iff_exists.mp hsecond
  obtain ⟨host, port, hserver, htext⟩ := server_of_validateServer hfirst
  obtain ⟨host', port', hserver', htext'⟩ := server_of_validateServer hsecond
  rw [hserver, hserver', Option.some.injEq, Prod.mk.injEq] at h
  apply String.toList_injective
  rw [htext, htext', h.1, h.2]

/-- Accepted base64 and accepted documents are the canonical encodings, what is decoded from an
accepted document determines it, the certificates pass where their DER differs, and a host with a
port has one accepted address. -/
theorem credentials_have_one_spelling :
    (∀ (value : Value F) (bytes : Bytes), canonicalBase64 value = some bytes ↔
      bytes ≠ [] ∧ bytes.length ≤ maxEmbeddedBytes ∧
        value = .text (String.ofList (Base64.encode bytes))) ∧
    (∀ (value : Value F) (allowedLabels : List Label) (minimum : ℕ) (bytes : Bytes),
      canonicalPem value allowedLabels minimum = some bytes ↔
        ∃ label ∈ allowedLabels, ∃ der : Bytes, minimum ≤ der.length ∧
          der.length ≤ maxEmbeddedBytes ∧ der.head? = some 0x30 ∧
          bytes = encodeAscii (pemText label der) ∧ bytes.length ≤ maxEmbeddedBytes ∧
          value = .text (String.ofList (Base64.encode bytes))) ∧
    (∀ (value other : Value F) (allowedLabels allowedLabels' : List Label) (minimum minimum' : ℕ)
      (bytes bytes' : Bytes), canonicalPem value allowedLabels minimum = some bytes →
      canonicalPem other allowedLabels' minimum' = some bytes' →
      (credential value = credential other ↔ value = other)) ∧
    (∀ (cluster user : Value F) (caPem clientPem keyPem caDer clientDer : Bytes),
      canonicalPem (cluster.get "certificate-authority-data") [.certificate] 64 = some caPem →
      canonicalPem (user.get "client-certificate-data") [.certificate] 64 = some clientPem →
      canonicalPem (user.get "client-key-data") keyLabels 32 = some keyPem →
      credential (cluster.get "certificate-authority-data") = some (.certificate, caDer) →
      credential (user.get "client-certificate-data") = some (.certificate, clientDer) →
      (acceptsCertificates cluster user = true ↔ caDer ≠ clientDer)) ∧
    ∀ first second : String, (validateServer (.text first : Value F)).isSome = true →
      (validateServer (.text second : Value F)).isSome = true →
      serverOf first.toList = serverOf second.toList → first = second := by
  refine ⟨fun value bytes => canonicalBase64_eq_some,
    fun value allowedLabels minimum bytes => canonicalPem_eq_some, ?_, ?_, ?_⟩
  · intro value other _ _ _ _ _ _ hvalue hother
    exact credential_eq_iff hvalue hother
  · intro cluster user _ _ _ _ _ hca hclient hkey hcaDer hclientDer
    exact acceptsCertificates_iff hca hclient hkey hcaDer hclientDer
  · intro first second hfirst hsecond h
    exact text_eq_of_serverOf hfirst hsecond h

end Server

/-! ## A sample -/

/-- The addresses of IPv4, and addresses of servers with a host and a port at most. -/
@[reducible] def sampleAddresses : Addresses where
  urlsplit value :=
    if "https://".toList <+: value then
      some
        { scheme := "https".toList
          netloc := value.drop 8
          path := []
          query := []
          fragment := []
          username := none
          password := none
          hostname := some ((value.drop 8).takeWhile (· ≠ ':'))
          port := match (value.drop 8).dropWhile (· ≠ ':') with
            | _ :: digits => some (Nat.ofDigitChars 10 digits 0)
            | [] => none }
    else none
  Address := List Char
  ipAddress hostname :=
    if hostname.all fun c => c.isDigit || c = '.' then some hostname else none
  compressed address := address
  version _ := 4

def sampleDer (length : ℕ) (byte : UInt8) : Bytes := 0x30 :: List.replicate length byte

def sampleCluster : Value Unit :=
  .obj [(.scalar "certificate-authority-data", spelling .certificate (sampleDer 63 1))]

def sampleUser : Value Unit :=
  .obj [(.scalar "client-certificate-data", spelling .certificate (sampleDer 63 2)),
    (.scalar "client-key-data", spelling .ecPrivateKey (sampleDer 31 3))]

theorem sample_distinct : acceptsCertificates sampleCluster sampleUser = true ∧
    @serverOf sampleAddresses "https://10.0.0.1:6443".toList ≠
      @serverOf sampleAddresses "https://10.0.0.1".toList := by
  let _ : Addresses := sampleAddresses
  obtain ⟨-, hpem, -, hcertificates, hserver⟩ := credentials_have_one_spelling (F := Unit)
  have hca : sampleCluster.get "certificate-authority-data" =
      spelling .certificate (sampleDer 63 1) := rfl
  have hclient : sampleUser.get "client-certificate-data" =
      spelling .certificate (sampleDer 63 2) := rfl
  have hkey : sampleUser.get "client-key-data" = spelling .ecPrivateKey (sampleDer 31 3) := rfl
  have hchecks : (∀ d ∈ [(Label.certificate, sampleDer 63 1), (.certificate, sampleDer 63 2),
        (.ecPrivateKey, sampleDer 31 3)],
        (encodeAscii (pemText d.1 d.2)).length ≤ maxEmbeddedBytes) ∧
      ∀ text ∈ ["https://10.0.0.1:6443", "https://10.0.0.1"],
        (validateServer (.text text : Value Unit)).isSome = true := by
    decide +kernel
  simp only [List.forall_mem_cons] at hchecks
  obtain ⟨⟨hfirst, hsecond, hthird, -⟩, hport, hbare, -⟩ := hchecks
  constructor
  · refine (hcertificates _ _ _ _ _ (sampleDer 63 1) (sampleDer 63 2)
      ((hpem _ _ _ _).mpr ⟨.certificate, by simp, sampleDer 63 1, by decide, by decide, rfl, rfl,
        hfirst, hca⟩)
      ((hpem _ _ _ _).mpr ⟨.certificate, by simp, sampleDer 63 2, by decide, by decide, rfl, rfl,
        hsecond, hclient⟩)
      ((hpem _ _ _ _).mpr ⟨.ecPrivateKey, by simp [keyLabels], sampleDer 31 3, by decide, by decide,
        rfl, rfl, hthird, hkey⟩) ?_ ?_).mpr (by decide)
    · rw [hca]
      exact credential_spelling _ (by simp [sampleDer])
    · rw [hclient]
      exact credential_spelling _ (by simp [sampleDer])
  · intro h
    exact absurd (hserver "https://10.0.0.1:6443" "https://10.0.0.1" hport hbare h) (by decide)

end KubeconfigSnapshot
