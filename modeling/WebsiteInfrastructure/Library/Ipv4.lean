import Mathlib
import WebsiteInfrastructure.Library.PythonText

/-!
# IPv4 addresses and networks

Python's `ipaddress` for version 4: what its constructors accept, membership, and when two networks
have an address in common.
-/

namespace Ipv4

open PythonText

abbrev Text := List Char

abbrev Address := BitVec 32

/-! ## Netmasks -/

/-- `_ip_int_from_prefix` -/
def netmask (prefixlen : ℕ) : Address := ~~~ (BitVec.allOnes 32 >>> prefixlen)

theorem getLsbD_netmask (p : ℕ) {i : ℕ} (hi : i < 32) :
    (netmask p).getLsbD i = decide (32 ≤ p + i) := by
  rw [netmask, BitVec.getLsbD_not, BitVec.getLsbD_ushiftRight, BitVec.getLsbD_allOnes]
  by_cases h : p + i < 32
  · simp [h, hi]
  · simp [h, hi]
    omega

/-- The longer of two masks keeps what the shorter one keeps. -/
theorem netmask_and_netmask {p q : ℕ} (hpq : p ≤ q) :
    netmask q &&& netmask p = netmask p := by
  apply BitVec.eq_of_getLsbD_eq
  intro i hi
  rw [BitVec.getLsbD_and, getLsbD_netmask q hi, getLsbD_netmask p hi, Bool.and_eq_right_iff_imp]
  simp only [decide_eq_true_eq]
  omega

/-! ## Networks -/

/-- `IPv4Network`: no bit of the address lies beyond its prefix. -/
structure Network where
  address : Address
  prefixlen : ℕ
  prefixlen_le : prefixlen ≤ 32
  masked : address &&& netmask prefixlen = address
  deriving DecidableEq

namespace Network

/-- The network of an address: its other bits are taken away. -/
def of (address : Address) (prefixlen : ℕ) (h : prefixlen ≤ 32) : Network where
  address := address &&& netmask prefixlen
  prefixlen := prefixlen
  prefixlen_le := h
  masked := by rw [BitVec.and_assoc, BitVec.and_self]

/-- `hostmask` -/
def hostmask (n : Network) : Address := netmask n.prefixlen ^^^ BitVec.allOnes 32

/-- `broadcast_address` -/
def broadcast (n : Network) : Address := n.address ||| n.hostmask

/-- `address in network` -/
def contains (n : Network) (a : Address) : Bool := a &&& netmask n.prefixlen = n.address

/-- `first.overlaps(second)` -/
def overlaps (m n : Network) : Bool :=
  n.contains m.address || (n.contains m.broadcast || (m.contains n.address || m.contains n.broadcast))

/-- `first.subnet_of(second)` -/
def subnetOf (m n : Network) : Bool := n.address ≤ m.address && m.broadcast ≤ n.broadcast

instance : Membership Address Network := ⟨fun n a => n.contains a = true⟩

theorem mem_iff {n : Network} {a : Address} : a ∈ n ↔ a &&& netmask n.prefixlen = n.address := by
  simp [Membership.mem, contains]

theorem contains_eq_true {n : Network} {a : Address} : n.contains a = true ↔ a ∈ n := Iff.rfl

theorem mem_of (a : Address) {p : ℕ} (h : p ≤ 32) : a ∈ of a p h := mem_iff.mpr rfl

theorem address_mem (n : Network) : n.address ∈ n := mem_iff.mpr n.masked

theorem broadcast_mem (n : Network) : n.broadcast ∈ n := by
  rw [mem_iff, broadcast, hostmask]
  have hmasked := n.masked
  apply BitVec.eq_of_getLsbD_eq
  intro i hi
  have hbit := congrArg (BitVec.getLsbD · i) hmasked
  simp only [BitVec.getLsbD_and, BitVec.getLsbD_or, BitVec.getLsbD_xor, BitVec.getLsbD_allOnes, hi,
    decide_true] at hbit ⊢
  cases hmask : (netmask n.prefixlen).getLsbD i <;> simp_all

/-- Of two networks with an address in common, the wider one has the first address of the other. -/
theorem address_mem_of_common {m n : Network} {a : Address} (hm : a ∈ m) (hn : a ∈ n)
    (h : m.prefixlen ≤ n.prefixlen) : n.address ∈ m := by
  rw [mem_iff] at hm hn ⊢
  rw [← hn, BitVec.and_assoc, netmask_and_netmask h, hm]

theorem overlaps_iff {m n : Network} : m.overlaps n = true ↔ ∃ a, a ∈ m ∧ a ∈ n := by
  simp only [overlaps, Bool.or_eq_true, contains_eq_true]
  constructor
  · rintro (h | h | h | h)
    · exact ⟨_, m.address_mem, h⟩
    · exact ⟨_, m.broadcast_mem, h⟩
    · exact ⟨_, h, n.address_mem⟩
    · exact ⟨_, h, n.broadcast_mem⟩
  · rintro ⟨a, hm, hn⟩
    rcases le_total m.prefixlen n.prefixlen with h | h
    · exact .inr (.inr (.inl (address_mem_of_common hm hn h)))
    · exact .inl (address_mem_of_common hn hm h)

/-- Networks that do not overlap have no address in common. -/
theorem not_mem_of_overlaps {m n : Network} (h : m.overlaps n = false) {a : Address} (hm : a ∈ m) :
    a ∉ n := by
  intro hn
  rw [overlaps_iff.mpr ⟨a, hm, hn⟩] at h
  cases h

end Network

/-! ## Reading -/

/-- `_parse_octet` -/
def octetOf (t : Text) : Option ℕ := (canonicalDecimal t).filter (· ≤ 255)

def ofOctets (a b c d : ℕ) : Address := BitVec.ofNat 32 (((a * 256 + b) * 256 + c) * 256 + d)

/-- `IPv4Address(text)` -/
def addressOf (t : Text) : Option Address :=
  match t.splitOn '.' with
  | [a, b, c, d] => do some (ofOctets (← octetOf a) (← octetOf b) (← octetOf c) (← octetOf d))
  | _ => none

/-- `_prefix_from_prefix_string` -/
def prefixOfDigits (t : Text) : Option ℕ :=
  if t ≠ [] ∧ t.all Char.isDigit ∧ Nat.ofDigitChars 10 t 0 ≤ 32 then
    some (Nat.ofDigitChars 10 t 0)
  else none

/-- `_prefix_from_ip_int` -/
def prefixOfMask (mask : Address) : Option ℕ :=
  (List.range 33).find? fun p => netmask p = mask

/-- `_make_netmask` of a text: a length, a netmask, or a hostmask -/
def prefixOf (t : Text) : Option ℕ :=
  (prefixOfDigits t).or ((addressOf t).bind fun a => (prefixOfMask a).or (prefixOfMask (~~~ a)))

theorem le_of_prefixOfMask {mask : Address} {p : ℕ} (h : prefixOfMask mask = some p) : p ≤ 32 := by
  have hmem := List.mem_of_find?_eq_some h
  rw [List.mem_range] at hmem
  omega

theorem le_of_prefixOf {t : Text} {p : ℕ} (h : prefixOf t = some p) : p ≤ 32 := by
  rcases Option.or_eq_some_iff.mp h with hdigits | ⟨-, hmask⟩
  · rw [prefixOfDigits, Option.ite_none_right_eq_some] at hdigits
    rw [← Option.some.inj hdigits.2]
    exact hdigits.1.2.2
  · obtain ⟨a, -, ha⟩ := Option.bind_eq_some_iff.mp hmask
    rcases Option.or_eq_some_iff.mp ha with hnet | ⟨-, hhost⟩
    · exact le_of_prefixOfMask hnet
    · exact le_of_prefixOfMask hhost

/-- An address and the length of a prefix of it -/
def interfaceOf (t : Text) : Option (Address × {p : ℕ // p ≤ 32}) :=
  match t.splitOn '/' with
  | [address] => (addressOf address).map fun a => (a, ⟨32, le_rfl⟩)
  | [address, mask] =>
    (addressOf address).bind fun a =>
      match h : prefixOf mask with
      | some p => some (a, ⟨p, le_of_prefixOf h⟩)
      | none => none
  | _ => none

/-- `IPv4Network(text, strict=False)` -/
def looseNetworkOf (t : Text) : Option Network :=
  (interfaceOf t).map fun i => .of i.1 i.2.1 i.2.2

/-- `IPv4Network(text)`: the address must have no bits beyond the prefix. -/
def networkOf (t : Text) : Option Network :=
  (interfaceOf t).bind fun i =>
    if h : i.1 &&& netmask i.2.1 = i.1 then some ⟨i.1, i.2.1, i.2.2, h⟩ else none

/-- The first part of a text begins like the text. -/
theorem head_of_splitOn {t first : Text} {more : List Text} {separator c : Char}
    (h : t.splitOn separator = first :: more) (hc : first.head? = some c) : t.head? = some c := by
  cases t with
  | nil =>
    rw [List.splitOn_nil] at h
    rw [← (List.cons.inj h).1] at hc
    cases hc
  | cons d ds =>
    rw [List.splitOn_cons_eq_if_modifyHead] at h
    split at h
    · rw [← (List.cons.inj h).1] at hc
      cases hc
    · obtain ⟨x, xs, hsplit⟩ := List.exists_cons_of_ne_nil (List.splitOn_ne_nil separator ds)
      rw [hsplit, List.modifyHead_cons] at h
      rw [← (List.cons.inj h).1] at hc
      exact hc

theorem head_of_addressOf {t : Text} {a : Address} (h : addressOf t = some a) :
    ∃ c, t.head? = some c ∧ c.isDigit = true := by
  unfold addressOf at h
  split at h
  · next first second third fourth hsplit =>
    obtain ⟨n, hn, -⟩ := Option.bind_eq_some_iff.mp h
    obtain ⟨hdecimal, -⟩ := Option.filter_eq_some_iff.mp hn
    rw [canonicalDecimal_eq_some] at hdecimal
    obtain ⟨c, cs, hcs⟩ := List.exists_cons_of_ne_nil (Nat.toDigits_ne_nil (b := 10) (n := n))
    refine ⟨c, head_of_splitOn hsplit (by rw [hdecimal, hcs]; rfl), ?_⟩
    apply Nat.isDigit_of_mem_toDigits (b := 10) (by omega) (by omega)
    rw [hcs]
    exact List.mem_cons_self
  · cases h

theorem head_of_networkOf {t : Text} {n : Network} (h : networkOf t = some n) :
    ∃ c, t.head? = some c ∧ c.isDigit = true := by
  obtain ⟨i, hi, -⟩ := Option.bind_eq_some_iff.mp h
  unfold interfaceOf at hi
  split at hi
  · next first hsplit =>
    obtain ⟨a, ha, -⟩ := Option.map_eq_some_iff.mp hi
    obtain ⟨c, hc, hdigit⟩ := head_of_addressOf ha
    exact ⟨c, head_of_splitOn hsplit hc, hdigit⟩
  · next first mask hsplit =>
    obtain ⟨a, ha, -⟩ := Option.bind_eq_some_iff.mp hi
    obtain ⟨c, hc, hdigit⟩ := head_of_addressOf ha
    exact ⟨c, head_of_splitOn hsplit hc, hdigit⟩
  · cases hi

/-! ## Writing -/

/-- `_string_from_ip_int` -/
def addressText (a : Address) : Text :=
  let octet (k : ℕ) : Text := Nat.toDigits 10 (a.toNat / 256 ^ k % 256)
  ['.'].intercalate [octet 3, octet 2, octet 1, octet 0]

def networkText (n : Network) : Text := addressText n.address ++ '/' :: Nat.toDigits 10 n.prefixlen

theorem octetOf_toDigits {n : ℕ} (h : n < 256) : octetOf (Nat.toDigits 10 n) = some n := by
  rw [octetOf, canonicalDecimal_eq_some.mpr rfl, Option.filter_some,
    if_pos (decide_eq_true (Nat.le_of_lt_succ h))]

theorem not_mem_toDigits {c : Char} (h : c.isDigit = false) (n : ℕ) : c ∉ Nat.toDigits 10 n := by
  intro hc
  rw [Nat.isDigit_of_mem_toDigits (by omega) (by omega) hc] at h
  cases h

theorem ofOctets_octets (a : Address) : ofOctets (a.toNat / 256 ^ 3 % 256) (a.toNat / 256 ^ 2 % 256)
    (a.toNat / 256 ^ 1 % 256) (a.toNat / 256 ^ 0 % 256) = a := by
  apply BitVec.eq_of_toNat_eq
  have hlt := a.isLt
  rw [ofOctets, BitVec.toNat_ofNat]
  omega

/-- An address is read from what it is written as. -/
theorem addressOf_addressText (a : Address) : addressOf (addressText a) = some a := by
  have hsplit : (addressText a).splitOn '.' =
      [Nat.toDigits 10 (a.toNat / 256 ^ 3 % 256), Nat.toDigits 10 (a.toNat / 256 ^ 2 % 256),
        Nat.toDigits 10 (a.toNat / 256 ^ 1 % 256), Nat.toDigits 10 (a.toNat / 256 ^ 0 % 256)] := by
    apply List.splitOn_intercalate
    · intro t ht
      simp only [List.mem_cons, List.not_mem_nil, or_false] at ht
      rcases ht with rfl | rfl | rfl | rfl <;> exact not_mem_toDigits (by decide) _
    · simp
  rw [addressOf, hsplit]
  simp only [octetOf_toDigits (Nat.mod_lt _ (by omega))]
  exact congrArg some (ofOctets_octets a)

theorem slash_not_mem_addressText (a : Address) : '/' ∉ addressText a := by
  intro h
  simp only [addressText, List.intercalate, List.intersperse, List.flatten_cons, List.flatten_nil,
    List.append_nil, List.mem_append, List.mem_singleton] at h
  rcases h with h | h | h | h | h | h | h
  all_goals first
    | exact not_mem_toDigits (by decide) _ h
    | cases h

/-- The network around an address has the address. -/
theorem mem_of_looseNetworkOf {a : Address} {mask : Text} {n : Network}
    (h : looseNetworkOf (addressText a ++ '/' :: mask) = some n) : a ∈ n := by
  rw [looseNetworkOf, interfaceOf, List.splitOn_append_cons_self,
    List.splitOn_eq_singleton (slash_not_mem_addressText a)] at h
  obtain ⟨i, hi, rfl⟩ := Option.map_eq_some_iff.mp h
  have hfirst : i.1 = a := by
    rcases hmask : mask.splitOn '/' with _ | ⟨m, _ | ⟨m', ms⟩⟩
    · exact absurd hmask (List.splitOn_ne_nil _ _)
    · rw [hmask] at hi
      simp only [List.singleton_append, addressOf_addressText, Option.bind_some] at hi
      split at hi
      · rw [← Option.some.inj hi]
      · cases hi
    · rw [hmask] at hi
      cases hi
  rw [← hfirst]
  exact Network.mem_of _ _

/-! ## The special-purpose registry -/

def registered (a b c d prefixlen : ℕ) (h : prefixlen ≤ 32 := by omega) : Network :=
  .of (ofOctets a b c d) prefixlen h

/-- `_private_networks` -/
def privateNetworks : List Network :=
  [registered 0 0 0 0 8, registered 10 0 0 0 8, registered 127 0 0 0 8, registered 169 254 0 0 16,
    registered 172 16 0 0 12, registered 192 0 0 0 24, registered 192 0 0 170 31,
    registered 192 0 2 0 24, registered 192 168 0 0 16, registered 198 18 0 0 15,
    registered 198 51 100 0 24, registered 203 0 113 0 24, registered 240 0 0 0 4,
    registered 255 255 255 255 32]

/-- `_private_networks_exceptions` -/
def privateNetworksExceptions : List Network := [registered 192 0 0 9 32, registered 192 0 0 10 32]

/-- The private networks of a site -/
def rfc1918 : List Network :=
  [registered 10 0 0 0 8, registered 172 16 0 0 12, registered 192 168 0 0 16]

/-- `is_private` -/
def isPrivate (a : Address) : Bool :=
  privateNetworks.any (·.contains a) && privateNetworksExceptions.all (!·.contains a)

/-- `is_loopback` -/
def isLoopback (a : Address) : Bool := (registered 127 0 0 0 8).contains a

/-- `is_link_local` -/
def isLinkLocal (a : Address) : Bool := (registered 169 254 0 0 16).contains a

example : networkOf "10.244.0.0/16".toList = some (registered 10 244 0 0 16) := by decide

end Ipv4
