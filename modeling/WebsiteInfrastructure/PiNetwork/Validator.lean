import Mathlib
import WebsiteInfrastructure.Library.Ipv4
import WebsiteInfrastructure.Library.PythonObjects
import WebsiteInfrastructure.Library.RegexMatches
import WebsiteInfrastructure.ProtectedHost.Bindings

/-!
# The network validator

`validate_pi_network.py`: the addresses of the kubeadm configuration against what `ip -j` says of the
host. An address or a network of version 6 is refused wherever one of version 4 must stand, so that
reading one gives nothing, as for a text that is none.
-/

namespace PiNetwork

open Json Raising
open Ipv4 (Address Network)
open ProtectedHost (Lowering)

/-- What `int` makes of texts and of floats goes by the interpreter; nothing where it raises. -/
class Numerals (F : Type) where
  ofText : Text → Option ℤ
  ofFloat : F → Option ℤ
  ofText_decimal : ∀ n : ℕ, ofText (.scalar (toString n)) = some n

/-! ## Tables -/

/-- `DEFAULT_IPV4_RULES` -/
def defaultIpv4Rules : List (ℤ × String × String) :=
  [(0, "all", "local"), (32766, "all", "main"), (32767, "all", "default")]

section Constants

variable {F : Type}

/-- `TABLE_NAMES` -/
def tableNames : List (Value F × String) :=
  [(.text "253", "default"), (.text "254", "main"), (.text "255", "local"),
    (.int 253, "default"), (.int 254, "main"), (.int 255, "local")]

end Constants

/-- `TUNNEL_LINK_KINDS` -/
def tunnelLinkKinds : List String :=
  ["erspan", "gre", "gretap", "ip6gre", "ip6gretap", "ipip", "l2tp", "macsec", "ppp", "sit", "tap",
    "tun", "vti", "vti6", "wireguard", "xfrm"]

/-- `UNSUPPORTED_ROUTE_KEYS` -/
def unsupportedRouteKeys : List String := ["encap", "multipath", "nexthops", "nhid", "via"]

section Patterns

open Regex Pattern

variable [Characters]

/-- `TUNNEL_INTERFACE_NAME`. This one is not in multiline mode: it ends at the end of the text or at
the line feed before it. -/
def tunnelInterfaceName : Pattern :=
  let separator := char (· ∈ ['-', '_', '.'])
  let textEnd := edge fun _ next => next.isNone
  let numbered (role : String) := seq (litFolded role) (star digit)
  all [alt (edge fun before _ => before.isNone) separator,
    ([litFolded "corp-vpn", litFolded "ipsec"] ++
      ["ppp", "tap", "tun", "utun", "vpn", "warp", "wg", "wireguard", "xfrm"].map numbered).foldr
        alt (char fun _ => false),
    alt textEnd (alt (seq (char (· = '\n')) textEnd) separator)]

end Patterns

/-! ## The configuration -/

/-- `^\s{2}name:\s*(\S+)\s*$` -/
def fieldPattern (name : String) : Regex.Pattern :=
  .all [.bol, .space, .space, .lit (name ++ ":"), .spaces, .group "value" .word, .spaces, .eol]

/-- `one` -/
def one (name : String) (text : List Char) : Check (List Char) :=
  match ((fieldPattern name).findAll text).map (·.group "value") with
  | [value] => .ok value
  | _ => .error (told [.scalar "expected exactly one ", .scalar name])

/-- `ip_network(one(...))` -/
def configuredNetwork (name : String) (text : List Char) : Check Network := do
  let value ← one name text
  match Ipv4.networkOf value with
  | some network => .ok network
  | none => .error (told [.scalar "pod, service, and advertise networks must all be IPv4"])

/-- What `main` takes from the configuration -/
structure Target where
  pod : Network
  service : Network
  advertise : Address

def configured (text : List Char) : Check Target := do
  let pod ← configuredNetwork "podSubnet" text
  let service ← configuredNetwork "serviceSubnet" text
  let value ← one "advertiseAddress" text
  match Ipv4.addressOf value with
  | some advertise => .ok ⟨pod, service, advertise⟩
  | none => .error (told [.scalar "pod, service, and advertise networks must all be IPv4"])

/-! ## Values of the evidence -/

section Evidence

variable {F : Type}

/-- The characters of a text; lone surrogates are none of those that a pattern or a number holds. -/
def chars (t : Text) : List Char := t.points.map Char.ofNat

/-- `require_json_list` -/
def requireJsonList (value : Value F) (label : String) : Check (List (Value F)) :=
  match value with
  | .arr items => do
    raiseIf (items.any fun item => !item.isObject)
      (told [.scalar label, .scalar " query returned a non-object entry"])
    .ok items
  | _ => .error (told [.scalar label, .scalar " query did not return a JSON list"])

/-- The keys of a dict -/
def keys : Value F → List Text
  | .obj fields => fields.map Prod.fst
  | _ => []

/-- `"...: {}".format(", ".join(keys))` -/
def listed (message : String) (keys : List Text) : Failure :=
  told (.scalar message :: keys.intersperse (.scalar ", "))

/-- `str.strip` -/
def stripText (t : Text) : Text :=
  let space (point : ℕ) : Bool := PythonText.isSpace (Char.ofNat point)
  Text.ofPoints ((t.points.dropWhile space).rdropWhile space)

/-- `value in (None, [])` -/
def isNoFlags : Value F → Bool
  | .null => true
  | .arr [] => true
  | _ => false

/-- `ipaddress.ip_address(value)` -/
def ipAddress (value : Value F) : Option Address :=
  match value.asInt?, value with
  | some n, _ => if 0 ≤ n ∧ n < 2 ^ 32 then some (BitVec.ofInt 32 n) else none
  | none, .str t => Ipv4.addressOf (chars t)
  | _, _ => none

/-- `"{}".format(value)` of what can be a mask; no other type is written like one. -/
def maskText : Value F → Option (List Char)
  | .int n => some (toString n).toList
  | .str t => some (chars t)
  | _ => none

/-- The address of an entry, and the network around it -/
def interfaceNetwork (entry : Value F) : Option (Address × Network) := do
  let address ← ipAddress (← entry.get? "local")
  let mask ← maskText (← entry.get? "prefixlen")
  let network ← Ipv4.looseNetworkOf (Ipv4.addressText address ++ '/' :: mask)
  some (address, network)

/-- `parse_route_network` -/
def parseRouteNetwork (destination : Value F) : Check Network :=
  match destination.filled? with
  | none => .error (told [.scalar "route has no exact IPv4 destination"])
  | some t =>
    if t = .scalar "default" then .ok (.of 0 0 (Nat.zero_le _))
    else
      match Ipv4.looseNetworkOf (chars t) with
      | some network => .ok network
      | none => .error (told [.scalar "invalid IPv4 route destination ", t])

end Evidence

section Validator

variable {F : Type} [Interpreter F] [Lowering] [Regex.Characters]

/-- `normalize_table` -/
def normalizeTable (value : Value F) : Check (Value F) :=
  if value.hashable then
    let named := (tableNames.find? fun entry => value.eq entry.1).elim value fun entry =>
      .text entry.2
    match named with
    | .str t => .ok (.str (Lowering.lower (stripText t)))
    | other => .ok other
  else .error .raised

/-! ## Rules -/

section Rules

variable [Numerals F]

/-- `int(value)` -/
def priorityOf : Value F → Option ℤ
  | .int n => some n
  | .bool b => some (if b then 1 else 0)
  | .float x => Numerals.ofFloat x
  | .str t => Numerals.ofText F t
  | _ => none

/-- The priority, the source and the table of a rule -/
def observedRule (rule : Value F) : Check (ℤ × Value F × Value F) := do
  let unexpected := (keys rule).filter fun key =>
    key ∉ ["flags", "priority", "protocol", "src", "table"].map Text.scalar
  raiseIf (unexpected ≠ []) (listed "unsupported IPv4 policy rule fields: " unexpected)
  let flags ← rule.getOr "flags" (.arr [])
  raiseIf (isNoFlags flags = false) (told [.scalar "IPv4 policy rule has unsupported flags"])
  match (rule.get? "priority").bind priorityOf with
  | none => .error (told [.scalar "IPv4 policy rule has no exact numeric priority"])
  | some priority =>
    let source := rule.get "src"
    let table ← normalizeTable (rule.get "table")
    .ok (priority, if source.eq (.text "0.0.0.0/0") then .text "all" else source, table)

def isRule (observed : ℤ × Value F × Value F) (expected : ℤ × String × String) : Bool :=
  observed.1 == expected.1 && observed.2.1.eq (.text expected.2.1) &&
    observed.2.2.eq (.text expected.2.2)

/-- `validate_default_ipv4_rules` -/
def validateDefaultIpv4Rules (rules : Value F) : Check Unit := do
  let rules ← requireJsonList rules "IPv4 rule"
  let observed ← collect observedRule rules
  raiseIf (¬ (observed.length = defaultIpv4Rules.length ∧
      observed.all (fun o => defaultIpv4Rules.any (isRule o)) ∧
      defaultIpv4Rules.all fun expected => observed.any (isRule · expected)))
    (told [.scalar "IPv4 policy rules differ from the canonical local/main/default rules"])

end Rules

/-! ## Links -/

/-- Names, with their kinds and types -/
abbrev Links := List (Text × Option Text × Option Text)

/-- `None` or a text -/
def optionalText (value : Value F) (error : Failure) : Check (Option Text) :=
  match value with
  | .null => .ok none
  | .str t => .ok (some t)
  | _ => .error error

/-- `value.lower() if value else None` -/
def lowered (value : Option Text) : Option Text :=
  (value.filter (· ≠ .scalar "")).map Lowering.lower

def parseLink (parsed : Links) (link : Value F) : Check Links :=
  match (link.get "ifname").filled? with
  | none => .error (told [.scalar "IPv4 link has no interface name"])
  | some name => do
    raiseIf (name ∈ parsed.map Prod.fst)
      (told [.scalar "IPv4 link query returned duplicate interface ", name])
    let linkType ← optionalText (link.get "link_type")
      (told [.scalar "IPv4 link ", name, .scalar " has an invalid link type"])
    let linkInfo := link.get "linkinfo"
    raiseIf (¬ (linkInfo.isNone ∨ linkInfo.isObject))
      (told [.scalar "IPv4 link ", name, .scalar " has invalid detailed link data"])
    let kind ← optionalText (linkInfo.get "info_kind")
      (told [.scalar "IPv4 link ", name, .scalar " has an invalid link kind"])
    .ok (parsed ++ [(name, lowered kind, lowered linkType)])

/-- `parse_links` -/
def parseLinks (links : Value F) : Check Links := do
  let links ← requireJsonList links "IPv4 link"
  carry parseLink [] links

def isTunnelKind (kind : Option Text) : Bool :=
  kind.any (· ∈ tunnelLinkKinds.map Text.scalar)

/-- `link_is_tunnel` -/
def linkIsTunnel (interface : Text) (links : Links) : Check Bool :=
  match links.lookup interface with
  | none => .error (told
      [.scalar "route references interface absent from IPv4 link query: ", interface])
  | some (kind, linkType) =>
    .ok (isTunnelKind kind || isTunnelKind linkType || linkType = some (.scalar "none") ||
      tunnelInterfaceName.found (chars interface))

/-! ## Addresses -/

/-- Networks with what they come from, and the interfaces that have the advertised address -/
structure Inventory where
  networks : List (Text × Network)
  bindings : List (Text × Network)

def addressEntry (name : Text) (advertise : Address) (found : Inventory) (entry : Value F) :
    Check Inventory := do
  raiseIf (entry.isObject = false)
    (told [.scalar "IPv4 address entry for ", name, .scalar " is not an object"])
  if !(entry.get "family").eq (.text "inet") then .ok found
  else
    match interfaceNetwork entry with
    | none => .error (told [.scalar "invalid IPv4 address on ", name])
    | some (address, network) =>
      .ok {
        networks := found.networks ++ [((Text.scalar "interface ").append name, network)]
        bindings :=
          if address = advertise then found.bindings ++ [(name, network)] else found.bindings }

def interfaceEntry (links : Links) (advertise : Address) (found : Inventory)
    (interface : Value F) : Check Inventory :=
  match (interface.get "ifname").filled? with
  | none => .error (told [.scalar "IPv4 address entry has no interface name"])
  | some name => do
    raiseIf (name ∉ links.map Prod.fst)
      (told [.scalar "IPv4 address query references interface absent from link query: ", name])
    match interface.get "addr_info" with
    | .arr entries => carry (addressEntry name advertise) found entries
    | _ => .error (told [.scalar "IPv4 address entry for ", name, .scalar " has invalid addr_info"])

/-- `parse_addresses` -/
def parseAddresses (addresses : Value F) (advertise : Address) (links : Links) :
    Check (List (Text × Network) × (Text × Network)) := do
  let addresses ← requireJsonList addresses "IPv4 address"
  let found ← carry (interfaceEntry links advertise) ⟨[], []⟩ addresses
  match found.bindings with
  | [binding] => .ok (found.networks, binding)
  | _ => .error (told
      [.scalar "advertise address must occur exactly once in the live IPv4 address inventory"])

/-! ## Routes -/

/-- `validate_default_route` -/
def validateDefaultRoute (route : Value F) (advertise : Address) (binding : Text × Network) :
    Check Unit := do
  raiseIf ((route.get "dev").eq (.str binding.1) = false)
    (told [.scalar "default route is not on the advertise-address LAN interface"])
  match (route.get? "gateway").bind ipAddress with
  | none => .error (told [.scalar "default route has no exact IPv4 LAN gateway proof"])
  | some gateway =>
    raiseIf (binding.2.contains gateway = false ∨ gateway = advertise)
      (told [.scalar "default route gateway is not a distinct address on the advertise LAN"])
    let preferredSource := route.get "prefsrc"
    raiseIf (¬ preferredSource.isNone ∧ ipAddress preferredSource ≠ some advertise)
      (told [.scalar "default route has an invalid preferred source"])
    let flags ← route.getOr "flags" (.arr [])
    raiseIf (isNoFlags flags = false) (told [.scalar "default route has unsupported flags"])

/-- The table of a route -/
def routeTable (route : Value F) : Check (Value F) := do
  let table ← route.getOr "table" (.text "main")
  normalizeTable table

/-- One turn of the loop over the routes: the networks so far, and how many default routes. -/
def routeEntry (links : Links) (advertise : Address) (binding : Text × Network)
    (found : List (Text × Network) × ℕ) (route : Value F) :
    Check (List (Text × Network) × ℕ) := do
  let unsupported := (keys route).filter (· ∈ unsupportedRouteKeys.map Text.scalar)
  raiseIf (unsupported ≠ []) (listed "route uses unsupported indirection: " unsupported)
  let table ← routeTable route
  raiseIf (¬ (table.eq (.text "local") ∨ table.eq (.text "main")))
    (told [.scalar "unsupported route table"])
  let network ← parseRouteNetwork (route.get "dst")
  let routeType ← route.getOr "type" (.text "unicast")
  if table.eq (.text "local") then do
    raiseIf (network.prefixlen = 0 ∨
        ¬ (routeType.eq (.text "broadcast") ∨ routeType.eq (.text "local")))
      (told [.scalar "local table contains a non-local route"])
    .ok (found.1 ++ [(.scalar "route table local", network)], found.2)
  else do
    raiseIf (routeType.eq (.text "unicast") = false)
      (told [.scalar "main table contains unsupported route type"])
    match (route.get "dev").filled? with
    | none => .error (told [.scalar "main-table route has no exact output interface"])
    | some interface =>
      let tunnel ← linkIsTunnel interface links
      raiseIf (tunnel = true) (told [.scalar "VPN/tunnel route detected on interface ", interface])
      if network.prefixlen = 0 then do
        validateDefaultRoute route advertise binding
        .ok (found.1, found.2 + 1)
      else .ok (found.1 ++ [(.scalar "route table main", network)], found.2)

/-! ## The run -/

/-- What `ip_json` gives of each query, or nothing where the command or the reading of it fails -/
structure Evidence (F : Type) where
  addresses : Option (Value F)
  links : Option (Value F)
  rules : Option (Value F)
  routes : Option (Value F)

/-- `ip_json` -/
def ipJson (answer : Option (Value F)) : Check (Value F) := answer.elim (.error .raised) .ok

variable [Numerals F]

/-- `live_networks` -/
def liveNetworks (advertise : Address) (evidence : Evidence F) : Check (List (Text × Network)) := do
  let addresses ← ipJson evidence.addresses
  let links ← ipJson evidence.links
  let links ← parseLinks links
  let rules ← ipJson evidence.rules
  validateDefaultIpv4Rules rules
  let routes ← ipJson evidence.routes
  let routes ← requireJsonList routes "IPv4 route"
  let (networks, binding) ← parseAddresses addresses advertise links
  let (networks, defaultRoutes) ← carry (routeEntry links advertise binding) (networks, 0) routes
  raiseIf (1 < defaultRoutes)
    (told [.scalar "more than one IPv4 default route prevents an exact LAN route proof"])
  .ok networks

/-- The messages of `main`, in the order in which they are found -/
def failures (target : Target) (current : List (Text × Network)) : List Text :=
  (if target.pod.overlaps target.service then [.scalar "pod and service CIDRs overlap"] else []) ++
    (if !Ipv4.isPrivate target.advertise || Ipv4.isLoopback target.advertise ||
        Ipv4.isLinkLocal target.advertise then
      [.scalar "API advertise address is not a private unicast address"]
    else []) ++
    [("pod", target.pod), ("service", target.service)].flatMap fun (name, network) =>
      (current.filter fun found => network.overlaps found.2).map fun (source, found) =>
        (Text.scalar (name ++ " CIDR " ++ String.ofList (Ipv4.networkText network) ++
          " overlaps ")).append
          (source.append (.scalar (" " ++ String.ofList (Ipv4.networkText found))))

/-- `main` up to its messages -/
def run (text : List Char) (evidence : Evidence F) : Check (List Text) := do
  let target ← configured text
  let current ← liveNetworks target.advertise evidence
  .ok (failures target current)

/-- `main`: the exit status -/
def main (text : List Char) (evidence : Evidence F) : ℕ :=
  match run text evidence with
  | .ok [] => 0
  | _ => 1

end Validator

end PiNetwork
