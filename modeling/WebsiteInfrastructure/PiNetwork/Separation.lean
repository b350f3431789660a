import Mathlib
import WebsiteInfrastructure.Library.IndentedMapping
import WebsiteInfrastructure.PiNetwork.Validator
import WebsiteInfrastructure.ProtectedHost.LiveState

/-!
# Separation from the live network

What an exit with status 0 says about the evidence: no interface and no route that is not the default
one has an address of the cluster.
-/

namespace PiNetwork

open Json Raising
open Ipv4 (Address Network)
open ProtectedHost (Lowering)

/-! ## What the evidence says -/

section Evidence

variable {F : Type}

/-- The entries of `addr_info` -/
def addressEntries (interface : Value F) : List (Value F) :=
  match interface.get "addr_info" with
  | .arr entries => entries
  | _ => []

/-- An entry with a version 4 address of an interface -/
structure IsInet (addresses : List (Value F)) (name : Text) (entry : Value F) : Prop where
  listed : ∃ interface ∈ addresses, interface.get "ifname" = .str name ∧
    entry ∈ addressEntries interface
  family : entry.get "family" = .text "inet"

/-- A route to every address -/
def isDefaultRoute (route : Value F) : Bool :=
  match parseRouteNetwork (route.get "dst") with
  | .ok network => network.prefixlen = 0
  | .error _ => false

theorem requireJsonList_eq_ok {value : Value F} {label : String} {items : List (Value F)} :
    requireJsonList value label = .ok items ↔
      value = .arr items ∧ ∀ item ∈ items, item.isObject = true := by
  cases value with
  | arr xs =>
    rw [requireJsonList, raiseIf_bind_eq_ok]
    simp only [Except.ok.injEq, Value.arr.injEq, List.any_eq_true, Bool.not_eq_true', not_exists,
      not_and, Bool.not_eq_false]
    constructor
    · rintro ⟨h, rfl⟩
      exact ⟨rfl, h⟩
    · rintro ⟨rfl, h⟩
      exact ⟨h, rfl⟩
  | _ => simp [requireJsonList]

theorem ipJson_eq_ok {answer : Option (Value F)} {value : Value F} :
    ipJson answer = .ok value ↔ answer = some value := by
  cases answer <;> simp [ipJson]

theorem optionalText_eq_ok {value : Value F} {error : Failure} {t : Option Text}
    (h : optionalText value error = .ok t) : value.str? = t := by
  cases value with
  | null => exact Except.ok.inj h
  | str s => exact Except.ok.inj h
  | _ => cases h

theorem mem_of_interfaceNetwork {entry : Value F} {a : Address} {network : Network}
    (h : interfaceNetwork entry = some (a, network)) : a ∈ network := by
  simp only [interfaceNetwork, Option.bind_eq_bind, Option.bind_eq_some_iff, Option.some.injEq,
    Prod.mk.injEq] at h
  obtain ⟨_, -, b, -, _, -, mask, -, n, hn, rfl, rfl⟩ := h
  exact Ipv4.mem_of_looseNetworkOf hn

/-- No address of the network is the pod's or the service's. -/
def Apart (target : Target) (network : Network) : Prop :=
  ∀ a ∈ network, a ∉ target.pod ∧ a ∉ target.service


theorem apart_of_failures {target : Target} {current : List (Text × Network)}
    (h : failures target current = []) : (∀ a ∈ target.pod, a ∉ target.service) ∧
      ∀ found ∈ current, Apart target found.2 := by
  obtain ⟨hfirst, hrest⟩ := List.append_eq_nil_iff.mp h
  have hdisjoint : target.pod.overlaps target.service = false := by
    have hnil := (List.append_eq_nil_iff.mp hfirst).1
    by_contra hoverlaps
    rw [Bool.not_eq_false] at hoverlaps
    simp [hoverlaps] at hnil
  have hclear : ∀ network ∈ [target.pod, target.service], ∀ found ∈ current,
      network.overlaps found.2 = false := by
    intro network hnetwork found hfound
    have hnone : ∀ name, (name, network) ∈ [("pod", target.pod), ("service", target.service)] →
        network.overlaps found.2 = false := by
      intro name hname
      have hnil := List.flatMap_eq_nil_iff.mp hrest _ hname
      have hfilter := List.filter_eq_nil_iff.mp (List.map_eq_nil_iff.mp hnil) found hfound
      simpa using hfilter
    simp only [List.mem_cons, List.not_mem_nil, or_false] at hnetwork
    rcases hnetwork with rfl | rfl
    · exact hnone "pod" (by simp)
    · exact hnone "service" (by simp)
  refine ⟨fun a ha => Network.not_mem_of_overlaps hdisjoint ha, ?_⟩
  intro found hfound a ha
  refine ⟨fun hpod => ?_, fun hservice => ?_⟩
  · exact Network.not_mem_of_overlaps (hclear _ (by simp) found hfound) hpod ha
  · exact Network.not_mem_of_overlaps (hclear _ (by simp) found hfound) hservice ha

/-! ## Links -/

section Links

variable [Lowering]

/-- The kind and the type of a link, in lower case, where it has one -/
def linkKinds (link : Value F) : Option Text × Option Text :=
  (lowered ((link.get "linkinfo").get "info_kind").str?, lowered (link.get "link_type").str?)

/-- A link adds its own name, with its kind and its type. -/
theorem parseLink_eq_ok {parsed next : Links} {link : Value F} (h : parseLink parsed link = .ok next) :
    ∃ name, link.get "ifname" = .str name ∧ name ∉ parsed.map Prod.fst ∧
      next = parsed ++ [(name, linkKinds link)] := by
  unfold parseLink at h
  split at h
  · cases h
  · next name hname =>
    obtain ⟨hnew, h⟩ := raiseIf_bind_eq_ok.mp h
    obtain ⟨linkType, htype, h⟩ := bind_eq_ok.mp h
    obtain ⟨-, h⟩ := raiseIf_bind_eq_ok.mp h
    obtain ⟨kind, hkind, h⟩ := bind_eq_ok.mp h
    have hkinds : linkKinds link = (lowered kind, lowered linkType) := by
      rw [linkKinds, optionalText_eq_ok htype, optionalText_eq_ok hkind]
    refine ⟨name, (Value.filled?_eq_some.mp hname).1, hnew, ?_⟩
    rw [hkinds]
    exact (Except.ok.inj h).symm

/-- Each link is parsed under its name, and no name comes twice. -/
def ParsedLinks (links : List (Value F)) (parsed : Links) : Prop :=
  (∀ link ∈ links, ∃ name, link.get "ifname" = .str name ∧ (name, linkKinds link) ∈ parsed) ∧
    (parsed.map Prod.fst).Nodup ∧
      ∀ name kinds, (name, kinds) ∈ parsed → ∃ link ∈ links, link.get "ifname" = .str name

theorem parsedLinks_of_carry {links : List (Value F)} {parsed : Links}
    (h : carry parseLink [] links = .ok parsed) : ParsedLinks links parsed := by
  apply carry_invariant ParsedLinks _ _ h
  · rintro seen parsed link next ⟨hseen, hnodup, hknown⟩ hlink
    obtain ⟨name, hname, hnew, rfl⟩ := parseLink_eq_ok hlink
    refine ⟨?_, ?_, ?_⟩
    · refine List.forall_mem_append.mpr ⟨?_, List.forall_mem_singleton.mpr ?_⟩
      · intro old hold
        obtain ⟨name', hname', hmem⟩ := hseen old hold
        exact ⟨name', hname', List.mem_append_left _ hmem⟩
      · exact ⟨name, hname, List.mem_append_right _ (List.mem_singleton_self _)⟩
    · rw [List.map_append, List.nodup_append]
      refine ⟨hnodup, List.nodup_singleton _, ?_⟩
      intro a ha b hb hab
      obtain rfl := List.mem_singleton.mp hb
      exact hnew (hab ▸ ha)
    · intro name' kinds hmem
      rcases List.mem_append.mp hmem with hold | hlast
      · obtain ⟨link', hlink', hname'⟩ := hknown name' kinds hold
        exact ⟨link', List.mem_append_left _ hlink', hname'⟩
      · obtain ⟨rfl, -⟩ := Prod.mk.inj (List.mem_singleton.mp hlast)
        exact ⟨link, List.mem_append_right _ (List.mem_singleton_self _), hname⟩
  · exact ⟨by simp, by simp, by simp⟩

variable [Regex.Characters]

/-- The interface is a link of the host, and neither its kind, its type nor its name is a tunnel's. -/
structure NoTunnel (links : List (Value F)) (name : Text) : Prop where
  known : ∃ link ∈ links, link.get "ifname" = .str name
  kinds : ∀ link ∈ links, link.get "ifname" = .str name →
    isTunnelKind (linkKinds link).1 = false ∧ isTunnelKind (linkKinds link).2 = false ∧
      (linkKinds link).2 ≠ some (.scalar "none")
  name : tunnelInterfaceName.found (chars name) = false

theorem noTunnel_of_linkIsTunnel {links : List (Value F)} {parsed : Links}
    (hparsed : ParsedLinks links parsed) {name : Text}
    (h : linkIsTunnel name parsed = .ok false) : NoTunnel links name := by
  obtain ⟨hlinks, hnodup, hknown⟩ := hparsed
  unfold linkIsTunnel at h
  split at h
  · cases h
  · next kind linkType hlookup =>
    have htunnel := Except.ok.inj h
    simp only [Bool.or_eq_false_iff, decide_eq_false_iff_not] at htunnel
    obtain ⟨⟨⟨hkind, htype⟩, hnone⟩, hname⟩ := htunnel
    refine ⟨hknown name _ (mem_of_lookup hlookup), ?_, hname⟩
    intro link hlink hifname
    obtain ⟨name', hname', hmem⟩ := hlinks link hlink
    obtain rfl := Value.str.inj (hifname.symm.trans hname')
    have hfound := (Indented.lookup_eq_some hnodup).mpr hmem
    have hkinds := Option.some.inj (hfound.symm.trans hlookup)
    rw [hkinds]
    exact ⟨hkind, htype, hnone⟩

end Links

/-! ## Interfaces -/

section Interfaces

variable [Interpreter F]

/-- The networks of the entries are all there, and what is bound is an entry with the address. -/
structure Collected (advertise : Address) (entries : List (Text × Value F)) (found : Inventory) :
    Prop where
  networks : ∀ e ∈ entries, ∃ a network, interfaceNetwork e.2 = some (a, network) ∧
    ∃ source, (source, network) ∈ found.networks
  bindings : ∀ b ∈ found.bindings, ∃ e ∈ entries, e.1 = b.1 ∧
    interfaceNetwork e.2 = some (advertise, b.2)

/-- The entries of version 4 -/
def inetEntries (name : Text) (entries : List (Value F)) : List (Text × Value F) :=
  (entries.filter fun entry => (entry.get "family").eq (.text "inet")).map (name, ·)

theorem Collected.entry {advertise : Address} {entries : List (Text × Value F)}
    {found next : Inventory} (h : Collected advertise entries found) {name : Text} {entry : Value F}
    (hnext : addressEntry name advertise found entry = .ok next) :
    Collected advertise (entries ++ inetEntries name [entry]) next := by
  obtain ⟨-, hnext⟩ := raiseIf_bind_eq_ok.mp hnext
  cases hfamily : (entry.get "family").eq (.text "inet") with
  | false =>
    rw [hfamily, Bool.not_false, if_pos rfl] at hnext
    obtain rfl := Except.ok.inj hnext
    simpa [inetEntries, hfamily] using h
  | true =>
    rw [hfamily, Bool.not_true, if_neg Bool.false_ne_true] at hnext
    have hentries : inetEntries name [entry] = [(name, entry)] := by simp [inetEntries, hfamily]
    rw [hentries]
    split at hnext
    · cases hnext
    · next a network hnetwork =>
      obtain rfl := Except.ok.inj hnext
      constructor
      · refine List.forall_mem_append.mpr ⟨?_, List.forall_mem_singleton.mpr ?_⟩
        · intro e he
          obtain ⟨a', network', hnetwork', source, hmem⟩ := h.networks e he
          exact ⟨a', network', hnetwork', source, List.mem_append_left _ hmem⟩
        · exact ⟨a, network, hnetwork, _, List.mem_append_right _ (List.mem_singleton_self _)⟩
      · intro b hb
        have hold : b ∈ found.bindings → ∃ e ∈ entries ++ [(name, entry)], e.1 = b.1 ∧
            interfaceNetwork e.2 = some (advertise, b.2) := by
          intro hmem
          obtain ⟨e, he, hfirst, hsecond⟩ := h.bindings b hmem
          exact ⟨e, List.mem_append_left _ he, hfirst, hsecond⟩
        dsimp only at hb
        split at hb
        · next hadvertise =>
          rcases List.mem_append.mp hb with hmem | hlast
          · exact hold hmem
          · obtain rfl := List.mem_singleton.mp hlast
            refine ⟨(name, entry), List.mem_append_right _ (List.mem_singleton_self _), rfl, ?_⟩
            rw [hnetwork, hadvertise]
        · exact hold hb

theorem Collected.entries {advertise : Address} {seen : List (Text × Value F)}
    {found next : Inventory} (h : Collected advertise seen found) {name : Text}
    {entries : List (Value F)} (hnext : carry (addressEntry name advertise) found entries = .ok next) :
    Collected advertise (seen ++ inetEntries name entries) next := by
  apply carry_invariant
    (fun entries found => Collected advertise (seen ++ inetEntries name entries) found) _ _ hnext
  · intro entries found entry next hfound hentry
    have hstep := hfound.entry hentry
    rwa [List.append_assoc, inetEntries, inetEntries, ← List.map_append, ← List.filter_append]
      at hstep
  · simpa [inetEntries] using h

/-- The version 4 entries of an interface under its name -/
def entriesOf (interface : Value F) : List (Text × Value F) :=
  match interface.get "ifname" with
  | .str name => inetEntries name (addressEntries interface)
  | _ => []

theorem Collected.interface {advertise : Address} {seen : List (Text × Value F)} {links : Links}
    {found next : Inventory} (h : Collected advertise seen found) {interface : Value F}
    (hnext : interfaceEntry links advertise found interface = .ok next) :
    Collected advertise (seen ++ entriesOf interface) next := by
  unfold interfaceEntry at hnext
  split at hnext
  · cases hnext
  · next name hname =>
    obtain ⟨-, hnext⟩ := raiseIf_bind_eq_ok.mp hnext
    split at hnext
    · next entries hinfo =>
      rw [entriesOf, (Value.filled?_eq_some.mp hname).1, addressEntries, hinfo]
      exact h.entries hnext
    · cases hnext

theorem collected_of_parseAddresses {value : Value F} {advertise : Address}
    {links : Links} {networks : List (Text × Network)} {binding : Text × Network}
    (h : parseAddresses value advertise links = .ok (networks, binding)) :
    ∃ addresses, value = .arr addresses ∧
      Collected advertise (addresses.flatMap entriesOf) ⟨networks, [binding]⟩ := by
  obtain ⟨addresses, hitems, h⟩ := bind_eq_ok.mp h
  refine ⟨addresses, (requireJsonList_eq_ok.mp hitems).1, ?_⟩
  obtain ⟨found, hfound, h⟩ := bind_eq_ok.mp h
  have hcollected : Collected advertise (addresses.flatMap entriesOf) found := by
    apply carry_invariant (fun seen found => Collected advertise (seen.flatMap entriesOf) found) _ _
      hfound
    · intro seen found interface next hseen hnext
      rw [List.flatMap_append, List.flatMap_singleton]
      exact hseen.interface hnext
    · exact ⟨by simp, by simp⟩
  split at h
  · next hbinding =>
    obtain ⟨rfl, rfl⟩ := Prod.mk.inj (Except.ok.inj h)
    rwa [← hbinding]
  · cases h

theorem mem_flatMap_entriesOf {addresses : List (Value F)} {name : Text} {entry : Value F} :
    (name, entry) ∈ addresses.flatMap entriesOf ↔ IsInet addresses name entry := by
  rw [List.mem_flatMap]
  constructor
  · rintro ⟨interface, hinterface, hentry⟩
    unfold entriesOf at hentry
    split at hentry
    · next name' hname =>
      obtain ⟨entry', hentry', heq⟩ := List.mem_map.mp hentry
      obtain ⟨rfl, rfl⟩ := Prod.mk.inj heq
      rw [List.mem_filter, Value.eq_text] at hentry'
      exact ⟨⟨interface, hinterface, hname, hentry'.1⟩, hentry'.2⟩
    · cases hentry
  · rintro ⟨⟨interface, hinterface, hname, hentry⟩, hfamily⟩
    refine ⟨interface, hinterface, ?_⟩
    rw [entriesOf, hname]
    apply List.mem_map_of_mem
    exact List.mem_filter.mpr ⟨hentry, Value.eq_text.mpr hfamily⟩

theorem gateway_of_validateDefaultRoute {route : Value F} {advertise : Address}
    {binding : Text × Network} (h : validateDefaultRoute route advertise binding = .ok ()) :
    ∃ gateway, (route.get? "gateway").bind ipAddress = some gateway ∧ gateway ∈ binding.2 := by
  obtain ⟨-, h⟩ := raiseIf_bind_eq_ok.mp h
  split at h
  · cases h
  · next gateway hgateway =>
    obtain ⟨hlan, -⟩ := raiseIf_bind_eq_ok.mp h
    rw [not_or, Bool.not_eq_false] at hlan
    exact ⟨gateway, hgateway, hlan.1⟩

end Interfaces

/-! ## Routes -/

variable [Interpreter F] [Lowering] [Regex.Characters]

/-- What the loop has established of a route it went on from -/
structure TakenRoute (links : List (Value F)) (lan : Network) (networks : List (Text × Network))
    (route : Value F) : Prop where
  table : routeTable route = .ok (.text "main") ∨ routeTable route = .ok (.text "local")
  network : ∃ network, parseRouteNetwork (route.get "dst") = .ok network ∧
    (isDefaultRoute route = false → ∃ source, (source, network) ∈ networks)
  noTunnel : routeTable route = .ok (.text "main") →
    ∃ name, route.get "dev" = .str name ∧ NoTunnel links name
  gateway : isDefaultRoute route = true →
    ∃ gateway, (route.get? "gateway").bind ipAddress = some gateway ∧ gateway ∈ lan

theorem TakenRoute.mono {links : List (Value F)} {lan : Network} {networks more : List (Text × Network)}
    {route : Value F} (h : TakenRoute links lan networks route) (hmore : networks ⊆ more) :
    TakenRoute links lan more route where
  table := h.table
  network := by
    obtain ⟨network, hnetwork, hmem⟩ := h.network
    refine ⟨network, hnetwork, fun hdefault => ?_⟩
    obtain ⟨source, hsource⟩ := hmem hdefault
    exact ⟨source, hmore hsource⟩
  noTunnel := h.noTunnel
  gateway := h.gateway

/-- One turn of the loop: nothing is lost, and only a default route is counted. -/
theorem routeEntry_eq_ok {links : List (Value F)} {parsed : Links} (hlinks : ParsedLinks links parsed)
    {advertise : Address} {binding : Text × Network} {found next : List (Text × Network) × ℕ}
    {route : Value F} (h : routeEntry parsed advertise binding found route = .ok next) :
    found.1 ⊆ next.1 ∧ TakenRoute links binding.2 next.1 route ∧
      next.2 = found.2 + if isDefaultRoute route then 1 else 0 := by
  obtain ⟨-, h⟩ := raiseIf_bind_eq_ok.mp h
  obtain ⟨table, htable, h⟩ := bind_eq_ok.mp h
  obtain ⟨hknown, h⟩ := raiseIf_bind_eq_ok.mp h
  obtain ⟨network, hnetwork, h⟩ := bind_eq_ok.mp h
  obtain ⟨routeType, -, h⟩ := bind_eq_ok.mp h
  have hdefault : isDefaultRoute route = decide (network.prefixlen = 0) := by
    rw [isDefaultRoute, hnetwork]
  rw [not_not, Value.eq_text, Value.eq_text] at hknown
  have hlocal : table.eq (.text "local") = true ↔ table = .text "local" := Value.eq_text
  split at h
  · next heq =>
    rw [hlocal.mp heq] at htable
    obtain ⟨hbad, h⟩ := raiseIf_bind_eq_ok.mp h
    obtain rfl := Except.ok.inj h
    have hprefix : network.prefixlen ≠ 0 := fun hzero => hbad (.inl hzero)
    have hfalse : isDefaultRoute route = false := by simp [hdefault, hprefix]
    refine ⟨List.subset_append_left _ _, ⟨.inr htable, ⟨network, hnetwork, fun _ => ?_⟩, ?_, ?_⟩, ?_⟩
    · exact ⟨_, List.mem_append_right _ (List.mem_singleton_self _)⟩
    · intro hmain
      rw [htable] at hmain
      simp [Value.text] at hmain
    · intro htrue
      rw [hfalse] at htrue
      cases htrue
    · simp [hfalse]
  · next hne =>
    rw [hknown.resolve_left fun heq => hne (hlocal.mpr heq)] at htable
    obtain ⟨-, h⟩ := raiseIf_bind_eq_ok.mp h
    split at h
    · cases h
    · next interface hinterface =>
      obtain ⟨tunnel, htunnel, h⟩ := bind_eq_ok.mp h
      obtain ⟨hno, h⟩ := raiseIf_bind_eq_ok.mp h
      rw [Bool.not_eq_true] at hno
      rw [hno] at htunnel
      have hdev : ∃ name, route.get "dev" = .str name ∧ NoTunnel links name :=
        ⟨interface, (Value.filled?_eq_some.mp hinterface).1, noTunnel_of_linkIsTunnel hlinks htunnel⟩
      split at h
      · next hzero =>
        obtain ⟨_, hvalid, h⟩ := bind_eq_ok.mp h
        obtain rfl := Except.ok.inj h
        have htrue : isDefaultRoute route = true := by simp [hdefault, hzero]
        refine ⟨List.Subset.refl _, ⟨.inl htable, ⟨network, hnetwork, ?_⟩, fun _ => hdev,
          fun _ => gateway_of_validateDefaultRoute hvalid⟩, by simp [htrue]⟩
        intro hfalse
        rw [htrue] at hfalse
        cases hfalse
      · next hprefix =>
        obtain rfl := Except.ok.inj h
        have hfalse : isDefaultRoute route = false := by simp [hdefault, hprefix]
        refine ⟨List.subset_append_left _ _, ⟨.inl htable, ⟨network, hnetwork, fun _ => ?_⟩,
          fun _ => hdev, ?_⟩, by simp [hfalse]⟩
        · exact ⟨_, List.mem_append_right _ (List.mem_singleton_self _)⟩
        · intro htrue
          rw [hfalse] at htrue
          cases htrue

/-- The whole loop -/
theorem carry_routeEntry {links : List (Value F)} {parsed : Links} (hlinks : ParsedLinks links parsed)
    {advertise : Address} {binding : Text × Network} {networks : List (Text × Network)}
    {routes : List (Value F)} {final : List (Text × Network) × ℕ}
    (h : carry (routeEntry parsed advertise binding) (networks, 0) routes = .ok final) :
    networks ⊆ final.1 ∧ (∀ route ∈ routes, TakenRoute links binding.2 final.1 route) ∧
      final.2 = (routes.filter isDefaultRoute).length := by
  apply carry_invariant (fun seen found => networks ⊆ found.1 ∧
    (∀ route ∈ seen, TakenRoute links binding.2 found.1 route) ∧
      found.2 = (seen.filter isDefaultRoute).length) _ _ h
  · rintro seen found route next ⟨hsubset, hseen, hcount⟩ hroute
    obtain ⟨hgrow, htaken, hnext⟩ := routeEntry_eq_ok hlinks hroute
    refine ⟨fun n hn => hgrow (hsubset hn), ?_, ?_⟩
    · refine List.forall_mem_append.mpr ⟨?_, List.forall_mem_singleton.mpr htaken⟩
      exact fun old hold => (hseen old hold).mono hgrow
    · rw [List.filter_append, List.length_append, hnext, hcount]
      cases hdefault : isDefaultRoute route <;> simp [hdefault]
  · exact ⟨List.Subset.refl _, by simp, by simp⟩

/-! ## The run -/

/-- The configured networks are apart from all that the host reaches directly. -/
structure Separated (target : Target) (addresses links routes : List (Value F)) (lan : Network) :
    Prop where
  interfaces : ∀ name entry, IsInet addresses name entry →
    ∃ a network, interfaceNetwork entry = some (a, network) ∧ a ∈ network ∧ Apart target network
  tables : ∀ route ∈ routes, routeTable route = .ok (.text "main") ∨
    routeTable route = .ok (.text "local")
  destinations : ∀ route ∈ routes, ∃ network, parseRouteNetwork (route.get "dst") = .ok network ∧
    (isDefaultRoute route = false → Apart target network)
  disjoint : ∀ a ∈ target.pod, a ∉ target.service
  advertise : ∃ name entry, IsInet addresses name entry ∧
    interfaceNetwork entry = some (target.advertise, lan) ∧ target.advertise ∈ lan
  noTunnel : ∀ route ∈ routes, routeTable route = .ok (.text "main") →
    ∃ name, route.get "dev" = .str name ∧ NoTunnel links name
  defaultRoute : (routes.filter isDefaultRoute).length ≤ 1
  gateway : ∀ route ∈ routes, isDefaultRoute route = true →
    ∃ gateway, (route.get? "gateway").bind ipAddress = some gateway ∧ gateway ∈ lan

variable [Numerals F]

/-- An exit with status 0 means that every query gave a list, and that the configured networks are
apart from what these lists say. -/
theorem separated_of_main {text : List Char} {evidence : Evidence F} (h : main text evidence = 0) :
    ∃ target addresses links routes lan, configured text = .ok target ∧
      evidence.addresses = some (.arr addresses) ∧ evidence.links = some (.arr links) ∧
        evidence.routes = some (.arr routes) ∧ Separated target addresses links routes lan := by
  unfold main at h
  split at h
  · next hrun =>
    obtain ⟨target, htarget, hrun⟩ := bind_eq_ok.mp hrun
    obtain ⟨current, hcurrent, hrun⟩ := bind_eq_ok.mp hrun
    obtain ⟨hdisjoint, hclear⟩ := apart_of_failures (Except.ok.inj hrun)
    obtain ⟨addressList, haddresses, hcurrent⟩ := bind_eq_ok.mp hcurrent
    obtain ⟨linkList, hlinks, hcurrent⟩ := bind_eq_ok.mp hcurrent
    obtain ⟨parsed, hparsed, hcurrent⟩ := bind_eq_ok.mp hcurrent
    obtain ⟨rules, -, hcurrent⟩ := bind_eq_ok.mp hcurrent
    obtain ⟨_, -, hcurrent⟩ := bind_eq_ok.mp hcurrent
    obtain ⟨routeList, hroutes, hcurrent⟩ := bind_eq_ok.mp hcurrent
    obtain ⟨routes, hrouteItems, hcurrent⟩ := bind_eq_ok.mp hcurrent
    obtain ⟨⟨networks, binding⟩, hnetworks, hcurrent⟩ := bind_eq_ok.mp hcurrent
    obtain ⟨final, hfinal, hcurrent⟩ := bind_eq_ok.mp hcurrent
    obtain ⟨hcount, hcurrent⟩ := raiseIf_bind_eq_ok.mp hcurrent
    obtain rfl := Except.ok.inj hcurrent
    obtain ⟨links, hlinkItems, hparsed⟩ := bind_eq_ok.mp hparsed
    rw [(requireJsonList_eq_ok.mp hlinkItems).1] at hlinks
    rw [(requireJsonList_eq_ok.mp hrouteItems).1] at hroutes
    obtain ⟨addresses, rfl, hcollected⟩ := collected_of_parseAddresses hnetworks
    have hknown := parsedLinks_of_carry hparsed
    obtain ⟨hsubset, htaken, hlength⟩ := carry_routeEntry hknown hfinal
    refine ⟨target, addresses, links, routes, binding.2, htarget, ipJson_eq_ok.mp haddresses,
      ipJson_eq_ok.mp hlinks, ipJson_eq_ok.mp hroutes, ?_⟩
    constructor
    · intro name entry hinet
      obtain ⟨a, network, hnetwork, source, hmem⟩ :=
        hcollected.networks _ (mem_flatMap_entriesOf.mpr hinet)
      exact ⟨a, network, hnetwork, mem_of_interfaceNetwork hnetwork, hclear _ (hsubset hmem)⟩
    · exact fun route hroute => (htaken route hroute).table
    · intro route hroute
      obtain ⟨network, hnetwork, hmem⟩ := (htaken route hroute).network
      refine ⟨network, hnetwork, fun hdefault => ?_⟩
      obtain ⟨source, hsource⟩ := hmem hdefault
      exact hclear _ hsource
    · exact hdisjoint
    · obtain ⟨e, he, -, hnetwork⟩ := hcollected.bindings binding (List.mem_singleton_self _)
      exact ⟨e.1, e.2, mem_flatMap_entriesOf.mp he, hnetwork, mem_of_interfaceNetwork hnetwork⟩
    · exact fun route hroute => (htaken route hroute).noTunnel
    · rw [← hlength]
      exact Nat.le_of_not_lt hcount
    · exact fun route hroute => (htaken route hroute).gateway
  · cases h

end Evidence

/-! ## A sample -/

namespace Sample

/-- Decimals without a sign, and no floats. -/
@[reducible] def numerals : Numerals (List Char) where
  ofText t := (PythonText.canonicalDecimal (chars t)).map Int.ofNat
  ofFloat _ := none
  ofText_decimal n := by
    have hchars : chars (.scalar (toString n)) = Nat.toDigits 10 n := by
      simp [chars, Text.points, Function.comp_def, Char.ofNat_toNat, Nat.repr]
    rw [hchars, PythonText.canonicalDecimal_eq_some.mpr rfl]
    rfl

def config : List Char :=
  "  podSubnet: 10.244.0.0/16\n  serviceSubnet: 10.96.0.0/12\n  advertiseAddress: 192.168.1.10\n".toList

def dict (fields : List (String × Value (List Char))) : Value (List Char) :=
  .obj (fields.map fun f => (.scalar f.1, f.2))

def address (name text : String) (prefixlen : ℤ) : Value (List Char) :=
  dict [("addr_info", .arr [dict
    [("family", .text "inet"), ("local", .text text), ("prefixlen", .int prefixlen)]]),
    ("ifname", .text name)]

def rule (priority : ℤ) (table : String) : Value (List Char) :=
  dict [("priority", .int priority), ("src", .text "all"), ("table", .text table)]

def addresses : List (Value (List Char)) := [address "lo" "127.0.0.1" 8, address "eth0" "192.168.1.10" 24]

def links : List (Value (List Char)) :=
  [dict [("ifname", .text "lo"), ("link_type", .text "loopback")],
    dict [("ifname", .text "eth0"), ("link_type", .text "ether")]]

def routes : List (Value (List Char)) :=
  [dict [("dev", .text "eth0"), ("dst", .text "default"), ("gateway", .text "192.168.1.1")],
    dict [("dev", .text "eth0"), ("dst", .text "192.168.1.0/24")],
    dict [("dst", .text "192.168.1.10"), ("table", .text "local"), ("type", .text "local")]]

/-- A host with one interface, whose router is on its network -/
def evidence : Evidence (List Char) where
  addresses := some (.arr addresses)
  links := some (.arr links)
  rules := some (.arr [rule 0 "local", rule 32766 "main", rule 32767 "default"])
  routes := some (.arr routes)

theorem main_evidence :
    @main (List Char) _ ProtectedHost.asciiLowering Regex.asciiCharacters numerals config evidence = 0 := by
  decide +kernel

end Sample

theorem separated_of_main_sample : ∃ target addresses links routes lan,
    configured Sample.config = .ok target ∧
      Sample.evidence.addresses = some (.arr addresses) ∧ Sample.evidence.links = some (.arr links) ∧
        Sample.evidence.routes = some (.arr routes) ∧
          @Separated (List Char) _ ProtectedHost.asciiLowering Regex.asciiCharacters target addresses
            links routes lan :=
  @separated_of_main (List Char) _ ProtectedHost.asciiLowering Regex.asciiCharacters Sample.numerals
    Sample.config Sample.evidence Sample.main_evidence

end PiNetwork
