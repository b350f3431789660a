import Mathlib
import WebsiteInfrastructure.Library.Jq

/-!
# The account audit

Every check reads what the API answered through the filters of the script and gives its findings.
The answers are inputs: any JSON document, or none. As the audit runs on the left of `||`, a filter
that fails does not end it; what the filter should have printed is then empty.
-/

namespace AccountAudit

open ShellText Jq Jq.Value

/-! ## The target state -/

inductive Site
  | naranjoOnline
  | liderseaCom
  deriving DecidableEq

def Site.zone : Site → String
  | .naranjoOnline => "naranjo.online"
  | .liderseaCom => "lidersea.com"

def Site.tunnel : Site → String
  | .naranjoOnline => "naranjo-online"
  | .liderseaCom => "lidersea-com"

def Site.origin : Site → String
  | .naranjoOnline => "http://naranjo-online.naranjo-online.svc.cluster.local:8080"
  | .liderseaCom => "http://lidersea-com.lidersea-com.svc.cluster.local:8080"

def Site.dnssec : Site → String
  | .naranjoOnline => "active"
  | .liderseaCom => "disabled"

/-- The zone settings that are compared with one value. -/
inductive Setting
  | alwaysUseHttps
  | minTlsVersion
  | tls13
  | zeroRtt
  deriving DecidableEq

def Setting.name : Setting → String
  | .alwaysUseHttps => "always_use_https"
  | .minTlsVersion => "min_tls_version"
  | .tls13 => "tls_1_3"
  | .zeroRtt => "0rtt"

def Setting.expected : Setting → String
  | .alwaysUseHttps => "on"
  | .minTlsVersion => "1.2"
  | .tls13 => "on"
  | .zeroRtt => "off"

def settings : List Setting := [.alwaysUseHttps, .minTlsVersion, .tls13, .zeroRtt]

/-! ## Requests -/

/-- The places of the script that send a request. -/
inductive Call
  | tokenVerify
  | tokenDetail
  | zone (site : Site)
  | accountSubscriptions
  | zonePlan (site : Site)
  | zoneSubscription (site : Site)
  | setting (site : Site) (setting : Setting)
  | ssl (site : Site)
  | securityHeader (site : Site)
  | dnssec (site : Site)
  | tunnels
  | tunnelConfiguration (site : Site)
  | tunnelConnections (site : Site)
  | privateRoutes
  | deviceProfiles
  | dnsRecords (site : Site)
  deriving DecidableEq

/-- What a request is answered with, by where it is sent from and its path. `none` is a transport
failure, an error status, or a body that is not JSON. -/
abbrev Api := Call → Text → Option Value

/-- `^/[A-Za-z0-9._~/?&=%:,+-]+$` -/
def validPath : Text → Bool
  | '/' :: c :: rest =>
    (c :: rest).all fun c => c.isAlphanum || "._~/?&=%:,+-".toList.contains c
  | _ => false

def apiGet (api : Api) (call : Call) (path : Text) : Option Value :=
  if validPath path then api call path else none

/-- `.success == true and has("result")` -/
def succeeded (response : Value) : Option Bool := do
  if (← response.field "success").isTrue then response.has "result" else some false

def apiObject (api : Api) (call : Call) (path : Text) : Option Value := do
  let response ← apiGet api call path
  if succeeded response = some true then some response else none

/-- What `api_collection` asks of `result_info`. -/
def infoComplete (info : Value) (count : ℕ) : Option Bool := do
  if info.isNull then some true
  else
    let hasPages ← info.has "total_pages"
    let pages ← if hasPages then (info.field "total_pages").map (atMost 1) else some true
    if pages then
      let hasCount ← info.has "count"
      if hasCount then (info.field "count").map (isNum count) else some true
    else some false

def collectionComplete (env : Env) (response : Value) : Option Bool := do
  if (← response.field "success").isTrue then
    match ← response.field "result" with
    | .arr items =>
      let info ← alt env (response.field "result_info") (some .null)
      infoComplete info items.length
    | _ => some false
  else some false

def apiCollection (env : Env) (api : Api) (call : Call) (path : Text) : Option Value := do
  let separator := if '?' ∈ path then "&".toList else "?".toList
  let response ← apiGet api call (path ++ separator ++ "per_page=100&page=1".toList)
  if collectionComplete env response = some true then some response else none

/-- The items of an accepted collection. -/
def resultItems (response : Value) : List Value := (((response.entry "result").bind items?)).getD []

/-! ## Paths -/

def zonesPath (site : Site) : Text := ("/zones?name=" ++ site.zone).toList

def tokenPath (id : Text) : Text := "/user/tokens/".toList ++ id

def accountPath (account : Text) (resource : String) : Text :=
  "/accounts/".toList ++ account ++ resource.toList

def zonePath (zone : Text) (resource : String) : Text :=
  "/zones/".toList ++ zone ++ resource.toList

def tunnelPath (account id : Text) (resource : String) : Text :=
  "/accounts/".toList ++ account ++ "/cfd_tunnel/".toList ++ id ++ resource.toList

/-! ## Findings -/

/-- A finding, by the name that its line begins with. -/
abbrev Finding := String

/-- One finding, unless the check is met. -/
def require (met : Bool) (finding : Finding) : List Finding := if met then [] else [finding]

/-- A filter of `jq -e` holds. -/
def holds (output : Option Bool) : Bool := output = some true

/-! ## The token -/

/-- `^[0-9a-f]{n}$` -/
def isHex (n : ℕ) (t : Text) : Bool :=
  t.length = n && t.all fun c => c.isDigit || ('a' ≤ c && c ≤ 'f')

/-- The permission groups of a policy that the filter selects, by what it prints of them. -/
def nonReadOfPolicy (env : Env) (policy : Value) : Option (List Value) := do
  let effect ← alt env (policy.field "effect") (some (.string "allow"))
  let groups ← policy.field "permission_groups"
  let selected ← select (fun group => do
    if !effect.isStr "allow".toList then some true
    else (← testEnd "Read" (← alt env (group.field "name") (some (.string "")))).not) groups.each
  selected.mapM fun group => alt env (group.field "name") (some (.string "unnamed"))

/-- The filter that collects what is not an allow of a Read permission. -/
def nonRead (env : Env) (detail : Value) : Option Text := do
  let policies ← (← detail.field "result").field "policies"
  let found ← policies.each.mapM (nonReadOfPolicy env)
  join env (unique found.flatten)

def tokenId (env : Env) (verify : Value) : Text :=
  captured env (alt env ((verify.field "result").bind (field "id")) (some (.string "")))

/-- The findings about the token, and whether the audit goes on. -/
def auditToken (env : Env) (api : Api) : List Finding × Bool :=
  match apiObject api .tokenVerify "/user/tokens/verify".toList with
  | none => (["token-verify"], false)
  | some verify =>
    let status := captured env
      (alt env ((verify.field "result").bind (field "status")) (some (.string "unknown")))
    let active := require (status = "active".toList) "token-verify"
    let id := tokenId env verify
    if !isHex 32 id then (active ++ ["token-scope"], true)
    else
      match apiObject api .tokenDetail (tokenPath id) with
      | none => (active ++ ["token-scope"], true)
      | some detail =>
        let expiry := captured env
          (alt env ((detail.field "result").bind (field "expires_on")) (some (.string "")))
        (active ++ require (capturedText (nonRead env detail) = []) "token-scope" ++
          require (expiry ≠ []) "token-expiry", true)

/-! ## Zones -/

/-- `"a" + "b"` -/
def concat : Option Value → Option Value → Option Text
  | some (.str a), some (.str b) => some (a ++ [' '] ++ b)
  | _, _ => none

/-- The identifiers of a zone and its account, or nothing. -/
def zoneIdentity (env : Env) (api : Api) (site : Site) : Text :=
  match apiCollection env api (.zone site) (zonesPath site) with
  | none => []
  | some zones =>
    if (resultItems zones).length ≠ 1 then []
    else
      let zone := (resultItems zones).headD .null
      capturedText (concat (alt env (zone.field "id") (some (.string "")))
        (alt env ((zone.field "account").bind (field "id")) (some (.string ""))))

/-- `${identity%% *}` -/
def zoneId (identity : Text) : Text := identity.takeWhile (· ≠ ' ')

/-- `${identity##* }` -/
def accountId (identity : Text) : Text := dropThroughLast ' ' identity

/-- A subscription that is not named Free, not zero-priced, or a trial. -/
def paidSubscription (env : Env) (subscription : Value) : Option Bool := do
  let price ← alt env (subscription.field "price") (some (.num 0))
  if !price.isNum 0 then some true
  else
    let plan := subscription.field "rate_plan"
    let name ← alt env (plan.bind (field "public_name"))
      (alt env (plan.bind (field "name")) (some (.string "")))
    if !(← testIgnoringCase "free" name) then some true
    else return (← alt env (subscription.field "trial") (some (.bool false))).isTrue

def auditAccountSubscriptions (env : Env) (api : Api) (account : Text) : List Finding :=
  match apiCollection env api .accountSubscriptions (accountPath account "/subscriptions") with
  | none => ["account-subscriptions"]
  | some response =>
    require ((select (paidSubscription env) (resultItems response)).map List.length = some 0)
      "account-subscriptions"

/-- The free plan, with a price of zero. -/
def freeSubscription (env : Env) (subscription : Value) : Option Bool := do
  let result ← subscription.field "result"
  let plan ← alt env ((result.field "rate_plan").bind (field "id")) (some (.string ""))
  if plan.isStr "free".toList then return (← result.field "price").isNum 0 else some false

def auditZonePlan (env : Env) (api : Api) (site : Site) (zone : Text) : List Finding :=
  match apiCollection env api (.zonePlan site) (zonesPath site) with
  | none => ["zone-plan[" ++ site.zone ++ "]"]
  | some zones =>
    let record := (resultItems zones).headD .null
    let plan := captured env
      (alt env ((record.field "plan").bind (field "name")) (some (.string "unknown")))
    let named := require (starts "Free" plan) ("zone-plan[" ++ site.zone ++ "]")
    match apiObject api (.zoneSubscription site) (zonePath zone "/subscription") with
    | none => named ++ ["zone-subscription[" ++ site.zone ++ "]"]
    | some subscription =>
      named ++ require (holds (freeSubscription env subscription))
        ("zone-subscription[" ++ site.zone ++ "]")

/-! ## Settings -/

def settingPath (zone : Text) (setting : String) : Text := zonePath zone ("/settings/" ++ setting)

def settingFinding (site : Site) (setting : String) : Finding :=
  "zone-setting[" ++ site.zone ++ "/" ++ setting ++ "]"

/-- `.result.value` as text -/
def settingValue (env : Env) (response : Value) : Text :=
  captured env ((response.field "result").bind (field "value"))

def auditSetting (env : Env) (api : Api) (site : Site) (zone : Text) (setting : Setting) :
    List Finding :=
  match apiObject api (.setting site setting) (settingPath zone setting.name) with
  | none => [settingFinding site setting.name]
  | some response =>
    require (settingValue env response = setting.expected.toList) (settingFinding site setting.name)

def auditSslMode (env : Env) (api : Api) (site : Site) (zone : Text) : List Finding :=
  match apiObject api (.ssl site) (settingPath zone "ssl") with
  | none => [settingFinding site "ssl"]
  | some response =>
    let value := settingValue env response
    require (value = "full".toList || value = "strict".toList) (settingFinding site "ssl")

def auditManagedHsts (env : Env) (api : Api) (site : Site) (zone : Text) : List Finding :=
  match apiObject api (.securityHeader site) (settingPath zone "security_header") with
  | none => [settingFinding site "security_header"]
  | some response =>
    let enabled := do
      let value ← (← response.field "result").field "value"
      (← value.field "strict_transport_security").field "enabled"
    require (captured env (alt env enabled (some (.bool false))) = "false".toList)
      (settingFinding site "managed-hsts")

def auditZoneSettings (env : Env) (api : Api) (site : Site) (zone : Text) : List Finding :=
  settings.flatMap (auditSetting env api site zone) ++ auditSslMode env api site zone ++
    auditManagedHsts env api site zone

def auditDnssec (env : Env) (api : Api) (site : Site) (zone : Text) : List Finding :=
  match apiObject api (.dnssec site) (zonePath zone "/dnssec") with
  | none => ["zone-dnssec[" ++ site.zone ++ "]"]
  | some response =>
    let status := captured env
      (alt env ((response.field "result").bind (field "status")) (some (.string "unknown")))
    require (status = site.dnssec.toList) ("zone-dnssec[" ++ site.zone ++ "]")

/-! ## Tunnels -/

/-- The names of the Tunnels, joined. -/
def tunnelNames (env : Env) (tunnels : List Value) : Option Text := do
  let names ← tunnels.mapM (field "name")
  join env (sort names)

/-- The findings about the inventory, and the inventory that the later checks read. -/
def auditTunnels (env : Env) (api : Api) (account : Text) : List Finding × List Value :=
  match apiCollection env api .tunnels (accountPath account "/cfd_tunnel?is_deleted=false") with
  | none => (["tunnel-inventory"], [])
  | some response =>
    let tunnels := resultItems response
    (require (tunnels.length = 2 && capturedText (tunnelNames env tunnels) =
      (Site.liderseaCom.tunnel ++ "," ++ Site.naranjoOnline.tunnel).toList) "tunnel-inventory",
      tunnels)

/-- The Tunnels of a name. -/
def tunnelsNamed (name : String) (tunnels : List Value) : Option (List Value) :=
  select (fun tunnel => (tunnel.field "name").map (isStr name.toList)) tunnels

def tunnelIdFor (env : Env) (tunnels : List Value) (site : Site) : Text :=
  captured env (do
    match ← tunnelsNamed site.tunnel tunnels with
    | [tunnel] => alt env (tunnel.field "id") (some (.string ""))
    | _ => some (.string ""))

/-- `^[0-9a-f]{8}-[0-9a-f]{4}-[0-9a-f]{4}-[0-9a-f]{4}-[0-9a-f]{12}$` -/
def isUuid (t : Text) : Bool :=
  match t.splitOn '-' with
  | [a, b, c, d, e] => isHex 8 a && isHex 4 b && isHex 4 c && isHex 4 d && isHex 12 e
  | _ => false

/-- Exactly one rule for the hostname, and the terminal rule. -/
def ingressExact (site : Site) (config : Value) : Option Bool := do
  match ← (← (← config.field "result").field "config").field "ingress" with
  | .arr [rule, terminal] =>
    if !(← rule.field "hostname").isStr site.zone.toList then some false
    else if !(← rule.field "service").isStr site.origin.toList then some false
    else if ← terminal.has "hostname" then some false
    else return (← terminal.field "service").isStr "http_status:404".toList
  | _ => some false

/-- A connector without live connections. -/
def idleConnector (env : Env) (connector : Value) : Option Bool := do
  let conns ← alt env (connector.field "conns") (some (.arr []))
  return (← conns.size) = 0

def auditTunnelDetail (env : Env) (api : Api) (account : Text) (tunnels : List Value)
    (site : Site) : List Finding :=
  let finding := "tunnel[" ++ site.tunnel ++ "]"
  let id := tunnelIdFor env tunnels site
  if !isUuid id then [finding]
  else
    let ingress :=
      match apiObject api (.tunnelConfiguration site) (tunnelPath account id "/configurations") with
      | none => [finding]
      | some config => require (holds (ingressExact site config)) finding
    match apiObject api (.tunnelConnections site) (tunnelPath account id "/connections") with
    | none => ingress ++ [finding]
    | some connections =>
      let idle := do
        let result ← connections.field "result"
        select (idleConnector env) result.each
      ingress ++ require (idle.map List.length = some 0) finding

/-- A device profile that is not the default one. -/
def customProfile (env : Env) (profile : Value) : Option Bool := do
  return (← alt env (profile.field "default") (some (.bool false))).isFalse

def auditNoPrivateNetwork (env : Env) (api : Api) (account : Text) : List Finding :=
  let routes :=
    match apiCollection env api .privateRoutes
      (accountPath account "/teamnet/routes?is_deleted=false") with
    | none => ["private-routes"]
    | some response => require ((resultItems response).length = 0) "private-routes"
  let profiles :=
    match apiCollection env api .deviceProfiles (accountPath account "/devices/policies") with
    | none => ["warp-profiles"]
    | some response =>
      require ((select (customProfile env) (resultItems response)).map List.length = some 0)
        "warp-profiles"
  routes ++ profiles

/-! ## DNS -/

/-- An address record. -/
def addressRecord (record : Value) : Option Bool := do
  let type ← record.field "type"
  return type.isStr "A".toList || type.isStr "AAAA".toList

/-- A CNAME record of the apex. -/
def apexCname (site : Site) (record : Value) : Option Bool := do
  if (← record.field "name").isStr site.zone.toList then
    return (← record.field "type").isStr "CNAME".toList
  else some false

/-- The proxied CNAME record of the apex with automatic TTL, to a target. -/
def exactCname (site : Site) (target : Text) (record : Value) : Option Bool := do
  if !(← record.field "name").isStr site.zone.toList then some false
  else if !(← record.field "type").isStr "CNAME".toList then some false
  else if !(← record.field "content").isStr target then some false
  else if !(← record.field "proxied").isTrue then some false
  else return (← record.field "ttl").isNum 1

/-- The types of the records beyond the apex CNAME. -/
def unexpectedTypes (env : Env) (site : Site) (records : List Value) : Option Text := do
  let others ← select (fun record => (apexCname site record).map (!·)) records
  let types ← others.mapM (field "type")
  join env (unique (sort types))

def tunnelTarget (id : Text) : Text := id ++ ".cfargotunnel.com".toList

def auditDnsRecords (env : Env) (api : Api) (site : Site) (zone id : Text) : List Finding :=
  let finding := "zone-dns[" ++ site.zone ++ "]"
  match apiCollection env api (.dnsRecords site) (zonePath zone "/dns_records") with
  | none => [finding]
  | some response =>
    let records := resultItems response
    let address := require ((select addressRecord records).map List.length = some 0) finding
    let apex :=
      if id = [] then [finding]
      else require ((select (exactCname site (tunnelTarget id)) records).map List.length = some 1)
        finding
    address ++ apex ++ require (capturedText (unexpectedTypes env site records) = []) finding

/-! ## The run -/

/-- The findings after the token and the two zones are known. -/
def auditAccount (env : Env) (api : Api) (identityA identityB : Text) : List Finding :=
  let zoneA := zoneId identityA
  let account := accountId identityA
  let zoneB := zoneId identityB
  let inventory := auditTunnels env api account
  require (account = accountId identityB) "zone-identity" ++
    auditAccountSubscriptions env api account ++
    auditZonePlan env api .naranjoOnline zoneA ++ auditZonePlan env api .liderseaCom zoneB ++
    auditZoneSettings env api .naranjoOnline zoneA ++
    auditZoneSettings env api .liderseaCom zoneB ++
    auditDnssec env api .naranjoOnline zoneA ++ auditDnssec env api .liderseaCom zoneB ++
    inventory.1 ++
    auditTunnelDetail env api account inventory.2 .naranjoOnline ++
    auditTunnelDetail env api account inventory.2 .liderseaCom ++
    auditNoPrivateNetwork env api account ++
    auditDnsRecords env api .naranjoOnline zoneA (tunnelIdFor env inventory.2 .naranjoOnline) ++
    auditDnsRecords env api .liderseaCom zoneB (tunnelIdFor env inventory.2 .liderseaCom)

/-- The exit status of the audit. -/
def runAudit (env : Env) (api : Api) : ℕ :=
  let (token, proven) := auditToken env api
  if !proven then 1
  else
    let identityA := zoneIdentity env api .naranjoOnline
    let identityB := zoneIdentity env api .liderseaCom
    if identityA = [] ∨ identityB = [] then 1
    else if (token ++ auditAccount env api identityA identityB) = [] then 0 else 1

end AccountAudit
