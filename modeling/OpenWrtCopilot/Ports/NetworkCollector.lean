import OpenWrtCopilot.Ports.ClientMedia
import OpenWrtCopilot.Ports.CollectorContext

/-!
# The network status

Ports `_default_route`, `_dns_servers` and `_state_for_snapshot` of the network
collector: where the default gateway, the uplink and the resolvers come from, and
what of them is left in the scratch state.  A route of `ubus call network.route dump`
is passed on with whatever JSON stands in its fields.
-/

namespace OpenWrtCopilot.Ports.NetworkCollector

open Verified
open Verified.PyText
open Ports.ClientMedia
open Ports.CollectorContext

/-! ## The default route -/

/-- `parts[parts.index(word) + 1]`, if the word is there. -/
def following (word : Text) (parts : List Text) : Except Text (Option Text) :=
  match parts.dropWhile (· ≠ word) with
  | [] => .ok none
  | [_] => .error "list index out of range".toList
  | _ :: next :: _ => .ok (some next)

/-- The gateway and the device of the first default route in a table, if there is one. -/
def routeOfLines (ipv4 : Bool) : List Text → Except Text (Option (Option Text × Option Text))
  | [] => .ok none
  | line :: lines =>
      let parts := words line
      if parts.length < 2 ∨ parts.head? ≠ some "default".toList then routeOfLines ipv4 lines
      else
        match following "dev" parts, following "via" parts with
        | .error e, _ => .error e
        | .ok _, .error e => .error e
        | .ok device, .ok gateway =>
            if gateway = none ∧ parts[1]? ≠ some "dev".toList then .ok (some (none, device))
            else if ipv4 ∨ gateway ≠ none ∨ device ≠ none then .ok (some (gateway, device))
            else routeOfLines ipv4 lines

/-- A route of `ubus call network.route dump`, with the fields that are read. -/
structure UbusRoute where
  target : JsonValue
  family : Option Int
  nexthop : JsonValue
  dev : JsonValue

def UbusRoute.isDefault (route : UbusRoute) : Bool :=
  (route.target = .text "0.0.0.0" || route.target = .text "default") && route.family = some 4

def JsonValue.ofText : Option Text → JsonValue
  | none => .null
  | some value => .text value

/-- `_default_route`; `decodeRoutes` is `json.loads` with the fields of the routes. -/
def defaultRoute (decodeRoutes : Text → Option (List UbusRoute)) :
    Collecting (JsonValue × JsonValue) := do
  let table ← sh "ip -o route show default"
  match ← Program.ofExcept (routeOfLines true (splitlines table)) with
  | some (gateway, device) => pure (JsonValue.ofText gateway, JsonValue.ofText device)
  | none =>
      let table ← sh "ip -o -6 route show default"
      match ← Program.ofExcept (routeOfLines false (splitlines table)) with
      | some (gateway, device) => pure (JsonValue.ofText gateway, JsonValue.ofText device)
      | none =>
          match ← (ubusCall decodeRoutes "network.route" "dump").outcome with
          | .error _ => pure (.null, .null)
          | .ok routes =>
              match routes.find? UbusRoute.isDefault with
              | some route => pure (route.nexthop, route.dev)
              | none => pure (.null, .null)

/-! ## The scratch state -/

/-- `_dns_servers`. -/
def dnsServers : Collecting (List Text) := do
  let raw ← sh ("cat /etc/resolv.conf 2>/dev/null; cat /tmp/resolv.conf.d/*.auto ".toList ++
    "/tmp/resolv.conf.d/*.conf 2>/dev/null || true".toList)
  pure ((splitlines raw).foldl (fun servers line =>
    match words line with
    | keyword :: server :: _ =>
        if keyword = "nameserver".toList ∧ server ∉ servers then servers ++ [server] else servers
    | _ => servers) [])

/-- `WAN_PROTOS`. -/
def wanProtos : List Text :=
  ["dhcp", "dhcpv6", "pppoe", "ppp", "qmi", "wwan", "wwan6", "3g", "lte"]

/-- `_state_for_snapshot`. -/
def stateForSnapshot (interfaces : List NetworkInterface) (gateway device : JsonValue)
    (netifdDns : List Text) : Collecting Unit := do
  let wanInterface :=
    if device = .null then
      JsonValue.ofText ((interfaces.find? fun i => i.proto.any wanProtos.contains).map (·.name))
    else device
  let dns ← if netifdDns = [] then dnsServers else pure netifdDns
  Program.update fun state =>
    { state with
      networkStatus := some { gateway := gateway, dns := dns, wanInterface := wanInterface } }

/-- `collect` on a router that lists no interfaces: `ubus` has no dump of them, and
`ip -o addr show` prints nothing. -/
def collectBare (decodeRoutes : Text → Option (List UbusRoute)) :
    Collecting (List NetworkInterface) := do
  let _ ← (ubusCall (fun _ => (none : Option Unit)) "network.interface" "dump").outcome
  let _ ← sh "ip -o addr show"
  let (gateway, device) ← defaultRoute decodeRoutes
  stateForSnapshot [] gateway device []
  pure []

end OpenWrtCopilot.Ports.NetworkCollector
