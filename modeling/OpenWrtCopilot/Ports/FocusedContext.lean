import OpenWrtCopilot.Ports.ContextSections
import OpenWrtCopilot.Ports.DhcpCollector
import OpenWrtCopilot.Ports.RouterAgentFirewall
import OpenWrtCopilot.Ports.RouterContext
import OpenWrtCopilot.Verified.PyValue

/-!
# The focused context

Ports the pruners, `build_availability_manifest` and `build_focused_context` of
`router_context_policy`: what of a snapshot a model is shown for a message.

The records have the fields that are read here.  `str.lower` and `is_private` of
`ipaddress.ip_address` are parameters.

## Main results

* `buildFocusedContext_congr` — the context depends on the selected sections, the manifest and,
  for a client section, the client media only.
* `focused_iff` — which messages get a context of the sections they name, and of nothing else.
* `description_unfocused` — a message that does not.
-/

namespace OpenWrtCopilot.Ports.FocusedContext

open Verified
open Verified.PyText
open Verified.UciReading (WordClass asciiWords)
open Ports.ContextSections
open Ports.ClientMedia (DhcpLease ArpEntry NeighborEntry)
open Ports.DhcpCollector (DhcpPool DhcpStaticLease)
open Ports.NetworkCollector (wanProtos)
open Ports.RouterAgent (FirewallDefaults FirewallZone FirewallRule)
open Ports.RouterContext (MemoryInfo Family WifiRadio)
open Ports.Snapshot (KernelInfo NetworkStatus CollectError)

/-! ## Snapshots -/

/-- What the standard library does with texts: `str.lower`, and `is_private` of
`ipaddress.ip_address`, where that does not raise a `ValueError`. -/
structure Texts where
  lower : Text → Text
  isPrivate : Text → Option Bool

structure CpuInfo extends RouterContext.CpuInfo where
  model : Option Text := none

structure StorageMount extends RouterContext.StorageMount where
  availableBytes : Option Int := none

structure NetworkAddress where
  address : Text
  length : Int := 0
  family : Family
  isPublic : Option Bool := none

structure NetworkInterface where
  name : Text
  up : Bool := false
  proto : Option Text := none
  device : Option Text := none
  rxBytes : Option Int := none
  txBytes : Option Int := none
  isBridge : Bool := false
  gateway : Option Text := none
  addresses : List NetworkAddress := []

structure WifiClient where
  mac : Text
  ssid : Option Text := none
  signalDbm : Option Int := none
  interface : Option Text := none

structure WifiInfo where
  radios : List WifiRadio := []
  clients : List WifiClient := []

structure FirewallInfo where
  zones : List FirewallZone := []
  rules : List FirewallRule := []
  defaults : FirewallDefaults := {}

structure VpnTunnel where
  name : Text
  kind : Text
  up : Bool := false
  enabled : Bool := true
  endpoint : Option Text := none
  addresses : List Text := []
  peerCount : Int := 0

structure DhcpInfo where
  pools : List DhcpPool := []
  staticLeases : List DhcpStaticLease := []
  enabled : Bool := true
  gateway : Option Text := none
  dns : List Text := []
  domain : Option Text := none

structure Package where
  name : Text
  version : Text := []

structure ServiceInfo where
  name : Text
  running : Bool := false
  enabled : Bool := false

structure LogEntry where
  timestamp : Option Text := none
  facility : Option Text := none
  priority : Option Text := none
  ident : Option Text := none
  message : Text := []

structure LogInfo where
  entries : List LogEntry := []

structure DeviceSnapshot where
  cpu : Option CpuInfo := none
  memory : Option MemoryInfo := none
  storage : List StorageMount := []
  network : List NetworkInterface := []
  networkStatus : Option NetworkStatus := none
  firewall : FirewallInfo := {}
  wifi : WifiInfo := {}
  clients : List DhcpLease := []
  arp : List ArpEntry := []
  neighbors : List NeighborEntry := []
  clientMedia : List (Text × Text) := []
  vpn : List VpnTunnel := []
  dhcp : DhcpInfo := {}
  packages : List Package := []
  services : List ServiceInfo := []
  kernel : KernelInfo := {}
  logs : LogInfo := {}
  errors : List CollectError := []

/-! ## Pruners -/

def textOrNone (t : Option Text) : PyValue := t.elim .none .str
def intOrNone (n : Option Int) : PyValue := n.elim .none .int
def floatOrNone (x : Option PyFloat) : PyValue := x.elim .none .float
def texts (ts : List Text) : PyValue := .list (ts.map .str)

def Family.text : Family → Text
  | .ipv4 => "ipv4".toList
  | .ipv6 => "ipv6".toList

/-- A dictionary that is written out, with its keys as literals. -/
def record (entries : List (String × PyValue)) : PyValue :=
  .dict (entries.map fun entry => (entry.1.toList, entry.2))

/-- `_prune_kernel`. -/
def pruneKernel (kernel : KernelInfo) : Option PyValue :=
  some (record
    [("hostname", .str kernel.hostname), ("model", .str kernel.model),
      ("board", .str kernel.board), ("architecture", .str kernel.architecture),
      ("kernel", .str kernel.kernel), ("release", .str kernel.release),
      ("release_version", textOrNone kernel.releaseVersion),
      ("revision", textOrNone kernel.revision), ("target", textOrNone kernel.target)])

/-- `_prune_cpu`. -/
def pruneCpu (cpu : Option CpuInfo) : Option PyValue :=
  cpu.map fun cpu =>
    record
      [("usage_percent", floatOrNone cpu.usagePercent), ("cores", .int cpu.cores),
        ("load_1", .float cpu.load1), ("load_5", .float cpu.load5),
        ("load_15", .float cpu.load15), ("uptime_seconds", .float cpu.uptimeSeconds),
        ("model", textOrNone cpu.model)]

/-- `_prune_memory`. -/
def pruneMemory (memory : Option MemoryInfo) : Option PyValue :=
  memory.map fun memory =>
    record
      [("total_kb", .int memory.totalKb), ("used_kb", .int memory.usedKb),
        ("free_kb", .int memory.freeKb), ("available_kb", intOrNone memory.availableKb),
        ("cached_kb", intOrNone memory.cachedKb)]

/-- `_prune_storage`. -/
def pruneStorage (storage : List StorageMount) : Option PyValue :=
  some (.list (storage.map fun mount =>
    record
      [("mountpoint", .str mount.mountpoint), ("filesystem", .str mount.filesystem),
        ("total_bytes", intOrNone mount.totalBytes), ("used_bytes", intOrNone mount.usedBytes),
        ("available_bytes", intOrNone mount.availableBytes),
        ("use_percent", floatOrNone mount.usePercent)]))

/-- `_prune_network`. -/
def pruneNetwork (network : List NetworkInterface) : Option PyValue :=
  some (.list (network.map fun iface =>
    record
      [("name", .str iface.name), ("up", .bool iface.up), ("proto", textOrNone iface.proto),
        ("device", textOrNone iface.device), ("gateway", textOrNone iface.gateway),
        ("is_bridge", .bool iface.isBridge),
        ("addresses", .list (iface.addresses.map fun addr =>
          record
            [("address", .str addr.address), ("prefix", .int addr.length),
              ("family", .str (Family.text addr.family))]))]))

/-- `_prune_network_status`. -/
def pruneNetworkStatus (status : Option NetworkStatus) : Option PyValue :=
  status.map fun status =>
    record
      [("gateway", textOrNone status.gateway), ("dns", texts status.dns),
        ("wan_interface", textOrNone status.wanInterface)]

/-- `_prune_wifi`. -/
def pruneWifi (wifi : WifiInfo) : Option PyValue :=
  some (record
    [("radios", .list (wifi.radios.map fun radio =>
        record
          [("name", .str radio.name), ("up", .bool radio.up), ("band", textOrNone radio.band),
            ("channel", intOrNone radio.channel), ("ssid", textOrNone radio.ssid),
            ("station_count", .int radio.stationCount)])),
      ("clients", .list (wifi.clients.map fun client =>
        record
          [("mac", .str client.mac), ("ssid", textOrNone client.ssid),
            ("signal_dbm", intOrNone client.signalDbm),
            ("interface", textOrNone client.interface)])),
      ("client_count", .int (wifi.radios.map (·.stationCount)).sum)])

/-- The list of what is kept of each entry, where there are entries. -/
def pruneEntries {α : Type} (entry : α → PyValue) (entries : List α) : Option PyValue :=
  if entries = [] then none else some (.list (entries.map entry))

/-- `_prune_clients`. -/
def pruneClients : List DhcpLease → Option PyValue :=
  pruneEntries fun lease =>
    record
      [("hostname", .str lease.hostname), ("ip", .str lease.ip), ("mac", textOrNone lease.mac),
        ("expires", textOrNone lease.expires)]

/-- `_prune_arp`. -/
def pruneArp : List ArpEntry → Option PyValue :=
  pruneEntries fun entry =>
    record
      [("ip", .str entry.ip), ("mac", .str entry.mac), ("interface", .str entry.interface),
        ("state", .str entry.state)]

/-- `_prune_neighbors`. -/
def pruneNeighbors : List NeighborEntry → Option PyValue :=
  pruneEntries fun entry =>
    record
      [("ip", .str entry.ip), ("mac", textOrNone entry.mac),
        ("interface", textOrNone entry.interface), ("state", textOrNone entry.state)]

/-- `_prune_firewall`. -/
def pruneFirewall (firewall : FirewallInfo) : Option PyValue :=
  some (record
    [("defaults", record
        [("input", textOrNone firewall.defaults.input),
          ("output", textOrNone firewall.defaults.output),
          ("forward", textOrNone firewall.defaults.forward),
          ("masquerade", .bool firewall.defaults.masquerade)]),
      ("zones", .list (firewall.zones.map fun zone =>
        record
          [("name", .str zone.name), ("input", textOrNone zone.input),
            ("output", textOrNone zone.output), ("forward", textOrNone zone.forward),
            ("masquerade", .bool zone.masquerade), ("network", texts zone.network)])),
      ("rules", .list (firewall.rules.map fun rule =>
        record
          [("name", .str rule.name), ("target", textOrNone rule.target),
            ("src", textOrNone rule.src), ("dest", textOrNone rule.dest),
            ("proto", textOrNone rule.proto), ("family", textOrNone rule.family),
            ("src_port", textOrNone rule.srcPort), ("dest_port", textOrNone rule.destPort),
            ("enabled", .bool rule.enabled)]))])

/-- `_prune_vpn`. -/
def pruneVpn (vpn : List VpnTunnel) : Option PyValue :=
  some (.list (vpn.map fun tunnel =>
    record
      [("name", .str tunnel.name), ("kind", .str tunnel.kind), ("up", .bool tunnel.up),
        ("enabled", .bool tunnel.enabled), ("endpoint", textOrNone tunnel.endpoint),
        ("addresses", texts tunnel.addresses), ("peer_count", .int tunnel.peerCount)]))

/-- `_prune_dhcp`. -/
def pruneDhcp (dhcp : DhcpInfo) : Option PyValue :=
  some (record
    [("enabled", .bool dhcp.enabled), ("domain", textOrNone dhcp.domain),
      ("gateway", textOrNone dhcp.gateway), ("dns", texts dhcp.dns),
      ("pools", .list (dhcp.pools.map fun pool =>
        record
          [("interface", textOrNone pool.interface), ("start", textOrNone pool.start),
            ("limit", intOrNone pool.limit), ("leasetime", textOrNone pool.leasetime),
            ("range_end", textOrNone pool.rangeEnd)])),
      ("static_leases", .list (dhcp.staticLeases.map fun lease =>
        record
          [("hostname", textOrNone lease.hostname), ("ip", textOrNone lease.ip),
            ("mac", textOrNone lease.mac), ("enabled", .bool lease.enabled)]))])

/-- `_prune_packages`. -/
def prunePackages : List Package → Option PyValue :=
  pruneEntries fun pkg => record [("name", .str pkg.name), ("version", .str pkg.version)]

/-- `_prune_services`. -/
def pruneServices : List ServiceInfo → Option PyValue :=
  pruneEntries fun service =>
    record
      [("name", .str service.name), ("running", .bool service.running),
        ("enabled", .bool service.enabled)]

/-- `_prune_logs`. -/
def pruneLogs (logs : LogInfo) : Option PyValue :=
  some (.list (logs.entries.map fun entry =>
    record
      [("timestamp", textOrNone entry.timestamp), ("facility", textOrNone entry.facility),
        ("priority", textOrNone entry.priority), ("ident", textOrNone entry.ident),
        ("message", .str entry.message)]))

/-! ## The table of pruners -/

/-- What a section of the snapshot is. -/
def Value : Section → Type
  | .kernel => KernelInfo
  | .cpu => Option CpuInfo
  | .memory => Option MemoryInfo
  | .storage => List StorageMount
  | .network => List NetworkInterface
  | .networkStatus => Option NetworkStatus
  | .wifi => WifiInfo
  | .clients => List DhcpLease
  | .firewall => FirewallInfo
  | .vpn => List VpnTunnel
  | .dhcp => DhcpInfo
  | .packages => List Package
  | .services => List ServiceInfo
  | .logs => LogInfo
  | .arp => List ArpEntry
  | .neighbors => List NeighborEntry

/-- `getattr(snapshot, section)`. -/
def DeviceSnapshot.section (snapshot : DeviceSnapshot) : (s : Section) → Value s
  | .kernel => snapshot.kernel
  | .cpu => snapshot.cpu
  | .memory => snapshot.memory
  | .storage => snapshot.storage
  | .network => snapshot.network
  | .networkStatus => snapshot.networkStatus
  | .wifi => snapshot.wifi
  | .clients => snapshot.clients
  | .firewall => snapshot.firewall
  | .vpn => snapshot.vpn
  | .dhcp => snapshot.dhcp
  | .packages => snapshot.packages
  | .services => snapshot.services
  | .logs => snapshot.logs
  | .arp => snapshot.arp
  | .neighbors => snapshot.neighbors

/-- `_PRUNERS`. -/
def pruner : (s : Section) → Value s → Option PyValue
  | .kernel => pruneKernel
  | .cpu => pruneCpu
  | .memory => pruneMemory
  | .storage => pruneStorage
  | .network => pruneNetwork
  | .networkStatus => pruneNetworkStatus
  | .wifi => pruneWifi
  | .clients => pruneClients
  | .firewall => pruneFirewall
  | .vpn => pruneVpn
  | .dhcp => pruneDhcp
  | .packages => prunePackages
  | .services => pruneServices
  | .logs => pruneLogs
  | .arp => pruneArp
  | .neighbors => pruneNeighbors

/-! ## The availability manifest -/

inductive Availability
  | available
  | notAvailable
  | unknown
  | error

def Availability.text : Availability → Text
  | .available => "available".toList
  | .notAvailable => "not_available".toList
  | .unknown => "unknown".toList
  | .error => "error".toList

/-- `_is_private_v4`. -/
def isPrivateV4 (T : Texts) (address : Text) : Bool :=
  address ≠ [] && (T.isPrivate address).getD false

/-- `build_availability_manifest`, as the category and the status of each entry. -/
def availability (T : Texts) (snapshot : DeviceSnapshot) : List (String × Availability) :=
  let errored (names : List String) : Bool :=
    names.any fun name => snapshot.errors.any fun entry => entry.collector = name.toList
  let orAvailable (names : List String) (available : Bool) : Availability :=
    if errored names then .error else if available then .available else .notAvailable
  let addresses := snapshot.network.flatMap fun iface => iface.addresses.map (iface, ·)
  let v4 := addresses.filter fun pair => pair.2.family = .ipv4
  let v6 := addresses.filter fun pair => pair.2.family = .ipv6
  let publicV4 := v4.filter fun pair => pair.2.isPublic = some true
  let wanV4 := v4.filter fun pair => pair.1.proto.any wanProtos.contains
  let lanV4 := v4.filter fun pair =>
    decide ("lan".toList <:+: T.lower pair.1.name) || isPrivateV4 T pair.2.address
  let hasTraffic := snapshot.network.any fun iface => iface.rxBytes.isSome || iface.txBytes.isSome
  let statusDns := (snapshot.networkStatus.map (·.dns)).getD []
  let dns := if statusDns ≠ [] then statusDns else snapshot.dhcp.dns
  let clientsPresent :=
    !snapshot.clients.isEmpty || !snapshot.arp.isEmpty || !snapshot.wifi.clients.isEmpty
  let stationsPresent :=
    !snapshot.wifi.clients.isEmpty || snapshot.wifi.radios.any (0 < ·.stationCount)
  let kernel := snapshot.kernel
  let systemPresent :=
    kernel.hostname ≠ [] || kernel.model ≠ [] || kernel.release ≠ [] ||
      (kernel.releaseVersion.getD []) ≠ []
  let cpuStatus : Availability :=
    if errored ["cpu"] then .error
    else
      match snapshot.cpu with
      | none => .notAvailable
      | some cpu => if cpu.usagePercent.isSome then .available else .unknown
  let publicIpStatus : Availability :=
    if errored ["network", "network_status"] then .error
    else if !publicV4.isEmpty || !wanV4.isEmpty then .available
    else if !v4.isEmpty then .unknown
    else .notAvailable
  let lanIpStatus : Availability :=
    if errored ["network"] then .error
    else if !lanV4.isEmpty then .available
    else if !v4.isEmpty then .unknown
    else .notAvailable
  [("system_info", orAvailable ["kernel"] systemPresent), ("cpu", cpuStatus),
    ("memory", orAvailable ["memory"] snapshot.memory.isSome),
    ("disk", orAvailable ["storage"] !snapshot.storage.isEmpty), ("public_ip", publicIpStatus),
    ("lan_ip", lanIpStatus), ("ipv6", orAvailable ["network"] !v6.isEmpty),
    ("dns", orAvailable ["network_status"] !dns.isEmpty),
    ("connected_clients", orAvailable ["clients", "arp"] clientsPresent),
    ("wifi_clients", orAvailable ["wifi"] stationsPresent),
    ("firewall_rules", orAvailable ["firewall"] !snapshot.firewall.rules.isEmpty),
    ("traffic", orAvailable ["network"] hasTraffic)]

/-- `build_availability_manifest`. -/
def buildAvailabilityManifest (T : Texts) (snapshot : DeviceSnapshot) : PyValue :=
  .list ((availability T snapshot).map fun entry =>
    record [("category", .str entry.1.toList), ("status", .str entry.2.text)])

/-! ## The context -/

/-- `_CLIENT_SECTIONS`. -/
def clientSections : List Section := [.clients, .wifi, .arp, .neighbors, .dhcp]

/-- `build_focused_context`, for a set of sections that are all in the table of pruners. -/
def buildFocusedContext (T : Texts) (snapshot : DeviceSnapshot) (sections : List Section) :
    List (Text × PyValue) :=
  let context := sections.filterMap fun s =>
    (pruner s (snapshot.section s)).map fun value => (s.name, value)
  let media :=
    if sections.any clientSections.contains && !snapshot.clientMedia.isEmpty then
      [("client_media".toList,
        PyValue.dict (snapshot.clientMedia.map fun item => (item.1, .str item.2)))]
    else []
  context ++ media ++ [("router_data_availability".toList, buildAvailabilityManifest T snapshot)]

/-- Two snapshots agree on these sections, on the manifest and, where one of the sections is a
client section, on the client media. -/
structure Agree (T : Texts) (sections : List Section) (a b : DeviceSnapshot) : Prop where
  selected : ∀ s ∈ sections, a.section s = b.section s
  manifest : buildAvailabilityManifest T a = buildAvailabilityManifest T b
  media : (∃ s ∈ sections, s ∈ clientSections) → a.clientMedia = b.clientMedia

/-- **Nothing else of the snapshot has an influence on the context.** -/
theorem buildFocusedContext_congr {T : Texts} {sections : List Section} {a b : DeviceSnapshot}
    (h : Agree T sections a b) :
    buildFocusedContext T a sections = buildFocusedContext T b sections := by
  have hsections : (sections.filterMap fun s =>
      (pruner s (a.section s)).map fun value => (s.name, value)) =
        sections.filterMap fun s =>
          (pruner s (b.section s)).map fun value => (s.name, value) :=
    List.filterMap_congr fun s hs => by rw [h.selected s hs]
  rw [buildFocusedContext, buildFocusedContext, hsections, h.manifest]
  by_cases hclient : (sections.any clientSections.contains) = true
  · have hmedia : a.clientMedia = b.clientMedia := by
      obtain ⟨s, hs, hmem⟩ := List.any_eq_true.mp hclient
      exact h.media ⟨s, hs, List.contains_iff_mem.mp hmem⟩
    rw [hmedia]
  · rw [Bool.not_eq_true] at hclient
    rw [hclient, Bool.false_and, Bool.false_and, if_neg Bool.false_ne_true,
      if_neg Bool.false_ne_true]

/-- The message gets a context of the sections that it names, which depends on nothing else. -/
structure Focused (w : WordClass) (T : Texts) (message : Text) : Prop where
  selects : Selects w T.lower message
  confined : ∀ a b, Agree T (selectSections T.lower message) a b →
    buildFocusedContext T a (selectSections T.lower message) =
      buildFocusedContext T b (selectSections T.lower message)

/-- **Which messages get such a context.** -/
theorem focused_iff (w : WordClass) (T : Texts) (message : Text) :
    Focused w T message ↔ TopicsOnly w (T.lower message) := by
  rw [← selects_iff_topicsOnly]
  exact ⟨Focused.selects, fun h => ⟨h, fun _ _ => buildFocusedContext_congr⟩⟩

/-- ASCII texts, none of which is an address. -/
def asciiTexts : Texts := ⟨List.map Char.toLower, fun _ => none⟩

/-- The word `description` selects the network section: it contains `ip`. -/
theorem description_unfocused : ¬Focused asciiWords asciiTexts "description".toList := by
  intro h
  have hselected : Section.network ∈ selectSections asciiTexts.lower "description".toList := by
    decide +kernel
  have hnone : ∀ keyword ∈ sectionKeywords .network,
      ¬WholeWords asciiWords.isWord keyword.toList (asciiTexts.lower "description".toList) := by
    decide
  obtain ⟨keyword, hkeyword, hwhole⟩ | ⟨_, hfallback⟩ := (h.selects .network).mp hselected
  · exact hnone keyword hkeyword hwhole
  · revert hfallback
    decide

end OpenWrtCopilot.Ports.FocusedContext
