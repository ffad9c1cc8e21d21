import OpenWrtCopilot.Ports.DhcpLeases
import OpenWrtCopilot.Verified.Successes

/-!
# The network interfaces

Ports `NetworkCollector.collect` where `ubus` has a dump of the interfaces: the logical interfaces
of the dump, merged with the devices of `ubus call network.device status`, and the devices that no
interface refers to.  Both answers are JSON of any shape.

## Main results

* `mem_interfaces_iff` — what is reported.
* `reported_iff` — when nothing that is well formed is lost.
* `shadowed_device` — a device that is lost because an interface has its name.
-/

namespace OpenWrtCopilot.Ports.NetworkInterfaces

open Verified
open Verified.PyDict
open Verified.PyText
open Ports.DhcpLeases (field optionalText)

/-- What the standard library does with texts, and `ipaddress.ip_address(text).is_global`. -/
structure Texts extends DhcpLeases.Texts where
  isGlobal : Text → Option Bool

/-! ## Numbers and flags -/

/-- `int(value)`. -/
def intOf : PyValue → Except PyError Int
  | .bool b => .ok (if b then 1 else 0)
  | .int n => .ok n
  | .float (.finite q) => .ok (q.num.tdiv q.den)
  | .float (.infinite _) => .error .overflowError
  | .float .nan => .error .valueError
  | .str t => (pyInt t).elim (.error .valueError) .ok
  | _ => .error .typeError

/-- `except (TypeError, ValueError): return None`. -/
def orNone : Except PyError Int → Except PyError (Option Int)
  | .ok n => .ok (some n)
  | .error .typeError => .ok none
  | .error .valueError => .ok none
  | .error e => .error e

/-- `_stats_value`. -/
def statsValue (stats : PyValue) (key : Text) : Except PyError (Option Int) :=
  match stats with
  | .none => .ok none
  | stats => do
      match ← stats.get key with
      | .none => return none
      | value => orNone (intOf value)

/-- `_int_value`. -/
def intValue : PyValue → Except PyError (Option Int)
  | .none => .ok none
  | .bool _ => .ok none
  | value => orNone (intOf value)

/-- `_speed_mbps`. -/
def speedMbps (T : Texts) : PyValue → Except PyError (Option Int)
  | .none => .ok none
  | .bool _ => .ok none
  | .int n => .ok (some (if n ≤ 0 then 0 else n))
  | value => do
      let digits := (← T.str value).filter fun c => '0' ≤ c && c ≤ '9'
      return if digits = [] then none else pyInt digits

/-- A field of type `bool | None`. -/
def optionalBool : PyValue → Except PyError (Option Bool)
  | .none => .ok none
  | .bool b => .ok (some b)
  | .int n =>
      if n = 0 then .ok (some false) else if n = 1 then .ok (some true) else .error .validationError
  | .float x =>
      if x = .finite 0 then .ok (some false) else if x = .finite 1 then .ok (some true)
      else .error .validationError
  | .str t =>
      let t := t.map Char.toLower
      if ["0", "off", "f", "false", "n", "no"].any fun no => t = no.toList then .ok (some false)
      else if ["1", "on", "t", "true", "y", "yes"].any fun yes => t = yes.toList then
        .ok (some true)
      else .error .validationError
  | _ => .error .validationError

/-! ## Names -/

/-- A field of type `str`. -/
def textOf : PyValue → Except PyError Text
  | .str t => .ok t
  | _ => .error .validationError

/-- `_vlan_id`: a number after the last period, also before a newline at the end. -/
def vlanId : PyValue → Except PyError (Option Int)
  | .str name =>
      let body := (if name.getLast? = some '\n' then name.dropLast else name).reverse
      let digits := body.takeWhile fun c => (digitValue c).isSome
      match body.drop digits.length with
      | '.' :: before =>
          if digits = [] ∨ before = [] ∨ '\n' ∈ before then .ok none
          else some <$> intOf (.str digits.reverse)
      | _ => .ok none
  | _ => .error .typeError

/-- `_vlan_id(device or "") or _vlan_id(name)`. -/
def interfaceVlan (device name : PyValue) : Except PyError (Option Int) := do
  match ← vlanId device with
  | some n => if n ≠ 0 then return some n else vlanId name
  | none => vlanId name

/-! ## Addresses -/

inductive Family
  | ipv4
  | ipv6
  deriving DecidableEq

structure NetworkAddress where
  address : Text
  prefixLength : Int := 0
  family : Family
  isPublic : Option Bool := none
  deriving DecidableEq

/-- `_is_public`. -/
def isPublic (T : Texts) (address : Text) : Option Bool :=
  if address = [] then none else T.isGlobal address

/-- `_address`; an address that is no text fails as a field at the latest. -/
def address (T : Texts) (entry : PyValue) : Except PyError NetworkAddress := do
  let addr ← textOf ((← entry.get "address".toList).or (.str []))
  let mask := (← entry.get "mask".toList).or (← entry.get "masklen".toList)
  return {
    address := addr
    prefixLength := ← intOf (mask.or (.int 0))
    family := if ':' ∈ addr then .ipv6 else .ipv4
    isPublic := isPublic T addr }

/-- `[_address(a) for a in entry.get(key, [])]`. -/
def addressesAt (T : Texts) (entry : PyValue) (key : Text) :
    Except PyError (List NetworkAddress) := do
  (← (← entry.get key (.list [])).iter).mapM (address T)

/-- `_interface_addresses`. -/
def interfaceAddresses (T : Texts) (entry : PyValue) : Except PyError (List NetworkAddress) := do
  let result := (← addressesAt T entry "ipv4-address".toList) ++
    (← addressesAt T entry "ipv6-address".toList)
  if result.isEmpty then addressesAt T entry "addresses".toList else return result

/-! ## Devices -/

/-- `_device_map`. -/
def deviceMap : PyValue → Dict Text PyValue
  | .dict status =>
      match get? "device".toList status with
      | some (.dict wrapped) => wrapped
      | _ => status.filter fun item => item.2.isDict && item.1 ≠ "device".toList
  | _ => []

/-- `value == t` for a text. -/
def isText (t : Text) : PyValue → Bool
  | .str u => u = t
  | _ => false

/-- `key in value`. -/
def contains (key : Text) : PyValue → Except PyError Bool
  | .dict entries => .ok (get? key entries).isSome
  | .list items => .ok (items.any (isText key))
  | .str t => .ok (decide (key <:+: t))
  | _ => .error .typeError

/-- `_is_bridge`, after the name. -/
def hasBridgeType (T : Texts) (dev : PyValue) : Except PyError Bool := do
  if !dev.truthy then return false
  match (← dev.get "type".toList).or (← dev.get "devtype".toList) with
  | .str devtype => return "bridge".toList <:+: T.lower devtype
  | _ => return false

/-- `_is_bridge`. -/
def isBridge (T : Texts) (device dev : PyValue) : Except PyError Bool :=
  match device with
  | .str name => if startsWith "br-".toList name then .ok true else hasBridgeType T dev
  | device => if device.truthy then .error .attributeError else hasBridgeType T dev

/-- The name of a port, in `_bridge_members`. -/
def portName (port : PyValue) : Option PyValue :=
  port.entries?.bind fun port =>
    let name := (field "ifname".toList port).or (field "name".toList port)
    if name.truthy then some name else none

/-- `_bridge_members`. -/
def bridgeMembers (dev : PyValue) : Except PyError (List PyValue) := do
  if !dev.truthy then return []
  let type ← dev.get "type".toList
  match isText "bridge".toList type, ← dev.get "bridge-members".toList with
  | true, .list members =>
      return members.filter fun member =>
        match member with
        | .str name => name ≠ []
        | _ => false
  | _, _ => return (← (← dev.get "ports".toList (.list [])).iter).filterMap portName

/-- `_bridge_attribute`. -/
def bridgeAttribute (dev : PyValue) (key : Text) : Except PyError PyValue := do
  if !dev.truthy then return .none
  match ← dev.get "bridge-attributes".toList with
  | .dict attributes => return (get? key attributes).getD .none
  | _ => return .none

/-- The carrier of a device, or else its link. -/
def link (dev : PyValue) : Except PyError PyValue :=
  match dev with
  | .none => .ok .none
  | dev => do
      if ← contains "carrier".toList dev then dev.get "carrier".toList
      else if dev.truthy then dev.get "link".toList
      else return .none

/-- `dev.get("statistics") if dev else None`. -/
def statistics (dev : PyValue) : Except PyError PyValue :=
  if dev.truthy then dev.get "statistics".toList else .ok .none

/-- `dev.get(key) if dev else None`. -/
def deviceValue (dev : PyValue) (key : Text) : Except PyError PyValue :=
  if dev.truthy then dev.get key else .ok .none

/-! ## Interfaces -/

/-- The fields of an interface that its logical entry gives. -/
structure LogicalFields where
  name : Text
  up : Bool := false
  proto : Option Text := none
  device : Option Text := none
  vlanId : Option Int := none
  addresses : List NetworkAddress := []
  uptimeSeconds : Option Int := none
  deriving DecidableEq

/-- The fields of an interface that its device gives. -/
structure DeviceFields where
  mac : Option Text := none
  link : Option Bool := none
  speedMbps : Option Int := none
  mtu : Option Int := none
  rxBytes : Option Int := none
  txBytes : Option Int := none
  isBridge : Bool := false
  bridgeMembers : List Text := []
  stpEnabled : Option Bool := none
  forwardDelay : Option Int := none
  rxErrors : Option Int := none
  txErrors : Option Int := none
  rxDropped : Option Int := none
  txDropped : Option Int := none
  deriving DecidableEq

structure NetworkInterface extends LogicalFields, DeviceFields where
  gateway : PyValue := .none

/-- What an interface takes from its entry. -/
def logicalFields (T : Texts) (entry name device : PyValue) : Except PyError LogicalFields := do
  return {
    name := ← textOf name
    up := (← entry.get "up".toList (.bool false)).truthy
    proto := ← optionalText (← entry.get "proto".toList)
    device := ← optionalText device
    vlanId := ← interfaceVlan device name
    addresses := ← interfaceAddresses T entry
    uptimeSeconds := ← intValue (← entry.get "uptime".toList) }

/-- What an interface takes from its device. -/
def deviceFields (T : Texts) (device dev stats : PyValue) : Except PyError DeviceFields := do
  let mac := (← deviceValue dev "macaddr".toList).or (← deviceValue dev "macaddress".toList)
  return {
    mac := ← optionalText mac
    link := ← optionalBool (← link dev)
    speedMbps := ← speedMbps T (← deviceValue dev "speed".toList)
    mtu := ← intValue (← deviceValue dev "mtu".toList)
    rxBytes := ← statsValue stats "rx_bytes".toList
    txBytes := ← statsValue stats "tx_bytes".toList
    isBridge := ← isBridge T device dev
    bridgeMembers := ← (← bridgeMembers dev).mapM textOf
    stpEnabled := ← optionalBool (← bridgeAttribute dev "stp".toList)
    forwardDelay := ← intValue (← bridgeAttribute dev "forward_delay".toList)
    rxErrors := ← statsValue stats "rx_errors".toList
    txErrors := ← statsValue stats "tx_errors".toList
    rxDropped := ← statsValue stats "rx_dropped".toList
    txDropped := ← statsValue stats "tx_dropped".toList }

/-- The name and the device of an entry, unless it has no name. -/
def entryNames (entry : PyValue) : Except PyError (Option (PyValue × PyValue)) := do
  let name := (← entry.get "interface".toList).or (← entry.get "name".toList)
  if !name.truthy then return none
  return some (name, (← entry.get "device".toList).or name)

/-- `referenced.add(value)`; only texts are looked up later. -/
def reference (value : PyValue) : Except PyError (List Text) :=
  match value with
  | .str t => .ok [t]
  | value => if value.hashable then .ok [] else .error .typeError

/-- `devices.get(device)`. -/
def lookup (devices : Dict Text PyValue) : PyValue → PyValue
  | .str t => (get? t devices).getD .none
  | _ => .none

/-- An interface and its device, in one record. -/
def merged (T : Texts) (entry name device dev stats : PyValue) :
    Except PyError NetworkInterface := do
  let logical ← logicalFields T entry name device
  let fields ← deviceFields T device dev stats
  return { toLogicalFields := logical, toDeviceFields := fields }

/-- A device that stands alone. -/
def standalone (T : Texts) (device : Text) (dev stats : PyValue) :
    Except PyError NetworkInterface := do
  let up := (← dev.get "up".toList (.bool false)).truthy
  let vlanId ← vlanId (.str device)
  let fields ← deviceFields T (.str device) dev stats
  return {
    name := device
    up := up
    device := some device
    vlanId := vlanId
    toDeviceFields := fields }

/-- What an entry of the dump adds to `referenced` and to the result. -/
structure Read where
  referenced : List Text := []
  interface : Option NetworkInterface := none

/-- An entry of the dump; a record that is not valid is left out. -/
def readEntry (T : Texts) (devices : Dict Text PyValue) (entry : PyValue) :
    Except PyError Read := do
  match ← entryNames entry with
  | none => return {}
  | some (name, device) =>
      let referenced := (← reference name) ++ (← reference device)
      let dev := lookup devices device
      let stats ← statistics dev
      return { referenced, interface := (merged T entry name device dev stats).toOption }

/-- A device of the status. -/
def readDevice (T : Texts) (referenced : List Text) (item : Text × PyValue) :
    Except PyError (Option NetworkInterface) :=
  if referenced.contains item.1 then .ok none
  else do
    let stats ← statistics item.2
    return (standalone T item.1 item.2 stats).toOption

/-- The two loops. -/
def interfaces (T : Texts) (devices : Dict Text PyValue) (entries : List PyValue) :
    Except PyError (List NetworkInterface) := do
  let reads ← entries.mapM (readEntry T devices)
  let alone ← devices.mapM (readDevice T (reads.flatMap (·.referenced)))
  return reads.filterMap (·.interface) ++ alone.filterMap id

/-- `_attach_gateway`. -/
def attachGateway (gateway device : PyValue) (interfaces : List NetworkInterface) :
    List NetworkInterface :=
  if !gateway.truthy || !device.truthy then interfaces
  else
    interfaces.map fun iface =>
      if iface.device.any (isText · device) || isText iface.name device then
        { iface with gateway := gateway }
      else iface

/-- The servers of one entry, in `_interface_dns`. -/
def dnsServers (entry : PyValue) : Except PyError (List PyValue) :=
  match entry with
  | .dict entry => ((field "dns-server".toList entry).or (.list [])).iter
  | _ => .ok []

/-- `_interface_dns`. -/
def interfaceDns (dump : PyValue) : Except PyError (List Text) :=
  match dump with
  | .dict dump =>
      match get? "interface".toList dump with
      | some (.list entries) => do
          return (← entries.mapM dnsServers).flatten.foldl (fun servers server =>
            match server with
            | .str t => if t = [] ∨ t ∈ servers then servers else servers ++ [t]
            | _ => servers) []
      | _ => .ok []
  | _ => .ok []

/-- The interfaces, and what else the scratch state of the snapshot is made of. -/
structure Collected where
  interfaces : List NetworkInterface
  gateway : PyValue
  routeDevice : PyValue
  netifdDns : List Text

/-- `collect`; `route` is the gateway and the device of the default route, or why it cannot be
read. -/
def collect (T : Texts) (dump status : PyValue) (route : Except PyError (PyValue × PyValue)) :
    Except PyError Collected := do
  let entries ← (← dump.get "interface".toList (.list [])).iter
  let result ← interfaces T (deviceMap status) entries
  let (gateway, device) ← route
  let servers ← interfaceDns dump
  return {
    interfaces := attachGateway gateway device result
    gateway := gateway
    routeDevice := device
    netifdDns := servers }

/-! ## What is well formed -/

/-- An entry of the dump is a well-formed interface of that name on that device. -/
structure IsLogical (T : Texts) (entry name device : PyValue) (logical : LogicalFields) : Prop where
  names : entryNames entry = .ok (some (name, device))
  fields : logicalFields T entry name device = .ok logical

/-- A device of the status is well formed: it can stand alone. -/
structure IsDevice (T : Texts) (device : Text) (dev : PyValue) (record : NetworkInterface) : Prop
    where
  record : (do standalone T device dev (← statistics dev)) = .ok record

/-- What the interfaces on a device take from it. -/
def fieldsOf (T : Texts) (devices : Dict Text PyValue) (device : PyValue) :
    Except PyError DeviceFields := do
  deviceFields T device (lookup devices device) (← statistics (lookup devices device))

/-- Each well-formed device and each well-formed interface is reported. -/
structure Complete (T : Texts) (devices : Dict Text PyValue) (entries : List PyValue)
    (reported : List NetworkInterface) : Prop where
  devices : ∀ device dev record, get? device devices = some dev → IsDevice T device dev record →
    ∃ i ∈ reported, i.device = some device ∧ i.toDeviceFields = record.toDeviceFields
  logical : ∀ entry ∈ entries, ∀ name device logical, IsLogical T entry name device logical →
    ∃ i ∈ reported, i.toLogicalFields = logical

/-- An entry refers to a device, by its name or by its device. -/
def Refers (entry : PyValue) (device : Text) : Prop :=
  ∃ name dev, entryNames entry = .ok (some (name, dev)) ∧ (name = .str device ∨ dev = .str device)

def Referenced (entries : List PyValue) (device : Text) : Prop :=
  ∃ entry ∈ entries, Refers entry device

/-- A value whose statistics can be looked for. -/
def Inspectable (dev : PyValue) : Prop := dev.truthy = true → dev.isDict = true

/-- What an entry needs in the part of the loop that is not guarded. -/
structure Readable (devices : Dict Text PyValue) (entry : PyValue) : Prop where
  isDict : entry.isDict = true
  names : ∀ name device, entryNames entry = .ok (some (name, device)) →
    name.hashable = true ∧ device.hashable = true ∧ Inspectable (lookup devices device)

/-- No entry and no device takes another one with it. -/
structure Harmless (T : Texts) (devices : Dict Text PyValue) (entries : List PyValue) : Prop where
  readable : ∀ entry ∈ entries, Readable devices entry
  inspectable : ∀ item ∈ devices, Referenced entries item.1 ∨ Inspectable item.2
  servers : ∀ entry ∈ entries, Succeeds (dnsServers entry)
  /-- The device of a well-formed interface does not spoil it. -/
  merged : ∀ entry ∈ entries, ∀ name device logical, IsLogical T entry name device logical →
    Succeeds (fieldsOf T devices device)
  /-- A well-formed device that an entry refers to is the device of a well-formed interface. -/
  kept : ∀ device dev record, get? device devices = some dev → IsDevice T device dev record →
    Referenced entries device →
      ∃ entry ∈ entries, ∃ name logical, IsLogical T entry name (.str device) logical

/-! ## One entry -/

variable {T : Texts} {devices : Dict Text PyValue} {entry : PyValue}

theorem succeeds_get_iff {value : PyValue} {key : Text} {default : PyValue} :
    Succeeds (value.get key default) ↔ value.isDict = true := by
  cases value with
  | dict entries => exact iff_of_true ⟨_, rfl⟩ rfl
  | _ => exact iff_of_false nofun nofun

theorem entryNames_dict (entries : Dict Text PyValue) :
    entryNames (.dict entries) =
      let name := (field "interface".toList entries).or (field "name".toList entries)
      if !name.truthy then .ok none
      else .ok (some (name, (field "device".toList entries).or name)) :=
  rfl

theorem succeeds_entryNames_iff : Succeeds (entryNames entry) ↔ entry.isDict = true := by
  cases entry with
  | dict entries =>
    refine iff_of_true ?_ rfl
    rw [entryNames_dict]
    dsimp only
    split
    · exact succeeds_ok _
    · exact succeeds_ok _
  | _ => exact iff_of_false nofun nofun

theorem succeeds_reference_iff {value : PyValue} :
    Succeeds (reference value) ↔ value.hashable = true := by
  cases value with
  | list items => exact iff_of_false nofun nofun
  | dict entries => exact iff_of_false nofun nofun
  | _ => exact iff_of_true ⟨_, rfl⟩ rfl

theorem mem_reference {value : PyValue} {referenced : List Text}
    (h : reference value = .ok referenced) (t : Text) : t ∈ referenced ↔ value = .str t := by
  cases value with
  | str u =>
    obtain rfl := Except.ok.inj h
    rw [List.mem_singleton, PyValue.str.injEq, eq_comm]
  | list items => cases h
  | dict entries => cases h
  | _ =>
    obtain rfl := Except.ok.inj h
    exact iff_of_false List.not_mem_nil nofun

theorem succeeds_statistics_iff {dev : PyValue} : Succeeds (statistics dev) ↔ Inspectable dev := by
  unfold statistics Inspectable
  split
  · next htrue => rw [succeeds_get_iff, imp_iff_right htrue]
  · next hfalse => exact iff_of_true ⟨_, rfl⟩ fun htrue => absurd htrue hfalse

theorem readEntry_of_none (h : entryNames entry = .ok none) :
    readEntry T devices entry = .ok {} := by
  rw [readEntry, h]
  rfl

theorem readEntry_of_some {name device : PyValue}
    (h : entryNames entry = .ok (some (name, device))) :
    readEntry T devices entry = (do
      let named ← reference name
      let used ← reference device
      let stats ← statistics (lookup devices device)
      pure
        { referenced := named ++ used
          interface := (merged T entry name device (lookup devices device) stats).toOption }) := by
  rw [readEntry, h]
  rfl

theorem succeeds_readEntry_iff :
    Succeeds (readEntry T devices entry) ↔ Readable devices entry := by
  cases hnames : entryNames entry with
  | error e =>
    have hdict : ¬entry.isDict = true := fun h => by
      obtain ⟨names, hnames'⟩ := succeeds_entryNames_iff.mpr h
      rw [hnames] at hnames'
      cases hnames'
    refine iff_of_false (fun h => ?_) fun h => hdict h.isDict
    obtain ⟨read, hread⟩ := h
    rw [readEntry, hnames] at hread
    cases hread
  | ok names =>
    have hdict : entry.isDict = true := succeeds_entryNames_iff.mp ⟨names, hnames⟩
    cases names with
    | none =>
      refine iff_of_true ⟨_, readEntry_of_none hnames⟩ ⟨hdict, fun name device h => ?_⟩
      rw [hnames] at h
      cases h
    | some names =>
      obtain ⟨name, device⟩ := names
      have hreadable : Readable devices entry ↔
          name.hashable = true ∧ device.hashable = true ∧
            Inspectable (lookup devices device) := by
        refine ⟨fun h => h.names name device hnames, fun h => ⟨hdict, fun _ _ heq => ?_⟩⟩
        rw [hnames] at heq
        cases heq
        exact h
      rw [readEntry_of_some hnames, hreadable, ← succeeds_reference_iff,
        ← succeeds_reference_iff, ← succeeds_statistics_iff]
      refine succeeds_bind_iff fun named _ => ?_
      refine succeeds_bind_iff fun used _ => ?_
      exact succeeds_bind_pure_iff _

/-- The interface of an entry, if there is one. -/
structure IsMerged (T : Texts) (devices : Dict Text PyValue) (entry : PyValue)
    (name device : PyValue) (i : NetworkInterface) : Prop where
  logical : IsLogical T entry name device i.toLogicalFields
  fields : fieldsOf T devices device = .ok i.toDeviceFields
  gateway : i.gateway = .none

theorem merged_eq_ok {name device dev stats : PyValue} {i : NetworkInterface} :
    merged T entry name device dev stats = .ok i ↔
      logicalFields T entry name device = .ok i.toLogicalFields ∧
        deviceFields T device dev stats = .ok i.toDeviceFields ∧ i.gateway = .none := by
  unfold merged
  simp only [bind_eq_ok]
  constructor
  · rintro ⟨logical, hlogical, fields, hfields, h⟩
    obtain rfl := Except.ok.inj h
    exact ⟨hlogical, hfields, rfl⟩
  · rintro ⟨hlogical, hfields, hgateway⟩
    refine ⟨_, hlogical, _, hfields, ?_⟩
    rw [← hgateway]
    rfl

theorem toOption_eq_some {m : Except PyError NetworkInterface} {i : NetworkInterface} :
    m.toOption = some i ↔ m = .ok i := by
  cases m with
  | error e => exact iff_of_false nofun nofun
  | ok j => exact ⟨fun h => congrArg _ (Option.some.inj h), fun h => congrArg _ (Except.ok.inj h)⟩

/-- What reading an entry comes to, for an entry with a name. -/
structure ReadOf (T : Texts) (devices : Dict Text PyValue) (entry name device : PyValue)
    (read : Read) : Prop where
  names : entryNames entry = .ok (some (name, device))
  referenced : ∀ t, t ∈ read.referenced ↔ name = .str t ∨ device = .str t
  interface : ∀ i, read.interface = some i ↔ IsMerged T devices entry name device i

theorem readEntry_cases {read : Read} (h : readEntry T devices entry = .ok read) :
    (entryNames entry = .ok none ∧ read = {}) ∨
      ∃ name device, ReadOf T devices entry name device read := by
  cases hnames : entryNames entry with
  | error e =>
    rw [readEntry, hnames] at h
    cases h
  | ok names =>
    cases names with
    | none =>
      rw [readEntry_of_none hnames] at h
      exact .inl ⟨rfl, (Except.ok.inj h).symm⟩
    | some names =>
      obtain ⟨name, device⟩ := names
      rw [readEntry_of_some hnames] at h
      obtain ⟨named, hnamed, used, hused, stats, hstats, h⟩ := by
        simpa only [bind_eq_ok] using h
      obtain rfl := Except.ok.inj h
      have hfields : fieldsOf T devices device =
          deviceFields T device (lookup devices device) stats := by
        rw [fieldsOf, hstats]
        rfl
      refine .inr ⟨name, device, hnames, fun t => ?_, fun i => ?_⟩
      · rw [List.mem_append, mem_reference hnamed, mem_reference hused]
      · rw [toOption_eq_some, merged_eq_ok, ← hfields]
        constructor
        · rintro ⟨hlogical, hdevice, hgateway⟩
          exact ⟨⟨hnames, hlogical⟩, hdevice, hgateway⟩
        · intro hmerged
          exact ⟨hmerged.logical.fields, hmerged.fields, hmerged.gateway⟩

theorem mem_referenced {read : Read} (h : readEntry T devices entry = .ok read) (t : Text) :
    t ∈ read.referenced ↔ Refers entry t := by
  obtain ⟨hnames, rfl⟩ | ⟨name, device, hread⟩ := readEntry_cases h
  · refine iff_of_false List.not_mem_nil ?_
    rintro ⟨name, dev, heq, _⟩
    rw [hnames] at heq
    cases heq
  · rw [hread.referenced]
    refine ⟨fun h => ⟨name, device, hread.names, h⟩, ?_⟩
    rintro ⟨_, _, heq, h⟩
    rw [hread.names] at heq
    cases heq
    exact h

theorem interface_eq_some {read : Read} (h : readEntry T devices entry = .ok read)
    (i : NetworkInterface) :
    read.interface = some i ↔ ∃ name device, IsMerged T devices entry name device i := by
  obtain ⟨hnames, rfl⟩ | ⟨name, device, hread⟩ := readEntry_cases h
  · refine iff_of_false nofun ?_
    rintro ⟨name, dev, hmerged⟩
    have heq := hmerged.logical.names
    rw [hnames] at heq
    cases heq
  · rw [hread.interface]
    refine ⟨fun h => ⟨name, device, h⟩, ?_⟩
    rintro ⟨_, _, hmerged⟩
    have heq := hmerged.logical.names
    rw [hread.names] at heq
    cases heq
    exact hmerged

/-! ## One device -/

theorem succeeds_readDevice_iff (referenced : List Text) (item : Text × PyValue) :
    Succeeds (readDevice T referenced item) ↔ item.1 ∈ referenced ∨ Inspectable item.2 := by
  unfold readDevice
  split
  · next h => exact iff_of_true (succeeds_ok _) (.inl (List.contains_iff_mem.mp h))
  · next h =>
      rw [succeeds_bind_pure_iff, succeeds_statistics_iff, or_iff_right]
      exact fun hmem => h (List.contains_iff_mem.mpr hmem)

theorem readDevice_eq_ok_some {referenced : List Text} {item : Text × PyValue}
    {read : Option NetworkInterface} (h : readDevice T referenced item = .ok read)
    (i : NetworkInterface) :
    read = some i ↔ item.1 ∉ referenced ∧ IsDevice T item.1 item.2 i := by
  unfold readDevice at h
  split at h
  · next hcontains =>
      obtain rfl := Except.ok.inj h
      exact iff_of_false nofun fun hboth => hboth.1 (List.contains_iff_mem.mp hcontains)
  · next hcontains =>
      obtain ⟨stats, hstats, h⟩ := bind_eq_ok.mp h
      obtain rfl := Except.ok.inj h
      have hrecord : (do standalone T item.1 item.2 (← statistics item.2)) =
          standalone T item.1 item.2 stats := by
        rw [hstats]
        rfl
      have hmem : item.1 ∉ referenced := fun hmem => hcontains (List.contains_iff_mem.mpr hmem)
      rw [toOption_eq_some, and_iff_right hmem, ← hrecord]
      exact ⟨fun h => ⟨h⟩, fun h => h.record⟩

/-- What stands alone has the name of its device, and the fields that an interface on that device
would have. -/
theorem IsDevice.spec {device : Text} {dev : PyValue} {record : NetworkInterface}
    (h : IsDevice T device dev record) :
    record.device = some device ∧
      (do deviceFields T (.str device) dev (← statistics dev)) = .ok record.toDeviceFields := by
  obtain ⟨stats, hstats, hrecord⟩ := bind_eq_ok.mp h.record
  unfold standalone at hrecord
  simp only [bind_eq_ok] at hrecord
  obtain ⟨up, _, vlan, _, fields, hfields, hrecord⟩ := hrecord
  obtain rfl := Except.ok.inj hrecord
  refine ⟨rfl, ?_⟩
  rw [hstats]
  exact hfields

/-! ## The two loops -/

variable {entries : List PyValue}

theorem mem_flatMap_referenced {reads : List Read}
    (h : entries.mapM (readEntry T devices) = .ok reads) (t : Text) :
    t ∈ reads.flatMap (·.referenced) ↔ Referenced entries t := by
  rw [List.mem_flatMap]
  constructor
  · rintro ⟨read, hread, ht⟩
    obtain ⟨entry, hentry, heq⟩ := exists_of_mapM_ok h hread
    exact ⟨entry, hentry, (mem_referenced heq t).mp ht⟩
  · rintro ⟨entry, hentry, hrefers⟩
    obtain ⟨read, hread, heq⟩ := mem_of_mapM_ok h hentry
    exact ⟨read, hread, (mem_referenced heq t).mpr hrefers⟩

theorem succeeds_interfaces_iff :
    Succeeds (interfaces T devices entries) ↔
      (∀ entry ∈ entries, Readable devices entry) ∧
        ∀ item ∈ devices, Referenced entries item.1 ∨ Inspectable item.2 := by
  unfold interfaces
  have hreads : Succeeds (entries.mapM (readEntry T devices)) ↔
      ∀ entry ∈ entries, Readable devices entry := by
    rw [succeeds_mapM]
    exact forall₂_congr fun entry _ => succeeds_readEntry_iff
  rw [← hreads]
  refine succeeds_bind_iff fun reads h => ?_
  rw [succeeds_bind_pure_iff, succeeds_mapM]
  refine forall₂_congr fun item _ => ?_
  rw [succeeds_readDevice_iff, mem_flatMap_referenced h]

/-- **What is reported: the interfaces whose record is valid, and the devices that no entry refers
to.** -/
theorem mem_interfaces_iff {reported : List NetworkInterface}
    (h : interfaces T devices entries = .ok reported) (i : NetworkInterface) :
    i ∈ reported ↔
      (∃ entry ∈ entries, ∃ name device, IsMerged T devices entry name device i) ∨
        ∃ item ∈ devices, ¬Referenced entries item.1 ∧ IsDevice T item.1 item.2 i := by
  obtain ⟨reads, hreads, h⟩ := bind_eq_ok.mp h
  obtain ⟨alone, halone, h⟩ := bind_eq_ok.mp h
  obtain rfl := Except.ok.inj h
  rw [List.mem_append, List.mem_filterMap, List.mem_filterMap]
  refine or_congr ⟨?_, ?_⟩ ⟨?_, ?_⟩
  · rintro ⟨read, hread, hi⟩
    obtain ⟨entry, hentry, heq⟩ := exists_of_mapM_ok hreads hread
    exact ⟨entry, hentry, (interface_eq_some heq i).mp hi⟩
  · rintro ⟨entry, hentry, hmerged⟩
    obtain ⟨read, hread, heq⟩ := mem_of_mapM_ok hreads hentry
    exact ⟨read, hread, (interface_eq_some heq i).mpr hmerged⟩
  · rintro ⟨read, hread, hi⟩
    obtain ⟨item, hitem, heq⟩ := exists_of_mapM_ok halone hread
    obtain ⟨hmem, hdevice⟩ := (readDevice_eq_ok_some heq i).mp hi
    exact ⟨item, hitem, fun h => hmem ((mem_flatMap_referenced hreads item.1).mpr h), hdevice⟩
  · rintro ⟨item, hitem, hmem, hdevice⟩
    obtain ⟨read, hread, heq⟩ := mem_of_mapM_ok halone hitem
    refine ⟨read, hread, (readDevice_eq_ok_some heq i).mpr ⟨fun h => hmem ?_, hdevice⟩⟩
    exact (mem_flatMap_referenced hreads item.1).mp h

/-! ## Nothing well formed is lost -/

theorem truthy_device {name device : PyValue} (h : entryNames entry = .ok (some (name, device))) :
    device.truthy = true := by
  cases entry with
  | dict entry =>
    rw [entryNames_dict] at h
    dsimp only at h
    split at h
    · cases h
    · next hname =>
        obtain ⟨rfl, rfl⟩ := Prod.mk.inj (Option.some.inj (Except.ok.inj h))
        rw [Bool.not_eq_true, Bool.not_eq_false'] at hname
        cases hdevice : (field "device".toList entry).truthy with
        | true => rwa [PyValue.or_of_truthy hdevice]
        | false => rwa [PyValue.or_of_not_truthy hdevice]
  | _ => cases h

/-- The device of a well-formed interface is a text. -/
theorem IsLogical.device {name device : PyValue} {logical : LogicalFields}
    (h : IsLogical T entry name device logical) :
    ∃ t, device = .str t ∧ logical.device = some t := by
  have hdevice : optionalText device = .ok logical.device := by
    have hfields := h.fields
    unfold logicalFields at hfields
    simp only [bind_eq_ok] at hfields
    obtain ⟨_, _, _, _, _, _, _, _, device, hdevice, _, _, _, _, _, _, _, _, hlogical⟩ := hfields
    obtain rfl := Except.ok.inj hlogical
    exact hdevice
  cases device with
  | none => exact absurd (truthy_device h.names) Bool.false_ne_true
  | str t => exact ⟨t, rfl, (Except.ok.inj hdevice).symm⟩
  | _ => cases hdevice

theorem complete_interfaces_iff {reported : List NetworkInterface}
    (h : interfaces T devices entries = .ok reported) :
    Complete T devices entries reported ↔
      (∀ entry ∈ entries, ∀ name device logical, IsLogical T entry name device logical →
        Succeeds (fieldsOf T devices device)) ∧
      ∀ device dev record, get? device devices = some dev → IsDevice T device dev record →
        Referenced entries device →
          ∃ entry ∈ entries, ∃ name logical, IsLogical T entry name (.str device) logical := by
  have hmem := mem_interfaces_iff h
  constructor
  · intro hcomplete
    constructor
    · intro entry hentry name device logical hlogical
      obtain ⟨t, rfl, ht⟩ := hlogical.device
      obtain ⟨i, hi, rfl⟩ := hcomplete.logical entry hentry name _ logical hlogical
      obtain ⟨other, hother, name', device', hmerged⟩ | ⟨item, hitem, hunnamed, halone⟩ :=
        (hmem i).mp hi
      · obtain ⟨t', rfl, ht'⟩ := hmerged.logical.device
        obtain rfl := Option.some.inj (ht.symm.trans ht')
        exact ⟨_, hmerged.fields⟩
      · obtain rfl := Option.some.inj (ht.symm.trans halone.spec.1)
        exact absurd ⟨entry, hentry, name, _, hlogical.names, .inr rfl⟩ hunnamed
    · intro device dev record hget hdevice hnamed
      obtain ⟨i, hi, hname, _⟩ := hcomplete.devices device dev record hget hdevice
      obtain ⟨entry, hentry, name, device', hmerged⟩ | ⟨item, hitem, hunnamed, halone⟩ :=
        (hmem i).mp hi
      · obtain ⟨t, rfl, ht⟩ := hmerged.logical.device
        obtain rfl := Option.some.inj (hname.symm.trans ht)
        exact ⟨entry, hentry, name, _, hmerged.logical⟩
      · obtain rfl := Option.some.inj (hname.symm.trans halone.spec.1)
        exact absurd hnamed hunnamed
  · rintro ⟨hmerged, hkept⟩
    -- an interface on a device takes the fields of that device
    have hreport : ∀ entry ∈ entries, ∀ name device logical,
        IsLogical T entry name device logical →
          ∃ i ∈ reported, i.toLogicalFields = logical ∧
            fieldsOf T devices device = .ok i.toDeviceFields := by
      intro entry hentry name device logical hlogical
      obtain ⟨fields, hfields⟩ := hmerged entry hentry name device logical hlogical
      refine ⟨{ toLogicalFields := logical, toDeviceFields := fields }, ?_, rfl, hfields⟩
      exact (hmem _).mpr (.inl ⟨entry, hentry, name, device, hlogical, hfields, rfl⟩)
    constructor
    · intro device dev record hget hdevice
      by_cases hnamed : Referenced entries device
      · obtain ⟨entry, hentry, name, logical, hlogical⟩ :=
          hkept device dev record hget hdevice hnamed
        obtain ⟨i, hi, rfl, hfields⟩ := hreport entry hentry name _ logical hlogical
        obtain ⟨t, ht, hname⟩ := hlogical.device
        obtain rfl := PyValue.str.inj ht
        have hlookup : lookup devices (.str device) = dev := by rw [lookup, hget, Option.getD_some]
        rw [fieldsOf, hlookup, hdevice.spec.2] at hfields
        exact ⟨i, hi, hname, (Except.ok.inj hfields).symm⟩
      · have hrecord := (hmem record).mpr (.inr ⟨_, mem_of_get? hget, hnamed, hdevice⟩)
        exact ⟨record, hrecord, hdevice.spec.1, rfl⟩
    · intro entry hentry name device logical hlogical
      obtain ⟨i, hi, heq, _⟩ := hreport entry hentry name device logical hlogical
      exact ⟨i, hi, heq⟩

/-! ## The whole collector -/

/-- The gateway is all that changes. -/
theorem exists_attachGateway_iff (P : LogicalFields → DeviceFields → Prop)
    (gateway device : PyValue) (reported : List NetworkInterface) :
    (∃ i ∈ attachGateway gateway device reported, P i.toLogicalFields i.toDeviceFields) ↔
      ∃ i ∈ reported, P i.toLogicalFields i.toDeviceFields := by
  unfold attachGateway
  split
  · exact Iff.rfl
  · simp only [List.mem_map, exists_exists_and_eq_and]
    refine exists_congr fun i => and_congr_right fun _ => ?_
    split <;> exact Iff.rfl

theorem complete_attachGateway_iff (gateway device : PyValue) (reported : List NetworkInterface) :
    Complete T devices entries (attachGateway gateway device reported) ↔
      Complete T devices entries reported := by
  have hdevices (t : Text) (fields : DeviceFields) :=
    exists_attachGateway_iff (fun l d => l.device = some t ∧ d = fields) gateway device reported
  have hlogical (logical : LogicalFields) :=
    exists_attachGateway_iff (fun l _ => l = logical) gateway device reported
  constructor
  · intro h
    refine ⟨fun t dev record hget hdevice => ?_, fun entry hentry name d logical hentry' => ?_⟩
    · exact (hdevices t _).mp (h.devices t dev record hget hdevice)
    · exact (hlogical logical).mp (h.logical entry hentry name d logical hentry')
  · intro h
    refine ⟨fun t dev record hget hdevice => ?_, fun entry hentry name d logical hentry' => ?_⟩
    · exact (hdevices t _).mpr (h.devices t dev record hget hdevice)
    · exact (hlogical logical).mpr (h.logical entry hentry name d logical hentry')

theorem succeeds_interfaceDns_iff {dump : Dict Text PyValue}
    (h : get? "interface".toList dump = some (.list entries)) :
    Succeeds (interfaceDns (.dict dump)) ↔ ∀ entry ∈ entries, Succeeds (dnsServers entry) := by
  unfold interfaceDns
  simp only [h]
  rw [succeeds_bind_pure_iff, succeeds_mapM]

/-- What is collected from a list of interfaces. -/
theorem collect_eq_ok_iff {dump : Dict Text PyValue} {status : PyValue}
    {route : Except PyError (PyValue × PyValue)} {collected : Collected}
    (h : get? "interface".toList dump = some (.list entries)) :
    collect T (.dict dump) status route = .ok collected ↔
      ∃ reported found servers, interfaces T (deviceMap status) entries = .ok reported ∧
        route = .ok found ∧ interfaceDns (.dict dump) = .ok servers ∧
        collected = ⟨attachGateway found.1 found.2 reported, found.1, found.2, servers⟩ := by
  have hcollect : collect T (.dict dump) status route = (do
      let result ← interfaces T (deviceMap status) entries
      let found ← route
      let servers ← interfaceDns (.dict dump)
      pure ⟨attachGateway found.1 found.2 result, found.1, found.2, servers⟩) := by
    unfold collect
    simp only [PyValue.get, h]
    rfl
  rw [hcollect]
  simp only [bind_eq_ok]
  constructor
  · rintro ⟨reported, hreported, found, hfound, servers, hservers, hcollected⟩
    exact ⟨reported, found, servers, hreported, hfound, hservers, (Except.ok.inj hcollected).symm⟩
  · rintro ⟨reported, found, servers, hreported, hfound, hservers, rfl⟩
    exact ⟨reported, hreported, found, hfound, servers, hservers, rfl⟩

/-- **Each well-formed device and each well-formed interface is reported exactly where no entry and
no device takes another one with it.** -/
theorem reported_iff {dump status : Dict Text PyValue} {route : Except PyError (PyValue × PyValue)}
    (h : get? "interface".toList dump = some (.list entries)) :
    (∃ collected, collect T (.dict dump) (.dict status) route = .ok collected ∧
      Complete T (deviceMap (.dict status)) entries collected.interfaces) ↔
        Harmless T (deviceMap (.dict status)) entries ∧ Succeeds route := by
  constructor
  · rintro ⟨collected, hcollected, hcomplete⟩
    obtain ⟨reported, found, servers, hreported, hroute, hservers, rfl⟩ :=
      (collect_eq_ok_iff h).mp hcollected
    obtain ⟨hreadable, hinspectable⟩ := succeeds_interfaces_iff.mp ⟨reported, hreported⟩
    rw [complete_attachGateway_iff, complete_interfaces_iff hreported] at hcomplete
    have hdns := (succeeds_interfaceDns_iff h).mp ⟨servers, hservers⟩
    exact ⟨⟨hreadable, hinspectable, hdns, hcomplete.1, hcomplete.2⟩, found, hroute⟩
  · rintro ⟨hharmless, found, hroute⟩
    obtain ⟨reported, hreported⟩ :=
      succeeds_interfaces_iff.mpr ⟨hharmless.readable, hharmless.inspectable⟩
    obtain ⟨servers, hservers⟩ := (succeeds_interfaceDns_iff h).mpr hharmless.servers
    refine ⟨_, (collect_eq_ok_iff h).mpr
      ⟨reported, found, servers, hreported, hroute, hservers, rfl⟩, ?_⟩
    rw [complete_attachGateway_iff, complete_interfaces_iff hreported]
    exact ⟨hharmless.merged, hharmless.kept⟩

/-! ## A shadowed device -/

section Shadowed

private def plainTexts : Texts where
  lower t := t.map Char.toLower
  str
    | .str t => .ok t
    | _ => .ok []
  isGlobal _ := none

/-- The uplink `wan` runs over PPPoE, and a port of the switch has its name. -/
private def uplink : PyValue :=
  .dict [("interface".toList, .str "wan".toList), ("up".toList, .bool true),
    ("proto".toList, .str "pppoe".toList), ("device".toList, .str "pppoe-wan".toList)]

private def port : PyValue := .dict [("up".toList, .bool true), ("mtu".toList, .int 1500)]

private def shadowingDump (entry : PyValue) : Dict Text PyValue :=
  [("interface".toList, .list [entry])]

private def switchStatus : Dict Text PyValue :=
  [("pppoe-wan".toList, .dict [("mtu".toList, .int 1492)]), ("wan".toList, port)]

theorem shadowed_device : ¬∃ collected,
    collect plainTexts (.dict (shadowingDump uplink)) (.dict switchStatus) (.ok (.none, .none)) =
      .ok collected ∧
    Complete plainTexts (deviceMap (.dict switchStatus)) [uplink] collected.interfaces := by
  rintro ⟨collected, hcollected, hcomplete⟩
  have hport : ((do standalone plainTexts "wan".toList port (← statistics port)).toOption).isSome =
      true := by rfl
  obtain ⟨record, hrecord⟩ := Option.isSome_iff_exists.mp hport
  obtain ⟨i, hi, hname, _⟩ := hcomplete.devices "wan".toList port record (by rfl)
    ⟨toOption_eq_some.mp hrecord⟩
  have hdevices : ((collect plainTexts (.dict (shadowingDump uplink)) (.dict switchStatus)
      (.ok (.none, .none))).toOption.map fun c => c.interfaces.map (·.device)) =
        some [some "pppoe-wan".toList] := by rfl
  rw [hcollected] at hdevices
  have hnames : collected.interfaces.map (·.device) = [some "pppoe-wan".toList] :=
    Option.some.inj hdevices
  have hwan : some "wan".toList ∈ collected.interfaces.map (·.device) :=
    List.mem_map.mpr ⟨i, hi, hname⟩
  rw [hnames] at hwan
  exact absurd hwan (by decide)

/-- Without devices, the uplink is reported. -/
theorem uplink_complete : ∃ collected,
    collect plainTexts (.dict (shadowingDump uplink)) (.dict []) (.ok (.none, .none)) =
      .ok collected ∧
    Complete plainTexts (deviceMap (.dict [])) [uplink] collected.interfaces := by
  have hnames : entryNames uplink =
      .ok (some (.str "wan".toList, .str "pppoe-wan".toList)) := by rfl
  have hfields : (fieldsOf plainTexts [] (.str "pppoe-wan".toList)).toOption.isSome = true := by
    rfl
  have hdevices : deviceMap (.dict []) = [] := rfl
  have hnone (device : Text) : get? device (deviceMap (.dict [])) = none := by
    rw [hdevices, get?_nil]
  refine (reported_iff (by rfl)).mpr ⟨⟨?_, ?_, ?_, ?_, fun device dev record hget => ?_⟩,
    succeeds_ok _⟩
  · refine List.forall_mem_singleton.mpr ⟨rfl, fun name device h => ?_⟩
    rw [hnames] at h
    cases h
    refine ⟨rfl, rfl, fun htrue => ?_⟩
    rw [lookup, hnone] at htrue
    cases htrue
  · rw [hdevices]
    exact List.forall_mem_nil _
  · exact List.forall_mem_singleton.mpr ⟨[], by rfl⟩
  · refine List.forall_mem_singleton.mpr fun name device logical h => ?_
    have heq := h.names
    rw [hnames] at heq
    cases heq
    cases hok : fieldsOf plainTexts [] (.str "pppoe-wan".toList) with
    | ok fields => exact ⟨fields, hok⟩
    | error e =>
      rw [hok] at hfields
      cases hfields
  · rw [hnone] at hget
    cases hget

end Shadowed

end OpenWrtCopilot.Ports.NetworkInterfaces
