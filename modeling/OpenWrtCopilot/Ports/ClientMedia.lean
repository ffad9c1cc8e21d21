import OpenWrtCopilot.Verified.PyDict
import OpenWrtCopilot.Verified.PyPattern

/-!
# The connection medium of clients

Ports `client_media`: from the leases, the ARP and neighbour tables, the stations
and the interfaces of a snapshot, whether each client is wired or wireless.

A Python set is a list here, of which only the members count.  Of the interface and
station records the fields are those that are read here or for the network status.

## Main results

* `get?_classifyClientMedia` — what is said of each MAC: stations are wireless, and
  the other clients are classified by the interfaces they were seen on.
-/

namespace OpenWrtCopilot.Ports.ClientMedia

open Verified
open Verified.PyText
open Verified.PyDict

/-! ## Records -/

structure WifiClient where
  mac : Text
  interface : Option Text := none

structure DhcpLease where
  hostname : Text := []
  ip : Text
  mac : Option Text := none
  expires : Option Text := none
  interface : Option Text := none

structure ArpEntry where
  ip : Text
  mac : Text
  interface : Text
  state : Text := "unknown"

structure NeighborEntry where
  ip : Text
  mac : Option Text := none
  interface : Option Text := none
  state : Option Text := none

structure NetworkInterface where
  name : Text
  proto : Option Text := none
  device : Option Text := none
  isBridge : Bool := false
  bridgeMembers : List Text := []

inductive Medium
  | wired
  | wireless
  | unknown
  deriving DecidableEq

/-! ## Names -/

/-- A text Python takes for true. -/
def truthy : Option Text → Option Text
  | some [] => none
  | t => t

def lowerHexDigit (c : Char) : Bool := c.isDigit || ('a' ≤ c && c ≤ 'f')

/-- `normalize_mac`.  A letter outside ASCII is no hexadecimal digit in lower case
either. -/
def normalizeMac (mac : Option Text) : Option Text :=
  match truthy mac with
  | none => none
  | some mac =>
      let compact := (mac.map Char.toLower).filter fun c => c ≠ ':' ∧ c ≠ '-' ∧ c ≠ '.'
      if compact.length = 12 ∧ compact.all lowerHexDigit then some compact else none

/-- Whether a letter of a pattern matches a character under `re.I`: besides the two
cases, the dotless and the dotted `i`, the long `s` and the Kelvin sign. -/
def matchesLetter (letter c : Char) : Bool :=
  c.toLower = letter || (letter = 'i' && (c.toNat = 0x130 || c.toNat = 0x131)) ||
    (letter = 's' && c.toNat = 0x17F) || (letter = 'k' && c.toNat = 0x212A)

/-- `[0-9a-z…]` under `re.I`. -/
def nameChar (extra : List Char) (c : Char) : Bool :=
  PyPattern.alnumOr extra c || [0x130, 0x131, 0x17F, 0x212A].contains c.toNat

/-- What follows a prefix of the text, read under `re.I`. -/
def afterPrefix : Text → Text → Option Text
  | [], t => some t
  | _ :: _, [] => none
  | letter :: letters, c :: t => if matchesLetter letter c then afterPrefix letters t else none

/-- `re.match("^(p1|p2|…)[0-9a-z…]*$", t, re.I)`. -/
def matchesName (prefixes : List Text) (extra : List Char) (t : Text) : Bool :=
  prefixes.any fun pre =>
    (afterPrefix pre t).any
      (PyPattern.matchClass (nameChar extra) { least := 0, most := none })

/-- `_WIRELESS_IFACE`. -/
def wirelessIface : Text → Bool :=
  matchesName ["phy", "wlan", "wl", "wifi", "radio", "ra", "rai"] ['-']

/-- `_WIRED_IFACE`.  The digit after `wan` may be missing, that after `lan` may not. -/
def wiredIface : Text → Bool :=
  matchesName
    ["eth", "en", "ge", "gbe", "xgbe", "wan", "lan0", "lan1", "lan2", "lan3", "lan4", "lan5",
      "lan6", "lan7", "lan8", "lan9", "usb", "ppp", "wwan"] ['.', '-']

/-! ## Interfaces -/

/-- `d.setdefault(key, set()).update(members)`. -/
def addMembers (key : Text) (members : List Text) (d : Dict Text (List Text)) :
    Dict Text (List Text) :=
  set key ((get? key d).getD [] ++ members) d

/-- `_bridge_members_of`. -/
def bridgeMembersOf (network : List NetworkInterface) : Dict Text (List Text) :=
  network.foldl (fun members iface =>
    if !iface.isBridge && !startsWith "br-" iface.name then members
    else
      let memberSet := iface.bridgeMembers.filter (· ≠ [])
      if memberSet = [] then members
      else
        let named := if iface.name = [] then members else addMembers iface.name memberSet members
        match truthy iface.device with
        | some device => if device = iface.name then named else addMembers device memberSet named
        | none => named) []

/-- `_logical_device_map`. -/
def logicalDeviceMap (network : List NetworkInterface) : Dict Text Text :=
  network.foldl (fun devices iface =>
    match truthy iface.device with
    | some device => if iface.name = [] then devices else set iface.name device devices
    | none => devices) []

/-- `_member_medium`. -/
def memberMedium (wireless : List Text) (member : Text) : Medium :=
  if wireless.contains member || wirelessIface member then .wireless
  else if wiredIface member then .wired
  else .unknown

/-- `media == {medium}`. -/
def onlyMedium (medium : Medium) (media : List Medium) : Bool :=
  media ≠ [] && media.all (· = medium)

/-- `_iface_medium`. -/
def ifaceMedium (wireless : List Text) (bridgeMembers : Dict Text (List Text))
    (logicalDevices : Dict Text Text) (iface : Text) : Medium :=
  if wireless.contains iface then .wireless
  else if wirelessIface iface then .wireless
  else if wiredIface iface then .wired
  else
    let resolved := (get? iface logicalDevices).getD iface
    match (get? resolved bridgeMembers).orElse fun _ => get? iface bridgeMembers with
    | some members =>
        let media := members.map (memberMedium wireless)
        if onlyMedium .wireless media then .wireless
        else if onlyMedium .wired media then .wired
        else .unknown
    | none => .unknown

/-! ## Clients -/

/-- A client was seen on an interface. -/
def addSighting (mac interface : Option Text) (ifacesByMac : Dict Text (List Text)) :
    Dict Text (List Text) :=
  match truthy mac, truthy interface with
  | some mac, some interface =>
      match normalizeMac (some mac) with
      | some key => addMembers key [interface] ifacesByMac
      | none => ifacesByMac
  | _, _ => ifacesByMac

/-- `ifaces_by_mac`, from the three tables. -/
def ifacesByMac (leases : List DhcpLease) (arp : List ArpEntry) (neighbors : List NeighborEntry) :
    Dict Text (List Text) :=
  let fromLeases := leases.foldl (fun d lease => addSighting lease.mac lease.interface d) []
  let fromArp :=
    arp.foldl (fun d entry => addSighting (some entry.mac) (some entry.interface) d) fromLeases
  neighbors.foldl (fun d entry => addSighting entry.mac entry.interface d) fromArp

/-- `station_macs`. -/
def stationMacs (wifiClients : List WifiClient) : List Text :=
  wifiClients.filterMap fun client => normalizeMac (some client.mac)

/-- The medium of a client that is no station. -/
def mediumOf (media : List Medium) : Medium :=
  if media.contains .wireless then .wireless
  else if onlyMedium .wired media then .wired
  else .unknown

/-- The interfaces that are known to be wireless. -/
def wirelessSet (wirelessInterfaces : List Text) (wifiClients : List WifiClient) : List Text :=
  wirelessInterfaces ++ wifiClients.filterMap fun client => truthy client.interface

/-- The medium of a client that was seen on these interfaces. -/
def clientMedium (wireless : List Text) (network : List NetworkInterface)
    (interfaces : List Text) : Medium :=
  mediumOf (interfaces.map
    (ifaceMedium wireless (bridgeMembersOf network) (logicalDeviceMap network)))

/-- `classify_client_media`. -/
def classifyClientMedia (leases : Option (List DhcpLease)) (arp : Option (List ArpEntry))
    (neighbors : Option (List NeighborEntry)) (wifiClients : Option (List WifiClient))
    (network : Option (List NetworkInterface)) (wirelessInterfaces : Option (List Text)) :
    Dict Text Medium :=
  let wifiClients := wifiClients.getD []
  let wireless := wirelessSet (wirelessInterfaces.getD []) wifiClients
  let stations :=
    (stationMacs wifiClients).foldl (fun result mac => set mac Medium.wireless result) []
  (ifacesByMac (leases.getD []) (arp.getD []) (neighbors.getD [])).foldl
    (fun result item => setdefault item.1 (clientMedium wireless (network.getD []) item.2) result)
    stations

/-! ## What is said of each client -/

theorem get?_foldl_set (macs : List Text) (medium : Medium) (d : Dict Text Medium) (mac : Text) :
    get? mac (macs.foldl (fun result mac => set mac medium result) d) =
      if mac ∈ macs then some medium else get? mac d := by
  induction macs generalizing d with
  | nil => rfl
  | cons first macs ih =>
    rw [List.foldl_cons, ih]
    by_cases hmacs : mac ∈ macs
    · rw [if_pos hmacs, if_pos (List.mem_cons_of_mem _ hmacs)]
    · rw [if_neg hmacs]
      by_cases hfirst : mac = first
      · rw [hfirst, get?_set_self, if_pos List.mem_cons_self]
      · have hnone : mac ∉ first :: macs := by
          rw [List.mem_cons, not_or]
          exact ⟨hfirst, hmacs⟩
        rw [get?_set_of_ne hfirst, if_neg hnone]

/-- Stations are wireless; any other client has the medium of the interfaces it was
seen on. -/
theorem get?_classifyClientMedia (leases : Option (List DhcpLease)) (arp : Option (List ArpEntry))
    (neighbors : Option (List NeighborEntry)) (wifiClients : Option (List WifiClient))
    (network : Option (List NetworkInterface)) (wirelessInterfaces : Option (List Text))
    (mac : Text) :
    get? mac (classifyClientMedia leases arp neighbors wifiClients network wirelessInterfaces) =
      if mac ∈ stationMacs (wifiClients.getD []) then some .wireless
      else
        (get? mac (ifacesByMac (leases.getD []) (arp.getD []) (neighbors.getD []))).map
          (clientMedium (wirelessSet (wirelessInterfaces.getD []) (wifiClients.getD []))
            (network.getD [])) := by
  rw [classifyClientMedia, get?_foldl_setdefault (clientMedium _ _), get?_foldl_set]
  by_cases hstation : mac ∈ stationMacs (wifiClients.getD [])
  · rw [if_pos hstation, if_pos hstation, Option.some_or]
  · rw [if_neg hstation, if_neg hstation, get?_nil, Option.none_or]

end OpenWrtCopilot.Ports.ClientMedia
