import OpenWrtCopilot.Ports.ManagementFirewall

/-!
# The wireless view of the management service

Ports `RouterManagementService.wireless`: the lines of one gathered output are
diverted by their markers, the `uci` lines are collected section by section, and
the sections typed `wifi-device` and `wifi-iface` become the radios and the
networks of the view.

The runtime state, which is read from JSON, is a parameter; the associated
stations, which come from it alone, are left out but for their number.
-/

namespace OpenWrtCopilot.Ports.Management

open Verified
open Verified.PyText
open Verified.PyDict
open Verified.MarkedOutput
open Verified.Uci
open Verified.UciReading

/-! ## Marked output -/

inductive WifiPart
  | uci
  | status
  | ifaces
  | leases
  deriving DecidableEq

def wifiMarkers : Dict Text (Option WifiPart) :=
  [("__AI_WIFI_UCI__".toList, some .uci), ("__AI_WIFI_STATUS__".toList, some .status),
    ("__AI_WIFI_IFACES__".toList, some .ifaces), ("__AI_WIFI_LEASES__".toList, some .leases),
    ("__AI_WIFI_DONE__".toList, none)]

/-! ## Runtime state -/

/-- What `ubus call wifi status` says about a radio. -/
structure RadioRuntime where
  up : Bool := false
  mode : Option Text := none
  hwmode : Option Text := none
  htmode : Option Text := none
  frequency : Option Int := none
  channel : Option Int := none
  txpower : Option Int := none
  ssid : Option Text := none
  country : Option Text := none
  stationCount : Nat := 0

/-- The whole status: the radios by name, and how many stations each interface
has. -/
structure WifiStatus where
  radio : Text → RadioRuntime
  stations : Text → Nat

/-- A carrier state and a station count. -/
structure IfaceState where
  up : Bool
  stations : Int

/-- `int(count) if count else 0`. -/
def stationsOf : Text → Except ServiceError Int
  | [] => .ok 0
  | c :: cs => do return (← intOf (c :: cs)).getD 0

/-- A line `name|carrier|count`. -/
def ifaceState (line : Text) : Except ServiceError (Text × IfaceState) := do
  let (name, rest) := partition ['|'] line
  let (carrier, count) := partition ['|'] (rest.getD [])
  let stations ← stationsOf (count.getD [])
  return (name, { up := carrier = ['1'], stations := stations })

/-- The state of the interfaces; a later line replaces an earlier one. -/
def ifaceStates : Dict Text IfaceState → List Text → Except ServiceError (Dict Text IfaceState)
  | states, [] => .ok states
  | states, line :: lines => do
      let (name, state) ← ifaceState line
      ifaceStates (set name state states) lines

/-! ## Bands and widths -/

/-- `_wifi_band`. -/
def wifiBand (hwmode : Option Text) (frequency : Option Int) : Option Text :=
  match frequency with
  | some mhz => some (if mhz ≥ 5000 then "5GHz" else "2.4GHz")
  | none =>
      match hwmode with
      | none => none
      | some [] => none
      | some text =>
          let mode := lowerAscii text
          if contains ['a'] mode then some "5GHz"
          else if contains ['b'] mode ∨ contains ['g'] mode then some "2.4GHz"
          else if contains "ax" mode ∨ contains "ac" mode then some "unknown"
          else none

/-- `re.search(r"(20|40|80|160|320)", t)`, as a number. -/
def searchWidth : Text → Option Nat
  | [] => none
  | c :: rest =>
      if startsWith "20" (c :: rest) then some 20
      else if startsWith "40" (c :: rest) then some 40
      else if startsWith "80" (c :: rest) then some 80
      else if startsWith "160" (c :: rest) then some 160
      else if startsWith "320" (c :: rest) then some 320
      else searchWidth rest

/-- `_wifi_width_mhz`. -/
def wifiWidthMhz (htmode hwmode : Option Text) : Option Nat :=
  if htmode.getD [] = [] then
    if contains ['n'] (lowerAscii (hwmode.getD [])) then some 20 else none
  else searchWidth (htmode.getD [])

/-- `a or b` for two texts that may be missing. -/
def orText (a b : Option Text) : Option Text := if a.getD [] = [] then b else a

/-- `_as_int(a or b)` for a configured text and a number of the runtime. -/
def orInt (a : Option Text) (b : Option Int) : Option Int :=
  if a.getD [] = [] then b else a.bind pyInt

/-! ## Reading the configuration -/

abbrev WifiSection := Dict Text Text

/-- `_WIFI_OPTION_RE` and `_WIFI_DEVICE_RE`. -/
def wifiReader (w : WordClass) : Reader Text where
  package := "wireless"
  isOptionChar := isNameChar
  isTypeChar := w.isWord
  allows value := !value.contains '\''
  option_name _ h := h
  type_quote := isWord_quote w
  put _ value := value
  typed type := type

/-- Sections of one type with their keys, in order. -/
def wifiSections (type : Text) (sections : Dict Text WifiSection) : Dict Text WifiSection :=
  sections.filter fun item => get? typeKey item.2 = some type

/-- `{"section": key, **section}["section"]`. -/
def shownSection (key : Text) (opt : WifiSection) : Text := (get? "section".toList opt).getD key

/-! ## The view -/

structure WirelessRadio where
  name : Text
  sectionId : Text
  up : Bool
  mode : Option Text
  band : Option Text
  channel : Option Int
  frequencyMhz : Option Int
  txPower : Option Int
  ssid : Option Text
  hwmode : Option Text
  widthMhz : Option Nat
  stationCount : Nat
  country : Option Text
  hardware : Option Text
  enabled : Bool
  guest : Bool

structure WirelessNetwork where
  ssid : Text
  radio : Text
  interface : Option Text
  mode : Option Text
  encryption : Option Text
  hidden : Bool
  enabled : Bool
  network : Option Text
  clientCount : Int
  sectionId : Text
  guest : Bool

structure WirelessView where
  running : Bool
  enabled : Bool
  radios : List WirelessRadio
  networks : List WirelessNetwork

/-- The radio of a `wifi-device` section. -/
def wirelessRadio (status : WifiStatus) (item : Text × WifiSection) : WirelessRadio :=
  let (key, opt) := item
  let get (name : String) := get? name.toList opt
  let name := (get "name").getD key
  let runtime := status.radio name
  let hwmode := orText (get "hwmode") runtime.hwmode
  let htmode := orText (get "htmode") runtime.htmode
  { name := name
    sectionId := shownSection key opt
    up := runtime.up
    mode := runtime.mode
    band := wifiBand hwmode runtime.frequency
    channel := orInt (get "channel") runtime.channel
    frequencyMhz := runtime.frequency
    txPower := orInt (get "txpower") runtime.txpower
    ssid := runtime.ssid
    hwmode := hwmode
    widthMhz := wifiWidthMhz htmode hwmode
    stationCount := runtime.stationCount
    country := orText (get "country") runtime.country
    hardware := get "path"
    enabled := get "disabled" ≠ some ['1']
    guest := get "guest" = some ['1'] }

/-- The network of a `wifi-iface` section. -/
def wirelessNetwork (status : WifiStatus) (states : Dict Text IfaceState)
    (item : Text × WifiSection) : WirelessNetwork :=
  let (key, opt) := item
  let get (name : String) := get? name.toList opt
  let ifname := (get "ifname").getD []
  let stations := status.stations ifname
  { ssid := (get "ssid").getD []
    radio := (get "device").getD []
    interface := get "ifname"
    mode := get "mode"
    encryption := get "encryption"
    hidden := get "hidden" = some ['1']
    enabled := get "disabled" ≠ some ['1']
    network := get "network"
    clientCount :=
      if stations ≠ 0 then stations else ((get? ifname states).map IfaceState.stations).getD 0
    sectionId := shownSection key opt
    guest := get "guest" = some ['1'] }

/-- `sorted(items, key=lambda item: item.get("ssid", ""))`. -/
def sortedBySsid (items : Dict Text WifiSection) : Dict Text WifiSection :=
  items.mergeSort fun a b =>
    (get? "ssid".toList a.2).getD [] ≤ (get? "ssid".toList b.2).getD []

/-- `RouterManagementService.wireless`, as a function of the gathered output;
`readStatus` reads the JSON of the status lines. -/
def wireless (w : WordClass) (readStatus : List Text → WifiStatus) (output : Text) :
    Except ServiceError WirelessView := do
  let lines := divert "__AI_WIFI_" wifiMarkers none (splitlines output)
  let status := readStatus (partLines .status lines)
  let states ← ifaceStates [] (partLines .ifaces lines)
  let sections := (wifiReader w).read (partLines .uci lines)
  let radios := (wifiSections "wifi-device" sections).map (wirelessRadio status)
  let networks :=
    (sortedBySsid (wifiSections "wifi-iface" sections)).map (wirelessNetwork status states)
  return {
    running := radios.any WirelessRadio.up
    enabled := radios.any WirelessRadio.enabled
    radios := radios
    networks := networks }

end OpenWrtCopilot.Ports.Management
