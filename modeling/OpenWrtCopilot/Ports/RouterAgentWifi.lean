import OpenWrtCopilot.Verified.UciReading

/-!
# The wireless configuration of the router agent

Ports `_parse_uci_wireless` of the agent's WiFi collector: the devices and the
interfaces of a `uci show wireless` text.
-/

namespace OpenWrtCopilot.Ports.RouterAgent

open Verified.PyText
open Verified.PyDict
open Verified.Uci
open Verified.UciReading

abbrev WifiSection := Dict Text Text

/-- `_OPTION_LINE` and `_SECTION_LINE`. -/
def wifiReader (w : WordClass) : Reader Text where
  package := "wireless"
  isOptionChar := w.isWord
  isTypeChar := isTypeChar
  allows value := !value.contains '\''
  option_name c h := by rw [w.isWord_of_isNameChar h]
  type_quote := by decide
  put _ value := value
  typed type := type

/-- Device configurations by section key, and interface configurations that
carry their key as `_section`. -/
structure UciWireless where
  devices : Dict Text WifiSection
  ifaces : List WifiSection

/-- `_parse_uci_wireless`. -/
def parseUciWireless (w : WordClass) (text : Text) : UciWireless :=
  let sections := (wifiReader w).read ((splitlines text).map strip)
  let typedAs (type : Text) := sections.filter fun item => get? typeKey item.2 = some type
  { devices := typedAs "wifi-device"
    ifaces := (typedAs "wifi-iface").map fun (key, opt) => set "_section".toList key opt }

end OpenWrtCopilot.Ports.RouterAgent
