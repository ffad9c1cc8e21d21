import OpenWrtCopilot.Verified.PySplit
import OpenWrtCopilot.Ports.ManagementFirewall

/-!
# The firewall configuration of the router agent

Ports `parse_uci_firewall` of the agent's firewall collector.  Its option
pattern takes anything between the first and the last quote of a line; what
holds `' '` is split there into the values of a list.

The records validate their fields: a list where a text is expected raises.
-/

namespace OpenWrtCopilot.Ports.RouterAgent

open Verified.PyText
open Verified.PySplit
open Verified.PyDict
open Verified.Uci
open Verified.UciReading
open Ports.Management (FwValue isTrueWord pyOr isWord_quote)

/-! ## Values -/

/-- `_split_option_value`. -/
def splitOptionValue (value : Text) : List Text := (splitOn "' '" value).map strip

/-- The exceptions of the parser. -/
inductive AgentError
  | attributeError
  | valueError
  | validationError
  deriving DecidableEq

/-- `_as_bool`. -/
def asBool : Option FwValue → Except AgentError Bool
  | none => .ok false
  | some (.str text) => .ok (text ≠ [] && isTrueWord text)
  | some (.list items) => if items = [] then .ok false else .error .attributeError

/-- `_as_int`. -/
def asInt : Option FwValue → Except AgentError (Option Int)
  | none => .ok none
  | some (.str text) =>
      if text ≠ [] ∧ text.all isDigit then
        match pyInt text with
        | some n => .ok (some n)
        | none => .error .valueError
      else .ok none
  | some (.list _) => .error .attributeError

abbrev FwSection := Dict Text FwValue

/-- `_section_enabled`. -/
def sectionEnabled (opt : FwSection) : Except AgentError Bool :=
  match get? "disabled".toList opt with
  | some value => do return !(← asBool (some value))
  | none =>
      match get? "enabled".toList opt with
      | some value => .ok (value ≠ .str "0")
      | none => .ok true

/-- A field of a record that takes a text. -/
def textField : Option FwValue → Except AgentError (Option Text)
  | none => .ok none
  | some (.str text) => .ok (some text)
  | some (.list _) => .error .validationError

/-! ## Reading -/

/-- The value of an option line on top of what is stored. -/
def fwPut : Option FwValue → Text → FwValue
  | none, value =>
      match splitOptionValue value with
      | [token] => .str token
      | tokens => .list tokens
  | some (.list items), value => .list (items ++ splitOptionValue value)
  | some (.str old), value => .list (old :: splitOptionValue value)

/-- `_OPTION_LINE` and `_SECTION_LINE`. -/
def fwReader (w : WordClass) : Reader FwValue where
  package := "firewall"
  isOptionChar := w.isWord
  isTypeChar := w.isWord
  allows _ := true
  option_name _ h := w.isWord_of_isNameChar h
  type_quote := isWord_quote w
  put := fwPut
  typed := .str

/-! ## The records -/

structure FirewallDefaults where
  input : Option Text := none
  output : Option Text := none
  forward : Option Text := none
  masquerade : Bool := false
  synFlood : Bool := false
  osf : Bool := false
  mtu : Option Int := none

structure FirewallZone where
  name : Text
  enabled : Bool
  input : Option Text
  output : Option Text
  forward : Option Text
  masquerade : Bool
  network : List Text
  mtuFix : Bool

structure FirewallRule where
  name : Text
  src : Option Text
  dest : Option Text
  proto : Option Text
  target : Option Text
  family : Option Text
  srcPort : Option Text
  destPort : Option Text
  enabled : Bool
  sectionId : Text

structure FirewallForward where
  name : Text
  proto : Option Text
  src : Option Text
  srcDport : Option Text
  srcIp : Option Text
  dest : Option Text
  destIp : Option Text
  destPort : Option Text
  target : Option Text
  enabled : Bool
  sectionId : Text

structure FirewallNat where
  name : Text
  target : Option Text
  family : Option Text
  src : Option Text
  srcDport : Option Text
  dest : Option Text
  destIp : Option Text
  destPort : Option Text
  proto : Option Text
  enabled : Bool
  sectionId : Text

structure FirewallInfo where
  defaults : FirewallDefaults
  zones : List FirewallZone
  rules : List FirewallRule
  forwards : List FirewallForward
  nat : List FirewallNat

/-- What one section contributes. -/
inductive FirewallEntry
  | defaults (d : FirewallDefaults)
  | zone (z : FirewallZone)
  | rule (r : FirewallRule)
  | forward (f : FirewallForward)
  | nat (n : FirewallNat)

/-- `network_list`. -/
def networkList : Option FwValue → List Text
  | none => []
  | some (.str text) => if text = [] then [] else [text]
  | some (.list items) => items

def collectDefaults (opt : FwSection) : Except AgentError FirewallDefaults := do
  let masquerade ← asBool (get? "masq".toList opt)
  let synFlood ← asBool (pyOr (get? "synflood_protect".toList opt) (get? "syn_flood".toList opt))
  let osf ← asBool (get? "osf".toList opt)
  let mtu ← asInt (get? "mtu".toList opt)
  let input ← textField (get? "input".toList opt)
  let output ← textField (get? "output".toList opt)
  let forward ← textField (get? "forward".toList opt)
  return {
    input := input, output := output, forward := forward, masquerade := masquerade
    synFlood := synFlood, osf := osf, mtu := mtu }

def collectZone (opt : FwSection) : Except AgentError FirewallZone := do
  let enabled ← sectionEnabled opt
  let masquerade ← asBool (get? "masq".toList opt)
  let mtuFix ← asBool (get? "mtu_fix".toList opt)
  let name ← textField (get? "name".toList opt)
  let input ← textField (get? "input".toList opt)
  let output ← textField (get? "output".toList opt)
  let forward ← textField (get? "forward".toList opt)
  return {
    name := name.getD [], enabled := enabled, input := input, output := output
    forward := forward, masquerade := masquerade, network := networkList (get? "network".toList opt)
    mtuFix := mtuFix }

def collectRule (key : Text) (opt : FwSection) : Except AgentError FirewallRule := do
  let enabled ← sectionEnabled opt
  let name ← textField (get? "name".toList opt)
  let src ← textField (get? "src".toList opt)
  let dest ← textField (get? "dest".toList opt)
  let proto ← textField (get? "proto".toList opt)
  let target ← textField (get? "target".toList opt)
  let family ← textField (get? "family".toList opt)
  let srcPort ← textField (get? "src_port".toList opt)
  let destPort ← textField (get? "dest_port".toList opt)
  return {
    name := name.getD [], src := src, dest := dest, proto := proto, target := target
    family := family, srcPort := srcPort, destPort := destPort, enabled := enabled
    sectionId := key }

def collectForward (key : Text) (opt : FwSection) : Except AgentError FirewallForward := do
  let enabled ← sectionEnabled opt
  let name ← textField (get? "name".toList opt)
  let proto ← textField (get? "proto".toList opt)
  let src ← textField (get? "src".toList opt)
  let srcDport ← textField (pyOr (get? "src_dport".toList opt) (get? "dport".toList opt))
  let srcIp ← textField (get? "src_ip".toList opt)
  let dest ← textField (get? "dest".toList opt)
  let destIp ← textField (get? "dest_ip".toList opt)
  let destPort ← textField (get? "dest_port".toList opt)
  let target ← textField (get? "target".toList opt)
  return {
    name := name.getD [], proto := proto, src := src, srcDport := srcDport, srcIp := srcIp
    dest := dest, destIp := destIp, destPort := destPort, target := target, enabled := enabled
    sectionId := key }

def collectNat (key : Text) (opt : FwSection) : Except AgentError FirewallNat := do
  let enabled ← sectionEnabled opt
  let name ← textField (get? "name".toList opt)
  let target ← textField (get? "target".toList opt)
  let family ← textField (get? "family".toList opt)
  let src ← textField (get? "src".toList opt)
  let srcDport ← textField (get? "src_dport".toList opt)
  let dest ← textField (get? "dest".toList opt)
  let destIp ← textField (get? "dest_ip".toList opt)
  let destPort ← textField (get? "dest_port".toList opt)
  let proto ← textField (get? "proto".toList opt)
  return {
    name := name.getD [], target := target, family := family, src := src, srcDport := srcDport
    dest := dest, destIp := destIp, destPort := destPort, proto := proto, enabled := enabled
    sectionId := key }

/-- The entry of one section. -/
def firewallEntry (key : Text) (opt : FwSection) : Except AgentError (Option FirewallEntry) :=
  let stype := get? "_type".toList opt
  if stype = some (.str "defaults") then do return some (.defaults (← collectDefaults opt))
  else if stype = some (.str "zone") then do return some (.zone (← collectZone opt))
  else if stype = some (.str "rule") then do return some (.rule (← collectRule key opt))
  else if stype = some (.str "redirect") then do return some (.forward (← collectForward key opt))
  else if stype = some (.str "nat") then do return some (.nat (← collectNat key opt))
  else return none

/-- `parse_uci_firewall`. -/
def parseUciFirewall (w : WordClass) (text : Text) : Except AgentError FirewallInfo := do
  let sections := (fwReader w).read ((splitlines text).map strip)
  let entries ← collect firewallEntry sections
  return {
    defaults := ((entries.filterMap fun | .defaults d => some d | _ => none).getLast?).getD {}
    zones := entries.filterMap fun | .zone z => some z | _ => none
    rules := entries.filterMap fun | .rule r => some r | _ => none
    forwards := entries.filterMap fun | .forward f => some f | _ => none
    nat := entries.filterMap fun | .nat n => some n | _ => none }

/-! ## Splitting at list separators -/

theorem splitOptionValue_of_notMem {t : Text} (h : '\'' ∉ t) : splitOptionValue t = [strip t] := by
  rw [splitOptionValue, splitOn, show ("' '".toList) = '\'' :: [' ', '\''] from rfl,
    splitFrom_of_notMem h]
  rfl

theorem splitOptionValue_of_length {t : Text} (h : (splitOptionValue t).length = 1) :
    splitOptionValue t = [strip t] := by
  rw [splitOptionValue, List.length_map] at h
  rw [splitOptionValue, splitOn, splitFrom_of_length h]
  rfl

theorem splitOptionValue_ne_nil (t : Text) : splitOptionValue t ≠ [] := by
  rw [splitOptionValue, Ne, List.map_eq_nil_iff]
  exact splitFrom_ne_nil _ _ _ _

end OpenWrtCopilot.Ports.RouterAgent
