import OpenWrtCopilot.Verified.MarkedOutput
import OpenWrtCopilot.Verified.UciReading
import OpenWrtCopilot.Ports.ManagementOperations

/-!
# The firewall view of the management service

Ports `RouterManagementService.firewall`: the lines of one gathered output are
diverted by their markers, the `uci` lines are collected section by section, and
each section becomes an entry of the view by its type.

The interface table, which is read from JSON and only passed on, is left out.
-/

namespace OpenWrtCopilot.Ports.Management

open Verified
open Verified.PyText
open Verified.PyDict
open Verified.MarkedOutput
open Verified.Uci
open Verified.UciReading

/-! ## Marked output -/

inductive FirewallPart
  | config
  | interfaces
  | status
  | conntrack
  | ipset
  deriving DecidableEq

def firewallMarkers : Dict Text (Option FirewallPart) :=
  [("__AI_FW_CONFIG__".toList, some .config), ("__AI_FW_INTERFACES__".toList, some .interfaces),
    ("__AI_FW_STATUS__".toList, some .status), ("__AI_FW_CONNTRACK__".toList, some .conntrack),
    ("__AI_FW_IPSET__".toList, some .ipset), ("__AI_FW_DONE__".toList, none)]

/-! ## Option values -/

/-- A value in a section's dictionary: a string, or the strings of an option
that was read more than once. -/
inductive FwValue
  | str (text : Text)
  | list (items : List Text)
  deriving DecidableEq

/-- The truth value of what `dict.get` returned. -/
def truthy : Option FwValue → Bool
  | none => false
  | some (.str text) => text ≠ []
  | some (.list items) => items ≠ []

/-- `a or b`. -/
def pyOr (a b : Option FwValue) : Option FwValue := if truthy a then a else b

/-- `str.lower`, of which only the comparison with ASCII words matters: no other
character lowers to an ASCII letter but the Kelvin sign, to `k`. -/
def lowerAscii (t : Text) : Text := t.map Char.toLower

/-- The words UCI takes for true. -/
def trueWords : List Text := ["1", "yes", "true", "on"].map String.toList

def isTrueWord (t : Text) : Bool := trueWords.contains (lowerAscii t)

/-- Calling a method of `str` on a list. -/
def noAttribute {α : Type} (name : String) : Except ServiceError α :=
  .error (.builtin "AttributeError" ("'list' object has no attribute '" ++ name ++ "'"))

/-- `_fw_bool`. -/
def fwBool : Option FwValue → Except ServiceError Bool
  | none => .ok false
  | some (.str text) => .ok (text ≠ [] && isTrueWord text)
  | some (.list items) => if items = [] then .ok false else noAttribute "lower"

/-- `int(value)` for a string. -/
def intOf (text : Text) : Except ServiceError (Option Int) :=
  match pyInt text with
  | some n => .ok (some n)
  | none => .error (.builtin "ValueError" ("invalid literal for int() with base 10: " ++ text))

/-- `_fw_int`. -/
def fwInt : Option FwValue → Except ServiceError (Option Int)
  | none => .ok none
  | some (.str text) => if text ≠ [] ∧ text.all isDigit then intOf text else .ok none
  | some (.list items) => if items = [] then .ok none else noAttribute "isdigit"

abbrev FwSection := Dict Text FwValue

/-- `_fw_section_enabled`. -/
def fwSectionEnabled (opt : FwSection) : Except ServiceError Bool :=
  match get? "disabled".toList opt with
  | some value => do return !(← fwBool (some value))
  | none =>
      match get? "enabled".toList opt with
      | some value => .ok (value ≠ .str "0")
      | none => .ok true

/-! ## Reading the configuration -/

/-- An option read again becomes a list. -/
def fwPut : Option FwValue → Text → FwValue
  | none, value => .str value
  | some (.list items), value => .list (items ++ [value])
  | some (.str old), value => .list [old, value]

theorem isWord_quote (w : WordClass) : w.isWord '\'' = false := w.ascii '\'' (by decide)

/-- `_FW_OPTION_RE` and `_FW_SECTION_RE`. -/
def fwReader (w : WordClass) : Reader FwValue where
  package := "firewall"
  isOptionChar := isNameChar
  isTypeChar := w.isWord
  allows value := !value.contains '\''
  option_name _ h := h
  type_quote := isWord_quote w
  put := fwPut
  typed := .str

/-! ## The entries of the view -/

structure FwDefaults where
  input : Option FwValue
  output : Option FwValue
  forward : Option FwValue
  masquerade : Bool
  synFlood : Bool
  osf : Bool
  mtu : Option Int
  deriving DecidableEq

structure FwZone where
  name : FwValue
  sectionId : Text
  enabled : Bool
  family : Option FwValue
  input : Option FwValue
  output : Option FwValue
  forward : Option FwValue
  masquerade : Bool
  mtuFix : Bool
  network : Option FwValue
  deriving DecidableEq

structure FwRule where
  name : FwValue
  src : Option FwValue
  dest : Option FwValue
  proto : Option FwValue
  target : Option FwValue
  family : Option FwValue
  srcPort : Option FwValue
  destPort : Option FwValue
  enabled : Bool
  sectionId : Text
  deriving DecidableEq

/-- A port forward. -/
structure FwRedirect where
  name : FwValue
  src : Option FwValue
  srcDport : Option FwValue
  srcIp : Option FwValue
  dest : Option FwValue
  destIp : Option FwValue
  destPort : Option FwValue
  proto : Option FwValue
  target : FwValue
  family : Option FwValue
  enabled : Bool
  sectionId : Text
  deriving DecidableEq

structure FwForwarding where
  name : FwValue
  src : Option FwValue
  dest : Option FwValue
  family : Option FwValue
  enabled : Bool
  sectionId : Text
  deriving DecidableEq

structure FwNat where
  name : FwValue
  src : Option FwValue
  dest : Option FwValue
  srcDport : Option FwValue
  destIp : Option FwValue
  destPort : Option FwValue
  proto : Option FwValue
  target : Option FwValue
  family : Option FwValue
  enabled : Bool
  sectionId : Text
  deriving DecidableEq

structure FwInclude where
  name : FwValue
  path : Option FwValue
  type : Option FwValue
  enabled : Bool
  sectionId : Text
  deriving DecidableEq

structure FwIpset where
  name : FwValue
  sectionId : Text
  family : Option FwValue
  «match» : Option FwValue
  enabled : Bool
  entries : List Text
  deriving DecidableEq

/-- What one section contributes to the view. -/
inductive FwEntry
  | defaults (d : FwDefaults)
  | zone (z : FwZone)
  | rule (r : FwRule)
  | redirect (r : FwRedirect)
  | forwarding (f : FwForwarding)
  | nat (n : FwNat)
  | «include» (i : FwInclude)
  | ipset (i : FwIpset)
  deriving DecidableEq

/-- `section.get("name", "")`. -/
def fwName (opt : FwSection) : FwValue := (get? "name".toList opt).getD (.str [])

/-- `list(entries) if isinstance(entries, list) else ([entries] if entries else [])`. -/
def fwEntries (opt : FwSection) : List Text :=
  match get? "entries".toList opt with
  | none => []
  | some (.str text) => if text = [] then [] else [text]
  | some (.list items) => items

/-- The entry of one section; `hasIpset` says whether the tool was found. -/
def fwEntry (hasIpset : Bool) (key : Text) (opt : FwSection) :
    Except ServiceError (Option FwEntry) := do
  let get (name : String) := get? name.toList opt
  let stype := get "_type"
  if stype = some (.str "defaults") then
    let masquerade ← fwBool (get "masq")
    let synFlood ← fwBool (pyOr (get "synflood_protect") (get "syn_flood"))
    let osf ← fwBool (get "osf")
    let mtu ← fwInt (get "mtu")
    return some (.defaults
      { input := get "input", output := get "output", forward := get "forward"
        masquerade := masquerade, synFlood := synFlood, osf := osf, mtu := mtu })
  else if stype = some (.str "zone") then
    let enabled ← fwSectionEnabled opt
    let masquerade ← fwBool (get "masq")
    let mtuFix ← fwBool (get "mtu_fix")
    return some (.zone
      { name := fwName opt, sectionId := key, enabled := enabled, family := get "family"
        input := get "input", output := get "output", forward := get "forward"
        masquerade := masquerade, mtuFix := mtuFix, network := get "network" })
  else if stype = some (.str "rule") then
    let enabled ← fwSectionEnabled opt
    return some (.rule
      { name := fwName opt, src := get "src", dest := get "dest", proto := get "proto"
        target := get "target", family := get "family", srcPort := get "src_port"
        destPort := get "dest_port", enabled := enabled, sectionId := key })
  else if stype = some (.str "redirect") then
    let enabled ← fwSectionEnabled opt
    return some (.redirect
      { name := fwName opt, src := get "src", srcDport := pyOr (get "src_dport") (get "dport")
        srcIp := get "src_ip", dest := get "dest", destIp := get "dest_ip"
        destPort := get "dest_port", proto := get "proto"
        target := (get "target").getD (.str "DNAT"), family := get "family"
        enabled := enabled, sectionId := key })
  else if stype = some (.str "forwarding") then
    let enabled ← fwSectionEnabled opt
    return some (.forwarding
      { name := fwName opt, src := get "src", dest := get "dest", family := get "family"
        enabled := enabled, sectionId := key })
  else if stype = some (.str "nat") then
    let enabled ← fwSectionEnabled opt
    return some (.nat
      { name := fwName opt, src := get "src", dest := get "dest", srcDport := get "src_dport"
        destIp := get "dest_ip", destPort := get "dest_port", proto := get "proto"
        target := get "target", family := get "family", enabled := enabled, sectionId := key })
  else if stype = some (.str "include") then
    let enabled ← fwSectionEnabled opt
    return some (.include
      { name := fwName opt, path := get "path", type := stype, enabled := enabled
        sectionId := key })
  else if stype = some (.str "ipset") ∧ hasIpset = true then
    let enabled ← fwSectionEnabled opt
    return some (.ipset
      { name := fwName opt, sectionId := key, family := get "family", «match» := get "match"
        enabled := enabled, entries := fwEntries opt })
  else return none

/-- The entries of all sections, in order. -/
abbrev fwEntriesOf (hasIpset : Bool) (sections : Dict Text FwSection) :
    Except ServiceError (List FwEntry) :=
  collect (fwEntry hasIpset) sections

/-! ## Entries by type -/

theorem fwEntry_zone (hasIpset : Bool) (key : Text) {opt : FwSection}
    (h : get? typeKey opt = some (.str "zone")) :
    fwEntry hasIpset key opt = (do
      let enabled ← fwSectionEnabled opt
      let masquerade ← fwBool (get? "masq".toList opt)
      let mtuFix ← fwBool (get? "mtu_fix".toList opt)
      return some (.zone
        { name := fwName opt, sectionId := key, enabled := enabled
          family := get? "family".toList opt, input := get? "input".toList opt
          output := get? "output".toList opt, forward := get? "forward".toList opt
          masquerade := masquerade, mtuFix := mtuFix, network := get? "network".toList opt })) := by
  have hother : FwValue.str "zone" ≠ .str "defaults" := by decide
  simp only [fwEntry, show get? "_type".toList opt = _ from h, Option.some.injEq, hother, if_false,
    if_true]

theorem fwEntry_rule (hasIpset : Bool) (key : Text) {opt : FwSection}
    (h : get? typeKey opt = some (.str "rule")) :
    fwEntry hasIpset key opt = (do
      let enabled ← fwSectionEnabled opt
      return some (.rule
        { name := fwName opt, src := get? "src".toList opt, dest := get? "dest".toList opt
          proto := get? "proto".toList opt, target := get? "target".toList opt
          family := get? "family".toList opt, srcPort := get? "src_port".toList opt
          destPort := get? "dest_port".toList opt, enabled := enabled, sectionId := key })) := by
  have hother : FwValue.str "rule" ≠ .str "defaults" ∧ FwValue.str "rule" ≠ .str "zone" := by
    decide
  simp only [fwEntry, show get? "_type".toList opt = _ from h, Option.some.injEq, hother.1,
    hother.2, if_false, if_true]

theorem fwEntry_redirect (hasIpset : Bool) (key : Text) {opt : FwSection}
    (h : get? typeKey opt = some (.str "redirect")) :
    fwEntry hasIpset key opt = (do
      let enabled ← fwSectionEnabled opt
      return some (.redirect
        { name := fwName opt, src := get? "src".toList opt
          srcDport := pyOr (get? "src_dport".toList opt) (get? "dport".toList opt)
          srcIp := get? "src_ip".toList opt, dest := get? "dest".toList opt
          destIp := get? "dest_ip".toList opt, destPort := get? "dest_port".toList opt
          proto := get? "proto".toList opt
          target := (get? "target".toList opt).getD (.str "DNAT")
          family := get? "family".toList opt, enabled := enabled, sectionId := key })) := by
  have hother : FwValue.str "redirect" ≠ .str "defaults" ∧ FwValue.str "redirect" ≠ .str "zone" ∧
      FwValue.str "redirect" ≠ .str "rule" := by
    decide
  simp only [fwEntry, show get? "_type".toList opt = _ from h, Option.some.injEq, hother.1,
    hother.2.1, hother.2.2, if_false, if_true]

theorem fwEntry_forwarding (hasIpset : Bool) (key : Text) {opt : FwSection}
    (h : get? typeKey opt = some (.str "forwarding")) :
    fwEntry hasIpset key opt = (do
      let enabled ← fwSectionEnabled opt
      return some (.forwarding
        { name := fwName opt, src := get? "src".toList opt, dest := get? "dest".toList opt
          family := get? "family".toList opt, enabled := enabled, sectionId := key })) := by
  have hother : FwValue.str "forwarding" ≠ .str "defaults" ∧
      FwValue.str "forwarding" ≠ .str "zone" ∧ FwValue.str "forwarding" ≠ .str "rule" ∧
      FwValue.str "forwarding" ≠ .str "redirect" := by
    decide
  simp only [fwEntry, show get? "_type".toList opt = _ from h, Option.some.injEq, hother.1,
    hother.2.1, hother.2.2.1, hother.2.2.2, if_false, if_true]

/-! ## The view -/

structure FirewallView where
  enabled : Bool
  running : Bool
  version : Option Text
  defaults : Option FwDefaults
  zones : List FwZone
  rules : List FwRule
  portForwards : List FwRedirect
  forwardings : List FwForwarding
  nat : List FwNat
  includes : List FwInclude
  ipsets : List FwIpset
  ipsetsAvailable : Bool
  /-- Count and maximum, when either was printed. -/
  conntrack : Option (Option Int × Option Int)
  deriving DecidableEq

def statusTokens : List Text :=
  ["running", "stopped", "boot-enabled", "boot-disabled"].map String.toList

/-- The text after the last `<name>=` line. -/
def lastAssignment (name : Text) (lines : List Text) : Text :=
  ((lines.filter (startsWith (name ++ ['=']))).getLast?.map fun line =>
    strip (line.drop (name.length + 1))).getD []

/-- `int(raw) if raw.isdigit() else None`. -/
def countOf (raw : Text) : Except ServiceError (Option Int) :=
  if raw ≠ [] ∧ raw.all isDigit then intOf raw else .ok none

/-- `needle in t`. -/
def contains (needle t : Text) : Bool := (partition needle t).2.isSome

/-- The view of the diverted lines and the entries made from them. -/
def firewallView (lines : List (FirewallPart × Text)) (entries : List FwEntry)
    (count max : Option Int) : FirewallView :=
  let ipsetLines := partLines .ipset lines
  let statusLines := (partLines .status lines).map strip
  let conntrackLines := partLines .conntrack lines
  { enabled := statusLines.any fun line => lowerAscii line = "boot-enabled".toList
    running := statusLines.any fun line => lowerAscii line = "running".toList
    version := statusLines.find? fun line => !statusTokens.contains (lowerAscii line)
    defaults := (entries.filterMap fun | .defaults d => some d | _ => none).getLast?
    zones := entries.filterMap fun | .zone z => some z | _ => none
    rules := entries.filterMap fun | .rule r => some r | _ => none
    portForwards := entries.filterMap fun | .redirect r => some r | _ => none
    forwardings := entries.filterMap fun | .forwarding f => some f | _ => none
    nat := entries.filterMap fun | .nat n => some n | _ => none
    includes := entries.filterMap fun | .include i => some i | _ => none
    ipsets := entries.filterMap fun | .ipset i => some i | _ => none
    ipsetsAvailable := (ipsetLines.head?.map (contains "available")).getD false
    conntrack :=
      if lastAssignment "count" conntrackLines ≠ [] ∨ lastAssignment "max" conntrackLines ≠ []
        then some (count, max)
      else none }

/-- `RouterManagementService.firewall`, as a function of the gathered output. -/
def firewall (w : WordClass) (output : Text) : Except ServiceError FirewallView := do
  let lines := divert "__AI_FW_" firewallMarkers none (splitlines output)
  let sections := (fwReader w).read (partLines .config lines)
  let entries ← fwEntriesOf (!(partLines .ipset lines).isEmpty) sections
  let count ← countOf (lastAssignment "count" (partLines .conntrack lines))
  let max ← countOf (lastAssignment "max" (partLines .conntrack lines))
  return firewallView lines entries count max

end OpenWrtCopilot.Ports.Management
