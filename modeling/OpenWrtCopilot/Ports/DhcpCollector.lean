import OpenWrtCopilot.Verified.UciReading

/-!
# The DHCP collector

Ports what the DHCP collector makes of `uci show dhcp`: the sections with the values of their
options, the types of the sections, and from these the address pools, the static leases and what
`dhcp_option` lists say about the gateway and the resolvers.

## Main results

* `parseDnsmasq_eq` — the static leases, the gateway and the resolvers that are found.
* `resolvePoolRange_isOk_iff` — when the range of a pool raises.
-/

namespace OpenWrtCopilot.Ports.DhcpCollector

open Verified.PyText
open Verified.PyDict
open Verified.Uci (isNameChar)
open Verified.UciReading

/-! ## Sections -/

/-- The values of the options of a section. -/
abbrev Opts := Dict Text (List Text)

/-- The sections by name and their types by name. -/
abbrev Sections := Dict Text Opts × Dict Text Text

/-- The pattern of an option line. -/
def patterns (w : WordClass) : LinePatterns where
  package := "dhcp".toList
  isOptionChar := w.isWord
  isTypeChar := isNameChar
  allows t := !t.contains '\''
  option_name _ := w.isWord_of_isNameChar
  type_quote := by decide

/-- `_SECTION_LINE.match`. -/
def sectionLine (line : Text) : Option (Text × Text) :=
  if startsWith "dhcp.".toList line = true then
    match splitFirst '=' (line.drop 5) with
    | (name, some type) =>
        if name ≠ [] ∧ '.' ∉ name ∧ type ≠ [] ∧ type.all (fun c => c ≠ '=' ∧ !isSpace c) = true then
          some (name, type)
        else none
    | (_, none) => none
  else none

/-- A line of the loop of `_uci_sections`. -/
def readLine (w : WordClass) (state : Sections) (line : Text) : Sections :=
  match sectionLine line with
  | some (name, type) => (state.1, set name type state.2)
  | none =>
      match (patterns w).optionLine line with
      | some (name, option, value) =>
          let opts := (get? name state.1).getD []
          let values := (get? option opts).getD []
          (set name (set option (values ++ [value]) opts) state.1, state.2)
      | none => state

/-- `_uci_sections`. -/
def uciSections (w : WordClass) (text : Text) : Sections :=
  (splitlines text).foldl (fun state line => readLine w state (strip line)) ([], [])

/-- `opts.get(key, [default])[0]`. -/
def optFirst (opts : Opts) (key : Text) (default : Option Text) : Option Text :=
  match get? key opts with
  | some values => values.head?
  | none => default

/-- `_is_type`. -/
def isType (name pre : Text) (types : Dict Text Text) (expected : Text) : Bool :=
  startsWith ('@' :: pre) name || get? name types = some expected

/-! ## Pools -/

/-- `DhcpPool`. -/
structure DhcpPool where
  name : Text
  interface : Option Text
  start : Option Text
  limit : Option Int
  leasetime : Option Text
  rangeEnd : Option Text

/-- A `ValueError`. -/
inductive CollectorError
  | valueError
  deriving DecidableEq

/-- `ipaddress.ip_address`: the number of an address, and the text of the address with a number,
which is there for 128 bits. -/
structure Addresses where
  parse : Text → Option Nat
  shown : Int → Option Text
  isSome_shown : ∀ n, (shown n).isSome = true ↔ 0 ≤ n ∧ n < 2 ^ 128

/-- `_int_offset`. -/
def intOffset (value : Text) : Option Int :=
  if value ≠ [] ∧ value.all isDigit = true then pyInt value else none

/-- `start_int`, unless the range cannot be resolved. -/
def startInt (A : Addresses) (start : Text) (net : Option (Text × Int)) : Option Int :=
  match intOffset start with
  | none => (A.parse start).map Int.ofNat
  | some offset =>
      match net with
      | none => none
      | some (base, bits) =>
          match A.parse base with
          | none => none
          | some baseInt =>
              -- a negative shift count is a `ValueError`
              if 32 < bits then none
              else
                let mask := (0xFFFFFFFF <<< (32 - bits).toNat) &&& 0xFFFFFFFF
                some (Int.ofNat (baseInt &&& mask) + offset)

/-- `_resolve_pool_range`. -/
def resolvePoolRange (A : Addresses) (start : Option Text) (limit : Option Int)
    (net : Option (Text × Int)) : Except CollectorError (Option Text × Option Text) :=
  match start with
  | none => .ok (none, none)
  | some [] => .ok (some [], none)
  | some text =>
      match startInt A text net with
      | none => .ok (some text, none)
      | some n =>
          match A.shown n with
          | none => .error .valueError
          | some first =>
              .ok (some first, (limit.filter (0 < ·)).bind fun count => A.shown (n + count - 1))

/-- `iface_net.get(interface or "") if interface else None`. -/
def netOf (ifaceNet : Dict Text (Text × Int)) (interface : Option Text) : Option (Text × Int) :=
  (interface.filter (· ≠ [])).bind fun name => get? name ifaceNet

/-- The pool of a section, with the section's name. -/
def poolEntry (A : Addresses) (types : Dict Text Text) (ifaceNet : Dict Text (Text × Int))
    (name : Text) (opts : Opts) : Except CollectorError (Option (Text × DhcpPool)) :=
  if isType name "dnsmasq".toList types "dnsmasq".toList = true then .ok none
  else if isType name "dhcp".toList types "dhcp".toList = false then .ok none
  else do
    let interface := optFirst opts "interface".toList none
    let start := optFirst opts "start".toList none
    let limit := intOffset ((optFirst opts "limit".toList none).getD [])
    let (resolvedStart, rangeEnd) ← resolvePoolRange A start limit (netOf ifaceNet interface)
    return some (name,
      { name := ((optFirst opts "name".toList (some name)).filter (· ≠ [])).getD name
        interface := interface
        start := resolvedStart
        limit := limit
        leasetime := optFirst opts "leasetime".toList none
        rangeEnd := rangeEnd })

/-- The pools that the loop of `_parse_pools` makes. -/
def poolEntries (A : Addresses) (sections : Sections) (ifaceNet : Dict Text (Text × Int)) :
    Except CollectorError (List (Text × DhcpPool)) :=
  collect (poolEntry A sections.2 ifaceNet) sections.1

/-- `_parse_pools`. -/
def parsePools (A : Addresses) (sections : Sections) (ifaceNet : Dict Text (Text × Int)) :
    Except CollectorError (Bool × List DhcpPool) := do
  let entries ← poolEntries A sections ifaceNet
  let enabled := sections.1.foldl (fun enabled item =>
    if isType item.1 "dnsmasq".toList sections.2 "dnsmasq".toList = true then
      decide (optFirst item.2 "enable_dnsmasq".toList (some "1".toList) ≠ some "0".toList)
    else enabled) true
  return (enabled, entries.map Prod.snd)

theorem parsePools_of_entries {A : Addresses} {sections : Sections}
    {ifaceNet : Dict Text (Text × Int)} {entries : List (Text × DhcpPool)}
    (h : poolEntries A sections ifaceNet = .ok entries) :
    ∃ enabled, parsePools A sections ifaceNet = .ok (enabled, entries.map Prod.snd) := by
  rw [parsePools, h]
  exact ⟨_, rfl⟩

/-! ## Static leases and options -/

/-- `DhcpStaticLease`. -/
structure DhcpStaticLease where
  name : Text
  hostname : Option Text
  ip : Option Text
  mac : Option Text
  enabled : Bool

/-- What `_parse_dnsmasq` returns. -/
structure DnsmasqInfo where
  gateway : Option Text := none
  dns : List Text := []
  domain : Option Text := none
  staticLeases : List DhcpStaticLease := []
  leasefile : Option Text := none

/-- The static lease of a section. -/
def staticLease (name : Text) (opts : Opts) : DhcpStaticLease where
  name := name
  hostname := optFirst opts "name".toList none
  ip := optFirst opts "ip".toList none
  mac := optFirst opts "mac".toList none
  enabled := optFirst opts "enabled".toList (some "1".toList) ≠ some "0".toList

/-- The number and the value of a `dhcp_option`. -/
def numbered (value : Text) : Text × Text :=
  let (number, rest) := splitFirst ',' value
  (strip number, strip (rest.getD []))

/-- A server is appended unless it is there. -/
def addServer (dns : List Text) (server : Text) : List Text :=
  if strip server ≠ [] ∧ strip server ∉ dns then dns ++ [strip server] else dns

/-- A value of the list `dhcp_option`. -/
def dhcpOption (info : DnsmasqInfo) (value : Text) : DnsmasqInfo :=
  let (number, optionValue) := numbered value
  if number = "3".toList ∧ optionValue ≠ [] ∧ info.gateway = none then
    { info with gateway := some optionValue }
  else if number = "6".toList ∧ optionValue ≠ [] then
    { info with dns := (optionValue.splitOn ',').foldl addServer info.dns }
  else info

/-- A section of the loop of `_parse_dnsmasq`. -/
def dnsmasqSection (types : Dict Text Text) (info : DnsmasqInfo) (item : Text × Opts) :
    DnsmasqInfo :=
  let (name, opts) := item
  if isType name "host".toList types "host".toList = true then
    { info with staticLeases := info.staticLeases ++ [staticLease name opts] }
  else
    let isDnsmasq := isType name "dnsmasq".toList types "dnsmasq".toList
    if isDnsmasq = false ∧ isType name "dhcp".toList types "dhcp".toList = false then info
    else
      let info := if isDnsmasq = true then
          { info with
            domain := optFirst opts "domain".toList none
            leasefile := optFirst opts "leasefile".toList none }
        else info
      ((get? "dhcp_option".toList opts).getD []).foldl dhcpOption info

/-- `_parse_dnsmasq`. -/
def parseDnsmasq (sections : Sections) : DnsmasqInfo :=
  sections.1.foldl (dnsmasqSection sections.2) {}

/-! ## What the loops find -/

/-- The gateway that a value names. -/
def gatewayOf (value : Text) : Option Text :=
  if (numbered value).1 = "3".toList ∧ (numbered value).2 ≠ [] then some (numbered value).2 else none

/-- The servers that a value names. -/
def serversOf (value : Text) : List Text :=
  if (numbered value).1 = "6".toList then
    (((numbered value).2.splitOn ',').map strip).filter (· ≠ [])
  else []

theorem mem_foldl_addServer {servers dns : List Text} {server : Text} :
    server ∈ servers.foldl addServer dns ↔
      server ∈ dns ∨ server ∈ (servers.map strip).filter (· ≠ []) := by
  induction servers generalizing dns with
  | nil => simp
  | cons first rest ih =>
    have hstep : server ∈ addServer dns first ↔
        server ∈ dns ∨ (server = strip first ∧ strip first ≠ []) := by
      rw [addServer]
      split
      · rename_i hnew
        rw [List.mem_append, List.mem_singleton, and_iff_left hnew.1]
      · rename_i hold
        refine ⟨Or.inl, ?_⟩
        rintro (hmem | ⟨rfl, hne⟩)
        · exact hmem
        · by_contra hnot
          exact hold ⟨hne, hnot⟩
    rw [List.foldl_cons, ih, hstep, List.map_cons, List.mem_filter, List.mem_filter,
      List.mem_cons, decide_eq_true_iff]
    constructor
    · rintro ((hdns | ⟨rfl, hne⟩) | ⟨hmem, hne⟩)
      · exact Or.inl hdns
      · exact Or.inr ⟨Or.inl rfl, hne⟩
      · exact Or.inr ⟨Or.inr hmem, hne⟩
    · rintro (hdns | ⟨rfl | hmem, hne⟩)
      · exact Or.inl (Or.inl hdns)
      · exact Or.inl (Or.inr ⟨rfl, hne⟩)
      · exact Or.inr ⟨hmem, hne⟩

/-- What a value of `dhcp_option` adds. -/
theorem dhcpOption_eq (info : DnsmasqInfo) (value : Text) :
    (dhcpOption info value).gateway = info.gateway.or (gatewayOf value) ∧
      (∀ server, server ∈ (dhcpOption info value).dns ↔
        server ∈ info.dns ∨ server ∈ serversOf value) ∧
      (dhcpOption info value).staticLeases = info.staticLeases := by
  have hnumbers : "3".toList ≠ "6".toList := by decide
  by_cases hthree : (numbered value).1 = "3".toList
  · have hservers : serversOf value = [] := if_neg (hthree ▸ hnumbers)
    have hsix : ¬ ((numbered value).1 = "6".toList ∧ (numbered value).2 ≠ []) := fun h =>
      hnumbers (hthree.symm.trans h.1)
    by_cases hvalue : (numbered value).2 = []
    · have hsame : dhcpOption info value = info := by
        rw [dhcpOption]
        dsimp only
        rw [if_neg fun h => h.2.1 hvalue, if_neg hsix]
      have hnone : gatewayOf value = none := if_neg fun h => h.2 hvalue
      rw [hsame, hservers, hnone, Option.or_none]
      exact ⟨rfl, by simp, rfl⟩
    · have hsome : gatewayOf value = some (numbered value).2 := if_pos ⟨hthree, hvalue⟩
      cases hgateway : info.gateway with
      | none =>
        have hset : dhcpOption info value =
            { info with gateway := some (numbered value).2 } := by
          rw [dhcpOption]
          dsimp only
          rw [if_pos ⟨hthree, hvalue, hgateway⟩]
        rw [hset, hservers, hsome]
        exact ⟨rfl, by simp, rfl⟩
      | some gateway =>
        have hsame : dhcpOption info value = info := by
          rw [dhcpOption]
          dsimp only
          rw [if_neg fun h => Option.some_ne_none gateway (hgateway.symm.trans h.2.2),
            if_neg hsix]
        rw [hsame, hservers, hgateway]
        exact ⟨rfl, by simp, rfl⟩
  · have hnone : gatewayOf value = none := if_neg fun h => hthree h.1
    by_cases hsix : (numbered value).1 = "6".toList
    · have hservers : serversOf value =
          (((numbered value).2.splitOn ',').map strip).filter (· ≠ []) := if_pos hsix
      by_cases hvalue : (numbered value).2 = []
      · have hsame : dhcpOption info value = info := by
          rw [dhcpOption]
          dsimp only
          rw [if_neg fun h => hthree h.1, if_neg fun h => h.2 hvalue]
        have hnil : serversOf value = [] := by
          rw [hservers, hvalue]
          rfl
        rw [hsame, hnil, hnone, Option.or_none]
        exact ⟨rfl, by simp, rfl⟩
      · have hadded : dhcpOption info value =
            { info with dns := ((numbered value).2.splitOn ',').foldl addServer info.dns } := by
          rw [dhcpOption]
          dsimp only
          rw [if_neg fun h => hthree h.1, if_pos ⟨hsix, hvalue⟩]
        rw [hadded, hservers, hnone, Option.or_none]
        exact ⟨rfl, fun server => mem_foldl_addServer, rfl⟩
    · have hsame : dhcpOption info value = info := by
        rw [dhcpOption]
        dsimp only
        rw [if_neg fun h => hthree h.1, if_neg fun h => hsix h.1]
      have hservers : serversOf value = [] := if_neg hsix
      rw [hsame, hservers, hnone, Option.or_none]
      exact ⟨rfl, by simp, rfl⟩

theorem foldl_dhcpOption (values : List Text) (info : DnsmasqInfo) :
    (values.foldl dhcpOption info).gateway = info.gateway.or (values.findSome? gatewayOf) ∧
      (∀ server, server ∈ (values.foldl dhcpOption info).dns ↔
        server ∈ info.dns ∨ ∃ value ∈ values, server ∈ serversOf value) ∧
      (values.foldl dhcpOption info).staticLeases = info.staticLeases := by
  induction values generalizing info with
  | nil => exact ⟨(Option.or_none).symm, by simp, rfl⟩
  | cons value rest ih =>
    obtain ⟨hgateway, hdns, hleases⟩ := dhcpOption_eq info value
    obtain ⟨hrestGateway, hrestDns, hrestLeases⟩ := ih (dhcpOption info value)
    refine ⟨?_, fun server => ?_, hrestLeases.trans hleases⟩
    · rw [List.foldl_cons, hrestGateway, hgateway, Option.or_assoc, List.findSome?_cons]
      cases gatewayOf value <;> rfl
    · rw [List.foldl_cons, hrestDns, hdns, or_assoc, List.exists_mem_cons_iff]

/-- The section's `dhcp_option` list is read. -/
def readsOptions (types : Dict Text Text) (name : Text) : Bool :=
  !isType name "host".toList types "host".toList &&
    (isType name "dnsmasq".toList types "dnsmasq".toList ||
      isType name "dhcp".toList types "dhcp".toList)

/-- The values of the `dhcp_option` lists that are read. -/
def optionValues (types : Dict Text Text) (items : Dict Text Opts) : List Text :=
  (items.filter fun item => readsOptions types item.1).flatMap fun item =>
    (get? "dhcp_option".toList item.2).getD []

theorem dnsmasqSection_eq (types : Dict Text Text) (info : DnsmasqInfo) (item : Text × Opts) :
    (dnsmasqSection types info item).gateway =
        info.gateway.or ((optionValues types [item]).findSome? gatewayOf) ∧
      (∀ server, server ∈ (dnsmasqSection types info item).dns ↔
        server ∈ info.dns ∨ ∃ value ∈ optionValues types [item], server ∈ serversOf value) ∧
      (dnsmasqSection types info item).staticLeases = info.staticLeases ++
        if isType item.1 "host".toList types "host".toList = true then [staticLease item.1 item.2]
        else [] := by
  have hskipped (h : readsOptions types item.1 = false) : optionValues types [item] = [] := by
    rw [optionValues, List.filter_cons_of_neg (by rw [h]; exact Bool.false_ne_true)]
    rfl
  rw [dnsmasqSection]
  cases hhost : isType item.1 "host".toList types "host".toList with
  | true =>
    rw [hskipped (by rw [readsOptions, hhost]; rfl)]
    exact ⟨Option.or_none.symm, by simp, rfl⟩
  | false =>
    cases hdnsmasq : isType item.1 "dnsmasq".toList types "dnsmasq".toList with
    | false =>
      cases hdhcp : isType item.1 "dhcp".toList types "dhcp".toList with
      | false =>
        rw [hskipped (by rw [readsOptions, hhost, hdnsmasq, hdhcp]; rfl)]
        exact ⟨Option.or_none.symm, by simp, (List.append_nil _).symm⟩
      | true =>
        have hvalues : optionValues types [item] =
            (get? "dhcp_option".toList item.2).getD [] := by
          rw [optionValues, List.filter_cons_of_pos
            (by rw [readsOptions, hhost, hdnsmasq, hdhcp]; rfl)]
          exact List.append_nil _
        rw [hvalues]
        obtain ⟨hgateway, hdns, hleases⟩ :=
          foldl_dhcpOption ((get? "dhcp_option".toList item.2).getD []) info
        exact ⟨hgateway, hdns, hleases.trans (List.append_nil _).symm⟩
    | true =>
      have hvalues : optionValues types [item] =
          (get? "dhcp_option".toList item.2).getD [] := by
        rw [optionValues, List.filter_cons_of_pos
          (by rw [readsOptions, hhost, hdnsmasq]; rfl)]
        exact List.append_nil _
      rw [hvalues]
      obtain ⟨hgateway, hdns, hleases⟩ :=
        foldl_dhcpOption ((get? "dhcp_option".toList item.2).getD [])
          { info with
            domain := optFirst item.2 "domain".toList none
            leasefile := optFirst item.2 "leasefile".toList none }
      exact ⟨hgateway, hdns, hleases.trans (List.append_nil _).symm⟩

theorem optionValues_cons (types : Dict Text Text) (item : Text × Opts)
    (items : Dict Text Opts) :
    optionValues types (item :: items) = optionValues types [item] ++ optionValues types items := by
  rw [optionValues, optionValues, optionValues, ← List.flatMap_append, ← List.filter_append]
  rfl

/-- What `_parse_dnsmasq` finds. -/
theorem parseDnsmasq_eq (sections : Sections) :
    (parseDnsmasq sections).gateway =
        (optionValues sections.2 sections.1).findSome? gatewayOf ∧
      (∀ server, server ∈ (parseDnsmasq sections).dns ↔
        ∃ value ∈ optionValues sections.2 sections.1, server ∈ serversOf value) ∧
      (parseDnsmasq sections).staticLeases =
        (sections.1.filter fun item => isType item.1 "host".toList sections.2 "host".toList).map
          fun item => staticLease item.1 item.2 := by
  obtain ⟨items, types⟩ := sections
  have hloop : ∀ (items : Dict Text Opts) (info : DnsmasqInfo),
      let result := items.foldl (dnsmasqSection types) info
      result.gateway = info.gateway.or ((optionValues types items).findSome? gatewayOf) ∧
        (∀ server, server ∈ result.dns ↔
          server ∈ info.dns ∨ ∃ value ∈ optionValues types items, server ∈ serversOf value) ∧
        result.staticLeases = info.staticLeases ++
          (items.filter fun item => isType item.1 "host".toList types "host".toList).map
            fun item => staticLease item.1 item.2 := by
    intro items
    induction items with
    | nil => exact fun info => ⟨Option.or_none.symm, by simp [optionValues], by simp⟩
    | cons item items ih =>
      intro info
      obtain ⟨hgateway, hdns, hleases⟩ := dnsmasqSection_eq types info item
      obtain ⟨hrestGateway, hrestDns, hrestLeases⟩ := ih (dnsmasqSection types info item)
      rw [optionValues_cons]
      refine ⟨?_, fun server => ?_, ?_⟩
      · rw [List.foldl_cons, hrestGateway, hgateway, Option.or_assoc, List.findSome?_append]
      · rw [List.foldl_cons, hrestDns, hdns, or_assoc]
        simp only [List.mem_append, or_and_right, exists_or]
      · rw [List.foldl_cons, hrestLeases, hleases, List.append_assoc, List.filter_cons]
        cases isType item.1 "host".toList types "host".toList <;> rfl
  obtain ⟨hgateway, hdns, hleases⟩ := hloop items {}
  refine ⟨hgateway, fun server => ?_, hleases⟩
  show server ∈ (items.foldl (dnsmasqSection types) {}).dns ↔ _
  rw [hdns]
  simp

/-- A pool can be made unless its first address is out of range. -/
theorem resolvePoolRange_isOk_iff (A : Addresses) (start : Option Text) (limit : Option Int)
    (net : Option (Text × Int)) :
    (∃ range, resolvePoolRange A start limit net = .ok range) ↔
      ∀ text, start = some text → text ≠ [] → ∀ n, startInt A text net = some n →
        0 ≤ n ∧ n < 2 ^ 128 := by
  match start with
  | none => exact ⟨fun _ => nofun, fun _ => ⟨_, rfl⟩⟩
  | some [] =>
    refine ⟨fun _ text htext hne => ?_, fun _ => ⟨_, rfl⟩⟩
    exact absurd (Option.some.inj htext).symm hne
  | some (c :: rest) =>
    rw [resolvePoolRange]
    · cases hstart : startInt A (c :: rest) net with
      | none =>
        refine ⟨fun _ text htext _ n hn => ?_, fun _ => ⟨_, rfl⟩⟩
        rw [← Option.some.inj htext, hstart] at hn
        cases hn
      | some n =>
        dsimp only
        cases hshown : A.shown n with
        | none =>
          refine ⟨by rintro ⟨_, ⟨⟩⟩, fun h => ?_⟩
          have hsome := (A.isSome_shown n).mpr (h _ rfl (List.cons_ne_nil c rest) n hstart)
          rw [hshown] at hsome
          cases hsome
        | some first =>
          refine ⟨fun _ text htext _ m hm => ?_, fun _ => ⟨_, rfl⟩⟩
          rw [← Option.some.inj htext, hstart] at hm
          obtain rfl := Option.some.inj hm
          exact (A.isSome_shown n).mp (by rw [hshown]; rfl)
    · exact nofun

end OpenWrtCopilot.Ports.DhcpCollector
