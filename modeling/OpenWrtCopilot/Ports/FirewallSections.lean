import OpenWrtCopilot.Ports.FirewallValues
import OpenWrtCopilot.Ports.ManagementFirewallToggle

/-!
# Sections read by two firewall readers

What the firewall view and the agent's parser make of one section: its type, the
data they extract from a zone, a rule or a redirect, and what they need to read a
section at all.

## Main results

* `seen_made` — what the view makes of a section.
* `zone_iff`, `rule_iff`, `redirect_iff` — when the parser extracts what the
  view does.
-/

namespace OpenWrtCopilot.Ports.FirewallAgreement

open Verified
open Verified.PyText
open Verified.PyDict
open Verified.Uci
open Verified.UciReading
open Ports.Management
open Ports.RouterAgent (splitOptionValue textField asBool asInt networkList AgentError)

/-! ## Types -/

/-- The declared type is a word, so both readers see it. -/
def isWordType (s : UciSection) : Bool := s.type.all isNameChar

/-- The type of a section in the view: an option `_type` that is seen makes a
list of a declared type, and stands in for one that is not seen. -/
def seenType (s : UciSection) : Option Text :=
  if isWordType s then (if (plainValue s typeKey).isSome then none else some s.type)
  else plainValue s typeKey

/-- The type of a section for the parser, which sees every option. -/
def agentType (s : UciSection) : Option Text :=
  if isWordType s then (if (s.values typeKey).isSome then none else some s.type)
  else (plainValue s typeKey).map strip

theorem all_isWord (w : WordClass) (s : UciSection) : s.type.all w.isWord = isWordType s := by
  have hsame : ∀ c ∈ s.type, w.isWord c = isNameChar c := by
    intro c hc
    obtain ⟨_, hhi⟩ := printable_of_isTypeChar (s.validType.2 c hc)
    exact w.ascii c (by omega)
  rw [isWordType, Bool.eq_iff_iff, List.all_eq_true, List.all_eq_true]
  exact forall₂_congr fun c hc => by rw [hsame c hc]

theorem lookup_seenType (w : WordClass) (s : UciSection) (type : Text) :
    (Management.fwReader w).lookup s typeKey = some (.str type) ↔ seenType s = some type := by
  have hword : s.type.all (Management.fwReader w).isTypeChar = isWordType s := all_isWord w s
  rw [lookup_eq, visible_fwReader, seenType, Reader.initial, Reader.start, hword]
  cases isWordType s with
  | true =>
    cases plainValue s typeKey with
    | none =>
      show some (FwValue.str s.type) = some (.str type) ↔ some s.type = some type
      rw [Option.some.injEq, Option.some.injEq, FwValue.str.injEq]
    | some v =>
      show some (FwValue.list [s.type, v]) = some (.str type) ↔ none = some type
      simp
  | false =>
    cases plainValue s typeKey with
    | none =>
      show none = some (FwValue.str type) ↔ none = some type
      simp
    | some v =>
      show some (FwValue.str v) = some (.str type) ↔ some v = some type
      rw [Option.some.injEq, Option.some.injEq, FwValue.str.injEq]

theorem visible_agent (w : WordClass) (s : UciSection) (name : Text) :
    (RouterAgent.fwReader w).visible s name = (s.values name).map innerValues := by
  rw [LinePatterns.visible]
  cases (s.values name).map innerValues <;> rfl

theorem lookup_agentType (w : WordClass) (s : UciSection) {type : Text} (hquote : '\'' ∉ type) :
    (RouterAgent.fwReader w).lookup s typeKey = some (.str type) ↔ agentType s = some type := by
  have hword : s.type.all (RouterAgent.fwReader w).isTypeChar = isWordType s := all_isWord w s
  rw [lookup_eq, visible_agent, agentType, Reader.initial, Reader.start, hword]
  cases isWordType s with
  | true =>
    cases s.values typeKey with
    | none =>
      show some (FwValue.str s.type) = some (.str type) ↔ some s.type = some type
      rw [Option.some.injEq, Option.some.injEq, FwValue.str.injEq]
    | some all =>
      show some (FwValue.list (s.type :: splitOptionValue (innerValues all))) =
        some (.str type) ↔ none = some type
      simp
  | false =>
    suffices htyped : agentValue s typeKey = some (.str type) ↔
        (plainValue s typeKey).map strip = some type by
      revert htyped
      rw [agentValue]
      cases s.values typeKey <;> exact id
    cases valueCase s typeKey with
    | absent _ hplain hagent =>
      rw [hagent, hplain]
      simp
    | single value _ hplain _ hagent =>
      rw [hagent, hplain, Option.map_some, Option.some.injEq, Option.some.injEq,
        FwValue.str.injEq]
    | quoted all token _ hplain htoken _ hagent =>
      rw [hagent, hplain, Option.some.injEq, FwValue.str.injEq]
      constructor
      · rintro rfl
        exact absurd htoken hquote
      · rintro ⟨⟩
    | split all items _ hplain _ _ hagent =>
      rw [hagent, hplain]
      simp

/-! ## What the view makes of a section -/

/-- What is compared of a section that is a zone, a rule or a redirect. -/
inductive SectionData
  | zone (name : FwValue) (network : List Text) (enabled : Bool)
  | rule (sectionId : Text) (name : FwValue) (proto srcPort destPort : Option FwValue)
      (enabled : Bool)
  | redirect (sectionId : Text) (name : FwValue) (proto srcDport destPort : Option FwValue)
      (enabled : Bool)

def seenZone (z : FwZone) : SectionData := .zone z.name (networkList z.network) z.enabled

def seenRule (r : FwRule) : SectionData :=
  .rule r.sectionId r.name r.proto r.srcPort r.destPort r.enabled

def seenRedirect (r : FwRedirect) : SectionData :=
  .redirect r.sectionId r.name r.proto r.srcDport r.destPort r.enabled

def seenEntry : FwEntry → Option SectionData
  | .zone z => some (seenZone z)
  | .rule r => some (seenRule r)
  | .redirect r => some (seenRedirect r)
  | _ => none

/-- The data of a section in the view. -/
def seenData (s : UciSection) : Option SectionData :=
  let name := (seen s "name").getD (.str [])
  if seenType s = some "zone".toList then
    some (.zone name (networkList (seen s "network")) (seenEnabled s))
  else if seenType s = some "rule".toList then
    some (.rule s.key name (seen s "proto") (seen s "src_port") (seen s "dest_port")
      (seenEnabled s))
  else if seenType s = some "redirect".toList then
    some (.redirect s.key name (seen s "proto") (pyOr (seen s "src_dport") (seen s "dport"))
      (seen s "dest_port") (seenEnabled s))
  else none

/-- `int` reads the text if it is all digits. -/
def IntReads (t : Text) : Prop := t ≠ [] → t.all isDigit = true → (pyInt t).isSome = true

/-- The view reads the `mtu` of a section it takes for the defaults. -/
def SeenMtuReads (s : UciSection) : Prop :=
  seenType s = some "defaults".toList → ∀ v, plainValue s "mtu" = some v → IntReads v

/-- The dictionary of a section in the view. -/
theorem get?_seen {w : WordClass} {s : UciSection} {opt : Dict Text FwValue}
    (hfields : (Management.fwReader w).fields s = some opt) {name : Text} (h : name ≠ typeKey) :
    get? name opt = seen s name := by
  rw [get?_fields_of_ne hfields h, visible_fwReader, seen]

theorem fwBool_seen (s : UciSection) (name : Text) : ∃ b, fwBool (seen s name) = .ok b := by
  rw [seen]
  cases plainValue s name with
  | none => exact ⟨false, rfl⟩
  | some v => exact ⟨_, rfl⟩

theorem fwSectionEnabled_seen {opt : Dict Text FwValue} {s : UciSection}
    (hopt : ∀ name, name ≠ typeKey → get? name opt = seen s name) :
    fwSectionEnabled opt = .ok (seenEnabled s) := by
  rw [fwSectionEnabled, hopt "disabled".toList (by decide), hopt "enabled".toList (by decide),
    seenEnabled, seen, seen]
  cases plainValue s "disabled" with
  | some d => rfl
  | none =>
    cases plainValue s "enabled" with
    | none => rfl
    | some e =>
      show Except.ok (decide (FwValue.str e ≠ .str "0")) = .ok (decide (e ≠ "0".toList))
      rw [Except.ok.injEq, decide_eq_decide, ne_eq, FwValue.str.injEq]

theorem fwInt_seen_isOk_iff (s : UciSection) (name : Text) :
    (∃ n, fwInt (seen s name) = .ok n) ↔ ∀ v, plainValue s name = some v → IntReads v := by
  rw [seen]
  cases plainValue s name with
  | none =>
    refine ⟨?_, fun _ => ⟨none, rfl⟩⟩
    rintro - _ ⟨⟩
  | some v =>
    rw [Option.map_some, fwInt]
    by_cases hdigits : v ≠ [] ∧ v.all isDigit = true
    · rw [if_pos hdigits, intOf]
      cases hint : pyInt v with
      | none =>
        refine ⟨by rintro ⟨_, ⟨⟩⟩, fun h => ?_⟩
        have hsome := h v rfl hdigits.1 hdigits.2
        rw [hint] at hsome
        cases hsome
      | some n =>
        refine ⟨fun _ v' hv' _ _ => ?_, fun _ => ⟨some n, rfl⟩⟩
        obtain rfl := Option.some.inj hv'
        rw [hint]
        rfl
    · rw [if_neg hdigits]
      refine ⟨fun _ v' hv' hne hall => ?_, fun _ => ⟨none, rfl⟩⟩
      obtain rfl := Option.some.inj hv'
      exact absurd ⟨hne, hall⟩ hdigits

theorem seenType_of_fields {w : WordClass} {s : UciSection} {opt : Dict Text FwValue}
    (hfields : (Management.fwReader w).fields s = some opt) (type : Text) :
    get? typeKey opt = some (.str type) ↔ seenType s = some type := by
  rw [get?_fields hfields, lookup_seenType]

/-- A section that is not noticed has no type. -/
theorem seenType_of_none {w : WordClass} {s : UciSection}
    (hfields : (Management.fwReader w).fields s = none) (type : Text) :
    seenType s ≠ some type := by
  intro h
  have hlookup := (lookup_seenType w s type).mpr h
  rw [Reader.lookup, hfields, Option.bind_none] at hlookup
  cases hlookup

theorem seenData_of_other {s : UciSection} (hzone : seenType s ≠ some "zone".toList)
    (hrule : seenType s ≠ some "rule".toList) (hredirect : seenType s ≠ some "redirect".toList) :
    seenData s = none := by
  rw [seenData, if_neg hzone, if_neg hrule, if_neg hredirect]

/-- What is made of the defaults needs their `mtu`. -/
theorem fwEntry_defaults_isOk_iff (hasIpset : Bool) (key : Text) {s : UciSection}
    {opt : Dict Text FwValue} (hopt : ∀ name, name ≠ typeKey → get? name opt = seen s name)
    (htype : get? typeKey opt = some (.str "defaults")) :
    ((∃ e, fwEntry hasIpset key opt = .ok e) ↔ ∀ v, plainValue s "mtu" = some v → IntReads v) ∧
      ∀ e, fwEntry hasIpset key opt = .ok e → e.bind seenEntry = none := by
  have hform : fwEntry hasIpset key opt = (do
      let masquerade ← fwBool (get? "masq".toList opt)
      let synFlood ← fwBool (pyOr (get? "synflood_protect".toList opt) (get? "syn_flood".toList opt))
      let osf ← fwBool (get? "osf".toList opt)
      let mtu ← fwInt (get? "mtu".toList opt)
      return some (.defaults
        { input := get? "input".toList opt, output := get? "output".toList opt
          forward := get? "forward".toList opt, masquerade := masquerade, synFlood := synFlood
          osf := osf, mtu := mtu })) := by
    simp only [fwEntry, show get? "_type".toList opt = _ from htype, if_true]
  obtain ⟨masquerade, hmasquerade⟩ := fwBool_seen s "masq"
  obtain ⟨osf, hosf⟩ := fwBool_seen s "osf"
  obtain ⟨synFlood, hsynFlood⟩ :
      ∃ b, fwBool (pyOr (seen s "synflood_protect") (seen s "syn_flood")) = .ok b := by
    rw [pyOr]
    split
    · exact fwBool_seen s _
    · exact fwBool_seen s _
  rw [hform, hopt "masq".toList (by decide), hopt "synflood_protect".toList (by decide),
    hopt "syn_flood".toList (by decide), hopt "osf".toList (by decide),
    hopt "mtu".toList (by decide), hmasquerade, hsynFlood, hosf, ← fwInt_seen_isOk_iff,
    except_ok_bind, except_ok_bind, except_ok_bind]
  constructor
  · constructor
    · rintro ⟨e, he⟩
      obtain ⟨n, hn, _⟩ := except_bind_eq_ok.mp he
      exact ⟨n, hn⟩
    · rintro ⟨n, hn⟩
      exact ⟨_, except_bind_eq_ok.mpr ⟨n, hn, rfl⟩⟩
  · intro e he
    obtain ⟨n, hn, he⟩ := except_bind_eq_ok.mp he
    obtain rfl := Except.ok.inj he
    rfl

/-- The other sections are always read, and not compared. -/
theorem fwEntry_other (hasIpset : Bool) (key : Text) {s : UciSection} {opt : Dict Text FwValue}
    (hopt : ∀ name, name ≠ typeKey → get? name opt = seen s name)
    (hdefaults : get? typeKey opt ≠ some (.str "defaults"))
    (hzone : get? typeKey opt ≠ some (.str "zone")) (hrule : get? typeKey opt ≠ some (.str "rule"))
    (hredirect : get? typeKey opt ≠ some (.str "redirect")) :
    ∃ e, fwEntry hasIpset key opt = .ok e ∧ e.bind seenEntry = none := by
  have henabled := fwSectionEnabled_seen hopt
  have hkey : get? "_type".toList opt = get? typeKey opt := rfl
  simp only [fwEntry, hkey, hdefaults, hzone, hrule, hredirect, if_false, henabled]
  split
  · exact ⟨_, rfl, rfl⟩
  · split
    · exact ⟨_, rfl, rfl⟩
    · split
      · exact ⟨_, rfl, rfl⟩
      · split
        · exact ⟨_, rfl, rfl⟩
        · exact ⟨_, rfl, rfl⟩

/-- What the view makes of a section. -/
theorem seen_made (w : WordClass) (hasIpset : Bool) (s : UciSection) :
    ((∃ e, (Management.fwReader w).made (fwEntry hasIpset) s = .ok e) ↔ SeenMtuReads s) ∧
      ∀ e, (Management.fwReader w).made (fwEntry hasIpset) s = .ok e →
        e.bind seenEntry = seenData s := by
  rw [Reader.made]
  cases hfields : (Management.fwReader w).fields s with
  | none =>
    have hnone := seenType_of_none hfields
    refine ⟨⟨fun _ h => absurd h (hnone _), fun _ => ⟨none, rfl⟩⟩, fun e he => ?_⟩
    obtain rfl := Except.ok.inj he
    rw [seenData_of_other (hnone _) (hnone _) (hnone _)]
    rfl
  | some opt =>
    have hopt : ∀ name, name ≠ typeKey → get? name opt = seen s name :=
      fun name h => get?_seen hfields h
    have htype := seenType_of_fields hfields
    have henabled := fwSectionEnabled_seen hopt
    show ((∃ e, fwEntry hasIpset s.key opt = .ok e) ↔ _) ∧
      ∀ e, fwEntry hasIpset s.key opt = .ok e → _
    by_cases hdefaults : seenType s = some "defaults".toList
    · obtain ⟨hok, hdata⟩ := fwEntry_defaults_isOk_iff hasIpset s.key hopt
        ((htype _).mpr hdefaults)
      refine ⟨hok.trans ⟨fun h _ => h, fun h => h hdefaults⟩, fun e he => ?_⟩
      rw [hdata e he, seenData_of_other] <;>
        · rw [hdefaults]
          decide
    have hreads : SeenMtuReads s := fun h => absurd h hdefaults
    have hname : fwName opt = (seen s "name").getD (.str []) := by
      rw [fwName, hopt "name".toList (by decide)]
    by_cases hzone : seenType s = some "zone".toList
    · obtain ⟨masquerade, hmasquerade⟩ := fwBool_seen s "masq"
      obtain ⟨mtuFix, hmtuFix⟩ := fwBool_seen s "mtu_fix"
      have hentry := fwEntry_zone hasIpset s.key ((htype _).mpr hzone)
      rw [henabled, hopt "masq".toList (by decide), hmasquerade, hopt "mtu_fix".toList (by decide),
        hmtuFix, except_ok_bind, except_ok_bind, except_ok_bind] at hentry
      refine ⟨⟨fun _ => hreads, fun _ => ⟨_, hentry⟩⟩, fun e he => ?_⟩
      obtain rfl := Except.ok.inj (hentry.symm.trans he)
      rw [seenData, if_pos hzone, ← hname, ← hopt "network".toList (by decide)]
      rfl
    by_cases hrule : seenType s = some "rule".toList
    · have hentry := fwEntry_rule hasIpset s.key ((htype _).mpr hrule)
      rw [henabled, except_ok_bind] at hentry
      refine ⟨⟨fun _ => hreads, fun _ => ⟨_, hentry⟩⟩, fun e he => ?_⟩
      obtain rfl := Except.ok.inj (hentry.symm.trans he)
      rw [seenData, if_neg hzone, if_pos hrule, ← hname, ← hopt "proto".toList (by decide),
        ← hopt "src_port".toList (by decide), ← hopt "dest_port".toList (by decide)]
      rfl
    by_cases hredirect : seenType s = some "redirect".toList
    · have hentry := fwEntry_redirect hasIpset s.key
        ((htype _).mpr hredirect)
      rw [henabled, except_ok_bind] at hentry
      refine ⟨⟨fun _ => hreads, fun _ => ⟨_, hentry⟩⟩, fun e he => ?_⟩
      obtain rfl := Except.ok.inj (hentry.symm.trans he)
      rw [seenData, if_neg hzone, if_neg hrule, if_pos hredirect, ← hname,
        ← hopt "proto".toList (by decide), ← hopt "src_dport".toList (by decide),
        ← hopt "dport".toList (by decide), ← hopt "dest_port".toList (by decide)]
      rfl
    obtain ⟨e, he, hdata⟩ := fwEntry_other hasIpset s.key hopt
      (fun h => hdefaults ((htype _).mp h)) (fun h => hzone ((htype _).mp h))
      (fun h => hrule ((htype _).mp h)) (fun h => hredirect ((htype _).mp h))
    refine ⟨⟨fun _ => hreads, fun _ => ⟨e, he⟩⟩, fun e' he' => ?_⟩
    obtain rfl := Except.ok.inj (he.symm.trans he')
    rw [hdata, seenData_of_other hzone hrule hredirect]

/-! ## What the parser makes of a section -/

def agentZone (z : RouterAgent.FirewallZone) : SectionData := .zone (.str z.name) z.network z.enabled

def agentRule (r : RouterAgent.FirewallRule) : SectionData :=
  .rule r.sectionId (.str r.name) (r.proto.map .str) (r.srcPort.map .str) (r.destPort.map .str)
    r.enabled

def agentForward (f : RouterAgent.FirewallForward) : SectionData :=
  .redirect f.sectionId (.str f.name) (f.proto.map .str) (f.srcDport.map .str)
    (f.destPort.map .str) f.enabled

def agentEntry : RouterAgent.FirewallEntry → Option SectionData
  | .zone z => some (agentZone z)
  | .rule r => some (agentRule r)
  | .forward f => some (agentForward f)
  | _ => none

/-- What makes a zone read alike: its name, its networks and its state are, and
the parser can read the rest. -/
def ZoneSame (s : UciSection) : Prop :=
  Plain s "name" ∧ Plain s "network" ∧ EnabledSame s ∧
    ∀ name ∈ ["masq", "mtu_fix", "input", "output", "forward"], Unsplit s name.toList

def RuleSame (s : UciSection) : Prop :=
  Plain s "name" ∧ Plain s "proto" ∧ Plain s "src_port" ∧ Plain s "dest_port" ∧ EnabledSame s ∧
    ∀ name ∈ ["src", "dest", "target", "family"], Unsplit s name.toList

def RedirectSame (s : UciSection) : Prop :=
  Plain s "name" ∧ Plain s "proto" ∧ DportSame s ∧ Plain s "dest_port" ∧ EnabledSame s ∧
    ∀ name ∈ ["src", "src_ip", "dest", "dest_ip", "target"], Unsplit s name.toList

/-- The parser reads a section it takes for a `nat` rule. -/
def NatReads (s : UciSection) : Prop :=
  Unsplit s "disabled" ∧
    ∀ name ∈ ["name", "target", "family", "src", "src_dport", "dest", "dest_ip", "dest_port",
      "proto"], Unsplit s name.toList

/-- The parser reads a section it takes for the defaults. -/
def DefaultsRead (s : UciSection) : Prop :=
  (∀ name ∈ ["masq", "synflood_protect", "osf", "mtu", "input", "output", "forward"],
    Unsplit s name.toList) ∧
  (agentValue s "synflood_protect" = none ∨ agentValue s "synflood_protect" = some (.str []) →
    Unsplit s "syn_flood") ∧
  ∀ v, plainValue s "mtu" = some v → IntReads (strip v)

theorem agentEnabled_isOk_iff (s : UciSection) :
    (∃ b, agentEnabled s = .ok b) ↔ Unsplit s "disabled" := by
  rw [← asBool_isOk_iff, agentEnabled]
  cases agentValue s "disabled" with
  | none => exact ⟨fun _ => ⟨false, rfl⟩, fun _ => ⟨_, rfl⟩⟩
  | some d =>
    constructor
    · rintro ⟨b, hb⟩
      obtain ⟨b', hb', _⟩ := except_bind_eq_ok.mp hb
      exact ⟨b', hb'⟩
    · rintro ⟨b, hb⟩
      exact ⟨!b, except_bind_eq_ok.mpr ⟨b, hb, rfl⟩⟩

theorem asInt_isOk_iff (s : UciSection) (name : Text) :
    (∃ n, asInt (agentValue s name) = .ok n) ↔
      Unsplit s name ∧ ∀ v, plainValue s name = some v → IntReads (strip v) := by
  have hstr : ∀ t, (∃ n, asInt (some (.str t)) = .ok n) ↔ IntReads t := by
    intro t
    rw [asInt, IntReads]
    by_cases hdigits : t ≠ [] ∧ t.all isDigit = true
    · rw [if_pos hdigits]
      cases hint : pyInt t with
      | none => exact ⟨nofun, fun h => absurd (h hdigits.1 hdigits.2) Bool.false_ne_true⟩
      | some n => exact ⟨fun _ _ _ => rfl, fun _ => ⟨some n, rfl⟩⟩
    · rw [if_neg hdigits]
      exact ⟨fun _ hne hall => absurd ⟨hne, hall⟩ hdigits, fun _ => ⟨none, rfl⟩⟩
  cases valueCase s name with
  | absent hvalues hplain hagent =>
    rw [hagent, hplain]
    exact ⟨fun _ => ⟨unsplit_of_none hvalues, nofun⟩, fun _ => ⟨none, rfl⟩⟩
  | single value hvalues hplain hquote hagent =>
    rw [hagent, hplain, hstr]
    refine ⟨fun h => ⟨unsplit_of_single hvalues hquote, fun v hv => ?_⟩, fun h => h.2 value rfl⟩
    obtain rfl := Option.some.inj hv
    exact h
  | quoted all token hvalues hplain hquote hunsplit hagent =>
    rw [hagent, hplain, hstr]
    refine ⟨fun _ => ⟨(unsplit_iff hvalues).mpr hunsplit, nofun⟩, fun _ _ hall => ?_⟩
    exact absurd (List.all_eq_true.mp hall _ hquote) (by decide)
  | split all items hvalues hplain hne hsplit hagent =>
    rw [hagent]
    exact ⟨nofun, fun h => absurd ((unsplit_iff hvalues).mp h.1) hsplit⟩

/-- The lists the parser stores have values. -/
theorem agentValue_list_ne_nil {s : UciSection} {name : Text} {items : List Text}
    (h : agentValue s name = some (.list items)) : items ≠ [] := by
  cases valueCase s name with
  | absent _ _ hagent => cases hagent.symm.trans h
  | single _ _ _ _ hagent => cases hagent.symm.trans h
  | quoted _ _ _ _ _ _ hagent => cases hagent.symm.trans h
  | split _ _ _ _ hne _ hagent =>
    obtain rfl := FwValue.list.inj (Option.some.inj (hagent.symm.trans h))
    exact hne

theorem synFlood_isOk_iff (s : UciSection) (first second : Text) :
    (∃ b, asBool (pyOr (agentValue s first) (agentValue s second)) = .ok b) ↔
      Unsplit s first ∧
        (agentValue s first = none ∨ agentValue s first = some (.str []) →
          Unsplit s second) := by
  have hfirst := asBool_isOk_iff s first
  have hsecond := asBool_isOk_iff s second
  cases hvalue : agentValue s first with
  | none =>
    rw [hvalue] at hfirst
    rw [pyOr_none, hsecond, ← hfirst]
    exact ⟨fun h => ⟨⟨false, rfl⟩, fun _ => h⟩, fun h => h.2 (Or.inl rfl)⟩
  | some value =>
    rw [hvalue] at hfirst
    rw [← hfirst]
    cases value with
    | str t =>
      by_cases hempty : t = []
      · subst hempty
        rw [pyOr_nil, hsecond]
        exact ⟨fun h => ⟨⟨false, rfl⟩, fun _ => h⟩, fun h => h.2 (Or.inr rfl)⟩
      · rw [pyOr_str hempty]
        refine ⟨fun h => ⟨h, fun hcase => ?_⟩, fun h => h.1⟩
        rcases hcase with hcase | hcase
        · cases hcase
        · exact absurd (FwValue.str.inj (Option.some.inj hcase)) hempty
    | list items =>
      rw [pyOr_list (agentValue_list_ne_nil hvalue)]
      refine ⟨fun h => ⟨h, fun hcase => ?_⟩, fun h => h.1⟩
      rcases hcase with hcase | hcase <;> cases hcase

section

variable {s : UciSection} {opt : Dict Text FwValue}
  (hopt : ∀ name, name ≠ typeKey → get? name opt = agentValue s name)

include hopt

theorem sectionEnabled_agent : RouterAgent.sectionEnabled opt = agentEnabled s := by
  rw [RouterAgent.sectionEnabled, hopt "disabled".toList (by decide),
    hopt "enabled".toList (by decide), agentEnabled]
  cases agentValue s "disabled" with
  | some d => rfl
  | none =>
    cases agentValue s "enabled" with
    | none => rfl
    | some e =>
      show Except.ok (decide (e ≠ .str "0")) = .ok (decide (some e ≠ some (.str "0")))
      rw [Except.ok.injEq, decide_eq_decide, ne_eq, ne_eq, Option.some.injEq]

theorem zone_iff :
    (∃ z, RouterAgent.collectZone opt = .ok z ∧
      agentZone z = .zone ((seen s "name").getD (.str [])) (networkList (seen s "network"))
        (seenEnabled s)) ↔ ZoneSame s := by
  rw [RouterAgent.collectZone, sectionEnabled_agent hopt, hopt "masq".toList (by decide),
    hopt "mtu_fix".toList (by decide), hopt "name".toList (by decide),
    hopt "input".toList (by decide), hopt "output".toList (by decide),
    hopt "forward".toList (by decide), hopt "network".toList (by decide)]
  constructor
  · rintro ⟨z, hz, hdata⟩
    obtain ⟨enabled, henabled, hz⟩ := except_bind_eq_ok.mp hz
    obtain ⟨masquerade, hmasquerade, hz⟩ := except_bind_eq_ok.mp hz
    obtain ⟨mtuFix, hmtuFix, hz⟩ := except_bind_eq_ok.mp hz
    obtain ⟨name, hname, hz⟩ := except_bind_eq_ok.mp hz
    obtain ⟨input, hinput, hz⟩ := except_bind_eq_ok.mp hz
    obtain ⟨output, houtput, hz⟩ := except_bind_eq_ok.mp hz
    obtain ⟨forward, hforward, hz⟩ := except_bind_eq_ok.mp hz
    obtain rfl := Except.ok.inj hz
    obtain ⟨hname', hnetwork', henabled'⟩ := SectionData.zone.inj hdata
    refine ⟨(name_iff s _).mp ⟨name, hname, hname'.symm⟩, (network_iff s _).mp hnetwork'.symm,
      (enabled_iff s).mp (henabled.trans (congrArg Except.ok henabled')), ?_⟩
    simp only [List.forall_mem_cons]
    exact ⟨(asBool_isOk_iff s _).mp ⟨_, hmasquerade⟩, (asBool_isOk_iff s _).mp ⟨_, hmtuFix⟩,
      (textField_isOk_iff s _).mp ⟨_, hinput⟩, (textField_isOk_iff s _).mp ⟨_, houtput⟩,
      (textField_isOk_iff s _).mp ⟨_, hforward⟩, nofun⟩
  · rintro ⟨hname, hnetwork, henabled, hrest⟩
    simp only [List.forall_mem_cons] at hrest
    obtain ⟨hmasq, hmtuFix, hinput, houtput, hforward, _⟩ := hrest
    obtain ⟨name, hname, hname'⟩ := (name_iff s _).mpr hname
    obtain ⟨masquerade, hmasquerade⟩ := (asBool_isOk_iff s _).mpr hmasq
    obtain ⟨mtuFix, hmtuFix⟩ := (asBool_isOk_iff s _).mpr hmtuFix
    obtain ⟨input, hinput⟩ := (textField_isOk_iff s _).mpr hinput
    obtain ⟨output, houtput⟩ := (textField_isOk_iff s _).mpr houtput
    obtain ⟨forward, hforward⟩ := (textField_isOk_iff s _).mpr hforward
    rw [(enabled_iff s).mpr henabled, hmasquerade, hmtuFix, hname, hinput, houtput, hforward]
    refine ⟨_, rfl, ?_⟩
    show SectionData.zone _ _ _ = _
    rw [hname', (network_iff s _).mpr hnetwork]

theorem rule_iff (key : Text) :
    (∃ r, RouterAgent.collectRule key opt = .ok r ∧
      agentRule r = .rule key ((seen s "name").getD (.str [])) (seen s "proto") (seen s "src_port")
        (seen s "dest_port") (seenEnabled s)) ↔ RuleSame s := by
  rw [RouterAgent.collectRule, sectionEnabled_agent hopt, hopt "name".toList (by decide),
    hopt "src".toList (by decide), hopt "dest".toList (by decide), hopt "proto".toList (by decide),
    hopt "target".toList (by decide), hopt "family".toList (by decide),
    hopt "src_port".toList (by decide), hopt "dest_port".toList (by decide)]
  constructor
  · rintro ⟨r, hr, hdata⟩
    obtain ⟨enabled, henabled, hr⟩ := except_bind_eq_ok.mp hr
    obtain ⟨name, hname, hr⟩ := except_bind_eq_ok.mp hr
    obtain ⟨src, hsrc, hr⟩ := except_bind_eq_ok.mp hr
    obtain ⟨dest, hdest, hr⟩ := except_bind_eq_ok.mp hr
    obtain ⟨proto, hproto, hr⟩ := except_bind_eq_ok.mp hr
    obtain ⟨target, htarget, hr⟩ := except_bind_eq_ok.mp hr
    obtain ⟨family, hfamily, hr⟩ := except_bind_eq_ok.mp hr
    obtain ⟨srcPort, hsrcPort, hr⟩ := except_bind_eq_ok.mp hr
    obtain ⟨destPort, hdestPort, hr⟩ := except_bind_eq_ok.mp hr
    obtain rfl := Except.ok.inj hr
    obtain ⟨_, hname', hproto', hsrcPort', hdestPort', henabled'⟩ := SectionData.rule.inj hdata
    refine ⟨(name_iff s _).mp ⟨name, hname, hname'.symm⟩,
      (text_iff s _).mp ⟨proto, hproto, hproto'.symm⟩,
      (text_iff s _).mp ⟨srcPort, hsrcPort, hsrcPort'.symm⟩,
      (text_iff s _).mp ⟨destPort, hdestPort, hdestPort'.symm⟩,
      (enabled_iff s).mp (henabled.trans (congrArg Except.ok henabled')), ?_⟩
    simp only [List.forall_mem_cons]
    exact ⟨(textField_isOk_iff s _).mp ⟨_, hsrc⟩, (textField_isOk_iff s _).mp ⟨_, hdest⟩,
      (textField_isOk_iff s _).mp ⟨_, htarget⟩, (textField_isOk_iff s _).mp ⟨_, hfamily⟩, nofun⟩
  · rintro ⟨hname, hproto, hsrcPort, hdestPort, henabled, hrest⟩
    simp only [List.forall_mem_cons] at hrest
    obtain ⟨hsrc, hdest, htarget, hfamily, _⟩ := hrest
    obtain ⟨name, hname, hname'⟩ := (name_iff s _).mpr hname
    obtain ⟨proto, hproto, hproto'⟩ := (text_iff s _).mpr hproto
    obtain ⟨srcPort, hsrcPort, hsrcPort'⟩ := (text_iff s _).mpr hsrcPort
    obtain ⟨destPort, hdestPort, hdestPort'⟩ := (text_iff s _).mpr hdestPort
    obtain ⟨src, hsrc⟩ := (textField_isOk_iff s _).mpr hsrc
    obtain ⟨dest, hdest⟩ := (textField_isOk_iff s _).mpr hdest
    obtain ⟨target, htarget⟩ := (textField_isOk_iff s _).mpr htarget
    obtain ⟨family, hfamily⟩ := (textField_isOk_iff s _).mpr hfamily
    rw [(enabled_iff s).mpr henabled, hname, hsrc, hdest, hproto, htarget, hfamily, hsrcPort,
      hdestPort]
    refine ⟨_, rfl, ?_⟩
    show SectionData.rule _ _ _ _ _ _ = _
    rw [hname', hproto', hsrcPort', hdestPort']

theorem redirect_iff (key : Text) :
    (∃ f, RouterAgent.collectForward key opt = .ok f ∧
      agentForward f = .redirect key ((seen s "name").getD (.str [])) (seen s "proto")
        (pyOr (seen s "src_dport") (seen s "dport")) (seen s "dest_port") (seenEnabled s)) ↔
      RedirectSame s := by
  rw [RouterAgent.collectForward, sectionEnabled_agent hopt, hopt "name".toList (by decide),
    hopt "proto".toList (by decide), hopt "src".toList (by decide),
    hopt "src_dport".toList (by decide), hopt "dport".toList (by decide),
    hopt "src_ip".toList (by decide), hopt "dest".toList (by decide),
    hopt "dest_ip".toList (by decide), hopt "dest_port".toList (by decide),
    hopt "target".toList (by decide)]
  constructor
  · rintro ⟨f, hf, hdata⟩
    obtain ⟨enabled, henabled, hf⟩ := except_bind_eq_ok.mp hf
    obtain ⟨name, hname, hf⟩ := except_bind_eq_ok.mp hf
    obtain ⟨proto, hproto, hf⟩ := except_bind_eq_ok.mp hf
    obtain ⟨src, hsrc, hf⟩ := except_bind_eq_ok.mp hf
    obtain ⟨srcDport, hsrcDport, hf⟩ := except_bind_eq_ok.mp hf
    obtain ⟨srcIp, hsrcIp, hf⟩ := except_bind_eq_ok.mp hf
    obtain ⟨dest, hdest, hf⟩ := except_bind_eq_ok.mp hf
    obtain ⟨destIp, hdestIp, hf⟩ := except_bind_eq_ok.mp hf
    obtain ⟨destPort, hdestPort, hf⟩ := except_bind_eq_ok.mp hf
    obtain ⟨target, htarget, hf⟩ := except_bind_eq_ok.mp hf
    obtain rfl := Except.ok.inj hf
    obtain ⟨_, hname', hproto', hsrcDport', hdestPort', henabled'⟩ :=
      SectionData.redirect.inj hdata
    refine ⟨(name_iff s _).mp ⟨name, hname, hname'.symm⟩,
      (text_iff s _).mp ⟨proto, hproto, hproto'.symm⟩,
      (dport_iff s).mp ⟨srcDport, hsrcDport, hsrcDport'.symm⟩,
      (text_iff s _).mp ⟨destPort, hdestPort, hdestPort'.symm⟩,
      (enabled_iff s).mp (henabled.trans (congrArg Except.ok henabled')), ?_⟩
    simp only [List.forall_mem_cons]
    exact ⟨(textField_isOk_iff s _).mp ⟨_, hsrc⟩, (textField_isOk_iff s _).mp ⟨_, hsrcIp⟩,
      (textField_isOk_iff s _).mp ⟨_, hdest⟩, (textField_isOk_iff s _).mp ⟨_, hdestIp⟩,
      (textField_isOk_iff s _).mp ⟨_, htarget⟩, nofun⟩
  · rintro ⟨hname, hproto, hsrcDport, hdestPort, henabled, hrest⟩
    simp only [List.forall_mem_cons] at hrest
    obtain ⟨hsrc, hsrcIp, hdest, hdestIp, htarget, _⟩ := hrest
    obtain ⟨name, hname, hname'⟩ := (name_iff s _).mpr hname
    obtain ⟨proto, hproto, hproto'⟩ := (text_iff s _).mpr hproto
    obtain ⟨srcDport, hsrcDport, hsrcDport'⟩ := (dport_iff s).mpr hsrcDport
    obtain ⟨destPort, hdestPort, hdestPort'⟩ := (text_iff s _).mpr hdestPort
    obtain ⟨src, hsrc⟩ := (textField_isOk_iff s _).mpr hsrc
    obtain ⟨srcIp, hsrcIp⟩ := (textField_isOk_iff s _).mpr hsrcIp
    obtain ⟨dest, hdest⟩ := (textField_isOk_iff s _).mpr hdest
    obtain ⟨destIp, hdestIp⟩ := (textField_isOk_iff s _).mpr hdestIp
    obtain ⟨target, htarget⟩ := (textField_isOk_iff s _).mpr htarget
    rw [(enabled_iff s).mpr henabled, hname, hproto, hsrc, hsrcDport, hsrcIp, hdest, hdestIp,
      hdestPort, htarget]
    refine ⟨_, rfl, ?_⟩
    show SectionData.redirect _ _ _ _ _ _ = _
    rw [hname', hproto', hsrcDport', hdestPort']

theorem nat_isOk_iff (key : Text) :
    (∃ n, RouterAgent.collectNat key opt = .ok n) ↔ NatReads s := by
  rw [RouterAgent.collectNat, NatReads, sectionEnabled_agent hopt, hopt "name".toList (by decide),
    hopt "target".toList (by decide), hopt "family".toList (by decide),
    hopt "src".toList (by decide), hopt "src_dport".toList (by decide),
    hopt "dest".toList (by decide), hopt "dest_ip".toList (by decide),
    hopt "dest_port".toList (by decide), hopt "proto".toList (by decide)]
  rw [← agentEnabled_isOk_iff]
  simp only [List.forall_mem_cons, ← textField_isOk_iff]
  constructor
  · rintro ⟨n, hn⟩
    obtain ⟨enabled, henabled, hn⟩ := except_bind_eq_ok.mp hn
    obtain ⟨name, hname, hn⟩ := except_bind_eq_ok.mp hn
    obtain ⟨target, htarget, hn⟩ := except_bind_eq_ok.mp hn
    obtain ⟨family, hfamily, hn⟩ := except_bind_eq_ok.mp hn
    obtain ⟨src, hsrc, hn⟩ := except_bind_eq_ok.mp hn
    obtain ⟨srcDport, hsrcDport, hn⟩ := except_bind_eq_ok.mp hn
    obtain ⟨dest, hdest, hn⟩ := except_bind_eq_ok.mp hn
    obtain ⟨destIp, hdestIp, hn⟩ := except_bind_eq_ok.mp hn
    obtain ⟨destPort, hdestPort, hn⟩ := except_bind_eq_ok.mp hn
    obtain ⟨proto, hproto, _⟩ := except_bind_eq_ok.mp hn
    exact ⟨⟨_, henabled⟩, ⟨_, hname⟩, ⟨_, htarget⟩, ⟨_, hfamily⟩, ⟨_, hsrc⟩, ⟨_, hsrcDport⟩,
      ⟨_, hdest⟩, ⟨_, hdestIp⟩, ⟨_, hdestPort⟩, ⟨_, hproto⟩, nofun⟩
  · rintro ⟨⟨enabled, henabled⟩, ⟨name, hname⟩, ⟨target, htarget⟩, ⟨family, hfamily⟩, ⟨src, hsrc⟩,
      ⟨srcDport, hsrcDport⟩, ⟨dest, hdest⟩, ⟨destIp, hdestIp⟩, ⟨destPort, hdestPort⟩,
      ⟨proto, hproto⟩, _⟩
    rw [henabled, hname, htarget, hfamily, hsrc, hsrcDport, hdest, hdestIp, hdestPort, hproto]
    exact ⟨_, rfl⟩

theorem defaults_isOk_iff :
    (∃ d, RouterAgent.collectDefaults opt = .ok d) ↔ DefaultsRead s := by
  have hmtu := asInt_isOk_iff s "mtu"
  have hsynFlood := synFlood_isOk_iff s "synflood_protect" "syn_flood"
  rw [RouterAgent.collectDefaults, DefaultsRead, hopt "masq".toList (by decide),
    hopt "synflood_protect".toList (by decide), hopt "syn_flood".toList (by decide),
    hopt "osf".toList (by decide), hopt "mtu".toList (by decide), hopt "input".toList (by decide),
    hopt "output".toList (by decide), hopt "forward".toList (by decide)]
  simp only [List.forall_mem_cons]
  constructor
  · rintro ⟨d, hd⟩
    obtain ⟨masquerade, hmasquerade, hd⟩ := except_bind_eq_ok.mp hd
    obtain ⟨flood, hflood, hd⟩ := except_bind_eq_ok.mp hd
    obtain ⟨osf, hosf, hd⟩ := except_bind_eq_ok.mp hd
    obtain ⟨n, hn, hd⟩ := except_bind_eq_ok.mp hd
    obtain ⟨input, hinput, hd⟩ := except_bind_eq_ok.mp hd
    obtain ⟨output, houtput, hd⟩ := except_bind_eq_ok.mp hd
    obtain ⟨forward, hforward, _⟩ := except_bind_eq_ok.mp hd
    obtain ⟨hprotect, hflood⟩ := hsynFlood.mp ⟨_, hflood⟩
    obtain ⟨hmtu, hreads⟩ := hmtu.mp ⟨_, hn⟩
    exact ⟨⟨(asBool_isOk_iff s _).mp ⟨_, hmasquerade⟩, hprotect,
      (asBool_isOk_iff s _).mp ⟨_, hosf⟩, hmtu, (textField_isOk_iff s _).mp ⟨_, hinput⟩,
      (textField_isOk_iff s _).mp ⟨_, houtput⟩, (textField_isOk_iff s _).mp ⟨_, hforward⟩, nofun⟩,
      hflood, hreads⟩
  · rintro ⟨⟨hmasquerade, hprotect, hosf, hmtu', hinput, houtput, hforward, _⟩, hflood, hreads⟩
    obtain ⟨masquerade, hmasquerade⟩ := (asBool_isOk_iff s _).mpr hmasquerade
    obtain ⟨flood, hflood⟩ := hsynFlood.mpr ⟨hprotect, hflood⟩
    obtain ⟨osf, hosf⟩ := (asBool_isOk_iff s _).mpr hosf
    obtain ⟨n, hn⟩ := hmtu.mpr ⟨hmtu', hreads⟩
    obtain ⟨input, hinput⟩ := (textField_isOk_iff s _).mpr hinput
    obtain ⟨output, houtput⟩ := (textField_isOk_iff s _).mpr houtput
    obtain ⟨forward, hforward⟩ := (textField_isOk_iff s _).mpr hforward
    rw [hmasquerade, hflood, hosf, hn, hinput, houtput, hforward]
    exact ⟨_, rfl⟩

end

end OpenWrtCopilot.Ports.FirewallAgreement
