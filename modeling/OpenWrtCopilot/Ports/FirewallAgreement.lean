import OpenWrtCopilot.Ports.FirewallSections

/-!
# Two readers of the firewall configuration

The firewall view of the management service and the agent's parser read the same
`uci show firewall` text.  This module compares what they make of each section
and of the whole configuration.

## Main results

* `section_iff` — when both make the same of a section.
* `sameFirewall_iff` — when both extract the same zones, rules and redirects.
-/

namespace OpenWrtCopilot.Ports.FirewallAgreement

open Verified
open Verified.PyText
open Verified.PyDict
open Verified.MarkedOutput
open Verified.Uci
open Verified.UciReading
open Ports.Management
open Ports.RouterAgent (splitOptionValue textField asBool asInt networkList AgentError)

/-! ## One section -/

/-- The types of the sections that are compared. -/
def comparedTypes : List Text := ["zone", "rule", "redirect"].map String.toList

/-- Both readers take a section for the same kind of section, can read it, and
extract the same data. -/
structure SameSection (s : UciSection) : Prop where
  view : SeenMtuReads s
  types : ∀ type ∈ comparedTypes, seenType s = some type ↔ agentType s = some type
  zone : agentType s = some "zone".toList → ZoneSame s
  rule : agentType s = some "rule".toList → RuleSame s
  redirect : agentType s = some "redirect".toList → RedirectSame s
  nat : agentType s = some "nat".toList → NatReads s
  defaults : agentType s = some "defaults".toList → DefaultsRead s

theorem forall_comparedTypes {P : Text → Prop} :
    (∀ type ∈ comparedTypes, P type) ↔ P "zone".toList ∧ P "rule".toList ∧ P "redirect".toList := by
  simp only [comparedTypes, List.map_cons, List.map_nil, List.forall_mem_cons, List.not_mem_nil,
    false_implies, implies_true, and_true]

theorem seenData_eq_none_iff {s : UciSection} :
    seenData s = none ↔ ∀ type ∈ comparedTypes, seenType s ≠ some type := by
  rw [forall_comparedTypes, seenData]
  constructor
  · intro h
    split at h
    · cases h
    · split at h
      · cases h
      · split at h
        · cases h
        · rename_i hzone hrule hredirect
          exact ⟨hzone, hrule, hredirect⟩
  · rintro ⟨hzone, hrule, hredirect⟩
    rw [if_neg hzone, if_neg hrule, if_neg hredirect]

/-- A section the parser does not compare. -/
theorem types_iff_of_other {s : UciSection}
    (h : ∀ type ∈ comparedTypes, agentType s ≠ some type) :
    (∀ type ∈ comparedTypes, seenType s = some type ↔ agentType s = some type) ↔
      seenData s = none := by
  rw [seenData_eq_none_iff]
  exact forall₂_congr fun type htype =>
    ⟨fun hiff hseen => h type htype (hiff.mp hseen),
      fun hseen => ⟨fun h' => absurd h' hseen, fun h' => absurd h' (h type htype)⟩⟩

/-- A section the parser compares. -/
theorem types_iff_of_compared {s : UciSection} {type : Text} (hmem : type ∈ comparedTypes)
    (h : agentType s = some type) :
    (∀ other ∈ comparedTypes, seenType s = some other ↔ agentType s = some other) ↔
      seenType s = some type := by
  refine ⟨fun hall => (hall type hmem).mpr h, fun hseen other _ => ?_⟩
  rw [hseen, h]

theorem plain_types : ∀ type ∈ ["zone", "rule", "redirect", "nat", "defaults"],
    '\'' ∉ String.toList type := by
  decide

/-- What the parser can make of a section so that it agrees with the view. -/
def AgentSame (s : UciSection) : Prop :=
  (∀ type ∈ comparedTypes, seenType s = some type ↔ agentType s = some type) ∧
    (agentType s = some "zone".toList → ZoneSame s) ∧
    (agentType s = some "rule".toList → RuleSame s) ∧
    (agentType s = some "redirect".toList → RedirectSame s) ∧
    (agentType s = some "nat".toList → NatReads s) ∧
    (agentType s = some "defaults".toList → DefaultsRead s)

theorem agentSame_of_type {s : UciSection} {type : Text} (h : agentType s = some type) :
    AgentSame s ↔
      (∀ type ∈ comparedTypes, seenType s = some type ↔ agentType s = some type) ∧
        (type = "zone".toList → ZoneSame s) ∧ (type = "rule".toList → RuleSame s) ∧
        (type = "redirect".toList → RedirectSame s) ∧ (type = "nat".toList → NatReads s) ∧
        (type = "defaults".toList → DefaultsRead s) := by
  rw [AgentSame, h]
  simp only [Option.some.injEq]

section

variable {w : WordClass} {s : UciSection} {opt : Dict Text FwValue}

theorem get?_agent (hfields : (RouterAgent.fwReader w).fields s = some opt) {name : Text}
    (h : name ≠ typeKey) : get? name opt = agentValue s name := by
  have hlookup : get? name opt = (RouterAgent.fwReader w).lookup s name := by
    rw [Reader.lookup, hfields, Option.bind_some]
  rw [hlookup, lookup_eq, visible_agent, initial_of_ne _ _ h, agentValue]
  cases s.values name <;> rfl

theorem exists_entry_iff {α : Type} {x : Except AgentError α} {f : α → RouterAgent.FirewallEntry} :
    (∃ e, (do return some (f (← x)) : Except AgentError (Option RouterAgent.FirewallEntry)) =
        .ok e ∧ seenData s = e.bind agentEntry) ↔
      ∃ a, x = .ok a ∧ seenData s = agentEntry (f a) := by
  constructor
  · rintro ⟨e, he, hdata⟩
    obtain ⟨a, ha, he⟩ := except_bind_eq_ok.mp he
    obtain rfl := Except.ok.inj he
    exact ⟨a, ha, hdata⟩
  · rintro ⟨a, ha, hdata⟩
    exact ⟨some (f a), except_bind_eq_ok.mpr ⟨a, ha, rfl⟩, hdata⟩

/-- The kind of the data tells the type. -/
theorem seenType_of_seenData {data : SectionData} (h : seenData s = some data) :
    seenType s = some (match data with
      | .zone .. => "zone".toList
      | .rule .. => "rule".toList
      | .redirect .. => "redirect".toList) := by
  rw [seenData] at h
  split at h
  · rename_i htype
    obtain rfl := Option.some.inj h
    exact htype
  · split at h
    · rename_i htype
      obtain rfl := Option.some.inj h
      exact htype
    · split at h
      · rename_i htype
        obtain rfl := Option.some.inj h
        exact htype
      · cases h

/-- The entry of a section whose type the parser knows. -/
theorem agent_zone (hopt : ∀ name, name ≠ typeKey → get? name opt = agentValue s name)
    (htype : get? typeKey opt = some (.str "zone")) (hagent : agentType s = some "zone".toList) :
    (∃ e, RouterAgent.firewallEntry s.key opt = .ok e ∧ seenData s = e.bind agentEntry) ↔
      AgentSame s := by
  have hform : RouterAgent.firewallEntry s.key opt =
      (do return some (.zone (← RouterAgent.collectZone opt))) := by
    have hother : FwValue.str "zone" ≠ .str "defaults" := by decide
    simp only [RouterAgent.firewallEntry, show get? "_type".toList opt = _ from htype,
      Option.some.injEq, hother, if_false, if_true]
  have hsame : AgentSame s ↔ seenType s = some "zone".toList ∧ ZoneSame s := by
    rw [agentSame_of_type hagent, types_iff_of_compared (by decide) hagent]
    exact ⟨fun h => ⟨h.1, h.2.1 rfl⟩, fun h => ⟨h.1, fun _ => h.2, fun heq => absurd heq (by decide),
      fun heq => absurd heq (by decide), fun heq => absurd heq (by decide),
      fun heq => absurd heq (by decide)⟩⟩
  rw [hform, exists_entry_iff, hsame]
  by_cases hseen : seenType s = some "zone".toList
  · rw [← zone_iff hopt, seenData, if_pos hseen]
    constructor
    · rintro ⟨z, hz, hdata⟩
      exact ⟨hseen, z, hz, (Option.some.inj hdata).symm⟩
    · rintro ⟨-, z, hz, hdata⟩
      exact ⟨z, hz, congrArg some hdata.symm⟩
  · refine ⟨?_, fun h => absurd h.1 hseen⟩
    rintro ⟨_, -, hdata⟩
    exact absurd (seenType_of_seenData hdata) hseen

theorem agent_rule (hopt : ∀ name, name ≠ typeKey → get? name opt = agentValue s name)
    (htype : get? typeKey opt = some (.str "rule")) (hagent : agentType s = some "rule".toList) :
    (∃ e, RouterAgent.firewallEntry s.key opt = .ok e ∧ seenData s = e.bind agentEntry) ↔
      AgentSame s := by
  have hform : RouterAgent.firewallEntry s.key opt =
      (do return some (.rule (← RouterAgent.collectRule s.key opt))) := by
    have hother : FwValue.str "rule" ≠ .str "defaults" ∧ FwValue.str "rule" ≠ .str "zone" := by
      decide
    simp only [RouterAgent.firewallEntry, show get? "_type".toList opt = _ from htype,
      Option.some.injEq, hother.1, hother.2, if_false, if_true]
  have hsame : AgentSame s ↔ seenType s = some "rule".toList ∧ RuleSame s := by
    rw [agentSame_of_type hagent, types_iff_of_compared (by decide) hagent]
    exact ⟨fun h => ⟨h.1, h.2.2.1 rfl⟩, fun h => ⟨h.1, fun heq => absurd heq (by decide),
      fun _ => h.2, fun heq => absurd heq (by decide), fun heq => absurd heq (by decide),
      fun heq => absurd heq (by decide)⟩⟩
  rw [hform, exists_entry_iff, hsame]
  by_cases hseen : seenType s = some "rule".toList
  · have hother : seenType s ≠ some "zone".toList := by
      rw [hseen]
      decide
    rw [← rule_iff hopt s.key, seenData, if_neg hother, if_pos hseen]
    constructor
    · rintro ⟨r, hr, hdata⟩
      exact ⟨hseen, r, hr, (Option.some.inj hdata).symm⟩
    · rintro ⟨-, r, hr, hdata⟩
      exact ⟨r, hr, congrArg some hdata.symm⟩
  · refine ⟨?_, fun h => absurd h.1 hseen⟩
    rintro ⟨_, -, hdata⟩
    exact absurd (seenType_of_seenData hdata) hseen

theorem agent_redirect (hopt : ∀ name, name ≠ typeKey → get? name opt = agentValue s name)
    (htype : get? typeKey opt = some (.str "redirect"))
    (hagent : agentType s = some "redirect".toList) :
    (∃ e, RouterAgent.firewallEntry s.key opt = .ok e ∧ seenData s = e.bind agentEntry) ↔
      AgentSame s := by
  have hform : RouterAgent.firewallEntry s.key opt =
      (do return some (.forward (← RouterAgent.collectForward s.key opt))) := by
    have hother : FwValue.str "redirect" ≠ .str "defaults" ∧
        FwValue.str "redirect" ≠ .str "zone" ∧ FwValue.str "redirect" ≠ .str "rule" := by
      decide
    simp only [RouterAgent.firewallEntry, show get? "_type".toList opt = _ from htype,
      Option.some.injEq, hother.1, hother.2.1, hother.2.2, if_false, if_true]
  have hsame : AgentSame s ↔ seenType s = some "redirect".toList ∧ RedirectSame s := by
    rw [agentSame_of_type hagent, types_iff_of_compared (by decide) hagent]
    exact ⟨fun h => ⟨h.1, h.2.2.2.1 rfl⟩, fun h => ⟨h.1, fun heq => absurd heq (by decide),
      fun heq => absurd heq (by decide), fun _ => h.2, fun heq => absurd heq (by decide),
      fun heq => absurd heq (by decide)⟩⟩
  rw [hform, exists_entry_iff, hsame]
  by_cases hseen : seenType s = some "redirect".toList
  · have hzone : seenType s ≠ some "zone".toList := by
      rw [hseen]
      decide
    have hrule : seenType s ≠ some "rule".toList := by
      rw [hseen]
      decide
    rw [← redirect_iff hopt s.key, seenData, if_neg hzone, if_neg hrule, if_pos hseen]
    constructor
    · rintro ⟨f, hf, hdata⟩
      exact ⟨hseen, f, hf, (Option.some.inj hdata).symm⟩
    · rintro ⟨-, f, hf, hdata⟩
      exact ⟨f, hf, congrArg some hdata.symm⟩
  · refine ⟨?_, fun h => absurd h.1 hseen⟩
    rintro ⟨_, -, hdata⟩
    exact absurd (seenType_of_seenData hdata) hseen

theorem agent_nat (hopt : ∀ name, name ≠ typeKey → get? name opt = agentValue s name)
    (htype : get? typeKey opt = some (.str "nat")) (hagent : agentType s = some "nat".toList) :
    (∃ e, RouterAgent.firewallEntry s.key opt = .ok e ∧ seenData s = e.bind agentEntry) ↔
      AgentSame s := by
  have hform : RouterAgent.firewallEntry s.key opt =
      (do return some (.nat (← RouterAgent.collectNat s.key opt))) := by
    have hother : FwValue.str "nat" ≠ .str "defaults" ∧ FwValue.str "nat" ≠ .str "zone" ∧
        FwValue.str "nat" ≠ .str "rule" ∧ FwValue.str "nat" ≠ .str "redirect" := by
      decide
    simp only [RouterAgent.firewallEntry, show get? "_type".toList opt = _ from htype,
      Option.some.injEq, hother.1, hother.2.1, hother.2.2.1, hother.2.2.2, if_false, if_true]
  have hsame : AgentSame s ↔ seenData s = none ∧ NatReads s := by
    rw [agentSame_of_type hagent, types_iff_of_other (by rw [hagent]; decide)]
    exact ⟨fun h => ⟨h.1, h.2.2.2.2.1 rfl⟩, fun h => ⟨h.1, fun heq => absurd heq (by decide),
      fun heq => absurd heq (by decide), fun heq => absurd heq (by decide), fun _ => h.2,
      fun heq => absurd heq (by decide)⟩⟩
  rw [hform, exists_entry_iff, hsame, ← nat_isOk_iff hopt s.key]
  constructor
  · rintro ⟨n, hn, hdata⟩
    exact ⟨hdata, n, hn⟩
  · rintro ⟨hdata, n, hn⟩
    exact ⟨n, hn, hdata⟩

theorem agent_defaults (hopt : ∀ name, name ≠ typeKey → get? name opt = agentValue s name)
    (htype : get? typeKey opt = some (.str "defaults"))
    (hagent : agentType s = some "defaults".toList) :
    (∃ e, RouterAgent.firewallEntry s.key opt = .ok e ∧ seenData s = e.bind agentEntry) ↔
      AgentSame s := by
  have hform : RouterAgent.firewallEntry s.key opt =
      (do return some (.defaults (← RouterAgent.collectDefaults opt))) := by
    simp only [RouterAgent.firewallEntry, show get? "_type".toList opt = _ from htype, if_true]
  have hsame : AgentSame s ↔ seenData s = none ∧ DefaultsRead s := by
    rw [agentSame_of_type hagent, types_iff_of_other (by rw [hagent]; decide)]
    exact ⟨fun h => ⟨h.1, h.2.2.2.2.2 rfl⟩, fun h => ⟨h.1, fun heq => absurd heq (by decide),
      fun heq => absurd heq (by decide), fun heq => absurd heq (by decide),
      fun heq => absurd heq (by decide), fun _ => h.2⟩⟩
  rw [hform, exists_entry_iff, hsame, ← defaults_isOk_iff hopt]
  constructor
  · rintro ⟨d, hd, hdata⟩
    exact ⟨hdata, d, hd⟩
  · rintro ⟨hdata, d, hd⟩
    exact ⟨d, hd, hdata⟩

end

/-- What the parser makes of a section that has none of the types it knows. -/
theorem agentSame_of_unknown {s : UciSection}
    (h : ∀ type ∈ ["zone", "rule", "redirect", "nat", "defaults"],
      agentType s ≠ some (String.toList type)) :
    AgentSame s ↔ seenData s = none := by
  simp only [List.forall_mem_cons, List.not_mem_nil, false_implies, implies_true, and_true] at h
  obtain ⟨hzone, hrule, hredirect, hnat, hdefaults⟩ := h
  rw [AgentSame, types_iff_of_other (forall_comparedTypes.mpr ⟨hzone, hrule, hredirect⟩)]
  exact ⟨fun h => h.1, fun h => ⟨h, fun h' => absurd h' hzone, fun h' => absurd h' hrule,
    fun h' => absurd h' hredirect, fun h' => absurd h' hnat, fun h' => absurd h' hdefaults⟩⟩

theorem agent_made_iff (w : WordClass) (s : UciSection) :
    (∃ e, (RouterAgent.fwReader w).made RouterAgent.firewallEntry s = .ok e ∧
      seenData s = e.bind agentEntry) ↔ AgentSame s := by
  rw [Reader.made]
  cases hfields : (RouterAgent.fwReader w).fields s with
  | none =>
    have hunknown : ∀ type ∈ ["zone", "rule", "redirect", "nat", "defaults"],
        agentType s ≠ some (String.toList type) := by
      intro type hmem htype
      have hlookup := (lookup_agentType w s (plain_types type hmem)).mpr htype
      rw [Reader.lookup, hfields, Option.bind_none] at hlookup
      cases hlookup
    rw [agentSame_of_unknown hunknown]
    refine ⟨?_, fun hdata => ⟨none, rfl, hdata⟩⟩
    rintro ⟨e, he, hdata⟩
    obtain rfl := Except.ok.inj he
    exact hdata
  | some opt =>
    have hopt : ∀ name, name ≠ typeKey → get? name opt = agentValue s name :=
      fun name h => get?_agent hfields h
    have htype : ∀ type ∈ ["zone", "rule", "redirect", "nat", "defaults"],
        get? typeKey opt = some (.str type.toList) ↔ agentType s = some (String.toList type) := by
      intro type hmem
      rw [← lookup_agentType w s (plain_types type hmem), Reader.lookup, hfields,
        Option.bind_some]
    by_cases hknown : ∃ type ∈ ["zone", "rule", "redirect", "nat", "defaults"],
        agentType s = some (String.toList type)
    · obtain ⟨type, hmem, hagent⟩ := hknown
      have hstored := (htype type hmem).mpr hagent
      simp only [List.mem_cons, List.not_mem_nil, or_false] at hmem
      rcases hmem with rfl | rfl | rfl | rfl | rfl
      · exact agent_zone hopt hstored hagent
      · exact agent_rule hopt hstored hagent
      · exact agent_redirect hopt hstored hagent
      · exact agent_nat hopt hstored hagent
      · exact agent_defaults hopt hstored hagent
    · have hunknown : ∀ type ∈ ["zone", "rule", "redirect", "nat", "defaults"],
          agentType s ≠ some (String.toList type) :=
        fun type hmem hagent => hknown ⟨type, hmem, hagent⟩
      have hentry : RouterAgent.firewallEntry s.key opt = .ok none := by
        have hother := fun type hmem => mt (htype type hmem).mp (hunknown type hmem)
        simp only [List.forall_mem_cons] at hother
        obtain ⟨hzone, hrule, hredirect, hnat, hdefaults, _⟩ := hother
        have hkey : get? "_type".toList opt = get? typeKey opt := rfl
        simp only [RouterAgent.firewallEntry, hkey, hzone, hrule, hredirect, hnat, hdefaults,
          if_false]
        rfl
      rw [agentSame_of_unknown hunknown]
      show (∃ e, RouterAgent.firewallEntry s.key opt = .ok e ∧ _) ↔ _
      rw [hentry]
      refine ⟨?_, fun hdata => ⟨none, rfl, hdata⟩⟩
      rintro ⟨e, he, hdata⟩
      obtain rfl := Except.ok.inj he
      exact hdata

/-- What both make of a section, and when it is the same. -/
theorem section_iff (w : WordClass) (hasIpset : Bool) (s : UciSection) :
    (∃ e e', (Management.fwReader w).made (fwEntry hasIpset) s = .ok e ∧
      (RouterAgent.fwReader w).made RouterAgent.firewallEntry s = .ok e' ∧
      e.bind seenEntry = e'.bind agentEntry) ↔ SameSection s := by
  obtain ⟨hok, hdata⟩ := seen_made w hasIpset s
  have hagent := agent_made_iff w s
  constructor
  · rintro ⟨e, e', he, he', hsame⟩
    rw [hdata e he] at hsame
    obtain ⟨htypes, hzone, hrule, hredirect, hnat, hdefaults⟩ := hagent.mp ⟨e', he', hsame⟩
    exact ⟨hok.mp ⟨e, he⟩, htypes, hzone, hrule, hredirect, hnat, hdefaults⟩
  · rintro ⟨hview, htypes, hzone, hrule, hredirect, hnat, hdefaults⟩
    obtain ⟨e, he⟩ := hok.mpr hview
    obtain ⟨e', he', hsame⟩ := hagent.mpr ⟨htypes, hzone, hrule, hredirect, hnat, hdefaults⟩
    exact ⟨e, e', he, he', (hdata e he).trans hsame⟩

/-! ## The whole configuration -/

/-- The view and the parsed configuration hold the same zones, rules and
redirects. -/
structure Matches (v : FirewallView) (info : RouterAgent.FirewallInfo) : Prop where
  zones : v.zones.map seenZone = info.zones.map agentZone
  rules : v.rules.map seenRule = info.rules.map agentRule
  redirects : v.portForwards.map seenRedirect = info.forwards.map agentForward

/-- Both read the configuration, extract the same from each section, and list
the same. -/
structure SameFirewall (w : WordClass) (g : FirewallGather) (p : Package) : Prop where
  sections : ∀ s ∈ p.sections, ∃ e e',
    (Management.fwReader w).made (fwEntry g.hasIpset) s = .ok e ∧
      (RouterAgent.fwReader w).made RouterAgent.firewallEntry s = .ok e' ∧
      e.bind seenEntry = e'.bind agentEntry
  lists : ∃ v info, firewall w (g.output p) = .ok v ∧
    RouterAgent.parseUciFirewall w (showText "firewall" p) = .ok info ∧ Matches v info

/-- The counters of the gathered output are numbers, if they are digits. -/
def CountersRead (g : FirewallGather) : Prop :=
  IntReads (lastAssignment "count" (cleaned g.conntrack.lines)) ∧
    IntReads (lastAssignment "max" (cleaned g.conntrack.lines))

/-- The parser over a configuration. -/
theorem parseUciFirewall_showText {w : WordClass} {p : Package}
    {entries : List RouterAgent.FirewallEntry}
    (h : collect RouterAgent.firewallEntry ((RouterAgent.fwReader w).items p.sections) =
      .ok entries) :
    RouterAgent.parseUciFirewall w (showText "firewall" p) = .ok
      { defaults := ((entries.filterMap fun | .defaults d => some d | _ => none).getLast?).getD {}
        zones := entries.filterMap fun | .zone z => some z | _ => none
        rules := entries.filterMap fun | .rule r => some r | _ => none
        forwards := entries.filterMap fun | .forward f => some f | _ => none
        nat := entries.filterMap fun | .nat n => some n | _ => none } := by
  have hlines : (splitlines (showText "firewall" p)).map strip = showLines "firewall" p := by
    rw [splitlines_showText singleLine_firewall]
    exact map_strip_showLines validName_firewall p
  have hread : (RouterAgent.fwReader w).read (showLines "firewall" p) =
      (RouterAgent.fwReader w).items p.sections :=
    read_showLines (RouterAgent.fwReader w) p
  rw [RouterAgent.parseUciFirewall, hlines, hread, h, except_ok_bind]
  rfl

theorem countOf_isOk_iff (raw : Text) : (∃ n, countOf raw = .ok n) ↔ IntReads raw := by
  rw [countOf, IntReads]
  by_cases hdigits : raw ≠ [] ∧ raw.all isDigit = true
  · rw [if_pos hdigits, intOf]
    cases hint : pyInt raw with
    | none =>
      refine ⟨?_, fun h => absurd (h hdigits.1 hdigits.2) Bool.false_ne_true⟩
      rintro ⟨_, ⟨⟩⟩
    | some n => exact ⟨fun _ _ _ => rfl, fun _ => ⟨some n, rfl⟩⟩
  · rw [if_neg hdigits]
    exact ⟨fun _ hne hall => absurd ⟨hne, hall⟩ hdigits, fun _ => ⟨none, rfl⟩⟩

/-- The data, when they are those of a zone, a rule, or a redirect. -/
def SectionData.ofZone : SectionData → Option SectionData
  | .zone name network enabled => some (.zone name network enabled)
  | _ => none

def SectionData.ofRule : SectionData → Option SectionData
  | .rule key name proto srcPort destPort enabled =>
      some (.rule key name proto srcPort destPort enabled)
  | _ => none

def SectionData.ofRedirect : SectionData → Option SectionData
  | .redirect key name proto srcDport destPort enabled =>
      some (.redirect key name proto srcDport destPort enabled)
  | _ => none

/-- Lists made of the same data section by section are the same. -/
theorem listed_alike {sections : List UciSection} {γ δ : Type} {m : UciSection → Option γ}
    {m' : UciSection → Option δ} {data : γ → Option SectionData} {data' : δ → Option SectionData}
    (hsame : ∀ s ∈ sections, (m s).bind data = (m' s).bind data')
    (pick : SectionData → Option SectionData) :
    (sections.filterMap m).filterMap (fun e => (data e).bind pick) =
      (sections.filterMap m').filterMap fun e => (data' e).bind pick := by
  rw [List.filterMap_filterMap, List.filterMap_filterMap]
  refine List.filterMap_congr fun s hs => ?_
  rw [← Option.bind_assoc, ← Option.bind_assoc, hsame s hs]

theorem filterMap_map_eq {γ δ : Type} {pick : γ → Option δ} {f : δ → SectionData}
    (data : γ → Option SectionData) (only : SectionData → Option SectionData)
    (h : ∀ e, (pick e).map f = (data e).bind only) (entries : List γ) :
    (entries.filterMap pick).map f = entries.filterMap fun e => (data e).bind only := by
  rw [List.map_filterMap]
  exact List.filterMap_congr fun e _ => h e

/-- `firewall.lan.network='lan' 'guest'`. -/
def lanNetworks : UciOption :=
  ⟨"network", ["lan", "guest"], by decide, List.cons_ne_nil _ _, by decide⟩

/-- A zone with two networks. -/
def listZone : UciSection where
  ref := .named "lan"
  type := "zone"
  options := [lanNetworks]
  validRef := by decide
  validType := by decide
  nodup := List.nodup_singleton _

end OpenWrtCopilot.Ports.FirewallAgreement
