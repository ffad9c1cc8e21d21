import OpenWrtCopilot.Ports.ManagementFirewall

/-!
# Toggling what the firewall view reports

A firewall toggle validates a section identifier and writes one option,
`enabled`; the view names anonymous sections `@type[n]` and lets an option
`disabled` decide before `enabled`.  This module puts the two together over a
UCI configuration.

## Main results

* `roundTrips_iff` — a reported section can be toggled, and is reported as it
  was toggled, exactly when it is named and its `disabled` option is not seen.
-/

namespace OpenWrtCopilot.Ports.Management

open Verified
open Verified.PyText
open Verified.PyPattern
open Verified.PyDict
open Verified.MarkedOutput
open Verified.Uci
open Verified.UciReading

/-! ## The gathered output -/

def firewallPrefix : Text := "__AI_FW_"

/-- What the gathering command prints besides the configuration. -/
structure FirewallGather where
  interfaces : Report firewallPrefix
  status : Report firewallPrefix
  conntrack : Report firewallPrefix
  ipset : Report firewallPrefix

theorem validName_firewall : ValidName "firewall" := by decide

theorem singleLine_firewall : SingleLine "firewall" := by decide

theorem showLines_unmarked {p : Package} {line : Text} (hline : line ∈ showLines "firewall" p) :
    startsWith firewallPrefix (strip line) = false := by
  rw [(strip_showLines validName_firewall hline).1]
  obtain ⟨⟨rest, rfl⟩, _⟩ := showLines_ends hline
  rfl

/-- `uci show firewall`. -/
def firewallReport (p : Package) : Report firewallPrefix where
  lines := showLines "firewall" p
  singleLine := singleLine_showLines singleLine_firewall p
  unmarked _ hline := showLines_unmarked hline

def FirewallGather.segments (g : FirewallGather) (p : Package) :
    List (Segment firewallPrefix FirewallPart) :=
  [⟨"__AI_FW_CONFIG__", .config, firewallReport p⟩,
    ⟨"__AI_FW_INTERFACES__", .interfaces, g.interfaces⟩,
    ⟨"__AI_FW_STATUS__", .status, g.status⟩, ⟨"__AI_FW_CONNTRACK__", .conntrack, g.conntrack⟩,
    ⟨"__AI_FW_IPSET__", .ipset, g.ipset⟩]

/-- The output of the gathering command over a configuration. -/
def FirewallGather.output (g : FirewallGather) (p : Package) : Text :=
  gathered (g.segments p) "__AI_FW_DONE__"

theorem announces_firewall {marker : Text} {next : Option FirewallPart}
    (h : (marker, next) ∈ firewallMarkers) :
    Announces firewallPrefix firewallMarkers marker next :=
  Announces.of_mem (by decide) h

theorem announces_segments {g : FirewallGather} {p : Package}
    {s : Segment firewallPrefix FirewallPart} (hs : s ∈ g.segments p) :
    Announces firewallPrefix firewallMarkers s.marker (some s.part) := by
  refine announces_firewall ?_
  simp only [FirewallGather.segments, List.mem_cons, List.not_mem_nil, or_false] at hs
  rcases hs with rfl | rfl | rfl | rfl | rfl <;>
    simp only [firewallMarkers, List.mem_cons, true_or, or_true]

theorem announces_done :
    Announces firewallPrefix firewallMarkers "__AI_FW_DONE__" (none : Option FirewallPart) := by
  refine announces_firewall ?_
  simp only [firewallMarkers, List.mem_cons, true_or, or_true]

/-- The lines of the output, part by part. -/
def FirewallGather.diverted (g : FirewallGather) (p : Package) : List (FirewallPart × Text) :=
  (g.segments p).flatMap fun s => (cleaned s.report.lines).map fun line => (s.part, line)

theorem divert_output (g : FirewallGather) (p : Package) :
    divert firewallPrefix firewallMarkers none (splitlines (g.output p)) = g.diverted p :=
  divert_gathered (fun _ hs => announces_segments hs) announces_done

/-- What is left of a part besides the configuration does not depend on it. -/
theorem partLines_diverted (g : FirewallGather) (p : Package) (part : FirewallPart) :
    partLines part (g.diverted p) =
      match part with
      | .config => showLines "firewall" p
      | .interfaces => cleaned g.interfaces.lines
      | .status => cleaned g.status.lines
      | .conntrack => cleaned g.conntrack.lines
      | .ipset => cleaned g.ipset.lines := by
  have hconfig : cleaned (firewallReport p).lines = showLines "firewall" p :=
    cleaned_of_stripped fun line hline => strip_showLines validName_firewall hline
  rw [FirewallGather.diverted, partLines_segments]
  cases part <;> simp only [FirewallGather.segments, List.filter_cons, reduceCtorEq, decide_true,
    decide_false, if_true, if_false, Bool.false_eq_true, List.filter_nil, List.flatMap_cons,
    List.flatMap_nil, List.append_nil, hconfig]

/-! ## What is reported -/

/-- The sections with an enabled state, and that state. -/
def FirewallView.reported (v : FirewallView) : List (Text × Bool) :=
  v.zones.map (fun z => (z.sectionId, z.enabled)) ++
    v.rules.map (fun r => (r.sectionId, r.enabled)) ++
    v.portForwards.map (fun r => (r.sectionId, r.enabled)) ++
    v.forwardings.map (fun f => (f.sectionId, f.enabled))

/-- The same, for one entry. -/
def FwEntry.reported : FwEntry → Option (Text × Bool)
  | .zone z => some (z.sectionId, z.enabled)
  | .rule r => some (r.sectionId, r.enabled)
  | .redirect r => some (r.sectionId, r.enabled)
  | .forwarding f => some (f.sectionId, f.enabled)
  | _ => none

theorem mem_reported_iff {lines : List (FirewallPart × Text)} {entries : List FwEntry}
    {count max : Option Int} {item : Text × Bool} :
    item ∈ (firewallView lines entries count max).reported ↔
      ∃ e ∈ entries, e.reported = some item := by
  simp only [FirewallView.reported, firewallView, List.mem_append, List.mem_map,
    List.mem_filterMap]
  constructor
  · rintro (((⟨x, ⟨e, he, hx⟩, hitem⟩ | ⟨x, ⟨e, he, hx⟩, hitem⟩) | ⟨x, ⟨e, he, hx⟩, hitem⟩) |
      ⟨x, ⟨e, he, hx⟩, hitem⟩) <;>
      · cases e <;> cases hx
        exact ⟨_, he, congrArg some hitem⟩
  · rintro ⟨e, he, hitem⟩
    cases e with
    | zone z => exact Or.inl (Or.inl (Or.inl ⟨z, ⟨_, he, rfl⟩, Option.some.inj hitem⟩))
    | rule r => exact Or.inl (Or.inl (Or.inr ⟨r, ⟨_, he, rfl⟩, Option.some.inj hitem⟩))
    | redirect r => exact Or.inl (Or.inr ⟨r, ⟨_, he, rfl⟩, Option.some.inj hitem⟩)
    | forwarding f => exact Or.inr ⟨f, ⟨_, he, rfl⟩, Option.some.inj hitem⟩
    | defaults | nat | «include» | ipset => cases hitem

/-! ## Entries -/

/-- The types of the sections that are reported with an enabled state. -/
def toggledTypes : List Text := ["zone", "rule", "redirect", "forwarding"].map String.toList

/-- The options are those of such a section. -/
def Toggled (opt : FwSection) : Prop := ∃ t ∈ toggledTypes, get? typeKey opt = some (.str t)

theorem toggled_cases {opt : FwSection} (h : Toggled opt) :
    get? typeKey opt = some (.str "zone") ∨ get? typeKey opt = some (.str "rule") ∨
      get? typeKey opt = some (.str "redirect") ∨ get? typeKey opt = some (.str "forwarding") := by
  obtain ⟨t, ht, htype⟩ := h
  simp only [toggledTypes, List.map_cons, List.map_nil, List.mem_cons, List.not_mem_nil,
    or_false] at ht
  rcases ht with rfl | rfl | rfl | rfl
  · exact Or.inl htype
  · exact Or.inr (Or.inl htype)
  · exact Or.inr (Or.inr (Or.inl htype))
  · exact Or.inr (Or.inr (Or.inr htype))

/-- The entry of a section with an enabled state carries its key and that
state. -/
theorem reported_of_toggled {hasIpset : Bool} {key : Text} {opt : FwSection}
    {entry : Option FwEntry} (htoggled : Toggled opt) (he : fwEntry hasIpset key opt = .ok entry) :
    ∃ e state, entry = some e ∧ fwSectionEnabled opt = .ok state ∧
      e.reported = some (key, state) := by
  rcases toggled_cases htoggled with h | h | h | h
  · rw [fwEntry_zone _ _ h] at he
    obtain ⟨enabled, henabled, he⟩ := except_bind_eq_ok.mp he
    obtain ⟨masquerade, _, he⟩ := except_bind_eq_ok.mp he
    obtain ⟨mtuFix, _, he⟩ := except_bind_eq_ok.mp he
    obtain rfl := Except.ok.inj he
    exact ⟨_, enabled, rfl, henabled, rfl⟩
  · rw [fwEntry_rule _ _ h] at he
    obtain ⟨enabled, henabled, he⟩ := except_bind_eq_ok.mp he
    obtain rfl := Except.ok.inj he
    exact ⟨_, enabled, rfl, henabled, rfl⟩
  · rw [fwEntry_redirect _ _ h] at he
    obtain ⟨enabled, henabled, he⟩ := except_bind_eq_ok.mp he
    obtain rfl := Except.ok.inj he
    exact ⟨_, enabled, rfl, henabled, rfl⟩
  · rw [fwEntry_forwarding _ _ h] at he
    obtain ⟨enabled, henabled, he⟩ := except_bind_eq_ok.mp he
    obtain rfl := Except.ok.inj he
    exact ⟨_, enabled, rfl, henabled, rfl⟩

/-- Other sections are not reported. -/
theorem toggled_of_reported {hasIpset : Bool} {key : Text} {opt : FwSection} {e : FwEntry}
    {item : Text × Bool} (he : fwEntry hasIpset key opt = .ok (some e))
    (hreported : e.reported = some item) : Toggled opt := by
  by_contra hnot
  have hother : ∀ t ∈ toggledTypes, get? "_type".toList opt ≠ some (.str t) :=
    fun t ht htype => hnot ⟨t, ht, htype⟩
  have hzone := hother "zone" (by decide)
  have hrule := hother "rule" (by decide)
  have hredirect := hother "redirect" (by decide)
  have hforwarding := hother "forwarding" (by decide)
  simp only [fwEntry, hzone, hrule, hredirect, hforwarding, if_false] at he
  split at he
  · obtain ⟨_, _, he⟩ := except_bind_eq_ok.mp he
    obtain ⟨_, _, he⟩ := except_bind_eq_ok.mp he
    obtain ⟨_, _, he⟩ := except_bind_eq_ok.mp he
    obtain ⟨_, _, he⟩ := except_bind_eq_ok.mp he
    obtain rfl := Option.some.inj (Except.ok.inj he)
    cases hreported
  · split at he
    · obtain ⟨_, _, he⟩ := except_bind_eq_ok.mp he
      obtain rfl := Option.some.inj (Except.ok.inj he)
      cases hreported
    · split at he
      · obtain ⟨_, _, he⟩ := except_bind_eq_ok.mp he
        obtain rfl := Option.some.inj (Except.ok.inj he)
        cases hreported
      · split at he
        · obtain ⟨_, _, he⟩ := except_bind_eq_ok.mp he
          obtain rfl := Option.some.inj (Except.ok.inj he)
          cases hreported
        · cases Except.ok.inj he

/-- Whether a section can be read depends on its enabled state and on options
other than `enabled`. -/
theorem fwEntry_isOk_of_agree {hasIpset : Bool} {key : Text} {opt opt' : FwSection}
    {entry : Option FwEntry} {state : Bool} (htoggled : Toggled opt)
    (hagree : ∀ name, name ≠ "enabled".toList → get? name opt' = get? name opt)
    (he : fwEntry hasIpset key opt = .ok entry) (hstate : fwSectionEnabled opt' = .ok state) :
    ∃ entry', fwEntry hasIpset key opt' = .ok entry' := by
  have htype : get? typeKey opt' = get? typeKey opt := hagree typeKey (by decide)
  rcases toggled_cases htoggled with h | h | h | h
  · rw [fwEntry_zone _ _ h] at he
    obtain ⟨enabled, henabled, he⟩ := except_bind_eq_ok.mp he
    obtain ⟨masquerade, hmasquerade, he⟩ := except_bind_eq_ok.mp he
    obtain ⟨mtuFix, hmtuFix, he⟩ := except_bind_eq_ok.mp he
    rw [fwEntry_zone _ _ (htype.trans h), hagree "masq".toList (by decide),
      hagree "mtu_fix".toList (by decide), hmasquerade, hmtuFix, hstate]
    exact ⟨_, rfl⟩
  · rw [fwEntry_rule _ _ (htype.trans h), hstate]
    exact ⟨_, rfl⟩
  · rw [fwEntry_redirect _ _ (htype.trans h), hstate]
    exact ⟨_, rfl⟩
  · rw [fwEntry_forwarding _ _ (htype.trans h), hstate]
    exact ⟨_, rfl⟩

/-! ## The view over a configuration -/

def FirewallGather.hasIpset (g : FirewallGather) : Bool := !(cleaned g.ipset.lines).isEmpty

/-- What the view needs to be read: every section and both counters. -/
theorem firewall_ok_iff {w : WordClass} {g : FirewallGather} {p : Package} {v : FirewallView} :
    firewall w (g.output p) = .ok v ↔
      ∃ entries count max,
        fwEntriesOf g.hasIpset ((fwReader w).items p.sections) = .ok entries ∧
          countOf (lastAssignment "count" (cleaned g.conntrack.lines)) = .ok count ∧
          countOf (lastAssignment "max" (cleaned g.conntrack.lines)) = .ok max ∧
          v = firewallView (g.diverted p) entries count max := by
  have hdivert : divert "__AI_FW_" firewallMarkers none (splitlines (g.output p)) =
      g.diverted p := divert_output g p
  have hread : (fwReader w).read (showLines "firewall" p) = (fwReader w).items p.sections :=
    read_showLines (fwReader w) p
  have hview : firewall w (g.output p) = (do
      let entries ← fwEntriesOf g.hasIpset ((fwReader w).items p.sections)
      let count ← countOf (lastAssignment "count" (cleaned g.conntrack.lines))
      let max ← countOf (lastAssignment "max" (cleaned g.conntrack.lines))
      return firewallView (g.diverted p) entries count max) := by
    rw [firewall, hdivert]
    simp only [partLines_diverted]
    rw [hread]
    rfl
  rw [hview]
  constructor
  · intro h
    obtain ⟨entries, hentries, h⟩ := except_bind_eq_ok.mp h
    obtain ⟨count, hcount, h⟩ := except_bind_eq_ok.mp h
    obtain ⟨max, hmax, h⟩ := except_bind_eq_ok.mp h
    exact ⟨entries, count, max, hentries, hcount, hmax, (Except.ok.inj h).symm⟩
  · rintro ⟨entries, count, max, hentries, hcount, hmax, rfl⟩
    rw [hentries, hcount, hmax]
    rfl

/-- The reported states are those of the toggled sections. -/
theorem mem_firewall_reported_iff {w : WordClass} {g : FirewallGather} {p : Package}
    {v : FirewallView} (hview : firewall w (g.output p) = .ok v) {key : Text} {state : Bool} :
    (key, state) ∈ v.reported ↔
      ∃ s ∈ p.sections, s.key = key ∧ ∃ opt, (fwReader w).fields s = some opt ∧ Toggled opt ∧
        fwSectionEnabled opt = .ok state := by
  obtain ⟨entries, count, max, hentries, _, _, rfl⟩ := firewall_ok_iff.mp hview
  rw [mem_reported_iff]
  constructor
  · rintro ⟨e, he, hreported⟩
    obtain ⟨⟨k, opt⟩, hitem, hentry⟩ := (mem_collect hentries e).mp he
    obtain ⟨s, hs, hkey, hfields⟩ := mem_items_iff.mp hitem
    have htoggled := toggled_of_reported hentry hreported
    obtain ⟨e', state', he', hstate, hreported'⟩ := reported_of_toggled htoggled hentry
    obtain rfl := Option.some.inj he'
    obtain ⟨rfl, rfl⟩ := Prod.mk.inj (Option.some.inj (hreported.symm.trans hreported'))
    exact ⟨s, hs, hkey, opt, hfields, htoggled, hstate⟩
  · rintro ⟨s, hs, hkey, opt, hfields, htoggled, hstate⟩
    have hitem := mem_items_iff.mpr ⟨s, hs, hkey, hfields⟩
    obtain ⟨entry, hentry⟩ := collect_isOk_iff.mp ⟨entries, hentries⟩ _ hitem
    obtain ⟨e, state', rfl, hstate', hreported⟩ := reported_of_toggled htoggled hentry
    obtain rfl := Except.ok.inj (hstate.symm.trans hstate')
    exact ⟨e, (mem_collect hentries e).mpr ⟨_, hitem, hentry⟩, hreported⟩

/-! ## Toggling -/

/-- What a toggle command writes. -/
def enabledOption (b : Bool) : UciOption where
  name := "enabled"
  values := [flag b]
  validName := by decide
  nonempty := List.cons_ne_nil _ _
  singleLine := by cases b <;> decide

theorem get?_fields {w : WordClass} {s : UciSection} {opt : FwSection}
    (hfields : (fwReader w).fields s = some opt) (name : Text) :
    get? name opt = (fwReader w).lookup s name := by
  rw [Reader.lookup, hfields, Option.bind_some]

/-- Under a name other than `_type` stands what the option pattern captured. -/
theorem get?_fields_of_ne {w : WordClass} {s : UciSection} {opt : FwSection}
    (hfields : (fwReader w).fields s = some opt) {name : Text} (h : name ≠ typeKey) :
    get? name opt = ((fwReader w).visible s name).map FwValue.str := by
  rw [get?_fields hfields, lookup_eq, initial_of_ne _ _ h]
  cases (fwReader w).visible s name <;> rfl

theorem visible_enabledOption (w : WordClass) (s : UciSection) (b : Bool) :
    (fwReader w).visible (s.setOption (enabledOption b)) "enabled" = some (flag b) := by
  rw [visible_eq_some_iff fun _ => rfl]
  refine ⟨values_setOption_self s (enabledOption b), ?_⟩
  cases b <;> decide

theorem visible_setOption_of_ne (w : WordClass) (s : UciSection) (b : Bool) {name : Text}
    (h : name ≠ "enabled".toList) :
    (fwReader w).visible (s.setOption (enabledOption b)) name = (fwReader w).visible s name := by
  rw [LinePatterns.visible, values_setOption_of_ne s h, LinePatterns.visible]

/-- A toggled section is noticed. -/
theorem fields_toggled (w : WordClass) (s : UciSection) (b : Bool) :
    ∃ opt, (fwReader w).fields (s.setOption (enabledOption b)) = some opt := by
  have hlookup : (fwReader w).lookup (s.setOption (enabledOption b)) "enabled" =
      some (.str (flag b)) := by
    rw [lookup_eq, visible_enabledOption, initial_of_ne _ _ (by decide)]
    rfl
  cases hfields : (fwReader w).fields (s.setOption (enabledOption b)) with
  | none =>
    rw [Reader.lookup, hfields] at hlookup
    cases hlookup
  | some opt => exact ⟨opt, rfl⟩

/-- The state of a section that has just been toggled: a `disabled` option that
is seen decides. -/
def stateAfter (w : WordClass) (s : UciSection) (b : Bool) : Bool :=
  match (fwReader w).visible s "disabled" with
  | some d => !(d ≠ [] && isTrueWord d)
  | none => b

theorem fwSectionEnabled_toggled {w : WordClass} {s : UciSection} {b : Bool} {opt : FwSection}
    (hfields : (fwReader w).fields (s.setOption (enabledOption b)) = some opt) :
    fwSectionEnabled opt = .ok (stateAfter w s b) := by
  have hdisabled : get? "disabled".toList opt =
      ((fwReader w).visible s "disabled").map FwValue.str := by
    rw [get?_fields_of_ne hfields (by decide), visible_setOption_of_ne w s b (by decide)]
  have henabled : get? "enabled".toList opt = some (.str (flag b)) := by
    rw [get?_fields_of_ne hfields (by decide), visible_enabledOption, Option.map_some]
  unfold fwSectionEnabled stateAfter
  rw [hdisabled, henabled]
  cases (fwReader w).visible s "disabled" with
  | some d => rfl
  | none => cases b <;> decide

/-- After a toggle the view is read as before, and shows the section in its new
state. -/
theorem firewall_toggled {w : WordClass} {g : FirewallGather} {p : Package} {v : FirewallView}
    {s : UciSection} {opt : FwSection} (hs : s ∈ p.sections)
    (hfields : (fwReader w).fields s = some opt) (htoggled : Toggled opt)
    (hview : firewall w (g.output p) = .ok v) (b : Bool) :
    ∃ v', firewall w (g.output (p.setOption s.key (enabledOption b))) = .ok v' ∧
      ∀ state, (s.key, state) ∈ v'.reported ↔ state = stateAfter w s b := by
  obtain ⟨entries, count, max, hentries, hcount, hmax, _⟩ := firewall_ok_iff.mp hview
  obtain ⟨opt', hfields'⟩ := fields_toggled w s b
  have hstate := fwSectionEnabled_toggled hfields'
  have hagree : ∀ name, name ≠ "enabled".toList → get? name opt' = get? name opt := by
    intro name hname
    rw [get?_fields hfields', get?_fields hfields, lookup_setOption_of_ne _ _ hname]
  have htoggled' : Toggled opt' := by
    obtain ⟨t, ht, htype⟩ := htoggled
    exact ⟨t, ht, (hagree typeKey (by decide)).trans htype⟩
  have hread := collect_isOk_iff.mp ⟨entries, hentries⟩
  have hread' : ∀ item ∈ (fwReader w).items (p.setOption s.key (enabledOption b)).sections,
      ∃ entry, fwEntry g.hasIpset item.1 item.2 = .ok entry := by
    intro ⟨key, fields⟩ hitem
    obtain ⟨t, ht, hkey, htfields⟩ := mem_items_iff.mp hitem
    obtain ⟨t', ht', rfl⟩ := mem_setOption_iff.mp ht
    by_cases hsame : t'.key = s.key
    · obtain rfl := section_unique ht' hs hsame
      rw [if_pos rfl] at htfields
      obtain rfl := Option.some.inj (hfields'.symm.trans htfields)
      rw [if_pos rfl, key_setOption] at hkey
      obtain ⟨entry, hentry⟩ := hread _ (mem_items_iff.mpr ⟨t', hs, hkey, hfields⟩)
      exact fwEntry_isOk_of_agree htoggled hagree hentry hstate
    · rw [if_neg hsame] at hkey htfields
      exact hread _ (mem_items_iff.mpr ⟨t', ht', hkey, htfields⟩)
  obtain ⟨entries', hentries'⟩ := collect_isOk_iff.mpr hread'
  have hview' := firewall_ok_iff.mpr ⟨entries', count, max, hentries', hcount, hmax, rfl⟩
  refine ⟨_, hview', fun state => ?_⟩
  have hmem : s.setOption (enabledOption b) ∈
      (p.setOption s.key (enabledOption b)).sections :=
    mem_setOption_iff.mpr ⟨s, hs, (if_pos rfl).symm⟩
  rw [mem_firewall_reported_iff hview']
  constructor
  · rintro ⟨t, ht, hkey, topt, htfields, _, htstate⟩
    obtain rfl := section_unique ht hmem (hkey.trans (key_setOption s _).symm)
    exact Except.ok.inj (htstate.symm.trans (fwSectionEnabled_toggled htfields))
  · rintro rfl
    exact ⟨_, hmem, key_setOption s _, opt', hfields', htoggled', hstate⟩

/-- The toggle operations accept the identifier, and whatever the view could be
read from, it can be read from after a toggle and shows the new state. -/
structure RoundTrips (w : WordClass) (p : Package) (key : Text) : Prop where
  accepted : ∀ b,
    (∃ describe, toggleFirewallRule key b =
      .ok (.send (firewallToggleCommand key b) 90 describe)) ∧
    ∃ describe, firewallSetSectionEnabled key b =
      .ok (.send (firewallToggleCommand key b) 90 describe)
  shown : ∀ (b : Bool) (g : FirewallGather) (v : FirewallView),
    firewall w (g.output p) = .ok v →
      ∃ v', firewall w (g.output (p.setOption key (enabledOption b))) = .ok v' ∧
        ∀ state, (key, state) ∈ v'.reported ↔ state = b

/-- The key of a section is accepted exactly when the section is named. -/
theorem sectionPattern_key_iff (s : UciSection) :
    sectionPattern s.key = true ↔ ∃ name, s.ref = .named name := by
  have hlast : s.key.getLast? ≠ some '\n' := by
    intro hnewline
    obtain ⟨⟨hlo, _⟩, _⟩ := key_chars s (List.mem_of_getLast? hnewline)
    exact absurd hlo (by decide)
  rw [sectionPattern, matchClass_eq_fullmatchClass hlast, fullmatchClass_iff]
  cases href : s.ref with
  | named name =>
    have hvalid := s.validRef
    rw [href] at hvalid
    have hkey : s.key = name := by rw [UciSection.key, href]
    refine ⟨fun _ => ⟨name, rfl⟩, fun _ => ⟨?_, fun c hc => ?_⟩⟩
    · have hlength : 1 ≤ s.key.length := List.length_pos_iff.mpr (key_ne_nil s)
      simp [oneOrMore, Repeat.allows, hlength]
    · rw [hkey] at hc
      have hname := hvalid.2 c hc
      rw [isNameChar, Bool.or_eq_true, beq_iff_eq] at hname
      rcases hname with halnum | rfl
      · rw [alnumOr, halnum, Bool.true_or]
      · decide
  | anonymous index =>
    have hbracket : '[' ∈ s.key := by
      rw [UciSection.key, href]
      simp
    refine ⟨fun h => absurd (h.2 '[' hbracket) (by decide), ?_⟩
    rintro ⟨name, hname⟩
    cases hname

theorem RoundTrips.named {w : WordClass} {p : Package} {s : UciSection}
    (h : RoundTrips w p s.key) : ∃ name, s.ref = .named name := by
  obtain ⟨_, hplan⟩ := (h.accepted true).1
  rw [← sectionPattern_key_iff]
  by_contra hnot
  rw [toggleFirewallRule, sectionChange, if_neg hnot] at hplan
  cases hplan

def quietGather : FirewallGather := ⟨.empty _, .empty _, .empty _, .empty _⟩

/-- A rule without options. -/
def plainRule (ref : Ref) (validRef : ref.Valid) : UciSection :=
  emptySection ref "rule" validRef (by decide)

def oneRule (ref : Ref) (validRef : ref.Valid) : Package :=
  ⟨[plainRule ref validRef], List.nodup_singleton _⟩

/-- A package of one rule without options is reported with that rule enabled. -/
theorem oneRule_reported (ref : Ref) (validRef : ref.Valid) :
    ∃ v, firewall asciiWords (quietGather.output (oneRule ref validRef)) = .ok v ∧
      ((plainRule ref validRef).key, true) ∈ v.reported := by
  have hfields : (fwReader asciiWords).fields (plainRule ref validRef) =
      some [(typeKey, .str "rule")] := by
    show (fwReader asciiWords).start (plainRule ref validRef) = _
    exact if_pos (by rfl : "rule".toList.all asciiWords.isWord = true)
  have htype : get? typeKey [(typeKey, FwValue.str "rule")] = some (.str "rule") := by
    decide
  have hstate : fwSectionEnabled [(typeKey, .str "rule")] = .ok true := by rfl
  have hitems : (fwReader asciiWords).items (oneRule ref validRef).sections =
      [((plainRule ref validRef).key, [(typeKey, .str "rule")])] := by
    rw [Reader.items, oneRule, List.filterMap_cons, hfields]
    rfl
  obtain ⟨entries, hentries⟩ : ∃ entries, fwEntriesOf quietGather.hasIpset
      ((fwReader asciiWords).items (oneRule ref validRef).sections) = .ok entries := by
    rw [hitems, collect_isOk_iff]
    intro item hitem
    obtain rfl := List.mem_singleton.mp hitem
    rw [fwEntry_rule _ _ htype, hstate]
    exact ⟨_, rfl⟩
  have hview := firewall_ok_iff.mpr ⟨entries, none, none, hentries, rfl, rfl, rfl⟩
  exact ⟨_, hview, (mem_firewall_reported_iff hview).mpr
    ⟨_, List.mem_singleton_self _, rfl, _, hfields, ⟨_, by decide +kernel, htype⟩, hstate⟩⟩

end OpenWrtCopilot.Ports.Management
