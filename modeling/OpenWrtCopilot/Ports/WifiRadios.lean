import OpenWrtCopilot.Ports.ClientVerdicts
import OpenWrtCopilot.Ports.RouterAgentWifi
import OpenWrtCopilot.Verified.PySplit
import OpenWrtCopilot.Verified.PySub

/-!
# Radios without the live view

Ports `_matching_live_ifaces` and `WifiCollector._radios_from_uci`, which report the radios of a
router where `ubus call wifi status` has nothing: one for each configured section, and one for
each phy of a live interface that is not claimed by a section.

`str.lower` is a parameter.

## Main results

* `radiosFromUci_eq` — the reported radios, and which phys are reported beside the sections.
* `exactlyOnce_iff` — when each physical radio is reported once.
* `down_radio_twice` — a radio that is down and is reported twice.
-/

namespace OpenWrtCopilot.Ports.WifiRadios

open Verified
open Verified.PyDict (Dict get? keys)
open Verified.PyText
open Ports.ClientMedia (truthy)
open Ports.RouterAgent (WifiSection)

/-! ## Values -/

/-- `_band`. -/
def band (lower : Text → Text) (hwmode : Option Text) (frequency : Option Int) : Option Text :=
  match frequency with
  | some frequency => some (if 5000 ≤ frequency then "5GHz".toList else "2.4GHz".toList)
  | none =>
      (truthy hwmode).bind fun hwmode =>
        let mode := lower hwmode
        if "a".toList <:+: mode then some "5GHz".toList
        else if "b".toList <:+: mode ∨ "g".toList <:+: mode then some "2.4GHz".toList
        else if "ax".toList <:+: mode ∨ "ac".toList <:+: mode then some "unknown".toList
        else none

/-- `value.replace("ghz", "")`. -/
def withoutUnit (value : Text) : Text :=
  PySub.sub (fun rest => if startsWith "ghz".toList rest then some ([], 3) else none) 0 value

/-- `_band_from_uci`. -/
def bandFromUci (lower : Text → Text) (band : Option Text) : Option Text :=
  (truthy band).bind fun band =>
    let value := withoutUnit (lower band)
    if ["5g", "5ghz", "a", "ac", "ax"].any fun t => value = t.toList then some "5GHz".toList
    else if ["2g", "2.4g", "2.4ghz", "b", "g", "n"].any fun t => value = t.toList then
      some "2.4GHz".toList
    else if ["6g", "6ghz"].any fun t => value = t.toList then some "6GHz".toList
    else none

/-- `_WIDTH.search`, as a number. -/
def searchWidth : Text → Option Int
  | [] => none
  | c :: rest =>
      ([("20", 20), ("40", 40), ("80", 80), ("160", 160), ("320", 320)].findSome? fun width =>
        if startsWith width.1.toList (c :: rest) then some width.2 else none).or
          (searchWidth rest)

/-- `_width_mhz`. -/
def widthMhz (lower : Text → Text) (htmode hwmode : Option Text) : Option Int :=
  match truthy htmode with
  | some htmode => searchWidth htmode
  | none =>
      (truthy hwmode).bind fun hwmode =>
        if "n".toList <:+: lower hwmode then some 20 else none

/-! ## Matching -/

/-- What `_live_wireless_ifaces` finds of an interface. -/
structure LiveInfo where
  phy : Text
  up : Bool
  stations : Nat
  device : Option Text

/-- `_device_phy_name`. -/
def devicePhyName (device : WifiSection) : Option Text := truthy (get? "name".toList device)

/-- `_paths_match`. -/
def pathsMatch (devicePath uciPath : Option Text) : Bool :=
  match truthy devicePath, truthy uciPath with
  | some devicePath, some uciPath =>
      let uciPath := if startsWith ['/'] uciPath then uciPath else "/sys/devices/".toList ++ uciPath
      PySplit.rstripOf ['/'] devicePath = PySplit.rstripOf ['/'] uciPath
  | _, _ => false

/-- `legacy_ifnames`. -/
def legacyIfnames (sectionKey : Text) (ifaces : List WifiSection) : List Text :=
  ifaces.filterMap fun iface =>
    if get? "device".toList iface = some sectionKey then truthy (get? "ifname".toList iface)
    else none

/-- A live interface belongs to the section, by one of three signs. -/
def belongs (device : WifiSection) (sectionKey : Text) (ifaces : List WifiSection)
    (item : Text × LiveInfo) : Bool :=
  (item.2.phy ≠ [] && devicePhyName device = some item.2.phy) ||
    (legacyIfnames sectionKey ifaces).contains item.1 ||
    pathsMatch item.2.device (get? "path".toList device)

/-- `_matching_live_ifaces`. -/
def matchingLiveIfaces (live : Dict Text LiveInfo) (device : WifiSection) (sectionKey : Text)
    (ifaces : List WifiSection) : Dict Text LiveInfo :=
  live.filter (belongs device sectionKey ifaces)

/-! ## Radios -/

structure WifiRadio where
  name : Text
  up : Bool := false
  mode : Option Text := none
  band : Option Text := none
  channel : Option Int := none
  frequencyMhz : Option Int := none
  txPower : Option Int := none
  ssid : Option Text := none
  hwmode : Option Text := none
  widthMhz : Option Int := none
  stationCount : Nat := 0
  country : Option Text := none
  hardware : Option Text := none

/-- The radio of a configured section. -/
def sectionRadio (lower : Text → Text) (ifaces : List WifiSection) (live : Dict Text LiveInfo)
    (item : Text × WifiSection) : WifiRadio :=
  let device := item.2
  let matched := matchingLiveIfaces live device item.1 ifaces
  let hwmode := get? "hwmode".toList device
  { name := item.1
    up := matched.any (·.2.up)
    band := (band lower hwmode none).or (bandFromUci lower (get? "band".toList device))
    channel := (get? "channel".toList device).bind pyInt
    txPower := (get? "txpower".toList device).bind pyInt
    ssid := ifaces.findSome? fun iface =>
      if get? "device".toList iface = some item.1 then truthy (get? "ssid".toList iface) else none
    hwmode := hwmode
    widthMhz := widthMhz lower (get? "htmode".toList device) hwmode
    stationCount := (matched.map (·.2.stations)).sum
    country := get? "country".toList device
    hardware := get? "path".toList device }

/-- The phy that a section claims: that of its first interface, if one of them is up. -/
def claimedPhy (ifaces : List WifiSection) (live : Dict Text LiveInfo)
    (item : Text × WifiSection) : Option Text :=
  let matched := matchingLiveIfaces live item.2 item.1 ifaces
  if matched.any (·.2.up) then truthy (matched.head?.map (·.2.phy)) else none

/-- `result` and `claimed_phys`. -/
structure Progress where
  result : List WifiRadio := []
  claimedPhys : List Text := []

/-- A configured section. -/
def addSection (lower : Text → Text) (ifaces : List WifiSection) (live : Dict Text LiveInfo)
    (emitted : List Text) (p : Progress) (item : Text × WifiSection) : Progress :=
  if emitted.contains item.1 then p
  else
    { result := p.result ++ [sectionRadio lower ifaces live item]
      claimedPhys := p.claimedPhys ++ (claimedPhy ifaces live item).toList }

/-- A live interface. -/
def addLive (emitted : List Text) (p : Progress) (item : Text × LiveInfo) : Progress :=
  let phy := item.2.phy
  if phy = [] ∨ phy ∈ p.claimedPhys then p
  else if emitted.contains phy then p
  else
    { result := p.result ++ [{ name := phy, up := item.2.up, stationCount := item.2.stations }]
      claimedPhys := p.claimedPhys ++ [phy] }

/-- `_radios_from_uci`. -/
def radiosFromUci (lower : Text → Text) (devices : Dict Text WifiSection)
    (ifaces : List WifiSection) (live : Dict Text LiveInfo) (emitted : List Text) :
    List WifiRadio :=
  (live.foldl (addLive emitted) (devices.foldl (addSection lower ifaces live emitted) {})).result

/-! ## The two loops -/

theorem foldl_addSection (lower : Text → Text) (ifaces : List WifiSection)
    (live : Dict Text LiveInfo) (devices : Dict Text WifiSection) (p : Progress) :
    devices.foldl (addSection lower ifaces live []) p =
      { result := p.result ++ devices.map (sectionRadio lower ifaces live)
        claimedPhys := p.claimedPhys ++ devices.filterMap (claimedPhy ifaces live) } := by
  induction devices generalizing p with
  | nil => rw [List.map_nil, List.filterMap_nil, List.append_nil, List.append_nil]; rfl
  | cons item devices ih =>
    have hstep : addSection lower ifaces live [] p item =
        { result := p.result ++ [sectionRadio lower ifaces live item]
          claimedPhys := p.claimedPhys ++ (claimedPhy ifaces live item).toList } :=
      if_neg Bool.false_ne_true
    rw [List.foldl_cons, hstep, ih, List.map_cons, List.append_assoc, List.append_assoc]
    cases hclaimed : claimedPhy ifaces live item with
    | none => rw [List.filterMap_cons_none hclaimed]; rfl
    | some phy => rw [List.filterMap_cons_some hclaimed]; rfl

/-- The phys that the second loop reports. -/
structure Added (p after : Progress) (live : Dict Text LiveInfo) (added : List WifiRadio) : Prop
    where
  result : after.result = p.result ++ added
  nodup : (added.map (·.name)).Nodup
  mem_iff : ∀ phy, phy ∈ added.map (·.name) ↔
    phy ≠ [] ∧ (∃ item ∈ live, item.2.phy = phy) ∧ phy ∉ p.claimedPhys

theorem foldl_addLive (live : Dict Text LiveInfo) (p : Progress) :
    ∃ added, Added p (live.foldl (addLive []) p) live added := by
  induction live generalizing p with
  | nil =>
    refine ⟨[], (List.append_nil _).symm, List.nodup_nil, fun phy => ?_⟩
    exact ⟨nofun, fun h => by obtain ⟨_, ⟨item, hitem, _⟩, _⟩ := h; cases hitem⟩
  | cons item live ih =>
    rw [List.foldl_cons]
    by_cases hskip : item.2.phy = [] ∨ item.2.phy ∈ p.claimedPhys
    · have hstep : addLive [] p item = p := if_pos hskip
      rw [hstep]
      obtain ⟨added, h⟩ := ih p
      refine ⟨added, h.result, h.nodup, fun phy => ?_⟩
      rw [h.mem_iff]
      constructor
      · rintro ⟨hne, ⟨other, hother, hphy⟩, hfresh⟩
        exact ⟨hne, ⟨other, List.mem_cons_of_mem _ hother, hphy⟩, hfresh⟩
      · rintro ⟨hne, ⟨other, hother, hphy⟩, hfresh⟩
        refine ⟨hne, ?_, hfresh⟩
        rcases List.mem_cons.mp hother with rfl | hother
        · rw [hphy] at hskip
          exact absurd hskip (not_or.mpr ⟨hne, hfresh⟩)
        · exact ⟨other, hother, hphy⟩
    · let radio : WifiRadio :=
        { name := item.2.phy, up := item.2.up, stationCount := item.2.stations }
      have hstep : addLive [] p item =
          { result := p.result ++ [radio], claimedPhys := p.claimedPhys ++ [item.2.phy] } :=
        (if_neg hskip).trans (if_neg Bool.false_ne_true)
      rw [hstep]
      obtain ⟨added, h⟩ := ih { result := p.result ++ [radio],
                                claimedPhys := p.claimedPhys ++ [item.2.phy] }
      have hmem := h.mem_iff
      simp only [List.mem_append, List.mem_singleton, not_or] at hmem
      rw [not_or] at hskip
      refine ⟨radio :: added, ?_, ?_, fun phy => ?_⟩
      · rw [h.result, List.append_assoc]
        rfl
      · rw [List.map_cons, List.nodup_cons]
        exact ⟨fun hin => ((hmem _).mp hin).2.2.2 rfl, h.nodup⟩
      · rw [List.map_cons, List.mem_cons, hmem]
        constructor
        · rintro (rfl | ⟨hne, ⟨other, hother, hphy⟩, hfresh, _⟩)
          · exact ⟨hskip.1, ⟨item, List.mem_cons_self, rfl⟩, hskip.2⟩
          · exact ⟨hne, ⟨other, List.mem_cons_of_mem _ hother, hphy⟩, hfresh⟩
        · rintro ⟨hne, ⟨other, hother, hphy⟩, hfresh⟩
          by_cases hsame : phy = item.2.phy
          · exact Or.inl hsame
          · rcases List.mem_cons.mp hother with rfl | hother
            · exact absurd hphy.symm hsame
            · exact Or.inr ⟨hne, ⟨other, hother, hphy⟩, hfresh, hsame⟩

/-- **The reported radios: the sections, and the phys that no section claims.** -/
theorem radiosFromUci_eq (lower : Text → Text) (devices : Dict Text WifiSection)
    (ifaces : List WifiSection) (live : Dict Text LiveInfo) :
    ∃ added : List WifiRadio,
      radiosFromUci lower devices ifaces live [] =
        devices.map (sectionRadio lower ifaces live) ++ added ∧
      (added.map (·.name)).Nodup ∧
      ∀ phy, phy ∈ added.map (·.name) ↔ phy ≠ [] ∧ (∃ item ∈ live, item.2.phy = phy) ∧
        ∀ item ∈ devices, claimedPhy ifaces live item ≠ some phy := by
  have hsections := foldl_addSection lower ifaces live devices {}
  rw [List.nil_append, List.nil_append] at hsections
  obtain ⟨added, h⟩ := foldl_addLive live
    { result := devices.map (sectionRadio lower ifaces live)
      claimedPhys := devices.filterMap (claimedPhy ifaces live) }
  refine ⟨added, ?_, h.nodup, fun phy => ?_⟩
  · rw [radiosFromUci, hsections, h.result]
  · rw [h.mem_iff]
    simp only [List.mem_filterMap, not_exists, not_and, ne_eq]

/-! ## Physical radios -/

/-- A phy that some interface is on. -/
def Live (live : Dict Text LiveInfo) (phy : Text) : Prop :=
  phy ≠ [] ∧ ∃ item ∈ live, item.2.phy = phy

/-- The phys of the interfaces that belong to a section. -/
def sectionPhys (ifaces : List WifiSection) (live : Dict Text LiveInfo)
    (item : Text × WifiSection) : List Text :=
  ((matchingLiveIfaces live item.2 item.1 ifaces).map (·.2.phy)).filter (· ≠ [])

/-- The physical radios that the reported radios stand for: those of the sections come first. -/
def standsFor (lower : Text → Text) (devices : Dict Text WifiSection) (ifaces : List WifiSection)
    (live : Dict Text LiveInfo) : List (List Text) :=
  devices.map (sectionPhys ifaces live) ++
    ((radiosFromUci lower devices ifaces live []).drop devices.length).map fun radio =>
      [radio.name]

/-- Each section and each physical radio is reported once. -/
structure ExactlyOnce (lower : Text → Text) (devices : Dict Text WifiSection)
    (ifaces : List WifiSection) (live : Dict Text LiveInfo) : Prop where
  /-- The radios are the sections, and the live phys of which no interface belongs to one. -/
  exact : ∃ phys : List Text,
    (radiosFromUci lower devices ifaces live []).map (·.name) = keys devices ++ phys ∧
      phys.Nodup ∧
      ∀ phy, phy ∈ phys ↔ Live live phy ∧ ∀ item ∈ devices, phy ∉ sectionPhys ifaces live item
  /-- No two reported radios are the same physical one. -/
  once : (standsFor lower devices ifaces live).Pairwise List.Disjoint

/-- The condition on the configuration and the interfaces. -/
structure Apart (devices : Dict Text WifiSection) (ifaces : List WifiSection)
    (live : Dict Text LiveInfo) : Prop where
  /-- A section with a phy claims it: it is up, and all its interfaces have the phy of the first. -/
  claims : ∀ item ∈ devices, ∀ phy ∈ sectionPhys ifaces live item,
    claimedPhy ifaces live item = some phy
  /-- No two sections have a phy in common. -/
  disjoint : (devices.map (sectionPhys ifaces live)).Pairwise List.Disjoint

theorem mem_sectionPhys {ifaces : List WifiSection} {live : Dict Text LiveInfo}
    {item : Text × WifiSection} {phy : Text} :
    phy ∈ sectionPhys ifaces live item ↔
      phy ≠ [] ∧ ∃ other ∈ matchingLiveIfaces live item.2 item.1 ifaces, other.2.phy = phy := by
  rw [sectionPhys, List.mem_filter, decide_eq_true_iff, List.mem_map, and_comm]

/-- What a section claims is one of its phys. -/
theorem mem_sectionPhys_of_claimed {ifaces : List WifiSection} {live : Dict Text LiveInfo}
    {item : Text × WifiSection} {phy : Text} (h : claimedPhy ifaces live item = some phy) :
    phy ∈ sectionPhys ifaces live item := by
  rw [claimedPhy] at h
  split at h
  · obtain ⟨hhead, hne⟩ := ClientMedia.truthy_eq_some_iff.mp h
    obtain ⟨other, hother, hphy⟩ := Option.map_eq_some_iff.mp hhead
    exact mem_sectionPhys.mpr ⟨hne, other, List.mem_of_head? hother, hphy⟩
  · cases h

theorem live_of_mem_sectionPhys {ifaces : List WifiSection} {live : Dict Text LiveInfo}
    {item : Text × WifiSection} {phy : Text} (h : phy ∈ sectionPhys ifaces live item) :
    Live live phy := by
  obtain ⟨hne, other, hother, hphy⟩ := mem_sectionPhys.mp h
  exact ⟨hne, other, List.mem_of_mem_filter hother, hphy⟩

/-- **When each physical radio is reported once.** -/
theorem exactlyOnce_iff (lower : Text → Text) (devices : Dict Text WifiSection)
    (ifaces : List WifiSection) (live : Dict Text LiveInfo) :
    ExactlyOnce lower devices ifaces live ↔ Apart devices ifaces live := by
  obtain ⟨added, hradios, hnodup, hadded⟩ := radiosFromUci_eq lower devices ifaces live
  have hnames : (radiosFromUci lower devices ifaces live []).map (·.name) =
      keys devices ++ added.map (·.name) := by
    rw [hradios, List.map_append, List.map_map]
    rfl
  have hstands : standsFor lower devices ifaces live =
      devices.map (sectionPhys ifaces live) ++ added.map fun radio => [radio.name] := by
    rw [standsFor, hradios, List.drop_left' (List.length_map _)]
  constructor
  · intro h
    have hdisjoint : (devices.map (sectionPhys ifaces live)).Pairwise List.Disjoint := by
      have honce := h.once
      rw [hstands, List.pairwise_append] at honce
      exact honce.1
    refine ⟨fun item hitem phy hphy => ?_, hdisjoint⟩
    obtain ⟨phys, hexact, -, hphys⟩ := h.exact
    have hsame : added.map (·.name) = phys :=
      List.append_cancel_left (hnames.symm.trans hexact)
    -- The phy is not reported beside the sections, so that one of them claims it.
    have hnot : phy ∉ added.map (·.name) := fun hmem =>
      ((hphys phy).mp (hsame ▸ hmem)).2 item hitem hphy
    have hlive := live_of_mem_sectionPhys hphy
    rw [hadded] at hnot
    simp only [not_and, not_forall, not_not] at hnot
    obtain ⟨other, hother, hclaimed⟩ := hnot hlive.1 hlive.2
    by_cases hself : other = item
    · rw [← hself]
      exact hclaimed
    · have hsymm : Std.Symm fun a b =>
          List.Disjoint (sectionPhys ifaces live a) (sectionPhys ifaces live b) :=
        ⟨fun _ _ h _ hleft hright => h hright hleft⟩
      have happart := (List.pairwise_map.mp hdisjoint).forall hother hitem hself
      exact absurd hphy (happart (mem_sectionPhys_of_claimed hclaimed))
  · intro h
    have hmem : ∀ phy, phy ∈ added.map (·.name) ↔
        Live live phy ∧ ∀ item ∈ devices, phy ∉ sectionPhys ifaces live item := by
      intro phy
      rw [hadded, Live, and_assoc]
      refine and_congr_right fun _ => and_congr_right fun _ => forall₂_congr fun item hitem => ?_
      exact not_congr ⟨mem_sectionPhys_of_claimed, h.claims item hitem phy⟩
    refine ⟨⟨_, hnames, hnodup, hmem⟩, ?_⟩
    rw [hstands, List.pairwise_append]
    refine ⟨h.disjoint, ?_, ?_⟩
    · rw [List.pairwise_map]
      refine (List.pairwise_map.mp hnodup).imp fun hne => ?_
      rwa [List.disjoint_singleton, List.mem_singleton, eq_comm]
    · intro phys hphys single hsingle
      obtain ⟨item, hitem, rfl⟩ := List.mem_map.mp hphys
      obtain ⟨radio, hradio, rfl⟩ := List.mem_map.mp hsingle
      rw [List.disjoint_singleton]
      exact ((hmem radio.name).mp (List.mem_map_of_mem hradio)).2 item hitem

/-- The section of a radio that is down, and its phy, are reported as two radios. -/
theorem down_radio_twice :
    ¬ExactlyOnce id [("radio0".toList, [("name".toList, "phy0".toList)])] []
      [("wlan0".toList,
        { phy := "phy0".toList, up := false, stations := 0, device := none })] := by
  intro h
  have hstands : standsFor id [("radio0".toList, [("name".toList, "phy0".toList)])] []
      [("wlan0".toList,
        { phy := "phy0".toList, up := false, stations := 0, device := none })] =
      [["phy0".toList], ["phy0".toList]] := by rfl
  have honce := h.once
  rw [hstands, List.pairwise_cons] at honce
  exact honce.1 _ List.mem_cons_self List.mem_cons_self List.mem_cons_self

end OpenWrtCopilot.Ports.WifiRadios
