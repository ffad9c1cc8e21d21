import OpenWrtCopilot.Ports.ClientMedia

/-!
# The connection medium in the browser

Ports `buildBridgeLookup` and `classifyMedium` of the client list, which classify a client in the
browser where the agent has no verdict, and compares them with `_iface_medium` of the agent.  The
browser's pattern of wired names has `ge?`, which takes every name that begins with a `g`; it reads
ASCII letters only and no newline after the name; and it keeps empty names of bridge members.

## Main results

* `mirrors_buildBridgeLookup` — the agent's lookups are those of the browser, without the names
  that are empty.
* `sameMedium_iff` — when both give an interface the same medium.
* `guest_bridge_differs` — a bridge that is wired in the browser.
-/

namespace OpenWrtCopilot.Ports.BrowserMedia

open Verified
open Verified.PyDict
open Verified.PyText
open Ports.ClientMedia

/-! ## Names -/

/-- `/^(p1|p2|…)[0-9a-z…]*$/i.test(t)`. -/
def testName (prefixes : List Text) (extra : List Char) (t : Text) : Bool :=
  prefixes.any fun pre =>
    startsWith pre (t.map Char.toLower) && (t.drop pre.length).all (PyPattern.alnumOr extra)

/-- `WIRELESS_IFACE`. -/
def wirelessName : Text → Bool := testName ["phy", "wlan", "wl", "wifi", "radio", "ra", "rai"] ['-']

/-- `WIRED_IFACE`; the digit after `wan` may be missing, that after `lan` may not, and `ge?` takes
a `g` alone. -/
def wiredName : Text → Bool :=
  testName
    ["eth", "en", "ppp", "wwan", "wan", "lan0", "lan1", "lan2", "lan3", "lan4", "lan5", "lan6",
      "lan7", "lan8", "lan9", "usb", "g", "ge", "gbe", "xgbe"] ['.', '-']

/-- `memberMedium`. -/
def nameMedium (name : Text) : Medium :=
  if wirelessName name then .wireless else if wiredName name then .wired else .unknown

/-! ## Bridges -/

/-- `BridgeLookup`. -/
structure BridgeLookup where
  logicalDevice : Dict Text Text := []
  members : Dict Text (List Text) := []

/-- An interface, in the loop of `buildBridgeLookup`. -/
def addInterface (lookup : BridgeLookup) (iface : NetworkInterface) : BridgeLookup :=
  let lookup :=
    match truthy iface.device with
    | some device => { lookup with logicalDevice := set iface.name device lookup.logicalDevice }
    | none => lookup
  if !iface.isBridge && !startsWith "br-" iface.name then lookup
  else if iface.bridgeMembers = [] then lookup
  else
    let named := addMembers iface.name iface.bridgeMembers lookup.members
    match truthy iface.device with
    | some device =>
        if device = iface.name then { lookup with members := named }
        else { lookup with members := addMembers device iface.bridgeMembers named }
    | none => { lookup with members := named }

/-- `buildBridgeLookup`. -/
def buildBridgeLookup (network : List NetworkInterface) : BridgeLookup :=
  network.foldl addInterface {}

/-- The members of the bridge that an interface resolves to. -/
def membersFor (bridge : BridgeLookup) (iface : Text) : Option (List Text) :=
  (get? ((get? iface bridge.logicalDevice).getD iface) bridge.members).or
    (get? iface bridge.members)

/-- What a list of members is, if it is all of one medium. -/
def mediumOfMembers (medium : Text → Medium) (members : Option (List Text)) : Medium :=
  match members with
  | some members =>
      let media := members.map medium
      if onlyMedium .wireless media then .wireless
      else if onlyMedium .wired media then .wired
      else .unknown
  | none => .unknown

/-- `classifyMedium`. -/
def classifyMedium (inWifi : Bool) (iface : Option Text) (bridge : BridgeLookup) : Medium :=
  if inWifi then .wireless
  else
    match truthy iface with
    | none => .unknown
    | some iface =>
        if wirelessName iface then .wireless
        else if wiredName iface then .wired
        else mediumOfMembers nameMedium (membersFor bridge iface)

/-! ## The two lookups -/

/-- The members that have a name, if there are any. -/
def named (members : List Text) : Option (List Text) :=
  let kept := members.filter (· ≠ [])
  if kept = [] then none else some kept

/-- The agent's members are the browser's that have a name. -/
def NamedMembers (members browser : Dict Text (List Text)) : Prop :=
  ∀ key ≠ [], get? key members = (get? key browser).bind named

theorem get?_addMembers (key other : Text) (more : List Text) (d : Dict Text (List Text)) :
    get? other (addMembers key more d) =
      if other = key then some ((get? key d).getD [] ++ more) else get? other d := by
  rw [addMembers]
  by_cases h : other = key
  · rw [if_pos h, h, get?_set_self]
  · rw [if_neg h, get?_set_of_ne h]

theorem named_append_of_nil {members more : List Text} (h : more.filter (· ≠ []) = []) :
    named (members ++ more) = named members := by
  rw [named, named, List.filter_append, h, List.append_nil]

theorem named_append_of_ne_nil {members more : List Text} (h : more.filter (· ≠ []) ≠ []) :
    named (members ++ more) = some ((named members).getD [] ++ more.filter (· ≠ [])) := by
  have happend : members.filter (· ≠ []) ++ more.filter (· ≠ []) ≠ [] :=
    List.append_ne_nil_of_right_ne_nil _ h
  rw [named, List.filter_append]
  refine (if_neg happend).trans ?_
  by_cases hmembers : members.filter (· ≠ []) = []
  · rw [hmembers, named, if_pos hmembers, Option.getD_none]
  · rw [named, if_neg hmembers, Option.getD_some]

theorem namedMembers_addUnnamed {members browser : Dict Text (List Text)}
    (h : NamedMembers members browser) (key : Text) {more : List Text}
    (hmore : more.filter (· ≠ []) = []) :
    NamedMembers members (addMembers key more browser) := by
  intro other hother
  rw [get?_addMembers, h other hother]
  by_cases hkey : other = key
  · rw [if_pos hkey, Option.bind_some, named_append_of_nil hmore, hkey]
    cases get? key browser with
    | none => rfl
    | some members => rfl
  · rw [if_neg hkey]

theorem namedMembers_addMembers {members browser : Dict Text (List Text)}
    (h : NamedMembers members browser) (key : Text) {more : List Text}
    (hmore : more.filter (· ≠ []) ≠ []) :
    NamedMembers (addMembers key (more.filter (· ≠ [])) members)
      (addMembers key more browser) := by
  intro other hother
  rw [get?_addMembers, get?_addMembers]
  by_cases hkey : other = key
  · rw [if_pos hkey, if_pos hkey, Option.bind_some, named_append_of_ne_nil hmore, ← hkey,
      h other hother]
    cases get? other browser with
    | none => rfl
    | some members => rfl
  · rw [if_neg hkey, if_neg hkey, h other hother]

theorem namedMembers_addNameless {members browser : Dict Text (List Text)}
    (h : NamedMembers members browser) (more : List Text) :
    NamedMembers members (addMembers [] more browser) := by
  intro other hother
  rw [get?_addMembers, if_neg hother, h other hother]

/-- The agent's lookups are the browser's, as far as names go. -/
structure Mirrors (devices : Dict Text Text) (members : Dict Text (List Text))
    (bridge : BridgeLookup) : Prop where
  devices : ∀ key ≠ [], get? key devices = get? key bridge.logicalDevice
  members : NamedMembers members bridge.members

theorem logicalDevice_addInterface (bridge : BridgeLookup) (iface : NetworkInterface) :
    (addInterface bridge iface).logicalDevice =
      match truthy iface.device with
      | some device => set iface.name device bridge.logicalDevice
      | none => bridge.logicalDevice := by
  unfold addInterface
  cases truthy iface.device with
  | none =>
    dsimp only
    split
    · rfl
    · split <;> rfl
  | some device =>
    dsimp only
    split
    · rfl
    · split
      · rfl
      · split <;> rfl

theorem members_addInterface (bridge : BridgeLookup) (iface : NetworkInterface) :
    (addInterface bridge iface).members =
      if !iface.isBridge && !startsWith "br-" iface.name then bridge.members
      else if iface.bridgeMembers = [] then bridge.members
      else
        let named := addMembers iface.name iface.bridgeMembers bridge.members
        match truthy iface.device with
        | some device =>
          if device = iface.name then named else addMembers device iface.bridgeMembers named
        | none => named := by
  unfold addInterface
  cases truthy iface.device with
  | none =>
    dsimp only
    split
    · rfl
    · split <;> rfl
  | some device =>
    dsimp only
    split
    · rfl
    · split
      · rfl
      · split <;> rfl

theorem mirrors_devices {devices browser : Dict Text Text} (iface : NetworkInterface)
    (h : ∀ key ≠ [], get? key devices = get? key browser) :
    ∀ key ≠ [],
      get? key
          (match truthy iface.device with
          | some device => if iface.name = [] then devices else set iface.name device devices
          | none => devices) =
        get? key
          (match truthy iface.device with
          | some device => set iface.name device browser
          | none => browser) := by
  intro key hkey
  cases truthy iface.device with
  | none => exact h key hkey
  | some device =>
    dsimp only
    by_cases hname : iface.name = []
    · rw [if_pos hname, hname, get?_set_of_ne hkey]
      exact h key hkey
    · rw [if_neg hname]
      by_cases hne : key = iface.name
      · rw [hne, get?_set_self, get?_set_self]
      · rw [get?_set_of_ne hne, get?_set_of_ne hne]
        exact h key hkey

theorem mirrors_members {members browser : Dict Text (List Text)} (iface : NetworkInterface)
    (h : NamedMembers members browser) :
    NamedMembers
      (let memberSet := iface.bridgeMembers.filter (· ≠ [])
      if memberSet = [] then members
      else
        let named := if iface.name = [] then members else addMembers iface.name memberSet members
        match truthy iface.device with
        | some device => if device = iface.name then named else addMembers device memberSet named
        | none => named)
      (if iface.bridgeMembers = [] then browser
      else
        let named := addMembers iface.name iface.bridgeMembers browser
        match truthy iface.device with
        | some device =>
          if device = iface.name then named else addMembers device iface.bridgeMembers named
        | none => named) := by
  dsimp only
  by_cases hnone : iface.bridgeMembers = []
  · rw [if_pos hnone, hnone]
    exact h
  rw [if_neg hnone]
  by_cases hkept : iface.bridgeMembers.filter (· ≠ []) = []
  · rw [if_pos hkept]
    have hfirst := namedMembers_addUnnamed h iface.name hkept
    cases truthy iface.device with
    | none => exact hfirst
    | some device =>
      dsimp only
      split
      · exact hfirst
      · exact namedMembers_addUnnamed hfirst device hkept
  · rw [if_neg hkept]
    have hfirst :
        NamedMembers
          (if iface.name = [] then members
          else addMembers iface.name (iface.bridgeMembers.filter (· ≠ [])) members)
          (addMembers iface.name iface.bridgeMembers browser) := by
      split
      · rename_i hname
        rw [hname]
        exact namedMembers_addNameless h _
      · exact namedMembers_addMembers h _ hkept
    cases truthy iface.device with
    | none => exact hfirst
    | some device =>
      dsimp only
      split
      · exact hfirst
      · exact namedMembers_addMembers hfirst device hkept

/-- **The agent's lookups mirror the browser's.** -/
theorem mirrors_buildBridgeLookup (network : List NetworkInterface) :
    Mirrors (logicalDeviceMap network) (bridgeMembersOf network)
      (buildBridgeLookup network) := by
  induction network using List.reverseRecOn with
  | nil => exact ⟨fun _ _ => rfl, fun _ _ => rfl⟩
  | append_singleton network iface ih =>
    constructor
    · rw [logicalDeviceMap, buildBridgeLookup, List.foldl_concat, List.foldl_concat,
        logicalDevice_addInterface]
      exact mirrors_devices iface ih.devices
    · rw [bridgeMembersOf, buildBridgeLookup, List.foldl_concat, List.foldl_concat,
        members_addInterface]
      split
      · exact ih.members
      · exact mirrors_members iface ih.members

/-! ## Agreement -/

/-- The members that the agent finds for an interface. -/
def agentMembers (bridge : BridgeLookup) (iface : Text) : Option (List Text) :=
  ((get? ((get? iface bridge.logicalDevice).getD iface) bridge.members).bind named).or
    ((get? iface bridge.members).bind named)

/-- There are members, and all of them are of one medium. -/
def AllOf (reads : Text → Medium) (medium : Medium) (members : Option (List Text)) : Prop :=
  ∃ list, members = some list ∧ list ≠ [] ∧ ∀ member ∈ list, reads member = medium

/-- There are members, all of them have a name, and both sides read each of them alike. -/
def ReadAlike (members : Option (List Text)) : Prop :=
  ∃ list, members = some list ∧ list ≠ [] ∧
    ∀ member ∈ list, member ≠ [] ∧ nameMedium member = memberMedium [] member

theorem onlyMedium_map_iff {reads : Text → Medium} {medium : Medium} {members : List Text} :
    onlyMedium medium (members.map reads) = true ↔
      members ≠ [] ∧ ∀ member ∈ members, reads member = medium := by
  simp [onlyMedium]

theorem mediumOfMembers_eq_iff {reads : Text → Medium} {members : Option (List Text)}
    {medium : Medium} (h : medium ≠ .unknown) :
    mediumOfMembers reads members = medium ↔ AllOf reads medium members := by
  cases members with
  | none => exact ⟨fun hunknown => absurd hunknown.symm h, fun ⟨_, hnone, _⟩ => nomatch hnone⟩
  | some list =>
    have hall : AllOf reads medium (some list) ↔
        onlyMedium medium (list.map reads) = true := by
      rw [onlyMedium_map_iff]
      exact ⟨fun ⟨_, hlist, hmembers⟩ => Option.some.inj hlist ▸ hmembers,
        fun hmembers => ⟨list, rfl, hmembers⟩⟩
    rw [hall, mediumOfMembers]
    cases medium with
    | unknown => exact absurd rfl h
    | wireless =>
      split
      · rename_i hwireless
        exact ⟨fun _ => hwireless, fun _ => rfl⟩
      · rename_i hwireless
        split
        · exact ⟨nofun, fun honly => absurd honly hwireless⟩
        · exact ⟨nofun, fun honly => absurd honly hwireless⟩
    | wired =>
      split
      · rename_i hwireless
        refine ⟨nofun, fun hwired => ?_⟩
        rw [onlyMedium_map_iff] at hwireless hwired
        obtain ⟨member, hmember⟩ := List.exists_mem_of_ne_nil list hwireless.1
        exact (hwireless.2 member hmember).symm.trans (hwired.2 member hmember)
      · split
        · rename_i hwired
          exact ⟨fun _ => hwired, fun _ => rfl⟩
        · rename_i hwired
          exact ⟨nofun, fun honly => absurd honly hwired⟩

theorem named_of_readAlike {list : List Text} (hne : list ≠ [])
    (hnames : ∀ member ∈ list, member ≠ []) : named list = some list := by
  have hkept : list.filter (· ≠ []) = list :=
    List.filter_eq_self.mpr fun member hmember => decide_eq_true (hnames member hmember)
  rw [named, hkept]
  exact if_neg hne

/-- Members that all have a name are found by the agent too. -/
theorem agentMembers_eq {bridge : BridgeLookup} {iface : Text} {list : List Text}
    (h : membersFor bridge iface = some list) (hne : list ≠ [])
    (hnames : ∀ member ∈ list, member ≠ []) : agentMembers bridge iface = some list := by
  have hnamed := named_of_readAlike hne hnames
  unfold membersFor at h
  unfold agentMembers
  cases hresolved : get? ((get? iface bridge.logicalDevice).getD iface) bridge.members with
  | some members =>
    rw [hresolved, Option.some_or] at h
    rw [Option.some.inj h, Option.bind_some, hnamed, Option.some_or]
  | none =>
    rw [hresolved, Option.none_or] at h
    rw [h, Option.bind_none, Option.none_or, Option.bind_some, hnamed]

/-- One side finds all members of a bridge of one clear medium. -/
def Clear (bridge : BridgeLookup) (iface : Text) : Prop :=
  ∃ medium, medium ≠ .unknown ∧
    (AllOf nameMedium medium (membersFor bridge iface) ∨
      AllOf (memberMedium []) medium (agentMembers bridge iface))

/-- The members give the same medium when none or both of the sides find one. -/
theorem sameMembers_iff (bridge : BridgeLookup) (iface : Text) :
    mediumOfMembers nameMedium (membersFor bridge iface) =
        mediumOfMembers (memberMedium []) (agentMembers bridge iface) ↔
      (Clear bridge iface → ReadAlike (membersFor bridge iface)) := by
  constructor
  · rintro hsame ⟨medium, hclear, hone⟩
    have hboth : AllOf nameMedium medium (membersFor bridge iface) ∧
        AllOf (memberMedium []) medium (agentMembers bridge iface) := by
      rw [← mediumOfMembers_eq_iff hclear, ← mediumOfMembers_eq_iff hclear, hsame, and_self]
      rw [← mediumOfMembers_eq_iff hclear, ← mediumOfMembers_eq_iff hclear, hsame, or_self] at hone
      exact hone
    obtain ⟨⟨list, hlist, hne, hbrowser⟩, agents, hagents, -, hagent⟩ := hboth
    have hnames : ∀ member ∈ list, member ≠ [] := fun member hmember hnil =>
      hclear ((hbrowser member hmember).symm.trans (hnil ▸ (by rfl)))
    rw [agentMembers_eq hlist hne hnames, Option.some_inj] at hagents
    refine ⟨list, hlist, hne, fun member hmember => ⟨hnames member hmember, ?_⟩⟩
    rw [hbrowser member hmember, hagent member (hagents ▸ hmember)]
  · intro h
    by_cases hclear : Clear bridge iface
    · obtain ⟨list, hlist, hne, halike⟩ := h hclear
      rw [hlist, agentMembers_eq hlist hne fun member hmember => (halike member hmember).1]
      have hmap : list.map nameMedium = list.map (memberMedium []) :=
        List.map_congr_left fun member hmember => (halike member hmember).2
      rw [mediumOfMembers, mediumOfMembers, hmap]
    · have hunknown : ∀ {reads : Text → Medium} {members : Option (List Text)},
          (∀ medium, medium ≠ .unknown → ¬AllOf reads medium members) →
            mediumOfMembers reads members = .unknown := by
        intro reads members hnone
        by_contra hmedium
        exact hnone _ hmedium ((mediumOfMembers_eq_iff hmedium).mp rfl)
      rw [hunknown fun medium hmedium hall => hclear ⟨medium, hmedium, .inl hall⟩,
        hunknown fun medium hmedium hall => hclear ⟨medium, hmedium, .inr hall⟩]

/-- When the browser and the agent agree on an interface. -/
inductive Agree (bridge : BridgeLookup) (iface : Text) : Prop
  | nameless (h : iface = [])
  /-- Both read the name alike, and the members too if they have to. -/
  | alike (hname : nameMedium iface = memberMedium [] iface)
      (hmembers : nameMedium iface = .unknown → Clear bridge iface →
        ReadAlike (membersFor bridge iface))
  /-- Only the agent reads the name, and the browser reads all members so. -/
  | browserMembers (hname : nameMedium iface = .unknown)
      (hclear : memberMedium [] iface ≠ .unknown)
      (hmembers : AllOf nameMedium (memberMedium [] iface) (membersFor bridge iface))
  /-- Only the browser reads the name, and the agent reads all members so. -/
  | agentMembers (hname : memberMedium [] iface = .unknown)
      (hclear : nameMedium iface ≠ .unknown)
      (hmembers : AllOf (memberMedium []) (nameMedium iface) (agentMembers bridge iface))

theorem truthy_eq_some {text : Text} (h : text ≠ []) : truthy (some text) = some text := by
  cases text with
  | nil => exact absurd rfl h
  | cons c text => rfl

theorem ne_nil_of_truthy {value : Option Text} {text : Text} (h : truthy value = some text) :
    text ≠ [] := by
  rintro rfl
  unfold truthy at h
  split at h
  · exact nomatch h
  · rename_i hvalue
    exact hvalue h

theorem classifyMedium_eq {iface : Text} (h : iface ≠ []) (bridge : BridgeLookup) :
    classifyMedium false (some iface) bridge =
      if nameMedium iface = .unknown then mediumOfMembers nameMedium (membersFor bridge iface)
      else nameMedium iface := by
  rw [classifyMedium, truthy_eq_some h, nameMedium]
  dsimp only
  rw [if_neg Bool.false_ne_true]
  split
  · rw [if_neg nofun]
  · split
    · rw [if_neg nofun]
    · rw [if_pos rfl]

theorem logicalDevice_ne_nil {network : List NetworkInterface} {key device : Text}
    (h : get? key (buildBridgeLookup network).logicalDevice = some device) : device ≠ [] := by
  induction network using List.reverseRecOn generalizing key device with
  | nil => exact nomatch h
  | append_singleton network iface ih =>
    rw [buildBridgeLookup, List.foldl_concat, ← buildBridgeLookup,
      logicalDevice_addInterface] at h
    cases hdevice : truthy iface.device with
    | none =>
      rw [hdevice] at h
      exact ih h
    | some own =>
      rw [hdevice] at h
      dsimp only at h
      by_cases hkey : key = iface.name
      · rw [hkey, get?_set_self, Option.some_inj] at h
        exact h ▸ ne_nil_of_truthy hdevice
      · rw [get?_set_of_ne hkey] at h
        exact ih h

theorem ifaceMedium_eq {network : List NetworkInterface} {iface : Text} (h : iface ≠ []) :
    ifaceMedium [] (bridgeMembersOf network) (logicalDeviceMap network) iface =
      if memberMedium [] iface = .unknown then
        mediumOfMembers (memberMedium []) (agentMembers (buildBridgeLookup network) iface)
      else memberMedium [] iface := by
  have hmirrors := mirrors_buildBridgeLookup network
  have hresolved : (get? iface (buildBridgeLookup network).logicalDevice).getD iface ≠ [] := by
    cases hdevice : get? iface (buildBridgeLookup network).logicalDevice with
    | none => exact h
    | some device => exact logicalDevice_ne_nil hdevice
  have hmembers :
      (get? ((get? iface (logicalDeviceMap network)).getD iface) (bridgeMembersOf network)).or
          (get? iface (bridgeMembersOf network)) =
        agentMembers (buildBridgeLookup network) iface := by
    rw [hmirrors.devices iface h, hmirrors.members _ hresolved, hmirrors.members iface h,
      agentMembers]
  have hlookup : ifaceMedium [] (bridgeMembersOf network) (logicalDeviceMap network) iface =
      if wirelessIface iface then .wireless
      else if wiredIface iface then .wired
      else mediumOfMembers (memberMedium [])
        (agentMembers (buildBridgeLookup network) iface) := by
    rw [ifaceMedium, ← hmembers, Option.or_eq_orElse]
    exact if_neg Bool.false_ne_true
  have hname : memberMedium [] iface =
      if wirelessIface iface then .wireless else if wiredIface iface then .wired
      else .unknown := rfl
  rw [hlookup, hname]
  split
  · rw [if_neg nofun]
  · split
    · rw [if_neg nofun]
    · rw [if_pos rfl]

/-- The agent keeps nothing under the empty name. -/
theorem get?_nil_logicalDeviceMap (network : List NetworkInterface) :
    get? [] (logicalDeviceMap network) = none := by
  induction network using List.reverseRecOn with
  | nil => rfl
  | append_singleton network iface ih =>
    rw [logicalDeviceMap, List.foldl_concat, ← logicalDeviceMap]
    split
    · split
      · exact ih
      · rename_i hname
        rw [get?_set_of_ne (Ne.symm hname), ih]
    · exact ih

theorem get?_nil_bridgeMembersOf (network : List NetworkInterface) :
    get? [] (bridgeMembersOf network) = none := by
  induction network using List.reverseRecOn with
  | nil => rfl
  | append_singleton network iface ih =>
    rw [bridgeMembersOf, List.foldl_concat, ← bridgeMembersOf]
    dsimp only
    split
    · exact ih
    split
    · exact ih
    have hfirst :
        get? [] (if iface.name = [] then bridgeMembersOf network
          else addMembers iface.name (iface.bridgeMembers.filter (· ≠ []))
            (bridgeMembersOf network)) = none := by
      split
      · exact ih
      · rename_i hname
        rw [get?_addMembers, if_neg (Ne.symm hname), ih]
    split
    · rename_i device hdevice
      split
      · exact hfirst
      · rw [get?_addMembers, if_neg (Ne.symm (ne_nil_of_truthy hdevice)), hfirst]
    · exact hfirst

theorem ifaceMedium_nil (network : List NetworkInterface) :
    ifaceMedium [] (bridgeMembersOf network) (logicalDeviceMap network) [] = .unknown := by
  have hresolved : (get? [] (logicalDeviceMap network)).getD [] = [] := by
    rw [get?_nil_logicalDeviceMap]
    rfl
  have hlookup : ifaceMedium [] (bridgeMembersOf network) (logicalDeviceMap network) [] =
      mediumOfMembers (memberMedium [])
        ((get? ((get? [] (logicalDeviceMap network)).getD []) (bridgeMembersOf network)).orElse
          fun _ => get? [] (bridgeMembersOf network)) := rfl
  rw [hlookup, hresolved, get?_nil_bridgeMembersOf]
  rfl

/-- **The browser and the agent give an interface the same medium exactly when** both read its
name alike, and its members where one side finds them all of one medium and the name says
nothing; or one side reads the name as the other reads all the members. -/
theorem sameMedium_iff (network : List NetworkInterface) (iface : Text) :
    classifyMedium false (some iface) (buildBridgeLookup network) =
        ifaceMedium [] (bridgeMembersOf network) (logicalDeviceMap network) iface ↔
      Agree (buildBridgeLookup network) iface := by
  by_cases hnil : iface = []
  · subst hnil
    exact ⟨fun _ => .nameless rfl, fun _ => (ifaceMedium_nil network).symm⟩
  rw [classifyMedium_eq hnil, ifaceMedium_eq hnil]
  by_cases hbrowser : nameMedium iface = .unknown
  · rw [if_pos hbrowser]
    by_cases hagent : memberMedium [] iface = .unknown
    · rw [if_pos hagent, sameMembers_iff]
      constructor
      · exact fun hmembers => .alike (hbrowser.trans hagent.symm) fun _ => hmembers
      · intro h
        cases h with
        | nameless h => exact absurd h hnil
        | alike _ hmembers => exact hmembers hbrowser
        | browserMembers _ hclear => exact absurd hagent hclear
        | agentMembers _ hclear => exact absurd hbrowser hclear
    · rw [if_neg hagent, mediumOfMembers_eq_iff hagent]
      constructor
      · exact .browserMembers hbrowser hagent
      · intro h
        cases h with
        | nameless h => exact absurd h hnil
        | alike hname => exact absurd (hname.symm.trans hbrowser) hagent
        | browserMembers _ _ hmembers => exact hmembers
        | agentMembers hname => exact absurd hname hagent
  · rw [if_neg hbrowser]
    by_cases hagent : memberMedium [] iface = .unknown
    · rw [if_pos hagent, eq_comm, mediumOfMembers_eq_iff hbrowser]
      constructor
      · exact .agentMembers hagent hbrowser
      · intro h
        cases h with
        | nameless h => exact absurd h hnil
        | alike hname => exact absurd (hname.trans hagent) hbrowser
        | browserMembers hname => exact absurd hname hbrowser
        | agentMembers _ _ hmembers => exact hmembers
    · rw [if_neg hagent]
      constructor
      · exact fun hname => .alike hname fun hunknown => absurd hunknown hbrowser
      · intro h
        cases h with
        | nameless h => exact absurd h hnil
        | alike hname => exact hname
        | browserMembers hname => exact absurd hname hbrowser
        | agentMembers hname => exact absurd hname hagent

/-- A bridge named `guest` is wired in the browser, whatever its members are. -/
theorem guest_bridge_differs :
    ¬∀ (network : List NetworkInterface) (iface : Text),
      classifyMedium false (some iface) (buildBridgeLookup network) =
        ifaceMedium [] (bridgeMembersOf network) (logicalDeviceMap network) iface :=
  fun h => absurd
    (h [{ name := "guest", device := some "br-guest" },
      { name := "br-guest", isBridge := true, bridgeMembers := ["wlan0-1"] }] "guest")
    (by decide)

end OpenWrtCopilot.Ports.BrowserMedia
