import OpenWrtCopilot.Ports.ClientMedia

/-!
# The verdicts on clients

What `classify_client_media` says, in terms of where each client was seen: which clients are there,
when one is wireless or wired, that the order of the tables does not matter, and that further
stations and wireless interfaces only add wireless clients.

## Main results

* `mem_sightings_iff` — the interfaces a client was seen on are those that the tables name.
* `ifaceMedium_mono` — an interface that is wireless stays so when more interfaces are.
* `classified` — the verdicts.
-/

namespace OpenWrtCopilot.Ports.ClientMedia

open Verified
open Verified.PyText
open Verified.PyDict

/-! ## Sightings -/

/-- The interface that an entry names, if it is no empty text. -/
def Names (interface : Option Text) (iface : Text) : Prop := interface = some iface ∧ iface ≠ []

/-- An entry of one of the tables has this MAC and names this interface. -/
def Sighted (leases : List DhcpLease) (arp : List ArpEntry) (neighbors : List NeighborEntry)
    (mac iface : Text) : Prop :=
  (∃ lease ∈ leases, normalizeMac lease.mac = some mac ∧ Names lease.interface iface) ∨
    (∃ entry ∈ arp, normalizeMac (some entry.mac) = some mac ∧ Names (some entry.interface) iface) ∨
      ∃ entry ∈ neighbors, normalizeMac entry.mac = some mac ∧ Names entry.interface iface

/-- The interfaces that stand with a MAC. -/
def sightings (d : Dict Text (List Text)) (mac : Text) : List Text := (get? mac d).getD []

theorem sightings_addMembers (key mac : Text) (members : List Text) (d : Dict Text (List Text)) :
    sightings (addMembers key members d) mac =
      if mac = key then sightings d mac ++ members else sightings d mac := by
  rw [sightings, addMembers]
  split
  · next h => rw [h, get?_set_self, Option.getD_some, sightings]
  · next h => rw [get?_set_of_ne h, sightings]

theorem truthy_eq_some_iff {t : Option Text} {text : Text} :
    truthy t = some text ↔ Names t text := by
  rw [truthy.eq_def, Names]
  split
  · simp
  · next hne =>
      refine ⟨fun h => ⟨h, fun hnil => hne (hnil ▸ h)⟩, And.left⟩

/-- What an entry adds. -/
theorem mem_sightings_addSighting {mac interface : Option Text} {d : Dict Text (List Text)}
    {key iface : Text} :
    iface ∈ sightings (addSighting mac interface d) key ↔
      iface ∈ sightings d key ∨ (normalizeMac mac = some key ∧ Names interface iface) := by
  rw [addSighting.eq_def]
  split
  · next key' iface' hmac hinterface =>
      have hnames : Names interface iface ↔ iface = iface' := by
        rw [← truthy_eq_some_iff, hinterface, Option.some_inj]
        exact ⟨Eq.symm, Eq.symm⟩
      have hself : normalizeMac (some key') = normalizeMac mac := by
        rw [(truthy_eq_some_iff.mp hmac).1]
      rw [hnames, ← hself]
      cases hkey : normalizeMac (some key') with
      | none => exact ⟨Or.inl, fun h => h.resolve_right fun hright => nomatch hright.1⟩
      | some named =>
        dsimp only
        rw [sightings_addMembers, Option.some_inj]
        split
        · next heq => rw [List.mem_append, List.mem_singleton]; simp only [heq, true_and]
        · next hne => exact ⟨Or.inl, fun h => h.resolve_right fun hright => hne hright.1.symm⟩
  · next hnone =>
      refine ⟨Or.inl, fun h => h.resolve_right fun ⟨hnormal, hnames⟩ => ?_⟩
      cases htext : truthy mac with
      | none => rw [normalizeMac, htext] at hnormal; cases hnormal
      | some text => exact hnone _ _ htext (truthy_eq_some_iff.mpr hnames)

/-- What the entries of one table add, whatever the table is. -/
theorem mem_sightings_foldl {α : Type} (mac interface : α → Option Text) (entries : List α)
    (d : Dict Text (List Text)) {key iface : Text} :
    iface ∈ sightings (entries.foldl (fun d e => addSighting (mac e) (interface e) d) d) key ↔
      iface ∈ sightings d key ∨
        ∃ e ∈ entries, normalizeMac (mac e) = some key ∧ Names (interface e) iface := by
  induction entries generalizing d with
  | nil => exact ⟨Or.inl, fun h => h.resolve_right fun ⟨_, hmem, _⟩ => List.not_mem_nil hmem⟩
  | cons first entries ih =>
    rw [List.foldl_cons, ih, mem_sightings_addSighting, or_assoc]
    simp only [List.mem_cons, exists_eq_or_imp]

/-- **The interfaces a client was seen on.** -/
theorem mem_sightings_iff {leases : List DhcpLease} {arp : List ArpEntry}
    {neighbors : List NeighborEntry} {mac iface : Text} :
    iface ∈ sightings (ifacesByMac leases arp neighbors) mac ↔
      Sighted leases arp neighbors mac iface := by
  rw [ifacesByMac, mem_sightings_foldl, mem_sightings_foldl, mem_sightings_foldl, sightings,
    get?_nil, Option.getD_none, or_assoc, or_assoc, Sighted]
  exact or_iff_right List.not_mem_nil

/-- No MAC stands without an interface. -/
def Seen (d : Dict Text (List Text)) : Prop := ∀ mac, get? mac d ≠ some []

theorem Seen.addSighting {d : Dict Text (List Text)} (h : Seen d) (mac interface : Option Text) :
    Seen (addSighting mac interface d) := by
  rw [addSighting.eq_def]
  split
  · split
    · next key _ =>
        intro other heq
        rw [addMembers] at heq
        by_cases hother : other = key
        · rw [hother, get?_set_self, Option.some_inj] at heq
          exact List.append_ne_nil_of_right_ne_nil _ (List.cons_ne_nil _ _) heq
        · rw [get?_set_of_ne hother] at heq
          exact h other heq
    · exact h
  · exact h

theorem Seen.foldl {α : Type} (mac interface : α → Option Text) (entries : List α)
    {d : Dict Text (List Text)} (h : Seen d) :
    Seen (entries.foldl (fun d e => ClientMedia.addSighting (mac e) (interface e) d) d) := by
  induction entries generalizing d with
  | nil => exact h
  | cons first entries ih => exact ih (h.addSighting (mac first) (interface first))

theorem seen_ifacesByMac (leases : List DhcpLease) (arp : List ArpEntry)
    (neighbors : List NeighborEntry) : Seen (ifacesByMac leases arp neighbors) :=
  Seen.foldl _ _ _ (Seen.foldl _ _ _ (Seen.foldl _ _ _ fun _ h => nomatch h))

theorem get?_of_seen {d : Dict Text (List Text)} (h : Seen d) (mac : Text) :
    get? mac d = if sightings d mac = [] then none else some (sightings d mac) := by
  cases hget : get? mac d with
  | none => rw [sightings, hget, Option.getD_none, if_pos rfl]
  | some interfaces =>
    have hne : interfaces ≠ [] := fun hnil => h mac (hget.trans (by rw [hnil]))
    rw [sightings, hget, Option.getD_some, if_neg hne]

/-! ## Media -/

theorem onlyMedium_iff {medium : Medium} {media : List Medium} :
    onlyMedium medium media = true ↔ media ≠ [] ∧ ∀ m ∈ media, m = medium := by
  rw [onlyMedium, Bool.and_eq_true, decide_eq_true_iff, List.all_eq_true]
  simp only [decide_eq_true_iff]

theorem mediumOf_eq_wireless_iff {media : List Medium} :
    mediumOf media = .wireless ↔ Medium.wireless ∈ media := by
  rw [mediumOf, ← List.contains_iff_mem]
  split
  · next h => exact ⟨fun _ => h, fun _ => rfl⟩
  · next h =>
      refine ⟨fun heq => ?_, fun hmem => absurd hmem h⟩
      split at heq <;> cases heq

theorem mediumOf_eq_wired_iff {media : List Medium} :
    mediumOf media = .wired ↔ media ≠ [] ∧ ∀ m ∈ media, m = .wired := by
  rw [mediumOf, ← onlyMedium_iff]
  split
  · next h =>
      refine ⟨fun heq => (nomatch heq), fun honly => ?_⟩
      have := (onlyMedium_iff.mp honly).2 _ (List.contains_iff_mem.mp h)
      cases this
  · split
    · next h => exact ⟨fun _ => h, fun _ => rfl⟩
    · next h => exact ⟨fun heq => (nomatch heq), fun honly => absurd honly h⟩

/-- Of a list of media only the members count. -/
theorem mediumOf_congr {media other : List Medium} (h : ∀ m, m ∈ media ↔ m ∈ other) :
    mediumOf media = mediumOf other := by
  have hnil : media ≠ [] ↔ other ≠ [] := by
    simp only [ne_eq, List.eq_nil_iff_forall_not_mem, h]
  have hwired : mediumOf media = .wired ↔ mediumOf other = .wired := by
    simp only [mediumOf_eq_wired_iff, hnil, h]
  have hwireless : mediumOf media = .wireless ↔ mediumOf other = .wireless := by
    rw [mediumOf_eq_wireless_iff, mediumOf_eq_wireless_iff, h]
  cases hm : mediumOf media <;> cases ho : mediumOf other <;> simp_all

/-- The medium of an interface in this network. -/
def mediumIn (wireless : List Text) (network : List NetworkInterface) (iface : Text) : Medium :=
  ifaceMedium wireless (bridgeMembersOf network) (logicalDeviceMap network) iface

theorem memberMedium_mono {wireless more : List Text} (h : wireless ⊆ more) {member : Text}
    (hmember : memberMedium wireless member = .wireless) :
    memberMedium more member = .wireless := by
  rw [memberMedium] at hmember ⊢
  by_cases hw : (wireless.contains member || wirelessIface member) = true
  · refine if_pos ?_
    rw [Bool.or_eq_true, List.contains_iff_mem] at hw ⊢
    exact hw.imp_left (h ·)
  · rw [if_neg hw] at hmember
    split at hmember <;> cases hmember

/-- Of the wireless interfaces only the members count. -/
theorem ifaceMedium_congr {wireless other : List Text} (h : ∀ i, i ∈ wireless ↔ i ∈ other)
    (bridgeMembers : Dict Text (List Text)) (logicalDevices : Dict Text Text) (iface : Text) :
    ifaceMedium wireless bridgeMembers logicalDevices iface =
      ifaceMedium other bridgeMembers logicalDevices iface := by
  have hcontains : ∀ i, wireless.contains i = other.contains i := fun i => by
    rw [Bool.eq_iff_iff, List.contains_iff_mem, List.contains_iff_mem, h]
  have hmember : memberMedium wireless = memberMedium other := by
    funext member
    rw [memberMedium, memberMedium, hcontains]
  rw [ifaceMedium, ifaceMedium, hcontains, hmember]

/-- **A wireless interface stays wireless when more interfaces are known to be.** -/
theorem ifaceMedium_mono {wireless more : List Text} (h : wireless ⊆ more)
    (bridgeMembers : Dict Text (List Text)) (logicalDevices : Dict Text Text) {iface : Text}
    (hiface : ifaceMedium wireless bridgeMembers logicalDevices iface = .wireless) :
    ifaceMedium more bridgeMembers logicalDevices iface = .wireless := by
  rw [ifaceMedium] at hiface ⊢
  by_cases hmore : more.contains iface = true
  · rw [if_pos hmore]
  rw [if_neg hmore]
  have hfewer : ¬wireless.contains iface = true := fun hmem =>
    hmore (List.contains_iff_mem.mpr (h (List.contains_iff_mem.mp hmem)))
  rw [if_neg hfewer] at hiface
  by_cases hname : wirelessIface iface = true
  · rw [if_pos hname]
  rw [if_neg hname] at hiface ⊢
  by_cases hwired : wiredIface iface = true
  · rw [if_pos hwired] at hiface
    cases hiface
  rw [if_neg hwired] at hiface ⊢
  revert hiface
  dsimp only
  -- A bridge is wireless when all its members are, and they all stay so.
  cases (get? ((get? iface logicalDevices).getD iface) bridgeMembers).orElse
      fun _ => get? iface bridgeMembers with
  | none => exact id
  | some members =>
    intro hiface
    dsimp only at hiface ⊢
    by_cases honly : onlyMedium .wireless (members.map (memberMedium wireless)) = true
    · refine if_pos ?_
      rw [onlyMedium_iff] at honly ⊢
      refine ⟨fun hnil => honly.1 ?_, fun m hm => ?_⟩
      · rw [List.map_eq_nil_iff] at hnil ⊢
        exact hnil
      · obtain ⟨member, hmember, rfl⟩ := List.mem_map.mp hm
        exact memberMedium_mono h (honly.2 _ (List.mem_map_of_mem hmember))
    · rw [if_neg honly] at hiface
      split at hiface <;> cases hiface

/-! ## Verdicts -/

theorem clientMedium_congr {wireless wireless' : List Text} {interfaces interfaces' : List Text}
    (hwireless : ∀ i, i ∈ wireless ↔ i ∈ wireless')
    (hinterfaces : ∀ i, i ∈ interfaces ↔ i ∈ interfaces') (network : List NetworkInterface) :
    clientMedium wireless network interfaces = clientMedium wireless' network interfaces' :=
  mediumOf_congr fun m => by
    simp only [List.mem_map, hinterfaces, ifaceMedium_congr hwireless]

theorem clientMedium_mono {wireless more : List Text} (h : wireless ⊆ more)
    {network : List NetworkInterface} {interfaces : List Text}
    (hwireless : clientMedium wireless network interfaces = .wireless) :
    clientMedium more network interfaces = .wireless := by
  rw [clientMedium, mediumOf_eq_wireless_iff, List.mem_map] at hwireless ⊢
  obtain ⟨iface, hmem, hiface⟩ := hwireless
  exact ⟨iface, hmem, ifaceMedium_mono h _ _ hiface⟩

/-- The verdict on a client, from where it was seen. -/
theorem get?_classify (leases : Option (List DhcpLease)) (arp : Option (List ArpEntry))
    (neighbors : Option (List NeighborEntry)) (wifiClients : Option (List WifiClient))
    (network : Option (List NetworkInterface)) (wirelessInterfaces : Option (List Text))
    (mac : Text) :
    get? mac (classifyClientMedia leases arp neighbors wifiClients network wirelessInterfaces) =
      if mac ∈ stationMacs (wifiClients.getD []) then some .wireless
      else
        let seen := sightings (ifacesByMac (leases.getD []) (arp.getD []) (neighbors.getD [])) mac
        if seen = [] then none
        else some (clientMedium (wirelessSet (wirelessInterfaces.getD []) (wifiClients.getD []))
          (network.getD []) seen) := by
  rw [get?_classifyClientMedia, get?_of_seen (seen_ifacesByMac _ _ _)]
  dsimp only
  split
  · rfl
  · split <;> rfl

theorem mem_wirelessSet {wirelessInterfaces : List Text} {wifiClients : List WifiClient}
    {iface : Text} :
    iface ∈ wirelessSet wirelessInterfaces wifiClients ↔
      iface ∈ wirelessInterfaces ∨
        ∃ client ∈ wifiClients, truthy client.interface = some iface := by
  rw [wirelessSet, List.mem_append, List.mem_filterMap]

theorem wirelessSet_subset {wirelessInterfaces more : List Text}
    {wifiClients moreClients : List WifiClient} (h : wirelessInterfaces ⊆ more)
    (hclients : wifiClients ⊆ moreClients) :
    wirelessSet wirelessInterfaces wifiClients ⊆ wirelessSet more moreClients := by
  intro iface hmem
  rw [mem_wirelessSet] at hmem ⊢
  exact hmem.imp (h ·) fun ⟨client, hclient, heq⟩ => ⟨client, hclients hclient, heq⟩

theorem stationMacs_subset {wifiClients moreClients : List WifiClient}
    (h : wifiClients ⊆ moreClients) : stationMacs wifiClients ⊆ stationMacs moreClients := by
  intro mac hmem
  rw [stationMacs, List.mem_filterMap] at hmem ⊢
  exact hmem.imp fun client hclient => ⟨h hclient.1, hclient.2⟩

/-- What a classification promises. -/
structure Classified (leases : Option (List DhcpLease)) (arp : Option (List ArpEntry))
    (neighbors : Option (List NeighborEntry)) (wifiClients : Option (List WifiClient))
    (network : Option (List NetworkInterface)) (wirelessInterfaces : Option (List Text)) :
    Prop where
  /-- The clients are the stations and those an entry names with an interface. -/
  known : ∀ mac,
    mac ∈ keys
        (classifyClientMedia leases arp neighbors wifiClients network wirelessInterfaces) ↔
      mac ∈ stationMacs (wifiClients.getD []) ∨
        ∃ iface, Sighted (leases.getD []) (arp.getD []) (neighbors.getD []) mac iface
  station : ∀ mac ∈ stationMacs (wifiClients.getD []),
    get? mac (classifyClientMedia leases arp neighbors wifiClients network wirelessInterfaces) =
      some .wireless
  wireless_iff : ∀ mac ∉ stationMacs (wifiClients.getD []),
    get? mac (classifyClientMedia leases arp neighbors wifiClients network wirelessInterfaces) =
        some .wireless ↔
      ∃ iface, Sighted (leases.getD []) (arp.getD []) (neighbors.getD []) mac iface ∧
        mediumIn (wirelessSet (wirelessInterfaces.getD []) (wifiClients.getD []))
          (network.getD []) iface = .wireless
  wired_iff : ∀ mac ∉ stationMacs (wifiClients.getD []),
    get? mac (classifyClientMedia leases arp neighbors wifiClients network wirelessInterfaces) =
        some .wired ↔
      (∃ iface, Sighted (leases.getD []) (arp.getD []) (neighbors.getD []) mac iface) ∧
        ∀ iface, Sighted (leases.getD []) (arp.getD []) (neighbors.getD []) mac iface →
          mediumIn (wirelessSet (wirelessInterfaces.getD []) (wifiClients.getD []))
            (network.getD []) iface = .wired
  /-- The order of the tables and of the stations does not matter. -/
  unordered : ∀ leases' arp' neighbors' wifiClients',
    (leases'.getD []).Perm (leases.getD []) → (arp'.getD []).Perm (arp.getD []) →
    (neighbors'.getD []).Perm (neighbors.getD []) →
    (wifiClients'.getD []).Perm (wifiClients.getD []) →
      ∀ mac,
        get? mac
            (classifyClientMedia leases' arp' neighbors' wifiClients' network wirelessInterfaces) =
          get? mac (classifyClientMedia leases arp neighbors wifiClients network wirelessInterfaces)
  /-- Further stations and wireless interfaces leave a wireless client wireless. -/
  monotone : ∀ wifiClients' wirelessInterfaces',
    wifiClients.getD [] ⊆ wifiClients'.getD [] →
    wirelessInterfaces.getD [] ⊆ wirelessInterfaces'.getD [] →
      ∀ mac,
        get? mac
            (classifyClientMedia leases arp neighbors wifiClients network wirelessInterfaces) =
          some .wireless →
        get? mac
            (classifyClientMedia leases arp neighbors wifiClients' network wirelessInterfaces') =
          some .wireless

/-- The order of the tables does not matter for where a client was seen. -/
theorem sighted_perm {leases leases' : List DhcpLease} {arp arp' : List ArpEntry}
    {neighbors neighbors' : List NeighborEntry} (hleases : leases'.Perm leases)
    (harp : arp'.Perm arp) (hneighbors : neighbors'.Perm neighbors) {mac iface : Text} :
    Sighted leases' arp' neighbors' mac iface ↔ Sighted leases arp neighbors mac iface := by
  simp only [Sighted, hleases.mem_iff, harp.mem_iff, hneighbors.mem_iff]

theorem sightings_ne_nil_iff {leases : List DhcpLease} {arp : List ArpEntry}
    {neighbors : List NeighborEntry} {mac : Text} :
    sightings (ifacesByMac leases arp neighbors) mac ≠ [] ↔
      ∃ iface, Sighted leases arp neighbors mac iface := by
  rw [ne_eq, List.eq_nil_iff_forall_not_mem, not_forall_not]
  simp only [mem_sightings_iff]

/-- **Every classification keeps these promises.** -/
theorem classified (leases : Option (List DhcpLease)) (arp : Option (List ArpEntry))
    (neighbors : Option (List NeighborEntry)) (wifiClients : Option (List WifiClient))
    (network : Option (List NetworkInterface)) (wirelessInterfaces : Option (List Text)) :
    Classified leases arp neighbors wifiClients network wirelessInterfaces where
  known mac := by
    rw [← isSome_get?_iff, get?_classify, ← sightings_ne_nil_iff]
    dsimp only
    split
    · next h => exact ⟨fun _ => Or.inl h, fun _ => rfl⟩
    · next h =>
        rw [or_iff_right h]
        split
        · next hnil => exact ⟨fun hsome => (nomatch hsome), fun hne => absurd hnil hne⟩
        · next hne => exact ⟨fun _ => hne, fun _ => rfl⟩
  station mac hmac := by rw [get?_classify, if_pos hmac]
  wireless_iff mac hmac := by
    rw [get?_classify, if_neg hmac]
    dsimp only
    split
    · next hnil =>
        refine ⟨fun heq => (nomatch heq), fun ⟨iface, hsighted, _⟩ => ?_⟩
        exact absurd hnil (sightings_ne_nil_iff.mpr ⟨iface, hsighted⟩)
    · rw [Option.some_inj, clientMedium, mediumOf_eq_wireless_iff, List.mem_map]
      simp only [mem_sightings_iff, mediumIn]
  wired_iff mac hmac := by
    rw [get?_classify, if_neg hmac, ← sightings_ne_nil_iff]
    dsimp only
    split
    · next hnil => exact ⟨fun heq => (nomatch heq), fun h => absurd hnil h.1⟩
    · next hne =>
        rw [Option.some_inj, clientMedium, mediumOf_eq_wired_iff, ne_eq, List.map_eq_nil_iff]
        simp only [List.forall_mem_map, mem_sightings_iff, mediumIn, ne_eq]
  unordered leases' arp' neighbors' wifiClients' hleases harp hneighbors hclients mac := by
    have hstations : mac ∈ stationMacs (wifiClients'.getD []) ↔
        mac ∈ stationMacs (wifiClients.getD []) :=
      ⟨(stationMacs_subset hclients.subset ·), (stationMacs_subset hclients.symm.subset ·)⟩
    have hseen : ∀ iface,
        iface ∈ sightings (ifacesByMac (leases'.getD []) (arp'.getD []) (neighbors'.getD [])) mac ↔
          iface ∈ sightings (ifacesByMac (leases.getD []) (arp.getD []) (neighbors.getD [])) mac :=
      fun iface => by
        rw [mem_sightings_iff, mem_sightings_iff, sighted_perm hleases harp hneighbors]
    have hwireless : ∀ iface,
        iface ∈ wirelessSet (wirelessInterfaces.getD []) (wifiClients'.getD []) ↔
          iface ∈ wirelessSet (wirelessInterfaces.getD []) (wifiClients.getD []) :=
      fun iface => by rw [mem_wirelessSet, mem_wirelessSet]; simp only [hclients.mem_iff]
    rw [get?_classify, get?_classify]
    simp only [hstations, List.eq_nil_iff_forall_not_mem, hseen,
      clientMedium_congr hwireless hseen]
  monotone wifiClients' wirelessInterfaces' hclients hwireless mac := by
    rw [get?_classify, get?_classify]
    dsimp only
    intro h
    by_cases hmore : mac ∈ stationMacs (wifiClients'.getD [])
    · rw [if_pos hmore]
    rw [if_neg hmore]
    rw [if_neg fun hmac => hmore (stationMacs_subset hclients hmac)] at h
    split at h
    · cases h
    · next hne =>
        rw [if_neg hne, Option.some_inj]
        exact clientMedium_mono (wirelessSet_subset hwireless hclients) (Option.some_inj.mp h)

end OpenWrtCopilot.Ports.ClientMedia
