import OpenWrtCopilot.Verified.UciReading
import OpenWrtCopilot.Verified.WholeWords

/-!
# The sections of a focused context

Ports `select_sections` of `router_context_policy`: from a message, the sections of the snapshot
that a model is shown.  A keyword selects its section wherever it occurs in the message.

`str.lower` is a parameter.  A Python set is a list here, of which only the members count.

## Main results

* `mem_selectSections` — which sections are selected.
* `selects_iff_topicsOnly` — for which messages these are the sections that the message names in
  whole words.
-/

namespace OpenWrtCopilot.Ports.ContextSections

open Verified
open Verified.PyText
open Verified.UciReading

/-! ## Sections -/

/-- The keys of `SECTION_KEYWORDS`. -/
inductive Section
  | kernel
  | cpu
  | memory
  | storage
  | network
  | networkStatus
  | wifi
  | clients
  | firewall
  | vpn
  | dhcp
  | packages
  | services
  | logs
  | arp
  | neighbors
  deriving DecidableEq

def Section.all : List Section :=
  [.kernel, .cpu, .memory, .storage, .network, .networkStatus, .wifi, .clients, .firewall, .vpn,
    .dhcp, .packages, .services, .logs, .arp, .neighbors]

theorem Section.mem_all (s : Section) : s ∈ Section.all := by cases s <;> decide

def Section.name : Section → Text
  | .kernel => "kernel".toList
  | .cpu => "cpu".toList
  | .memory => "memory".toList
  | .storage => "storage".toList
  | .network => "network".toList
  | .networkStatus => "network_status".toList
  | .wifi => "wifi".toList
  | .clients => "clients".toList
  | .firewall => "firewall".toList
  | .vpn => "vpn".toList
  | .dhcp => "dhcp".toList
  | .packages => "packages".toList
  | .services => "services".toList
  | .logs => "logs".toList
  | .arp => "arp".toList
  | .neighbors => "neighbors".toList

/-- `FALLBACK_SECTIONS`. -/
def fallbackSections : List Section := [.kernel, .networkStatus, .cpu, .memory]

/-- `SECTION_KEYWORDS`. -/
def sectionKeywords : Section → List String
  | .kernel =>
      ["hostname", "model", "firmware", "kernel", "board", "architecture", "version", "uptime",
        "system", "router", "openwrt"]
  | .cpu => ["cpu", "load", "processor", "cores"]
  | .memory => ["memory", "ram", "swap"]
  | .storage => ["storage", "disk", "mount", "filesystem", "filesystems", "space", "capacity"]
  | .network =>
      ["network", "interface", "ip", "ipv4", "ipv6", "lan", "wan", "link", "traffic", "gateway",
        "routing"]
  | .networkStatus => ["dns", "nameserver", "resolver", "upstream", "wan ip", "wan address"]
  | .wifi => ["wifi", "wireless", "ssid", "stations", "station"]
  | .clients =>
      ["client", "clients", "device", "devices", "connected", "dhcp lease", "dhcp leases"]
  | .firewall => ["firewall", "zone", "zones", "rule", "rules", "nat", "forwarding"]
  | .vpn => ["vpn", "openvpn", "wireguard", "tunnel"]
  | .dhcp => ["dhcp", "lease", "leases", "static lease"]
  | .packages => ["package", "packages", "installed"]
  | .services => ["service", "services", "process", "processes"]
  | .logs => ["log", "logs", "logread"]
  | .arp => ["arp", "mac address", "mac addresses"]
  | .neighbors => ["neighbor", "neighbours", "neighbor table"]

/-- `any(keyword in text for keyword in keywords)`. -/
def mentioned (text : Text) (s : Section) : Bool :=
  (sectionKeywords s).any fun keyword => decide (keyword.toList <:+: text)

/-- `select_sections`. -/
def selectSections (lower : Text → Text) (message : Text) : List Section :=
  let text := lower message
  let selected := Section.all.filter (mentioned text)
  if selected = [] then fallbackSections else selected

/-! ## Topics -/

/-- The message names the section, by a keyword in whole words. -/
def Topic (w : WordClass) (text : Text) (s : Section) : Prop :=
  ∃ keyword ∈ sectionKeywords s, WholeWords w.isWord keyword.toList text

/-- The sections that are named, and the fallback exactly if there is none. -/
def Wanted (w : WordClass) (text : Text) (s : Section) : Prop :=
  Topic w text s ∨ ((∀ other, ¬Topic w text other) ∧ s ∈ fallbackSections)

/-- The selected sections are the wanted ones. -/
def Selects (w : WordClass) (lower : Text → Text) (message : Text) : Prop :=
  ∀ s, s ∈ selectSections lower message ↔ Wanted w (lower message) s

/-- Keywords occur in whole words only, or else they occur for exactly the fallback sections. -/
def TopicsOnly (w : WordClass) (text : Text) : Prop :=
  (∀ s, mentioned text s = true → Topic w text s) ∨
    ((∀ s, ¬Topic w text s) ∧ ∀ s, mentioned text s = true ↔ s ∈ fallbackSections)

theorem mentioned_iff {text : Text} {s : Section} :
    mentioned text s = true ↔ ∃ keyword ∈ sectionKeywords s, keyword.toList <:+: text := by
  rw [mentioned, List.any_eq_true]
  simp only [decide_eq_true_iff]

theorem Topic.mentioned {w : WordClass} {text : Text} {s : Section} (h : Topic w text s) :
    mentioned text s = true :=
  mentioned_iff.mpr (h.imp fun _ hkeyword => ⟨hkeyword.1, hkeyword.2.isInfix⟩)

theorem mem_selectSections {lower : Text → Text} {message : Text} {s : Section} :
    s ∈ selectSections lower message ↔
      mentioned (lower message) s = true ∨
        ((∀ other, ¬mentioned (lower message) other = true) ∧ s ∈ fallbackSections) := by
  have hnil : Section.all.filter (mentioned (lower message)) = [] ↔
      ∀ other, ¬mentioned (lower message) other = true := by
    rw [List.filter_eq_nil_iff]
    exact ⟨fun h other => h other other.mem_all, fun h other _ => h other⟩
  rw [selectSections]
  split
  · next h =>
      have hnone := hnil.mp h
      exact ⟨fun hs => Or.inr ⟨hnone, hs⟩, fun hs => (hs.resolve_left (hnone s)).2⟩
  · next h =>
      rw [List.mem_filter, and_iff_right s.mem_all]
      exact ⟨Or.inl, fun hs => hs.resolve_right fun hright => h (hnil.mpr hright.1)⟩

/-- **Which messages get the sections they name.** -/
theorem selects_iff_topicsOnly (w : WordClass) (lower : Text → Text) (message : Text) :
    Selects w lower message ↔ TopicsOnly w (lower message) := by
  unfold Selects TopicsOnly Wanted
  simp only [mem_selectSections]
  constructor
  · intro h
    by_cases htopic : ∃ t, Topic w (lower message) t
    · obtain ⟨t, ht⟩ := htopic
      exact Or.inl fun s hs => ((h s).mp (Or.inl hs)).resolve_right fun hnone => hnone.1 t ht
    · have hnone : ∀ s, ¬Topic w (lower message) s := not_exists.mp htopic
      by_cases hmentioned : ∃ t, mentioned (lower message) t = true
      · obtain ⟨t, ht⟩ := hmentioned
        refine Or.inr ⟨hnone, fun s => ⟨fun hs => ?_, fun hs => ?_⟩⟩
        · exact (((h s).mp (Or.inl hs)).resolve_left (hnone s)).2
        · exact ((h s).mpr (Or.inr ⟨hnone, hs⟩)).resolve_right fun hright => hright.1 t ht
      · exact Or.inl fun s hs => absurd ⟨s, hs⟩ hmentioned
  · rintro (h | ⟨hnone, h⟩) s
    · have hiff : ∀ t, mentioned (lower message) t = true ↔ Topic w (lower message) t :=
        fun t => ⟨h t, Topic.mentioned⟩
      simp only [hiff]
    · have hfirst : mentioned (lower message) .kernel = true := (h _).mpr List.mem_cons_self
      constructor
      · rintro (hs | ⟨hno, _⟩)
        · exact Or.inr ⟨hnone, (h s).mp hs⟩
        · exact absurd hfirst (hno _)
      · rintro (hs | ⟨_, hs⟩)
        · exact absurd hs (hnone s)
        · exact Or.inl ((h s).mpr hs)

end OpenWrtCopilot.Ports.ContextSections
