import OpenWrtCopilot.Ports.RouterSnapshots
import OpenWrtCopilot.Ports.Snapshot
import OpenWrtCopilot.Verified.PyFloat
import OpenWrtCopilot.Verified.Successes

/-!
# Router context and router tools

Ports `build_context` and `RouterTool`: what the chat is told about the router is extracted from
the latest snapshot, with a markdown text made of it on the way.  Each tool extracts everything
and returns one part, so that a field that cannot be formatted takes all tools away.

## Main results

* `succeeds_buildContext` — when a context is built.
-/

namespace OpenWrtCopilot.Ports.RouterContext

open Verified
open Verified.PyFloat
open Verified.PyText
open Ports.Snapshot (KernelInfo SnapshotMeta)

/-! ## Snapshots -/

structure CpuInfo where
  load1 : PyFloat
  load5 : PyFloat
  load15 : PyFloat
  cores : Int := 1
  uptimeSeconds : PyFloat := .finite 0
  usagePercent : Option PyFloat := none

structure MemoryInfo where
  totalKb : Int
  freeKb : Int
  usedKb : Int
  bufferedKb : Int := 0
  cachedKb : Option Int := none
  availableKb : Option Int := none

structure StorageMount where
  device : Text
  mountpoint : Text
  filesystem : Text := []
  totalBytes : Option Int := none
  usedBytes : Option Int := none
  usePercent : Option PyFloat := none

inductive Family
  | ipv4
  | ipv6
  deriving DecidableEq

structure NetworkAddress where
  address : Text
  family : Family

structure NetworkInterface where
  name : Text
  up : Bool := false
  proto : Option Text := none
  mac : Option Text := none
  rxBytes : Option Int := none
  txBytes : Option Int := none
  addresses : List NetworkAddress := []

structure WifiRadio where
  name : Text
  up : Bool := false
  band : Option Text := none
  channel : Option Int := none
  ssid : Option Text := none
  stationCount : Int := 0

/-- `DeviceSnapshot`, with the rest of its fields, which only `model_dump` reads, as one. -/
structure DeviceSnapshot (R : Type) where
  metadata : SnapshotMeta
  kernel : KernelInfo := {}
  cpu : Option CpuInfo := none
  memory : Option MemoryInfo := none
  storage : List StorageMount := []
  network : List NetworkInterface := []
  radios : List WifiRadio := []
  rest : R

/-- `DashboardUpdate`. -/
structure DashboardUpdate (R : Type) where
  snapshot : Option (DeviceSnapshot R)

/-! ## Contexts -/

structure RouterInfo where
  hostname : Text
  model : Text
  board : Text
  firmware : Text
  kernel : Text
  architecture : Text
  uptimeSeconds : Option PyFloat
  uptime : Text

structure SystemLoad where
  usagePercent : Option PyFloat
  cores : Int
  load1 : PyFloat
  load5 : PyFloat
  load15 : PyFloat

structure MemorySummary where
  totalKb : Int
  usedKb : Int
  freeKb : Int
  availableKb : Option Int
  cachedKb : Option Int
  bufferedKb : Int
  usedPercent : PyFloat

structure StorageSummary where
  mountpoint : Text
  device : Text
  filesystem : Text
  totalGb : Option PyFloat
  usedGb : Option PyFloat
  usePercent : Option PyFloat

structure NetworkSummary where
  name : Text
  up : Bool
  proto : Option Text
  mac : Option Text
  ipv4 : Option Text
  rxBytes : Option Int
  txBytes : Option Int

structure RadioSummary where
  name : Text
  up : Bool
  ssid : Option Text
  band : Option Text
  channel : Option Int
  clients : Int

structure WifiSummary where
  radios : List RadioSummary
  clientCount : Int

/-- What `build_context` returns. -/
structure Context (J : Type) where
  available : Bool
  collectedAt : Text := []
  routerInfo : Option RouterInfo := none
  systemLoad : Option SystemLoad := none
  memorySummary : Option MemorySummary := none
  storageSummary : List StorageSummary := []
  networkSummary : List NetworkSummary := []
  wifiSummary : Option WifiSummary := none
  markdown : Text
  rawSnapshot : Option J := none

/-- What is outside of the repository: `datetime.isoformat`, the text of a float, and pydantic's
`model_dump`, which raises where a value has no JSON form. -/
structure Externals (R J : Type) where
  isoformat : Nat → Text
  reprFloat : PyFloat → Text
  modelDump : DeviceSnapshot R → Except Text J

/-! ## Extraction -/

/-- `a or b` for texts. -/
def orElse (a b : Text) : Text := if a = [] then b else a

def unknown : Text := "unknown".toList

/-- `_format_bytes`; also `_format_kb` of the snapshot service. -/
def formatBytes (kb : Int) : Except Text Text :=
  if 1024 * 1024 ≤ kb then do
    return fixed 1 (← trueDiv kb (1024 * 1024)) ++ " GB".toList
  else if 1024 ≤ kb then do
    return fixed 1 (← trueDiv kb 1024) ++ " MB".toList
  else do
    return (← strInt kb) ++ " KB".toList

/-- `_format_uptime`.  An infinite number of seconds has no number of days either. -/
def formatUptime : PyFloat → Except Text Text
  | .finite q =>
      let days := (q / 86400).floor
      let hours := ((q - days * 86400) / 3600).floor
      let minutes := ((q - (q / 3600).floor * 3600) / 60).floor
      .ok (join [' '] ((if days ≠ 0 then [intText days ++ ['d']] else []) ++
        (if hours ≠ 0 then [intText hours ++ ['h']] else []) ++ [intText minutes ++ ['m']]))
  | _ => .error "cannot convert float NaN to integer".toList

section Extraction

variable {R J : Type}

def routerInfo (snap : DeviceSnapshot R) : Except Text RouterInfo := do
  let uptime ← whenSome (fun cpu => formatUptime cpu.uptimeSeconds) snap.cpu
  return {
    hostname := snap.kernel.hostname
    model := snap.kernel.model
    board := snap.kernel.board
    firmware := orElse (orElse snap.kernel.version snap.metadata.firmware) unknown
    kernel := snap.kernel.kernel
    architecture := snap.kernel.architecture
    uptimeSeconds := snap.cpu.map (·.uptimeSeconds)
    uptime := uptime.getD unknown }

def systemLoad (cpu : Option CpuInfo) : SystemLoad :=
  match cpu with
  | some cpu =>
      { usagePercent := cpu.usagePercent, cores := cpu.cores
        load1 := cpu.load1, load5 := cpu.load5, load15 := cpu.load15 }
  | none =>
      { usagePercent := none, cores := 0
        load1 := .finite 0, load5 := .finite 0, load15 := .finite 0 }

def usedPercent (memory : MemoryInfo) : Except Text PyFloat :=
  if memory.totalKb ≠ 0 then
    (fun x => round1 (timesHundred x)) <$> trueDiv memory.usedKb memory.totalKb
  else .ok (.finite 0)

def memorySummary (memory : MemoryInfo) : Except Text MemorySummary := do
  let usedPercent ← usedPercent memory
  return {
    totalKb := memory.totalKb
    usedKb := memory.usedKb
    freeKb := memory.freeKb
    availableKb := memory.availableKb
    cachedKb := memory.cachedKb
    bufferedKb := memory.bufferedKb
    usedPercent := usedPercent }

/-- A number of bytes in GB, where there is one other than zero. -/
def gigabytes (bytes : Option Int) : Except Text (Option PyFloat) :=
  whenSome (fun n => trueDiv n (1024 ^ 3)) (bytes.filter (· ≠ 0))

def storageSummary (mount : StorageMount) : Except Text StorageSummary := do
  let totalGb ← gigabytes mount.totalBytes
  let usedGb ← gigabytes mount.usedBytes
  return {
    mountpoint := mount.mountpoint
    device := mount.device
    filesystem := mount.filesystem
    totalGb := totalGb
    usedGb := usedGb
    usePercent := mount.usePercent }

def networkSummary (interface : NetworkInterface) : NetworkSummary where
  name := interface.name
  up := interface.up
  proto := interface.proto
  mac := interface.mac
  ipv4 := (interface.addresses.find? (·.family = .ipv4)).map (·.address)
  rxBytes := interface.rxBytes
  txBytes := interface.txBytes

def wifiSummary (radios : List WifiRadio) : WifiSummary where
  radios := radios.map fun radio =>
    { name := radio.name, up := radio.up, ssid := radio.ssid, band := radio.band
      channel := radio.channel, clients := radio.stationCount }
  clientCount := (radios.map (·.stationCount)).sum

end Extraction

/-! ## The markdown of the context -/

/-- What an f-string makes of a text that may be missing. -/
def noneText : Option Text → Text := (·.getD "None".toList)

/-- `used` in `f"- RAM: {used} / {total} ({used_percent}%)"`. -/
def ramLine (reprFloat : PyFloat → Text) (memory : MemorySummary) : Except Text Text := do
  let used ← formatBytes memory.usedKb
  let total ← formatBytes memory.totalKb
  return "- RAM: ".toList ++ used ++ " / ".toList ++ total ++ " (".toList ++
    reprFloat memory.usedPercent ++ "%)".toList

def healthLines (reprFloat : PyFloat → Text) (load : SystemLoad)
    (memory : Option MemorySummary) : Except Text (List Text) :=
  if 0 < load.cores then do
    let usage := match load.usagePercent with
      | some usage => fixed 1 usage ++ "% used".toList
      | none => "N/A".toList
    let cores ← strInt load.cores
    let ram ← whenSome (ramLine reprFloat) memory
    return ["## System Health".toList,
        "- CPU: ".toList ++ usage ++ " (".toList ++ cores ++ " cores)".toList,
        "- Load: ".toList ++ fixed 2 load.load1 ++ " / ".toList ++ fixed 2 load.load5 ++
          " / ".toList ++ fixed 2 load.load15] ++ ram.toList ++ [[]]
  else .ok []

/-- `f"{s['use_percent']:.1f}"`: there is no such format for `None`. -/
def percentText : Option PyFloat → Except Text Text
  | some x => .ok (fixed 1 x)
  | none => .error "unsupported format string passed to NoneType.__format__".toList

/-- A number of GB, where it is other than zero. -/
def gbText (x : Option PyFloat) : Text :=
  match x with
  | some x => if x = .finite 0 then ['?'] else fixed 1 x
  | none => ['?']

def mountLine (mount : StorageSummary) : Except Text Text := do
  let percent ← percentText mount.usePercent
  return "- ".toList ++ mount.mountpoint ++ " (".toList ++ mount.filesystem ++ "): ".toList ++
    gbText mount.usedGb ++ "G / ".toList ++ gbText mount.totalGb ++ "G (".toList ++ percent ++
    "%)".toList

def dash : Text := "—".toList

def interfaceLine (interface : NetworkSummary) : Text :=
  "- **".toList ++ interface.name ++ "** (".toList ++
    (if interface.up then "UP".toList else "DOWN".toList) ++ ") — ".toList ++
    orElse (interface.ipv4.getD []) dash ++ " — proto: ".toList ++ noneText interface.proto

def radioLine (radio : RadioSummary) : Except Text Text := do
  let channel ← whenSome strInt radio.channel
  let clients ← strInt radio.clients
  return "- **".toList ++ radio.name ++ "** (".toList ++ noneText radio.ssid ++ ") — ".toList ++
    noneText radio.band ++ " ch".toList ++ noneText channel ++ " — ".toList ++ clients ++
    " clients".toList

/-- A headed list with a blank line after it, where there is something to list. -/
def listed (heading : Text) (lines : List Text) (closing : List Text) : List Text :=
  if lines = [] then [] else heading :: lines ++ closing

def markdown (reprFloat : PyFloat → Text) (info : RouterInfo) (load : SystemLoad)
    (memory : Option MemorySummary) (storage : List StorageSummary)
    (network : List NetworkSummary) (wifi : WifiSummary) : Except Text Text := do
  let health ← healthLines reprFloat load memory
  let mounts ← storage.mapM mountLine
  let radios ← wifi.radios.mapM radioLine
  return join ['\n'] (
    ["## Router: ".toList ++ info.hostname,
      "- **Model**: ".toList ++ info.model ++ " (".toList ++ info.board ++ ")".toList,
      "- **Firmware**: ".toList ++ info.firmware,
      "- **Kernel**: ".toList ++ info.kernel ++ " (".toList ++ info.architecture ++ ")".toList,
      "- **Uptime**: ".toList ++ info.uptime,
      []] ++
    health ++
    listed "## Storage".toList mounts [[]] ++
    listed "## Network Interfaces".toList (network.map interfaceLine) [[]] ++
    listed "## WiFi".toList radios [])

/-! ## The context -/

variable {R J : Type}

/-- `build_context`. -/
def buildContext (externals : Externals R J) (update : Option (DashboardUpdate R)) :
    Except Text (Context J) :=
  match update.bind (·.snapshot) with
  | none =>
      .ok { available := false, markdown := "No router data is currently available.".toList }
  | some snap => do
      let info ← routerInfo snap
      let load := systemLoad snap.cpu
      let memory ← whenSome memorySummary snap.memory
      let storage ← snap.storage.mapM storageSummary
      let network := snap.network.map networkSummary
      let wifi := wifiSummary snap.radios
      let markdown ← markdown externals.reprFloat info load memory storage network wifi
      let raw ← externals.modelDump snap
      return {
        available := true
        collectedAt := externals.isoformat snap.metadata.collectedAt
        routerInfo := some info
        systemLoad := some load
        memorySummary := memory
        storageSummary := storage
        networkSummary := network
        wifiSummary := some wifi
        markdown := markdown
        rawSnapshot := some raw }

/-! ## When it is built -/

/-- The number of KB has a text. -/
def KbFits (kb : Int) : Prop :=
  (1024 * 1024 ≤ kb → kb.natAbs < limit * (1024 * 1024)) ∧
    (kb < 1024 → kb.natAbs < 10 ^ maxStrDigits)

/-- The integer has a text. -/
def DigitsFit (n : Int) : Prop := n.natAbs < 10 ^ maxStrDigits

/-- The number of bytes has a number of GB. -/
def BytesFit (bytes : Option Int) : Prop := ∀ n ∈ bytes, n.natAbs < limit * 1024 ^ 3

theorem succeeds_strInt {n : Int} : Succeeds (strInt n) ↔ DigitsFit n := strInt_eq_ok_iff

theorem succeeds_trueDiv {a b : Int} :
    Succeeds (trueDiv a b) ↔ b ≠ 0 ∧ a.natAbs < limit * b.natAbs := trueDiv_eq_ok_iff

theorem succeeds_formatBytes {kb : Int} : Succeeds (formatBytes kb) ↔ KbFits kb := by
  have hlimit : 2 ^ 10 ≤ limit := two_pow_le_limit (by decide)
  rw [formatBytes, KbFits]
  split
  · next hlarge =>
      rw [succeeds_bind_pure_iff, succeeds_trueDiv]
      constructor
      · intro h
        exact ⟨fun _ => h.2, fun hless => by omega⟩
      · intro h
        exact ⟨by decide, h.1 hlarge⟩
  · next hsmall =>
      split
      · next hmiddle =>
          rw [succeeds_bind_pure_iff, succeeds_trueDiv]
          refine iff_of_true ⟨by decide, ?_⟩ ⟨fun h => absurd h hsmall, fun h => absurd h ?_⟩
          · show kb.natAbs < limit * 1024
            omega
          · omega
      · next htiny =>
          rw [succeeds_bind_pure_iff, succeeds_strInt]
          exact ⟨fun h => ⟨fun hlarge => absurd hlarge hsmall, fun _ => h⟩,
            fun h => h.2 (by omega)⟩

theorem succeeds_formatUptime {x : PyFloat} :
    Succeeds (formatUptime x) ↔ ∃ q, x = .finite q := by
  cases x with
  | finite q => exact iff_of_true ⟨_, rfl⟩ ⟨q, rfl⟩
  | infinite negative => exact iff_of_false nofun nofun
  | nan => exact iff_of_false nofun nofun

theorem succeeds_routerInfo {snap : DeviceSnapshot R} :
    Succeeds (routerInfo snap) ↔ ∀ cpu ∈ snap.cpu, ∃ q, cpu.uptimeSeconds = .finite q := by
  rw [routerInfo, succeeds_bind_pure_iff, succeeds_whenSome]
  exact forall₂_congr fun cpu _ => succeeds_formatUptime

theorem succeeds_memorySummary {memory : MemoryInfo} :
    Succeeds (memorySummary memory) ↔
      (memory.totalKb ≠ 0 → memory.usedKb.natAbs < limit * memory.totalKb.natAbs) := by
  rw [memorySummary, succeeds_bind_pure_iff, usedPercent]
  split
  · next htotal =>
      rw [succeeds_map_iff, succeeds_trueDiv]
      exact ⟨fun h _ => h.2, fun h => ⟨htotal, h htotal⟩⟩
  · next htotal => exact iff_of_true ⟨_, rfl⟩ fun h => absurd h htotal

theorem succeeds_gigabytes {bytes : Option Int} : Succeeds (gigabytes bytes) ↔ BytesFit bytes := by
  have hlimit : 2 ^ 0 ≤ limit := two_pow_le_limit (by decide)
  rw [gigabytes, succeeds_whenSome, BytesFit]
  constructor
  · intro h n hn
    by_cases hzero : n = 0
    · rw [hzero]
      show 0 < limit * 1024 ^ 3
      omega
    · exact (succeeds_trueDiv.mp (h n (Option.mem_filter_iff.mpr ⟨hn, by simpa using hzero⟩))).2
  · intro h n hn
    exact succeeds_trueDiv.mpr ⟨by decide, h n (Option.mem_filter_iff.mp hn).1⟩

theorem succeeds_storageSummary {mount : StorageMount} :
    Succeeds (storageSummary mount) ↔ BytesFit mount.totalBytes ∧ BytesFit mount.usedBytes := by
  rw [storageSummary, ← succeeds_gigabytes, ← succeeds_gigabytes]
  refine succeeds_bind_iff fun totalGb _ => ?_
  rw [succeeds_bind_pure_iff]

theorem succeeds_ramLine {reprFloat : PyFloat → Text} {memory : MemorySummary} :
    Succeeds (ramLine reprFloat memory) ↔ KbFits memory.usedKb ∧ KbFits memory.totalKb := by
  rw [ramLine, ← succeeds_formatBytes, ← succeeds_formatBytes]
  refine succeeds_bind_iff fun used _ => ?_
  rw [succeeds_bind_pure_iff]

theorem succeeds_healthLines {reprFloat : PyFloat → Text} {load : SystemLoad}
    {memory : Option MemorySummary} :
    Succeeds (healthLines reprFloat load memory) ↔
      (0 < load.cores → DigitsFit load.cores ∧
        ∀ m ∈ memory, KbFits m.usedKb ∧ KbFits m.totalKb) := by
  rw [healthLines]
  split
  · next hcores =>
      rw [forall_prop_of_true hcores, ← succeeds_strInt]
      refine succeeds_bind_iff fun cores _ => ?_
      rw [succeeds_bind_pure_iff, succeeds_whenSome]
      exact forall₂_congr fun m _ => succeeds_ramLine
  · next hcores => exact iff_of_true ⟨_, rfl⟩ fun h => absurd h hcores

theorem succeeds_mountLine {mount : StorageSummary} :
    Succeeds (mountLine mount) ↔ mount.usePercent ≠ none := by
  rw [mountLine, succeeds_bind_pure_iff]
  cases mount.usePercent with
  | none => exact iff_of_false nofun fun h => h rfl
  | some x => exact iff_of_true ⟨_, rfl⟩ nofun

theorem succeeds_radioLine {radio : RadioSummary} :
    Succeeds (radioLine radio) ↔
      (∀ n ∈ radio.channel, DigitsFit n) ∧ DigitsFit radio.clients := by
  rw [radioLine, ← succeeds_strInt]
  refine (succeeds_bind_iff fun channel _ => ?_).trans (and_congr_left fun _ => ?_)
  · exact succeeds_bind_pure_iff _
  · rw [succeeds_whenSome]
    exact forall₂_congr fun n _ => succeeds_strInt

theorem succeeds_markdown {reprFloat : PyFloat → Text} {info : RouterInfo} {load : SystemLoad}
    {memory : Option MemorySummary} {storage : List StorageSummary}
    {network : List NetworkSummary} {wifi : WifiSummary} :
    Succeeds (markdown reprFloat info load memory storage network wifi) ↔
      (0 < load.cores → DigitsFit load.cores ∧
        ∀ m ∈ memory, KbFits m.usedKb ∧ KbFits m.totalKb) ∧
      (∀ mount ∈ storage, mount.usePercent ≠ none) ∧
      ∀ radio ∈ wifi.radios, (∀ n ∈ radio.channel, DigitsFit n) ∧ DigitsFit radio.clients := by
  rw [markdown, ← @succeeds_healthLines reprFloat]
  refine succeeds_bind_iff fun health _ => ?_
  have hmounts : (∀ mount ∈ storage, mount.usePercent ≠ none) ↔
      Succeeds (storage.mapM mountLine) :=
    (forall₂_congr fun _ _ => succeeds_mountLine.symm).trans (succeeds_mapM storage).symm
  rw [hmounts]
  refine succeeds_bind_iff fun mounts _ => ?_
  rw [succeeds_bind_pure_iff, succeeds_mapM]
  exact forall₂_congr fun _ _ => succeeds_radioLine

/-- What the extraction and the markdown of a context need. -/
structure Extractable (snap : DeviceSnapshot R) : Prop where
  uptime : ∀ cpu ∈ snap.cpu, ∃ q, cpu.uptimeSeconds = .finite q
  cores : ∀ cpu ∈ snap.cpu, 0 < cpu.cores → DigitsFit cpu.cores
  share : ∀ m ∈ snap.memory, m.totalKb ≠ 0 → m.usedKb.natAbs < limit * m.totalKb.natAbs
  ram : ∀ cpu ∈ snap.cpu, 0 < cpu.cores → ∀ m ∈ snap.memory, KbFits m.usedKb ∧ KbFits m.totalKb
  bytes : ∀ mount ∈ snap.storage, BytesFit mount.totalBytes ∧ BytesFit mount.usedBytes
  percent : ∀ mount ∈ snap.storage, mount.usePercent ≠ none
  radios : ∀ radio ∈ snap.radios,
    (∀ n ∈ radio.channel, DigitsFit n) ∧ DigitsFit radio.stationCount

theorem kb_memorySummary {memory : MemoryInfo} {summary : MemorySummary}
    (h : memorySummary memory = .ok summary) :
    (summary.usedKb, summary.totalKb) = (memory.usedKb, memory.totalKb) := by
  rw [memorySummary] at h
  cases hused : usedPercent memory with
  | error e =>
    rw [hused] at h
    cases h
  | ok x =>
    rw [hused] at h
    obtain rfl := Except.ok.inj h
    rfl

theorem usePercent_storageSummary {mount : StorageMount} {summary : StorageSummary}
    (h : storageSummary mount = .ok summary) : summary.usePercent = mount.usePercent := by
  rw [storageSummary] at h
  cases htotal : gigabytes mount.totalBytes with
  | error e =>
    rw [htotal] at h
    cases h
  | ok total =>
    cases hused : gigabytes mount.usedBytes with
    | error e =>
      rw [htotal, hused] at h
      cases h
    | ok used =>
      rw [htotal, hused] at h
      obtain rfl := Except.ok.inj h
      rfl

theorem kbFits_iff {memory : Option MemoryInfo} {summary : Option MemorySummary}
    (h : (summary.map fun m => (m.usedKb, m.totalKb)) =
      memory.map fun m => (m.usedKb, m.totalKb)) :
    (∀ m ∈ summary, KbFits m.usedKb ∧ KbFits m.totalKb) ↔
      ∀ m ∈ memory, KbFits m.usedKb ∧ KbFits m.totalKb := by
  have hpairs : (∀ kb ∈ summary.map fun m => (m.usedKb, m.totalKb), KbFits kb.1 ∧ KbFits kb.2) ↔
      ∀ kb ∈ memory.map fun m => (m.usedKb, m.totalKb), KbFits kb.1 ∧ KbFits kb.2 := by
    rw [h]
  simpa only [Option.forall_mem_map] using hpairs

/-- The markdown of a context, by the snapshot. -/
theorem succeeds_markdown_of {reprFloat : PyFloat → Text} {snap : DeviceSnapshot R}
    {info : RouterInfo} {memory : Option MemorySummary} {storage : List StorageSummary}
    {network : List NetworkSummary} (hmemory : whenSome memorySummary snap.memory = .ok memory)
    (hstorage : snap.storage.mapM storageSummary = .ok storage) :
    Succeeds (markdown reprFloat info (systemLoad snap.cpu) memory storage network
        (wifiSummary snap.radios)) ↔
      (∀ cpu ∈ snap.cpu, 0 < cpu.cores → DigitsFit cpu.cores ∧
        ∀ m ∈ snap.memory, KbFits m.usedKb ∧ KbFits m.totalKb) ∧
      (∀ mount ∈ snap.storage, mount.usePercent ≠ none) ∧
      ∀ radio ∈ snap.radios,
        (∀ n ∈ radio.channel, DigitsFit n) ∧ DigitsFit radio.stationCount := by
  have hkb := map_of_whenSome_ok (fun _ _ => kb_memorySummary) hmemory
  have hpercent := map_of_mapM_ok (fun _ _ => usePercent_storageSummary) hstorage
  rw [succeeds_markdown]
  refine and_congr ?_ (and_congr ?_ List.forall_mem_map)
  · rw [kbFits_iff hkb]
    cases snap.cpu with
    | none => exact iff_of_true (fun h => absurd h (by decide)) fun cpu hcpu => by cases hcpu
    | some cpu => exact ⟨fun h other hother => Option.some.inj hother ▸ h, fun h => h cpu rfl⟩
  · have hpercents : (∀ x ∈ storage.map (·.usePercent), x ≠ none) ↔
        ∀ x ∈ snap.storage.map (·.usePercent), x ≠ none := by
      rw [hpercent]
    simpa only [List.forall_mem_map] using hpercents

/-- **A context is built if and only if the snapshot can be extracted and has a JSON form.** -/
theorem succeeds_buildContext (externals : Externals R J) (snap : DeviceSnapshot R) :
    Succeeds (buildContext externals (some ⟨some snap⟩)) ↔
      Extractable snap ∧ Succeeds (externals.modelDump snap) := by
  have hbind : Succeeds (buildContext externals (some ⟨some snap⟩)) ↔
      Succeeds (routerInfo snap) ∧ Succeeds (whenSome memorySummary snap.memory) ∧
        Succeeds (snap.storage.mapM storageSummary) ∧
        ((∀ cpu ∈ snap.cpu, 0 < cpu.cores → DigitsFit cpu.cores ∧
            ∀ m ∈ snap.memory, KbFits m.usedKb ∧ KbFits m.totalKb) ∧
          (∀ mount ∈ snap.storage, mount.usePercent ≠ none) ∧
          ∀ radio ∈ snap.radios,
            (∀ n ∈ radio.channel, DigitsFit n) ∧ DigitsFit radio.stationCount) ∧
        Succeeds (externals.modelDump snap) := by
    refine succeeds_bind_iff fun info _ => succeeds_bind_iff fun memory hmemory =>
      succeeds_bind_iff fun storage hstorage => ?_
    rw [← succeeds_markdown_of hmemory hstorage]
    refine succeeds_bind_iff fun text _ => ?_
    exact succeeds_bind_pure_iff _
  rw [hbind, succeeds_routerInfo, succeeds_whenSome, succeeds_mapM]
  have hshare : (∀ m ∈ snap.memory, Succeeds (memorySummary m)) ↔
      ∀ m ∈ snap.memory, m.totalKb ≠ 0 → m.usedKb.natAbs < limit * m.totalKb.natAbs :=
    forall₂_congr fun _ _ => succeeds_memorySummary
  have hbytes : (∀ mount ∈ snap.storage, Succeeds (storageSummary mount)) ↔
      ∀ mount ∈ snap.storage, BytesFit mount.totalBytes ∧ BytesFit mount.usedBytes :=
    forall₂_congr fun _ _ => succeeds_storageSummary
  rw [hshare, hbytes]
  constructor
  · intro ⟨huptime, hshare, hbytes, ⟨hcpu, hpercent, hradios⟩, hdump⟩
    exact ⟨⟨huptime, fun cpu hmem hcores => (hcpu cpu hmem hcores).1, hshare,
      fun cpu hmem hcores => (hcpu cpu hmem hcores).2, hbytes, hpercent, hradios⟩, hdump⟩
  · intro ⟨h, hdump⟩
    exact ⟨h.uptime, h.share, h.bytes, ⟨fun cpu hmem hcores =>
      ⟨h.cores cpu hmem hcores, h.ram cpu hmem hcores⟩, h.percent, h.radios⟩, hdump⟩

end OpenWrtCopilot.Ports.RouterContext
