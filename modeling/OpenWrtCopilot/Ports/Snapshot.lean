import Mathlib.Logic.Function.Basic
import OpenWrtCopilot.Ports.NetworkCollector

/-!
# The snapshot assembler

Ports `build_snapshot`: collectors run one after the other, their exceptions become
entries of `errors`, and the sections are assembled from what they returned, from the
scratch state they share and from a last call for the identity of the router.

A collector is any program over the commands of the router.  What it returns is of
the type of its section; sections whose content the assembler does not read have
types of their own.

## Main results

* `exec_collectAll` — what the loop makes of the outcomes.
* `buildSnapshot_iff` — the snapshot is built, with one error for each collector that
  failed and the value of each that did not, exactly if the network status in the
  scratch state is well formed and no section was collected twice with different
  values.
* `numeric_gateway_raises` — a collection that is lost for one field.
-/

namespace OpenWrtCopilot.Ports.Snapshot

open Verified
open Verified.PyText
open Ports.ClientMedia
open Ports.CollectorContext
open Ports.NetworkCollector

/-! ## Sections -/

/-- The models that the assembler passes on, with the values it takes where a section
is missing. -/
structure Models where
  Cpu : Type
  Memory : Type
  Temperature : Type
  Storage : Type
  Firewall : Type
  Radio : Type
  Ssid : Type
  Route : Type
  Tunnel : Type
  Dhcp : Type
  Package : Type
  Service : Type
  Log : Type
  /-- `FirewallInfo()`. -/
  firewall : Firewall
  /-- `DhcpInfo()`. -/
  dhcp : Dhcp
  /-- `LogInfo()`. -/
  log : Log

structure KernelInfo where
  kernel : Text := []
  release : Text := []
  hostname : Text := []
  model : Text := []
  architecture : Text := []
  board : Text := []
  system : Text := []
  version : Text := []
  distribution : Option Text := none
  releaseVersion : Option Text := none
  revision : Option Text := none
  target : Option Text := none
  releaseDescription : Option Text := none
  buildDate : Option Text := none

structure WifiInfo (M : Models) where
  radios : List M.Radio := []
  networks : List M.Ssid := []
  clients : List WifiClient := []

/-- The names of `ALL_COLLECTORS`. -/
inductive Builtin
  | cpu
  | memory
  | temperature
  | storage
  | network
  | firewall
  | wifi
  | clients
  | arp
  | neighbors
  | routing
  | vpn
  | dhcp
  | packages
  | kernel
  | services
  | logs
  deriving DecidableEq

def Builtin.name : Builtin → Text
  | .cpu => "cpu"
  | .memory => "memory"
  | .temperature => "temperature"
  | .storage => "storage"
  | .network => "network"
  | .firewall => "firewall"
  | .wifi => "wifi"
  | .clients => "clients"
  | .arp => "arp"
  | .neighbors => "neighbors"
  | .routing => "routing"
  | .vpn => "vpn"
  | .dhcp => "dhcp"
  | .packages => "packages"
  | .kernel => "kernel"
  | .services => "services"
  | .logs => "logs"

/-- `COLLECTOR_NAMES`. -/
def Builtin.all : List Builtin :=
  [.cpu, .memory, .temperature, .storage, .network, .firewall, .wifi, .clients, .arp, .neighbors,
    .routing, .vpn, .dhcp, .packages, .kernel, .services, .logs]

/-- What a collector is named after: a section of the snapshot, or something else. -/
inductive Section
  | builtin (b : Builtin)
  | other (name : Text) (fresh : name ∉ Builtin.all.map Builtin.name)
  deriving DecidableEq

def Section.name : Section → Text
  | .builtin b => b.name
  | .other name _ => name

/-- The type of what a collector returns. -/
def Builtin.Value (M : Models) : Builtin → Type
  | .cpu => M.Cpu
  | .memory => M.Memory
  | .temperature => List M.Temperature
  | .storage => List M.Storage
  | .network => List NetworkInterface
  | .firewall => M.Firewall
  | .wifi => WifiInfo M
  | .clients => List DhcpLease
  | .arp => List ArpEntry
  | .neighbors => List NeighborEntry
  | .routing => List M.Route
  | .vpn => List M.Tunnel
  | .dhcp => M.Dhcp
  | .packages => List M.Package
  | .kernel => KernelInfo
  | .services => List M.Service
  | .logs => M.Log

/-- What a collector of no section returns is not looked at. -/
def Section.Value (M : Models) : Section → Type
  | .builtin b => b.Value M
  | .other _ _ => Unit

/-! ## Collectors -/

structure Collector (M : Models) where
  part : Section
  collect : Collecting (part.Value M)

def Collector.name {M : Models} (c : Collector M) : Text := c.part.name

/-! ## The loop -/

structure CollectError where
  collector : Text
  error : Text
  deriving DecidableEq

/-- How a collector ended. -/
structure Outcome (M : Models) where
  part : Section
  result : Except Text (part.Value M)

/-- The entry of `errors`, for a collector that failed. -/
def Outcome.error? {M : Models} (o : Outcome M) : Option CollectError :=
  match o.result with
  | .ok _ => none
  | .error e => some { collector := o.part.name, error := e }

/-- `results`, `errors` and `ran`. -/
structure Gathered (M : Models) where
  results : (s : Section) → Option (s.Value M) := fun _ => none
  errors : List CollectError := []
  ran : List Text := []

/-- One round of the loop, after the collector has ended. -/
def Gathered.add {M : Models} (g : Gathered M) (o : Outcome M) : Gathered M :=
  match o.result with
  | .ok value =>
      { g with
        ran := g.ran ++ [o.part.name]
        results := Function.update g.results o.part (some value) }
  | .error e =>
      { g with
        ran := g.ran ++ [o.part.name]
        errors := g.errors ++ [{ collector := o.part.name, error := e }] }

def collectAll {M : Models} : List (Collector M) → Gathered M → Collecting (Gathered M)
  | [], g => pure g
  | c :: cs, g => do
      let result ← c.collect.outcome
      collectAll cs (g.add ⟨c.part, result⟩)

/-! ## The sections after the loop -/

/-- The fields of `ubus call system board`, each as `str(board.get(key) or "")`. -/
structure Board where
  kernel : Text
  release : Text
  hostname : Text
  model : Text
  architecture : Text
  boardName : Text
  system : Text
  version : Text

/-- The JSON decoder for the board, and the message of the model's validation for the
fields that fail it. -/
structure Libraries where
  decodeBoard : Text → Option Board
  validationError : List Text → Text

/-- The kernel section, with the fallback for a collector that failed or did not run. -/
def identify {M : Models} (lib : Libraries) (results : (s : Section) → Option (s.Value M)) :
    Collecting KernelInfo :=
  match results (.builtin .kernel) with
  | some kernel => pure kernel
  | none => do
      let result ← (ubusCall lib.decodeBoard "system" "board").outcome
      match result with
      | .ok board =>
          pure
            { kernel := board.kernel
              release := board.release
              hostname := board.hostname
              model := board.model
              architecture := board.architecture
              board := board.boardName
              system := board.system
              version := board.version }
      | .error _ => pure {}

structure NetworkStatus where
  gateway : Option Text
  dns : List Text
  wanInterface : Option Text

/-- `NetworkStatus(...)`, which raises with the fields that are neither texts nor
missing. -/
def networkStatus (raw : RawStatus) : Except (List Text) NetworkStatus :=
  match raw.gateway.optionalText, raw.wanInterface.optionalText with
  | some gateway, some wanInterface =>
      .ok { gateway := gateway, dns := raw.dns, wanInterface := wanInterface }
  | some _, none => .error ["wan_interface"]
  | none, some _ => .error ["gateway"]
  | none, none => .error ["gateway", "wan_interface"]

/-- What `build_snapshot` is told about the device, and the time. -/
structure Identity where
  collectedAt : Nat
  deviceId : Text
  transport : Text
  host : Text

structure SnapshotMeta extends Identity where
  board : Text
  model : Text
  firmware : Text
  collectorsRun : List Text

structure DeviceSnapshot (M : Models) where
  metadata : SnapshotMeta
  cpu : Option M.Cpu
  memory : Option M.Memory
  temperature : List M.Temperature
  storage : List M.Storage
  network : List NetworkInterface
  networkStatus : Option NetworkStatus
  firewall : M.Firewall
  wifi : WifiInfo M
  clients : List DhcpLease
  arp : List ArpEntry
  neighbors : List NeighborEntry
  clientMedia : PyDict.Dict Text Medium
  routing : List M.Route
  vpn : List M.Tunnel
  dhcp : M.Dhcp
  packages : List M.Package
  services : List M.Service
  kernel : KernelInfo
  logs : M.Log
  errors : List CollectError

/-- The snapshot of what was gathered. -/
def assemble {M : Models} (identity : Identity) (g : Gathered M) (kernel : KernelInfo)
    (status : Option NetworkStatus) (wirelessInterfaces : Option (List Text)) :
    DeviceSnapshot M :=
  let get (b : Builtin) : Option (b.Value M) := g.results (.builtin b)
  let wifi : Option (WifiInfo M) := get .wifi
  { metadata :=
      { identity with
        board := kernel.board
        model := kernel.model
        firmware := kernel.release
        collectorsRun := g.ran }
    cpu := get .cpu
    memory := get .memory
    temperature := (get .temperature).getD []
    storage := (get .storage).getD []
    network := (get .network).getD []
    networkStatus := status
    firewall := (get .firewall).getD M.firewall
    wifi := wifi.getD {}
    clients := (get .clients).getD []
    arp := (get .arp).getD []
    neighbors := (get .neighbors).getD []
    clientMedia :=
      classifyClientMedia (get .clients) (get .arp) (get .neighbors) (wifi.map (·.clients))
        (get .network) wirelessInterfaces
    routing := (get .routing).getD []
    vpn := (get .vpn).getD []
    dhcp := (get .dhcp).getD M.dhcp
    packages := (get .packages).getD []
    services := (get .services).getD []
    kernel := kernel
    logs := (get .logs).getD M.log
    errors := g.errors }

/-- What follows on the last command: the network status, from the scratch state, and
the snapshot. -/
def finish {M : Models} (lib : Libraries) (identity : Identity) (g : Gathered M)
    (kernel : KernelInfo) (state : Scratch) : Except Text (DeviceSnapshot M) :=
  match state.networkStatus.map networkStatus with
  | some (.error fields) => .error (lib.validationError fields)
  | some (.ok status) => .ok (assemble identity g kernel (some status) state.wirelessInterfaces)
  | none => .ok (assemble identity g kernel none state.wirelessInterfaces)

/-- `build_snapshot`. -/
def buildSnapshot {M : Models} (lib : Libraries) (collectors : List (Collector M))
    (identity : Identity) : Collecting (DeviceSnapshot M) := do
  let g ← collectAll collectors {}
  let kernel ← identify lib g.results
  let state ← Program.scratch
  match finish lib identity g kernel state with
  | .ok snapshot => pure snapshot
  | .error e => .raise e

/-- The section a collector of this name contributes. -/
def DeviceSnapshot.part {M : Models} (snapshot : DeviceSnapshot M) :
    (b : Builtin) → Option (b.Value M)
  | .cpu => snapshot.cpu
  | .memory => snapshot.memory
  | .temperature => some snapshot.temperature
  | .storage => some snapshot.storage
  | .network => some snapshot.network
  | .firewall => some snapshot.firewall
  | .wifi => some snapshot.wifi
  | .clients => some snapshot.clients
  | .arp => some snapshot.arp
  | .neighbors => some snapshot.neighbors
  | .routing => some snapshot.routing
  | .vpn => some snapshot.vpn
  | .dhcp => some snapshot.dhcp
  | .packages => some snapshot.packages
  | .kernel => some snapshot.kernel
  | .services => some snapshot.services
  | .logs => some snapshot.logs

/-- The snapshot has this value in the section of the collector, if there is one. -/
def DeviceSnapshot.Shows {M : Models} (snapshot : DeviceSnapshot M) :
    (s : Section) → s.Value M → Prop
  | .builtin b, value => snapshot.part b = some value
  | .other _ _, _ => True

/-! ## The loop and the sections -/

variable {M : Models} {D : Type} {answer : Text → D → Except Text Text × D}

/-- How the collectors end, one after the other. -/
def outcomes (answer : Text → D → Except Text Text × D) :
    List (Collector M) → Program.Machine Scratch Text Text Text D →
      List (Outcome M) × Program.Machine Scratch Text Text Text D
  | [], m => ([], m)
  | c :: cs, m =>
      let (result, m') := c.collect.exec answer m
      let (rest, m'') := outcomes answer cs m'
      (⟨c.part, result⟩ :: rest, m'')

theorem map_part_outcomes (collectors : List (Collector M))
    (m : Program.Machine Scratch Text Text Text D) :
    (outcomes answer collectors m).1.map (fun o => o.part.name) =
      collectors.map Collector.name := by
  induction collectors generalizing m with
  | nil => rfl
  | cons c cs ih => exact congrArg (c.name :: ·) (ih _)

/-- The loop ends with what the outcomes add up to, whatever they are. -/
theorem exec_collectAll (collectors : List (Collector M)) (g : Gathered M)
    (m : Program.Machine Scratch Text Text Text D) :
    (collectAll collectors g).exec answer m =
      (.ok ((outcomes answer collectors m).1.foldl Gathered.add g),
        (outcomes answer collectors m).2) := by
  induction collectors generalizing g m with
  | nil => rfl
  | cons c cs ih =>
    rw [collectAll, Program.exec_bind_of_ok (Program.exec_outcome c.collect m), ih]
    rfl

theorem ran_foldl_add (os : List (Outcome M)) (g : Gathered M) :
    (os.foldl Gathered.add g).ran = g.ran ++ os.map (fun o => o.part.name) := by
  induction os generalizing g with
  | nil => exact (List.append_nil _).symm
  | cons o os ih =>
    have hran : (g.add o).ran = g.ran ++ [o.part.name] := by
      unfold Gathered.add
      split <;> rfl
    rw [List.foldl_cons, ih, hran, List.append_assoc]
    rfl

theorem errors_foldl_add (os : List (Outcome M)) (g : Gathered M) :
    (os.foldl Gathered.add g).errors = g.errors ++ os.filterMap Outcome.error? := by
  induction os generalizing g with
  | nil => exact (List.append_nil _).symm
  | cons o os ih =>
    rw [List.foldl_cons, ih]
    cases hresult : o.result with
    | ok value =>
      have herror : o.error? = none := by rw [Outcome.error?, hresult]
      have hadd : (g.add o).errors = g.errors := by rw [Gathered.add, hresult]
      rw [hadd, List.filterMap_cons_none herror]
    | error e =>
      have herror : o.error? = some ⟨o.part.name, e⟩ := by rw [Outcome.error?, hresult]
      have hadd : (g.add o).errors = g.errors ++ [⟨o.part.name, e⟩] := by
        rw [Gathered.add, hresult]
      rw [hadd, List.filterMap_cons_some herror, List.append_assoc]
      rfl

theorem results_add_ok (g : Gathered M) (s : Section) (value : s.Value M) :
    (g.add ⟨s, .ok value⟩).results = Function.update g.results s (some value) := rfl

/-- A result is that of a collector. -/
theorem results_foldl_add_cases {os : List (Outcome M)} {g : Gathered M} {s : Section}
    {value : s.Value M} (h : (os.foldl Gathered.add g).results s = some value) :
    ⟨s, .ok value⟩ ∈ os ∨ g.results s = some value := by
  induction os generalizing g with
  | nil => exact Or.inr h
  | cons o os ih =>
    rcases ih h with hlater | hadded
    · exact Or.inl (List.mem_cons_of_mem _ hlater)
    · obtain ⟨part, result⟩ := o
      cases result with
      | error e => exact Or.inr hadded
      | ok first =>
        rw [results_add_ok] at hadded
        by_cases hpart : s = part
        · subst hpart
          rw [Function.update_self] at hadded
          obtain rfl := Option.some.inj hadded
          exact Or.inl List.mem_cons_self
        · rw [Function.update_of_ne hpart] at hadded
          exact Or.inr hadded

/-- A section that a collector returned has a result. -/
theorem results_foldl_add_isSome {os : List (Outcome M)} {g : Gathered M} {s : Section}
    (h : (∃ value, (⟨s, .ok value⟩ : Outcome M) ∈ os) ∨ (g.results s).isSome) :
    ((os.foldl Gathered.add g).results s).isSome := by
  induction os generalizing g with
  | nil => exact h.resolve_left fun ⟨_, hmem⟩ => List.not_mem_nil hmem
  | cons o os ih =>
    refine ih ?_
    obtain ⟨part, result⟩ := o
    rcases h with ⟨value, hmem⟩ | hsome
    · rcases List.mem_cons.mp hmem with heq | hmem
      · obtain ⟨rfl, hvalue⟩ := Outcome.mk.inj heq
        obtain rfl := eq_of_heq hvalue
        refine Or.inr ?_
        rw [results_add_ok, Function.update_self]
        rfl
      · exact Or.inl ⟨value, hmem⟩
    · cases result with
      | error e => exact Or.inr hsome
      | ok first =>
        refine Or.inr ?_
        rw [results_add_ok]
        by_cases hpart : s = part
        · subst hpart
          rw [Function.update_self]
          rfl
        · rw [Function.update_of_ne hpart]
          exact hsome

/-! ## Faithful snapshots -/

/-- The snapshot names all collectors, has one error for each that failed, and the value
of each that did not. -/
structure Faithful (collectors : List (Collector M)) (os : List (Outcome M))
    (snapshot : DeviceSnapshot M) : Prop where
  collectorsRun : snapshot.metadata.collectorsRun = collectors.map Collector.name
  errors : snapshot.errors = os.filterMap Outcome.error?
  sections : ∀ s value, (⟨s, .ok value⟩ : Outcome M) ∈ os → snapshot.Shows s value

/-- No section was collected twice with different values. -/
def Consistent (os : List (Outcome M)) : Prop :=
  ∀ (s : Section) (value value' : s.Value M), (⟨s, .ok value⟩ : Outcome M) ∈ os →
    (⟨s, .ok value'⟩ : Outcome M) ∈ os → value = value'

/-- The network status has a text or nothing where the model wants that. -/
def StatusValid (state : Scratch) : Prop :=
  ∀ raw, state.networkStatus = some raw → raw.gateway ≠ .other ∧ raw.wanInterface ≠ .other

theorem DeviceSnapshot.Shows.eq {snapshot : DeviceSnapshot M} {s : Section}
    {value value' : s.Value M} (h : snapshot.Shows s value) (h' : snapshot.Shows s value') :
    value = value' := by
  cases s with
  | builtin b => exact Option.some.inj (h.symm.trans h')
  | other name fresh => rfl

/-- The result of a collector, if its section was not collected with another value. -/
theorem results_foldl_add_of_mem {os : List (Outcome M)} (hconsistent : Consistent os)
    {s : Section} {value : s.Value M} (h : (⟨s, .ok value⟩ : Outcome M) ∈ os) :
    (os.foldl Gathered.add {}).results s = some value := by
  obtain ⟨found, hfound⟩ :=
    Option.isSome_iff_exists.mp (results_foldl_add_isSome (g := {}) (Or.inl ⟨value, h⟩))
  rcases results_foldl_add_cases hfound with hmem | hstart
  · rw [hfound, hconsistent s found value hmem h]
  · cases hstart

/-- The sections are the results, and the kernel is what was found for it. -/
theorem shows_assemble {g : Gathered M} {kernel : KernelInfo}
    (hkernel : ∀ k, g.results (.builtin .kernel) = some k → kernel = k) (identity : Identity)
    (status : Option NetworkStatus) (wirelessInterfaces : Option (List Text)) {s : Section}
    {value : s.Value M} (h : g.results s = some value) :
    (assemble identity g kernel status wirelessInterfaces).Shows s value := by
  cases s with
  | other name fresh => trivial
  | builtin b =>
    cases b with
    | cpu => exact h
    | memory => exact h
    | kernel => exact congrArg some (hkernel value h)
    | _ => exact congrArg some (congrArg (Option.getD · _) h)

/-! ## After the loop -/

/-- The kernel is always found, and is the collected one if there is one. -/
theorem exec_identify (lib : Libraries) (results : (s : Section) → Option (s.Value M))
    (m : Program.Machine Scratch Text Text Text D) :
    ∃ kernel m', (identify lib results).exec answer m = (.ok kernel, m') ∧
      m'.scratch = m.scratch ∧ ∀ k, results (.builtin .kernel) = some k → kernel = k := by
  unfold identify
  cases hkernel : results (.builtin .kernel) with
  | some kernel => exact ⟨kernel, m, rfl, rfl, fun k hk => Option.some.inj hk⟩
  | none =>
    have hcall := @scratch_ubusCall _ answer _ lib.decodeBoard "system" "board" m
    dsimp only
    rw [Program.exec_bind_of_ok (Program.exec_outcome _ m)]
    cases ((ubusCall lib.decodeBoard "system" "board").exec answer m).1 with
    | ok board => exact ⟨_, _, rfl, hcall, nofun⟩
    | error e => exact ⟨_, _, rfl, hcall, nofun⟩

theorem networkStatus_isOk_iff (raw : RawStatus) :
    (∃ status, networkStatus raw = .ok status) ↔
      raw.gateway ≠ .other ∧ raw.wanInterface ≠ .other := by
  obtain ⟨gateway, dns, wanInterface⟩ := raw
  cases gateway <;> cases wanInterface <;>
    simp [networkStatus, JsonValue.optionalText]

/-- A snapshot is built if the network status is valid, and it is assembled from what
was gathered. -/
theorem finish_eq_ok {lib : Libraries} {identity : Identity} {g : Gathered M}
    {kernel : KernelInfo} {state : Scratch} {snapshot : DeviceSnapshot M}
    (h : finish lib identity g kernel state = .ok snapshot) :
    StatusValid state ∧ ∃ status,
      snapshot = assemble identity g kernel status state.wirelessInterfaces := by
  rw [finish] at h
  cases hstatus : state.networkStatus with
  | none =>
    rw [hstatus] at h
    refine ⟨fun raw hraw => ?_, none, (Except.ok.inj h).symm⟩
    rw [hstatus] at hraw
    cases hraw
  | some raw =>
    rw [hstatus, Option.map_some] at h
    cases hvalid : networkStatus raw with
    | error fields =>
      rw [hvalid] at h
      cases h
    | ok status =>
      rw [hvalid] at h
      refine ⟨fun raw' hraw => ?_, some status, (Except.ok.inj h).symm⟩
      obtain rfl := Option.some.inj (hstatus.symm.trans hraw)
      exact (networkStatus_isOk_iff raw).mp ⟨status, hvalid⟩

theorem finish_of_valid {state : Scratch} (h : StatusValid state) (lib : Libraries)
    (identity : Identity) (g : Gathered M) (kernel : KernelInfo) :
    ∃ snapshot, finish lib identity g kernel state = .ok snapshot := by
  rw [finish]
  cases hstatus : state.networkStatus with
  | none => exact ⟨_, rfl⟩
  | some raw =>
    obtain ⟨status, hvalid⟩ := (networkStatus_isOk_iff raw).mpr (h raw hstatus)
    rw [Option.map_some, hvalid]
    exact ⟨_, rfl⟩

/-- After the loop a kernel is found, and the rest depends on the scratch state as the
collectors have left it. -/
theorem exec_buildSnapshot (lib : Libraries) (collectors : List (Collector M))
    (identity : Identity) (m : Program.Machine Scratch Text Text Text D) :
    ∃ kernel m',
      (∀ k, ((outcomes answer collectors m).1.foldl Gathered.add {}).results (.builtin .kernel) =
        some k → kernel = k) ∧
      (buildSnapshot lib collectors identity).exec answer m =
        (finish lib identity ((outcomes answer collectors m).1.foldl Gathered.add {}) kernel
          (outcomes answer collectors m).2.scratch, m') := by
  obtain ⟨kernel, m', hidentify, hscratch, hkernel⟩ := @exec_identify _ _ answer lib
    ((outcomes answer collectors m).1.foldl Gathered.add {}).results
    (outcomes answer collectors m).2
  refine ⟨kernel, m', hkernel, ?_⟩
  rw [buildSnapshot, Program.exec_bind_of_ok (exec_collectAll collectors {} m),
    Program.exec_bind_of_ok hidentify, Program.exec_bind_of_ok (Program.exec_scratch m'),
    hscratch]
  cases finish lib identity ((outcomes answer collectors m).1.foldl Gathered.add {}) kernel
    (outcomes answer collectors m).2.scratch with
  | ok snapshot => rfl
  | error e => rfl

/--
**Whatever the collectors do, a faithful snapshot is built exactly if the network status
they leave is valid and no section was collected twice with different values.**
-/
theorem buildSnapshot_iff (lib : Libraries) (answer : Text → D → Except Text Text × D)
    (collectors : List (Collector M)) (identity : Identity)
    (m : Program.Machine Scratch Text Text Text D) :
    (∃ snapshot m', (buildSnapshot lib collectors identity).exec answer m = (.ok snapshot, m') ∧
        Faithful collectors (outcomes answer collectors m).1 snapshot) ↔
      StatusValid (outcomes answer collectors m).2.scratch ∧
        Consistent (outcomes answer collectors m).1 := by
  obtain ⟨kernel, after, hkernel, hexec⟩ :=
    @exec_buildSnapshot _ _ answer lib collectors identity m
  constructor
  · intro ⟨snapshot, m', hbuilt, hfaithful⟩
    have hfinish := congrArg Prod.fst (hexec.symm.trans hbuilt)
    refine ⟨(finish_eq_ok hfinish).1, ?_⟩
    intro s value value' hvalue hvalue'
    exact (hfaithful.sections s value hvalue).eq (hfaithful.sections s value' hvalue')
  · intro ⟨hvalid, hconsistent⟩
    obtain ⟨snapshot, hfinish⟩ := finish_of_valid hvalid lib identity
      ((outcomes answer collectors m).1.foldl Gathered.add {}) kernel
    obtain ⟨-, status, rfl⟩ := finish_eq_ok hfinish
    refine ⟨_, after, hexec.trans (congrArg (·, after) hfinish), ?_, ?_, ?_⟩
    · exact (ran_foldl_add _ {}).trans (map_part_outcomes collectors m)
    · exact errors_foldl_add _ {}
    · intro s value hvalue
      exact shows_assemble hkernel identity _ _ (results_foldl_add_of_mem hconsistent hvalue)

/-! ## A status that is not valid -/

/-- Sections whose content plays no part. -/
def plainModels : Models where
  Cpu := Unit
  Memory := Unit
  Temperature := Unit
  Storage := Unit
  Firewall := Unit
  Radio := Unit
  Ssid := Unit
  Route := Unit
  Tunnel := Unit
  Dhcp := Unit
  Package := Unit
  Service := Unit
  Log := Unit
  firewall := ()
  dhcp := ()
  log := ()

/-- A router that answers one command only: it reports a default route with a number for
its `nexthop`. -/
def numericRouter (command : Text) (device : Unit) : Except Text Text × Unit :=
  (if command = "ubus call network.route dump".toList then
    .ok "\x7b\"route\": [\x7b\"target\": \"0.0.0.0\", \"family\": 4, \"nexthop\": 1\x7d]\x7d".toList
  else .error "Command failed".toList, device)

/-- What `json.loads` gives for that. -/
def numericRoute : UbusRoute :=
  { target := .text "0.0.0.0".toList
    family := some 4
    nexthop := .other
    dev := .null }

/-- The network collector, on that router. -/
def numericGateway : Collector plainModels where
  part := .builtin .network
  collect := collectBare fun _ => some [numericRoute]

def noLibraries : Libraries := { decodeBoard := fun _ => none, validationError := fun _ => [] }

def unnamed : Identity := { collectedAt := 0, deviceId := [], transport := "ssh", host := [] }

theorem numericGateway_not_ok :
    ((buildSnapshot noLibraries [numericGateway] unnamed).exec numericRouter
      { device := (), scratch := {} }).1.isOk = false := by
  decide +kernel

/-- The one field makes `build_snapshot` raise, and nothing of the collection is
left. -/
theorem numeric_gateway_raises :
    ¬ ∀ (lib : Libraries) (answer : Text → Unit → Except Text Text × Unit)
      (collectors : List (Collector plainModels)) (identity : Identity)
      (m : Program.Machine Scratch Text Text Text Unit),
      ∃ snapshot m', (buildSnapshot lib collectors identity).exec answer m =
          (.ok snapshot, m') ∧
        Faithful collectors (outcomes answer collectors m).1 snapshot := by
  intro h
  obtain ⟨snapshot, m', hbuilt, -⟩ := h noLibraries numericRouter [numericGateway] unnamed
    { device := (), scratch := {} }
  have hraises := numericGateway_not_ok
  rw [hbuilt] at hraises
  cases hraises

end OpenWrtCopilot.Ports.Snapshot
