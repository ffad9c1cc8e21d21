import OpenWrtCopilot.Ports.Snapshot
import OpenWrtCopilot.Ports.SnapshotService

/-!
# Polls of a router

Ports `_collect_once` with what it calls, and one round of `_run`: a transport is
opened, the collectors are run through it, and a frame is built and published.  A
failed command is swallowed by `ctx.sh` or becomes an entry of `errors`; only an
exception of the transport or of `build_snapshot` itself makes the frame say that the
router is not connected.

A poll runs here without interruption.  Each published frame is kept with the commands
of its collection and with the last good snapshot before it.

## Main results

* `honest_iff` — frames say `connected` only after a command succeeded, and keep the
  last good snapshot otherwise, exactly in the runs in which no collection through an
  open transport goes without a single answer.
* `lost_router_connected` — a router that is lost after the transport was opened.
-/

namespace OpenWrtCopilot.Ports.SnapshotPolls

open Verified
open Verified.PyText
open Ports.CollectorContext
open Ports.Snapshot
open Ports.SnapshotService

/-! ## Collections -/

variable {M : Models} {σ : Type}

/-- What does not change from poll to poll. -/
structure Setup (M : Models) where
  lib : Libraries
  /-- `select_collectors(config)`. -/
  collectors : List (Collector M)
  /-- `build_simulated_snapshot()`. -/
  simulated : DeviceSnapshot M
  /-- `settings.router_device_host`. -/
  settingsHost : Text

/-- What a poll meets: whether a transport can be made, and how the router answers the
commands that are sent through it. -/
structure Round (σ : Type) where
  opened : Except Text σ
  answer : Text → σ → Except Text Text × σ
  now : Nat

/-- The commands of a collection, with their answers. -/
abbrev Commands := List (Text × Except Text Text)

/-- Some command succeeded. -/
def Answered (commands : Commands) : Prop := ∃ entry ∈ commands, entry.2.isOk = true

instance (commands : Commands) : Decidable (Answered commands) := by
  unfold Answered
  infer_instance

/-- The device the collection is made for. -/
def deviceOf (s : Service (DeviceSnapshot M)) : Text :=
  (s.connection.map (·.device)).getD s.deviceId

/-- What `_collect_once` tells `build_snapshot` about it. -/
def identityOf (setup : Setup M) (s : Service (DeviceSnapshot M)) (target : Origin) (now : Nat) :
    Identity :=
  let host := (s.connection.map (·.host)).getD setup.settingsHost
  { collectedAt := now
    deviceId :=
      if deviceOf s ≠ [] then deviceOf s else if host ≠ [] then host else "unconfigured".toList
    transport := if target = .onDevice then "local".toList else "ssh".toList
    host := host }

/-- The collection of a poll: what `build_snapshot` returns or raises, or what making
the transport raises. -/
def collect (setup : Setup M) (s : Service (DeviceSnapshot M)) (target : Origin)
    (round : Round σ) : Except Text (DeviceSnapshot M) × Commands :=
  match round.opened with
  | .error e => (.error e, [])
  | .ok device =>
      let (result, m) :=
        (buildSnapshot setup.lib setup.collectors (identityOf setup s target round.now)).exec
          round.answer { device := device, scratch := {} }
      (result, m.log)

/-! ## Polls -/

/-- A published frame, with the commands of the collection it comes from, if there was
one, and the last good snapshot before it. -/
structure Report (M : Models) where
  update : DashboardUpdate (DeviceSnapshot M)
  commands : Option Commands
  good : Option (Collected (DeviceSnapshot M))

structure Polling (M : Models) where
  service : Service (DeviceSnapshot M)
  /-- The snapshot of the last collection that succeeded. -/
  good : Option (Collected (DeviceSnapshot M)) := none
  published : List (Report M) := []

/-- How a poll's collection ends, as an event of the service. -/
def pollEvent (setup : Setup M) (round : Round σ) (s : Service (DeviceSnapshot M)) :
    PollEvent (DeviceSnapshot M) × Option Commands :=
  match s.origin with
  | none => (.report, none)
  | some .simulated => (.collect setup.simulated, none)
  | some target =>
      match collect setup s target round with
      | (.ok snapshot, commands) => (.collect snapshot, some commands)
      | (.error e, commands) => (.raise e, some commands)

/-- The frame that is made of it. -/
def frameOf (s : Service (DeviceSnapshot M)) :
    PollEvent (DeviceSnapshot M) → DashboardUpdate (DeviceSnapshot M)
  | .collect snapshot =>
      match s.origin with
      | some target =>
          s.frame true (some target.source) (some (deviceOf s)) none (some ⟨target, snapshot⟩)
      | none => s.frame false none none none none
  | .raise e => s.frame false none none (some e) none
  | _ => s.frame false none none (some "No router configured".toList) none

/-- The last good snapshot after a collection: its own if a command succeeded, or if it
is the simulated one. -/
def goodAfter (good : Option (Collected (DeviceSnapshot M)))
    (update : DashboardUpdate (DeviceSnapshot M)) :
    PollEvent (DeviceSnapshot M) → Option Commands → Option (Collected (DeviceSnapshot M))
  | .collect _, none => update.snapshot
  | .collect _, some commands => if Answered commands then update.snapshot else good
  | _, _ => good

/-- One round of `_run`. -/
def poll (setup : Setup M) (round : Round σ) (p : Polling M) : Polling M :=
  let (event, commands) := pollEvent setup round p.service
  let update := frameOf p.service event
  { service := (p.service.keep update).publish update
    good := goodAfter p.good update event commands
    published := { update := update, commands := commands, good := p.good } :: p.published }

/-- A poll, as a step of a run. -/
def pollStep (setup : Setup M) (round : Round σ) (p : Polling M) : Option (Polling M) :=
  some (poll setup round p)

/-! ## A poll of the service -/

section Uninterrupted

variable {s : Service (DeviceSnapshot M)} {i : Nat}

/-- The events that a collection can end with. -/
def Ends (s : Service (DeviceSnapshot M)) : PollEvent (DeviceSnapshot M) → Prop
  | .collect _ | .raise _ => s.origin ≠ none
  | .report => s.origin = none
  | _ => False

theorem ends_pollEvent (setup : Setup M) (round : Round σ) (s : Service (DeviceSnapshot M)) :
    Ends s (pollEvent setup round s).1 := by
  rw [pollEvent]
  split
  · next horigin => exact horigin
  · next horigin => exact Option.ne_none_iff_exists'.mpr ⟨_, horigin⟩
  · next target _ horigin =>
      have hsome : s.origin ≠ none := Option.ne_none_iff_exists'.mpr ⟨target, horigin⟩
      split
      · exact hsome
      · exact hsome

end Uninterrupted

/-! ## Honest frames -/

/-- A frame of a collection says that the router is connected only if some command
succeeded, and otherwise shows the last good snapshot. -/
def Report.Honest (r : Report M) : Prop :=
  ∀ commands, r.commands = some commands →
    (r.update.connected = true → Answered commands) ∧
      (¬ Answered commands → r.update.connected = false ∧ r.update.snapshot = r.good)

/-- If the transport is open and `build_snapshot` does not raise, some command of the
collection succeeded. -/
def Reached (setup : Setup M) (p : Polling M) (round : Round σ) : Prop :=
  match pollEvent setup round p.service with
  | (.collect _, some commands) => Answered commands
  | _ => True

instance (setup : Setup M) (p : Polling M) (round : Round σ) :
    Decidable (Reached setup p round) := by
  unfold Reached
  split <;> infer_instance

/-- The latest frame shows the last good snapshot, and all frames were honest. -/
structure PollInv (p : Polling M) : Prop where
  good : p.service.latest.bind (·.snapshot) = p.good
  honest : ∀ r ∈ p.published, r.Honest

/-- A frame without a snapshot of its own shows the last good one. -/
theorem PollInv.frame {p : Polling M} (h : PollInv p) (source : Option Source)
    (deviceId error : Option Text) :
    (p.service.frame false source deviceId error none).snapshot = p.good :=
  h.good

/-- The frame of a round becomes the latest one, with what it says about the last good
snapshot. -/
theorem PollInv.publish {p : Polling M} (h : PollInv p)
    {update : DashboardUpdate (DeviceSnapshot M)} {commands : Option Commands}
    {good : Option (Collected (DeviceSnapshot M))} (hgood : update.snapshot = good)
    (hhonest : Report.Honest ⟨update, commands, p.good⟩) :
    PollInv
      { service := (p.service.keep update).publish update
        good := good
        published := { update := update, commands := commands, good := p.good } ::
          p.published } := by
  refine ⟨hgood, ?_⟩
  intro r hr
  rcases List.mem_cons.mp hr with rfl | hr
  · exact hhonest
  · exact h.honest r hr

theorem frameOf_collect_connected {s : Service (DeviceSnapshot M)} (h : s.origin ≠ none)
    (snapshot : DeviceSnapshot M) : (frameOf s (.collect snapshot)).connected = true := by
  obtain ⟨target, horigin⟩ := Option.ne_none_iff_exists'.mp h
  rw [frameOf, horigin]
  rfl

theorem PollInv.poll {setup : Setup M} {p : Polling M} {round : Round σ} (h : PollInv p)
    (hreached : Reached setup p round) : PollInv (poll setup round p) := by
  have hends := ends_pollEvent setup round p.service
  unfold SnapshotPolls.poll
  unfold Reached at hreached
  generalize pollEvent setup round p.service = result at hreached hends
  obtain ⟨event, commands⟩ := result
  cases event with
  | collect snapshot =>
    cases commands with
    | none => exact h.publish rfl nofun
    | some commands =>
      have hgood : goodAfter p.good (frameOf p.service (.collect snapshot)) (.collect snapshot)
          (some commands) = (frameOf p.service (.collect snapshot)).snapshot := if_pos hreached
      refine h.publish hgood.symm ?_
      intro sent hsent
      obtain rfl := Option.some.inj hsent
      exact ⟨fun _ => hreached, fun hnone => absurd hreached hnone⟩
  | raise e =>
    refine h.publish (h.frame _ _ _) ?_
    intro sent hsent
    exact ⟨nofun, fun _ => ⟨rfl, h.frame _ _ _⟩⟩
  | report =>
    refine h.publish (h.frame _ _ _) ?_
    intro sent hsent
    exact ⟨nofun, fun _ => ⟨rfl, h.frame _ _ _⟩⟩
  | _ => exact hends.elim

theorem not_honest_poll {setup : Setup M} {p : Polling M} {round : Round σ}
    (hreached : ¬ Reached setup p round) : ¬ ∀ r ∈ (poll setup round p).published, r.Honest := by
  intro hall
  have hends := ends_pollEvent setup round p.service
  unfold SnapshotPolls.poll at hall
  unfold Reached at hreached
  generalize pollEvent setup round p.service = result at hreached hends hall
  obtain ⟨event, commands⟩ := result
  cases event with
  | collect snapshot =>
    cases commands with
    | none => exact hreached trivial
    | some commands =>
      have hhonest := hall _ List.mem_cons_self commands rfl
      exact hreached (hhonest.1 (frameOf_collect_connected hends snapshot))
  | _ => exact hreached trivial

/-! ## Runs of polls -/

/-- A service that has polled nothing yet. -/
def Polling.start (connection : Option RouterConnection) (source : Source) (deviceId : Text) :
    Polling M where
  service := create connection source deviceId

/--
**Along any sequence of polls, frames say `connected` only after a command succeeded and
keep the last good snapshot otherwise, exactly if no collection through an open transport
goes without a single answer.**
-/
theorem honest_iff (setup : Setup M) (connection : Option RouterConnection) (source : Source)
    (deviceId : Text) (rounds : List (Round σ)) :
    Runs.Always (pollStep setup) (fun p => ∀ r ∈ p.published, r.Honest) rounds
        (Polling.start connection source deviceId) ↔
      Runs.Meets (pollStep setup) (Reached setup) rounds
        (Polling.start connection source deviceId) := by
  have hstart : PollInv (Polling.start (M := M) connection source deviceId) :=
    ⟨rfl, fun _ hr => absurd hr List.not_mem_nil⟩
  obtain ⟨p, hrun⟩ : ∃ p, Runs.run (pollStep setup) rounds
      (Polling.start connection source deviceId) = some p :=
    Runs.run_total (fun round p => ⟨_, rfl⟩) rounds _
  refine Runs.always_iff_meets (I := PollInv) (fun _ h => h.honest) ?_ ?_ hstart hrun
  · intro p round p' h hreached hstep
    obtain rfl := Option.some.inj hstep
    exact h.poll hreached
  · intro p round p' h hreached hstep
    obtain rfl := Option.some.inj hstep
    exact not_honest_poll hreached

/-! ## A router that is lost -/

/-- `_parse_arp`. -/
def parseArp (text : Text) : List ClientMedia.ArpEntry :=
  ((splitlines text).drop 1).filterMap fun line =>
    match words line with
    | ip :: _ :: flags :: mac :: _ :: device :: _ =>
        let digits := ip.filter (· ≠ '.')
        if digits = [] ∨ ¬ digits.all isDigit then none
        else
          some
            { ip := ip
              mac := mac
              interface := device
              state :=
                if flags = "0x2".toList then "complete".toList
                else if flags = "0x0".toList then "incomplete".toList
                else flags }
    | _ => none

/-- `ArpCollector`. -/
def arpCollector : Collector M where
  part := .builtin .arp
  collect := do
    let table ← sh "cat /proc/net/arp"
    pure (parseArp table)

/-- A service that collects the ARP table. -/
def arpSetup : Setup plainModels where
  lib := { decodeBoard := fun _ => none, validationError := fun _ => [] }
  collectors := [arpCollector]
  simulated :=
    assemble { collectedAt := 0, deviceId := [], transport := [], host := [] } {} {} none none
  settingsHost := []

/-- A poll whose transport is opened, and whose commands all end in this way. -/
def roundOf (result : Except Text Text) : Round Unit where
  opened := .ok ()
  answer _ device := (result, device)
  now := 0

/-- A router that answers is shown as connected. -/
theorem answering_router_honest :
    Runs.Always (pollStep arpSetup) (fun p => ∀ r ∈ p.published, r.Honest)
      [roundOf (.ok []), roundOf (.ok [])]
      (Polling.start (some homeRouter) .ssh "192.168.1.1") :=
  (honest_iff arpSetup (some homeRouter) .ssh "192.168.1.1" _).mpr (by decide)

/-- A router that is lost after the transport was opened is still shown as connected, and
an empty snapshot takes the place of the last good one. -/
theorem lost_router_connected :
    ¬ ∀ (setup : Setup plainModels) (connection : Option RouterConnection) (source : Source)
      (deviceId : Text) (rounds : List (Round Unit)) (p : Polling plainModels),
      Runs.run (pollStep setup) rounds (Polling.start connection source deviceId) = some p →
        ∀ r ∈ p.published, r.Honest := by
  intro h
  have hhonest := h arpSetup (some homeRouter) .ssh "192.168.1.1"
    [roundOf (.ok []), roundOf (.error "connection lost".toList)] _ rfl _ List.mem_cons_self _ rfl
  exact absurd (hhonest.1 rfl) (by decide)

end OpenWrtCopilot.Ports.SnapshotPolls
