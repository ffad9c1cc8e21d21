import OpenWrtCopilot.Verified.PyText
import OpenWrtCopilot.Verified.Runs

/-!
# The live snapshot service

Ports `SnapshotService`: the poll task, the worker thread it collects in, the
frames it builds, and the calls that attach and detach a router.  What runs on the
event loop is not interrupted, while a collection goes on in its thread and ends
at any moment between other steps.

A collected snapshot carries where it was collected from, which the service does
not record.

## Main results

* `current_iff` — the service holds and sends snapshots of the configured router
  only, exactly in the runs in which no collection ends and no frame is published
  after the connection it was made for was replaced.
* `removed_router_shown` — a run in which a router that was removed is shown again.
-/

namespace OpenWrtCopilot.Ports.SnapshotService

open Verified
open Verified.PyText

variable {D : Type}

/-! ## Connections and frames -/

structure RouterConnection where
  host : Text
  port : Nat := 22
  username : Text := "root"
  password : Option Text := none
  privateKey : Option Text := none
  deviceId : Option Text := none
  deriving DecidableEq

inductive Source
  | ssh
  /-- `"local"`: the machine the service runs on. -/
  | onDevice
  | simulated
  | none
  deriving DecidableEq

/-- What a collection reads from. -/
inductive Origin
  /-- The router named in the settings. -/
  | settings
  | onDevice
  | simulated
  | connection (connection : RouterConnection)
  deriving DecidableEq

/-- A snapshot with its origin. -/
structure Collected (D : Type) where
  origin : Origin
  data : D

/-- `DashboardUpdate`, less its type and time. -/
structure DashboardUpdate (D : Type) where
  sequence : Nat
  source : Source
  deviceId : Text
  connected : Bool
  error : Option Text := .none
  snapshot : Option (Collected D) := .none

/-! ## The service -/

/-- How far a round of the poll task has come. -/
inductive Stage (D : Type)
  /-- Handed to a worker thread. -/
  | submitted
  /-- The worker has read the configuration; `none` where no router is configured. -/
  | collecting (target : Option Origin) (deviceId : Text)
  /-- The worker has returned, the task not yet resumed. -/
  | finished (update : DashboardUpdate D)
  | raised (error : Text)
  | sleeping

structure PollTask (D : Type) where
  stage : Stage D := .submitted
  cancelled : Bool := false

structure Service (D : Type) where
  connection : Option RouterConnection
  source : Source
  deviceId : Text
  latest : Option (DashboardUpdate D) := .none
  sequence : Nat := 0
  /-- `_task`, as an index. -/
  task : Option Nat := .none
  tasks : List (PollTask D) := []
  /-- The queues of the subscribers, which hold one frame at most. -/
  subscribers : List (Option (DashboardUpdate D)) := []
  /-- Every frame that was put into a queue, with what was configured then. -/
  sent : List (DashboardUpdate D × Option Origin) := []

/-- What the present configuration collects from. -/
def Service.origin (s : Service D) : Option Origin :=
  match s.source, s.connection with
  | .none, _ => .none
  | .simulated, _ => some .simulated
  | .onDevice, _ => some .onDevice
  | .ssh, some connection => some (.connection connection)
  | .ssh, .none => some .settings

/-- `connection.device_id or connection.host`. -/
def RouterConnection.device (connection : RouterConnection) : Text :=
  match connection.deviceId with
  | some deviceId => if deviceId = [] then connection.host else deviceId
  | .none => connection.host

/-- `_frame`.  Without a snapshot, that of the latest frame is kept. -/
def Service.frame (s : Service D) (connected : Bool) (source : Option Source)
    (deviceId : Option Text) (error : Option Text) (snapshot : Option (Collected D)) :
    DashboardUpdate D where
  sequence := s.sequence + 1
  source := source.getD s.source
  deviceId :=
    match deviceId with
    | some deviceId => if deviceId = [] then (s.latest.map (·.deviceId)).getD s.deviceId else deviceId
    | .none => (s.latest.map (·.deviceId)).getD s.deviceId
  connected := connected
  error := error
  snapshot := snapshot.orElse fun _ => s.latest.bind (·.snapshot)

/-- The frame becomes the latest one. -/
def Service.keep (s : Service D) (update : DashboardUpdate D) : Service D :=
  { s with latest := some update, sequence := update.sequence }

/-- `_send` to every subscriber: a frame that still waits is dropped. -/
def Service.publish (s : Service D) (update : DashboardUpdate D) : Service D :=
  { s with
    subscribers := s.subscribers.map fun _ => some update
    sent := s.subscribers.map (fun _ => (update, s.origin)) ++ s.sent }

def Service.setTask (s : Service D) (i : Nat) (task : PollTask D) : Service D :=
  { s with tasks := s.tasks.set i task }

/-- `configure_connection`. -/
def Service.configureConnection (s : Service D) (connection : RouterConnection) : Service D :=
  { s with
    connection := some connection
    source := .ssh
    deviceId := connection.device
    latest := .none }

/-- `task.cancel()`. -/
def Service.cancel (s : Service D) (i : Nat) : Service D :=
  { s with tasks := s.tasks.modify i fun task => { task with cancelled := true } }

/-- `_broadcast_disconnected`. -/
def Service.broadcastDisconnected (s : Service D) (error : Text) : Service D :=
  let update : DashboardUpdate D :=
    { sequence := s.sequence + 1
      source := .none
      deviceId := s.deviceId
      connected := false
      error := some error }
  (s.keep update).publish update

/-- `clear_connection`. -/
def Service.clearConnection (s : Service D) (reason : Text) : Service D :=
  let detached := { s with connection := .none, source := .none, latest := .none, task := .none }
  match s.task with
  | some i => (detached.cancel i).broadcastDisconnected reason
  | .none => detached.broadcastDisconnected reason

/-- `start`: unless a task is running already, one is created. -/
def Service.start (s : Service D) : Service D :=
  if s.source = .none then s
  else
    match s.task with
    | some _ => s
    | .none => { s with task := some s.tasks.length, tasks := s.tasks ++ [{}] }

/-! ## Steps -/

/-- What happens in one task and its worker thread. -/
inductive PollEvent (D : Type)
  /-- The worker reads the configuration. -/
  | begin
  /-- The collection ends and the worker builds the frame. -/
  | collect (data : D)
  /-- The worker builds the frame that says no router is configured. -/
  | report
  /-- An exception ends the collection. -/
  | raise (error : Text)
  /-- The task resumes, publishes and goes to sleep. -/
  | resume
  | wake

inductive Action (D : Type)
  | configure (connection : RouterConnection)
  | clear (reason : Text)
  | start
  | subscribe
  /-- A subscriber takes the frame out of its queue. -/
  | receive (subscriber : Nat)
  | unsubscribe (subscriber : Nat)
  | poll (task : Nat) (event : PollEvent D)

/-- The transport a collection reports as its source. -/
def Origin.source : Origin → Source
  | .settings | .connection _ => .ssh
  | .onDevice => .onDevice
  | .simulated => .simulated

/-- One event of a task.  A cancelled task does not resume, but its worker goes on. -/
def Service.poll (s : Service D) (i : Nat) (task : PollTask D) :
    PollEvent D → Option (Service D)
  | .begin =>
      match task.stage with
      | .submitted =>
          some (s.setTask i { task with
            stage := .collecting s.origin ((s.connection.map (·.device)).getD s.deviceId) })
      | _ => .none
  | .collect data =>
      match task.stage with
      | .collecting (some target) deviceId =>
          let update :=
            s.frame true (some target.source) (some deviceId) .none (some ⟨target, data⟩)
          some ((s.keep update).setTask i { task with stage := .finished update })
      | _ => .none
  | .report =>
      match task.stage with
      | .collecting .none _ =>
          let update := s.frame false .none .none (some "No router configured") .none
          some ((s.keep update).setTask i { task with stage := .finished update })
      | _ => .none
  | .raise error =>
      match task.stage with
      | .collecting (some _) _ => some (s.setTask i { task with stage := .raised error })
      | _ => .none
  | .resume =>
      if task.cancelled then .none
      else
        match task.stage with
        | .finished update => some ((s.publish update).setTask i { task with stage := .sleeping })
        | .raised error =>
            let update := s.frame false .none .none (some error) .none
            some (((s.keep update).publish update).setTask i { task with stage := .sleeping })
        | _ => .none
  | .wake =>
      if task.cancelled then .none
      else
        match task.stage with
        | .sleeping => some (s.setTask i { task with stage := .submitted })
        | _ => .none

/-- One step of the service. -/
def step : Action D → Service D → Option (Service D)
  | .configure connection, s => some (s.configureConnection connection)
  | .clear reason, s => some (s.clearConnection reason)
  | .start, s => some s.start
  | .subscribe, s => some { s with subscribers := s.subscribers ++ [.none] }
  | .receive subscriber, s => some { s with subscribers := s.subscribers.set subscriber .none }
  | .unsubscribe subscriber, s =>
      some { s with subscribers := s.subscribers.eraseIdx subscriber }
  | .poll i event, s => s.tasks[i]?.bind fun task => s.poll i task event

/-! ## Whose snapshot a frame shows -/

/-- The frame shows no snapshot, or one of what is configured. -/
def DashboardUpdate.Shows (update : DashboardUpdate D) (configured : Option Origin) : Prop :=
  ∀ collected, update.snapshot = some collected → configured = some collected.origin

/-- The frame shows no snapshot of another router than the one that is configured. -/
def DashboardUpdate.Belongs (update : DashboardUpdate D) (configured : Option Origin) : Prop :=
  match update.snapshot, configured with
  | some collected, some origin => collected.origin = origin
  | _, _ => True

instance (update : DashboardUpdate D) (configured : Option Origin) :
    Decidable (update.Belongs configured) := by
  unfold DashboardUpdate.Belongs
  split <;> infer_instance

/-- The latest frame shows the configured router only, and nothing at all after
`clear_connection`; no frame of another router than the configured one is sent. -/
structure CurrentOnly (s : Service D) : Prop where
  latest : ∀ update, s.latest = some update → update.Shows s.origin
  sent : ∀ entry ∈ s.sent, entry.1.Belongs entry.2

/-- A collection does not end after what it was started for was replaced, and its
frame is not published after that. -/
def Unreplaced (s : Service D) : Action D → Prop
  | .poll i (.collect _) =>
      match s.tasks[i]?.map PollTask.stage with
      | some (.collecting (some target) _) => s.origin = some target
      | _ => True
  | .poll i .resume =>
      match s.tasks[i]?.map PollTask.stage with
      | some (.finished update) => s.subscribers ≠ [] → update.Belongs s.origin
      | _ => True
  | _ => True

instance (s : Service D) (a : Action D) : Decidable (Unreplaced s a) := by
  unfold Unreplaced
  split
  · split <;> infer_instance
  · split <;> infer_instance
  · infer_instance

theorem DashboardUpdate.Shows.belongs {update : DashboardUpdate D} {configured : Option Origin}
    (h : update.Shows configured) : update.Belongs configured := by
  unfold DashboardUpdate.Belongs
  split
  · next collected origin hsnapshot =>
      exact (Option.some.inj (h collected hsnapshot)).symm
  · trivial

/-- A frame without a snapshot of its own shows what the latest one showed. -/
theorem CurrentOnly.frame {s : Service D} (h : CurrentOnly s) (connected : Bool)
    (source : Option Source) (deviceId error : Option Text) :
    (s.frame connected source deviceId error .none).Shows s.origin := by
  intro collected hcollected
  obtain ⟨update, hlatest, hsnapshot⟩ := Option.bind_eq_some_iff.mp hcollected
  exact h.latest update hlatest collected hsnapshot

theorem CurrentOnly.keep {s : Service D} (h : CurrentOnly s) {update : DashboardUpdate D}
    (hupdate : update.Shows s.origin) : CurrentOnly (s.keep update) := by
  refine ⟨?_, h.sent⟩
  intro other hother
  obtain rfl := Option.some.inj hother
  exact hupdate

theorem CurrentOnly.publish {s : Service D} (h : CurrentOnly s) {update : DashboardUpdate D}
    (hupdate : s.subscribers ≠ [] → update.Belongs s.origin) :
    CurrentOnly (s.publish update) := by
  refine ⟨h.latest, ?_⟩
  intro entry hentry
  rcases List.mem_append.mp hentry with hentry | hentry
  · obtain ⟨queue, hqueue, rfl⟩ := List.mem_map.mp hentry
    exact hupdate (List.ne_nil_of_mem hqueue)
  · exact h.sent entry hentry

/-- The tasks play no part in it. -/
theorem CurrentOnly.setTask {s : Service D} (h : CurrentOnly s) (i : Nat) (task : PollTask D) :
    CurrentOnly (s.setTask i task) :=
  ⟨h.latest, h.sent⟩

theorem CurrentOnly.poll {s s' : Service D} (h : CurrentOnly s) {i : Nat} {task : PollTask D}
    (htask : s.tasks[i]? = some task) {event : PollEvent D}
    (hunreplaced : Unreplaced s (.poll i event)) (hstep : s.poll i task event = some s') :
    CurrentOnly s' := by
  obtain ⟨stage, cancelled⟩ := task
  have hstage : s.tasks[i]?.map PollTask.stage = some stage := congrArg _ htask
  cases event with
  | begin =>
    cases stage with
    | submitted =>
      obtain rfl := Option.some.inj hstep
      exact h.setTask i _
    | _ => cases hstep
  | collect data =>
    cases stage with
    | collecting target deviceId =>
      cases target with
      | none => cases hstep
      | some target =>
        obtain rfl := Option.some.inj hstep
        rw [Unreplaced, hstage] at hunreplaced
        refine (h.keep ?_).setTask i _
        intro collected hcollected
        obtain rfl := Option.some.inj hcollected
        exact hunreplaced
    | _ => cases hstep
  | report =>
    cases stage with
    | collecting target deviceId =>
      cases target with
      | none =>
        obtain rfl := Option.some.inj hstep
        exact (h.keep (h.frame _ _ _ _)).setTask i _
      | some target => cases hstep
    | _ => cases hstep
  | raise error =>
    cases stage with
    | collecting target deviceId =>
      cases target with
      | none => cases hstep
      | some target =>
        obtain rfl := Option.some.inj hstep
        exact h.setTask i _
    | _ => cases hstep
  | resume =>
    cases cancelled with
    | true => cases hstep
    | false =>
      cases stage with
      | finished update =>
        obtain rfl := Option.some.inj hstep
        rw [Unreplaced, hstage] at hunreplaced
        exact (h.publish hunreplaced).setTask i _
      | raised error =>
        obtain rfl := Option.some.inj hstep
        -- The frame is built in the same step, so it shows what the latest one did.
        have hframe := h.frame false .none .none (some error)
        exact ((h.keep hframe).publish fun _ => hframe.belongs).setTask i _
      | _ => cases hstep
  | wake =>
    cases cancelled with
    | true => cases hstep
    | false =>
      cases stage with
      | sleeping =>
        obtain rfl := Option.some.inj hstep
        exact h.setTask i _
      | _ => cases hstep

/-- A disconnected frame shows nothing. -/
theorem CurrentOnly.broadcastDisconnected {s : Service D} (h : CurrentOnly s) (error : Text) :
    CurrentOnly (s.broadcastDisconnected error) := by
  have hempty : ∀ configured, DashboardUpdate.Shows (D := D)
      { sequence := s.sequence + 1
        source := .none
        deviceId := s.deviceId
        connected := false
        error := some error } configured :=
    fun _ => nofun
  exact (h.keep (hempty _)).publish fun _ => (hempty _).belongs

theorem CurrentOnly.step {s s' : Service D} (h : CurrentOnly s) {a : Action D}
    (hunreplaced : Unreplaced s a) (hstep : SnapshotService.step a s = some s') :
    CurrentOnly s' := by
  cases a with
  | configure connection =>
    obtain rfl := Option.some.inj hstep
    exact ⟨nofun, h.sent⟩
  | clear reason =>
    obtain rfl := Option.some.inj hstep
    have hdetached : ∀ detached : Service D, detached.latest = .none →
        detached.sent = s.sent → CurrentOnly (detached.broadcastDisconnected reason) := by
      intro detached hlatest hsent
      refine CurrentOnly.broadcastDisconnected ⟨?_, ?_⟩ reason
      · rw [hlatest]
        exact nofun
      · rw [hsent]
        exact h.sent
    rw [Service.clearConnection]
    split
    · exact hdetached _ rfl rfl
    · exact hdetached _ rfl rfl
  | start =>
    obtain rfl := Option.some.inj hstep
    rw [Service.start]
    split
    · exact h
    · split
      · exact h
      · exact ⟨h.latest, h.sent⟩
  | subscribe =>
    obtain rfl := Option.some.inj hstep
    exact ⟨h.latest, h.sent⟩
  | receive subscriber =>
    obtain rfl := Option.some.inj hstep
    exact ⟨h.latest, h.sent⟩
  | unsubscribe subscriber =>
    obtain rfl := Option.some.inj hstep
    exact ⟨h.latest, h.sent⟩
  | poll i event =>
    obtain ⟨task, htask, hpoll⟩ := Option.bind_eq_some_iff.mp hstep
    exact h.poll htask hunreplaced hpoll

/-- A step that breaks the condition shows or sends another router's snapshot. -/
theorem not_currentOnly_step {s s' : Service D} {a : Action D} (hreplaced : ¬ Unreplaced s a)
    (hstep : SnapshotService.step a s = some s') : ¬ CurrentOnly s' := by
  intro hcurrent
  cases a with
  | poll i event =>
    obtain ⟨⟨stage, cancelled⟩, htask, hpoll⟩ := Option.bind_eq_some_iff.mp hstep
    have hstage : s.tasks[i]?.map PollTask.stage = some stage := congrArg _ htask
    cases event with
    | collect data =>
      cases stage with
      | collecting target deviceId =>
        cases target with
        | none => cases hpoll
        | some target =>
          obtain rfl := Option.some.inj hpoll
          rw [Unreplaced, hstage] at hreplaced
          exact hreplaced (hcurrent.latest _ rfl ⟨target, data⟩ rfl)
      | _ => cases hpoll
    | resume =>
      cases cancelled with
      | true => cases hpoll
      | false =>
        cases stage with
        | finished update =>
          obtain rfl := Option.some.inj hpoll
          rw [Unreplaced, hstage] at hreplaced
          obtain ⟨hsubscribers, hother⟩ := Classical.not_imp.mp hreplaced
          obtain ⟨queue, hqueue⟩ := List.exists_mem_of_ne_nil _ hsubscribers
          refine hother (hcurrent.sent (update, s.origin) ?_)
          exact List.mem_append_left _ (List.mem_map.mpr ⟨queue, hqueue, rfl⟩)
        | raised error => exact hreplaced (by rw [Unreplaced, hstage]; trivial)
        | _ => cases hpoll
    | _ => exact hreplaced trivial
  | _ => exact hreplaced trivial

/-! ## Runs -/

/-- `SnapshotService.__init__`. -/
def create (connection : Option RouterConnection) (source : Source) (deviceId : Text) :
    Service D where
  connection := connection
  source := source
  deviceId := deviceId

/--
**The service shows and sends snapshots of the configured router only, exactly in
the runs in which no collection ends, and no collected frame is published, after
what it was collected from was replaced.**
-/
theorem current_iff (connection : Option RouterConnection) (source : Source) (deviceId : Text)
    (events : List (Action D)) (s : Service D)
    (hrun : Runs.run step events (create connection source deviceId) = some s) :
    Runs.Always step CurrentOnly events (create connection source deviceId) ↔
      Runs.Meets step Unreplaced events (create connection source deviceId) := by
  have hcreate : CurrentOnly (create connection source deviceId : Service D) := by
    refine ⟨?_, ?_⟩
    · intro update hupdate
      cases hupdate
    · intro entry hentry
      exact absurd hentry List.not_mem_nil
  refine Runs.always_iff_meets (I := CurrentOnly) (fun _ h => h) ?_ ?_ hcreate hrun
  · intro s a s' hcurrent hunreplaced hstep
    exact hcurrent.step hunreplaced hstep
  · intro s a s' _ hreplaced hstep
    exact not_currentOnly_step hreplaced hstep

def homeRouter : RouterConnection := { host := "192.168.1.1" }

/-- A round of polling that nothing interrupts. -/
theorem round_current :
    Runs.Always step CurrentOnly
      [.start, .subscribe, .poll 0 .begin, .poll 0 (.collect ()), .poll 0 .resume, .poll 0 .wake]
      (create (some homeRouter) .ssh "192.168.1.1") :=
  (current_iff _ _ _ _ _ rfl).mpr (by decide)

/-- The router is removed while a collection is under way; its snapshot becomes the
latest frame when the collection ends. -/
theorem removed_router_shown :
    ¬ ∀ (connection : Option RouterConnection) (source : Source) (deviceId : Text)
      (events : List (Action Unit)) (s : Service Unit),
      Runs.run step events (create connection source deviceId) = some s → CurrentOnly s := by
  intro h
  have hcurrent := h (some homeRouter) .ssh "192.168.1.1"
    [.start, .poll 0 .begin, .clear "Router connection removed", .poll 0 (.collect ())] _ rfl
  exact absurd (hcurrent.latest _ rfl _ rfl) nofun

end OpenWrtCopilot.Ports.SnapshotService
