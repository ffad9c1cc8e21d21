import OpenWrtCopilot.Ports.ManagementOperations

/-!
# Management jobs and their store

Ports `ManagementJob`, `ManagementJobStore` and the state of a
`RouterManagementService`: the package caches and the job store, beside the
state of the router itself.

The store hands out one mutable record per id; here it is a map from ids to
records, and a job id a caller holds reads the current record.
-/

namespace OpenWrtCopilot.Ports.Management

open Verified
open Verified.PyText

/-! ## Jobs -/

/-- `JobStatus`. -/
inductive JobStatus
  | queued
  | running
  | succeeded
  | failed
  deriving DecidableEq

/-- `JobKind`. -/
inductive JobKind
  | action
  | backup
  | bundle
  | restore
  | firewall
  | wireless
  | vpn
  | dhcp
  | dns
  | network
  | system
  | packages
  | storage
  | services
  deriving DecidableEq

/-- The result dictionaries jobs carry. -/
inductive JobResult
  /-- A write operation's own dictionary. -/
  | operation (result : OperationResult)
  | storage (ok : Bool) (detail : CommandResult) (action target : Text)
  | services (ok : Bool) (detail : CommandResult) (action service : Text)
  /-- A backup or a diagnostic bundle. -/
  | artifact (filename : Text) (size : Nat)
  | staged (stagedFilename stagedB64 : Text) (size : Nat)
  | restored (filename : Text) (result : OperationResult)
  deriving DecidableEq

/-- `ManagementJob`, less its creation time. -/
structure ManagementJob where
  id : Text
  kind : JobKind
  status : JobStatus := .queued
  message : Text := "Queued"
  error : Option Text := none
  result : Option JobResult := none
  pendingConfirmation : Bool := false
  /-- The name and bytes of an attached artifact. -/
  artifact : Option (Text × List UInt8) := none
  deriving DecidableEq

/-! ## The store -/

/-- `ManagementJobStore._jobs`. -/
abbrev ManagementJobStore := Text → Option ManagementJob

namespace ManagementJobStore

/-- The store with the record of `id` replaced. -/
def put (jobs : ManagementJobStore) (id : Text) (job : ManagementJob) : ManagementJobStore :=
  fun other => if other = id then some job else jobs other

@[simp] theorem put_self (jobs : ManagementJobStore) (id : Text) (job : ManagementJob) :
    jobs.put id job id = some job := by
  simp [put]

theorem put_other (jobs : ManagementJobStore) {id other : Text} (job : ManagementJob)
    (h : other ≠ id) : jobs.put id job other = jobs other := by
  simp [put, h]

/-- `create`, with the id the UUID generator draws. -/
def create (jobs : ManagementJobStore) (id : Text) (kind : JobKind) (message : Text) :
    ManagementJobStore :=
  jobs.put id { id := id, kind := kind, message := message }

end ManagementJobStore

/-- The record `transition` leaves: message, error and result are only
overwritten when given. -/
def ManagementJob.advance (job : ManagementJob) (status : JobStatus)
    (message error : Option Text) (result : Option JobResult) : ManagementJob :=
  { job with
    status := status
    message := message.getD job.message
    error := error.orElse fun _ => job.error
    result := result.orElse fun _ => job.result }

/-! ## The state of the service -/

/-- What `_collect_packages` gathers: the manager it found and the texts the
inventory is parsed from. -/
structure PackageInventory where
  manager : PackageManager
  installed : Text
  upgradable : Text
  status : Text

/-- The router and the caches of the service; times are in milliseconds. -/
structure ServiceState (σ : Type) where
  router : σ
  /-- `_packages_cache`; the empty dictionary is `none`. -/
  packagesCache : Option PackageInventory := none
  packagesCacheAt : Nat := 0
  opkgListText : Text := []
  opkgListAt : Nat := 0

/-- The service with its job store. -/
structure Managed (σ : Type) where
  service : ServiceState σ
  jobs : ManagementJobStore

/-- An operation that also uses the service's caches. -/
abbrev ServiceOp (σ : Type) := Fallible ServiceError (ServiceState σ)

/-- An operation on the service and its jobs. -/
abbrev ManagedOp (σ : Type) := Fallible ServiceError (Managed σ)

variable {σ α : Type}

/-- An operation of the router alone. -/
def onRouter (m : Op σ α) : ServiceOp σ α := fun s =>
  ((m s.router).1, { s with router := (m s.router).2 })

/-- An operation of the service that touches no job. -/
def onService (m : ServiceOp σ α) : ManagedOp σ α := fun s =>
  ((m s.service).1, { s with service := (m s.service).2 })

@[simp] theorem onRouter_apply (m : Op σ α) (s : ServiceState σ) :
    onRouter m s = ((m s.router).1, { s with router := (m s.router).2 }) := rfl

@[simp] theorem onService_apply (m : ServiceOp σ α) (s : Managed σ) :
    onService m s = ((m s.service).1, { s with service := (m s.service).2 }) := rfl

/-- Replace the record of a job, or raise for an id the store does not hold. -/
def updateJob (id : Text) (f : ManagementJob → ManagementJob) : ManagedOp σ Unit := fun s =>
  match s.jobs id with
  | some job => (.ok (), { s with jobs := s.jobs.put id (f job) })
  | none => (.error (.management ("unknown job: " ++ id)), s)

/-- `ManagementJobStore.transition`. -/
def transition (id : Text) (status : JobStatus) (message error : Option Text)
    (result : Option JobResult) : ManagedOp σ Unit :=
  updateJob id fun job => job.advance status message error result

/-- `ManagementJobStore.attach_artifact`. -/
def attachArtifact (id name : Text) (data : List UInt8) : ManagedOp σ Unit :=
  updateJob id fun job => { job with artifact := some (name, data) }

/-- `ManagementJobStore.mark_pending`. -/
def markPending (id message : Text) : ManagedOp σ Unit :=
  updateJob id fun job => { job with pendingConfirmation := true, message := message }

/-- `ManagementJobStore.get`. -/
def getJob (id : Text) : ManagedOp σ (Option ManagementJob) := fun s => (.ok (s.jobs id), s)

@[simp] theorem getJob_apply (id : Text) (s : Managed σ) :
    getJob id s = (.ok (s.jobs id), s) := rfl

theorem updateJob_of_some {id : Text} {s : Managed σ} {job : ManagementJob}
    (f : ManagementJob → ManagementJob) (h : s.jobs id = some job) :
    updateJob id f s = (.ok (), { s with jobs := s.jobs.put id (f job) }) := by
  simp only [updateJob, h]

/-- What the store holds after a record was replaced. -/
theorem updateJob_jobs (id other : Text) (f : ManagementJob → ManagementJob) (s : Managed σ) :
    (updateJob id f s).2.jobs other =
      if other = id then (s.jobs other).map f else s.jobs other := by
  unfold updateJob
  cases hjob : s.jobs id with
  | none =>
    by_cases h : other = id
    · rw [if_pos h, h, hjob]
      rfl
    · rw [if_neg h]
  | some job =>
    by_cases h : other = id
    · rw [if_pos h, h, hjob]
      exact ManagementJobStore.put_self s.jobs id (f job)
    · rw [if_neg h]
      exact ManagementJobStore.put_other s.jobs (f job) h

theorem updateJob_service (id : Text) (f : ManagementJob → ManagementJob) (s : Managed σ) :
    (updateJob id f s).2.service = s.service := by
  unfold updateJob
  cases s.jobs id <;> rfl

theorem transition_of_some {id : Text} {s : Managed σ} {job : ManagementJob}
    (status : JobStatus) (message error : Option Text) (result : Option JobResult)
    (h : s.jobs id = some job) :
    transition id status message error result s =
      (.ok (), { s with jobs := s.jobs.put id (job.advance status message error result) }) :=
  updateJob_of_some _ h

end OpenWrtCopilot.Ports.Management
