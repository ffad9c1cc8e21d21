import OpenWrtCopilot.Ports.ManagementApi
import OpenWrtCopilot.Verified.Runs

/-!
# Jobs that are left behind

A request creates its job before the job has anybody to run it: the five service endpoints
have no event loop to start a task on, and a restore is staged after its job was created.
Every other request that is refused is refused before there is a job, and every wrapper
ends the job it is started for.

## Main results

* `always_settled_iff` — the runs after each request of which every job has ended or awaits
  confirmation, and no request that fails has changed the store.
* `service_action_stays_queued` — a service endpoint leaves a job queued.
-/

namespace OpenWrtCopilot.Ports.Management

open Verified
open Verified.PyText

variable {σ α β : Type}

/-! ## Jobs that have ended -/

/-- The job has a final status. -/
def ManagementJob.Ended (job : ManagementJob) : Prop :=
  job.status = .succeeded ∨ job.status = .failed

/-- The job has ended, or is a staged restore. -/
def ManagementJob.Settled (job : ManagementJob) : Prop :=
  job.Ended ∨ job.kind = .restore ∧ job.pendingConfirmation = true

/-- Every job in the store is settled. -/
def AllSettled (s : Managed σ) : Prop := ∀ id job, s.jobs id = some job → job.Settled

theorem ManagementJobStore.put_put (jobs : ManagementJobStore) (id : Text)
    (job job' : ManagementJob) : (jobs.put id job).put id job' = jobs.put id job' := by
  funext other
  rw [put, put, put]
  split <;> rfl

theorem AllSettled.put {s s' : Managed σ} {id : Text} {job : ManagementJob} (h : AllSettled s)
    (hjob : job.Settled) (hjobs : s'.jobs = s.jobs.put id job) : AllSettled s' := by
  intro other found hfound
  rw [hjobs] at hfound
  by_cases hother : other = id
  · rw [hother, ManagementJobStore.put_self] at hfound
    rw [← Option.some.inj hfound]
    exact hjob
  · rw [ManagementJobStore.put_other _ _ hother] at hfound
    exact h other found hfound

/-! ## The wrappers end their jobs -/

/-- Run for a job in the store, the wrapper ends it and changes no other. -/
def Ends (id : Text) (wrapper : ManagedOp σ α) : Prop :=
  ∀ s job, s.jobs id = some job →
    ∃ final : ManagementJob, final.Ended ∧ (wrapper s).2.jobs = s.jobs.put id final

/-- What a wrapper does last: a transition of its job, which it returns then. -/
theorem ends_transition {id : Text} {status : JobStatus} (message error : Option Text)
    (result : Option JobResult) (hstatus : status = .succeeded ∨ status = .failed)
    {jobs : ManagementJobStore} {before : ManagementJob} {s : Managed σ}
    (hjobs : s.jobs = jobs.put id before) :
    ∃ final : ManagementJob, final.Ended ∧
      transition id status message error result s =
        (.ok (), { s with jobs := jobs.put id final }) := by
  have hjob : s.jobs id = some before := by
    rw [hjobs, ManagementJobStore.put_self]
  refine ⟨before.advance status message error result, hstatus, ?_⟩
  rw [transition_of_some status message error result hjob, hjobs, ManagementJobStore.put_put]

theorem trackOperation_ends (id start : Text) (operation : ServiceOp σ α)
    {judge : α → JobStatus} (hjudge : ∀ a, judge a = .succeeded ∨ judge a = .failed)
    (message : α → Text) (record : α → JobResult) (failure : Text → Option Text) :
    Ends id (trackOperation id start operation judge message record failure) := by
  intro s job hjob
  rw [trackOperation, Fallible.bind_of_ok
    (transition_of_some .running (some start) none none hjob)]
  cases hop : operation s.service with
  | mk outcome service =>
    cases outcome with
    | ok result =>
      obtain ⟨final, hfinal, hend⟩ := ends_transition (some (message result)) none
        (some (record result)) (hjudge result)
        (s := ⟨service, s.jobs.put id (job.advance .running (some start) none none)⟩) rfl
      refine ⟨final, hfinal, ?_⟩
      rw [Fallible.bind_of_ok (Fallible.attempt_of_ok ((Fallible.bind_of_ok
        (show onService operation _ = (.ok result, ⟨service, _⟩) by
          rw [onService_apply, hop])).trans hend))]
      rfl
    | error e =>
      obtain ⟨final, hfinal, hend⟩ := ends_transition (failure e.str) (some e.str) none
        (Or.inr rfl)
        (s := ⟨service, s.jobs.put id (job.advance .running (some start) none none)⟩) rfl
      refine ⟨final, hfinal, ?_⟩
      rw [Fallible.bind_of_ok ((Fallible.attempt_of_error (Fallible.bind_of_error
        (show onService operation _ = (.error e, ⟨service, _⟩) by
          rw [onService_apply, hop]))).trans hend)]
      rfl

theorem runArtifactJob_ends (id start : Text) (build : Op σ (Text × List UInt8))
    (ready : Nat → Text) (failure : Text) :
    Ends id (runArtifactJob id start build ready failure) := by
  intro s job hjob
  let started := job.advance .running (some start) none none
  rw [runArtifactJob, Fallible.bind_of_ok
    (transition_of_some .running (some start) none none hjob)]
  cases hbuild : build s.service.router with
  | mk outcome router =>
    have hservice : onService (onRouter build) { s with jobs := s.jobs.put id started } =
        (outcome, ⟨{ s.service with router := router }, s.jobs.put id started⟩) := by
      rw [onService_apply, onRouter_apply, hbuild]
    cases outcome with
    | ok built =>
      obtain ⟨filename, data⟩ := built
      have hattach := updateJob_of_some
        (fun job => { job with artifact := some (filename, data) })
        (s := ⟨{ s.service with router := router }, s.jobs.put id started⟩)
        (ManagementJobStore.put_self s.jobs id started)
      rw [ManagementJobStore.put_put] at hattach
      obtain ⟨final, hfinal, hend⟩ := ends_transition (some (ready data.length)) none
        (some (.artifact filename data.length)) (Or.inl rfl)
        (s := ⟨{ s.service with router := router },
          s.jobs.put id { started with artifact := some (filename, data) }⟩) rfl
      refine ⟨final, hfinal, ?_⟩
      rw [Fallible.bind_of_ok (Fallible.attempt_of_ok ((Fallible.bind_of_ok hservice).trans
        ((Fallible.bind_of_ok hattach).trans hend)))]
      rfl
    | error e =>
      obtain ⟨final, hfinal, hend⟩ := ends_transition (some failure) (some e.str) none
        (Or.inr rfl) (s := ⟨{ s.service with router := router }, s.jobs.put id started⟩) rfl
      refine ⟨final, hfinal, ?_⟩
      rw [Fallible.bind_of_ok ((Fallible.attempt_of_error
        (Fallible.bind_of_error hservice)).trans hend)]
      rfl

theorem trackResult_ends (id start : Text) (operation : ServiceOp σ OperationResult)
    (checks : Bool) (failure : Text → Text) :
    Ends id (trackResult id start operation checks failure) := by
  refine trackOperation_ends id start operation (fun result => ?_) _ _ _
  split
  · exact Or.inr rfl
  · exact Or.inl rfl

theorem statusOfCommand_ended (result : CommandResult) :
    statusOfCommand result = .succeeded ∨ statusOfCommand result = .failed := by
  rw [statusOfCommand]
  split
  · exact Or.inl rfl
  · exact Or.inr rfl

/-- A confirmation raises and changes no job, or ends the job. -/
theorem confirmRestoreJob_ends (link : RouterLink σ) (id : Text) (s : Managed σ) :
    (confirmRestoreJob link id s).2.jobs = s.jobs ∨
      ∃ final : ManagementJob, final.Ended ∧
        (confirmRestoreJob link id s).2.jobs = s.jobs.put id final := by
  rw [confirmRestoreJob]
  cases hjob : s.jobs id with
  | none =>
    have hraised : readStaged id s = (.error (.management ("unknown job: " ++ id)), s) := by
      rw [readStaged, Fallible.bind_of_ok (getJob_apply id s), hjob]
      rfl
    rw [Fallible.bind_of_error hraised]
    exact Or.inl rfl
  | some job =>
    cases hpending : job.pendingConfirmation with
    | false =>
      have hraised : readStaged id s =
          (.error (.management "This restore job is not awaiting confirmation."), s) := by
        rw [readStaged, Fallible.bind_of_ok (getJob_apply id s), hjob]
        simp only [hpending]
        rfl
      rw [Fallible.bind_of_error hraised]
      exact Or.inl rfl
    | true =>
      have hread : readStaged id s =
          (.ok (stagedFilename job.result, stagedB64 job.result), s) := by
        rw [readStaged, Fallible.bind_of_ok (getJob_apply id s), hjob]
        simp only [hpending]
        rfl
      right
      let started := job.advance .running
        (some "Uploading backup and starting restore…") none none
      have hbegin : beginRestore id s = (.ok (), { s with jobs := s.jobs.put id started }) :=
        transition_of_some .running _ none none hjob
      rw [Fallible.bind_of_ok hread]
      dsimp only
      rw [Fallible.bind_of_ok hbegin]
      cases hpush : pushRestore link (stagedB64 job.result) s.service.router with
      | mk outcome router =>
        have hservice : onService (onRouter (pushRestore link (stagedB64 job.result)))
            { s with jobs := s.jobs.put id started } =
            (outcome, ⟨{ s.service with router := router }, s.jobs.put id started⟩) := by
          rw [onService_apply, onRouter_apply, hpush]
        cases outcome with
        | ok result =>
          obtain ⟨final, hfinal, hend⟩ := ends_transition (some result.message) none
            (some (.restored (stagedFilename job.result) result)) (Or.inl rfl)
            (s := ⟨{ s.service with router := router }, s.jobs.put id started⟩) rfl
          refine ⟨final, hfinal, ?_⟩
          rw [Fallible.bind_of_ok (Fallible.attempt_of_ok
            ((Fallible.bind_of_ok hservice).trans hend))]
          rfl
        | error e =>
          obtain ⟨final, hfinal, hend⟩ := ends_transition
            (some "Restore could not be executed.") (some e.str) none (Or.inr rfl)
            (s := ⟨{ s.service with router := router }, s.jobs.put id started⟩) rfl
          refine ⟨final, hfinal, ?_⟩
          rw [Fallible.bind_of_ok ((Fallible.attempt_of_error
            (Fallible.bind_of_error hservice)).trans hend)]
          rfl

/-! ## What a request does to the store -/

/-- The request is refused before it changes anything, or its job ends. -/
def Orderly (id : Text) (m : ApiOp σ α) : Prop :=
  ∀ s, (∃ e, m s = (.error e, s)) ∨
    ∃ a final, (m s).1 = .ok a ∧ ManagementJob.Ended final ∧
      (m s).2.jobs = s.jobs.put id final

theorem Orderly.raise (id : Text) (e : ApiError) :
    Orderly id (Fallible.raise e : ApiOp σ α) :=
  fun _ => Or.inl ⟨e, rfl⟩

theorem Orderly.raise_bind (id : Text) (e : ApiError) (f : β → ApiOp σ α) :
    Orderly id ((Fallible.raise e : ApiOp σ β) >>= f) :=
  fun s => Or.inl ⟨e, Fallible.raise_bind_apply e f s⟩

theorem Orderly.startJob (around : Surroundings) (kind : JobKind) {wrapper : ManagedOp σ α}
    (h : Ends around.freshId wrapper) :
    Orderly around.freshId (Management.startJob around kind wrapper) := by
  intro s
  right
  let created : ManagementJob := { id := around.freshId, kind := kind, message := "Queued" }
  obtain ⟨final, hfinal, hjobs⟩ := h
    { s with jobs := s.jobs.put around.freshId created } created
    (ManagementJobStore.put_self s.jobs around.freshId created)
  refine ⟨created, final, rfl, hfinal, hjobs.trans ?_⟩
  exact ManagementJobStore.put_put s.jobs around.freshId created final

theorem Orderly.require {id : Text} {field : Option Text} {detail : Text}
    {f : Text → ApiOp σ α} (h : ∀ text, Orderly id (f text)) :
    Orderly id (Management.require field detail >>= f) := by
  unfold Management.require
  cases given field with
  | none => exact Orderly.raise_bind id _ f
  | some text => exact h text

theorem Orderly.requireConfirmed {id : Text} {payload : ManagementJobRequest} {purpose : Text}
    {f : Unit → ApiOp σ α} (h : Orderly id (f ())) :
    Orderly id (Management.requireConfirmed payload purpose >>= f) := by
  unfold Management.requireConfirmed
  by_cases hconfirmed : payload.confirmed = true
  · rw [if_pos hconfirmed]
    exact h
  · rw [if_neg hconfirmed]
    exact Orderly.raise_bind id _ f

theorem Orderly.ite {id : Text} {c : Prop} [Decidable c] {m n : ApiOp σ α}
    (hm : c → Orderly id m) (hn : ¬c → Orderly id n) : Orderly id (if c then m else n) := by
  by_cases hc : c
  · rw [if_pos hc]
    exact hm hc
  · rw [if_neg hc]
    exact hn hc

/-- Every kind but a restore. -/
theorem createJobOfKind_orderly (around : Surroundings) (link : RouterLink σ)
    (payload : ManagementJobRequest) {kind : JobKind} (hkind : kind ≠ .restore) :
    Orderly around.freshId (createJobOfKind around link payload kind) := by
  have hstart : ∀ kind planned start checks failure, Orderly around.freshId
      (startJob around kind (trackPlanned link around.freshId start planned checks failure)) :=
    fun kind _ _ _ _ => Orderly.startJob around kind (trackResult_ends _ _ _ _ _)
  cases kind with
  | action => exact Orderly.require fun _ => Orderly.requireConfirmed (hstart _ _ _ _ _)
  | backup => exact Orderly.startJob around _ (runArtifactJob_ends _ _ _ _ _)
  | bundle => exact Orderly.startJob around _ (runArtifactJob_ends _ _ _ _ _)
  | restore => exact absurd rfl hkind
  | firewall =>
    unfold createJobOfKind createFirewallJob
    refine Orderly.ite (fun _ => Orderly.raise_bind _ _ _) fun _ => ?_
    refine Orderly.ite (fun _ => ?_) fun _ => hstart _ _ _ _ _
    exact Orderly.requireConfirmed (hstart _ _ _ _ _)
  | wireless =>
    unfold createJobOfKind createWirelessJob
    refine Orderly.ite (fun _ => Orderly.raise_bind _ _ _) fun _ => ?_
    exact Orderly.requireConfirmed (hstart _ _ _ _ _)
  | vpn => exact Orderly.require fun _ => Orderly.requireConfirmed (hstart _ _ _ _ _)
  | dhcp => exact Orderly.require fun _ => Orderly.requireConfirmed (hstart _ _ _ _ _)
  | dns => exact Orderly.require fun _ => Orderly.requireConfirmed (hstart _ _ _ _ _)
  | network => exact Orderly.require fun _ => Orderly.requireConfirmed (hstart _ _ _ _ _)
  | system => exact Orderly.requireConfirmed (hstart _ _ _ _ _)
  | packages =>
    refine Orderly.require fun _ => Orderly.requireConfirmed ?_
    exact Orderly.startJob around _ (trackResult_ends _ _ _ _ _)
  | storage =>
    unfold createJobOfKind
    cases given payload.action with
    | none => exact Orderly.raise _ _
    | some action =>
      cases given payload.target with
      | none => exact Orderly.raise _ _
      | some target =>
        refine Orderly.requireConfirmed (Orderly.startJob around _ ?_)
        exact trackOperation_ends _ _ _ statusOfCommand_ended _ _ _
  | services => exact Orderly.raise _ _

/-! ## Runs -/

/-- The upload decodes to a gzip archive. -/
def isArchive (contentB64 : Text) : Bool :=
  match PyBase64.b64decode contentB64 with
  | .ok data => [0x1f, 0x8b].isPrefixOf data
  | .error _ => false

/-- The request is no service action, and a restore that is uploaded is an archive. -/
def Kept : ApiRequest → Prop
  | .runServiceAction _ _ => False
  | .createJob payload =>
      payload.withinLimits = true → payload.kind = "restore".toList →
        given payload.filename ≠ none → (given payload.contentB64).all isArchive = true
  | _ => True

/-- A request that fails has not changed the store. -/
def FailsCleanly (link : RouterLink σ) (s : Managed σ) (event : Surroundings × ApiRequest) : Prop :=
  ∀ e, (handle event.1 link event.2 s).1 = .error e → (handle event.1 link event.2 s).2.jobs = s.jobs

/-- A request, with the background call it starts. -/
def respond (link : RouterLink σ) : Surroundings × ApiRequest → Managed σ → Option (Managed σ) :=
  fun event s => some (handle event.1 link event.2 s).2

theorem answerJob_apply (m : ApiOp σ ManagementJob) (s : Managed σ) :
    answerJob m s = ((m s).1.map Reply.job, (m s).2) := by
  rw [answerJob, Fallible.bind_apply]
  cases m s with
  | mk result s' => cases result <;> rfl

theorem callService_jobs (status : Nat) (m : ServiceOp σ α) (s : Managed σ) :
    (callService status (onService m) s).2.jobs = s.jobs := by
  rw [callService, onService_apply]
  cases (m s.service).1 with
  | ok a => rfl
  | error e => cases e <;> rfl

/-- A read changes no job. -/
theorem answerData_jobs (m : ServiceOp σ α) (s : Managed σ) :
    (answerData m s).2.jobs = s.jobs := by
  have hjobs := callService_jobs 503 m s
  rw [answerData, Fallible.bind_apply]
  cases hcall : callService 503 (onService m) s with
  | mk result s' =>
    rw [hcall] at hjobs
    cases result <;> exact hjobs

/-- The record of a job that was created. -/
def queuedJob (id : Text) (kind : JobKind) : ManagementJob :=
  { id := id, kind := kind, message := "Queued" }

theorem not_settled_queuedJob (id : Text) (kind : JobKind) : ¬(queuedJob id kind).Settled := by
  rintro ((h | h) | ⟨-, h⟩) <;> cases h

theorem createJobRecord_apply (around : Surroundings) (kind : JobKind) (s : Managed σ) :
    createJobRecord around kind s = (.ok (queuedJob around.freshId kind),
      { s with jobs := s.jobs.put around.freshId (queuedJob around.freshId kind) }) := rfl

theorem stageRestore_eq (filename contentB64 : Text) :
    (∃ staged, stageRestore filename contentB64 = .ok staged) ∧ isArchive contentB64 = true ∨
      (∃ message, stageRestore filename contentB64 = .error (.management message)) ∧
        isArchive contentB64 = false := by
  rw [stageRestore, isArchive]
  cases PyBase64.b64decode contentB64 with
  | error e => exact Or.inr ⟨⟨_, rfl⟩, rfl⟩
  | ok data =>
    dsimp only
    by_cases hmagic : [0x1f, 0x8b].isPrefixOf data = true
    · rw [if_pos hmagic]
      exact Or.inl ⟨⟨_, rfl⟩, hmagic⟩
    · rw [if_neg hmagic]
      exact Or.inr ⟨⟨_, rfl⟩, Bool.eq_false_iff.mpr hmagic⟩

/-- What becomes of a restore whose fields are given. -/
theorem createRestoreJob_of_given (around : Surroundings) {payload : ManagementJobRequest}
    {filename contentB64 : Text} (hfilename : given payload.filename = some filename)
    (hcontent : given payload.contentB64 = some contentB64) (s : Managed σ) :
    (isArchive contentB64 = true ∧ ∃ job final, ManagementJob.Settled final ∧
        createRestoreJob around payload s =
          (.ok job, { s with jobs := s.jobs.put around.freshId final })) ∨
      (isArchive contentB64 = false ∧ ∃ e, createRestoreJob around payload s =
        (.error e, { s with
          jobs := s.jobs.put around.freshId (queuedJob around.freshId .restore) })) := by
  simp only [createRestoreJob, hfilename, hcontent]
  rw [Fallible.bind_of_ok (createJobRecord_apply around .restore s)]
  let created : Managed σ :=
    { s with jobs := s.jobs.put around.freshId (queuedJob around.freshId .restore) }
  obtain ⟨⟨staged, hstaged⟩, harchive⟩ | ⟨⟨message, hstaged⟩, harchive⟩ :=
    stageRestore_eq filename contentB64
  · left
    obtain ⟨safeName, data⟩ := staged
    let running := (queuedJob around.freshId .restore).advance .running
      (some "Staging backup for restore…") none (some (.staged safeName contentB64 data.length))
    have hrun : stageUploaded around.freshId filename contentB64 created =
        (.ok (), { s with jobs := s.jobs.put around.freshId running }) := by
      rw [stageUploaded, Fallible.ofExcept_bind_of_ok hstaged]
      refine (transition_of_some .running _ none _
        (ManagementJobStore.put_self s.jobs _ _)).trans ?_
      exact congrArg (fun jobs => (_, { s with jobs := jobs }))
        (ManagementJobStore.put_put s.jobs around.freshId _ running)
    let pending : ManagementJob := { running with
      pendingConfirmation := true
      message := "Backup uploaded and validated. Confirm to restore the router." }
    have hpending : awaitConfirmation around.freshId
        { s with jobs := s.jobs.put around.freshId running } =
        (.ok (), { s with jobs := s.jobs.put around.freshId pending }) := by
      refine (updateJob_of_some _ (ManagementJobStore.put_self s.jobs _ _)).trans ?_
      exact congrArg (fun jobs => (_, { s with jobs := jobs }))
        (ManagementJobStore.put_put s.jobs around.freshId _ pending)
    have hall : stageRestoreJob around.freshId filename contentB64 created =
        (.ok (some pending), { s with jobs := s.jobs.put around.freshId pending }) := by
      rw [stageRestoreJob, Fallible.bind_of_ok hrun, Fallible.bind_of_ok hpending, getJob_apply]
      dsimp only
      rw [ManagementJobStore.put_self]
    have hcall : callService 422 (stageRestoreJob around.freshId filename contentB64) created =
        (.ok (some pending), { s with jobs := s.jobs.put around.freshId pending }) := by
      rw [callService, hall]
    refine ⟨harchive, pending, pending, Or.inr ⟨rfl, rfl⟩, ?_⟩
    exact Fallible.bind_of_ok hcall
  · right
    refine ⟨harchive, .http 422 message, ?_⟩
    have hall : stageRestoreJob around.freshId filename contentB64 created =
        (.error (.management message), created) := by
      rw [stageRestoreJob, Fallible.bind_of_error]
      rw [stageUploaded]
      exact Fallible.ofExcept_bind_of_error hstaged _ created
    have hcall : callService 422 (stageRestoreJob around.freshId filename contentB64) created =
        (.error (.http 422 message), created) := by
      rw [callService, hall]
    exact Fallible.bind_of_error hcall

theorem lookup_eq_restore {kind : Text} :
    jobKinds.lookup kind = some .restore ↔ kind = "restore".toList := by
  constructor
  · intro h
    obtain ⟨before, after, hsplit, -⟩ := List.lookup_eq_some_iff.mp h
    have hmem : (kind, JobKind.restore) ∈ jobKinds := by
      rw [hsplit]
      exact List.mem_append_right _ List.mem_cons_self
    simpa [jobKinds] using hmem
  · rintro rfl
    decide

/-- What a request for a job does. -/
theorem createJob_cases (around : Surroundings) (link : RouterLink σ)
    (payload : ManagementJobRequest) (s : Managed σ) :
    Kept (.createJob payload) ∧
        ((∃ e, createJob around link payload s = (.error e, s)) ∨
          ∃ job final, ManagementJob.Settled final ∧ (createJob around link payload s).1 = .ok job ∧
            (createJob around link payload s).2.jobs = s.jobs.put around.freshId final) ∨
      ¬Kept (.createJob payload) ∧ ∃ e, createJob around link payload s =
        (.error e, { s with
          jobs := s.jobs.put around.freshId (queuedJob around.freshId .restore) }) := by
  rw [createJob, Kept]
  by_cases hlimits : payload.withinLimits = true
  · rw [if_pos hlimits]
    cases hkind : jobKinds.lookup payload.kind with
    | none =>
      refine Or.inl ⟨fun _ hrestore => ?_, Or.inl ⟨_, rfl⟩⟩
      rw [lookup_eq_restore.mpr hrestore] at hkind
      cases hkind
    | some kind =>
      dsimp only
      by_cases hrestore : kind = .restore
      · rw [hrestore] at hkind ⊢
        have hname := lookup_eq_restore.mp hkind
        cases hfilename : given payload.filename with
        | none =>
          refine Or.inl ⟨fun _ _ hgiven => absurd rfl hgiven,
            Or.inl ⟨.http 422 "filename and content_b64 are required.", ?_⟩⟩
          simp only [createJobOfKind, createRestoreJob, hfilename]
          rfl
        | some filename =>
          cases hcontent : given payload.contentB64 with
          | none =>
            refine Or.inl ⟨fun _ _ _ => rfl,
              Or.inl ⟨.http 422 "filename and content_b64 are required.", ?_⟩⟩
            simp only [createJobOfKind, createRestoreJob, hfilename, hcontent]
            rfl
          | some contentB64 =>
            obtain ⟨harchive, job, final, hfinal, hall⟩ | ⟨harchive, e, hall⟩ :=
              createRestoreJob_of_given around hfilename hcontent s
            · refine Or.inl ⟨fun _ _ _ => harchive, Or.inr ⟨job, final, hfinal, ?_⟩⟩
              rw [createJobOfKind, hall]
              exact ⟨rfl, rfl⟩
            · refine Or.inr ⟨fun hkept => ?_, e, hall⟩
              have harchive' := hkept hlimits hname (Option.some_ne_none filename)
              rw [Option.all_some, harchive] at harchive'
              cases harchive'
      · refine Or.inl ⟨fun _ hname => absurd ?_ hrestore, ?_⟩
        · rw [lookup_eq_restore.mpr hname] at hkind
          exact (Option.some.inj hkind).symm
        · obtain herror | ⟨job, final, hok, hfinal, hjobs⟩ :=
            createJobOfKind_orderly around link payload hrestore s
          · exact Or.inl herror
          · exact Or.inr ⟨job, final, Or.inl hfinal, hok, hjobs⟩
  · rw [if_neg hlimits]
    exact Or.inl ⟨fun h => absurd h hlimits, Or.inl ⟨_, rfl⟩⟩

/-- A confirmation fails before it changes anything, or settles its job. -/
theorem confirmJob_cases (link : RouterLink σ) (id : Text) (s : Managed σ) :
    (confirmJob link id s).2.jobs = s.jobs ∨
      ∃ job final, ManagementJob.Settled final ∧ (confirmJob link id s).1 = .ok job ∧
        (confirmJob link id s).2.jobs = s.jobs.put id final := by
  rw [confirmJob, Fallible.read_bind_apply]
  cases hjob : s.jobs id with
  | none => exact Or.inl rfl
  | some job =>
    dsimp only
    by_cases hkind : job.kind ≠ .restore
    · rw [if_pos hkind]
      exact Or.inl rfl
    · rw [if_neg hkind]
      obtain hjobs | ⟨final, hfinal, hjobs⟩ := confirmRestoreJob_ends link id s
      · exact Or.inl hjobs
      · exact Or.inr ⟨job, final, Or.inl hfinal, rfl, hjobs⟩

/-- A request that is kept leaves every job settled, and the store alone if it fails. -/
theorem kept_step (link : RouterLink σ) (s : Managed σ) (event : Surroundings × ApiRequest)
    (hkept : Kept event.2) :
    FailsCleanly link s event ∧
      (AllSettled s → AllSettled (handle event.1 link event.2 s).2) := by
  obtain ⟨around, request⟩ := event
  have hread : (handle around link request s).2.jobs = s.jobs →
      FailsCleanly link s (around, request) ∧
        (AllSettled s → AllSettled (handle around link request s).2) := by
    intro hjobs
    refine ⟨fun _ _ => hjobs, fun h id job hjob => ?_⟩
    rw [hjobs] at hjob
    exact h id job hjob
  have hwritten : ∀ (m : ApiOp σ ManagementJob) (job final : ManagementJob) (id : Text),
      handle around link request s = answerJob m s → final.Settled → (m s).1 = .ok job →
      (m s).2.jobs = s.jobs.put id final →
      FailsCleanly link s (around, request) ∧
        (AllSettled s → AllSettled (handle around link request s).2) := by
    intro m job final id hhandle hfinal hok hjobs
    rw [answerJob_apply] at hhandle
    have hput : (handle around link request s).2.jobs = s.jobs.put id final := by
      rw [hhandle]
      exact hjobs
    refine ⟨fun e he => ?_, fun h => h.put hfinal hput⟩
    rw [hhandle, hok] at he
    cases he
  cases request with
  | createJob payload =>
    obtain ⟨-, ⟨e, he⟩ | ⟨job, final, hfinal, hok, hjobs⟩⟩ | ⟨hfails, -⟩ :=
      createJob_cases around link payload s
    · refine hread ?_
      rw [handle, answerJob_apply, he]
    · exact hwritten _ job final _ rfl hfinal hok hjobs
    · exact absurd hkept hfails
  | runServiceAction service verb => exact hkept.elim
  | confirmJob id =>
    obtain hjobs | ⟨job, final, hfinal, hok, hjobs⟩ := confirmJob_cases link id s
    · refine hread ?_
      rw [handle, answerJob_apply]
      exact hjobs
    · exact hwritten _ job final _ rfl hfinal hok hjobs
  | getJob id =>
    refine hread ?_
    rw [handle, answerJob_apply, showJob, Fallible.read_bind_apply]
    cases s.jobs id <;> rfl
  | downloadArtifact id =>
    refine hread ?_
    rw [handle, Management.downloadArtifact, Fallible.read_bind_apply]
    cases s.jobs id with
    | none => rfl
    | some job =>
      dsimp only
      cases job.artifact <;> rfl
  | _ => exact hread (answerData_jobs _ s)

/-- A request that is not kept leaves its job queued. -/
theorem not_kept_step (link : RouterLink σ) (s : Managed σ) (event : Surroundings × ApiRequest)
    (hkept : ¬Kept event.2) : ¬AllSettled (handle event.1 link event.2 s).2 := by
  obtain ⟨around, request⟩ := event
  have hqueued : ∀ kind, (handle around link request s).2.jobs =
      s.jobs.put around.freshId (queuedJob around.freshId kind) →
      ¬AllSettled (handle around link request s).2 := by
    intro kind hjobs hsettled
    refine not_settled_queuedJob around.freshId kind (hsettled around.freshId _ ?_)
    rw [hjobs, ManagementJobStore.put_self]
  cases request with
  | runServiceAction service verb => exact hqueued .services rfl
  | createJob payload =>
    obtain ⟨hkept', -⟩ | ⟨-, e, he⟩ := createJob_cases around link payload s
    · exact absurd hkept' hkept
    · refine hqueued .restore ?_
      rw [handle, answerJob_apply, he]
  | _ => exact absurd trivial hkept

/-- A service without jobs. -/
def noJobs (service : ServiceState σ) : Managed σ :=
  { service := service, jobs := fun _ => none }

/-- A router that cannot be reached. -/
def unreachable : RouterLink Unit where
  configured _ := false
  connect s := (.error "unreachable", s)
  exec _ _ s := (.error "unreachable", s)
  close s := s
  monotonic _ := 0

/--
**Every job has ended or awaits confirmation after each request of a run, and no request that
fails has changed the store, exactly if the run has no service action and no upload that is not
an archive.**
-/
theorem always_settled_iff (link : RouterLink σ) (service : ServiceState σ)
    (events : List (Surroundings × ApiRequest)) :
    (Runs.Always (respond link) AllSettled events (noJobs service) ∧
        Runs.Meets (respond link) (FailsCleanly link) events (noJobs service)) ↔
      ∀ event ∈ events, Kept event.2 := by
  have htotal : ∀ event s, ∃ s', respond link event s = some s' :=
    fun event s => ⟨(handle event.1 link event.2 s).2, rfl⟩
  obtain ⟨t, hrun⟩ := Runs.run_total htotal events (noJobs service)
  have hempty : AllSettled (noJobs service) := by
    intro id job hjob
    cases hjob
  have hkept : Runs.Always (respond link) AllSettled events (noJobs service) ↔
      Runs.Meets (respond link) (fun _ event => Kept event.2) events (noJobs service) := by
    refine Runs.always_iff_meets (I := AllSettled) (fun _ h => h) ?_ ?_ hempty hrun
    · intro s event s' hsettled hkept hstep
      obtain rfl := Option.some.inj hstep
      exact (kept_step link s event hkept).2 hsettled
    · intro s event s' _ hkept hstep
      obtain rfl := Option.some.inj hstep
      exact not_kept_step link s event hkept
  rw [hkept, Runs.meets_iff_forall hrun, and_iff_left_iff_imp]
  intro hall
  refine (Runs.meets_of_forall hall (noJobs service)).imp (I := fun _ => True)
    (fun _ _ _ _ _ _ => trivial) ?_ trivial
  exact fun s event _ hkept => (kept_step link s event hkept).1

/-- On any router: a service is restarted, and the job stays queued. -/
theorem service_action_stays_queued :
    ¬ ∀ (link : RouterLink Unit) (service : ServiceState Unit)
      (events : List (Surroundings × ApiRequest)),
      Runs.Always (respond link) AllSettled events (noJobs service) ∧
        Runs.Meets (respond link) (FailsCleanly link) events (noJobs service) := by
  intro h
  obtain ⟨halways, -⟩ := h unreachable { router := () }
    [({ freshId := "3f2a", timestamp := [], gzip := fun _ => [] },
      .runServiceAction "dnsmasq" .restart)]
  have hsettled := (halways.2 _ rfl).head "3f2a" _ rfl
  exact absurd hsettled (not_settled_queuedJob "3f2a" .services)

end OpenWrtCopilot.Ports.Management
