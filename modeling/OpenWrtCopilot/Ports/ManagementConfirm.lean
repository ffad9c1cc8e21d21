import OpenWrtCopilot.Verified.Runs
import OpenWrtCopilot.Ports.ManagementRecording

/-!
# Overlapping confirmations of a staged restore

The confirm endpoint starts `confirm_restore_job` in a thread of its own, and
nothing clears `pending_confirmation`.  The staging and confirm calls are the
processes of a transition system over the job store and the router: a call
takes its steps one by one, and the steps of different calls interleave in any
order.  Every command is logged with the job that sent it.
-/

namespace OpenWrtCopilot.Ports.RestoreConfirm

open Verified
open Verified.PyText
open Verified.PyBase64
open Ports.Management

variable {σ : Type}

/-! ## The transition system -/

/-- Where a confirm call stands. -/
inductive ConfirmStage
  /-- The job awaited confirmation; what was read from its result. -/
  | admitted (filename contentB64 : Text)
  | started (filename contentB64 : Text)
  | pushed (filename : Text) (result : Except ServiceError OperationResult)

/-- A call in progress. -/
inductive Call
  | staging (id : Text)
  | confirming (id : Text) (stage : ConfirmStage)

/-- The commands sent so far, each with the job it was sent for. -/
abbrev JobLog := List (Text × Text)

/-- The service with its job store, the calls in progress, and the confirm call
that was last admitted for a job. -/
structure World (σ : Type) where
  managed : Managed (σ × JobLog)
  calls : Nat → Option Call := fun _ => none
  confirmed : Text → Option Nat := fun _ => none

namespace World

/-- An empty job store. -/
def initial (service : ServiceState (σ × JobLog)) : World σ :=
  { managed := { service := { service with router := (service.router.1, []) }
                 jobs := fun _ => none } }

def log (w : World σ) : JobLog := w.managed.service.router.2

/-- How often `sysupgrade -r` was dispatched for a job. -/
def dispatches (w : World σ) (id : Text) : Nat := w.log.count (id, wrapCommand restoreCommand)

/-- Let a call take the step `m`; a call that raises has ended. -/
def advance {α : Type} (w : World σ) (call : Nat) (m : ManagedOp (σ × JobLog) α)
    (next : α → Option Call) : World σ :=
  { w with
    managed := (m w.managed).2
    calls := Function.update w.calls call ((m w.managed).1.toOption.bind next) }

end World

/-- The steps of the staging and confirm calls; calls are numbered. -/
inductive Action
  | create (id : Text) (kind : JobKind) (message : Text)
  | stage (call : Nat) (id filename contentB64 : Text)
  | mark (call : Nat)
  | read (call : Nat) (id : Text)
  | start (call : Nat)
  | push (call : Nat)
  | finish (call : Nat)

/-- The router as the calls of one job see it. -/
abbrev jobLink (link : RouterLink σ) (id : Text) : RouterLink (σ × JobLog) :=
  recording (fun text => (id, text)) link

/-- One step of the system; `none` if the call is not at that step. -/
def step (link : RouterLink σ) : Action → World σ → Option (World σ)
  | .create id kind message, w =>
      if (w.managed.jobs id).isNone then
        some { w with managed :=
          { w.managed with jobs := w.managed.jobs.create id kind message } }
      else none
  | .stage call id filename contentB64, w =>
      if (w.calls call).isNone then
        some (w.advance call (stageUploaded id filename contentB64) fun _ => some (.staging id))
      else none
  | .mark call, w =>
      match w.calls call with
      | some (.staging id) => some (w.advance call (awaitConfirmation id) fun _ => none)
      | _ => none
  | .read call id, w =>
      if (w.calls call).isNone then
        let w' := w.advance call (readStaged id) fun (filename, contentB64) =>
          some (.confirming id (.admitted filename contentB64))
        if (w'.calls call).isSome then
          some { w' with confirmed := Function.update w.confirmed id (some call) }
        else some w'
      else none
  | .start call, w =>
      match w.calls call with
      | some (.confirming id (.admitted filename contentB64)) =>
          some (w.advance call (beginRestore id) fun _ =>
            some (.confirming id (.started filename contentB64)))
      | _ => none
  | .push call, w =>
      match w.calls call with
      | some (.confirming id (.started filename contentB64)) =>
          some (w.advance call
            (Fallible.outcome (onService (onRouter (pushRestore (jobLink link id) contentB64))))
            fun result => some (.confirming id (.pushed filename result)))
      | _ => none
  | .finish call, w =>
      match w.calls call with
      | some (.confirming id (.pushed filename result)) =>
          some (w.advance call (finishRestore id filename result) fun _ => none)
      | _ => none

/-- What a step can do, by the action that takes it. -/
inductive Takes (link : RouterLink σ) (w : World σ) : Action → World σ → Prop
  | create (id : Text) (kind : JobKind) (message : Text) (hfresh : w.managed.jobs id = none) :
      Takes link w (.create id kind message)
        { w with managed := { w.managed with jobs := w.managed.jobs.create id kind message } }
  | stage (call : Nat) (id filename contentB64 : Text) (hcall : w.calls call = none) :
      Takes link w (.stage call id filename contentB64)
        (w.advance call (stageUploaded id filename contentB64) fun _ => some (.staging id))
  | mark (call : Nat) (id : Text) (hcall : w.calls call = some (.staging id)) :
      Takes link w (.mark call) (w.advance call (awaitConfirmation id) fun _ => none)
  | refuse (call : Nat) (id : Text) (hcall : w.calls call = none)
      (e : ServiceError) (hread : readStaged id w.managed = (.error e, w.managed)) :
      Takes link w (.read call id) w
  | accept (call : Nat) (id filename contentB64 : Text) (hcall : w.calls call = none)
      (hread : readStaged id w.managed = (.ok (filename, contentB64), w.managed)) :
      Takes link w (.read call id)
        { w with
          calls := Function.update w.calls call
            (some (.confirming id (.admitted filename contentB64)))
          confirmed := Function.update w.confirmed id (some call) }
  | start (call : Nat) (id filename contentB64 : Text)
      (hcall : w.calls call = some (.confirming id (.admitted filename contentB64))) :
      Takes link w (.start call)
        (w.advance call (beginRestore id) fun _ =>
          some (.confirming id (.started filename contentB64)))
  | push (call : Nat) (id filename contentB64 : Text)
      (hcall : w.calls call = some (.confirming id (.started filename contentB64))) :
      Takes link w (.push call)
        (w.advance call
          (Fallible.outcome (onService (onRouter (pushRestore (jobLink link id) contentB64))))
          fun result => some (.confirming id (.pushed filename result)))
  | finish (call : Nat) (id filename : Text) (result : Except ServiceError OperationResult)
      (hcall : w.calls call = some (.confirming id (.pushed filename result))) :
      Takes link w (.finish call) (w.advance call (finishRestore id filename result) fun _ => none)

/-- Reading a job for its confirmation leaves the service alone. -/
theorem readStaged_snd (id : Text) (s : Managed σ) : (readStaged id s).2 = s := by
  rw [readStaged, Fallible.bind_of_ok (getJob_apply id s)]
  cases s.jobs id with
  | none => rfl
  | some job => cases hpending : job.pendingConfirmation <;> simp only [hpending] <;> rfl

theorem World.advance_of_error {α : Type} {w : World σ} {call : Nat}
    {m : ManagedOp (σ × JobLog) α} {next : α → Option Call} {e : ServiceError}
    {s : Managed (σ × JobLog)} (h : m w.managed = (.error e, s)) :
    w.advance call m next =
      { w with managed := s, calls := Function.update w.calls call none } := by
  rw [World.advance, h]
  rfl

theorem World.advance_of_ok {α : Type} {w : World σ} {call : Nat}
    {m : ManagedOp (σ × JobLog) α} {next : α → Option Call} {a : α}
    {s : Managed (σ × JobLog)} (h : m w.managed = (.ok a, s)) :
    w.advance call m next =
      { w with managed := s, calls := Function.update w.calls call (next a) } := by
  rw [World.advance, h]
  rfl

theorem takes_of_read {link : RouterLink σ} {w w' : World σ} {call : Nat} {id : Text}
    (h : step link (.read call id) w = some w') : Takes link w (.read call id) w' := by
  simp only [step] at h
  split at h
  · rename_i hcall
    have hnone : w.calls call = none := Option.isNone_iff_eq_none.mp hcall
    have hstate := readStaged_snd id w.managed
    cases hread : readStaged id w.managed with
    | mk answer s =>
      have hs : s = w.managed := by
        rw [hread] at hstate
        exact hstate
      subst hs
      cases answer with
      | error e =>
        have hsame : Function.update w.calls call none = w.calls := by
          rw [← hnone]
          exact Function.update_eq_self call w.calls
        simp only [World.advance_of_error hread, hsame, hnone, Option.isSome_none,
          Bool.false_eq_true, if_false, Option.some.injEq] at h
        rw [← h]
        exact .refuse call id hnone e hread
      | ok staged =>
        obtain ⟨filename, contentB64⟩ := staged
        simp only [World.advance_of_ok hread, Function.update_self, Option.isSome_some,
          if_true, Option.some.injEq] at h
        rw [← h]
        exact .accept call id filename contentB64 hnone hread
  · cases h

/-- Every step is one of the listed ones. -/
theorem takes_of_step {link : RouterLink σ} {w w' : World σ} {a : Action}
    (h : step link a w = some w') : Takes link w a w' := by
  cases a with
  | create id kind message =>
    simp only [step] at h
    split at h
    · rename_i hfresh
      rw [← Option.some.inj h]
      exact .create id kind message (Option.isNone_iff_eq_none.mp hfresh)
    · cases h
  | stage call id filename contentB64 =>
    simp only [step] at h
    split at h
    · rename_i hcall
      rw [← Option.some.inj h]
      exact .stage call id filename contentB64 (Option.isNone_iff_eq_none.mp hcall)
    · cases h
  | mark call =>
    simp only [step] at h
    split at h
    · rename_i id hcall
      rw [← Option.some.inj h]
      exact .mark call id hcall
    · cases h
  | read call id => exact takes_of_read h
  | start call =>
    simp only [step] at h
    split at h
    · rename_i id filename contentB64 hcall
      rw [← Option.some.inj h]
      exact .start call id filename contentB64 hcall
    · cases h
  | push call =>
    simp only [step] at h
    split at h
    · rename_i id filename contentB64 hcall
      rw [← Option.some.inj h]
      exact .push call id filename contentB64 hcall
    · cases h
  | finish call =>
    simp only [step] at h
    split at h
    · rename_i id filename result hcall
      rw [← Option.some.inj h]
      exact .finish call id filename result hcall
    · cases h

/-! ## What one call does to the store -/

/-- Only the record of `id` may change. -/
def Touches (id : Text) (s s' : Managed σ) : Prop :=
  ∀ other, other ≠ id → s'.jobs other = s.jobs other

instance (id : Text) : Std.Refl (Touches (σ := σ) id) where
  refl _ _ _ := rfl

instance (id : Text) : IsTrans (Managed σ) (Touches id) where
  trans _ _ _ first second other h := (second other h).trans (first other h)

/-- No record gains an error or becomes a success, and the router is left alone. -/
structure Gentle (s s' : Managed σ) : Prop where
  service : s'.service = s.service
  jobs : ∀ id job', s'.jobs id = some job' → ∃ job, s.jobs id = some job ∧
    job'.error = job.error ∧ (job'.status = .succeeded → job.status = .succeeded)

instance : Std.Refl (Gentle (σ := σ)) where
  refl _ := ⟨rfl, fun _ job h => ⟨job, h, rfl, id⟩⟩

instance : IsTrans (Managed σ) Gentle where
  trans := by
    intro s t u first second
    refine ⟨second.service.trans first.service, ?_⟩
    intro id job'' h
    obtain ⟨job', hjob', herror', hstatus'⟩ := second.jobs id job'' h
    obtain ⟨job, hjob, herror, hstatus⟩ := first.jobs id job' hjob'
    exact ⟨job, hjob, herror'.trans herror, fun h => hstatus (hstatus' h)⟩

theorem updateJob_touches (id : Text) (f : ManagementJob → ManagementJob) :
    Fallible.Respects (Touches id) (updateJob id f : ManagedOp σ Unit) := by
  intro s other h
  rw [updateJob_jobs, if_neg h]

theorem updateJob_gentle (id : Text) {f : ManagementJob → ManagementJob}
    (hf : ∀ job, (f job).error = job.error ∧
      ((f job).status = .succeeded → job.status = .succeeded)) :
    Fallible.Respects Gentle (updateJob id f : ManagedOp σ Unit) := by
  intro s
  refine ⟨updateJob_service id f s, ?_⟩
  intro other job' hjob'
  rw [updateJob_jobs] at hjob'
  by_cases h : other = id
  · rw [if_pos h] at hjob'
    obtain ⟨job, hjob, hfjob⟩ := Option.map_eq_some_iff.mp hjob'
    rw [← hfjob]
    exact ⟨job, hjob, hf job⟩
  · rw [if_neg h] at hjob'
    exact ⟨job', hjob', rfl, fun hstatus => hstatus⟩

theorem transition_touches (id : Text) (status : JobStatus) (message error : Option Text)
    (result : Option JobResult) :
    Fallible.Respects (Touches id)
      (transition id status message error result : ManagedOp σ Unit) :=
  updateJob_touches id _

/-- A transition to `running` gives no error. -/
theorem transition_running_gentle (id : Text) (message : Option Text)
    (result : Option JobResult) :
    Fallible.Respects Gentle (transition id .running message none result : ManagedOp σ Unit) := by
  refine updateJob_gentle id ?_
  intro job
  exact ⟨rfl, nofun⟩

theorem stageUploaded_respects {R : Managed σ → Managed σ → Prop} [Std.Refl R]
    [IsTrans (Managed σ) R] (id filename contentB64 : Text)
    (h : ∀ message result, Fallible.Respects R
      (transition id .running message none result : ManagedOp σ Unit)) :
    Fallible.Respects R (stageUploaded id filename contentB64 : ManagedOp σ Unit) := by
  refine Fallible.Respects.bind (Fallible.Respects.ofExcept _) ?_
  intro staged
  exact h _ _

theorem stageUploaded_touches (id filename contentB64 : Text) :
    Fallible.Respects (Touches id) (stageUploaded id filename contentB64 : ManagedOp σ Unit) :=
  stageUploaded_respects id filename contentB64 fun message result =>
    transition_touches id .running message none result

theorem stageUploaded_gentle (id filename contentB64 : Text) :
    Fallible.Respects Gentle (stageUploaded id filename contentB64 : ManagedOp σ Unit) :=
  stageUploaded_respects id filename contentB64 (transition_running_gentle id)

theorem awaitConfirmation_gentle (id : Text) :
    Fallible.Respects Gentle (awaitConfirmation id : ManagedOp σ Unit) :=
  updateJob_gentle id fun _ => ⟨rfl, fun h => h⟩

theorem finishRestore_touches (id filename : Text)
    (result : Except ServiceError OperationResult) :
    Fallible.Respects (Touches id) (finishRestore id filename result : ManagedOp σ Unit) := by
  cases result with
  | ok result => exact transition_touches id _ _ _ _
  | error e => exact transition_touches id _ _ _ _

theorem finishRestore_service (id filename : Text)
    (result : Except ServiceError OperationResult) (s : Managed σ) :
    (finishRestore id filename result s).2.service = s.service := by
  cases result with
  | ok result => exact updateJob_service id _ s
  | error e => exact updateJob_service id _ s

/-- A restore only fails with an error or succeeds without one. -/
theorem finishRestore_clean {id filename : Text}
    {result : Except ServiceError OperationResult} {s : Managed σ} {job' : ManagementJob}
    (h : (finishRestore id filename result s).2.jobs id = some job')
    (hstatus : job'.status = .succeeded) :
    ∃ job, s.jobs id = some job ∧ job'.error = job.error := by
  cases result with
  | ok result =>
    rw [finishRestore, transition, updateJob_jobs, if_pos rfl] at h
    obtain ⟨job, hjob, hadvance⟩ := Option.map_eq_some_iff.mp h
    refine ⟨job, hjob, ?_⟩
    rw [← hadvance]
    rfl
  | error e =>
    rw [finishRestore, transition, updateJob_jobs, if_pos rfl] at h
    obtain ⟨job, hjob, hadvance⟩ := Option.map_eq_some_iff.mp h
    rw [← hadvance] at hstatus
    cases hstatus

/-! ## What a push sends -/

theorem wrapCommand_injective {command command' : Text}
    (h : wrapCommand command = wrapCommand command') : command = command' := by
  rw [← unwrapCommand_wrapCommand command, h, unwrapCommand_wrapCommand]

/-- A command that does not start with a parenthesis is not the dispatch. -/
theorem ne_restoreCommand {command : Text} (h : command.head? ≠ some '(') :
    command ≠ restoreCommand := by
  rintro rfl
  exact h rfl

/-- What an upload sends before the dispatch. -/
theorem Respects.prepareRestore {ι : Type} {P : ι → Prop} {note : Text → ι}
    (hP : ∀ command, command ≠ restoreCommand → P (note (wrapCommand command)))
    (link : RouterLink σ) (data : List UInt8) :
    Fallible.Respects (Sends P) (Management.prepareRestore (recording note link) data) := by
  have hpiece : ∀ first piece, P (note (wrapCommand (uploadCommand first piece))) := by
    intro first piece
    refine hP (uploadCommand first piece) (ne_restoreCommand ?_)
    have hhead : (uploadCommand first piece).head? = some 'p' := rfl
    rw [hhead]
    decide
  have hupload : ∀ pieces first,
      Fallible.Respects (Sends P) (upload (recording note link) first pieces) := by
    intro pieces
    induction pieces with
    | nil => exact fun _ => Fallible.Respects.pure ()
    | cons piece pieces ih =>
      intro first
      exact Fallible.Respects.bind (Respects.requireOk note link (hpiece first piece) _ _)
        fun _ => ih false
  have hword : ∀ command : Text, command.head? ≠ some '(' → ∀ timeout failure,
      Fallible.Respects (Sends P)
        (Management.requireOk (recording note link) command timeout failure) :=
    fun command h timeout failure =>
      Respects.requireOk note link (hP command (ne_restoreCommand h)) timeout failure
  refine Fallible.Respects.bind (hword clearCommand (by decide) _ _) fun _ => ?_
  refine Fallible.Respects.bind (hupload _ _) fun _ => ?_
  refine Fallible.Respects.bind (hword sizeCommand (by decide) _ _) fun check => ?_
  refine Fallible.Respects.bind (Fallible.Respects.ofExcept _) fun differs => ?_
  have htests : Fallible.Respects (Sends P)
      (do
        let _ ← Management.requireOk (recording note link) gzipTestCommand none fun _ =>
          "The uploaded backup is not a valid gzip archive — restore aborted."
        let _ ← Management.requireOk (recording note link) "command -v sysupgrade" none fun _ =>
          "sysupgrade is not available on this device; restore cannot run.") := by
    refine Fallible.Respects.bind (hword gzipTestCommand (by decide) _ _) fun _ => ?_
    refine Fallible.Respects.bind (hword "command -v sysupgrade" (by decide) _ _) fun _ => ?_
    exact Fallible.Respects.pure ()
  refine Fallible.Respects.ite ?_ ?_
  · intro _
    exact Fallible.Respects.raise_bind _ _
  · intro _
    exact htests

/-- A confirm call sends what its push sends. -/
theorem Respects.confirmRestoreJob {ι : Type} {P : ι → Prop} {note : Text → ι}
    (hP : ∀ command, P (note (wrapCommand command))) (link : RouterLink σ) (id : Text) :
    Fallible.Respects (SendsVia Managed.router P)
      (Management.confirmRestoreJob (recording note link) id) := by
  have hfinish : ∀ filename result, Fallible.Respects (SendsVia Managed.router P)
      (finishRestore id filename result : ManagedOp (σ × List ι) Unit) := by
    intro filename result
    cases result with
    | ok result => exact Respects.updateJob id _
    | error e => exact Respects.updateJob id _
  have hpush : ∀ contentB64, Fallible.Respects (Sends P)
      (pushRestore (recording note link) contentB64) := by
    intro contentB64
    refine Fallible.Respects.bind (Fallible.Respects.ofExcept _) fun data => ?_
    refine Respects.withTransport note link (Fallible.Respects.bind ?_ fun _ => ?_)
    · exact Respects.prepareRestore (fun command _ => hP command) link data
    · exact Fallible.Respects.bind (Respects.run note link (hP _) _) fun _ =>
        Fallible.Respects.pure _
  refine Fallible.Respects.bind ?_ fun staged => ?_
  · intro s
    rw [readStaged_snd]
    exact refl_of (SendsVia Managed.router P) s
  · refine Fallible.Respects.bind (Respects.updateJob id _) fun _ => ?_
    refine Fallible.Respects.bind ?_ fun _ => Respects.getJob id
    refine Fallible.Respects.attempt ?_ fun e => hfinish _ _
    exact Fallible.Respects.bind (Respects.onService (Respects.onRouter (hpush _)))
      fun result => hfinish _ _

theorem count_of_sends {ι : Type} [BEq ι] [LawfulBEq ι] {i : ι} {s s' : σ × List ι}
    (h : Sends (· ≠ i) s s') : s'.2.count i = s.2.count i := by
  obtain ⟨new, hnew, hne⟩ := h
  have hzero : new.count i = 0 := List.count_eq_zero.mpr fun hi => hne i hi rfl
  rw [hnew, List.count_append, hzero, Nat.add_zero]

/-- The log entry of a dispatch for a job. -/
def dispatchEntry (id : Text) : Text × Text := (id, wrapCommand restoreCommand)

theorem dispatchRestore_count (link : RouterLink σ) (id : Text) (s : σ × JobLog) :
    (dispatchRestore (jobLink link id) s).2.2.count (dispatchEntry id) =
      s.2.count (dispatchEntry id) + 1 := by
  obtain ⟨result, s', hrun⟩ := run_returns (jobLink link id) restoreCommand (some 45) s
  have hlog := run_recording_log (fun text => (id, text)) link restoreCommand (some 45) s
  have hs' : (Management.run (jobLink link id) restoreCommand (some 45) s).2.2 = s'.2 := by
    rw [hrun]
  rw [dispatchRestore, Fallible.bind_of_ok hrun]
  show s'.2.count (dispatchEntry id) = _
  rw [← hs', hlog, List.count_append]
  exact congrArg _ List.count_singleton_self

/-- A restore dispatches at most once. -/
theorem pushRestore_count (link : RouterLink σ) (id contentB64 : Text) (s : σ × JobLog) :
    (pushRestore (jobLink link id) contentB64 s).2.2.count (dispatchEntry id) ≤
      s.2.count (dispatchEntry id) + 1 := by
  have hprepare : ∀ data, Fallible.Respects (Sends (· ≠ dispatchEntry id))
      (prepareRestore (jobLink link id) data) := by
    intro data
    refine Respects.prepareRestore ?_ link data
    intro command hne heq
    exact hne (wrapCommand_injective (Prod.mk.inj heq).2)
  have hbody : ∀ data opened,
      ((do
        prepareRestore (jobLink link id) data
        dispatchRestore (jobLink link id)) opened).2.2.count (dispatchEntry id) ≤
        opened.2.count (dispatchEntry id) + 1 := by
    intro data opened
    have hcount := count_of_sends (hprepare data opened)
    cases hrun : prepareRestore (jobLink link id) data opened with
    | mk result s' =>
      rw [hrun] at hcount
      cases result with
      | error e =>
        rw [Fallible.bind_of_error hrun]
        exact Nat.le_succ_of_le (Nat.le_of_eq hcount)
      | ok u =>
        rw [Fallible.bind_of_ok hrun, dispatchRestore_count, hcount]
  unfold pushRestore
  cases b64decode contentB64 with
  | error e => exact Nat.le_succ _
  | ok data =>
    show (executeRestore (jobLink link id) data s).2.2.count (dispatchEntry id) ≤ _
    rcases withTransport_recording_log (fun text => (id, text)) link
      (do
        prepareRestore (jobLink link id) data
        dispatchRestore (jobLink link id)) s with hlog | ⟨opened, hopened, hlog⟩
    · rw [executeRestore, hlog]
      exact Nat.le_succ _
    · rw [executeRestore, hlog, ← hopened]
      exact hbody data opened

/-- What a restore sends, it sends for its own job. -/
theorem pushRestore_sends (link : RouterLink σ) (id contentB64 : Text) :
    Fallible.Respects (Sends fun entry => entry.1 = id)
      (pushRestore (jobLink link id) contentB64) := by
  refine Fallible.Respects.bind (Fallible.Respects.ofExcept _) fun data => ?_
  refine Respects.withTransport _ link (Fallible.Respects.bind ?_ fun _ => ?_)
  · exact Respects.prepareRestore (fun _ _ => rfl) link data
  · refine Fallible.Respects.bind ?_ fun _ => Fallible.Respects.pure _
    have hown : (id, wrapCommand restoreCommand).1 = id := rfl
    exact Respects.run (fun text => (id, text)) link hown (some 45)

theorem pushRestore_other_count (link : RouterLink σ) {id other : Text} (contentB64 : Text)
    (h : other ≠ id) (s : σ × JobLog) :
    (pushRestore (jobLink link id) contentB64 s).2.2.count (dispatchEntry other) =
      s.2.count (dispatchEntry other) := by
  refine count_of_sends (Sends.mono ?_ (pushRestore_sends link id contentB64 s))
  intro entry hentry heq
  rw [heq] at hentry
  exact h hentry

end OpenWrtCopilot.Ports.RestoreConfirm
