import OpenWrtCopilot.Ports.ManagementConfirm

/-!
# Runs that confirm a restore once

`pending_confirmation` stays set, so a job can be confirmed again while a
confirmation is under way and after one has ended.  `FirstConfirmation` is the
condition that excludes this: a confirm call passes the pending test only if
none did before for its job.  `JobInv` is the invariant of one job under this
condition.

## Main results

* `JobInv.step` — every step taken under the condition keeps the invariant.
* `confirmsSafely_of_firstConfirmation` — what follows for whole runs.
* `not_confirmsSafely` — what two confirmations of one job can do.
-/

namespace OpenWrtCopilot.Ports.RestoreConfirm

open Verified
open Verified.PyText
open Ports.Management

variable {σ : Type} {link : RouterLink σ} {w w' : World σ} {id : Text} {a : Action}

/-! ## The condition and the invariant -/

/-- A confirm call passes the pending test only if none did before for its job. -/
def FirstConfirmation (w : World σ) : Action → Prop
  | .read _ id =>
      (w.managed.jobs id).any (·.pendingConfirmation) = true → w.confirmed id = none
  | _ => True

instance (w : World σ) : (a : Action) → Decidable (FirstConfirmation w a)
  | .read _ id => inferInstanceAs (Decidable
      ((w.managed.jobs id).any (·.pendingConfirmation) = true → w.confirmed id = none))
  | .create _ _ _ => .isTrue trivial
  | .stage _ _ _ _ => .isTrue trivial
  | .mark _ => .isTrue trivial
  | .start _ => .isTrue trivial
  | .push _ => .isTrue trivial
  | .finish _ => .isTrue trivial

/-- Nothing of the job was dispatched yet when a call is at this stage. -/
def ConfirmStage.early : ConfirmStage → Prop
  | .admitted _ _ => True
  | .started _ _ => True
  | .pushed _ _ => False

/-- The record of a job that has neither succeeded nor failed. -/
def Undecided (job : ManagementJob) : Prop := job.status ≠ .succeeded ∧ job.error = none

/-- A confirm call of the job is in progress. -/
def Confirming (w : World σ) (id : Text) : Prop :=
  ∃ call stage, w.calls call = some (.confirming id stage)

/-- The invariant of one job. -/
structure JobInv (w : World σ) (id : Text) : Prop where
  owner : ∀ call stage, w.calls call = some (.confirming id stage) → w.confirmed id = some call
  idle : w.confirmed id = none → w.dispatches id = 0
  early : ∀ call stage, w.calls call = some (.confirming id stage) → stage.early →
    w.dispatches id = 0
  once : w.dispatches id ≤ 1
  undecided : w.confirmed id = none ∨ Confirming w id →
    ∀ job, w.managed.jobs id = some job → Undecided job
  clean : ∀ job, w.managed.jobs id = some job → job.status = .succeeded → job.error = none

theorem dispatches_initial (service : ServiceState (σ × JobLog)) (id : Text) :
    (World.initial service).dispatches id = 0 :=
  List.count_nil

theorem JobInv.initial (service : ServiceState (σ × JobLog)) (id : Text) :
    JobInv (World.initial service) id := by
  have hzero := dispatches_initial service id
  refine
    { owner := fun call stage hcall => by cases hcall
      idle := fun _ => hzero
      early := fun call stage hcall => by cases hcall
      once := by omega
      undecided := fun _ job hjob => by cases hjob
      clean := fun job hjob => by cases hjob }

/-! ## Steps of other jobs -/

/-- As far as the job `id` is concerned nothing changed. -/
structure Frames (id : Text) (w w' : World σ) : Prop where
  jobs : w'.managed.jobs id = w.managed.jobs id
  confirmed : w'.confirmed id = w.confirmed id
  calls : ∀ call stage,
    w'.calls call = some (.confirming id stage) ↔ w.calls call = some (.confirming id stage)
  dispatches : w'.dispatches id = w.dispatches id

theorem JobInv.frame (h : JobInv w id) (hframe : Frames id w w') : JobInv w' id := by
  have hconfirming : Confirming w' id → Confirming w id := by
    intro ⟨call, stage, hcall⟩
    exact ⟨call, stage, (hframe.calls call stage).mp hcall⟩
  refine
    { owner := fun call stage hcall => ?_
      idle := fun hnone => ?_
      early := fun call stage hcall hearly => ?_
      once := ?_
      undecided := fun hopen job hjob => ?_
      clean := fun job hjob hstatus => ?_ }
  · rw [hframe.confirmed]
    exact h.owner call stage ((hframe.calls call stage).mp hcall)
  · rw [hframe.dispatches]
    exact h.idle (hframe.confirmed ▸ hnone)
  · rw [hframe.dispatches]
    exact h.early call stage ((hframe.calls call stage).mp hcall) hearly
  · rw [hframe.dispatches]
    exact h.once
  · rw [hframe.jobs] at hjob
    rw [hframe.confirmed] at hopen
    exact h.undecided (hopen.imp_right hconfirming) job hjob
  · rw [hframe.jobs] at hjob
    exact h.clean job hjob hstatus

/-- The job a call works on. -/
def Call.job : Call → Text
  | .staging id => id
  | .confirming id _ => id

/-- The job an action works on. -/
def Action.job (w : World σ) : Action → Option Text
  | .create id _ _ => some id
  | .stage _ id _ _ => some id
  | .read _ id => some id
  | .mark call => (w.calls call).map Call.job
  | .start call => (w.calls call).map Call.job
  | .push call => (w.calls call).map Call.job
  | .finish call => (w.calls call).map Call.job

/-- A call slot of another job, before and after. -/
theorem update_confirming_iff {calls : Nat → Option Call} {call : Nat} {new : Option Call}
    (hold : ∀ stage, calls call ≠ some (.confirming id stage))
    (hnew : ∀ stage, new ≠ some (.confirming id stage)) (call' : Nat) (stage : ConfirmStage) :
    Function.update calls call new call' = some (.confirming id stage) ↔
      calls call' = some (.confirming id stage) := by
  by_cases h : call' = call
  · rw [h, Function.update_self]
    exact ⟨fun hn => absurd hn (hnew stage), fun ho => absurd ho (hold stage)⟩
  · rw [Function.update_of_ne h]

/-- A call of the job `target` takes a step. -/
theorem frames_advance {α : Type} {target : Text} {call : Nat}
    {m : ManagedOp (σ × JobLog) α} {next : α → Option Call} (hne : id ≠ target)
    (htouches : Fallible.Respects (Touches target) m)
    (hlog : (m w.managed).2.service.router.2.count (dispatchEntry id) =
      w.log.count (dispatchEntry id))
    (hold : ∀ c, w.calls call = some c → c.job = target)
    (hnew : ∀ a c, next a = some c → c.job = target) :
    Frames id w (w.advance call m next) := by
  refine
    { jobs := htouches w.managed id hne
      confirmed := rfl
      calls := update_confirming_iff ?_ ?_
      dispatches := hlog }
  · intro stage hcall
    exact hne (hold _ hcall)
  · intro stage hcall
    cases hrun : (m w.managed).1 with
    | error e =>
      rw [hrun] at hcall
      cases hcall
    | ok a =>
      rw [hrun] at hcall
      exact hne (hnew a _ hcall)

/-- The step of a call that leaves the router alone. -/
theorem frames_advance_of_service {α : Type} {target : Text} {call : Nat}
    {m : ManagedOp (σ × JobLog) α} {next : α → Option Call} (hne : id ≠ target)
    (htouches : Fallible.Respects (Touches target) m)
    (hservice : (m w.managed).2.service = w.managed.service)
    (hold : ∀ c, w.calls call = some c → c.job = target)
    (hnew : ∀ a c, next a = some c → c.job = target) :
    Frames id w (w.advance call m next) := by
  refine frames_advance hne htouches ?_ hold hnew
  rw [hservice]
  rfl

/-- A push leaves the job records alone. -/
theorem outcome_push_touches (link : RouterLink σ) (target contentB64 : Text) :
    Fallible.Respects (Touches target) (Fallible.outcome
      (onService (onRouter (pushRestore (jobLink link target) contentB64)) :
        ManagedOp (σ × JobLog) OperationResult)) :=
  fun _ _ _ => rfl

/-- A step does not concern the jobs it does not work on. -/
theorem Takes.frames (h : Takes link w a w') (hne : a.job w ≠ some id) : Frames id w w' := by
  cases h with
  | create target kind message hfresh =>
    have hother : id ≠ target := fun heq => hne (congrArg some heq.symm)
    exact
      { jobs := ManagementJobStore.put_other _ _ hother
        confirmed := rfl
        calls := fun _ _ => Iff.rfl
        dispatches := rfl }
  | stage call target filename contentB64 hcall =>
    have hother : id ≠ target := fun heq => hne (congrArg some heq.symm)
    refine frames_advance_of_service hother (stageUploaded_touches target filename contentB64)
      (stageUploaded_gentle target filename contentB64 w.managed).service ?_ ?_
    · intro c hc
      rw [hcall] at hc
      cases hc
    · intro _ c hc
      rw [← Option.some.inj hc]
      rfl
  | mark call target hcall =>
    have hjob : Action.job w (.mark call) = some target := by
      simp only [Action.job, hcall, Option.map_some, Call.job]
    have hother : id ≠ target := fun heq => hne (heq ▸ hjob)
    refine frames_advance_of_service hother (updateJob_touches target _)
      (awaitConfirmation_gentle target w.managed).service ?_
      fun _ c hc => absurd hc (Option.not_mem_none c)
    intro c hc
    rw [hcall] at hc
    rw [← Option.some.inj hc]
    rfl
  | refuse call target hcall e hread =>
    exact
      { jobs := rfl
        confirmed := rfl
        calls := fun _ _ => Iff.rfl
        dispatches := rfl }
  | accept call target filename contentB64 hcall hread =>
    have hother : id ≠ target := fun heq => hne (congrArg some heq.symm)
    refine
      { jobs := rfl
        confirmed := Function.update_of_ne hother _ _
        calls := update_confirming_iff ?_ ?_
        dispatches := rfl }
    · intro stage hc
      rw [hcall] at hc
      cases hc
    · intro stage hc
      exact hother (congrArg Call.job (Option.some.inj hc)).symm
  | start call target filename contentB64 hcall =>
    have hjob : Action.job w (.start call) = some target := by
      simp only [Action.job, hcall, Option.map_some, Call.job]
    have hother : id ≠ target := fun heq => hne (heq ▸ hjob)
    refine frames_advance_of_service hother (transition_touches target _ _ _ _)
      (transition_running_gentle target _ _ w.managed).service ?_ ?_
    · intro c hc
      rw [hcall] at hc
      rw [← Option.some.inj hc]
      rfl
    · intro _ c hc
      rw [← Option.some.inj hc]
      rfl
  | push call target filename contentB64 hcall =>
    have hjob : Action.job w (.push call) = some target := by
      simp only [Action.job, hcall, Option.map_some, Call.job]
    have hother : id ≠ target := fun heq => hne (heq ▸ hjob)
    refine frames_advance hother (outcome_push_touches link target contentB64)
      (pushRestore_other_count link contentB64 hother _) ?_ ?_
    · intro c hc
      rw [hcall] at hc
      rw [← Option.some.inj hc]
      rfl
    · intro _ c hc
      rw [← Option.some.inj hc]
      rfl
  | finish call target filename result hcall =>
    have hjob : Action.job w (.finish call) = some target := by
      simp only [Action.job, hcall, Option.map_some, Call.job]
    have hother : id ≠ target := fun heq => hne (heq ▸ hjob)
    refine frames_advance_of_service hother (finishRestore_touches target filename result)
      (finishRestore_service target filename result w.managed) ?_
      fun _ c hc => absurd hc (Option.not_mem_none c)
    intro c hc
    rw [hcall] at hc
    rw [← Option.some.inj hc]
    rfl

/-! ## Steps of the job itself -/

/-- A step that gives the job no error and no success, and dispatches nothing. -/
theorem JobInv.gentle (h : JobInv w id) (hgentle : Gentle w.managed w'.managed)
    (hconfirmed : w'.confirmed id = w.confirmed id)
    (hcalls : ∀ call stage, w'.calls call = some (.confirming id stage) →
      ∃ before, w.calls call = some (.confirming id before) ∧ (stage.early → before.early)) :
    JobInv w' id := by
  have hdispatches : w'.dispatches id = w.dispatches id := by
    rw [World.dispatches, World.dispatches, World.log, World.log, hgentle.service]
  have hconfirming : Confirming w' id → Confirming w id := by
    intro ⟨call, stage, hcall⟩
    obtain ⟨before, hbefore, _⟩ := hcalls call stage hcall
    exact ⟨call, before, hbefore⟩
  refine
    { owner := fun call stage hcall => ?_
      idle := fun hnone => ?_
      early := fun call stage hcall hearly => ?_
      once := ?_
      undecided := fun hopen job' hjob' => ?_
      clean := fun job' hjob' hstatus => ?_ }
  · obtain ⟨before, hbefore, _⟩ := hcalls call stage hcall
    rw [hconfirmed]
    exact h.owner call before hbefore
  · rw [hdispatches]
    exact h.idle (hconfirmed ▸ hnone)
  · obtain ⟨before, hbefore, hearlier⟩ := hcalls call stage hcall
    rw [hdispatches]
    exact h.early call before hbefore (hearlier hearly)
  · rw [hdispatches]
    exact h.once
  · obtain ⟨job, hjob, herror, hstatus⟩ := hgentle.jobs id job' hjob'
    rw [hconfirmed] at hopen
    obtain ⟨hundecided, hnoerror⟩ := h.undecided (hopen.imp_right hconfirming) job hjob
    exact ⟨fun hsucceeded => hundecided (hstatus hsucceeded), herror.trans hnoerror⟩
  · obtain ⟨job, hjob, herror, hbefore⟩ := hgentle.jobs id job' hjob'
    exact herror.trans (h.clean job hjob (hbefore hstatus))

/-- A step of a call slot that confirms nothing afterwards. -/
theorem calls_of_update_ne {calls : Nat → Option Call} {call : Nat} {new : Option Call}
    (hnew : ∀ stage, new ≠ some (.confirming id stage)) (call' : Nat) (stage : ConfirmStage)
    (hcall : Function.update calls call new call' = some (.confirming id stage)) :
    call' ≠ call ∧ calls call' = some (.confirming id stage) := by
  by_cases h : call' = call
  · rw [h, Function.update_self] at hcall
    exact absurd hcall (hnew stage)
  · rw [Function.update_of_ne h] at hcall
    exact ⟨h, hcall⟩

theorem JobInv.create (h : JobInv w id) (kind : JobKind) (message : Text) :
    JobInv
      { w with managed := { w.managed with jobs := w.managed.jobs.create id kind message } }
      id := by
  have hnew : ∀ job, w.managed.jobs.create id kind message id = some job → Undecided job := by
    intro job hjob
    rw [ManagementJobStore.create, ManagementJobStore.put_self] at hjob
    rw [← Option.some.inj hjob]
    exact ⟨nofun, rfl⟩
  exact
    { owner := h.owner
      idle := h.idle
      early := h.early
      once := h.once
      undecided := fun _ job hjob => hnew job hjob
      clean := fun job hjob _ => (hnew job hjob).2 }

/-- A first confirmation is admitted. -/
theorem JobInv.accept (h : JobInv w id) (hfirst : w.confirmed id = none) (call : Nat)
    (filename contentB64 : Text) :
    JobInv
      { w with
        calls := Function.update w.calls call
          (some (.confirming id (.admitted filename contentB64)))
        confirmed := Function.update w.confirmed id (some call) } id := by
  have hcalls : ∀ call' stage,
      Function.update w.calls call (some (.confirming id (.admitted filename contentB64))) call' =
        some (.confirming id stage) → call' = call := by
    intro call' stage hcall'
    by_contra hne
    rw [Function.update_of_ne hne] at hcall'
    have howner := h.owner call' stage hcall'
    rw [hfirst] at howner
    cases howner
  have hidle := h.idle hfirst
  refine
    { owner := fun call' stage hcall' => ?_
      idle := fun _ => hidle
      early := fun _ _ _ _ => hidle
      once := h.once
      undecided := fun _ => h.undecided (.inl hfirst)
      clean := h.clean }
  show Function.update w.confirmed id (some call) id = some call'
  rw [Function.update_self, hcalls call' stage hcall']

/-- The push of the call that was admitted. -/
theorem JobInv.push (h : JobInv w id) {call : Nat} {filename contentB64 : Text}
    (hcall : w.calls call = some (.confirming id (.started filename contentB64))) :
    JobInv
      (w.advance call
        (Fallible.outcome (onService (onRouter (pushRestore (jobLink link id) contentB64))))
        fun result => some (.confirming id (.pushed filename result))) id := by
  let w' := w.advance call
    (Fallible.outcome (onService (onRouter (pushRestore (jobLink link id) contentB64))))
    fun result => some (.confirming id (.pushed filename result))
  have hzero : w.dispatches id = 0 := h.early call _ hcall trivial
  have honce : w'.dispatches id ≤ 1 := by
    have hcount := pushRestore_count link id contentB64 w.managed.service.router
    rw [show w.managed.service.router.2.count (dispatchEntry id) = 0 from hzero] at hcount
    exact hcount
  have howned : w.confirmed id = some call := h.owner call _ hcall
  have hcalls : ∀ call' stage, w'.calls call' = some (.confirming id stage) →
      call' = call ∧ ¬stage.early := by
    intro call' stage hcall'
    by_cases hsame : call' = call
    · refine ⟨hsame, ?_⟩
      have hnext : w'.calls call = some (.confirming id (.pushed filename _)) :=
        Function.update_self call _ w.calls
      rw [hsame, hnext] at hcall'
      cases hcall'
      exact fun hearly => hearly
    · have hold : w'.calls call' = w.calls call' := Function.update_of_ne hsame _ w.calls
      rw [hold] at hcall'
      have howner := h.owner call' stage hcall'
      rw [howned] at howner
      exact absurd (Option.some.inj howner).symm hsame
  exact
    { owner := fun call' stage hcall' => by
        rw [(hcalls call' stage hcall').1]
        exact howned
      idle := fun hnone => by
        have hsome : w.confirmed id = none := hnone
        rw [howned] at hsome
        cases hsome
      early := fun call' stage hcall' hearly => absurd hearly (hcalls call' stage hcall').2
      once := honce
      undecided := fun _ => h.undecided (.inr ⟨call, _, hcall⟩)
      clean := h.clean }

/-- The end of the call that was admitted. -/
theorem JobInv.finish (h : JobInv w id) {call : Nat} {filename : Text}
    {result : Except ServiceError OperationResult}
    (hcall : w.calls call = some (.confirming id (.pushed filename result))) :
    JobInv (w.advance call (finishRestore id filename result) fun _ => none) id := by
  let w' := w.advance call (finishRestore id filename result) fun _ => none
  have hlog : w'.dispatches id = w.dispatches id := by
    have hservice := finishRestore_service id filename result w.managed
    show (finishRestore id filename result w.managed).2.service.router.2.count _ = _
    rw [hservice]
    rfl
  have hended : ∀ stage, (finishRestore id filename result w.managed).1.toOption.bind
      (fun _ => none) ≠ some (Call.confirming id stage) := by
    intro stage
    rw [Option.bind_fun_none]
    exact nofun
  have hcalls : ∀ call' stage, w'.calls call' ≠ some (.confirming id stage) := by
    intro call' stage hcall'
    obtain ⟨hne, hold⟩ := calls_of_update_ne hended call' stage hcall'
    have howner := h.owner call' stage hold
    rw [h.owner call _ hcall] at howner
    exact hne (Option.some.inj howner).symm
  have hundecided := h.undecided (.inr ⟨call, _, hcall⟩)
  refine
    { owner := fun call' stage hcall' => absurd hcall' (hcalls call' stage)
      idle := fun hnone => ?_
      early := fun call' stage hcall' => absurd hcall' (hcalls call' stage)
      once := by rw [hlog]; exact h.once
      undecided := fun hopen job' hjob' => ?_
      clean := fun job' hjob' hstatus => ?_ }
  · rw [hlog]
    exact h.idle hnone
  · rcases hopen with hnone | ⟨call', stage, hcall'⟩
    · have hsome : w.confirmed id = none := hnone
      rw [h.owner call _ hcall] at hsome
      cases hsome
    · exact absurd hcall' (hcalls call' stage)
  · obtain ⟨job, hjob, herror⟩ := finishRestore_clean hjob' hstatus
    rw [herror]
    exact (hundecided job hjob).2

theorem readStaged_pending {s : Managed σ} {staged : Text × Text}
    (h : readStaged id s = (.ok staged, s)) :
    (s.jobs id).any (·.pendingConfirmation) = true := by
  rw [readStaged, Fallible.bind_of_ok (getJob_apply id s)] at h
  cases hjob : s.jobs id with
  | none =>
    rw [hjob] at h
    cases h
  | some job =>
    rw [hjob] at h
    cases hpending : job.pendingConfirmation with
    | true => exact hpending
    | false =>
      simp only [hpending, Bool.false_eq_true, if_false] at h
      cases h

/-- **Every step taken under the condition keeps the invariant.** -/
theorem JobInv.step (h : JobInv w id) (hcondition : FirstConfirmation w a)
    (hstep : RestoreConfirm.step link a w = some w') : JobInv w' id := by
  have htakes := takes_of_step hstep
  by_cases hjob : a.job w = some id
  · cases htakes with
    | create target kind message hfresh =>
      obtain rfl := Option.some.inj hjob
      exact h.create kind message
    | stage call target filename contentB64 hcall =>
      obtain rfl := Option.some.inj hjob
      refine h.gentle (stageUploaded_gentle _ filename contentB64 w.managed) rfl ?_
      intro call' stage hcall'
      refine ⟨stage, (calls_of_update_ne ?_ call' stage hcall').2, fun hearly => hearly⟩
      intro stage'
      cases (stageUploaded _ filename contentB64 w.managed).1 <;> exact nofun
    | mark call target hcall =>
      refine h.gentle (awaitConfirmation_gentle target w.managed) rfl ?_
      intro call' stage hcall'
      refine ⟨stage, (calls_of_update_ne ?_ call' stage hcall').2, fun hearly => hearly⟩
      intro stage'
      cases (awaitConfirmation target w.managed).1 <;> exact nofun
    | refuse call target hcall e hread => exact h
    | accept call target filename contentB64 hcall hread =>
      obtain rfl := Option.some.inj hjob
      exact h.accept (hcondition (readStaged_pending hread)) call filename contentB64
    | start call target filename contentB64 hcall =>
      have htarget : target = id := by
        simpa only [Action.job, hcall, Option.map_some, Call.job, Option.some.injEq] using hjob
      subst htarget
      refine h.gentle (transition_running_gentle target _ _ w.managed) rfl ?_
      intro call' stage hcall'
      by_cases hsame : call' = call
      · rw [hsame]
        exact ⟨_, hcall, fun _ => trivial⟩
      · have hold : (w.advance call (beginRestore target) fun _ =>
            some (.confirming target (.started filename contentB64))).calls call' =
            w.calls call' := Function.update_of_ne hsame _ w.calls
        rw [hold] at hcall'
        exact ⟨stage, hcall', fun hearly => hearly⟩
    | push call target filename contentB64 hcall =>
      have htarget : target = id := by
        simpa only [Action.job, hcall, Option.map_some, Call.job, Option.some.injEq] using hjob
      subst htarget
      exact h.push hcall
    | finish call target filename result hcall =>
      have htarget : target = id := by
        simpa only [Action.job, hcall, Option.map_some, Call.job, Option.some.injEq] using hjob
      subst htarget
      exact h.finish hcall
  · exact h.frame (htakes.frames hjob)

/-! ## Runs -/

/-- The action is the first step of staging a backup for the job. -/
def Action.Stages (id : Text) : Action → Prop
  | .stage _ target _ _ => target = id
  | _ => False

/-- A success is only ended by staging another backup for the job. -/
theorem JobInv.succeeded_step (h : JobInv w id) {job : ManagementJob}
    (hjob : w.managed.jobs id = some job) (hstatus : job.status = .succeeded)
    (hstages : ¬a.Stages id) (hstep : RestoreConfirm.step link a w = some w') :
    ∃ job', w'.managed.jobs id = some job' ∧ job'.status = .succeeded := by
  have htakes := takes_of_step hstep
  have hquiet : ∀ call stage, w.calls call ≠ some (.confirming id stage) := by
    intro call stage hcall
    exact (h.undecided (.inr ⟨call, stage, hcall⟩) job hjob).1 hstatus
  by_cases hown : a.job w = some id
  · cases htakes with
    | create target kind message hfresh =>
      obtain rfl := Option.some.inj hown
      rw [hfresh] at hjob
      cases hjob
    | stage call target filename contentB64 hcall =>
      exact absurd (Option.some.inj hown) hstages
    | mark call target hcall =>
      have htarget : target = id := by
        simpa only [Action.job, hcall, Option.map_some, Call.job, Option.some.injEq] using hown
      subst htarget
      refine ⟨{ job with
        pendingConfirmation := true
        message := "Backup uploaded and validated. Confirm to restore the router." }, ?_, hstatus⟩
      show (awaitConfirmation target w.managed).2.jobs target = _
      rw [awaitConfirmation, markPending, updateJob_jobs, if_pos rfl, hjob]
      rfl
    | refuse call target hcall e hread => exact ⟨job, hjob, hstatus⟩
    | accept call target filename contentB64 hcall hread => exact ⟨job, hjob, hstatus⟩
    | start call target filename contentB64 hcall =>
      have htarget : target = id := by
        simpa only [Action.job, hcall, Option.map_some, Call.job, Option.some.injEq] using hown
      exact absurd (htarget ▸ hcall) (hquiet call _)
    | push call target filename contentB64 hcall => exact ⟨job, hjob, hstatus⟩
    | finish call target filename result hcall =>
      have htarget : target = id := by
        simpa only [Action.job, hcall, Option.map_some, Call.job, Option.some.injEq] using hown
      exact absurd (htarget ▸ hcall) (hquiet call _)
  · rw [(htakes.frames hown).jobs]
    exact ⟨job, hjob, hstatus⟩

/-- The invariant along a run. -/
theorem jobInv_run {as : List Action} (h : ∀ id, JobInv w id)
    (hmeets : Runs.Meets (step link) FirstConfirmation as w)
    (hrun : Runs.run (step link) as w = some w') : ∀ id, JobInv w' id := by
  refine Runs.run_invariant (I := fun w => ∀ id, JobInv w id) ?_ h hmeets hrun
  intro w a w' hinv hcondition hstep id
  exact (hinv id).step hcondition hstep

/-- A success lasts along a run that stages nothing for the job. -/
theorem succeeded_run {as : List Action} (h : ∀ id, JobInv w id)
    (hmeets : Runs.Meets (step link) FirstConfirmation as w)
    (hrun : Runs.run (step link) as w = some w') {job : ManagementJob}
    (hjob : w.managed.jobs id = some job) (hstatus : job.status = .succeeded)
    (hstages : ∀ a ∈ as, ¬a.Stages id) :
    ∃ job', w'.managed.jobs id = some job' ∧ job'.status = .succeeded := by
  have hboth := @Runs.run_invariant _ _ (step link)
    (fun w a => FirstConfirmation w a ∧ ¬a.Stages id)
    (fun w => (∀ id, JobInv w id) ∧
      ∃ job, w.managed.jobs id = some job ∧ job.status = .succeeded)
    ?_ as w w' ⟨h, job, hjob, hstatus⟩ (Runs.meets_and hmeets hstages) hrun
  · exact hboth.2
  · intro w a w' ⟨hinv, job, hjob, hstatus⟩ ⟨hcondition, hstages⟩ hstep
    refine ⟨fun id => (hinv id).step hcondition hstep, ?_⟩
    exact (hinv id).succeeded_step hjob hstatus hstages hstep

/-- What a state of the system promises: no job was dispatched twice, and along
every run under the condition `C` a job that succeeded stays succeeded without
an error until another backup is staged for it. -/
structure RestoresOnce (link : RouterLink σ) (C : World σ → Action → Prop) (w : World σ) :
    Prop where
  dispatchedOnce : ∀ id, w.dispatches id ≤ 1
  successLasts : ∀ bs w', Runs.run (step link) bs w = some w' →
    Runs.Meets (step link) C bs w →
    ∀ id job, w.managed.jobs id = some job → job.status = .succeeded →
      (∀ b ∈ bs, ¬b.Stages id) →
      ∃ job', w'.managed.jobs id = some job' ∧ job'.status = .succeeded ∧ job'.error = none

/-- Every run from an empty job store under the condition `C` keeps the promise. -/
def ConfirmsSafely (link : RouterLink σ) (service : ServiceState (σ × JobLog))
    (C : World σ → Action → Prop) : Prop :=
  ∀ as w, Runs.run (step link) as (World.initial service) = some w →
    Runs.Meets (step link) C as (World.initial service) → RestoresOnce link C w

/--
**Confirmed once, a restore is dispatched once and its success lasts.**

This holds for every router, in every interleaving of staging and confirm calls
that admits at most one confirmation of each job.
-/
theorem confirmsSafely_of_firstConfirmation (link : RouterLink σ)
    (service : ServiceState (σ × JobLog)) :
    ConfirmsSafely link service FirstConfirmation := by
  intro as w hrun hmeets
  have hinv := jobInv_run (JobInv.initial service) hmeets hrun
  refine
    { dispatchedOnce := fun id => (hinv id).once
      successLasts := ?_ }
  intro bs w' hrun' hmeets' id job hjob hstatus hstages
  obtain ⟨job', hjob', hstatus'⟩ := succeeded_run hinv hmeets' hrun' hjob hstatus hstages
  have hinv' := jobInv_run hinv hmeets' hrun'
  exact ⟨job', hjob', hstatus', (hinv' id).clean job' hjob' hstatus'⟩

/-! ## Confirming twice -/

/-- A router that accepts an upload of two bytes. -/
def twoByteLink : RouterLink Unit where
  configured _ := true
  connect s := (.ok (), s)
  exec text _ s :=
    (.ok
      (if text = wrapCommand sizeCommand then "2\n\n__AI_EXIT__=0\n"
        else "\n__AI_EXIT__=0\n" : String), s)
  close s := s
  monotonic _ := 0

def freshService : ServiceState (Unit × JobLog) := { router := ((), []) }

/-- A restore job with a staged gzip header. -/
def stagedScript : List Action :=
  [.create "job" .restore "Queued", .stage 0 "job" "backup.tar.gz" "H4s=", .mark 0]

/-- One whole confirm call. -/
def confirmScript (call : Nat) : List Action :=
  [.read call "job", .start call, .push call, .finish call]

/-- The dispatches of the job after a run, with its status. -/
def outcomeOf (as : List Action) : Option (Nat × Option JobStatus) :=
  (Runs.run (step twoByteLink) as (World.initial freshService)).map fun w =>
    (w.dispatches "job", (w.managed.jobs "job").map (·.status))

/-- A run that confirms the job once meets the condition. -/
theorem confirmsSafely_confirmScript :
    ∃ w, Runs.run (step twoByteLink) (stagedScript ++ confirmScript 0)
        (World.initial freshService) = some w ∧
      w.dispatches "job" = 1 ∧ RestoresOnce twoByteLink FirstConfirmation w := by
  have houtcome : outcomeOf (stagedScript ++ confirmScript 0) = some (1, some .succeeded) := by
    decide +kernel
  obtain ⟨w, hrun, hw⟩ := Option.map_eq_some_iff.mp houtcome
  refine ⟨w, hrun, (Prod.mk.inj hw).1, ?_⟩
  exact confirmsSafely_of_firstConfirmation twoByteLink freshService _ w hrun
    (by decide)

/-- Two overlapping confirmations dispatch twice. -/
theorem overlapping_confirmations :
    outcomeOf (stagedScript ++
      [.read 0 "job", .read 1 "job", .start 0, .start 1, .push 0, .push 1]) =
        some (2, some .running) := by
  decide +kernel

/-- A confirmation after a success leaves the job failed. -/
theorem confirmation_after_success :
    outcomeOf (stagedScript ++ confirmScript 0) = some (1, some .succeeded) ∧
      outcomeOf (stagedScript ++ confirmScript 0 ++ confirmScript 1) =
        some (1, some .failed) := by
  refine ⟨?_, ?_⟩ <;> decide +kernel

/-- Without the condition neither half of the promise is kept. -/
theorem not_confirmsSafely :
    ¬ConfirmsSafely twoByteLink freshService (fun _ _ => True) ∧
      ∃ w w', Runs.run (step twoByteLink) (stagedScript ++ confirmScript 0)
          (World.initial freshService) = some w ∧
        Runs.run (step twoByteLink) (confirmScript 1) w = some w' ∧
        (w.managed.jobs "job").map (·.status) = some .succeeded ∧
        (w'.managed.jobs "job").map (·.status) = some .failed := by
  constructor
  · intro hsafe
    obtain ⟨w, hrun, hw⟩ := Option.map_eq_some_iff.mp overlapping_confirmations
    have honce := (hsafe _ w hrun (by decide)).dispatchedOnce "job"
    rw [(Prod.mk.inj hw).1] at honce
    omega
  · obtain ⟨w, hrun, hw⟩ := Option.map_eq_some_iff.mp confirmation_after_success.1
    obtain ⟨w', hrun', hw'⟩ := Option.map_eq_some_iff.mp confirmation_after_success.2
    refine ⟨w, w', hrun, ?_, (Prod.mk.inj hw).2, (Prod.mk.inj hw').2⟩
    rw [Runs.run_append hrun] at hrun'
    exact hrun'

end OpenWrtCopilot.Ports.RestoreConfirm
