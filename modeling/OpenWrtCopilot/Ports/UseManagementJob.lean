import OpenWrtCopilot.Verified.PyText
import OpenWrtCopilot.Verified.Runs

/-!
# The job runner of a management panel

Ports `useManagementJob`.  An operation of the panel is an asynchronous function that awaits one
thing after another; between two awaits it runs alone, and any other operation, `reset` or the end
of the panel may come in between.  All operations share one flag, which every start sets again.

## Main results

* `orderly_iff` — when a single operation runs at a time and the panel shows that one.
-/

namespace OpenWrtCopilot.Ports.UseManagementJob

open Verified
open Verified.PyText

/-! ## Jobs and operations -/

/-- `JobStatus`. -/
inductive JobStatus
  | queued
  | running
  | succeeded
  | failed
  deriving DecidableEq

/-- `ManagementJob`, as far as the hook looks at it. -/
structure Job where
  id : Text
  status : JobStatus
  message : Text
  error : Option Text := none

/-- `TERMINAL_STATUSES.has(status)`. -/
def terminal (job : Job) : Bool := job.status = .succeeded ∨ job.status = .failed

/-- The operations of the runner: `begin`, which every `run…` calls with polling, `stageRestore`
and `confirmRestore`. -/
inductive Kind
  | run
  | stage
  | confirm (jobId : Text)

/-- What an operation awaits, or how it was settled. -/
inductive Phase
  /-- `readFileAsBase64`. -/
  | reading
  /-- `confirmJob`. -/
  | confirming
  /-- The request that gives the first job. -/
  | requesting
  | sleeping (current : Job)
  | fetching (current : Job)
  /-- The end of `pollUntilTerminal`. -/
  | polled (current : Job)
  | resolved (job : Job)
  | rejected (message : Text)

structure Operation where
  kind : Kind
  phase : Phase

/-- The promise of the operation is settled. -/
def Phase.Settled : Phase → Prop
  | .resolved _ => True
  | .rejected _ => True
  | _ => False

/-- The state and the ref of the hook.  What is shown stands with the operation that set it. -/
structure Runner where
  active : Bool := false
  busy : Bool := false
  job : Option (Nat × Job) := none
  error : Option (Nat × Text) := none
  operations : List Operation := []
  /-- It was reset or unmounted. -/
  stopped : Bool := false

/-- What an awaited thing comes to. -/
inductive Answer
  | done
  | job (job : Job)
  | error (message : Text)

/-! ## Steps -/

section

variable (k : Nat)

/-- The loop of `pollUntilTerminal`. -/
def poll (s : Runner) (current : Job) : Phase :=
  if s.active && !terminal current then .sleeping current else .polled current

/-- `fail`, and `throw e`. -/
def fail (message : Text) (s : Runner) : Runner × Phase :=
  ({ s with error := some (k, message), busy := false }, .rejected message)

/-- What follows `await pollUntilTerminal(…)`. -/
def finish (kind : Kind) (finished : Job) (s : Runner) : Runner × Phase :=
  if !s.active then (s, .resolved finished)
  else
    let s :=
      match kind with
      | .confirm _ => { s with job := some (k, finished), busy := false }
      | _ => { s with busy := false }
    match finished.error with
    | some (c :: cs) => fail k (c :: cs) s
    | _ =>
        if finished.status = .failed then fail k finished.message s
        else (s, .resolved finished)

/-- What follows the request that gives the first job. -/
def created (kind : Kind) (job : Job) (s : Runner) : Runner × Phase :=
  match kind with
  | .run =>
      if s.active then
        let s := { s with job := some (k, job) }
        (s, poll s job)
      else (s, .resolved job)
  | .stage =>
      (if s.active then { s with job := some (k, job), busy := false } else s, .resolved job)
  | .confirm _ => (s, poll s job)

/-- What follows `fetchJob` in the loop. -/
def fetched (job : Job) (s : Runner) : Runner × Phase :=
  if s.active then
    let s := { s with job := some (k, job), error := job.error.map fun message => (k, message) }
    (s, poll s job)
  else (s, .polled job)

/-- An operation goes on until its next `await`. -/
def advance (kind : Kind) : Phase → Answer → Runner → Option (Runner × Phase)
  | .reading, .done, s => some (s, .requesting)
  | .confirming, .done, s => some (s, .requesting)
  | .requesting, .job job, s => some (created k kind job s)
  | .sleeping current, .done, s =>
      some (s, if s.active then .fetching current else .polled current)
  | .fetching _, .job job, s => some (fetched k job s)
  | .polled finished, .done, s => some (finish k kind finished s)
  | .reading, .error message, s => some (fail k message s)
  | .confirming, .error message, s => some (fail k message s)
  | .requesting, .error message, s => some (fail k message s)
  | .fetching _, .error message, s => some (fail k message s)
  | _, _, _ => none

end

inductive Action
  | start (kind : Kind)
  | settle (k : Nat) (answer : Answer)
  | reset
  | unmount

/-- What an operation awaits first. -/
def firstPhase : Kind → Phase
  | .run => .requesting
  | .stage => .reading
  | .confirm _ => .confirming

/-- The start of an operation; `confirmRestore` leaves the shown job. -/
def start (kind : Kind) (s : Runner) : Runner :=
  { s with
    active := true
    busy := true
    error := none
    job := match kind with
      | .confirm _ => s.job
      | _ => none
    operations := s.operations ++ [{ kind := kind, phase := firstPhase kind }] }

def step : Action → Runner → Option Runner
  | .start kind, s => some (start kind s)
  | .settle k answer, s =>
      match s.operations[k]? with
      | none => none
      | some op =>
          (advance k op.kind op.phase answer s).map fun next =>
            { next.1 with operations := s.operations.set k { op with phase := next.2 } }
  | .reset, s =>
      some { s with active := false, busy := false, job := none, error := none, stopped := true }
  | .unmount, s => some { s with active := false, stopped := true }

/-! ## One operation at a time -/

/-- The shown job is of the last operation, or is the one that it confirms. -/
def Belongs (s : Runner) (k : Nat) (job : Job) : Prop :=
  k + 1 = s.operations.length ∨
    (s.operations.map Operation.kind).getLast? = some (.confirm job.id)

/-- At most one operation is in flight, the panel shows the job and the error of the last one,
and a run resolves with a job that succeeded unless the runner was reset or unmounted. -/
structure Orderly (s : Runner) : Prop where
  single : ∀ (i j : Nat) (op op' : Operation), s.operations[i]? = some op →
    s.operations[j]? = some op' → ¬op.phase.Settled → ¬op'.phase.Settled → i = j
  shown : ∀ k job, s.job = some (k, job) → Belongs s k job
  told : ∀ k message, s.error = some (k, message) → k + 1 = s.operations.length
  succeeded : s.stopped = false → ∀ op ∈ s.operations, ∀ job, op.kind ≠ .stage →
    op.phase = .resolved job → job.status = .succeeded

/-- An operation starts when every other one is settled, and a confirmation under the job that it
confirms, if one is shown. -/
def Waits (s : Runner) : Action → Prop
  | .start kind =>
      (∀ op ∈ s.operations, op.phase.Settled) ∧
        ∀ k job, s.job = some (k, job) → ∀ jobId, kind = .confirm jobId → job.id = jobId
  | _ => True

/-- What else holds while the operations wait for each other. -/
structure Sound (s : Runner) : Prop extends Orderly s where
  last : ∀ (k : Nat) (op : Operation), s.operations[k]? = some op → ¬op.phase.Settled →
    k + 1 = s.operations.length
  earlier : ∀ k job, s.job = some (k, job) → k < s.operations.length
  active : s.stopped = false → s.operations ≠ [] → s.active = true
  polled : s.stopped = false → ∀ op ∈ s.operations, ∀ job, op.phase = .polled job →
    terminal job = true

/-! ## One step of an operation -/

/-- What an operation does until its next `await`. -/
structure Advanced (k : Nat) (kind : Kind) (phase : Phase) (s : Runner) (next : Runner × Phase) :
    Prop where
  active : next.1.active = s.active
  stopped : next.1.stopped = s.stopped
  job : next.1.job = s.job ∨ ∃ job, next.1.job = some (k, job)
  error : next.1.error = s.error ∨ ∀ other message, next.1.error = some (other, message) → other = k
  polled : s.active = true → ∀ job, next.2 = .polled job → terminal job = true
  succeeded : s.active = true → (∀ job, phase = .polled job → terminal job = true) → ∀ job,
    kind ≠ .stage → next.2 = .resolved job → job.status = .succeeded

section

variable {k : Nat} {kind : Kind} {phase : Phase} {s : Runner}

theorem poll_polled {current job : Job} (hactive : s.active = true)
    (h : poll s current = .polled job) : terminal job = true := by
  rw [poll, hactive, Bool.true_and] at h
  split at h
  · cases h
  · next hterminal =>
      obtain rfl := Phase.polled.inj h
      simpa using hterminal

theorem poll_ne_resolved (s : Runner) (current job : Job) : poll s current ≠ .resolved job := by
  rw [poll]
  split <;> exact nofun

theorem Advanced.of_same {next : Phase}
    (hpolled : s.active = true → ∀ job, next = .polled job → terminal job = true)
    (hresolved : s.active = true → ∀ job, kind ≠ .stage → next ≠ .resolved job) :
    Advanced k kind phase s (s, next) :=
  ⟨rfl, rfl, .inl rfl, .inl rfl, hpolled,
    fun hactive _ job hkind h => absurd h (hresolved hactive job hkind)⟩

theorem Advanced.fail (message : Text) : Advanced k kind phase s (fail k message s) where
  active := rfl
  stopped := rfl
  job := .inl rfl
  error := .inr fun _ _ h => (Prod.mk.inj (Option.some.inj h)).1.symm
  polled _ _ h := nomatch h
  succeeded _ _ _ _ h := nomatch h

theorem Advanced.created (job : Job) : Advanced k kind phase s (created k kind job s) := by
  cases kind with
  | run =>
    rw [UseManagementJob.created]
    split
    · exact ⟨rfl, rfl, .inr ⟨job, rfl⟩, .inl rfl, fun hactive _ h => poll_polled hactive h,
        fun _ _ _ _ h => absurd h (poll_ne_resolved _ _ _)⟩
    · next hactive => exact .of_same nofun fun h => absurd h hactive
  | stage =>
    rw [UseManagementJob.created]
    split
    · exact ⟨rfl, rfl, .inr ⟨job, rfl⟩, .inl rfl, nofun, fun _ _ _ hkind => absurd rfl hkind⟩
    · exact .of_same nofun fun _ _ hkind => absurd rfl hkind
  | confirm jobId =>
    exact .of_same (fun hactive _ h => poll_polled hactive h) fun _ _ _ => poll_ne_resolved _ _ _

theorem Advanced.fetched (job : Job) : Advanced k kind phase s (fetched k job s) := by
  rw [UseManagementJob.fetched]
  split
  · refine ⟨rfl, rfl, .inr ⟨job, rfl⟩, .inr fun other message h => ?_,
      fun hactive _ h => poll_polled hactive h, fun _ _ _ _ h => absurd h (poll_ne_resolved _ _ _)⟩
    obtain ⟨_, _, heq⟩ := Option.map_eq_some_iff.mp h
    exact (Prod.mk.inj heq).1.symm
  · next hactive => exact .of_same (fun h => absurd h hactive) fun h => absurd h hactive

/-- The job of a confirmation is shown before the outcome is looked at. -/
theorem Advanced.after {t : Runner} {next : Runner × Phase} (h : Advanced k kind phase t next)
    (hactive : t.active = s.active) (hstopped : t.stopped = s.stopped)
    (hjob : t.job = s.job ∨ ∃ job, t.job = some (k, job)) (herror : t.error = s.error) :
    Advanced k kind phase s next where
  active := h.active.trans hactive
  stopped := h.stopped.trans hstopped
  job := h.job.elim (fun hsame => hsame ▸ hjob) .inr
  error := h.error.imp_left fun hsame => hsame.trans herror
  polled hs := h.polled (hactive.trans hs)
  succeeded hs := h.succeeded (hactive.trans hs)

theorem Advanced.finish (finished : Job) :
    Advanced k kind (.polled finished) s (finish k kind finished s) := by
  have houtcome : ∀ t : Runner, t.active = s.active → t.stopped = s.stopped →
      (t.job = s.job ∨ ∃ job, t.job = some (k, job)) → t.error = s.error →
      Advanced k kind (.polled finished) s
        (match finished.error with
        | some (c :: cs) => UseManagementJob.fail k (c :: cs) t
        | _ =>
          if finished.status = .failed then UseManagementJob.fail k finished.message t
          else (t, .resolved finished)) := by
    intro t hactive hstopped hjob herror
    refine Advanced.after ?_ hactive hstopped hjob herror
    split
    · exact .fail _
    · split
      · exact .fail _
      · next hfailed =>
          refine ⟨rfl, rfl, .inl rfl, .inl rfl, nofun, fun _ hpolled job _ h => ?_⟩
          obtain rfl := Phase.resolved.inj h
          exact (of_decide_eq_true (hpolled finished rfl)).resolve_right hfailed
  unfold UseManagementJob.finish
  split
  · next hactive =>
      exact .of_same nofun fun h => absurd h (by simpa using hactive)
  · refine houtcome _ ?_ ?_ ?_ ?_
    · cases kind <;> rfl
    · cases kind <;> rfl
    · cases kind with
      | confirm jobId => exact .inr ⟨finished, rfl⟩
      | run => exact .inl rfl
      | stage => exact .inl rfl
    · cases kind <;> rfl

/-- An operation that goes on was not settled. -/
theorem advanced_of_advance {answer : Answer} {next : Runner × Phase}
    (h : advance k kind phase answer s = some next) :
    ¬phase.Settled ∧ Advanced k kind phase s next := by
  unfold advance at h
  split at h
  case h_11 => cases h
  all_goals
    obtain rfl := Option.some.inj h
    refine ⟨not_false, ?_⟩
  · exact .of_same nofun nofun
  · exact .of_same nofun nofun
  · exact .created _
  · refine .of_same (fun hactive => ?_) fun hactive => ?_
    · rw [if_pos hactive]
      exact nofun
    · rw [if_pos hactive]
      exact nofun
  · exact .fetched _
  · exact .finish _
  all_goals exact .fail _

end

/-! ## Every step -/

theorem Sound.begin : Sound {} where
  single _ _ _ _ h := nomatch h
  shown := nofun
  told := nofun
  succeeded _ _ h := nomatch h
  last _ _ h := nomatch h
  earlier := nofun
  active _ h := absurd rfl h
  polled _ _ h := nomatch h

/-- Where only the last operation may be in flight, no two are. -/
theorem single_of_last {s : Runner}
    (h : ∀ (k : Nat) (op : Operation), s.operations[k]? = some op → ¬op.phase.Settled →
      k + 1 = s.operations.length) (i j : Nat) (op op' : Operation)
    (hi : s.operations[i]? = some op) (hj : s.operations[j]? = some op')
    (hop : ¬op.phase.Settled) (hop' : ¬op'.phase.Settled) : i = j := by
  have hilast := h i op hi hop
  have hjlast := h j op' hj hop'
  omega

/-- The first phase of an operation is no result. -/
theorem firstPhase_ne (kind : Kind) (job : Job) :
    firstPhase kind ≠ .polled job ∧ firstPhase kind ≠ .resolved job := by
  cases kind <;> exact ⟨nofun, nofun⟩

theorem not_settled_firstPhase (kind : Kind) : ¬(firstPhase kind).Settled := by
  cases kind <;> exact not_false

/-- The job that a start leaves. -/
theorem job_start {s : Runner} {kind : Kind} {k : Nat} {job : Job}
    (h : (start kind s).job = some (k, job)) :
    s.job = some (k, job) ∧ ∃ jobId, kind = .confirm jobId := by
  cases kind with
  | confirm jobId => exact ⟨h, jobId, rfl⟩
  | run => cases h
  | stage => cases h

theorem Sound.start {s : Runner} (h : Sound s) {kind : Kind} (hwaits : Waits s (.start kind)) :
    Sound (start kind s) := by
  have hlength : (UseManagementJob.start kind s).operations.length = s.operations.length + 1 :=
    List.length_append
  have hlast : ∀ (k : Nat) (op : Operation),
      (UseManagementJob.start kind s).operations[k]? = some op →
      ¬op.phase.Settled → k + 1 = (UseManagementJob.start kind s).operations.length := by
    intro k op hop hphase
    rw [hlength]
    have hk : k < s.operations.length + 1 := hlength ▸ (List.getElem?_eq_some_iff.mp hop).1
    by_contra hne
    have hbefore : k < s.operations.length := by omega
    refine hphase (hwaits.1 op (List.mem_of_getElem? (i := k) ?_))
    exact (List.getElem?_append_left hbefore).symm.trans hop
  have hmem : ∀ op ∈ (UseManagementJob.start kind s).operations,
      op ∈ s.operations ∨ op = { kind := kind, phase := firstPhase kind } :=
    fun op hop => (List.mem_append.mp hop).imp_right List.mem_singleton.mp
  exact
    { single := single_of_last hlast
      shown := fun k job hjob => by
        obtain ⟨hbefore, jobId, rfl⟩ := job_start hjob
        rw [Belongs, UseManagementJob.start, List.map_append, List.getLast?_append,
          hwaits.2 k job hbefore jobId rfl]
        exact .inr rfl
      told := nofun
      succeeded := fun hstopped op hop job hkind hphase => by
        obtain hop | rfl := hmem op hop
        · exact h.succeeded hstopped op hop job hkind hphase
        · exact absurd hphase (firstPhase_ne kind job).2
      last := hlast
      earlier := fun k job hjob =>
        hlength ▸ Nat.lt_succ_of_lt (h.earlier k job (job_start hjob).1)
      active := fun _ _ => rfl
      polled := fun hstopped op hop job hphase => by
        obtain hop | rfl := hmem op hop
        · exact h.polled hstopped op hop job hphase
        · exact absurd hphase (firstPhase_ne kind job).1 }

/-- A step of the only operation that is in flight. -/
theorem Sound.settle {s : Runner} (h : Sound s) {k : Nat} {op : Operation}
    (hop : s.operations[k]? = some op) {answer : Answer} {next : Runner × Phase}
    (hnext : advance k op.kind op.phase answer s = some next) :
    Sound { next.1 with operations := s.operations.set k { op with phase := next.2 } } := by
  obtain ⟨hphase, hadvanced⟩ := advanced_of_advance hnext
  have hk : k + 1 = s.operations.length := h.last k op hop hphase
  have hlength : (s.operations.set k { op with phase := next.2 }).length = s.operations.length :=
    List.length_set
  have hmem : op ∈ s.operations := List.mem_of_getElem? hop
  have hactive : s.stopped = false → s.active = true :=
    fun hs => h.active hs (List.ne_nil_of_mem hmem)
  have hkinds : (s.operations.set k { op with phase := next.2 }).map Operation.kind =
      s.operations.map Operation.kind := by
    have hkind : (s.operations.map Operation.kind)[k]? = some op.kind := by
      rw [List.getElem?_map, hop]
      rfl
    obtain ⟨hlt, hget⟩ := List.getElem?_eq_some_iff.mp hkind
    rw [List.map_set]
    exact (congrArg (List.set _ k) hget.symm).trans (List.set_getElem_self hlt)
  have hlast : ∀ (i : Nat) (other : Operation),
      (s.operations.set k { op with phase := next.2 })[i]? = some other →
      ¬other.phase.Settled → i + 1 = (s.operations.set k { op with phase := next.2 }).length := by
    intro i other hother hunsettled
    rw [hlength]
    by_cases hi : k = i
    · exact hi ▸ hk
    · rw [List.getElem?_set_ne hi] at hother
      exact h.last i other hother hunsettled
  exact
    { single := single_of_last hlast
      shown := fun j job hjob => by
        rw [Belongs, hlength, hkinds]
        obtain hsame | ⟨shown, heq⟩ := hadvanced.job
        · exact h.shown j job (hsame.symm.trans hjob)
        · exact .inl ((Prod.mk.inj (Option.some.inj (heq.symm.trans hjob))).1 ▸ hk)
      told := fun j message herror => by
        rw [hlength]
        obtain hsame | hown := hadvanced.error
        · exact h.told j message (hsame.symm.trans herror)
        · exact hown j message herror ▸ hk
      succeeded := fun hstopped other hother job hkind hresolved => by
        have hs : s.stopped = false := hadvanced.stopped.symm.trans hstopped
        obtain hother | rfl := List.mem_or_eq_of_mem_set hother
        · exact h.succeeded hs other hother job hkind hresolved
        · exact hadvanced.succeeded (hactive hs) (h.polled hs op hmem) job hkind hresolved
      last := hlast
      earlier := fun j job hjob => by
        rw [hlength]
        obtain hsame | ⟨shown, heq⟩ := hadvanced.job
        · exact h.earlier j job (hsame.symm.trans hjob)
        · obtain rfl := (Prod.mk.inj (Option.some.inj (heq.symm.trans hjob))).1
          omega
      active := fun hstopped _ => by
        have hs : s.stopped = false := hadvanced.stopped.symm.trans hstopped
        exact hadvanced.active.trans (hactive hs)
      polled := fun hstopped other hother job hpolled => by
        have hs : s.stopped = false := hadvanced.stopped.symm.trans hstopped
        obtain hother | rfl := List.mem_or_eq_of_mem_set hother
        · exact h.polled hs other hother job hpolled
        · exact hadvanced.polled (hactive hs) job hpolled }

/-! ## Every run -/

theorem Sound.step {s s' : Runner} {a : Action} (h : Sound s) (hwaits : Waits s a)
    (hstep : step a s = some s') : Sound s' := by
  cases a with
  | start kind =>
    obtain rfl := Option.some.inj hstep
    exact h.start hwaits
  | settle k answer =>
    rw [UseManagementJob.step] at hstep
    split at hstep
    · cases hstep
    · next op hop =>
        obtain ⟨next, hnext, rfl⟩ := Option.map_eq_some_iff.mp hstep
        exact h.settle hop hnext
  | reset =>
    obtain rfl := Option.some.inj hstep
    exact { h with shown := nofun, told := nofun, succeeded := nofun, earlier := nofun,
                   active := nofun, polled := nofun }
  | unmount =>
    obtain rfl := Option.some.inj hstep
    exact { h with succeeded := nofun, active := nofun, polled := nofun }

/-- An operation that starts while another one is in flight, or a confirmation under the job of
another operation. -/
theorem not_orderly_of_not_waits {s s' : Runner} {a : Action} (h : Sound s) (hwaits : ¬Waits s a)
    (hstep : step a s = some s') : ¬Orderly s' := by
  intro horderly
  cases a with
  | start kind =>
    obtain rfl := Option.some.inj hstep
    have hnew : (start kind s).operations[s.operations.length]? =
        some { kind := kind, phase := firstPhase kind } :=
      List.getElem?_concat_length
    refine hwaits ⟨fun op hop => ?_, fun k job hjob jobId hkind => ?_⟩
    · by_contra hunsettled
      obtain ⟨i, hi, hget⟩ := List.getElem_of_mem hop
      have hold : (start kind s).operations[i]? = some op := by
        refine (List.getElem?_append_left hi).trans ?_
        rw [List.getElem?_eq_getElem hi, hget]
      have hsame := horderly.single i _ op _ hold hnew hunsettled (not_settled_firstPhase kind)
      omega
    · subst hkind
      obtain hlast | hconfirmed := horderly.shown k job hjob
      · have hbefore := h.earlier k job hjob
        have hlength : (start (.confirm jobId) s).operations.length = s.operations.length + 1 :=
          List.length_append
        omega
      · rw [start, List.map_append, List.getLast?_append] at hconfirmed
        exact (Kind.confirm.inj (Option.some.inj hconfirmed)).symm
  | settle k answer => exact hwaits trivial
  | reset => exact hwaits trivial
  | unmount => exact hwaits trivial

/-- **A single operation runs at a time, and the panel shows that one, exactly if every operation
starts when the others are settled.** -/
theorem orderly_iff (actions : List Action) (s : Runner)
    (hrun : Runs.run step actions {} = some s) :
    Runs.Always step Orderly actions {} ↔ Runs.Meets step Waits actions {} :=
  Runs.always_iff_meets (fun _ h => h.toOrderly) (fun _ _ _ => Sound.step)
    (fun _ _ _ => not_orderly_of_not_waits) Sound.begin hrun

/-- A job that is polled once. -/
theorem polled_once : Runs.Always step Orderly
    [.start .run, .settle 0 (.job ⟨['a'], .queued, [], none⟩), .settle 0 .done,
      .settle 0 (.job ⟨['a'], .succeeded, [], none⟩), .settle 0 .done] {} :=
  (orderly_iff _ _ rfl).mpr
    ⟨⟨nofun, nofun⟩, fun _ _ => ⟨trivial, fun _ _ => ⟨trivial, fun _ _ => ⟨trivial, fun _ _ =>
      ⟨trivial, fun _ _ => trivial⟩⟩⟩⟩⟩

end OpenWrtCopilot.Ports.UseManagementJob
