import OpenWrtCopilot.Ports.ManagementRestore
import OpenWrtCopilot.Ports.ManagementJobs

/-!
# What an operation sends to the router

`recording note link` is a link over router states with a log: every text handed
to the transport is logged, under the entry `note` makes of it, whatever the
router answers.  `Sends P` relates a state to the states with a longer log whose
new entries satisfy `P`; it is a two-state invariant in the sense of
`Fallible.Respects`, so what an operation can send is read off its text.

## Main results

* `Respects.run`, `Respects.withTransport` — a session sends what its body does.
* `Respects.perform` — a planned operation sends its plan's command.
-/

namespace OpenWrtCopilot.Ports.Management

open Verified
open Verified.PyText
open Verified.Chunks

variable {σ ι α : Type}

/-- The link with a log of the texts handed to the transport. -/
def recording (note : Text → ι) (link : RouterLink σ) : RouterLink (σ × List ι) where
  configured s := link.configured s.1
  connect s := ((link.connect s.1).1, (link.connect s.1).2, s.2)
  exec text timeout s :=
    ((link.exec text timeout s.1).1, (link.exec text timeout s.1).2, s.2 ++ [note text])
  close s := (link.close s.1, s.2)
  monotonic s := link.monotonic s.1

/-- The log grew by entries that satisfy `P`. -/
def Sends (P : ι → Prop) (s s' : σ × List ι) : Prop :=
  ∃ new, s'.2 = s.2 ++ new ∧ ∀ i ∈ new, P i

instance (P : ι → Prop) : Std.Refl (Sends (σ := σ) P) where
  refl s := ⟨[], (List.append_nil s.2).symm, fun _ hi => absurd hi List.not_mem_nil⟩

instance (P : ι → Prop) : IsTrans (σ × List ι) (Sends P) where
  trans := by
    intro s t u ⟨first, hfirst, hfirstP⟩ ⟨second, hsecond, hsecondP⟩
    refine ⟨first ++ second, by rw [hsecond, hfirst, List.append_assoc], ?_⟩
    intro i hi
    rcases List.mem_append.mp hi with h | h
    · exact hfirstP i h
    · exact hsecondP i h

/-- A step that leaves the log alone. -/
theorem Sends.of_log_eq {P : ι → Prop} {s s' : σ × List ι} (h : s'.2 = s.2) : Sends P s s' :=
  ⟨[], by rw [h, List.append_nil], fun _ hi => absurd hi List.not_mem_nil⟩

theorem Sends.mono {P Q : ι → Prop} (hPQ : ∀ i, P i → Q i) {s s' : σ × List ι}
    (h : Sends P s s') : Sends Q s s' := by
  obtain ⟨new, hnew, hP⟩ := h
  exact ⟨new, hnew, fun i hi => hPQ i (hP i hi)⟩

/-- `Sends` for a state that holds the logged router. -/
def SendsVia {τ : Type} (router : τ → σ × List ι) (P : ι → Prop) (s s' : τ) : Prop :=
  Sends P (router s) (router s')

instance {τ : Type} (router : τ → σ × List ι) (P : ι → Prop) : Std.Refl (SendsVia router P) where
  refl s := refl_of (Sends P) (router s)

instance {τ : Type} (router : τ → σ × List ι) (P : ι → Prop) : IsTrans τ (SendsVia router P) where
  trans _ _ _ first second := trans_of (Sends P) first second

/-- The logged router of a service with its jobs. -/
abbrev Managed.router (s : Managed (σ × List ι)) : σ × List ι := s.service.router

theorem Respects.onRouter {P : ι → Prop} {m : Op (σ × List ι) α}
    (h : Fallible.Respects (Sends P) m) :
    Fallible.Respects (SendsVia ServiceState.router P) (Management.onRouter m) :=
  fun s => h s.router

theorem Respects.onService {P : ι → Prop} {m : ServiceOp (σ × List ι) α}
    (h : Fallible.Respects (SendsVia ServiceState.router P) m) :
    Fallible.Respects (SendsVia Managed.router P) (Management.onService m) :=
  fun s => h s.service

/-- Changing a job record sends nothing. -/
theorem Respects.updateJob {P : ι → Prop} (id : Text) (f : ManagementJob → ManagementJob) :
    Fallible.Respects (SendsVia Managed.router P)
      (Management.updateJob id f : ManagedOp (σ × List ι) Unit) := by
  intro s
  refine Sends.of_log_eq ?_
  show (Management.updateJob id f s).2.service.router.2 = _
  rw [updateJob_service]

theorem Respects.getJob {P : ι → Prop} (id : Text) :
    Fallible.Respects (SendsVia Managed.router P)
      (Management.getJob id : ManagedOp (σ × List ι) (Option ManagementJob)) :=
  fun s => refl_of (SendsVia Managed.router P) s

/-- A wrapper sends what its operation sends. -/
theorem Respects.trackOperation {P : ι → Prop} {operation : ServiceOp (σ × List ι) α}
    (h : Fallible.Respects (SendsVia ServiceState.router P) operation) (id start : Text)
    (judge : α → JobStatus) (message : α → Text) (record : α → JobResult)
    (failure : Text → Option Text) :
    Fallible.Respects (SendsVia Managed.router P)
      (Management.trackOperation id start operation judge message record failure) := by
  refine Fallible.Respects.bind (Respects.updateJob id _) fun _ => ?_
  refine Fallible.Respects.bind ?_ fun _ => Respects.getJob id
  refine Fallible.Respects.attempt ?_ fun _ => Respects.updateJob id _
  exact Fallible.Respects.bind (Respects.onService h) fun _ => Respects.updateJob id _

/-! ## Sessions -/

section Sending

variable {P : ι → Prop} (note : Text → ι) (link : RouterLink σ)

/-- The log after a command. -/
theorem run_recording_log (command : Text) (timeout : Option Nat) (s : σ × List ι) :
    (run (recording note link) command timeout s).2.2 = s.2 ++ [note (wrapCommand command)] := by
  rw [run_snd]
  rfl

theorem Respects.run {command : Text} (h : P (note (wrapCommand command)))
    (timeout : Option Nat) :
    Fallible.Respects (Sends P) (Management.run (recording note link) command timeout) := by
  intro s
  refine ⟨[note (wrapCommand command)], run_recording_log note link command timeout s, ?_⟩
  intro i hi
  rw [List.mem_singleton.mp hi]
  exact h

theorem openSession_recording_log (s : σ × List ι) :
    (openSession (recording note link) s).2.2 = s.2 := by
  unfold openSession
  by_cases hconfigured : (recording note link).configured s
  · rw [if_pos hconfigured]
    cases hconnect : (recording note link).connect s with
    | mk answer s' =>
      have hlog : s'.2 = s.2 := by
        have hsnd : ((recording note link).connect s).2.2 = s.2 := rfl
        rw [hconnect] at hsnd
        exact hsnd
      cases answer <;> exact hlog
  · rw [if_neg hconfigured]

/-- The log after a session is the one its body leaves, if the session opens. -/
theorem withTransport_recording_log (body : Op (σ × List ι) α) (s : σ × List ι) :
    (withTransport (recording note link) body s).2.2 = s.2 ∨
      ∃ opened, opened.2 = s.2 ∧
        (withTransport (recording note link) body s).2.2 = (body opened).2.2 := by
  have hlog := openSession_recording_log note link s
  cases hopen : openSession (recording note link) s with
  | mk answer opened =>
    rw [hopen] at hlog
    cases answer with
    | error e =>
      left
      rw [Management.withTransport, Fallible.bind_of_error hopen]
      exact hlog
    | ok u =>
      right
      refine ⟨opened, hlog, ?_⟩
      rw [Management.withTransport, Fallible.bind_of_ok hopen]
      rfl

theorem Respects.withTransport {body : Op (σ × List ι) α}
    (h : Fallible.Respects (Sends P) body) :
    Fallible.Respects (Sends P) (Management.withTransport (recording note link) body) := by
  refine Fallible.Respects.bind ?_ ?_
  · intro s
    exact Sends.of_log_eq (openSession_recording_log note link s)
  · intro _
    exact Fallible.Respects.ensuring h fun s => Sends.of_log_eq rfl

/-- The command a plan sends satisfies `P`. -/
def Planned.Sending (note : Text → ι) (P : ι → Prop) (planned : Planned) : Prop :=
  ∀ command timeout describe, planned = .ok (.send command timeout describe) →
    P (note (wrapCommand command))

theorem Respects.perform {planned : Planned} (h : planned.Sending note P) :
    Fallible.Respects (Sends P) (Management.perform (recording note link) planned) := by
  cases planned with
  | error e => exact Fallible.Respects.raise e
  | ok plan =>
    cases plan with
    | done result => exact Fallible.Respects.pure result
    | send command timeout describe =>
      refine Respects.withTransport note link (Fallible.Respects.bind ?_ ?_)
      · exact Respects.run note link (h command timeout describe rfl) (some timeout)
      · intro answer
        exact Fallible.Respects.ofExcept _

/-- Commands sent only for their answer. -/
theorem Respects.requireOk {command : Text} (h : P (note (wrapCommand command)))
    (timeout : Option Nat) (failure : CommandResult → Text) :
    Fallible.Respects (Sends P)
      (Management.requireOk (recording note link) command timeout failure) := by
  refine Fallible.Respects.bind (Respects.run note link h timeout) ?_
  intro answer
  refine Fallible.Respects.ite ?_ ?_
  · intro _
    exact Fallible.Respects.raise_bind _ _
  · intro _
    exact Fallible.Respects.pure answer

end Sending

end OpenWrtCopilot.Ports.Management
