import OpenWrtCopilot.Ports.ManagementJobStatus

/-!
# DNS changes on a router

A DNS change sends one command.  What becomes of it is decided by the router and
by the connection: the session may not open, and an accepted command may be
answered, or be lost before or after the router ran it.  `uncertainLink` is the
transport that shows all of these.

The operations of `RouterManagementService` that change DNS settings unpack the
result of `_dns_run` as a pair, which it is not, so they raise after the command
has run.  Only `reload` and `restart`, which go through `action`, return.

## Main results

* `dnsOperation_returns`, `dnsOperation_raises` — which requests return once their
  command was sent.
* `dnsFaithful_iff` — when a request reports what happened on the router.
-/

namespace OpenWrtCopilot.Ports.Management

open Verified
open Verified.PyText
open Verified.ShellList

variable {σ : Type}

/-! ## What becomes of a command -/

/-- The connection during a command. -/
inductive Delivery
  | answered
  /-- Lost before the router ran the command. -/
  | lostBefore
  /-- Lost after it. -/
  | lostAfter
  deriving DecidableEq

/-- A router with the shell `sh`, over a connection that may fail. -/
def uncertainLink (sh : RemoteShell σ) (reach : σ → Except Text Unit)
    (delivery : Text → σ → Delivery) : RouterLink σ where
  configured _ := true
  connect s := (reach s, s)
  exec wrapped _ s :=
    let command := unwrapCommand wrapped
    let o := (wrapper command).run sh 0 s
    match delivery command s with
    | .answered => (.ok o.output, o.state)
    | .lostBefore => (.error "SSH connection lost", s)
    | .lostAfter => (.error "SSH connection lost", o.state)
  close s := s
  monotonic _ := 0

section Uncertain

variable (sh : RemoteShell σ) (reach : σ → Except Text Unit) (delivery : Text → σ → Delivery)

/-- Over this transport a result is ok exactly when the command was answered. -/
theorem run_uncertainLink (command : Text) (timeout : Option Nat) (s : σ) :
    ∃ result s', run (uncertainLink sh reach delivery) command timeout s = (.ok result, s') ∧
      result.ok = decide (delivery command s = .answered) := by
  cases hdelivery : delivery command s with
  | answered =>
    have hexec : (uncertainLink sh reach delivery).exec (wrapCommand command) timeout s =
        (.ok ((sh command s).output ++ '\n' :: (exitSentinel ++ "0\n")),
          (sh command s).state) := by
      simp only [uncertainLink, unwrapCommand_wrapCommand, hdelivery, wrapper_output,
        wrapper_state]
    exact ⟨_, _, by rw [run, hexec], by rw [readAnswer_wrapper_output]; rfl⟩
  | lostBefore =>
    have hexec : (uncertainLink sh reach delivery).exec (wrapCommand command) timeout s =
        (.error "SSH connection lost", s) := by
      simp only [uncertainLink, unwrapCommand_wrapCommand, hdelivery]
    exact ⟨_, _, by rw [run, hexec], rfl⟩
  | lostAfter =>
    have hexec : (uncertainLink sh reach delivery).exec (wrapCommand command) timeout s =
        (.error "SSH connection lost", (sh command s).state) := by
      simp only [uncertainLink, unwrapCommand_wrapCommand, hdelivery, wrapper_state]
    exact ⟨_, _, by rw [run, hexec], rfl⟩

/-- Without a session nothing is sent. -/
theorem pkgRun_of_unreachable {s : σ} {message : Text} (h : reach s = .error message)
    (command : Text) (timeout : Nat) :
    pkgRun (uncertainLink sh reach delivery) command timeout s =
      (.error (.transport message), s) := by
  have hopen : openSession (uncertainLink sh reach delivery) s =
      (.error (.transport message), s) := by
    simp only [openSession, uncertainLink, if_true, h]
  rw [pkgRun, withTransport, Fallible.bind_of_error hopen]

theorem pkgRun_of_reachable {s : σ} (h : reach s = .ok ()) (command : Text) (timeout : Nat) :
    ∃ result, (pkgRun (uncertainLink sh reach delivery) command timeout s).1 = .ok result ∧
      result.ok = decide (delivery command s = .answered) := by
  have hopen : openSession (uncertainLink sh reach delivery) s = (.ok (), s) := by
    simp only [openSession, uncertainLink, if_true, h]
  obtain ⟨result, s', hrun, hok⟩ :=
    run_uncertainLink sh reach delivery command (some timeout) s
  refine ⟨result, ?_, hok⟩
  rw [pkgRun, withTransport, Fallible.bind_of_ok hopen, Fallible.ensuring_apply, hrun]

end Uncertain

/-! ## The requests -/

/-- The requests that go through `action`. -/
def DnsRequest.restarts (r : DnsRequest) : Prop :=
  r.action = "reload".toList ∨ r.action = "restart".toList

instance (r : DnsRequest) : Decidable r.restarts := by
  unfold DnsRequest.restarts
  infer_instance

/-- `reload` and `restart` pass the `ok` of the answer on. -/
theorem dnsOperation_returns {r : DnsRequest} (h : r.restarts) :
    ∃ command describe, dnsOperation r = .ok (.send command 90 describe) ∧
      ∀ answer, (describe answer).map (·.ok) = .ok answer.ok := by
  rcases h with h | h
  · rw [dnsOperation, if_pos h]
    exact ⟨_, _, rfl, fun _ => rfl⟩
  · have hreload : r.action ≠ "reload".toList := by rw [h]; decide
    rw [dnsOperation, if_neg hreload, if_pos h]
    exact ⟨_, _, rfl, fun _ => rfl⟩

/-- A change either is refused or raises once its command was sent. -/
def Planned.Raises (planned : Planned) : Prop :=
  (∃ e, planned = .error e) ∨
    ∃ command timeout describe, planned = .ok (.send command timeout describe) ∧
      ∀ answer, ∃ e, describe answer = .error e

theorem dnsChange_raises (command failure success : Text) :
    Planned.Raises (.ok (dnsChange command failure success)) :=
  Or.inr ⟨command, 90, _, rfl, fun _ => ⟨_, rfl⟩⟩

theorem checked_dnsChange_raises (check : Except ServiceError Unit)
    (command failure success : Text) :
    Planned.Raises (check.bind fun _ => .ok (dnsChange command failure success)) := by
  cases check with
  | error e => exact Or.inl ⟨e, rfl⟩
  | ok _ => exact dnsChange_raises command failure success

theorem server_raises (server : Text) :
    Planned.Raises (dnsAddServer server) ∧ Planned.Raises (dnsRemoveServer server) := by
  unfold dnsAddServer dnsRemoveServer
  by_cases h : dnsServerPattern server = true
  · simp only [if_pos h]
    exact ⟨dnsChange_raises _ _ _, dnsChange_raises _ _ _⟩
  · simp only [if_neg h]
    exact ⟨Or.inl ⟨_, rfl⟩, Or.inl ⟨_, rfl⟩⟩

/-- Every other request raises, before or after its command. -/
theorem dnsOperation_raises {r : DnsRequest} (h : ¬ r.restarts) : (dnsOperation r).Raises := by
  obtain ⟨hreload, hrestart⟩ := not_or.mp h
  rw [dnsOperation, if_neg hreload, if_neg hrestart]
  split
  · exact dnsChange_raises _ _ _
  split
  · exact (server_raises _).1
  split
  · exact (server_raises _).2
  split
  · exact checked_dnsChange_raises (validateDnsHost _ _) _ _ _
  split
  · exact checked_dnsChange_raises (validateDnsHost _ _) _ _ _
  · exact Or.inl ⟨_, rfl⟩

/-! ## Reports and the router -/

/-- The command a request gets to the router: none when its arguments are refused
or the session does not open. -/
def DnsRequest.sent (r : DnsRequest) (reach : σ → Except Text Unit) (s : σ) : Option Text :=
  match reach s, dnsOperation r with
  | .ok _, .ok (.send command _ _) => some command
  | _, _ => none

/-- The router ran the command, and it succeeded. -/
def Applied (sh : RemoteShell σ) (delivery : Text → σ → Delivery) (s : σ) (command : Text) :
    Prop :=
  delivery command s ≠ .lostBefore ∧ (sh command s).status = 0

/-- A request reports what happened: an operation whose command was sent returns,
and its `ok` is the success of the command, and the job is marked `succeeded`
exactly when the change was applied. -/
structure DnsFaithful (sh : RemoteShell σ) (reach : σ → Except Text Unit)
    (delivery : Text → σ → Delivery) (r : DnsRequest) (id : Text) (s : Managed σ) : Prop where
  returns : ∀ command, r.sent reach s.service.router = some command →
    ∃ result,
      (perform (uncertainLink sh reach delivery) (dnsOperation r) s.service.router).1 =
        .ok result ∧
      (result.ok = true ↔ Applied sh delivery s.service.router command)
  marks : ∃ final,
    (runDnsJob (uncertainLink sh reach delivery) id r s).1 = .ok (some final) ∧
    (final.status = .succeeded ↔
      ∃ command, r.sent reach s.service.router = some command ∧
        Applied sh delivery s.service.router command)

section Outcome

variable (sh : RemoteShell σ) (reach : σ → Except Text Unit) (delivery : Text → σ → Delivery)

/-- What raises after its command ends in an exception. -/
theorem Planned.Raises.outcome {planned : Planned} (h : planned.Raises) (s : σ) :
    ∃ e, planned.outcome (uncertainLink sh reach delivery) s = .error e := by
  rcases h with ⟨e, rfl⟩ | ⟨command, timeout, describe, rfl, hdescribe⟩
  · exact ⟨e, rfl⟩
  · rw [Planned.outcome, perform_send_fst]
    cases (pkgRun (uncertainLink sh reach delivery) command timeout s).1 with
    | error e => exact ⟨e, rfl⟩
    | ok answer =>
      obtain ⟨e, he⟩ := hdescribe answer
      exact ⟨e, congrArg (Except.map _) he⟩

theorem outcome_of_restarts {r : DnsRequest} {s : σ} {command : Text}
    (hsent : r.sent reach s = some command) (h : r.restarts) :
    (dnsOperation r).outcome (uncertainLink sh reach delivery) s =
      .ok (decide (delivery command s = .answered)) := by
  obtain ⟨planned, describe, hplanned, hdescribe⟩ := dnsOperation_returns h
  cases hreach : reach s with
  | error message =>
    rw [DnsRequest.sent, hreach] at hsent
    cases hsent
  | ok _ =>
    rw [DnsRequest.sent, hreach, hplanned] at hsent
    obtain rfl := Option.some.inj hsent
    obtain ⟨answer, hanswer, hok⟩ := pkgRun_of_reachable sh reach delivery hreach planned 90
    rw [Planned.outcome, hplanned, perform_send_fst, hanswer]
    exact (hdescribe answer).trans (congrArg Except.ok hok)

theorem outcome_of_not_sent {r : DnsRequest} {s : σ} (hsent : r.sent reach s = none) :
    ∃ e, (dnsOperation r).outcome (uncertainLink sh reach delivery) s = .error e := by
  by_cases h : r.restarts
  · obtain ⟨command, describe, hplanned, -⟩ := dnsOperation_returns h
    cases hreach : reach s with
    | error message =>
      rw [Planned.outcome, hplanned, perform_send_fst,
        pkgRun_of_unreachable sh reach delivery hreach]
      exact ⟨_, rfl⟩
    | ok _ =>
      rw [DnsRequest.sent, hreach, hplanned] at hsent
      cases hsent
  · exact (dnsOperation_raises h).outcome sh reach delivery s

/--
**A DNS request reports what happened on the router exactly when nothing was
sent, or when it is a `reload` or `restart` that was answered and succeeded.**

A change whose command was sent raises whatever became of it, so it never does.
-/
theorem dnsFaithful_iff (r : DnsRequest) (id : Text) (s : Managed σ) (job : ManagementJob)
    (hjob : s.jobs id = some job) :
    DnsFaithful sh reach delivery r id s ↔
      ∀ command, r.sent reach s.service.router = some command →
        r.restarts ∧ delivery command s.service.router = .answered ∧
          (sh command s.service.router).status = 0 := by
  obtain ⟨final, hfinal, hstatus⟩ :=
    JobRequest.run_status (uncertainLink sh reach delivery) (.dns r) id hjob
  have hmarks : final.status = .succeeded ↔
      ∃ ok, (dnsOperation r).outcome (uncertainLink sh reach delivery) s.service.router =
        .ok ok := by
    rw [hstatus]
    show statusOf false ((dnsOperation r).outcome (uncertainLink sh reach delivery)
      s.service.router) = _ ↔ _
    cases (dnsOperation r).outcome (uncertainLink sh reach delivery) s.service.router with
    | error e =>
      constructor
      · rintro ⟨⟩
      · rintro ⟨_, ⟨⟩⟩
    | ok ok => exact ⟨fun _ => ⟨ok, rfl⟩, fun _ => rfl⟩
  constructor
  · rintro ⟨hreturns, other, hother, hsucceeded⟩ command hsent
    obtain ⟨result, hresult, hok⟩ := hreturns command hsent
    have houtcome : (dnsOperation r).outcome (uncertainLink sh reach delivery) s.service.router =
        .ok result.ok := by
      rw [Planned.outcome, hresult]
      rfl
    have hrestarts : r.restarts := by
      by_contra hchange
      obtain ⟨e, he⟩ := (dnsOperation_raises hchange).outcome sh reach delivery s.service.router
      rw [he] at houtcome
      cases houtcome
    -- The job is marked `succeeded`, so the change must have been applied.
    obtain rfl : final = other := Option.some.inj (Except.ok.inj (hfinal.symm.trans hother))
    obtain ⟨command', hsent', happlied⟩ := hsucceeded.mp (hmarks.mpr ⟨result.ok, houtcome⟩)
    obtain rfl : command = command' := Option.some.inj (hsent.symm.trans hsent')
    have hanswered : decide (delivery command s.service.router = .answered) = true := by
      rw [outcome_of_restarts sh reach delivery hsent hrestarts] at houtcome
      exact (Except.ok.inj houtcome).trans (hok.mpr happlied)
    exact ⟨hrestarts, of_decide_eq_true hanswered, happlied.2⟩
  · intro h
    cases hsent : r.sent reach s.service.router with
    | none =>
      obtain ⟨e, he⟩ := outcome_of_not_sent sh reach delivery hsent
      refine ⟨fun command hcommand => ?_, final, hfinal, ?_⟩
      · rw [hsent] at hcommand
        cases hcommand
      · rw [hmarks, he, hsent]
        constructor
        · rintro ⟨_, ⟨⟩⟩
        · rintro ⟨_, ⟨⟩, _⟩
    | some command =>
      obtain ⟨hrestarts, hanswered, hzero⟩ := h command hsent
      have happlied : Applied sh delivery s.service.router command :=
        ⟨by rw [hanswered]; decide, hzero⟩
      have houtcome := outcome_of_restarts sh reach delivery hsent hrestarts
      refine ⟨fun command' hsent' => ?_, final, hfinal, ?_⟩
      · obtain rfl : command = command' := Option.some.inj (hsent.symm.trans hsent')
        rw [Planned.outcome] at houtcome
        cases hperform : (perform (uncertainLink sh reach delivery) (dnsOperation r)
            s.service.router).1 with
        | error e =>
          rw [hperform] at houtcome
          cases houtcome
        | ok result =>
          rw [hperform] at houtcome
          have hok : result.ok = decide (delivery command s.service.router = .answered) :=
            Except.ok.inj houtcome
          refine ⟨result, rfl, ?_⟩
          rw [hok, decide_eq_true_eq]
          exact ⟨fun _ => happlied, fun _ => hanswered⟩
      · rw [hmarks, hsent]
        exact ⟨fun _ => ⟨command, rfl, happlied⟩, fun _ => ⟨_, houtcome⟩⟩

end Outcome

/-- A router on which every command succeeds. -/
def obligingShell : RemoteShell Unit := fun _ _ => { output := [], status := 0, state := () }

/-- On it, a restart is reported as what it was. -/
theorem restart_dnsFaithful :
    DnsFaithful obligingShell (fun _ => .ok ()) (fun _ _ => .answered)
      { action := "restart", server := none, hostname := none, ip := none, enabled := false }
      "3f2a" (oneJob .dns) := by
  refine (dnsFaithful_iff _ _ _ _ _ _ _ (oneJob_get .dns)).mpr ?_
  intro command _
  exact ⟨Or.inr rfl, rfl, rfl⟩

/-- Adding an upstream server succeeds there, and is reported as a failed job. -/
theorem addServer_not_dnsFaithful :
    ¬ DnsFaithful obligingShell (fun _ => .ok ()) (fun _ _ => .answered)
      { action := "add-server", server := some "1.1.1.1", hostname := none, ip := none,
        enabled := false }
      "3f2a" (oneJob .dns) := by
  intro h
  have hchange : ¬ DnsRequest.restarts
      { action := "add-server", server := some "1.1.1.1", hostname := none, ip := none,
        enabled := false } := by
    decide
  obtain ⟨result, hresult, -⟩ := h.returns _ (by rfl)
  obtain ⟨e, he⟩ := (dnsOperation_raises hchange).outcome obligingShell (fun _ => .ok ())
    (fun _ _ => .answered) ()
  rw [Planned.outcome] at he
  rw [show (oneJob .dns).service.router = () from rfl] at hresult
  rw [hresult] at he
  cases he

end OpenWrtCopilot.Ports.Management
