import OpenWrtCopilot.Ports.ManagementJobs

/-!
# When a job's status agrees with its operation

The job wrappers differ in whether the result's `ok` decides the final status.
This file compares the status a wrapper ends with to the outcome of the
operation it ran, for every request and every behaviour of the router, and
traces an `ok` that is false back to the router's answer to one command.

## Main results

* `Planned.outcome_eq_false_iff`, `outcome_eq_false_iff` — an operation reports
  a failure exactly when the command that decides its result is answered with one.
* `JobRequest.run_status` — the status a request's wrapper ends with.
* `status_agrees_iff` — when status and operation agree.
-/

namespace OpenWrtCopilot.Ports.Management

open Verified
open Verified.PyText

variable {σ : Type}

/-! ## Answers -/

/-- Sent in a session of its own, the command is answered with a failure (or not
answered); the session did open. -/
def AnswersFailure (link : RouterLink σ) (command : Text) (timeout : Nat) (s : σ) : Prop :=
  ∃ result, (pkgRun link command timeout s).1 = .ok result ∧ result.ok = false

/-- A planned command is sent the way `_pkg_run` sends one, and its answer is
described. -/
theorem perform_send_fst (link : RouterLink σ) (command : Text) (timeout : Nat)
    (describe : CommandResult → Except ServiceError OperationResult) (s : σ) :
    (perform link (.ok (.send command timeout describe)) s).1 =
      (pkgRun link command timeout s).1.bind describe := by
  cases hopen : openSession link s with
  | mk answer opened =>
    cases answer with
    | error e =>
      rw [perform, pkgRun, withTransport, withTransport, Fallible.bind_of_error hopen,
        Fallible.bind_of_error hopen]
      rfl
    | ok u =>
      rw [perform, pkgRun, withTransport, withTransport, Fallible.bind_of_ok hopen,
        Fallible.bind_of_ok hopen, Fallible.ensuring_apply, Fallible.ensuring_apply]
      cases hrun : run link command (some timeout) opened with
      | mk outcome s' =>
        cases outcome with
        | error e =>
          rw [Fallible.bind_of_error hrun]
          rfl
        | ok result =>
          rw [Fallible.bind_of_ok hrun]
          rfl

theorem map_ok_eq_false_iff (link : RouterLink σ) (command : Text) (timeout : Nat) (s : σ) :
    (pkgRun link command timeout s).1.map (·.ok) = .ok false ↔
      AnswersFailure link command timeout s := by
  unfold AnswersFailure
  cases (pkgRun link command timeout s).1 with
  | error e => simp [Except.map]
  | ok result => simp [Except.map]

/-! ## Plans that pass a failure on -/

/-- Whether a described answer reports a failure. -/
def saysFailure : Except ServiceError OperationResult → Bool
  | .ok result => !result.ok
  | .error _ => false

/-- The answer to a command the transport lost. -/
def lostAnswer (command : Text) : CommandResult :=
  { command := command, ok := false, stdout := [], exitCode := 1, error := some [] }

/-- The command of a plan whose failure its result reports as such, with its
timeout. -/
def Plan.deciding : Plan → Option (Text × Nat)
  | .done _ => none
  | .send command timeout describe =>
      if saysFailure (describe (lostAnswer command)) then some (command, timeout) else none

/-- The description looks at nothing but the answer's `ok` to decide whether to
report a failure, and a plan without a command reports none. -/
def Plan.Uniform : Plan → Prop
  | .done result => result.ok = true
  | .send command _ describe =>
      ∀ answer, saysFailure (describe answer) =
        (!answer.ok && saysFailure (describe (lostAnswer command)))

/-- Every plan the arguments can lead to is uniform. -/
def Planned.Uniform (planned : Planned) : Prop := ∀ plan, planned = .ok plan → plan.Uniform

/-- The deciding command of a planned operation. -/
def Planned.deciding : Planned → Option (Text × Nat)
  | .ok plan => plan.deciding
  | .error _ => none

/-- The `ok` entry of the result a planned operation returns. -/
def Planned.outcome (link : RouterLink σ) (planned : Planned) (s : σ) : Except ServiceError Bool :=
  (perform link planned s).1.map (·.ok)

theorem Plan.deciding_send_eq_some_iff (command : Text) (timeout : Nat)
    (describe : CommandResult → Except ServiceError OperationResult) (command' : Text)
    (timeout' : Nat) :
    (Plan.send command timeout describe).deciding = some (command', timeout') ↔
      saysFailure (describe (lostAnswer command)) = true ∧
        command' = command ∧ timeout' = timeout := by
  show (if saysFailure (describe (lostAnswer command)) then some (command, timeout) else none) =
      some (command', timeout') ↔ _
  by_cases hsaid : saysFailure (describe (lostAnswer command)) = true
  · rw [if_pos hsaid, Option.some.injEq, Prod.mk.injEq]
    exact ⟨fun h => ⟨hsaid, h.1.symm, h.2.symm⟩, fun h => ⟨h.2.1.symm, h.2.2.symm⟩⟩
  · rw [if_neg hsaid]
    exact ⟨nofun, fun h => absurd h.1 hsaid⟩

theorem saysFailure_iff (described : Except ServiceError OperationResult) :
    saysFailure described = true ↔ described.map (·.ok) = .ok false := by
  cases described with
  | error e => simp [saysFailure, Except.map]
  | ok result => simp [saysFailure, Except.map]

/-- **A planned operation reports a failure exactly when its deciding command is
answered with one.** -/
theorem Planned.outcome_eq_false_iff (link : RouterLink σ) {planned : Planned}
    (huniform : planned.Uniform) (s : σ) :
    planned.outcome link s = .ok false ↔
      ∃ command timeout, planned.deciding = some (command, timeout) ∧
        AnswersFailure link command timeout s := by
  cases planned with
  | error e =>
    constructor
    · intro h
      cases h
    · intro ⟨_, _, h, _⟩
      cases h
  | ok plan =>
    have hplan := huniform plan rfl
    cases plan with
    | done result =>
      constructor
      · intro h
        have hok : result.ok = false := Except.ok.inj h
        rw [show result.ok = true from hplan] at hok
        cases hok
      · intro ⟨_, _, h, _⟩
        cases h
    | send command timeout describe =>
      have hdeciding : ∀ command' timeout',
          Planned.deciding (.ok (.send command timeout describe)) =
              some (command', timeout') ↔
            saysFailure (describe (lostAnswer command)) = true ∧
              command' = command ∧ timeout' = timeout :=
        Plan.deciding_send_eq_some_iff command timeout describe
      rw [Planned.outcome, perform_send_fst, ← saysFailure_iff]
      cases hanswer : (pkgRun link command timeout s).1 with
      | error e =>
        constructor
        · intro h
          cases h
        · intro ⟨command', timeout', hcommand, result, hresult, _⟩
          obtain ⟨_, rfl, rfl⟩ := (hdeciding _ _).mp hcommand
          rw [hanswer] at hresult
          cases hresult
      | ok answer =>
        show saysFailure (describe answer) = true ↔ _
        rw [hplan answer, Bool.and_eq_true, Bool.not_eq_true']
        constructor
        · intro ⟨hfailed, hsaid⟩
          exact ⟨command, timeout, (hdeciding _ _).mpr ⟨hsaid, rfl, rfl⟩,
            answer, hanswer, hfailed⟩
        · intro ⟨command', timeout', hcommand, result, hresult, hfailed⟩
          obtain ⟨hsaid, rfl, rfl⟩ := (hdeciding _ _).mp hcommand
          rw [hanswer] at hresult
          cases hresult
          exact ⟨hfailed, hsaid⟩

/-! ## Every planned operation is uniform -/

/-- A description that copies the answer's `ok`. -/
theorem Plan.uniform_of_copies {command : Text} {timeout : Nat}
    {describe : CommandResult → Except ServiceError OperationResult}
    (h : ∀ answer, ∃ result, describe answer = .ok result ∧ result.ok = answer.ok) :
    (Plan.send command timeout describe).Uniform := by
  intro answer
  obtain ⟨result, hresult, hok⟩ := h answer
  obtain ⟨lost, hlost, hlostOk⟩ := h (lostAnswer command)
  rw [hresult, hlost]
  simp only [saysFailure, hok, hlostOk, lostAnswer, Bool.not_false, Bool.and_true]

/-- A description that never reports a failure. -/
theorem Plan.uniform_of_never {command : Text} {timeout : Nat}
    {describe : CommandResult → Except ServiceError OperationResult}
    (h : ∀ answer, saysFailure (describe answer) = false) :
    (Plan.send command timeout describe).Uniform := by
  intro answer
  rw [h, h, Bool.and_false]

theorem Planned.uniform_ok {plan : Plan} (h : plan.Uniform) : Planned.Uniform (.ok plan) := by
  intro plan' hplan
  cases hplan
  exact h

theorem Planned.uniform_reject (message : Text) : Planned.Uniform (reject message) := by
  intro plan hplan
  cases hplan

theorem Planned.uniform_check {check : Except ServiceError Unit} {planned : Planned}
    (h : planned.Uniform) : Planned.Uniform (check >>= fun _ => planned) := by
  cases check with
  | error e =>
    intro plan hplan
    cases hplan
  | ok u => exact h

theorem Planned.uniform_ite {c : Prop} [Decidable c] {yes no : Planned}
    (hyes : yes.Uniform) (hno : no.Uniform) : Planned.Uniform (if c then yes else no) := by
  by_cases h : c
  · rwa [if_pos h]
  · rwa [if_neg h]

theorem action_uniform (actionName : Text) : (action actionName).Uniform := by
  unfold action
  cases actionCommands.find? fun entry => entry.name = actionName with
  | none => exact Planned.uniform_reject _
  | some entry =>
    apply Planned.uniform_ok
    by_cases hasync : entry.asyncDispatch = true
    · exact Plan.uniform_of_never fun answer => by simp [saysFailure, hasync]
    · exact Plan.uniform_of_copies fun answer => ⟨_, rfl, by simp [hasync]⟩

theorem action_withMessage_uniform (actionName message : Text) :
    Planned.Uniform ((action actionName).map (·.withMessage message)) := by
  have haction := action_uniform actionName
  cases hplanned : action actionName with
  | error e =>
    intro plan hplan
    cases hplan
  | ok plan =>
    apply Planned.uniform_ok
    have hplan := haction plan hplanned
    cases plan with
    | done result => exact hplan
    | send command timeout describe =>
      have hsaid : ∀ described : Except ServiceError OperationResult,
          saysFailure (described.map fun result => { result with message := message }) =
            saysFailure described := by
        intro described
        cases described <;> rfl
      intro answer
      rw [hsaid, hsaid]
      exact hplan answer

theorem sectionChange_uniform (invalid sectionId command label failure success : Text) :
    (sectionChange invalid sectionId command label failure success).Uniform :=
  Planned.uniform_ite
    (Planned.uniform_ok (Plan.uniform_of_copies fun _ => ⟨_, rfl, rfl⟩))
    (Planned.uniform_reject _)

theorem interfaceChange_uniform (sectionId command failure success : Text) :
    (interfaceChange sectionId command failure success).Uniform :=
  Planned.uniform_ite
    (Planned.uniform_ok (Plan.uniform_of_copies fun _ => ⟨_, rfl, rfl⟩))
    (Planned.uniform_reject _)

theorem dhcpChange_uniform (command failure success : Text) :
    (dhcpChange command failure success).Uniform :=
  Plan.uniform_of_copies fun _ => ⟨_, rfl, rfl⟩

/-- A DNS change raises whatever the router answers. -/
theorem dnsChange_uniform (command failure success : Text) :
    (dnsChange command failure success).Uniform :=
  Plan.uniform_of_never fun _ => rfl

theorem firewallOperation_uniform (actionName : Text) (sectionId : Option Text) :
    (firewallOperation actionName sectionId).Uniform := by
  have hset : ∀ b, (firewallSetEnabled b).Uniform := fun b =>
    Planned.uniform_ok (Plan.uniform_of_copies fun _ => ⟨_, rfl, rfl⟩)
  unfold firewallOperation
  refine Planned.uniform_ite (action_uniform _) ?_
  refine Planned.uniform_ite (action_uniform _) ?_
  refine Planned.uniform_ite (hset true) ?_
  refine Planned.uniform_ite (hset false) ?_
  refine Planned.uniform_ite (sectionChange_uniform _ _ _ _ _ _) ?_
  refine Planned.uniform_ite (sectionChange_uniform _ _ _ _ _ _) ?_
  exact Planned.uniform_ite (sectionChange_uniform _ _ _ _ _ _) (Planned.uniform_reject _)

theorem wirelessOperation_uniform (actionName : Text) (sectionId : Option Text) :
    (wirelessOperation actionName sectionId).Uniform := by
  unfold wirelessOperation
  refine Planned.uniform_ite (action_uniform _) ?_
  refine Planned.uniform_ite (action_uniform _) ?_
  refine Planned.uniform_ite (sectionChange_uniform _ _ _ _ _ _) ?_
  exact Planned.uniform_ite (sectionChange_uniform _ _ _ _ _ _) (Planned.uniform_reject _)

theorem dhcpAddHost_uniform (hostname ip mac : Text) :
    (dhcpAddHost hostname ip mac).Uniform := by
  unfold dhcpAddHost
  refine Planned.uniform_check (Planned.uniform_ok (Plan.uniform_of_copies fun answer => ?_))
  by_cases hok : answer.ok = true
  · exact ⟨_, by rw [if_pos hok], hok.symm⟩
  · rw [Bool.not_eq_true] at hok
    exact ⟨_, by rw [hok], hok.symm⟩

theorem dhcpEditHost_uniform (sectionId hostname ip mac : Text) :
    (dhcpEditHost sectionId hostname ip mac).Uniform := by
  unfold dhcpEditHost
  by_cases hsection : dhcpSectionPattern sectionId = true
  · rw [hsection]
    exact Planned.uniform_check (Planned.uniform_ok (dhcpChange_uniform _ _ _))
  · rw [Bool.not_eq_true] at hsection
    rw [hsection]
    exact Planned.uniform_reject _

theorem dhcpOperation_uniform (r : DhcpRequest) : (dhcpOperation r).Uniform := by
  unfold dhcpOperation
  refine Planned.uniform_ite (action_withMessage_uniform _ _) ?_
  refine Planned.uniform_ite (action_withMessage_uniform _ _) ?_
  refine Planned.uniform_ite (Planned.uniform_ok (dhcpChange_uniform _ _ _)) ?_
  refine Planned.uniform_ite (dhcpAddHost_uniform _ _ _) ?_
  refine Planned.uniform_ite (dhcpEditHost_uniform _ _ _ _) ?_
  refine Planned.uniform_ite (Planned.uniform_ite
    (Planned.uniform_ok (dhcpChange_uniform _ _ _)) (Planned.uniform_reject _)) ?_
  exact Planned.uniform_ite (Planned.uniform_ite
    (Planned.uniform_ok (dhcpChange_uniform _ _ _)) (Planned.uniform_reject _))
    (Planned.uniform_reject _)

theorem dnsOperation_uniform (r : DnsRequest) : (dnsOperation r).Uniform := by
  have hserver : ∀ command failure success : Text,
      Planned.Uniform (if dnsServerPattern (r.server.getD []) then
        .ok (dnsChange command failure success) else reject "Invalid DNS server address.") :=
    fun _ _ _ => Planned.uniform_ite (Planned.uniform_ok (dnsChange_uniform _ _ _))
      (Planned.uniform_reject _)
  unfold dnsOperation
  refine Planned.uniform_ite (action_withMessage_uniform _ _) ?_
  refine Planned.uniform_ite (action_withMessage_uniform _ _) ?_
  refine Planned.uniform_ite (Planned.uniform_ok (dnsChange_uniform _ _ _)) ?_
  refine Planned.uniform_ite (hserver _ _ _) ?_
  refine Planned.uniform_ite (hserver _ _ _) ?_
  refine Planned.uniform_ite
    (Planned.uniform_check (Planned.uniform_ok (dnsChange_uniform _ _ _))) ?_
  exact Planned.uniform_ite
    (Planned.uniform_check (Planned.uniform_ok (dnsChange_uniform _ _ _)))
    (Planned.uniform_reject _)

theorem networkOperation_uniform (actionName : Text) (sectionId : Option Text) :
    (networkOperation actionName sectionId).Uniform := by
  unfold networkOperation
  refine Planned.uniform_ite (interfaceChange_uniform _ _ _ _) ?_
  refine Planned.uniform_ite (interfaceChange_uniform _ _ _ _) ?_
  refine Planned.uniform_ite (interfaceChange_uniform _ _ _ _) ?_
  refine Planned.uniform_ite (interfaceChange_uniform _ _ _ _) ?_
  exact Planned.uniform_ite (interfaceChange_uniform _ _ _ _) (Planned.uniform_reject _)

theorem systemOperation_uniform (actionName : Text) (config : SystemConfig) :
    (systemOperation actionName config).Uniform := by
  unfold systemOperation systemSetConfig
  refine Planned.uniform_ite ?_ (Planned.uniform_reject _)
  refine Planned.uniform_ite (Planned.uniform_reject _) ?_
  refine Planned.uniform_ite (Planned.uniform_reject _) ?_
  refine Planned.uniform_ite (Planned.uniform_reject _) ?_
  refine Planned.uniform_ite (Planned.uniform_ok rfl) ?_
  exact Planned.uniform_ok (Plan.uniform_of_copies fun _ => ⟨_, rfl, rfl⟩)

/-! ## Requests -/

/-- One call of a `run_*_job` method, less the job id. -/
inductive JobRequest
  | action (actionName : Text)
  | firewall (actionName : Text) (sectionId : Option Text)
  | firewallToggle (sectionId : Text) (enabled : Bool)
  | wireless (actionName : Text) (sectionId : Option Text)
  | wirelessToggle (sectionId : Text) (enabled : Bool)
  | vpnToggle (sectionId : Text) (enabled : Bool)
  | dhcp (request : DhcpRequest)
  | dns (request : DnsRequest)
  | network (actionName : Text) (sectionId : Option Text)
  | system (actionName : Text) (config : SystemConfig)
  | packages (actionName : Text) (name : Option Text)
  | storage (actionName target : Text)
  | services (actionName service : Text)

/-- The method a request calls. -/
def JobRequest.run (link : RouterLink σ) (id : Text) :
    JobRequest → ManagedOp σ (Option ManagementJob)
  | .action actionName => runActionJob link id actionName
  | .firewall actionName sectionId => runFirewallJob link id actionName sectionId
  | .firewallToggle sectionId enabled => runFirewallToggleJob link id sectionId enabled
  | .wireless actionName sectionId => runWirelessJob link id actionName sectionId
  | .wirelessToggle sectionId enabled => runWirelessToggleJob link id sectionId enabled
  | .vpnToggle sectionId enabled => runVpnToggleJob link id sectionId enabled
  | .dhcp request => runDhcpJob link id request
  | .dns request => runDnsJob link id request
  | .network actionName sectionId => runNetworkJob link id actionName sectionId
  | .system actionName config => runSystemJob link id actionName config
  | .packages actionName name => runPackagesJob link id actionName name
  | .storage actionName target => runStorageJob link id actionName target
  | .services actionName service => runServicesJob link id actionName service

/-- The service operation a request runs, by the way it talks to the router. -/
inductive Operation
  /-- One command, planned from the arguments. -/
  | planned (planned : Planned)
  /-- A package operation, whose command depends on the detected manager. -/
  | packages (actionName : Text) (name : Option Text)
  /-- A bare command, or the exception the arguments are rejected with. -/
  | command (command : Except ServiceError Text)

def JobRequest.operation : JobRequest → Operation
  | .action actionName => .planned (Management.action actionName)
  | .firewall actionName sectionId => .planned (firewallOperation actionName sectionId)
  | .firewallToggle sectionId enabled => .planned (toggleFirewallRule sectionId enabled)
  | .wireless actionName sectionId => .planned (wirelessOperation actionName sectionId)
  | .wirelessToggle sectionId enabled => .planned (toggleWirelessSsid sectionId enabled)
  | .vpnToggle sectionId enabled => .planned (toggleVpnInstance sectionId enabled)
  | .dhcp request => .planned (dhcpOperation request)
  | .dns request => .planned (dnsOperation request)
  | .network actionName sectionId => .planned (networkOperation actionName sectionId)
  | .system actionName config => .planned (systemOperation actionName config)
  | .packages actionName name => .packages actionName name
  | .storage actionName target => .command (storageCommand actionName target)
  | .services actionName service => .command (serviceCommand actionName service)

/-- The kinds whose wrapper looks at `result["ok"]`. -/
def JobRequest.checksOk : JobRequest → Bool
  | .firewall .. | .wireless .. | .storage .. | .services .. => true
  | _ => false

/-- How the operation of a request ends: the `ok` of its result, or an
exception. -/
def Operation.outcome (link : RouterLink σ) (s : ServiceState σ) :
    Operation → Except ServiceError Bool
  | .planned plan => plan.outcome link s.router
  | .packages actionName name => (packagesOperation link actionName name s).1.map (·.ok)
  | .command text? =>
      text?.bind fun text => (pkgRun link text 120 s.router).1.map (·.ok)

/-- The command a package operation needs under a manager. -/
def packagesCommand (actionName : Text) (name : Option Text) (manager : PackageManager) :
    Option Text :=
  match packageMutation actionName with
  | some m => if pkgNamePattern (name.getD []) then m.command (name.getD []) manager else none
  | none =>
      if actionName = "update-feeds".toList then updateFeedsCommand manager else none

/-- The command that decides the operation's result is sent and answered with a
failure. -/
def Operation.CommandFails (link : RouterLink σ) (s : ServiceState σ) : Operation → Prop
  | .planned plan =>
      ∃ command timeout, plan.deciding = some (command, timeout) ∧
        AnswersFailure link command timeout s.router
  | .packages actionName name =>
      ∃ manager detected, pkgManager link s.router = (.ok manager, detected) ∧
        ∃ command, packagesCommand actionName name manager = some command ∧
          AnswersFailure link command 600 detected
  | .command text? => ∃ text, text? = .ok text ∧ AnswersFailure link text 120 s.router

theorem operation_uniform (request : JobRequest) {planned : Planned}
    (h : request.operation = .planned planned) : planned.Uniform := by
  cases request with
  | action actionName => exact Operation.planned.inj h ▸ action_uniform actionName
  | firewall actionName sectionId =>
    exact Operation.planned.inj h ▸ firewallOperation_uniform actionName sectionId
  | firewallToggle sectionId enabled =>
    exact Operation.planned.inj h ▸ sectionChange_uniform _ _ _ _ _ _
  | wireless actionName sectionId =>
    exact Operation.planned.inj h ▸ wirelessOperation_uniform actionName sectionId
  | wirelessToggle sectionId enabled =>
    exact Operation.planned.inj h ▸ sectionChange_uniform _ _ _ _ _ _
  | vpnToggle sectionId enabled =>
    exact Operation.planned.inj h ▸ sectionChange_uniform _ _ _ _ _ _
  | dhcp request => exact Operation.planned.inj h ▸ dhcpOperation_uniform request
  | dns request => exact Operation.planned.inj h ▸ dnsOperation_uniform request
  | network actionName sectionId =>
    exact Operation.planned.inj h ▸ networkOperation_uniform actionName sectionId
  | system actionName config =>
    exact Operation.planned.inj h ▸ systemOperation_uniform actionName config
  | packages actionName name => cases h
  | storage actionName target => cases h
  | services actionName service => cases h

/-! ## How a request ends -/

theorem runForManager_of_ok {link : RouterLink σ} (command : PackageManager → Option Text)
    {s detected : σ} {manager : PackageManager}
    (h : pkgManager link s = (.ok manager, detected)) :
    runForManager link command s =
      match command manager with
      | none => (.error (.management "No supported package manager found."), detected)
      | some text => pkgRun link text 600 detected := by
  rw [runForManager, Fallible.bind_of_ok h]
  cases command manager <;> rfl

/-- A command for the detected manager fails exactly when that manager has one
and the router answers it with a failure. -/
theorem runForManager_fails_iff (link : RouterLink σ) (command : PackageManager → Option Text)
    (s : σ) :
    (runForManager link command s).1.map (·.ok) = .ok false ↔
      ∃ manager detected, pkgManager link s = (.ok manager, detected) ∧
        ∃ text, command manager = some text ∧ AnswersFailure link text 600 detected := by
  cases hdetect : pkgManager link s with
  | mk outcome detected =>
    cases outcome with
    | error e =>
      rw [runForManager, Fallible.bind_of_error hdetect]
      constructor
      · intro h
        cases h
      · intro ⟨_, _, h, _⟩
        cases h
    | ok manager =>
      rw [runForManager_of_ok command hdetect]
      cases hcommand : command manager with
      | none =>
        constructor
        · intro h
          cases h
        · intro ⟨manager', detected', h, text, htext, _⟩
          cases h
          rw [hcommand] at htext
          cases htext
      | some text =>
        show (pkgRun link text 600 detected).1.map (·.ok) = .ok false ↔ _
        rw [map_ok_eq_false_iff]
        constructor
        · intro h
          exact ⟨manager, detected, rfl, text, hcommand, h⟩
        · intro ⟨manager', detected', h, text', htext, hfails⟩
          cases h
          rw [hcommand] at htext
          cases htext
          exact hfails

/-- A description that copies the answer's `ok` fails when the answer does. -/
theorem map_describe_ok (outcome : Except ServiceError CommandResult)
    (describe : CommandResult → OperationResult)
    (h : ∀ result, (describe result).ok = result.ok) :
    (outcome.map describe).map (·.ok) = outcome.map (·.ok) := by
  cases outcome with
  | error e => rfl
  | ok result => exact congrArg Except.ok (h result)

theorem packagesOperation_fails_iff (link : RouterLink σ) (actionName : Text)
    (name : Option Text) (s : ServiceState σ) :
    (packagesOperation link actionName name s).1.map (·.ok) = .ok false ↔
      (Operation.packages actionName name).CommandFails link s := by
  unfold packagesOperation Operation.CommandFails packagesCommand
  cases hmutation : packageMutation actionName with
  | some m =>
    simp only [hmutation]
    by_cases hname : pkgNamePattern (name.getD []) = true
    · simp only [hname, if_true]
      rw [pkgMutate_fst link m hname, map_describe_ok _ _ fun _ => rfl]
      exact runForManager_fails_iff link (m.command (name.getD [])) s.router
    · rw [Bool.not_eq_true] at hname
      simp only [hname, Bool.false_eq_true, if_false]
      rw [pkgMutate_invalid link m hname]
      constructor
      · intro h
        cases h
      · intro ⟨_, _, _, _, h, _⟩
        cases h
  | none =>
    simp only [hmutation]
    by_cases hfeeds : actionName = "update-feeds".toList
    · simp only [hfeeds, if_true]
      rw [updateFeeds_fst, map_describe_ok _ _ fun _ => rfl]
      exact runForManager_fails_iff link updateFeedsCommand s.router
    · simp only [hfeeds, if_false]
      constructor
      · intro h
        cases h
      · intro ⟨_, _, _, _, h, _⟩
        cases h

/-- **An operation returns a result that is not ok exactly when the command that
decides it is answered with a failure.** -/
theorem outcome_eq_false_iff (link : RouterLink σ) (request : JobRequest) (s : ServiceState σ) :
    request.operation.outcome link s = .ok false ↔ request.operation.CommandFails link s := by
  cases hoperation : request.operation with
  | planned plan =>
    exact plan.outcome_eq_false_iff link (operation_uniform request hoperation) s.router
  | packages actionName name => exact packagesOperation_fails_iff link actionName name s
  | command text? =>
    cases text? with
    | error e =>
      constructor
      · intro h
        cases h
      · intro ⟨_, h, _⟩
        cases h
    | ok text =>
      show (pkgRun link text 120 s.router).1.map (·.ok) = .ok false ↔ _
      rw [map_ok_eq_false_iff]
      constructor
      · intro h
        exact ⟨text, rfl, h⟩
      · intro ⟨text', h, hfails⟩
        cases h
        exact hfails

/-! ## Status and operation -/

/-- The status a wrapper gives an operation's outcome, with or without looking
at `ok`. -/
def statusOf (checks : Bool) : Except ServiceError Bool → JobStatus
  | .ok ok => if checks && !ok then .failed else .succeeded
  | .error _ => .failed

theorem commandOperation_map_ok (link : RouterLink σ) (text? : Except ServiceError Text) (s : σ) :
    ((Fallible.ofExcept text? >>= fun text => pkgRun link text 120) s).1.map (·.ok) =
      text?.bind fun text => (pkgRun link text 120 s).1.map (·.ok) := by
  cases text? with
  | error e => rfl
  | ok text => rfl

/-- The wrapper of a request ends with the status its test gives the outcome. -/
theorem JobRequest.run_status (link : RouterLink σ) (request : JobRequest) (id : Text)
    {s : Managed σ} {job : ManagementJob} (h : s.jobs id = some job) :
    ∃ final, (request.run link id s).1 = .ok (some final) ∧
      final.status = statusOf request.checksOk (request.operation.outcome link s.service) := by
  have hresult : ∀ (start : Text) (operation : ServiceOp σ OperationResult) (checks : Bool)
      (failure : Text → Text), ∃ final,
      (trackResult id start operation checks failure s).1 = .ok (some final) ∧
        final.status = statusOf checks ((operation s.service).1.map (·.ok)) := by
    intro start operation checks failure
    obtain ⟨final, hfinal, hstatus⟩ := trackOperation_status id start operation
      (fun result => if checks && !result.ok then .failed else .succeeded)
      (fun result => result.message) JobResult.operation (fun e => some (failure e)) h
    refine ⟨final, hfinal, hstatus.trans ?_⟩
    cases (operation s.service).1 <;> rfl
  have hcommand : ∀ (start : Text) (operation : Op σ CommandResult)
      (message : CommandResult → Text) (record : CommandResult → JobResult), ∃ final,
      (trackOperation id start (onRouter operation) statusOfCommand message record
        (fun _ => none) s).1 = .ok (some final) ∧
        final.status = statusOf true ((operation s.service.router).1.map (·.ok)) := by
    intro start operation message record
    obtain ⟨final, hfinal, hstatus⟩ := trackOperation_status id start (onRouter operation)
      statusOfCommand message record (fun _ => none) h
    refine ⟨final, hfinal, hstatus.trans ?_⟩
    rw [onRouter_apply]
    cases (operation s.service.router).1 with
    | error e => rfl
    | ok result =>
      simp only [finalStatus, statusOfCommand, statusOf, Except.map]
      cases result.ok <;> rfl
  cases request with
  | storage actionName target =>
    obtain ⟨final, hfinal, hstatus⟩ := hcommand _ (storageOperation link actionName target) _ _
    refine ⟨final, hfinal, hstatus.trans (congrArg (statusOf true) ?_)⟩
    exact commandOperation_map_ok link (storageCommand actionName target) s.service.router
  | services actionName service =>
    obtain ⟨final, hfinal, hstatus⟩ :=
      hcommand _ (servicesOperation link actionName service) _ _
    refine ⟨final, hfinal, hstatus.trans (congrArg (statusOf true) ?_)⟩
    exact commandOperation_map_ok link (serviceCommand actionName service) s.service.router
  | _ => exact hresult _ _ _ _

/-- The job's status agrees with the operation it ran: `succeeded` exactly when
the operation returned a result that is ok, and `failed` otherwise. -/
def StatusAgrees (link : RouterLink σ) (request : JobRequest) (id : Text) (s : Managed σ) : Prop :=
  ∃ final, (request.run link id s).1 = .ok (some final) ∧
    (final.status = .succeeded ↔ request.operation.outcome link s.service = .ok true) ∧
    (request.operation.outcome link s.service ≠ .ok true → final.status = .failed)

/--
**Status and operation agree unless a failure goes unchecked.**

For every request, router and state that holds the job: the status agrees with
the operation exactly when the wrapper looks at `ok`, or the command that
decides the operation's result is not answered with a failure.
-/
theorem status_agrees_iff (link : RouterLink σ) (request : JobRequest) (id : Text)
    (s : Managed σ) (job : ManagementJob) (h : s.jobs id = some job) :
    StatusAgrees link request id s ↔
      request.checksOk = true ∨ ¬request.operation.CommandFails link s.service := by
  obtain ⟨final, hfinal, hstatus⟩ := request.run_status link id h
  have hagrees : StatusAgrees link request id s ↔
      (final.status = .succeeded ↔ request.operation.outcome link s.service = .ok true) ∧
      (request.operation.outcome link s.service ≠ .ok true → final.status = .failed) := by
    constructor
    · intro ⟨final', hfinal', hagree⟩
      rw [hfinal] at hfinal'
      cases hfinal'
      exact hagree
    · intro hagree
      exact ⟨final, hfinal, hagree⟩
  rw [hagrees, ← outcome_eq_false_iff, hstatus]
  cases request.operation.outcome link s.service with
  | error e => simp [statusOf]
  | ok ok => cases ok <;> cases request.checksOk <;> simp [statusOf]

/-- A router that accepts sessions and loses the connection at every command. -/
def losingLink : RouterLink Unit where
  configured _ := true
  connect s := (.ok (), s)
  exec _ _ s := (.error "SSH connection lost", s)
  close s := s
  monotonic _ := 0

/-- A fresh service whose store holds one queued job. -/
def oneJob (kind : JobKind) : Managed Unit :=
  { service := { router := () }
    jobs := ManagementJobStore.create (fun _ => none) "3f2a" kind "Queued" }

theorem oneJob_get (kind : JobKind) :
    (oneJob kind).jobs "3f2a" = some { id := "3f2a", kind := kind } :=
  ManagementJobStore.put_self (fun _ => none) "3f2a" { id := "3f2a", kind := kind }

/-- On that router a firewall job is marked as its operation ends. -/
theorem status_agrees_firewall_reload :
    StatusAgrees losingLink (.firewall "reload" none) "3f2a" (oneJob .firewall) ↔
      (JobRequest.firewall "reload" none).checksOk = true ∨
        ¬(JobRequest.firewall "reload" none).operation.CommandFails losingLink
          (oneJob .firewall).service :=
  status_agrees_iff losingLink (.firewall "reload" none) "3f2a" (oneJob .firewall)
    { id := "3f2a", kind := .firewall } (oneJob_get .firewall)

/-- A VPN toggle whose command is lost ends with `ok` false and a job marked
`succeeded`. -/
theorem lost_vpn_toggle_marked_succeeded :
    ¬StatusAgrees losingLink (.vpnToggle "office" true) "3f2a" (oneJob .vpn) := by
  have houtcome : (JobRequest.vpnToggle "office" true).operation.outcome losingLink
      (oneJob .vpn).service = .ok false := by
    decide
  obtain ⟨final, hfinal, hstatus⟩ := JobRequest.run_status losingLink (.vpnToggle "office" true)
    "3f2a" (s := oneJob .vpn) (oneJob_get .vpn)
  intro ⟨final', hfinal', _, hfailed⟩
  rw [hfinal] at hfinal'
  cases hfinal'
  rw [houtcome] at hstatus hfailed
  rw [hfailed (by decide)] at hstatus
  cases hstatus

end OpenWrtCopilot.Ports.Management
