import OpenWrtCopilot.Ports.ManagementApi
import OpenWrtCopilot.Ports.ManagementReadOnly
import OpenWrtCopilot.Ports.ManagementConfirm

/-!
# The confirmation gate of the management API

A request is gated if every command it sends is read-only, or the request
carried the confirmation and the guard does not deny the operation it asks for.
`Ungated` lists the requests for which this fails; every other request is gated
on every router, whatever the router answers and whatever the service caches.

## Main results

* `gated_iff` — exactly the listed requests are not gated.
-/

namespace OpenWrtCopilot.Ports.Management

open Verified
open Verified.PyText
open Ports.ActionGuard

variable {σ α : Type}

/-! ## Confirmation and guard -/

/-- The request carried the confirmation, or confirms a staged restore. -/
def Confirmed (jobs : ManagementJobStore) : ApiRequest → Prop
  | .createJob payload => payload.confirmed = true
  | .confirmJob id =>
      ∃ job, jobs id = some job ∧ job.kind = .restore ∧ job.pendingConfirmation = true
  | _ => False

/-- The guard's name for an operation: the actions are spelled with spaces, and
the package action `remove` is a package removal. -/
def guardName : ApiRequest → Option Text
  | .createJob payload =>
      if payload.kind = "action".toList then
        payload.action.map fun name => name.map fun c => if c = '-' then ' ' else c
      else if payload.kind = "packages".toList ∧ payload.action = some "remove".toList then
        some "package removal"
      else none
  | _ => none

/-- The guard classifies the requested operation as dangerous. -/
def Dangerous (request : ApiRequest) : Prop :=
  ∃ name, guardName request = some name ∧ (evaluate name).decision = .deny

/-- The commands a request may send. -/
def MaySend (jobs : ManagementJobStore) (request : ApiRequest) (command : Text) : Prop :=
  ReadOnly command ∨ (Confirmed jobs request ∧ ¬Dangerous request)

/-- On every router and from every state, the request sends only commands it may
send. -/
def Gated (request : ApiRequest) : Prop :=
  ∀ (σ : Type) (link : RouterLink σ) (around : Surroundings) (s : Managed (σ × List Text)),
    SendsVia Managed.router (MaySend s.jobs request) s
      (handle around (commandLog link) request s).2

/-- A confirmed job that the guard would deny. -/
def DeniedJob (payload : ManagementJobRequest) : Prop :=
  payload.withinLimits = true ∧ payload.confirmed = true ∧
    (payload.kind = "action".toList ∧ payload.action = some "factory-reset".toList ∨
      payload.kind = "packages".toList ∧ payload.action = some "remove".toList ∧
        pkgNamePattern (payload.name.getD []) = true)

/-- The requests that are not gated: a process kill, a package search, a
confirmed factory reset and a confirmed package removal. -/
def Ungated : ApiRequest → Prop
  | .searchPackages q => strip q ≠ []
  | .killProcess pid => 0 < pid ∧ pid ≤ 4194304
  | .createJob payload => DeniedJob payload
  | _ => False

/-! ## What requests send -/

section Sending

variable {P : Text → Prop} (link : RouterLink σ)

theorem sends_callService {R : Managed σ → Managed σ → Prop} {m : ManagedOp σ α}
    (h : Fallible.Respects R m) (status : Nat) : Fallible.Respects R (callService status m) := by
  intro s
  have hs := h s
  unfold callService
  cases hrun : m s with
  | mk result s' =>
    rw [hrun] at hs
    cases result with
    | ok a => exact hs
    | error e => cases e <;> exact hs

theorem sends_background {R : Managed σ → Managed σ → Prop} {m : ManagedOp σ α}
    (h : Fallible.Respects R m) : Fallible.Respects R (background m) := h

theorem sends_createJobRecord (around : Surroundings) (kind : JobKind) :
    Fallible.Respects (SendsVia Managed.router P)
      (createJobRecord around kind : ApiOp (σ × List Text) ManagementJob) := by
  refine Fallible.Respects.bind ?_ fun _ => Fallible.Respects.pure _
  exact Fallible.Respects.modify fun s => Sends.of_log_eq rfl

theorem sends_startJob (around : Surroundings) (kind : JobKind)
    {wrapper : ManagedOp (σ × List Text) α}
    (h : Fallible.Respects (SendsVia Managed.router P) wrapper) :
    Fallible.Respects (SendsVia Managed.router P) (startJob around kind wrapper) := by
  refine Fallible.Respects.bind (sends_createJobRecord around kind) fun job => ?_
  refine Fallible.Respects.bind (sends_background h) fun _ => ?_
  exact Fallible.Respects.pure _

theorem sends_answerData {m : ServiceOp (σ × List Text) α}
    (h : Fallible.Respects (SendsVia ServiceState.router P) m) :
    Fallible.Respects (SendsVia Managed.router P) (answerData m) :=
  Fallible.Respects.bind (sends_callService (Respects.onService h) 503) fun _ =>
    Fallible.Respects.pure _

theorem sends_answerJob {m : ApiOp (σ × List Text) ManagementJob}
    (h : Fallible.Respects (SendsVia Managed.router P) m) :
    Fallible.Respects (SendsVia Managed.router P) (answerJob m) :=
  Fallible.Respects.bind h fun _ => Fallible.Respects.pure _

/-- A required field, before the rest. -/
theorem sends_require {field : Option Text} {detail : Text}
    {f : Text → ApiOp (σ × List Text) α}
    (h : ∀ text, given field = some text →
      Fallible.Respects (SendsVia Managed.router P) (f text)) :
    Fallible.Respects (SendsVia Managed.router P) (require field detail >>= f) := by
  unfold require
  cases hgiven : given field with
  | none => exact Fallible.Respects.raise_bind _ _
  | some text => exact h text hgiven

/-- The confirmation a job needs, before the rest. -/
theorem sends_requireConfirmed {payload : ManagementJobRequest} {purpose : Text}
    {f : Unit → ApiOp (σ × List Text) α}
    (h : payload.confirmed = true → Fallible.Respects (SendsVia Managed.router P) (f ())) :
    Fallible.Respects (SendsVia Managed.router P)
      (requireConfirmed payload purpose >>= f) := by
  unfold requireConfirmed
  by_cases hconfirmed : payload.confirmed = true
  · rw [if_pos hconfirmed]
    exact h hconfirmed
  · rw [if_neg hconfirmed]
    exact Fallible.Respects.raise_bind _ _

/-- The command of a plan, logged as it is. -/
theorem sends_perform {planned : Planned}
    (h : ∀ command timeout describe, planned = .ok (.send command timeout describe) →
      P command) :
    Fallible.Respects (Sends P) (perform (commandLog link) planned) := by
  refine Respects.perform unwrapCommand link ?_
  intro command timeout describe hplanned
  rw [unwrapCommand_wrapCommand]
  exact h command timeout describe hplanned

theorem sends_trackPlanned {planned : Planned}
    (h : ∀ command timeout describe, planned = .ok (.send command timeout describe) →
      P command) (id start : Text) (checks : Bool) (failure : Text → Text) :
    Fallible.Respects (SendsVia Managed.router P)
      (trackPlanned (commandLog link) id start planned checks failure) :=
  Respects.trackOperation (Respects.onRouter (sends_perform link h)) _ _ _ _ _ _

/-- A mutation sends the probes and its command under the manager found. -/
theorem sends_pkgMutate (hP : Reads P) (m : PackageMutation) (name : Text)
    (h : pkgNamePattern name = true → ∀ manager text, m.command name manager = some text →
      P text) :
    Fallible.Respects (SendsVia ServiceState.router P)
      (pkgMutate (commandLog link) m name) := by
  refine Fallible.Respects.ite (fun _ => Fallible.Respects.raise_bind _ _) fun hname => ?_
  have hvalid : pkgNamePattern name = true := by simpa using hname
  refine Fallible.Respects.bind
    (Respects.onRouter (sends_runForManager link hP (h hvalid))) fun result => ?_
  refine Fallible.Respects.ite (fun _ => ?_) fun _ => Fallible.Respects.pure _
  refine Fallible.Respects.bind ?_ fun _ => Fallible.Respects.pure _
  exact Fallible.Respects.modify fun s => Sends.of_log_eq rfl

theorem sends_artifactJob {build : Op (σ × List Text) (Text × List UInt8)}
    (h : Fallible.Respects (Sends P) build) (id start : Text) (ready : Nat → Text)
    (failure : Text) :
    Fallible.Respects (SendsVia Managed.router P)
      (runArtifactJob id start build ready failure) := by
  refine Fallible.Respects.bind (Respects.updateJob id _) fun _ => ?_
  refine Fallible.Respects.bind ?_ fun _ => Respects.getJob id
  refine Fallible.Respects.attempt ?_ fun _ => Respects.updateJob id _
  refine Fallible.Respects.bind (Respects.onService (Respects.onRouter h)) fun built => ?_
  exact Fallible.Respects.bind (Respects.updateJob id _) fun _ => Respects.updateJob id _

/-! ## The jobs -/

/-- A job whose operation may send anything. -/
theorem sends_packagesJob_of_all (hall : ∀ command, P command) (id actionName : Text)
    (name : Option Text) :
    Fallible.Respects (SendsVia Managed.router P)
      (runPackagesJob (commandLog link) id actionName name) := by
  refine Respects.trackOperation ?_ _ _ _ _ _ _
  unfold packagesOperation
  cases packageMutation actionName with
  | some m => exact sends_pkgMutate link (fun c _ => hall c) m _ fun _ _ text _ => hall text
  | none =>
    refine Fallible.Respects.ite (fun _ => ?_) fun _ => Fallible.Respects.raise _
    refine Fallible.Respects.bind (Respects.onRouter
      (sends_runForManager link (fun c _ => hall c) fun _ text _ => hall text)) fun result => ?_
    refine Fallible.Respects.bind ?_ fun _ => Fallible.Respects.pure _
    exact Fallible.Respects.modify fun s => Sends.of_log_eq rfl

theorem sends_storageJob_of_all (hall : ∀ command, P command) (id actionName target : Text) :
    Fallible.Respects (SendsVia Managed.router P)
      (runStorageJob (commandLog link) id actionName target) := by
  refine Respects.trackOperation (Respects.onRouter ?_) _ _ _ _ _ _
  refine Fallible.Respects.bind (Fallible.Respects.ofExcept _) fun command => ?_
  exact sends_pkgRun link (hall command) 120

/-- An unconfirmed firewall request starts a job only for an action the job does
not know, which sends nothing. -/
theorem firewallOperation_of_not_resettable {action : Text} {sectionId : Option Text}
    (h : action ∉ firewallResettableActions) :
    firewallOperation action sectionId = reject ("Unsupported firewall action: " ++ action) := by
  simp only [firewallResettableActions, firewallSectionToggles, List.map_cons, List.map_nil,
    List.cons_append, List.nil_append, List.mem_cons, List.not_mem_nil, or_false,
    not_or] at h
  obtain ⟨hrestart, hreload, henable, hdisable, hrule, hrule', hzone, hzone', hforward,
    hforward'⟩ := h
  simp only [firewallOperation, hrestart, hreload, henable, hdisable, hrule, hrule', hzone,
    hzone', hforward, hforward', or_self, if_false]

theorem sends_createFirewallJob (around : Surroundings) (payload : ManagementJobRequest)
    (hall : payload.confirmed = true → ∀ command, P command) :
    Fallible.Respects (SendsVia Managed.router P)
      (createFirewallJob around (commandLog link) payload) := by
  unfold createFirewallJob
  refine Fallible.Respects.ite (fun _ => Fallible.Respects.raise_bind _ _) fun _ => ?_
  refine Fallible.Respects.ite (fun _ => ?_) fun hunknown => ?_
  · refine sends_requireConfirmed fun hconfirmed => sends_startJob around _ ?_
    exact sends_trackPlanned link (fun command _ _ _ => hall hconfirmed command) _ _ _ _
  · refine sends_startJob around _ (sends_trackPlanned link ?_ _ _ _ _)
    intro command timeout describe hplanned
    rw [firewallOperation_of_not_resettable hunknown] at hplanned
    cases hplanned

theorem sends_createWirelessJob (around : Surroundings) (payload : ManagementJobRequest)
    (hall : payload.confirmed = true → ∀ command, P command) :
    Fallible.Respects (SendsVia Managed.router P)
      (createWirelessJob around (commandLog link) payload) := by
  unfold createWirelessJob
  refine Fallible.Respects.ite (fun _ => Fallible.Respects.raise_bind _ _) fun _ => ?_
  refine sends_requireConfirmed fun hconfirmed => sends_startJob around _ ?_
  exact sends_trackPlanned link (fun command _ _ _ => hall hconfirmed command) _ _ _ _

theorem sends_createRestoreJob (around : Surroundings) (payload : ManagementJobRequest) :
    Fallible.Respects (SendsVia Managed.router P)
      (createRestoreJob around payload : ApiOp (σ × List Text) ManagementJob) := by
  unfold createRestoreJob
  cases given payload.filename with
  | none => exact Fallible.Respects.raise _
  | some filename =>
    cases given payload.contentB64 with
    | none => exact Fallible.Respects.raise _
    | some contentB64 =>
      refine Fallible.Respects.bind (sends_createJobRecord around _) fun job => ?_
      refine Fallible.Respects.bind (sends_callService ?_ 422) fun _ =>
        Fallible.Respects.pure _
      refine Fallible.Respects.bind ?_ fun _ => Fallible.Respects.bind
        (Respects.updateJob _ _) fun _ => Respects.getJob _
      exact Fallible.Respects.bind (Fallible.Respects.ofExcept _) fun _ =>
        Respects.updateJob _ _

/-- A job of a kind without an operation of its own danger: what it may send
follows from the confirmation. -/
theorem sends_createJobOfKind_of_all (hP : Reads P) (around : Surroundings)
    (payload : ManagementJobRequest) (hall : payload.confirmed = true → ∀ command, P command)
    (kind : JobKind) :
    Fallible.Respects (SendsVia Managed.router P)
      (createJobOfKind around (commandLog link) payload kind) := by
  have hplanned : payload.confirmed = true → ∀ planned id start checks failure,
      Fallible.Respects (SendsVia Managed.router P)
        (trackPlanned (commandLog link) id start planned checks failure) :=
    fun hconfirmed _ _ _ _ _ =>
      sends_trackPlanned link (fun command _ _ _ => hall hconfirmed command) _ _ _ _
  cases kind with
  | action =>
    exact sends_require fun _ _ => sends_requireConfirmed fun hconfirmed =>
      sends_startJob around _ (hplanned hconfirmed _ _ _ _ _)
  | backup =>
    exact sends_startJob around _ (sends_artifactJob (sends_backup link hP _) _ _ _ _)
  | bundle =>
    refine sends_startJob around _ (sends_artifactJob ?_ _ _ _ _)
    exact Fallible.Respects.bind (sends_bundle link hP _) fun _ => Fallible.Respects.pure _
  | restore => exact sends_createRestoreJob around payload
  | firewall => exact sends_createFirewallJob link around payload hall
  | wireless => exact sends_createWirelessJob link around payload hall
  | vpn =>
    exact sends_require fun _ _ => sends_requireConfirmed fun hconfirmed =>
      sends_startJob around _ (hplanned hconfirmed _ _ _ _ _)
  | dhcp =>
    exact sends_require fun _ _ => sends_requireConfirmed fun hconfirmed =>
      sends_startJob around _ (hplanned hconfirmed _ _ _ _ _)
  | dns =>
    exact sends_require fun _ _ => sends_requireConfirmed fun hconfirmed =>
      sends_startJob around _ (hplanned hconfirmed _ _ _ _ _)
  | network =>
    exact sends_require fun _ _ => sends_requireConfirmed fun hconfirmed =>
      sends_startJob around _ (hplanned hconfirmed _ _ _ _ _)
  | system =>
    exact sends_requireConfirmed fun hconfirmed =>
      sends_startJob around _ (hplanned hconfirmed _ _ _ _ _)
  | packages =>
    exact sends_require fun _ _ => sends_requireConfirmed fun hconfirmed =>
      sends_startJob around _ (sends_packagesJob_of_all link (hall hconfirmed) _ _ _)
  | storage =>
    unfold createJobOfKind
    cases given payload.action with
    | none => exact Fallible.Respects.raise _
    | some action =>
      cases given payload.target with
      | none => exact Fallible.Respects.raise _
      | some target =>
        exact sends_requireConfirmed fun hconfirmed =>
          sends_startJob around _ (sends_storageJob_of_all link (hall hconfirmed) _ _ _)
  | services => exact Fallible.Respects.raise _

end Sending

/-! ## Gated requests -/

theorem given_eq_some {field : Option Text} {text : Text} (h : given field = some text) :
    field = some text := by
  obtain ⟨hfield, _⟩ := Option.filter_eq_some_iff.mp h
  exact hfield

/-- Of the actions the service knows, the guard would deny the factory reset. -/
theorem factoryReset_of_denied {name : Text} {entry : ActionEntry}
    (hfind : actionCommands.find? (fun entry => entry.name = name) = some entry)
    (hdeny : (name.map fun c => if c = '-' then ' ' else c) ∈ dangerousActions) :
    name = "factory-reset".toList := by
  have hall : ∀ entry ∈ actionCommands,
      (entry.name.map fun c => if c = '-' then ' ' else c) ∈ dangerousActions →
        entry.name = "factory-reset".toList := by decide
  have hname : entry.name = name := by simpa using List.find?_some hfind
  rw [← hname]
  exact hall entry (List.mem_of_find?_eq_some hfind) (hname ▸ hdeny)

/-- An action the service does not know sends nothing, and the only one it knows
and the guard would deny is the factory reset. -/
theorem sends_deniedAction {P : Text → Prop} (link : RouterLink σ) {name : Text}
    (hdeny : (name.map fun c => if c = '-' then ' ' else c) ∈ dangerousActions)
    (hname : name ≠ "factory-reset".toList) (id start : Text) (checks : Bool)
    (failure : Text → Text) :
    Fallible.Respects (SendsVia Managed.router P)
      (trackPlanned (commandLog link) id start (action name) checks failure) := by
  refine sends_trackPlanned link ?_ _ _ _ _
  intro command timeout describe hplanned
  rw [action] at hplanned
  cases hfind : actionCommands.find? fun entry => entry.name = name with
  | none =>
    rw [hfind] at hplanned
    cases hplanned
  | some entry => exact absurd (factoryReset_of_denied hfind hdeny) hname

/-- A job whose operation the guard would deny sends only read-only commands,
unless it is one of the two denied jobs. -/
theorem sends_dangerousJob {P : Text → Prop} (link : RouterLink σ) (hP : Reads P)
    (around : Surroundings) {payload : ManagementJobRequest}
    (hlimits : payload.withinLimits = true) (hdanger : Dangerous (.createJob payload))
    (hdenied : ¬DeniedJob payload) {kind : JobKind}
    (hkind : jobKinds.lookup payload.kind = some kind) :
    Fallible.Respects (SendsVia Managed.router P)
      (createJobOfKind around (commandLog link) payload kind) := by
  obtain ⟨guard, hguard, hdeny⟩ := hdanger
  rw [evaluate_deny_iff] at hdeny
  rw [guardName] at hguard
  by_cases haction : payload.kind = "action".toList
  · rw [if_pos haction] at hguard
    obtain ⟨name, hname, hspaces⟩ := Option.map_eq_some_iff.mp hguard
    rw [haction] at hkind
    have hlookup : jobKinds.lookup "action".toList = some .action := by rfl
    rw [hlookup] at hkind
    obtain rfl := Option.some.inj hkind
    refine sends_require fun text htext => sends_requireConfirmed fun hconfirmed => ?_
    have heq : text = name := by
      have hfield := given_eq_some htext
      rw [hname] at hfield
      exact (Option.some.inj hfield).symm
    refine sends_startJob around _ (sends_deniedAction link ?_ ?_ _ _ _ _)
    · rw [heq, hspaces]
      exact hdeny
    · intro hreset
      refine hdenied ⟨hlimits, hconfirmed, .inl ⟨haction, ?_⟩⟩
      rw [hname, ← heq, hreset]
  · rw [if_neg haction] at hguard
    by_cases hremove : payload.kind = "packages".toList ∧ payload.action = some "remove".toList
    · obtain ⟨hpackages, hname⟩ := hremove
      rw [hpackages] at hkind
      have hlookup : jobKinds.lookup "packages".toList = some .packages := by rfl
      rw [hlookup] at hkind
      obtain rfl := Option.some.inj hkind
      refine sends_require fun text htext => sends_requireConfirmed fun hconfirmed => ?_
      have heq : text = "remove".toList := by
        have hfield := given_eq_some htext
        rw [hname] at hfield
        exact (Option.some.inj hfield).symm
      have hinstall : "remove".toList ≠ "install".toList := by decide
      have hmutation : packageMutation "remove".toList = some packageRemove := by
        rw [packageMutation, if_neg hinstall, if_pos rfl]
      refine sends_startJob around _ (Respects.trackOperation ?_ _ _ _ _ _ _)
      simp only [packagesOperation, heq, hmutation]
      refine sends_pkgMutate link hP packageRemove _ fun hvalid => ?_
      exact absurd ⟨hlimits, hconfirmed, .inr ⟨hpackages, hname, hvalid⟩⟩ hdenied
    · rw [if_neg hremove] at hguard
      cases hguard

/-- Every job request but the denied ones is gated. -/
theorem gated_createJob {payload : ManagementJobRequest} (hdenied : ¬DeniedJob payload) :
    Gated (.createJob payload) := by
  intro σ link around s
  have hP : Reads (MaySend s.jobs (.createJob payload)) := fun _ h => .inl h
  refine sends_answerJob ?_ s
  refine Fallible.Respects.ite (fun hlimits => ?_) fun _ => Fallible.Respects.raise _
  cases hkind : jobKinds.lookup payload.kind with
  | none => exact Fallible.Respects.raise _
  | some kind =>
    by_cases hdanger : Dangerous (.createJob payload)
    · exact sends_dangerousJob link hP around hlimits hdanger hdenied hkind
    · exact sends_createJobOfKind_of_all link hP around payload
        (fun hconfirmed command => .inr ⟨hconfirmed, hdanger⟩) kind

/-- A confirm call of a job that is not a staged restore sends nothing. -/
theorem gated_confirmJob (id : Text) : Gated (.confirmJob id) := by
  intro σ link around s
  have hsafe : ¬Dangerous (.confirmJob id) := by
    intro ⟨_, hname, _⟩
    cases hname
  show SendsVia Managed.router _ s (answerJob (confirmJob (commandLog link) id) s).2
  cases hjob : s.jobs id with
  | none =>
    have hconfirm : confirmJob (commandLog link) id s =
        (.error (.http 404 "Job not found"), s) := by
      rw [confirmJob, Fallible.read_bind_apply, hjob]
      rfl
    rw [answerJob, Fallible.bind_of_error hconfirm]
    exact refl_of (SendsVia Managed.router _) s
  | some job =>
    by_cases hrestore : job.kind = .restore
    · by_cases hpending : job.pendingConfirmation = true
      · -- The job is a staged restore: the request may send everything.
        have hall : ∀ command, MaySend s.jobs (.confirmJob id) command :=
          fun command => .inr ⟨⟨job, hjob, hrestore, hpending⟩, hsafe⟩
        refine sends_answerJob ?_ s
        refine Fallible.Respects.bind Fallible.Respects.read fun s' => ?_
        cases s'.jobs id with
        | none => exact Fallible.Respects.raise _
        | some job' =>
          refine Fallible.Respects.ite (fun _ => Fallible.Respects.raise _) fun _ => ?_
          refine Fallible.Respects.bind (sends_background ?_) fun _ =>
            Fallible.Respects.pure _
          exact RestoreConfirm.Respects.confirmRestoreJob (fun _ => hall _) link id
      · have hread : confirmRestoreJob (commandLog link) id s =
            (.error (.management "This restore job is not awaiting confirmation."), s) := by
          have hfalse : job.pendingConfirmation = false := by
            simpa using hpending
          refine Fallible.bind_of_error ?_
          rw [readStaged, Fallible.bind_of_ok (getJob_apply id s), hjob]
          simp only [hfalse, Bool.false_eq_true, if_false]
          rfl
        have hconfirm : (confirmJob (commandLog link) id s).2 = s := by
          rw [confirmJob, Fallible.read_bind_apply, hjob]
          simp only [hrestore, ne_eq, not_true_eq_false, if_false]
          show (confirmRestoreJob (commandLog link) id s).2 = s
          rw [hread]
        have hanswer : (answerJob (confirmJob (commandLog link) id) s).2 =
            (confirmJob (commandLog link) id s).2 := by
          rw [answerJob]
          cases hrun : confirmJob (commandLog link) id s with
          | mk result s' =>
            cases result with
            | ok job' => rw [Fallible.bind_of_ok hrun]; rfl
            | error e => rw [Fallible.bind_of_error hrun]
        rw [hanswer, hconfirm]
        exact refl_of (SendsVia Managed.router _) s
    · have hconfirm : confirmJob (commandLog link) id s =
          (.error (.http 422 "Only restore jobs can be confirmed."), s) := by
        rw [confirmJob, Fallible.read_bind_apply, hjob]
        simp only [hrestore, ne_eq, not_false_eq_true, if_true]
        rfl
      rw [answerJob, Fallible.bind_of_error hconfirm]
      exact refl_of (SendsVia Managed.router _) s

/-- A search for nothing sends nothing. -/
theorem gated_blankSearch {q : Text} (h : strip q = []) : Gated (.searchPackages q) := by
  intro σ link around s
  refine sends_answerData ?_ s
  exact Fallible.Respects.ite (fun _ => Fallible.Respects.raise _) fun hne => absurd h hne

/-- The kill of an invalid process id sends nothing. -/
theorem gated_invalidKill {pid : Int} (h : pid ≤ 0 ∨ 4194304 < pid) :
    Gated (.killProcess pid) := by
  intro σ link around s
  refine sends_answerData (Respects.onRouter ?_) s
  exact Fallible.Respects.ite (fun _ => Fallible.Respects.raise _) fun hne => absurd h hne

/-- Every request that is not listed is gated. -/
theorem gated_of_not_ungated {request : ApiRequest} (h : ¬Ungated request) : Gated request := by
  cases request with
  | packages refresh =>
    exact fun _ link _ s => sends_answerData (sends_packages link (fun _ h => .inl h) refresh) s
  | refreshPackages =>
    exact fun _ link _ s => sends_answerData (sends_packages link (fun _ h => .inl h) true) s
  | packageFeeds =>
    exact fun _ link _ s =>
      sends_answerData (Respects.onRouter (sends_feeds link fun _ h => .inl h)) s
  | searchPackages q =>
    refine gated_blankSearch ?_
    by_contra hne
    exact h hne
  | packageDetails name =>
    exact fun _ link _ s =>
      sends_answerData (Respects.onRouter (sends_packageDetails link (fun _ h => .inl h) name)) s
  | storage =>
    exact fun _ link _ s =>
      sends_answerData (Respects.onRouter (sends_readOutput link (.inl .storageGather) 60)) s
  | servicesIndex =>
    exact fun _ link _ s =>
      sends_answerData (Respects.onRouter (sends_readOutput link (.inl .servicesGather) 60)) s
  | firewallConfig =>
    exact fun _ link _ s =>
      sends_answerData (Respects.onRouter (sends_readOutput link (.inl .firewallGather) 60)) s
  | dnsConfig =>
    exact fun _ link _ s =>
      sends_answerData (Respects.onRouter (sends_pkgRun link (.inl .dns) 90)) s
  | runServiceAction service verb =>
    exact fun _ _ around s => sends_answerJob
      (Fallible.Respects.bind (sends_createJobRecord around _) fun _ =>
        Fallible.Respects.raise _) s
  | logs lines =>
    exact fun _ link _ s =>
      sends_answerData (Respects.onRouter (sends_readLogs link (fun _ h => .inl h) lines)) s
  | processes =>
    exact fun _ link _ s =>
      sends_answerData (Respects.onRouter (sends_processes link fun _ h => .inl h)) s
  | killProcess pid =>
    refine gated_invalidKill ?_
    by_contra hvalid
    exact h ⟨by omega, by omega⟩
  | systemInfo =>
    exact fun _ link _ s =>
      sends_answerData (Respects.onRouter (sends_readOutput link (.inl .systemGather) 60)) s
  | createJob payload => exact gated_createJob h
  | getJob id =>
    intro σ link around s
    refine sends_answerJob (Fallible.Respects.bind Fallible.Respects.read fun s' => ?_) s
    cases s'.jobs id with
    | none => exact Fallible.Respects.raise _
    | some job => exact Fallible.Respects.pure _
  | confirmJob id => exact gated_confirmJob id
  | downloadArtifact id =>
    intro σ link around s
    refine Fallible.Respects.bind Fallible.Respects.read (fun s' => ?_) s
    cases s'.jobs id with
    | none => exact Fallible.Respects.raise _
    | some job =>
      simp only
      cases job.artifact with
      | none => exact Fallible.Respects.raise _
      | some artifact => exact Fallible.Respects.pure _

end OpenWrtCopilot.Ports.Management
