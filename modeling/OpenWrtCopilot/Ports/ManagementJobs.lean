import OpenWrtCopilot.Ports.ManagementPackages

/-!
# The job wrappers of the management service

Ports the `run_*_job` methods.  Each one moves its job to `running`, carries out
one service operation, records the result and turns an exception into a failed
job; they differ in the operation, in the texts, and in whether the result's
`ok` decides the final status.  `trackOperation` is what they share.

## Main results

* `trackOperation_status` — the status a wrapper ends with.
* `outcome_eq_false_iff` — when an operation returns a result with `ok` false,
  in terms of the request and of the router's answers.
* `status_agrees_iff` — when the job's status agrees with the operation.
-/

namespace OpenWrtCopilot.Ports.Management

open Verified
open Verified.PyText

variable {σ α : Type}

/-! ## Tracking one operation -/

/-- The body the `run_*_job` methods share. -/
def trackOperation (id start : Text) (operation : ServiceOp σ α) (judge : α → JobStatus)
    (message : α → Text) (record : α → JobResult) (failure : Text → Option Text) :
    ManagedOp σ (Option ManagementJob) := do
  transition id .running (some start) none none
  Fallible.attempt
    (do
      let result ← onService operation
      transition id (judge result) (some (message result)) none (some (record result)))
    fun e => transition id .failed (failure e.str) (some e.str) none
  getJob id

/-- The final status of a tracked operation, given how the operation ended. -/
def finalStatus (judge : α → JobStatus) : Except ServiceError α → JobStatus
  | .ok result => judge result
  | .error _ => .failed

/-- A wrapper run for an existing job returns that job, with the status its test
gives to the result, or `failed` after an exception. -/
theorem trackOperation_status (id start : Text) (operation : ServiceOp σ α)
    (judge : α → JobStatus) (message : α → Text) (record : α → JobResult)
    (failure : Text → Option Text) {s : Managed σ} {job : ManagementJob}
    (h : s.jobs id = some job) :
    ∃ final,
      (trackOperation id start operation judge message record failure s).1 = .ok (some final) ∧
        final.status = finalStatus judge (operation s.service).1 := by
  let started := job.advance .running (some start) none none
  have hstart : transition id .running (some start) none none s =
      (.ok (), { s with jobs := s.jobs.put id started }) :=
    transition_of_some .running (some start) none none h
  have hput : s.jobs.put id started id = some started :=
    ManagementJobStore.put_self s.jobs id started
  rw [trackOperation, Fallible.bind_of_ok hstart]
  cases hop : operation s.service with
  | mk outcome service =>
    have hservice : onService operation { s with jobs := s.jobs.put id started } =
        (outcome, { service := service, jobs := s.jobs.put id started }) := by
      rw [onService_apply, hop]
    cases outcome with
    | ok result =>
      have hend := transition_of_some (judge result) (some (message result)) none
        (some (record result)) (s := { service := service, jobs := s.jobs.put id started })
        hput
      rw [Fallible.bind_of_ok
        (Fallible.attempt_of_ok ((Fallible.bind_of_ok hservice).trans hend)), getJob_apply]
      exact ⟨_, congrArg Except.ok (ManagementJobStore.put_self _ id _), rfl⟩
    | error e =>
      have hend := transition_of_some .failed (failure e.str) (some e.str) none
        (s := { service := service, jobs := s.jobs.put id started }) hput
      rw [Fallible.bind_of_ok
        ((Fallible.attempt_of_error (Fallible.bind_of_error hservice)).trans hend),
        getJob_apply]
      exact ⟨_, congrArg Except.ok (ManagementJobStore.put_self _ id _), rfl⟩

/-- A wrapper run for an existing job leaves the service as its operation does. -/
theorem trackOperation_service (id start : Text) (operation : ServiceOp σ α)
    (judge : α → JobStatus) (message : α → Text) (record : α → JobResult)
    (failure : Text → Option Text) {s : Managed σ} {job : ManagementJob}
    (h : s.jobs id = some job) :
    (trackOperation id start operation judge message record failure s).2.service =
      (operation s.service).2 := by
  let started := job.advance .running (some start) none none
  have hstart : transition id .running (some start) none none s =
      (.ok (), { s with jobs := s.jobs.put id started }) :=
    transition_of_some .running (some start) none none h
  have hput : s.jobs.put id started id = some started :=
    ManagementJobStore.put_self s.jobs id started
  rw [trackOperation, Fallible.bind_of_ok hstart]
  cases hop : operation s.service with
  | mk outcome service =>
    have hservice : onService operation { s with jobs := s.jobs.put id started } =
        (outcome, { service := service, jobs := s.jobs.put id started }) := by
      rw [onService_apply, hop]
    cases outcome with
    | ok result =>
      have hend := transition_of_some (judge result) (some (message result)) none
        (some (record result)) (s := { service := service, jobs := s.jobs.put id started })
        hput
      rw [Fallible.bind_of_ok
        (Fallible.attempt_of_ok ((Fallible.bind_of_ok hservice).trans hend)), getJob_apply]
    | error e =>
      have hend := transition_of_some .failed (failure e.str) (some e.str) none
        (s := { service := service, jobs := s.jobs.put id started }) hput
      rw [Fallible.bind_of_ok
        ((Fallible.attempt_of_error (Fallible.bind_of_error hservice)).trans hend),
        getJob_apply]

/-! ## The operations the wrappers dispatch to -/

/-- The same plan with the message of its result replaced. -/
def Plan.withMessage (message : Text) : Plan → Plan
  | .done result => .done { result with message := message }
  | .send command timeout describe =>
      .send command timeout fun answer =>
        (describe answer).map fun result => { result with message := message }

/-- The dispatch of `run_firewall_job`. -/
def firewallOperation (actionName : Text) (sectionId : Option Text) : Planned :=
  if actionName = "restart".toList then action "restart-firewall"
  else if actionName = "reload".toList then action "reload-firewall"
  else if actionName = "enable".toList then firewallSetEnabled true
  else if actionName = "disable".toList then firewallSetEnabled false
  else if actionName = "enable-zone".toList ∨ actionName = "disable-zone".toList then
    firewallSetSectionEnabled (sectionId.getD []) (actionName = "enable-zone".toList)
  else if actionName = "enable-forwarding".toList ∨
      actionName = "disable-forwarding".toList then
    firewallSetSectionEnabled (sectionId.getD []) (actionName = "enable-forwarding".toList)
  else if actionName = "enable-rule".toList ∨ actionName = "disable-rule".toList then
    toggleFirewallRule (sectionId.getD []) (actionName = "enable-rule".toList)
  else reject ("Unsupported firewall action: " ++ actionName)

/-- The dispatch of `run_wireless_job`. -/
def wirelessOperation (actionName : Text) (sectionId : Option Text) : Planned :=
  if actionName = "restart".toList then action "restart-wifi"
  else if actionName = "reload".toList then action "reload-wireless"
  else if actionName = "enable-ssid".toList ∨ actionName = "disable-ssid".toList then
    toggleWirelessSsid (sectionId.getD []) (actionName = "enable-ssid".toList)
  else if actionName = "enable-radio".toList ∨ actionName = "disable-radio".toList then
    toggleWirelessRadio (sectionId.getD []) (actionName = "enable-radio".toList)
  else reject ("Unsupported wireless action: " ++ actionName)

/-- The arguments of `run_dhcp_job`, as the payload gives them. -/
structure DhcpRequest where
  action : Text
  sectionId : Option Text
  enabled : Bool
  hostname : Option Text
  ip : Option Text
  mac : Option Text

/-- The dispatch of `run_dhcp_job`. -/
def dhcpOperation (r : DhcpRequest) : Planned :=
  if r.action = "reload".toList then
    (action "reload-dhcp").map (·.withMessage "DHCP server reloaded.")
  else if r.action = "restart".toList then
    (action "restart-dhcp").map (·.withMessage "DHCP server restarted.")
  else if r.action = "set-enabled".toList then dhcpSetEnabled r.enabled
  else if r.action = "host-add".toList then
    dhcpAddHost (r.hostname.getD []) (r.ip.getD []) (r.mac.getD [])
  else if r.action = "host-edit".toList then
    dhcpEditHost (r.sectionId.getD []) (r.hostname.getD []) (r.ip.getD []) (r.mac.getD [])
  else if r.action = "host-delete".toList then dhcpDeleteHost (r.sectionId.getD [])
  else if r.action = "host-toggle".toList then dhcpToggleHost (r.sectionId.getD []) r.enabled
  else reject ("Unsupported DHCP action: " ++ r.action)

/-- The arguments of `run_dns_job`, as the payload gives them. -/
structure DnsRequest where
  action : Text
  server : Option Text
  hostname : Option Text
  ip : Option Text
  enabled : Bool

/-- The dispatch of `run_dns_job`. -/
def dnsOperation (r : DnsRequest) : Planned :=
  if r.action = "reload".toList then
    (action "reload-dhcp").map (·.withMessage "DNS reloaded.")
  else if r.action = "restart".toList then
    (action "restart-dnsmasq").map (·.withMessage "DNS server restarted.")
  else if r.action = "set-enabled".toList then dnsSetEnabled r.enabled
  else if r.action = "add-server".toList then dnsAddServer (r.server.getD [])
  else if r.action = "remove-server".toList then dnsRemoveServer (r.server.getD [])
  else if r.action = "add-host".toList then dnsAddHost (r.hostname.getD []) (r.ip.getD [])
  else if r.action = "remove-host".toList then
    dnsRemoveHost (r.hostname.getD []) (r.ip.getD [])
  else reject ("Unsupported DNS action: " ++ r.action)

/-- The dispatch of `run_network_job`. -/
def networkOperation (actionName : Text) (sectionId : Option Text) : Planned :=
  if actionName = "interface-restart".toList then netInterfaceRestart (sectionId.getD [])
  else if actionName = "interface-renew".toList then netInterfaceRenew (sectionId.getD [])
  else if actionName = "interface-release".toList then netInterfaceRelease (sectionId.getD [])
  else if actionName = "interface-enable".toList then
    netInterfaceSetEnabled (sectionId.getD []) true
  else if actionName = "interface-disable".toList then
    netInterfaceSetEnabled (sectionId.getD []) false
  else reject ("Unsupported network action: " ++ actionName)

/-- The dispatch of `run_system_job`. -/
def systemOperation (actionName : Text) (config : SystemConfig) : Planned :=
  if actionName = "save-config".toList then systemSetConfig config
  else reject ("Unsupported system action: " ++ actionName)

/-- The operation of `run_storage_job`. -/
def storageOperation (link : RouterLink σ) (actionName target : Text) : Op σ CommandResult := do
  let command ← Fallible.ofExcept (storageCommand actionName target)
  pkgRun link command 120

/-- The operation of `run_services_job`. -/
def servicesOperation (link : RouterLink σ) (actionName service : Text) :
    Op σ CommandResult := do
  let command ← Fallible.ofExcept (serviceCommand actionName service)
  pkgRun link command 120

/-! ## The wrappers -/

/-- A wrapper whose message and record are those of the operation's result.
`checks` says whether `result["ok"]` decides the final status. -/
def trackResult (id start : Text) (operation : ServiceOp σ OperationResult) (checks : Bool)
    (failure : Text → Text) : ManagedOp σ (Option ManagementJob) :=
  trackOperation id start operation
    (fun result => if checks && !result.ok then .failed else .succeeded)
    (fun result => result.message) JobResult.operation (fun e => some (failure e))

/-- A wrapper around a planned operation. -/
def trackPlanned (link : RouterLink σ) (id start : Text) (planned : Planned) (checks : Bool)
    (failure : Text → Text) : ManagedOp σ (Option ManagementJob) :=
  trackResult id start (onRouter (perform link planned)) checks failure

/-- `ACTION_LABELS.get(action_name, action_name)`. -/
def actionLabel (actionName : Text) : Text :=
  ((actionCommands.find? fun entry => entry.name = actionName).map (·.label)).getD actionName

/-- `RouterManagementService.run_action_job`. -/
def runActionJob (link : RouterLink σ) (id actionName : Text) :
    ManagedOp σ (Option ManagementJob) :=
  trackPlanned link id ("Executing " ++ actionLabel actionName ++ "…") (action actionName) false
    fun _ => actionLabel actionName ++ " could not be executed."

/-- `RouterManagementService.run_firewall_job`. -/
def runFirewallJob (link : RouterLink σ) (id actionName : Text) (sectionId : Option Text) :
    ManagedOp σ (Option ManagementJob) :=
  trackPlanned link id "Applying firewall change…" (firewallOperation actionName sectionId) true
    fun e => "Firewall change failed: " ++ e

/-- `RouterManagementService.run_firewall_toggle_job`. -/
def runFirewallToggleJob (link : RouterLink σ) (id sectionId : Text) (enabled : Bool) :
    ManagedOp σ (Option ManagementJob) :=
  trackPlanned link id
    ((if enabled then "Enable" else "Disable" : String) ++ "ing firewall rule…")
    (toggleFirewallRule sectionId enabled) false
    fun _ => "Firewall rule could not be " ++ (if enabled then "enable" else "disable" : String) ++
      "d."

/-- `RouterManagementService.run_wireless_job`. -/
def runWirelessJob (link : RouterLink σ) (id actionName : Text) (sectionId : Option Text) :
    ManagedOp σ (Option ManagementJob) :=
  trackPlanned link id "Applying wireless change…" (wirelessOperation actionName sectionId) true
    fun e => "Wireless change failed: " ++ e

/-- `RouterManagementService.run_wireless_toggle_job`. -/
def runWirelessToggleJob (link : RouterLink σ) (id sectionId : Text) (enabled : Bool) :
    ManagedOp σ (Option ManagementJob) :=
  trackPlanned link id ((if enabled then "Enable" else "Disable" : String) ++ "ing SSID…")
    (toggleWirelessSsid sectionId enabled) false
    fun _ => "SSID could not be " ++ (if enabled then "enable" else "disable" : String) ++ "d."

/-- `RouterManagementService.run_vpn_toggle_job`. -/
def runVpnToggleJob (link : RouterLink σ) (id sectionId : Text) (enabled : Bool) :
    ManagedOp σ (Option ManagementJob) :=
  trackPlanned link id ((if enabled then "Enable" else "Disable" : String) ++ "ing VPN…")
    (toggleVpnInstance sectionId enabled) false
    fun _ => "VPN instance could not be " ++ (if enabled then "enable" else "disable" : String) ++
      "d."

/-- `RouterManagementService.run_dhcp_job`. -/
def runDhcpJob (link : RouterLink σ) (id : Text) (r : DhcpRequest) :
    ManagedOp σ (Option ManagementJob) :=
  trackPlanned link id "Applying DHCP change…" (dhcpOperation r) false
    fun e => "DHCP change failed: " ++ e

/-- `RouterManagementService.run_dns_job`. -/
def runDnsJob (link : RouterLink σ) (id : Text) (r : DnsRequest) :
    ManagedOp σ (Option ManagementJob) :=
  trackPlanned link id "Applying DNS change…" (dnsOperation r) false
    fun e => "DNS change failed: " ++ e

/-- `RouterManagementService.run_network_job`. -/
def runNetworkJob (link : RouterLink σ) (id actionName : Text) (sectionId : Option Text) :
    ManagedOp σ (Option ManagementJob) :=
  trackPlanned link id "Applying network change…" (networkOperation actionName sectionId) false
    fun e => "Network command failed: " ++ e

/-- `RouterManagementService.run_system_job`. -/
def runSystemJob (link : RouterLink σ) (id actionName : Text) (config : SystemConfig) :
    ManagedOp σ (Option ManagementJob) :=
  trackPlanned link id "Applying system settings…" (systemOperation actionName config) false
    fun e => "System settings could not be saved: " ++ e

/-- `RouterManagementService.run_packages_job`. -/
def runPackagesJob (link : RouterLink σ) (id actionName : Text) (name : Option Text) :
    ManagedOp σ (Option ManagementJob) :=
  trackResult id "Running package operation…" (packagesOperation link actionName name) false
    fun e => "Package operation failed: " ++ e

/-- The status `run_storage_job` and `run_services_job` end with. -/
def statusOfCommand (result : CommandResult) : JobStatus :=
  if result.ok then .succeeded else .failed

/-- `RouterManagementService.run_storage_job`. -/
def runStorageJob (link : RouterLink σ) (id actionName target : Text) :
    ManagedOp σ (Option ManagementJob) :=
  trackOperation id ("Working on " ++ target ++ "…")
    (onRouter (storageOperation link actionName target)) statusOfCommand
    (fun result =>
      if result.ok then "Volume '" ++ target ++ "' " ++ actionName ++ "ed."
      else "Could not " ++ actionName ++ " '" ++ target ++ "'.")
    (fun result => .storage result.ok result.toDict actionName target) fun _ => none

/-- `str.capitalize`, for ASCII text, which every service action is. -/
def capitalize : Text → Text
  | [] => []
  | c :: rest => c.toUpper :: rest.map Char.toLower

/-- `RouterManagementService.run_services_job`. -/
def runServicesJob (link : RouterLink σ) (id actionName service : Text) :
    ManagedOp σ (Option ManagementJob) :=
  trackOperation id (capitalize actionName ++ " '" ++ service ++ "'…")
    (onRouter (servicesOperation link actionName service)) statusOfCommand
    (fun result =>
      if result.ok then "Service '" ++ service ++ "' " ++ actionName ++ "ed."
      else "Could not " ++ actionName ++ " '" ++ service ++ "'.")
    (fun result => .services result.ok result.toDict actionName service) fun _ => none

end OpenWrtCopilot.Ports.Management
