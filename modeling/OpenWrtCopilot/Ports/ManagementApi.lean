import OpenWrtCopilot.Ports.ManagementReads
import OpenWrtCopilot.Ports.ManagementRestore
import OpenWrtCopilot.Ports.ManagementJobs

/-!
# The management API

Ports the endpoints of `management.py`: what each request checks, which service
operation or job it starts, and the errors it answers.  Authentication has
happened before, and response bodies are not modelled beyond the job they show.

A job endpoint starts its wrapper as a background task; `background` carries the
task out.  The five service endpoints are synchronous functions, so they run in
a worker thread without an event loop, where `asyncio.create_task` raises.
-/

namespace OpenWrtCopilot.Ports.Management

open Verified
open Verified.PyText

variable {σ α : Type}

/-! ## Requests and answers -/

/-- `ManagementJobRequest`. -/
structure ManagementJobRequest where
  kind : Text
  action : Option Text := none
  confirmed : Bool := false
  filename : Option Text := none
  contentB64 : Option Text := none
  sectionId : Option Text := none
  enabled : Bool := false
  hostname : Option Text := none
  ip : Option Text := none
  mac : Option Text := none
  timezone : Option Text := none
  language : Option Text := none
  notes : Option Text := none
  name : Option Text := none
  target : Option Text := none
  server : Option Text := none

/-- The `max_length` of every field. -/
def ManagementJobRequest.withinLimits (p : ManagementJobRequest) : Bool :=
  [(p.action, 64), (p.filename, 255), (p.contentB64, 64000000), (p.sectionId, 128),
    (p.hostname, 63), (p.ip, 64), (p.mac, 32), (p.timezone, 64), (p.language, 16),
    (p.notes, 512), (p.name, 128), (p.target, 512), (p.server, 253)].all fun (field, limit) =>
      field.all fun text => text.length ≤ limit

/-- The service endpoints. -/
inductive ServiceVerb
  | start
  | stop
  | restart
  | enable
  | disable

/-- The requests the API accepts, once the caller is authorised. -/
inductive ApiRequest
  | packages (refresh : Bool)
  | refreshPackages
  | packageFeeds
  | searchPackages (q : Text)
  | packageDetails (name : Text)
  | storage
  | servicesIndex
  | firewallConfig
  | dnsConfig
  | runServiceAction (service : Text) (verb : ServiceVerb)
  | logs (lines : Int)
  | processes
  | killProcess (pid : Int)
  | systemInfo
  | createJob (payload : ManagementJobRequest)
  | getJob (id : Text)
  | confirmJob (id : Text)
  | downloadArtifact (id : Text)

/-- What a request fails with: a body the framework does not validate, an HTTP
error, or an exception no handler catches. -/
inductive ApiError
  | unprocessable
  | http (status : Nat) (detail : Text)
  | unhandled (e : ServiceError)

/-- What a successful request answers. -/
inductive Reply
  | data
  | job (job : ManagementJob)
  | artifact (name : Text) (content : List UInt8)

/-- What a request takes from outside: the UUID generator, the clock and the
compressor. -/
structure Surroundings where
  freshId : Text
  timestamp : Text
  gzip : Text → List UInt8

/-- A request being handled. -/
abbrev ApiOp (σ : Type) := Fallible ApiError (Managed σ)

/-- `raise HTTPException(status_code=status, detail=detail)`. -/
def httpError (status : Nat) (detail : Text) : ApiOp σ α := Fallible.raise (.http status detail)

/-- Call the service; a `RouterManagementError` is answered with the status. -/
def callService (status : Nat) (m : ManagedOp σ α) : ApiOp σ α := fun s =>
  match m s with
  | (.ok a, s') => (.ok a, s')
  | (.error (.management message), s') => (.error (.http status message), s')
  | (.error e, s') => (.error (.unhandled e), s')

/-- `asyncio.create_task(asyncio.to_thread(…))`, with the task carried out. -/
def background (m : ManagedOp σ α) : ApiOp σ Unit := fun s => (.ok (), (m s).2)

/-! ## Jobs with an artifact -/

/-- The body `run_backup_job` and `run_bundle_job` share. -/
def runArtifactJob (id start : Text) (build : Op σ (Text × List UInt8)) (ready : Nat → Text)
    (failure : Text) : ManagedOp σ (Option ManagementJob) := do
  transition id .running (some start) none none
  Fallible.attempt
    (do
      let (filename, data) ← onService (onRouter build)
      attachArtifact id filename data
      transition id .succeeded (some (ready data.length)) none
        (some (.artifact filename data.length)))
    fun e => transition id .failed (some failure) (some e.str) none
  Management.getJob id

/-- `RouterManagementService.run_backup_job`. -/
def runBackupJob (link : RouterLink σ) (around : Surroundings) (id : Text) :
    ManagedOp σ (Option ManagementJob) :=
  runArtifactJob id "Creating configuration backup…" (buildBackup link around.timestamp)
    (fun size => "Backup ready (" ++ natText size ++ " bytes).") "Backup generation failed."

/-- `build_bundle` with its compression. -/
def compressBundle (link : RouterLink σ) (around : Surroundings) : Op σ (Text × List UInt8) := do
  let (filename, text) ← buildBundle link around.timestamp
  return (filename, around.gzip text)

/-- `RouterManagementService.run_bundle_job`. -/
def runBundleJob (link : RouterLink σ) (around : Surroundings) (id : Text) :
    ManagedOp σ (Option ManagementJob) :=
  runArtifactJob id "Collecting diagnostics…" (compressBundle link around)
    (fun size => "Diagnostic bundle ready (" ++ natText size ++ " bytes).")
    "Diagnostic bundle generation failed."

/-! ## Starting jobs -/

/-- `JOB_KINDS`. -/
def jobKinds : List (Text × JobKind) :=
  [("action", .action), ("backup", .backup), ("bundle", .bundle), ("restore", .restore),
    ("firewall", .firewall), ("wireless", .wireless), ("vpn", .vpn), ("dhcp", .dhcp),
    ("dns", .dns), ("network", .network), ("system", .system), ("packages", .packages),
    ("storage", .storage)]

/-- A field that is neither missing nor empty. -/
def given (field : Option Text) : Option Text := field.filter (· ≠ [])

/-- A required field. -/
def require (field : Option Text) (detail : Text) : ApiOp σ Text :=
  match given field with
  | some text => pure text
  | none => httpError 422 detail

/-- The explicit confirmation a job needs. -/
def requireConfirmed (payload : ManagementJobRequest) (purpose : Text) : ApiOp σ Unit :=
  if payload.confirmed then pure ()
  else httpError 409 ("Confirmation required: send confirmed=true to " ++ purpose)

/-- `_create_job`, and the job as the answer shows it. -/
def createJobRecord (around : Surroundings) (kind : JobKind) : ApiOp σ ManagementJob := do
  Fallible.modify fun s => { s with jobs := s.jobs.create around.freshId kind "Queued" }
  return { id := around.freshId, kind := kind, message := "Queued" }

/-- Create a job and start its wrapper. -/
def startJob (around : Surroundings) (kind : JobKind) (wrapper : ManagedOp σ α) :
    ApiOp σ ManagementJob := do
  let job ← createJobRecord around kind
  background wrapper
  return job

def firewallSectionToggles : List Text :=
  ["enable-rule", "disable-rule", "enable-zone", "disable-zone", "enable-forwarding",
    "disable-forwarding"].map String.toList

def firewallResettableActions : List Text :=
  ["restart", "reload", "enable", "disable"].map String.toList ++ firewallSectionToggles

def wirelessToggleActions : List Text :=
  ["enable-ssid", "disable-ssid", "enable-radio", "disable-radio"].map String.toList

/-- `create_job` for `kind == "firewall"`. -/
def createFirewallJob (around : Surroundings) (link : RouterLink σ)
    (payload : ManagementJobRequest) : ApiOp σ ManagementJob := do
  let action := payload.action.getD (if payload.enabled then "enable-rule" else "disable-rule")
  if action ∈ firewallSectionToggles ∧ given payload.sectionId = none then
    httpError 422 "A firewall section is required."
  if action ∈ firewallResettableActions then
    requireConfirmed payload "change the firewall configuration on the router."
  startJob around .firewall
    (runFirewallJob link around.freshId action payload.sectionId)

/-- `create_job` for `kind == "wireless"`. -/
def createWirelessJob (around : Surroundings) (link : RouterLink σ)
    (payload : ManagementJobRequest) : ApiOp σ ManagementJob := do
  let action := (given payload.action).getD
    (if payload.enabled then "enable-ssid" else "disable-ssid")
  if action ∈ wirelessToggleActions ∧ given payload.sectionId = none then
    httpError 422 "A wireless section is required."
  requireConfirmed payload "change the wireless network on the router."
  startJob around .wireless
    (runWirelessJob link around.freshId action payload.sectionId)

/-- `create_job` for `kind == "restore"`. -/
def createRestoreJob (around : Surroundings) (payload : ManagementJobRequest) :
    ApiOp σ ManagementJob := do
  match given payload.filename, given payload.contentB64 with
  | some filename, some contentB64 =>
      let job ← createJobRecord around .restore
      let staged ← callService 422 (stageRestoreJob around.freshId filename contentB64)
      return staged.getD job
  | _, _ => httpError 422 "filename and content_b64 are required."

/-- `create_job`, by the kind of job. -/
def createJobOfKind (around : Surroundings) (link : RouterLink σ)
    (payload : ManagementJobRequest) : JobKind → ApiOp σ ManagementJob
  | .action => do
      let action ← require payload.action "An action name is required."
      requireConfirmed payload ("execute '" ++ action ++ "' on the router.")
      startJob around .action (runActionJob link around.freshId action)
  | .backup => startJob around .backup (runBackupJob link around around.freshId)
  | .firewall => createFirewallJob around link payload
  | .wireless => createWirelessJob around link payload
  | .vpn => do
      let sectionId ← require payload.sectionId "A VPN section is required."
      requireConfirmed payload "change the VPN instance on the router."
      startJob around .vpn (runVpnToggleJob link around.freshId sectionId payload.enabled)
  | .dhcp => do
      let action ← require payload.action "A DHCP action is required."
      requireConfirmed payload "change the DHCP configuration on the router."
      startJob around .dhcp (runDhcpJob link around.freshId
        { action := action
          sectionId := payload.sectionId
          enabled := payload.enabled
          hostname := payload.hostname
          ip := payload.ip
          mac := payload.mac })
  | .dns => do
      let action ← require payload.action "A DNS action is required."
      requireConfirmed payload "change the DNS configuration on the router."
      startJob around .dns (runDnsJob link around.freshId
        { action := action
          server := payload.server
          hostname := payload.hostname
          ip := payload.ip
          enabled := payload.enabled })
  | .network => do
      let action ← require payload.action "A network action is required."
      requireConfirmed payload "change the network on the router."
      startJob around .network
        (runNetworkJob link around.freshId action payload.sectionId)
  | .bundle => startJob around .bundle (runBundleJob link around around.freshId)
  | .packages => do
      let action ← require payload.action "A package action is required."
      requireConfirmed payload ("run the '" ++ action ++ "' package operation on the router.")
      startJob around .packages (runPackagesJob link around.freshId action payload.name)
  | .system => do
      requireConfirmed payload "save system settings on the router."
      startJob around .system
        (runSystemJob link around.freshId ((given payload.action).getD "save-config")
          { hostname := payload.hostname
            timezone := payload.timezone
            language := payload.language
            notes := payload.notes })
  | .storage => do
      match given payload.action, given payload.target with
      | some action, some target =>
          requireConfirmed payload
            ("run the '" ++ action ++ "' storage operation on the router.")
          startJob around .storage (runStorageJob link around.freshId action target)
      | _, _ => httpError 422 "A storage action and target are required."
  | .restore => createRestoreJob around payload
  | .services => httpError 422 ("Unsupported job kind: " ++ payload.kind)

/-- `create_job`. -/
def createJob (around : Surroundings) (link : RouterLink σ) (payload : ManagementJobRequest) :
    ApiOp σ ManagementJob :=
  if payload.withinLimits then
    match jobKinds.lookup payload.kind with
    | some kind => createJobOfKind around link payload kind
    | none => httpError 422 ("Unsupported job kind: " ++ payload.kind)
  else Fallible.raise .unprocessable

/-! ## The other endpoints -/

/-- `_run_service_action`: the job is created, and starting its task raises. -/
def runServiceAction (around : Surroundings) : ApiOp σ ManagementJob := do
  let _ ← createJobRecord around .services
  Fallible.raise (.unhandled (.builtin "RuntimeError" "no running event loop"))

/-- `confirm_job`. -/
def confirmJob (link : RouterLink σ) (id : Text) : ApiOp σ ManagementJob := do
  let s ← Fallible.read
  match s.jobs id with
  | none => httpError 404 "Job not found"
  | some job =>
      if job.kind ≠ .restore then
        httpError 422 "Only restore jobs can be confirmed."
      else
        background (confirmRestoreJob link id)
        return job

/-- `get_job`, for a caller that may see the job. -/
def showJob (id : Text) : ApiOp σ ManagementJob := do
  let s ← Fallible.read
  match s.jobs id with
  | none => httpError 404 "Job not found"
  | some job => return job

/-- `download_artifact`. -/
def downloadArtifact (id : Text) : ApiOp σ Reply := do
  let s ← Fallible.read
  match s.jobs id with
  | none => httpError 404 "Job not found"
  | some job =>
      match job.artifact with
      | none => httpError 409 "Job has no downloadable artifact yet."
      | some (name, content) => return .artifact name content

/-- A read endpoint. -/
def answerData (m : ServiceOp σ α) : ApiOp σ Reply := do
  let _ ← callService 503 (onService m)
  return .data

/-- An endpoint that answers with a job. -/
def answerJob (m : ApiOp σ ManagementJob) : ApiOp σ Reply := do
  let job ← m
  return .job job

/-- The endpoint of a request. -/
def handle (around : Surroundings) (link : RouterLink σ) : ApiRequest → ApiOp σ Reply
  | .packages refresh => answerData (Management.packages link refresh)
  | .refreshPackages => answerData (Management.packages link true)
  | .packageFeeds => answerData (onRouter (feeds link))
  | .searchPackages q => answerData (Management.searchPackages link q)
  | .packageDetails name => answerData (onRouter (Management.packageDetails link name))
  | .storage => answerData (onRouter (Management.storage link))
  | .servicesIndex => answerData (onRouter (services link))
  | .firewallConfig => answerData (onRouter (firewallGather link))
  | .dnsConfig => answerData (onRouter (collectDns link))
  | .runServiceAction _ _ => answerJob (Management.runServiceAction around)
  | .logs lines => answerData (onRouter (readLogs link lines))
  | .processes => answerData (onRouter (Management.processes link))
  | .killProcess pid => answerData (onRouter (Management.killProcess link pid))
  | .systemInfo => answerData (onRouter (Management.systemInfo link))
  | .createJob payload => answerJob (Management.createJob around link payload)
  | .getJob id => answerJob (showJob id)
  | .confirmJob id => answerJob (Management.confirmJob link id)
  | .downloadArtifact id => Management.downloadArtifact id

end OpenWrtCopilot.Ports.Management
