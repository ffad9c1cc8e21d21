import OpenWrtCopilot.Ports.ManagementGate

/-!
# Requests without a gate

Each listed request sends a state-changing command on a router that answers
every command with an `apk` warning: the kill signals the process, the search
refreshes the package index, and the two denied jobs erase the configuration and
remove the package.

## Main results

* `not_gated_of_ungated` — the listed requests are not gated.
* `gated_iff` — exactly those.
* `unconfirmed_kill_and_factory_reset_not_gated` — two of them.
-/

namespace OpenWrtCopilot.Ports.Management

open Verified
open Verified.PyText

/-! ## A router that answers with a warning -/

def staleIndex : Text := "WARNING: stale index"

/-- Every command is answered with the same warning. -/
def warningLink : RouterLink Unit where
  configured _ := true
  connect s := (.ok (), s)
  exec _ _ s := (.ok staleIndex, s)
  close s := s
  monotonic _ := 0

/-- How `run` reports the warning. -/
def warned (command : Text) : CommandResult :=
  { command := command, ok := true, stdout := staleIndex, exitCode := 0, error := none }

theorem readAnswer_staleIndex (command : Text) :
    readAnswer command staleIndex = warned command := by
  have hlast : (splitlines staleIndex).getLast? = some staleIndex := by rfl
  have hsentinel : startsWith exitSentinel staleIndex = false := by rfl
  simp only [readAnswer, hlast, hsentinel, Bool.false_eq_true, if_false]
  rfl

theorem run_warningLink (command : Text) (timeout : Option Nat) (log : List Text) :
    run (commandLog warningLink) command timeout ((), log) =
      (.ok (warned command), ((), log ++ [command])) := by
  have hexec : (commandLog warningLink).exec (wrapCommand command) timeout ((), log) =
      (.ok staleIndex, ((), log ++ [command])) := by
    show (Except.ok staleIndex, ((), log ++ [unwrapCommand (wrapCommand command)])) = _
    rw [unwrapCommand_wrapCommand]
  rw [run, hexec, ← readAnswer_staleIndex]

/-- A session on this router opens, and closing it changes nothing. -/
theorem withTransport_warningLink {α : Type} {body : Op (Unit × List Text) α} {log log' : List Text}
    {result : Except ServiceError α} (h : body ((), log) = (result, ((), log'))) :
    withTransport (commandLog warningLink) body ((), log) = (result, ((), log')) := by
  have hopen : openSession (commandLog warningLink) ((), log) = (.ok (), ((), log)) := rfl
  rw [withTransport, Fallible.bind_of_ok hopen, Fallible.ensuring_apply, h]
  rfl

theorem pkgRun_warningLink (command : Text) (timeout : Nat) (log : List Text) :
    pkgRun (commandLog warningLink) command timeout ((), log) =
      (.ok (warned command), ((), log ++ [command])) :=
  withTransport_warningLink (run_warningLink command (some timeout) log)

theorem pkgManager_warningLink (log : List Text) :
    pkgManager (commandLog warningLink) ((), log) =
      (.ok .apk, ((), log ++ ["command -v apk".toList])) := by
  refine withTransport_warningLink ?_
  rw [detectPackageManager, Fallible.bind_of_ok (run_warningLink _ none log)]
  rfl

/-- The router of the warnings before a request. -/
def untouched : Managed (Unit × List Text) :=
  { service := { router := ((), []) }, jobs := fun _ => none }

/-- What a request sends to this router. -/
def sentTo (around : Surroundings) (request : ApiRequest) : List Text :=
  (handle around (commandLog warningLink) request untouched).2.router.2

/-- A request that sends a command it may not send is not gated. -/
theorem not_gated_of_sent {request : ApiRequest} (around : Surroundings) {command : Text}
    (hsent : command ∈ sentTo around request)
    (hnot : ¬MaySend untouched.jobs request command) : ¬Gated request := by
  intro hgated
  obtain ⟨new, hnew, hmay⟩ := hgated Unit warningLink around untouched
  have hlog : sentTo around request = new := hnew
  rw [hlog] at hsent
  exact hnot (hmay command hsent)

/-! ## The listed requests -/

/-- The surroundings of the examples. -/
def plainSurroundings : Surroundings :=
  { freshId := "job", timestamp := "20260101-000000", gzip := fun _ => [] }

theorem callService_snd {σ α : Type} (status : Nat) (m : ManagedOp σ α) (s : Managed σ) :
    (callService status m s).2 = (m s).2 := by
  unfold callService
  cases m s with
  | mk result s' =>
    cases result with
    | ok a => rfl
    | error e => cases e <;> rfl

theorem answerData_snd {σ α : Type} (m : ServiceOp σ α) (s : Managed σ) :
    (answerData m s).2.service = (m s.service).2 := by
  have hcall := callService_snd 503 (onService m) s
  rw [answerData]
  cases hrun : callService 503 (onService m) s with
  | mk result s' =>
    rw [hrun] at hcall
    cases result with
    | ok a =>
      rw [Fallible.bind_of_ok hrun]
      show s'.service = _
      rw [show s' = _ from hcall, onService_apply]
    | error e =>
      rw [Fallible.bind_of_error hrun]
      show s'.service = _
      rw [show s' = _ from hcall, onService_apply]

theorem not_gated_kill {pid : Int} (h : 0 < pid ∧ pid ≤ 4194304) : ¬Gated (.killProcess pid) := by
  have hrange : ¬(pid ≤ 0 ∨ 4194304 < pid) := by omega
  have hkill : (killProcess (commandLog warningLink) pid ((), [])).2.2 = [killCommand pid] := by
    rw [killProcess, if_neg hrange, withTransport_warningLink]
    rw [Fallible.bind_of_ok (run_warningLink _ _ _)]
    rfl
  have hsent : sentTo plainSurroundings (.killProcess pid) = [killCommand pid] := by
    show (answerData (onRouter (killProcess (commandLog warningLink) pid)) untouched).2.router.2 = _
    rw [Managed.router, answerData_snd, onRouter_apply]
    exact hkill
  refine not_gated_of_sent plainSurroundings (hsent ▸ List.mem_singleton_self _) ?_
  rintro (hread | ⟨hconfirmed, _⟩)
  · refine not_readOnly (q := ['k']) (by decide) ?_ hread
    delta killCommand
    simp only [List.append_assoc]
    exact begins_append rfl _
  · exact hconfirmed

/-- The search sees only a warning, refreshes the index and searches again. -/
theorem searchApk_warningLink (needle : Text) (log : List Text) :
    "apk update".toList ∈ (searchApk (commandLog warningLink) needle ((), log)).2.2 := by
  have hparse : parseApkSearch staleIndex = ([], [staleIndex]) := by rfl
  have hsearch : ∀ log, apkSearch (commandLog warningLink) needle ((), log) =
      (.ok ([], [staleIndex]), ((), log ++ ["apk search -v -q " ++ shQuote needle])) := by
    intro log
    have hread : readOutput (commandLog warningLink) ("apk search -v -q " ++ shQuote needle) 60
        ((), log) = (.ok staleIndex, ((), log ++ ["apk search -v -q " ++ shQuote needle])) := by
      rw [readOutput, Fallible.bind_of_ok (pkgRun_warningLink _ _ _)]
      rfl
    rw [apkSearch, Fallible.bind_of_ok hread, Fallible.pure_apply, hparse]
  rw [searchApk, Fallible.bind_of_ok (hsearch log)]
  have hwarned : True ∧ [staleIndex] ≠ [] := ⟨trivial, nofun⟩
  simp only
  rw [if_pos hwarned, Fallible.bind_of_ok (pkgRun_warningLink _ _ _)]
  have hok : (warned "apk update").ok = true := rfl
  rw [if_pos hok, Fallible.bind_of_ok (hsearch _)]
  show "apk update".toList ∈ _ ++ ["apk update".toList] ++ _
  exact List.mem_append_left _ (List.mem_append_right _ (List.mem_singleton_self _))

theorem not_gated_search {q : Text} (h : strip q ≠ []) : ¬Gated (.searchPackages q) := by
  have hmanager : onRouter (pkgManager (commandLog warningLink)) untouched.service =
      (.ok .apk, { untouched.service with router := ((), ["command -v apk".toList]) }) := by
    rw [onRouter_apply]
    show ((pkgManager (commandLog warningLink) ((), [])).1, _) = _
    rw [pkgManager_warningLink]
    rfl
  have hsent : "apk update".toList ∈ sentTo plainSurroundings (.searchPackages q) := by
    show _ ∈ (answerData (searchPackages (commandLog warningLink) q) untouched).2.router.2
    rw [Managed.router, answerData_snd, searchPackages]
    simp only [h, if_false]
    rw [Fallible.bind_of_ok hmanager]
    exact searchApk_warningLink (strip q) ["command -v apk".toList]
  refine not_gated_of_sent plainSurroundings hsent ?_
  rintro (hread | ⟨hconfirmed, _⟩)
  · exact not_readOnly (q := ['a', 'p', 'k', ' ', 'u']) (by decide) (begins_literal rfl) hread
  · exact hconfirmed

/-- What a started job leaves of the service. -/
theorem startJob_service {σ α : Type} (around : Surroundings) (kind : JobKind) (start : Text)
    (operation : ServiceOp σ α) (judge : α → JobStatus) (message : α → Text)
    (record : α → JobResult) (failure : Text → Option Text) (s : Managed σ) :
    (startJob around kind
      (trackOperation around.freshId start operation judge message record failure)
      s).2.service = (operation s.service).2 := by
  show (trackOperation around.freshId start operation judge message record failure
    { s with jobs := s.jobs.create around.freshId kind "Queued" }).2.service = _
  exact trackOperation_service _ start operation judge message record failure
    (ManagementJobStore.put_self _ _ _)

theorem answerJob_snd {σ : Type} (m : ApiOp σ ManagementJob) (s : Managed σ) :
    (answerJob m s).2 = (m s).2 := by
  rw [answerJob]
  cases hrun : m s with
  | mk result s' =>
    cases result with
    | ok job => rw [Fallible.bind_of_ok hrun]; rfl
    | error e => rw [Fallible.bind_of_error hrun]

theorem require_of_given {σ α : Type} {field : Option Text} {text detail : Text}
    (h : given field = some text) (f : Text → ApiOp σ α) : require field detail >>= f = f text := by
  rw [require, h]
  rfl

theorem requireConfirmed_of_confirmed {σ α : Type} {payload : ManagementJobRequest}
    (h : payload.confirmed = true) (purpose : Text) (f : Unit → ApiOp σ α) :
    requireConfirmed payload purpose >>= f = f () := by
  rw [requireConfirmed, if_pos h]
  rfl

/-- The command of the factory reset. -/
def factoryResetCommand : Text :=
  ActionEntry.full (asyncAction "factory-reset"
    ("for f in /etc/config/*; do [ -f \"$f\" ] && rm -f \"$f\"; done; " ++ "sync; reboot")
    "Factory Reset")

theorem action_factoryReset :
    ∃ describe, action "factory-reset" = .ok (.send factoryResetCommand 45 describe) := by
  have hfind : actionCommands.find? (fun entry => entry.name = "factory-reset".toList) =
      some (asyncAction "factory-reset"
        ("for f in /etc/config/*; do [ -f \"$f\" ] && rm -f \"$f\"; done; " ++ "sync; reboot")
        "Factory Reset") := by
    rfl
  rw [action, hfind]
  exact ⟨_, rfl⟩

theorem createJob_of_kind {σ : Type} (around : Surroundings) (link : RouterLink σ)
    {payload : ManagementJobRequest} (hlimits : payload.withinLimits = true) {kind : JobKind}
    (hkind : jobKinds.lookup payload.kind = some kind) :
    createJob around link payload = createJobOfKind around link payload kind := by
  rw [createJob, if_pos hlimits, hkind]

theorem not_gated_factoryReset {payload : ManagementJobRequest}
    (hlimits : payload.withinLimits = true) (hconfirmed : payload.confirmed = true)
    (hkind : payload.kind = "action".toList)
    (haction : payload.action = some "factory-reset".toList) : ¬Gated (.createJob payload) := by
  have hlookup : jobKinds.lookup payload.kind = some .action := by
    rw [hkind]
    rfl
  have hgiven : given payload.action = some "factory-reset".toList := by
    rw [haction]
    rfl
  obtain ⟨describe, hplan⟩ := action_factoryReset
  have hsent : factoryResetCommand ∈ sentTo plainSurroundings (.createJob payload) := by
    show _ ∈ (answerJob (createJob plainSurroundings (commandLog warningLink) payload)
      untouched).2.router.2
    rw [answerJob_snd, createJob_of_kind _ _ hlimits hlookup, createJobOfKind,
      require_of_given hgiven, requireConfirmed_of_confirmed hconfirmed, runActionJob,
      trackPlanned, trackResult, Managed.router, startJob_service, onRouter_apply, hplan, perform]
    show _ ∈ (withTransport (commandLog warningLink) _ ((), [])).2.2
    rw [withTransport_warningLink]
    · exact List.mem_singleton_self _
    · rw [Fallible.bind_of_ok (run_warningLink _ _ _)]
      rfl
  have hdanger : Dangerous (.createJob payload) := by
    refine ⟨"factory reset", ?_, by rfl⟩
    rw [guardName, if_pos hkind, haction]
    rfl
  refine not_gated_of_sent plainSurroundings hsent ?_
  rintro (hread | ⟨_, hsafe⟩)
  · refine not_readOnly (q := ['(']) (by decide) ?_ hread
    have hfull : factoryResetCommand = "( sleep 1; " ++
        ("for f in /etc/config/*; do [ -f \"$f\" ] && rm -f \"$f\"; done; " ++
          "sync; reboot" : String).toList ++ " ) >/dev/null 2>&1 &" := rfl
    rw [hfull, List.append_assoc]
    exact begins_append rfl _
  · exact hsafe hdanger

theorem not_gated_removal {payload : ManagementJobRequest}
    (hlimits : payload.withinLimits = true) (hconfirmed : payload.confirmed = true)
    (hkind : payload.kind = "packages".toList) (haction : payload.action = some "remove".toList)
    (hname : pkgNamePattern (payload.name.getD []) = true) : ¬Gated (.createJob payload) := by
  have hlookup : jobKinds.lookup payload.kind = some .packages := by
    rw [hkind]
    rfl
  have hgiven : given payload.action = some "remove".toList := by
    rw [haction]
    rfl
  have hinstall : "remove".toList ≠ "install".toList := by decide
  have hmutation : packageMutation "remove".toList = some packageRemove := by
    rw [packageMutation, if_neg hinstall, if_pos rfl]
  have hvalid : (!pkgNamePattern (payload.name.getD [])) = false := by rw [hname]; rfl
  let command : Text := "apk del ".toList ++ shQuote (payload.name.getD [])
  have hrun : runForManager (commandLog warningLink)
      (packageRemove.command (payload.name.getD [])) ((), []) =
        (.ok (warned command), ((), ["command -v apk".toList, command])) := by
    rw [runForManager, Fallible.bind_of_ok (pkgManager_warningLink [])]
    have hcommand : packageRemove.command (payload.name.getD []) .apk = some command := by
      show some ("apk del".toList ++ " ".toList ++ shQuote (payload.name.getD [])) = some command
      have hspace : "apk del".toList ++ " ".toList = "apk del ".toList := by rfl
      rw [hspace]
    simp only [hcommand]
    exact pkgRun_warningLink command 600 _
  have hsent : command ∈ sentTo plainSurroundings (.createJob payload) := by
    show _ ∈ (answerJob (createJob plainSurroundings (commandLog warningLink) payload)
      untouched).2.router.2
    rw [answerJob_snd, createJob_of_kind _ _ hlimits hlookup, createJobOfKind,
      require_of_given hgiven, requireConfirmed_of_confirmed hconfirmed, runPackagesJob,
      trackResult, Managed.router, startJob_service, packagesOperation]
    simp only [hmutation]
    rw [pkgMutate]
    simp only [hvalid, Bool.false_eq_true, if_false]
    have hmutate : onRouter (runForManager (commandLog warningLink)
        (packageRemove.command (payload.name.getD []))) untouched.service =
          (.ok (warned command),
            { untouched.service with router := ((), ["command -v apk".toList, command]) }) := by
      rw [onRouter_apply, show untouched.service.router = ((), []) from rfl, hrun]
    rw [Fallible.bind_of_ok hmutate]
    exact List.mem_cons_of_mem _ (List.mem_singleton_self _)
  have hdanger : Dangerous (.createJob payload) := by
    refine ⟨"package removal", ?_, by rfl⟩
    have hpackages : ¬payload.kind = "action".toList := by
      rw [hkind]
      decide
    rw [guardName, if_neg hpackages, if_pos ⟨hkind, haction⟩]
  refine not_gated_of_sent plainSurroundings hsent ?_
  rintro (hread | ⟨_, hsafe⟩)
  · exact not_readOnly (q := ['a', 'p', 'k', ' ', 'd']) (by decide) (begins_append rfl _) hread
  · exact hsafe hdanger

theorem not_gated_of_ungated {request : ApiRequest} (h : Ungated request) : ¬Gated request := by
  cases request with
  | searchPackages q => exact not_gated_search h
  | killProcess pid => exact not_gated_kill h
  | createJob payload =>
    obtain ⟨hlimits, hconfirmed, ⟨hkind, haction⟩ | ⟨hkind, haction, hname⟩⟩ := h
    · exact not_gated_factoryReset hlimits hconfirmed hkind haction
    · exact not_gated_removal hlimits hconfirmed hkind haction hname
  | _ => exact absurd h id

/--
**Which requests are gated.**

A request sends state-changing commands only after a confirmation, and none that
the guard would deny, unless it is a process kill, a package search, a confirmed
factory reset or a confirmed package removal.
-/
theorem gated_iff (request : ApiRequest) : Gated request ↔ ¬Ungated request :=
  ⟨fun hgated hungated => not_gated_of_ungated hungated hgated, gated_of_not_ungated⟩

/-- A kill without a confirmation, and a confirmed factory reset. -/
theorem unconfirmed_kill_and_factory_reset_not_gated :
    ¬Gated (.killProcess 1) ∧
      ¬Gated (.createJob
        { kind := "action", action := some "factory-reset".toList, confirmed := true }) := by
  refine ⟨not_gated_kill (by decide), not_gated_factoryReset ?_ rfl rfl rfl⟩
  rfl

end OpenWrtCopilot.Ports.Management
