import OpenWrtCopilot.Verified.Retry
import OpenWrtCopilot.Ports.ManagementCommand

/-!
# The SSH client under the management sessions

Ports `SSHConnection` and `SSHClient`: one connection over a backend, and the
client that repeats what failed transiently.  The backend is a parameter, the
`SSHBackend` protocol; what it does to the router is recorded in a list of
executions, each with whether its answer came back.

`sshLink` is the link a management session has over such a client.

## Main results

* `SshClient.run_executions` — what one client call executes.
* `run_executions_of_one_submission` — what one management command executes.
-/

namespace OpenWrtCopilot.Ports.SshClient

open Verified
open Verified.PyText
open Verified.Retry

/-- The SSH error hierarchy, with the command errors backends raise. -/
inductive SshError
  | connection (message : Text)
  | timeout (message : Text)
  | authentication (message : Text)
  | hostKey (message : Text)
  | command (message : Text)
  deriving DecidableEq

/-- `str(exc)`. -/
def SshError.str : SshError → Text
  | .connection message => message
  | .timeout message => message
  | .authentication message => message
  | .hostKey message => message
  | .command message => message

/-- `_TRANSIENT`: failures worth a retry. -/
def SshError.transient : SshError → Bool
  | .connection _ | .timeout _ => true
  | _ => false

/-- One execution of a command on the router. -/
structure Execution where
  command : Text
  /-- Whether the client received its answer. -/
  answered : Bool
  deriving DecidableEq

/-- `SSHBackend`: one SSH session to a router in state `σ`.

A `run` executes its command at most once: once when it returns or reports the
command's failure, and perhaps when the connection is lost or the time runs out
before the answer. -/
structure SSHBackend (σ : Type) where
  connect : σ → Except SshError Unit × σ
  /-- `run(command, timeout)`, the timeout in seconds. -/
  run : Text → Nat → σ → Except SshError Text × σ
  isAlive : σ → Bool × σ
  close : σ → σ
  /-- The commands the router has executed. -/
  executions : σ → List Execution
  connect_executions : ∀ s, executions (connect s).2 = executions s
  isAlive_executions : ∀ s, executions (isAlive s).2 = executions s
  close_executions : ∀ s, executions (close s) = executions s
  run_executions : ∀ command timeout s,
    match (run command timeout s).1 with
    | .ok _ =>
        executions (run command timeout s).2 = executions s ++ [⟨command, true⟩]
    | .error e =>
        executions (run command timeout s).2 = executions s ∨
          executions (run command timeout s).2 = executions s ++ [⟨command, !e.transient⟩]

/-- The fields of `SSHConfig` the client reads. -/
structure SSHConfig where
  /-- Per-command timeout in seconds. -/
  commandTimeout : Nat := 20
  /-- Number of automatic retries on transient connect/command failures. -/
  retryCount : Nat := 2

/-- An `SSHConnection` over a backend session. -/
structure Connection (σ : Type) where
  session : σ
  connected : Bool := false

/-- An operation on a connection. -/
abbrev ConnectionOp (σ : Type) := Fallible SshError (Connection σ)

variable {σ : Type}

/-! ## `SSHConnection` -/

namespace SSHConnection

/-- `SSHConnection.is_alive`. -/
def isAlive (backend : SSHBackend σ) : ConnectionOp σ Bool := fun c =>
  if c.connected then
    (.ok (backend.isAlive c.session).1, { c with session := (backend.isAlive c.session).2 })
  else (.ok false, c)

/-- `await self._backend.connect(); self._connected = True`. -/
def backendConnect (backend : SSHBackend σ) : ConnectionOp σ Unit := fun c =>
  match backend.connect c.session with
  | (.ok (), session) => (.ok (), { session := session, connected := true })
  | (.error e, session) => (.error e, { c with session := session })

/-- `SSHConnection.connect`. -/
def connect (backend : SSHBackend σ) : ConnectionOp σ Unit := do
  let alive ← isAlive backend
  if alive then
    return
  backendConnect backend

/-- `SSHConnection.run`. -/
def run (backend : SSHBackend σ) (config : SSHConfig) (command : Text) (timeout : Option Nat) :
    ConnectionOp σ Text := fun c =>
  let answer := backend.run command (timeout.getD config.commandTimeout) c.session
  (answer.1, { c with session := answer.2 })

/-- `SSHConnection.close`. -/
def close (backend : SSHBackend σ) : ConnectionOp σ Unit := fun c =>
  if c.connected then (.ok (), { session := backend.close c.session, connected := false })
  else (.ok (), c)

end SSHConnection

/-! ## `SSHClient` -/

namespace SSHClient

/-- `SSHClient.connect`. -/
def connect (backend : SSHBackend σ) (config : SSHConfig) : ConnectionOp σ Unit :=
  retry SshError.transient (pure ()) (SSHConnection.connect backend) config.retryCount

/-- One round of the loop of `SSHClient.run`. -/
def runOnce (backend : SSHBackend σ) (config : SSHConfig) (command : Text)
    (timeout : Option Nat) : ConnectionOp σ Text := do
  let alive ← SSHConnection.isAlive backend
  if !alive then
    SSHConnection.connect backend
  SSHConnection.run backend config command timeout

/-- `SSHClient.run`. -/
def run (backend : SSHBackend σ) (config : SSHConfig) (command : Text) (timeout : Option Nat) :
    ConnectionOp σ Text :=
  retry SshError.transient (SSHConnection.close backend) (runOnce backend config command timeout)
    config.retryCount

end SSHClient

/-! ## What the client executes -/

/-- The executions on the router behind a connection. -/
def executed (backend : SSHBackend σ) (c : Connection σ) : List Execution :=
  backend.executions c.session

theorem isAlive_silent (backend : SSHBackend σ) :
    Silent (executed backend) (SSHConnection.isAlive backend) := by
  intro c
  unfold SSHConnection.isAlive
  by_cases hconnected : c.connected = true
  · rw [if_pos hconnected]
    exact backend.isAlive_executions c.session
  · rw [if_neg hconnected]

theorem backendConnect_silent (backend : SSHBackend σ) :
    Silent (executed backend) (SSHConnection.backendConnect backend) := by
  intro c
  have hconnect := backend.connect_executions c.session
  unfold SSHConnection.backendConnect
  cases hrun : backend.connect c.session with
  | mk answer session =>
    rw [hrun] at hconnect
    cases answer with
    | ok u => exact hconnect
    | error e => exact hconnect

theorem connect_silent (backend : SSHBackend σ) :
    Silent (executed backend) (SSHConnection.connect backend) := by
  refine Silent.bind (isAlive_silent backend) ?_
  intro alive
  cases alive with
  | true => exact fun _ => rfl
  | false => exact backendConnect_silent backend

theorem close_silent (backend : SSHBackend σ) :
    Silent (executed backend) (SSHConnection.close backend) := by
  intro c
  unfold SSHConnection.close
  by_cases hconnected : c.connected = true
  · rw [if_pos hconnected]
    exact backend.close_executions c.session
  · rw [if_neg hconnected]

/-- Sending a command is an attempt: it executes the command at most once, and
a transient failure means that the answer was lost. -/
theorem run_attempts (backend : SSHBackend σ) (config : SSHConfig) (command : Text)
    (timeout : Option Nat) :
    Attempts SshError.transient (executed backend) (fun e => e.command = command)
      (fun e => e.answered = false) (SSHConnection.run backend config command timeout) := by
  intro c
  have hrun := backend.run_executions command (timeout.getD config.commandTimeout) c.session
  unfold SSHConnection.run executed
  cases hanswer : (backend.run command (timeout.getD config.commandTimeout) c.session).1 with
  | ok output =>
    rw [hanswer] at hrun
    refine ⟨[⟨command, true⟩], hrun, Nat.le_refl 1, ?_, ?_⟩
    · intro e he
      rw [List.mem_singleton.mp he]
    · intro e he
      cases he
  | error e =>
    rw [hanswer] at hrun
    rcases hrun with hnone | hone
    · refine ⟨[], hnone.trans (List.append_nil _).symm, Nat.zero_le 1, ?_, ?_⟩
      · intro e' he'
        cases he'
      · intro e' _ _ i hi
        cases hi
    · refine ⟨[⟨command, !e.transient⟩], hone, Nat.le_refl 1, ?_, ?_⟩
      · intro e' he'
        rw [List.mem_singleton.mp he']
      · intro e' he' htransient i hi
        have hsame : e = e' := Except.error.inj he'
        rw [List.mem_singleton.mp hi, hsame, htransient]
        rfl

theorem runOnce_attempts (backend : SSHBackend σ) (config : SSHConfig) (command : Text)
    (timeout : Option Nat) :
    Attempts SshError.transient (executed backend) (fun e => e.command = command)
      (fun e => e.answered = false) (SSHClient.runOnce backend config command timeout) := by
  refine Attempts.of_silent_bind (isAlive_silent backend) ?_
  intro alive
  cases alive with
  | true => exact run_attempts backend config command timeout
  | false =>
    exact Attempts.of_silent_bind (connect_silent backend)
      fun _ => run_attempts backend config command timeout

/-- One client call executes its command at most `retry_count + 1` times, and
again only after the answers of all earlier executions were lost. -/
theorem SSHClient.run_executions (backend : SSHBackend σ) (config : SSHConfig) (command : Text)
    (timeout : Option Nat) (c : Connection σ) :
    ∃ new, executed backend (SSHClient.run backend config command timeout c).2 =
        executed backend c ++ new ∧
      new.length ≤ config.retryCount + 1 ∧ (∀ e ∈ new, e.command = command) ∧
      ∀ e ∈ new.dropLast, e.answered = false :=
  retry_log (close_silent backend) (runOnce_attempts backend config command timeout)
    config.retryCount c

/-! ## Management sessions -/

open Ports.Management (RouterLink wrapCommand)

/-- The configuration of the sessions `RouterManagementService.open` makes. -/
def managementConfig : SSHConfig := { commandTimeout := 60 }

/-- The link of the management service over an SSH backend. -/
def sshLink (backend : SSHBackend σ) (configured : σ → Bool) (clock : σ → Nat) :
    RouterLink (Connection σ) where
  configured c := configured c.session
  connect c :=
    let answer := SSHClient.connect backend managementConfig { session := c.session }
    (answer.1.mapError SshError.str, answer.2)
  exec command timeout c :=
    let answer := SSHClient.run backend managementConfig command timeout c
    (answer.1.mapError SshError.str, answer.2)
  close c := (SSHConnection.close backend c).2
  monotonic c := clock c.session

/-- Every command submitted once is executed at most once. -/
def ExecutesAtMostOnce (backend : SSHBackend σ) : Prop :=
  ∀ configured clock command timeout c,
    (executed backend (Management.run (sshLink backend configured clock) command timeout c).2).length
      ≤ (executed backend c).length + 1

/--
**A submitted command is repeated only after its answer was lost.**

Over every backend, a command submitted once through the management service is
executed at most three times, and all executions but the last are ones whose
answer the client never received.
-/
theorem run_executions_of_one_submission (backend : SSHBackend σ) (configured : σ → Bool)
    (clock : σ → Nat) (command : Text) (timeout : Option Nat) (c : Connection σ) :
    ∃ new, executed backend
        (Management.run (sshLink backend configured clock) command timeout c).2 =
        executed backend c ++ new ∧
      new.length ≤ 3 ∧ (∀ e ∈ new, e.command = wrapCommand command) ∧
      ∀ e ∈ new.dropLast, e.answered = false := by
  rw [Management.run_snd]
  exact SSHClient.run_executions backend managementConfig (wrapCommand command) timeout c

/-- A router that executes every command, and whose first answer is lost. -/
def losesFirstAnswer : SSHBackend (List Execution) where
  connect s := (.ok (), s)
  run command _ s :=
    if s = [] then (.error (.timeout "command timed out"), [⟨command, false⟩])
    else (.ok [], s ++ [⟨command, true⟩])
  isAlive s := (true, s)
  close s := s
  executions s := s
  connect_executions _ := rfl
  isAlive_executions _ := rfl
  close_executions _ := rfl
  run_executions command _ s := by
    by_cases hempty : s = []
    · simp only [hempty, if_true]
      exact Or.inr rfl
    · simp only [hempty, if_false]

/-- A lease whose first addition is not answered is added twice. -/
theorem lost_answer_executed_twice : ¬ExecutesAtMostOnce losesFirstAnswer := by
  intro honce
  have htwice := honce (fun _ => true) (fun _ => 0) "uci add dhcp host" (some 90)
    { session := [], connected := true }
  exact absurd htwice (by decide)

end OpenWrtCopilot.Ports.SshClient
