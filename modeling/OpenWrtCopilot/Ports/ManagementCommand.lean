import OpenWrtCopilot.Verified.Fallible
import OpenWrtCopilot.Verified.ShellList

/-!
# The command runner of the management service

Ports `RouterManagementService.open` and `RouterManagementService.run`, the
wrapper every management operation sends its commands through, and
`detect_package_manager`, its first client.

The router is a parameter: `RouterLink σ` says what opening, using and closing
an SSH session does from a state `σ`, so a theorem about every link covers
every behaviour of the device and of the network.  `shellLink` is the link over
a working shell: it returns the merged output of the wrapped command.

## Main results

* `run_shellLink` — what `run` returns over a working shell: the exit code it
  reports is that of the wrapper's own `echo`.
* `run_reports_shell_iff` — when it reports the command's status and output.
-/

namespace OpenWrtCopilot.Ports.Management

open Verified
open Verified.PyText
open Verified.ShellList

/-! ## Exceptions, links and results -/

/-- The exceptions a management operation can leave by. -/
inductive ServiceError
  /-- `RouterManagementError`. -/
  | management (message : Text)
  /-- Any exception of the SSH transport. -/
  | transport (message : Text)
  /-- A built-in exception, by its class name. -/
  | builtin (kind : String) (message : Text)
  deriving DecidableEq

/-- `str(exc)`. -/
def ServiceError.str : ServiceError → Text
  | .management message => message
  | .transport message => message
  | .builtin _ message => message

/-- The router as the service reaches it. -/
structure RouterLink (σ : Type) where
  /-- Whether `connection()` finds a router to connect to. -/
  configured : σ → Bool
  /-- The `SSHTransport` constructor, which connects. -/
  connect : σ → Except Text Unit × σ
  /-- `SSHTransport.run(command, timeout=…)`. -/
  exec : Text → Option Nat → σ → Except Text Text × σ
  /-- `SSHTransport.close()`. -/
  close : σ → σ
  /-- `time.monotonic()`, in milliseconds. -/
  monotonic : σ → Nat

/-- A management operation over router states `σ`. -/
abbrev Op (σ : Type) := Fallible ServiceError σ

/-- `CommandResult`, less the duration, which no operation reads. -/
structure CommandResult where
  command : Text
  ok : Bool
  stdout : Text
  exitCode : Int
  error : Option Text
  deriving DecidableEq

/-- `CommandResult.to_dict()`. -/
def CommandResult.toDict (r : CommandResult) : CommandResult :=
  { r with stdout := r.stdout.take 4000 }

variable {σ : Type}

/-! ## The wrapper -/

def exitSentinel : Text := "__AI_EXIT__="

/-- The text `run` hands to the transport. -/
def wrapCommand (command : Text) : Text :=
  "( " ++ command ++ " ) 2>&1; echo; echo " ++ exitSentinel ++ "$?"

/-- The shell list `wrapCommand` spells. -/
def wrapper (command : Text) : ShList :=
  .seq (.group (.simple (.script command)))
    (.seq (.simple (.echo [])) (.simple (.echo [[.lit exitSentinel, .lastStatus]])))

/-! ## `run` -/

/-- The result of a command that was answered with `output`. -/
def readAnswer (command output : Text) : CommandResult :=
  let lines := splitlines output
  match lines.getLast? with
  | some last =>
      if startsWith exitSentinel last then
        -- A sentinel that `int` rejects counts as exit code 1.
        let exitCode := (((splitFirst '=' last).2).bind pyInt).getD 1
        { command := command
          ok := exitCode == 0
          stdout := join "\n" lines.dropLast
          exitCode := exitCode
          error := none }
      else
        { command := command, ok := true, stdout := output, exitCode := 0, error := none }
  | none => { command := command, ok := true, stdout := output, exitCode := 0, error := none }

/-- `RouterManagementService.run`: transport exceptions become failed results. -/
def run (link : RouterLink σ) (command : Text) (timeout : Option Nat) : Op σ CommandResult :=
  fun s =>
    match link.exec (wrapCommand command) timeout s with
    | (.ok output, s') => (.ok (readAnswer command output), s')
    | (.error message, s') =>
        (.ok
          { command := command
            ok := false
            stdout := []
            exitCode := 1
            error := some message }, s')

/-- `run` never raises. -/
theorem run_returns (link : RouterLink σ) (command : Text) (timeout : Option Nat) (s : σ) :
    ∃ result s', run link command timeout s = (.ok result, s') := by
  unfold run
  cases link.exec (wrapCommand command) timeout s with
  | mk answer s' =>
    cases answer with
    | ok output => exact ⟨_, _, rfl⟩
    | error message => exact ⟨_, _, rfl⟩

/-- `run` leaves the state the transport leaves. -/
theorem run_snd (link : RouterLink σ) (command : Text) (timeout : Option Nat) (s : σ) :
    (run link command timeout s).2 = (link.exec (wrapCommand command) timeout s).2 := by
  unfold run
  cases link.exec (wrapCommand command) timeout s with
  | mk answer s' => cases answer <;> rfl

/-- `RouterManagementService.open`. -/
def openSession (link : RouterLink σ) : Op σ Unit := fun s =>
  if link.configured s then
    match link.connect s with
    | (.ok (), s') => (.ok (), s')
    | (.error message, s') => (.error (.transport message), s')
  else
    (.error (.management
      "No router is connected. Save a router from the onboarding wizard first."), s)

/-- `transport = self.open()`, then `try: … finally: transport.close()`. -/
def withTransport {α : Type} (link : RouterLink σ) (body : Op σ α) : Op σ α := do
  openSession link
  Fallible.ensuring body link.close

/-- The package managers `detect_package_manager` distinguishes. -/
inductive PackageManager
  | apk
  | opkg
  | unknown
  deriving DecidableEq

/-- `RouterManagementService.detect_package_manager`. -/
def detectPackageManager (link : RouterLink σ) : Op σ PackageManager := do
  let apk ← run link "command -v apk" none
  if apk.ok then
    return .apk
  let opkg ← run link "command -v opkg" none
  if opkg.ok then
    return .opkg
  return .unknown

/-! ## Over a working shell -/

/-- The command text inside a wrapped text. -/
def unwrapCommand (wrapped : Text) : Text :=
  (wrapped.drop 2).take (wrapped.length - (wrapCommand []).length)

@[simp] theorem unwrapCommand_wrapCommand (command : Text) :
    unwrapCommand (wrapCommand command) = command := by
  have hlen : (wrapCommand command).length - (wrapCommand []).length = command.length := by
    simp only [wrapCommand, List.length_append, List.length_nil]
    omega
  rw [unwrapCommand, hlen]
  simp [wrapCommand]

/-- The transport that returns the merged output of the shell it runs the
wrapped command in. -/
def shellLink (sh : RemoteShell σ) : RouterLink σ where
  configured _ := true
  connect s := (.ok (), s)
  exec wrapped _ s :=
    let o := (wrapper (unwrapCommand wrapped)).run sh 0 s
    (.ok o.output, o.state)
  close s := s
  monotonic _ := 0

/-- The merged output: the command's own output, the line the bare `echo`
ends, and the sentinel with the status `$?` shows, which is that of this
`echo`. -/
theorem wrapper_output (sh : RemoteShell σ) (command : Text) (s : σ) :
    ((wrapper command).run sh 0 s).output =
      (sh command s).output ++ '\n' :: (exitSentinel ++ "0\n") := by
  simp [wrapper, join, Piece.expand, natText]

theorem wrapper_state (sh : RemoteShell σ) (command : Text) (s : σ) :
    ((wrapper command).run sh 0 s).state = (sh command s).state := rfl

/-- The answer of a working shell is read as exit code zero. -/
theorem readAnswer_wrapper_output (command output : Text) :
    readAnswer command (output ++ '\n' :: (exitSentinel ++ "0\n")) =
      { command := command
        ok := true
        stdout := join "\n" (splitlines (output ++ ['\n']))
        exitCode := 0
        error := none } := by
  have hlines : splitlines (output ++ '\n' :: (exitSentinel ++ "0\n")) =
      splitlines (output ++ ['\n']) ++ [exitSentinel ++ "0"] := by
    rw [splitlines_append_newline]
    congr 1
  have hstarts : startsWith exitSentinel (exitSentinel ++ "0") = true := by decide
  have hcode : (((splitFirst '=' (exitSentinel ++ "0")).2).bind pyInt).getD 1 = 0 := by decide
  simp only [readAnswer, hlines, List.getLast?_concat, hstarts, if_true, hcode,
    List.dropLast_concat, beq_self_eq_true]

/-- What `run` returns over a working shell. -/
theorem run_shellLink (sh : RemoteShell σ) (command : Text) (timeout : Option Nat) (s : σ) :
    run (shellLink sh) command timeout s =
      (.ok { command := command
             ok := true
             stdout := join "\n" (splitlines ((sh command s).output ++ ['\n']))
             exitCode := 0
             error := none }, (sh command s).state) := by
  have hexec : (shellLink sh).exec (wrapCommand command) timeout s =
      (.ok ((sh command s).output ++ '\n' :: (exitSentinel ++ "0\n")), (sh command s).state) := by
    simp only [shellLink, unwrapCommand_wrapCommand, wrapper_output, wrapper_state]
  simp only [run, hexec, readAnswer_wrapper_output]

/-! ## When the status comes through -/

/-- `run` reports the status and the output the command really had. -/
def ReportsShell (sh : RemoteShell σ) (command : Text) (timeout : Option Nat) (s : σ) : Prop :=
  ∃ result, (run (shellLink sh) command timeout s).1 = .ok result ∧
    result.exitCode = (sh command s).status ∧
    (result.ok = true ↔ (sh command s).status = 0) ∧
    result.stdout = (sh command s).output

/-- The package manager the probes find on the router. -/
def managerFound (sh : RemoteShell σ) (s : σ) : PackageManager :=
  let apk := sh "command -v apk" s
  if apk.status = 0 then .apk
  else if (sh "command -v opkg" apk.state).status = 0 then .opkg
  else .unknown

theorem reportsShell_iff (sh : RemoteShell σ) (command : Text) (timeout : Option Nat) (s : σ) :
    ReportsShell sh command timeout s ↔
      (sh command s).status = 0 ∧ OnlyNewlines (sh command s).output := by
  simp only [ReportsShell, run_shellLink, Except.ok.injEq, exists_eq_left']
  rw [← join_splitlines_eq_iff]
  constructor
  · rintro ⟨_, hok, hout⟩
    exact ⟨hok.mp trivial, hout⟩
  · rintro ⟨hstatus, hout⟩
    exact ⟨by simp [hstatus], by simp [hstatus], hout⟩

/-- Over a working shell the first probe always looks successful. -/
theorem detectPackageManager_shellLink (sh : RemoteShell σ) (s : σ) :
    (detectPackageManager (shellLink sh) s).1 = .ok .apk := by
  rw [detectPackageManager, Fallible.bind_of_ok (run_shellLink sh _ none s)]
  rfl

theorem detectPackageManager_eq_managerFound_iff (sh : RemoteShell σ) (s : σ) :
    (detectPackageManager (shellLink sh) s).1 = .ok (managerFound sh s) ↔
      (sh "command -v apk" s).status = 0 := by
  rw [detectPackageManager_shellLink, managerFound]
  constructor
  · intro h
    by_contra hne
    rw [if_neg hne] at h
    split at h <;> simp at h
  · intro h
    rw [if_pos h]

/--
**The reported status is the wrapper's own.**

`run` reports the status and output of a command exactly when the command
succeeded and broke its lines with newlines only; and the package manager it
detects is the one on the router exactly when that is `apk`.
-/
theorem run_reports_shell_iff (sh : RemoteShell σ) (command : Text) (timeout : Option Nat)
    (s : σ) :
    (ReportsShell sh command timeout s ↔
      (sh command s).status = 0 ∧ OnlyNewlines (sh command s).output) ∧
    ((detectPackageManager (shellLink sh) s).1 = .ok (managerFound sh s) ↔
      (sh "command -v apk" s).status = 0) :=
  ⟨reportsShell_iff sh command timeout s, detectPackageManager_eq_managerFound_iff sh s⟩

/-- A shell on which every command fails without printing anything. -/
def failingShell : RemoteShell Unit := fun _ _ => { state := (), output := [], status := 1 }

/-- A failed probe is reported as a success, and a router without any package
manager as one that has `apk`. -/
theorem failed_probe_reported_ok :
    ¬ReportsShell failingShell "command -v apk" none () ∧
      managerFound failingShell () = .unknown ∧
      (detectPackageManager (shellLink failingShell) ()).1 = .ok .apk := by
  refine ⟨?_, by decide, detectPackageManager_shellLink failingShell ()⟩
  rw [reportsShell_iff]
  rintro ⟨hstatus, _⟩
  exact absurd hstatus (by decide)

end OpenWrtCopilot.Ports.Management
