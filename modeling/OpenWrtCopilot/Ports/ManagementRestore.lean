import OpenWrtCopilot.Verified.Hexdump
import OpenWrtCopilot.Verified.PyBase64
import OpenWrtCopilot.Ports.ManagementJobStore

/-!
# Restoring a staged backup

Ports `stage_restore`, `execute_restore` and the two job methods around them.
The archive is sent as a sequence of `printf`
commands, each of which writes or appends one piece of it; then the size of the
remote file is compared, `gzip -t` is run on it, and `sysupgrade -r` is
dispatched.

## Main results

* `chunks_binaryToPrintfHex` — the upload pieces are whole bytes.
* `printfBytes_binaryToPrintfHex` — the router prints the bytes a piece stands
  for.
-/

namespace OpenWrtCopilot.Ports.Management

open Verified
open Verified.PyText
open Verified.Chunks
open Verified.Hexdump
open Verified.PyBase64

variable {σ : Type}

/-! ## The commands -/

/-- The file the archive is uploaded to. -/
def restoreRemote : Text := "/tmp/ai-restore-backup.tar.gz"

/-- `_UPLOAD_CHUNK`. -/
def uploadChunk : Nat := 3500

/-- `RouterManagementService._binary_to_printf_hex`. -/
def binaryToPrintfHex (data : List UInt8) : Text :=
  data.flatMap fun b => '\\' :: 'x' :: hexByte b

def clearCommand : Text := "rm -f " ++ restoreRemote

/-- The command that writes the first piece, or appends another. -/
def uploadCommand (first : Bool) (chunk : Text) : Text :=
  "printf '" ++ chunk ++ "' " ++ (if first then ">" else ">>" : String) ++ " " ++ restoreRemote

def sizeCommand : Text := "wc -c < " ++ restoreRemote

def gzipTestCommand : Text := "gzip -t " ++ restoreRemote

def restoreCommand : Text :=
  "( sleep 1; sysupgrade -r " ++ restoreRemote ++ " ) >/dev/null 2>&1 &"

/-! ## `execute_restore` -/

/-- Send a command and raise unless its result is ok. -/
def requireOk (link : RouterLink σ) (command : Text) (timeout : Option Nat)
    (failure : CommandResult → Text) : Op σ CommandResult := do
  let result ← run link command timeout
  if !result.ok then
    Fallible.raise (.management (failure result))
  return result

/-- The upload loop. -/
def upload (link : RouterLink σ) : Bool → List Text → Op σ Unit
  | _, [] => pure ()
  | first, chunk :: rest => do
      let _ ← requireOk link (uploadCommand first chunk) (some 120) fun step =>
        "Could not upload the backup to the router (exit " ++ intText step.exitCode ++ ")."
      upload link false rest

/-- `check.stdout.split()[0] != str(size)`. -/
def sizeDiffers (stdout : Text) (size : Nat) : Except ServiceError Bool :=
  match words stdout with
  | [] => .error (.builtin "IndexError" "list index out of range")
  | word :: _ => .ok (word ≠ natText size)

def sizeMismatch : Text := "The uploaded backup size does not match — restore aborted."

/-- `execute_restore` up to the dispatch: upload and checks. -/
def prepareRestore (link : RouterLink σ) (data : List UInt8) : Op σ Unit := do
  let _ ← requireOk link clearCommand none fun _ =>
    "Could not clear a previous upload on the router."
  upload link true (chunks uploadChunk (binaryToPrintfHex data))
  let check ← requireOk link sizeCommand none fun _ => sizeMismatch
  let differs ← Fallible.ofExcept (sizeDiffers check.stdout data.length)
  if differs then
    Fallible.raise (.management sizeMismatch)
  let _ ← requireOk link gzipTestCommand none fun _ =>
    "The uploaded backup is not a valid gzip archive — restore aborted."
  let _ ← requireOk link "command -v sysupgrade" none fun _ =>
    "sysupgrade is not available on this device; restore cannot run."

/-- The dispatch of `sysupgrade -r`. -/
def dispatchRestore (link : RouterLink σ) : Op σ OperationResult := do
  let dispatch ← run link restoreCommand (some 45)
  return {
    ok := dispatch.ok
    message :=
      "Restore initiated — the router will reboot with the uploaded configuration."
    detail := some dispatch.toDict }

/-- `RouterManagementService.execute_restore`; its result also names the file. -/
def executeRestore (link : RouterLink σ) (data : List UInt8) : Op σ OperationResult :=
  withTransport link do
    prepareRestore link data
    dispatchRestore link

/-! ## The restore jobs -/

/-- `Path(filename).name`. -/
def pathName (filename : Text) : Text :=
  ((filename.splitOn '/').filter fun part => part ≠ [] ∧ part ≠ ['.']).getLast?.getD []

/-- `RouterManagementService.stage_restore`. -/
def stageRestore (filename contentB64 : Text) : Except ServiceError (Text × List UInt8) :=
  match b64decode contentB64 with
  | .error _ => reject "The uploaded file is not valid base64."
  | .ok data =>
      if [0x1f, 0x8b].isPrefixOf data then
        .ok (if pathName filename = [] then "restore.tar.gz" else pathName filename, data)
      else
        reject
          "The uploaded file is not a gzip archive — sysupgrade backups are .tar.gz files."

/-- `stage_restore_job` up to the first change of the job. -/
def stageUploaded (id filename contentB64 : Text) : ManagedOp σ Unit := do
  let (safeName, data) ← Fallible.ofExcept (stageRestore filename contentB64)
  transition id .running (some "Staging backup for restore…") none
    (some (.staged safeName contentB64 data.length))

/-- The rest of `stage_restore_job`. -/
def awaitConfirmation (id : Text) : ManagedOp σ Unit :=
  markPending id "Backup uploaded and validated. Confirm to restore the router."

/-- `RouterManagementService.stage_restore_job`. -/
def stageRestoreJob (id filename contentB64 : Text) : ManagedOp σ (Option ManagementJob) := do
  stageUploaded id filename contentB64
  awaitConfirmation id
  getJob id

/-- `(job.result or {}).get("staged_filename") or "restore.tar.gz"`. -/
def stagedFilename : Option JobResult → Text
  | some (.staged filename _ _) => if filename = [] then "restore.tar.gz" else filename
  | _ => "restore.tar.gz"

/-- `(job.result or {}).get("staged_b64") or ""`. -/
def stagedB64 : Option JobResult → Text
  | some (.staged _ contentB64 _) => contentB64
  | _ => []

/-- `confirm_restore_job` reads the job and tests that it awaits confirmation. -/
def readStaged (id : Text) : ManagedOp σ (Text × Text) := do
  match ← getJob id with
  | none => Fallible.raise (.management ("unknown job: " ++ id))
  | some job =>
      if job.pendingConfirmation then
        return (stagedFilename job.result, stagedB64 job.result)
      else
        Fallible.raise (.management "This restore job is not awaiting confirmation.")

/-- `confirm_restore_job` moves the job to `running`. -/
def beginRestore (id : Text) : ManagedOp σ Unit :=
  transition id .running (some "Uploading backup and starting restore…") none none

/-- `confirm_restore_job` decodes the staged text, pushes it and dispatches. -/
def pushRestore (link : RouterLink σ) (contentB64 : Text) : Op σ OperationResult := do
  let data ← Fallible.ofExcept
    ((b64decode contentB64).mapError (ServiceError.builtin "ValueError"))
  executeRestore link data

/-- `confirm_restore_job` moves the job to its final status. -/
def finishRestore (id filename : Text) : Except ServiceError OperationResult → ManagedOp σ Unit
  | .ok result =>
      transition id .succeeded (some result.message) none (some (.restored filename result))
  | .error e => transition id .failed (some "Restore could not be executed.") (some e.str) none

/-- `RouterManagementService.confirm_restore_job`. -/
def confirmRestoreJob (link : RouterLink σ) (id : Text) : ManagedOp σ (Option ManagementJob) := do
  let (filename, contentB64) ← readStaged id
  beginRestore id
  Fallible.attempt
    (do
      let result ← onService (onRouter (pushRestore link contentB64))
      finishRestore id filename (.ok result))
    fun e => finishRestore id filename (.error e)
  getJob id

/-! ## What the router makes of an upload -/

/-- What `printf` prints for a format with the escapes the service sends. -/
def printfBytes : Text → List UInt8
  | '\\' :: 'x' :: a :: b :: rest =>
      match lowerHex a, lowerHex b with
      | some high, some low => UInt8.ofNat (16 * high + low) :: printfBytes rest
      | _, _ => printfBytes rest
  | c :: rest => UInt8.ofNat c.toNat :: printfBytes rest
  | [] => []

/-- The router prints the bytes a piece stands for. -/
theorem printfBytes_binaryToPrintfHex (data : List UInt8) :
    printfBytes (binaryToPrintfHex data) = data := by
  induction data with
  | nil => rfl
  | cons b data ih =>
    have hvalue : UInt8.ofNat (16 * (b.toNat / 16) + b.toNat % 16) = b := by
      rw [Nat.div_add_mod]
      exact UInt8.ofNat_toNat
    have hcons : binaryToPrintfHex (b :: data) =
        '\\' :: 'x' :: Nat.digitChar (b.toNat / 16) :: Nat.digitChar (b.toNat % 16) ::
          binaryToPrintfHex data := rfl
    rw [hcons]
    simp only [printfBytes, lowerHex_hexByte_fst, lowerHex_hexByte_snd, hvalue, ih]

/-- The upload is cut between the codes of two bytes. -/
theorem chunks_binaryToPrintfHex (data : List UInt8) :
    chunks uploadChunk (binaryToPrintfHex data) = (chunks 875 data).map binaryToPrintfHex := by
  have hcode : ∀ b : UInt8, ('\\' :: 'x' :: hexByte b).length = 4 := fun _ => rfl
  exact chunks_flatMap (show 0 < 4 by decide) hcode (show 0 < 875 by decide) data

theorem quote_not_mem_binaryToPrintfHex (data : List UInt8) :
    ∀ c ∈ binaryToPrintfHex data, c ≠ '\'' := by
  intro c hc
  rw [binaryToPrintfHex, List.mem_flatMap] at hc
  obtain ⟨b, _, hcode⟩ := hc
  simp only [hexByte, List.mem_cons, List.not_mem_nil, or_false] at hcode
  have hdigit : ∀ d : Char, (lowerHex d).isSome = true → d ≠ '\'' := by
    rintro d hd rfl
    exact absurd hd (by decide)
  rcases hcode with rfl | rfl | rfl | rfl
  · decide
  · decide
  · exact hdigit _ (by rw [lowerHex_hexByte_fst]; rfl)
  · exact hdigit _ (by rw [lowerHex_hexByte_snd]; rfl)

end OpenWrtCopilot.Ports.Management
