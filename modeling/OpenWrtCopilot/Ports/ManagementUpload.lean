import OpenWrtCopilot.Ports.ManagementRestore

/-!
# Uploads over a transport that repeats and loses commands

The transport may deliver a command several times before it has an answer, and
a delivery of a `printf` may fail and leave the remote file as it was.  A
`Transfer` says what happens to one command handed to the transport;
`uploadLink` is the link such transfers make, with the remote file and the
dispatched restores as its state.  As on every router, the answer carries the
wrapper's own status, so a failed delivery is not seen by the service.

## Main results

* `content_uploads` — the file after the upload: as many copies of each piece as
  deliveries of it took effect.
* `restoreSafe_iff` — when the file a restore is dispatched for is the archive.
-/

namespace OpenWrtCopilot.Ports.Management

open Verified
open Verified.PyText
open Verified.Chunks
open Verified.Hexdump

/-! ## The router -/

/-- What happens to one command handed to the transport. -/
structure Transfer where
  /-- The deliveries of the command: whether each took effect or failed. -/
  applied : List Bool
  delivered : applied ≠ []
  /-- Whether the client receives an answer in the end. -/
  answered : Bool
  /-- What the command prints, where the service does not depend on it. -/
  output : Text

/-- The commands of a restore, as the router understands them. -/
inductive RemoteCommand
  | clear
  | write (append : Bool) (bytes : List UInt8)
  | size
  | restore
  | other
  deriving DecidableEq

/-- Read a command text. -/
def RemoteCommand.read (command : Text) : RemoteCommand :=
  if startsWith "printf '" command then
    match splitFirst '\'' (command.drop 8) with
    | (format, some redirection) =>
        if redirection = " > " ++ restoreRemote then .write false (printfBytes format)
        else if redirection = " >> " ++ restoreRemote then .write true (printfBytes format)
        else .other
    | (_, none) => .other
  else if command = clearCommand then .clear
  else if command = sizeCommand then .size
  else if command = restoreCommand then .restore
  else .other

/-- The router: the remote file, what it held at each dispatched restore, and
how many commands the transport has been handed. -/
structure Remote where
  file : Option (List UInt8)
  dispatched : List (Option (List UInt8)) := []
  sent : Nat := 0

/-- The bytes in the remote file; none where there is no file. -/
def Remote.content (r : Remote) : List UInt8 := r.file.getD []

/-- One delivery of a command. -/
def RemoteCommand.deliver (command : RemoteCommand) (r : Remote) (applied : Bool) : Remote :=
  match command with
  | .clear => { r with file := none }
  | .write append bytes =>
      if applied then { r with file := some (if append then r.content ++ bytes else bytes) }
      else r
  | .restore => { r with dispatched := r.dispatched ++ [r.file] }
  | .size | .other => r

/-- What a command prints on the router. -/
def RemoteCommand.prints (command : RemoteCommand) (r : Remote) (t : Transfer) : Text :=
  match command with
  | .size =>
      match r.file with
      | some bytes => natText bytes.length ++ "\n"
      | none => "sh: can't open " ++ restoreRemote ++ ": no such file\n"
  | _ => t.output

/-- The router after all deliveries of a command. -/
def RemoteCommand.after (env : Nat → Transfer) (command : RemoteCommand) (r : Remote) : Remote :=
  { (env r.sent).applied.foldl command.deliver r with sent := r.sent + 1 }

/-- The link to such a router. -/
def uploadLink (env : Nat → Transfer) : RouterLink Remote where
  configured _ := true
  connect r := (.ok (), r)
  exec wrapped _ r :=
    let command := RemoteCommand.read (unwrapCommand wrapped)
    if (env r.sent).answered then
      (.ok (command.prints r (env r.sent) ++ '\n' :: (exitSentinel ++ "0\n")),
        command.after env r)
    else (.error "command timed out", command.after env r)
  close r := r
  monotonic _ := 0

/-! ## Reading the service's commands -/

/-- What follows the quoted piece in an upload command. -/
private def redirection (first : Bool) : Text :=
  " " ++ (if first then ">" else ">>" : String) ++ " " ++ restoreRemote

private theorem uploadCommand_eq (first : Bool) (chunk : Text) :
    uploadCommand first chunk = "printf '".toList ++ (chunk ++ '\'' :: redirection first) := by
  have hquote : ∀ rest : Text, "' ".toList ++ rest = '\'' :: (" ".toList ++ rest) := fun _ => rfl
  unfold uploadCommand redirection
  generalize restoreRemote = remote
  generalize "printf '".toList = start
  generalize (if first then ">" else ">>" : String).toList = operator
  rw [List.append_assoc, List.append_assoc, List.append_assoc, List.append_assoc, hquote,
    List.append_assoc, List.append_assoc]

theorem read_uploadCommand (first : Bool) (bytes : List UInt8) :
    RemoteCommand.read (uploadCommand first (binaryToPrintfHex bytes)) =
      .write (!first) bytes := by
  have hsplit := splitFirst_append_cons (quote_not_mem_binaryToPrintfHex bytes)
    (redirection first)
  unfold RemoteCommand.read
  rw [uploadCommand_eq, if_pos (startsWith_append _ _),
    show (8 : Nat) = "printf '".toList.length from rfl, List.drop_left, hsplit]
  show (if redirection first = " > ".toList ++ restoreRemote then
      RemoteCommand.write false (printfBytes (binaryToPrintfHex bytes))
    else if redirection first = " >> ".toList ++ restoreRemote then
      .write true (printfBytes (binaryToPrintfHex bytes))
    else .other) = _
  rw [printfBytes_binaryToPrintfHex]
  cases first with
  | true =>
    rw [if_pos (by decide)]
    rfl
  | false =>
    rw [if_neg (by decide), if_pos (by decide)]
    rfl

theorem read_clearCommand : RemoteCommand.read clearCommand = .clear := by decide

theorem read_sizeCommand : RemoteCommand.read sizeCommand = .size := by decide

theorem read_gzipTestCommand : RemoteCommand.read gzipTestCommand = .other := by decide

theorem read_probe : RemoteCommand.read "command -v sysupgrade" = .other := by decide

theorem read_restoreCommand : RemoteCommand.read restoreCommand = .restore := by decide

/-! ## One command -/

theorem run_uploadLink_of_answered {env : Nat → Transfer} {r : Remote}
    (h : (env r.sent).answered = true) (command : Text) (timeout : Option Nat) :
    run (uploadLink env) command timeout r =
      (.ok { command := command
             ok := true
             stdout := join "\n"
               (splitlines ((RemoteCommand.read command).prints r (env r.sent) ++ ['\n']))
             exitCode := 0
             error := none }, (RemoteCommand.read command).after env r) := by
  have hexec : (uploadLink env).exec (wrapCommand command) timeout r =
      (.ok ((RemoteCommand.read command).prints r (env r.sent) ++
        '\n' :: (exitSentinel ++ "0\n")), (RemoteCommand.read command).after env r) := by
    simp only [uploadLink, unwrapCommand_wrapCommand, h, if_true]
  simp only [run, hexec, readAnswer_wrapper_output]

theorem run_uploadLink_of_lost {env : Nat → Transfer} {r : Remote}
    (h : (env r.sent).answered = false) (command : Text) (timeout : Option Nat) :
    run (uploadLink env) command timeout r =
      (.ok { command := command
             ok := false
             stdout := []
             exitCode := 1
             error := some "command timed out" }, (RemoteCommand.read command).after env r) := by
  have hexec : (uploadLink env).exec (wrapCommand command) timeout r =
      (.error "command timed out".toList, (RemoteCommand.read command).after env r) := by
    simp only [uploadLink, unwrapCommand_wrapCommand, h, Bool.false_eq_true, if_false]
  simp only [run, hexec]

/-- A required command passes exactly when it is answered. -/
theorem requireOk_uploadLink_of_answered {env : Nat → Transfer} {r : Remote}
    (h : (env r.sent).answered = true) (command : Text) (timeout : Option Nat)
    (failure : CommandResult → Text) :
    ∃ result, requireOk (uploadLink env) command timeout failure r =
        (.ok result, (RemoteCommand.read command).after env r) ∧
      result.stdout = join "\n"
        (splitlines ((RemoteCommand.read command).prints r (env r.sent) ++ ['\n'])) := by
  rw [requireOk, Fallible.bind_of_ok (run_uploadLink_of_answered h command timeout)]
  exact ⟨_, rfl, rfl⟩

theorem requireOk_uploadLink_of_lost {env : Nat → Transfer} {r : Remote}
    (h : (env r.sent).answered = false) (command : Text) (timeout : Option Nat)
    (failure : CommandResult → Text) :
    ∃ e, requireOk (uploadLink env) command timeout failure r =
      (.error e, (RemoteCommand.read command).after env r) := by
  rw [requireOk, Fallible.bind_of_ok (run_uploadLink_of_lost h command timeout)]
  exact ⟨_, rfl⟩

/-- A required command that passed was answered. -/
theorem answered_of_requireOk {env : Nat → Transfer} {r r' : Remote} {command : Text}
    {timeout : Option Nat} {failure : CommandResult → Text} {result : CommandResult}
    (h : requireOk (uploadLink env) command timeout failure r = (.ok result, r')) :
    (env r.sent).answered = true ∧ r' = (RemoteCommand.read command).after env r ∧
      result.stdout = join "\n"
        (splitlines ((RemoteCommand.read command).prints r (env r.sent) ++ ['\n'])) := by
  cases hanswered : (env r.sent).answered with
  | true =>
    obtain ⟨result', hrun, hstdout⟩ :=
      requireOk_uploadLink_of_answered hanswered command timeout failure
    rw [hrun] at h
    obtain ⟨hresult, hstate⟩ := Prod.mk.inj h
    rw [← Except.ok.inj hresult]
    exact ⟨rfl, hstate.symm, hstdout⟩
  | false =>
    obtain ⟨e, hrun⟩ := requireOk_uploadLink_of_lost hanswered command timeout failure
    rw [hrun] at h
    exact absurd (Prod.mk.inj h).1 (by simp)

/-! ## Deliveries -/

@[simp] theorem after_sent (env : Nat → Transfer) (command : RemoteCommand) (r : Remote) :
    (command.after env r).sent = r.sent + 1 := rfl

/-- How many deliveries of a command took effect. -/
def copies (env : Nat → Transfer) (k : Nat) : Nat := (env k).applied.count true

private theorem foldl_deliver_dispatched {command : RemoteCommand} (h : command ≠ .restore)
    (applied : List Bool) (r : Remote) :
    (applied.foldl command.deliver r).dispatched = r.dispatched := by
  induction applied generalizing r with
  | nil => rfl
  | cons a applied ih =>
    rw [List.foldl_cons, ih]
    cases command with
    | clear => rfl
    | write append bytes => cases a <;> rfl
    | size => rfl
    | restore => exact absurd rfl h
    | other => rfl

/-- Only the dispatch itself dispatches. -/
theorem after_dispatched (env : Nat → Transfer) {command : RemoteCommand}
    (h : command ≠ .restore) (r : Remote) : (command.after env r).dispatched = r.dispatched :=
  foldl_deliver_dispatched h (env r.sent).applied r

private theorem foldl_deliver_append (bytes : List UInt8) (applied : List Bool) (r : Remote) :
    (applied.foldl (RemoteCommand.write true bytes).deliver r).content =
      r.content ++ (List.replicate (applied.count true) bytes).flatten := by
  induction applied generalizing r with
  | nil => simp
  | cons a applied ih =>
    rw [List.foldl_cons, ih]
    cases a with
    | false => simp [RemoteCommand.deliver]
    | true =>
      rw [List.count_cons_self, List.replicate_succ, List.flatten_cons, ← List.append_assoc]
      rfl

private theorem foldl_deliver_overwrite (bytes : List UInt8) (applied : List Bool) (r : Remote) :
    (applied.foldl (RemoteCommand.write false bytes).deliver r).content =
      if applied.count true = 0 then r.content else bytes := by
  induction applied generalizing r with
  | nil => simp
  | cons a applied ih =>
    rw [List.foldl_cons, ih]
    cases a with
    | false => simp [RemoteCommand.deliver]
    | true =>
      rw [List.count_cons_self, if_neg (Nat.succ_ne_zero _)]
      by_cases hnone : applied.count true = 0
      · rw [if_pos hnone]
        rfl
      · rw [if_neg hnone]

/-- An appended piece is there once for every delivery that took effect. -/
theorem after_append_content (env : Nat → Transfer) (bytes : List UInt8) (r : Remote) :
    ((RemoteCommand.write true bytes).after env r).content =
      r.content ++ (List.replicate (copies env r.sent) bytes).flatten :=
  foldl_deliver_append bytes (env r.sent).applied r

/-- The first piece is there once, if any delivery took effect. -/
theorem after_overwrite_content (env : Nat → Transfer) (bytes : List UInt8) (r : Remote) :
    ((RemoteCommand.write false bytes).after env r).content =
      if copies env r.sent = 0 then r.content else bytes :=
  foldl_deliver_overwrite bytes (env r.sent).applied r

private theorem foldl_deliver_id {command : RemoteCommand}
    (h : command = .size ∨ command = .other) (applied : List Bool) (r : Remote) :
    applied.foldl command.deliver r = r := by
  induction applied with
  | nil => rfl
  | cons a applied ih =>
    rw [List.foldl_cons]
    rcases h with rfl | rfl
    · exact ih
    · exact ih

/-- A command that only looks leaves the file. -/
theorem after_file_of_read (env : Nat → Transfer) {command : RemoteCommand}
    (h : command = .size ∨ command = .other) (r : Remote) :
    (command.after env r).file = r.file := by
  show ((env r.sent).applied.foldl command.deliver r).file = r.file
  rw [foldl_deliver_id h]

/-- After clearing there is no file. -/
theorem after_clear_file (env : Nat → Transfer) (r : Remote) :
    (RemoteCommand.clear.after env r).file = none := by
  have hclear : ∀ (applied : List Bool) (r : Remote), applied ≠ [] →
      (applied.foldl RemoteCommand.clear.deliver r).file = none := by
    intro applied
    induction applied with
    | nil => exact fun r h => absurd rfl h
    | cons a applied ih =>
      intro r _
      rw [List.foldl_cons]
      by_cases hrest : applied = []
      · rw [hrest]
        rfl
      · exact ih _ hrest
  exact hclear (env r.sent).applied r (env r.sent).delivered

/-! ## The upload -/

/-- The router after the upload of the pieces. -/
def uploads (env : Nat → Transfer) : Bool → List (List UInt8) → Remote → Remote
  | _, [], r => r
  | first, bytes :: rest, r =>
      uploads env false rest ((RemoteCommand.write (!first) bytes).after env r)

theorem uploads_sent (env : Nat → Transfer) (first : Bool) (pieces : List (List UInt8))
    (r : Remote) : (uploads env first pieces r).sent = r.sent + pieces.length := by
  induction pieces generalizing first r with
  | nil => rfl
  | cons bytes rest ih =>
    rw [uploads, ih, after_sent, List.length_cons]
    omega

/-- The upload passes when every piece is answered, whatever became of its
deliveries. -/
theorem upload_of_answered {env : Nat → Transfer} (first : Bool) (pieces : List (List UInt8))
    {r : Remote} (h : ∀ k < pieces.length, (env (r.sent + k)).answered = true) :
    upload (uploadLink env) first (pieces.map binaryToPrintfHex) r =
      (.ok (), uploads env first pieces r) := by
  induction pieces generalizing first r with
  | nil => rfl
  | cons bytes rest ih =>
    have hhead : (env r.sent).answered = true := h 0 (Nat.succ_pos _)
    obtain ⟨step, hstep, _⟩ := requireOk_uploadLink_of_answered hhead
      (uploadCommand first (binaryToPrintfHex bytes)) (some 120) fun step =>
        "Could not upload the backup to the router (exit ".toList ++ intText step.exitCode ++ ")."
    rw [read_uploadCommand] at hstep
    rw [List.map_cons, upload, Fallible.bind_of_ok hstep, uploads]
    refine ih false ?_
    intro k hk
    rw [after_sent, Nat.add_assoc, Nat.add_comm 1 k]
    exact h (k + 1) (Nat.succ_lt_succ hk)

/-- And only then. -/
theorem answered_of_upload {env : Nat → Transfer} {first : Bool} {pieces : List (List UInt8)}
    {r r' : Remote}
    (h : upload (uploadLink env) first (pieces.map binaryToPrintfHex) r = (.ok (), r')) :
    (∀ k < pieces.length, (env (r.sent + k)).answered = true) ∧
      r' = uploads env first pieces r := by
  induction pieces generalizing first r with
  | nil =>
    refine ⟨fun k hk => absurd hk (Nat.not_lt_zero k), ?_⟩
    exact (Prod.mk.inj h).2.symm
  | cons bytes rest ih =>
    rw [List.map_cons, upload] at h
    obtain ⟨step, s, hstep, _⟩ := Fallible.fst_bind_eq_ok (congrArg Prod.fst h)
    rw [Fallible.bind_of_ok hstep] at h
    obtain ⟨hhead, hstate, _⟩ := answered_of_requireOk hstep
    rw [read_uploadCommand] at hstate
    subst hstate
    obtain ⟨htail, hfinal⟩ := ih h
    refine ⟨?_, hfinal⟩
    intro k hk
    cases k with
    | zero => exact hhead
    | succ k =>
      have hnext := htail k (Nat.lt_of_succ_lt_succ hk)
      rw [after_sent, Nat.add_assoc, Nat.add_comm 1 k] at hnext
      exact hnext

/-- Nothing is dispatched during the upload. -/
theorem upload_dispatched (env : Nat → Transfer) (first : Bool) (pieces : List (List UInt8))
    (r : Remote) :
    (upload (uploadLink env) first (pieces.map binaryToPrintfHex) r).2.dispatched =
      r.dispatched := by
  induction pieces generalizing first r with
  | nil => rfl
  | cons bytes rest ih =>
    have hkeeps : ((RemoteCommand.write (!first) bytes).after env r).dispatched = r.dispatched :=
      after_dispatched env (by simp) r
    rw [List.map_cons, upload]
    cases hanswered : (env r.sent).answered with
    | true =>
      obtain ⟨step, hstep, _⟩ := requireOk_uploadLink_of_answered hanswered
        (uploadCommand first (binaryToPrintfHex bytes)) (some 120) fun step =>
          "Could not upload the backup to the router (exit ".toList ++ intText step.exitCode ++
            ")."
      rw [read_uploadCommand] at hstep
      rw [Fallible.bind_of_ok hstep, ih, hkeeps]
    | false =>
      obtain ⟨e, hstep⟩ := requireOk_uploadLink_of_lost hanswered
        (uploadCommand first (binaryToPrintfHex bytes)) (some 120) fun step =>
          "Could not upload the backup to the router (exit ".toList ++ intText step.exitCode ++
            ")."
      rw [read_uploadCommand] at hstep
      rw [Fallible.bind_of_error hstep]
      exact hkeeps

/-- The copies of appended pieces, the first of which is the `k`-th command. -/
def appended (env : Nat → Transfer) : Nat → List (List UInt8) → List UInt8
  | _, [] => []
  | k, bytes :: rest =>
      (List.replicate (copies env k) bytes).flatten ++ appended env (k + 1) rest

/-- What the deliveries that took effect spell: the first piece at most once,
since every delivery overwrites the file, and each other piece as often as it
was appended.  The pieces are the commands from number one on. -/
def spelled (env : Nat → Transfer) : List (List UInt8) → List UInt8
  | [] => []
  | bytes :: rest => (if copies env 1 = 0 then [] else bytes) ++ appended env 2 rest

private theorem content_uploads_appended (env : Nat → Transfer) (pieces : List (List UInt8))
    (r : Remote) :
    (uploads env false pieces r).content = r.content ++ appended env r.sent pieces := by
  induction pieces generalizing r with
  | nil => exact (List.append_nil _).symm
  | cons bytes rest ih =>
    rw [uploads, ih, appended, ← List.append_assoc]
    congr 1
    exact after_append_content env bytes r

/-- The remote file after the upload into an empty place. -/
theorem content_uploads (env : Nat → Transfer) (pieces : List (List UInt8)) {r : Remote}
    (hfile : r.file = none) (hsent : r.sent = 1) :
    (uploads env true pieces r).content = spelled env pieces := by
  have hempty : r.content = [] := by
    rw [Remote.content, hfile]
    rfl
  cases pieces with
  | nil => exact hempty
  | cons bytes rest =>
    have hfirst := after_overwrite_content env bytes r
    rw [hempty, hsent] at hfirst
    rw [uploads, content_uploads_appended, after_sent, hsent, spelled]
    congr 1

/-! ## Up to the dispatch -/

/-- The router of which nothing was dispatched in between. -/
def SameDispatches (r r' : Remote) : Prop := r'.dispatched = r.dispatched

instance : Std.Refl SameDispatches := ⟨fun _ => rfl⟩

instance : IsTrans Remote SameDispatches := ⟨fun _ _ _ h h' => h'.trans h⟩

theorem requireOk_dispatches (env : Nat → Transfer) {command : Text}
    (h : RemoteCommand.read command ≠ .restore) (timeout : Option Nat)
    (failure : CommandResult → Text) :
    Fallible.Respects SameDispatches (requireOk (uploadLink env) command timeout failure) := by
  intro r
  cases hanswered : (env r.sent).answered with
  | true =>
    obtain ⟨result, hrun, _⟩ :=
      requireOk_uploadLink_of_answered hanswered command timeout failure
    rw [hrun]
    exact after_dispatched env h r
  | false =>
    obtain ⟨e, hrun⟩ := requireOk_uploadLink_of_lost hanswered command timeout failure
    rw [hrun]
    exact after_dispatched env h r

/-- Nothing is dispatched before the checks have passed. -/
theorem prepareRestore_dispatches (env : Nat → Transfer) (d : List UInt8) :
    Fallible.Respects SameDispatches (prepareRestore (uploadLink env) d) := by
  have hclear : RemoteCommand.read clearCommand ≠ .restore := by
    rw [read_clearCommand]
    simp
  have hsize : RemoteCommand.read sizeCommand ≠ .restore := by
    rw [read_sizeCommand]
    simp
  have hgzip : RemoteCommand.read gzipTestCommand ≠ .restore := by
    rw [read_gzipTestCommand]
    simp
  have hprobe : RemoteCommand.read "command -v sysupgrade" ≠ .restore := by
    rw [read_probe]
    simp
  unfold prepareRestore
  rw [chunks_binaryToPrintfHex]
  refine Fallible.Respects.bind (requireOk_dispatches env hclear _ _) fun _ => ?_
  refine Fallible.Respects.bind (upload_dispatched env true (chunks 875 d)) fun _ => ?_
  refine Fallible.Respects.bind (requireOk_dispatches env hsize _ _) fun check => ?_
  refine Fallible.Respects.bind (Fallible.Respects.ofExcept _) fun differs => ?_
  cases differs with
  | true => exact Fallible.Respects.bind (Fallible.Respects.raise _) fun _ =>
    Fallible.Respects.bind (requireOk_dispatches env hgzip _ _) fun _ =>
      Fallible.Respects.bind (requireOk_dispatches env hprobe _ _) fun _ =>
        Fallible.Respects.pure _
  | false => exact Fallible.Respects.bind (requireOk_dispatches env hgzip _ _) fun _ =>
    Fallible.Respects.bind (requireOk_dispatches env hprobe _ _) fun _ =>
      Fallible.Respects.pure _

/-- The size check compares the length of the remote file. -/
theorem sizeDiffers_printed (r : Remote) (t : Transfer) (n : Nat) :
    sizeDiffers (join "\n" (splitlines (RemoteCommand.size.prints r t ++ ['\n']))) n =
      .ok (decide (r.file.map List.length ≠ some n)) := by
  cases hfile : r.file with
  | none =>
    have hprints : RemoteCommand.size.prints r t =
        "sh: can't open ".toList ++ restoreRemote ++ ": no such file\n".toList := by
      simp only [RemoteCommand.prints, hfile]
    have hwords : words (join "\n".toList (splitlines ("sh: can't open ".toList ++
        restoreRemote ++ ": no such file\n".toList ++ ['\n']))) =
        ["sh:", "can't", "open", "/tmp/ai-restore-backup.tar.gz:", "no", "such",
          "file"].map String.toList := by
      decide
    have hne : "sh:".toList ≠ natText n := by
      intro heq
      have hmem : 's' ∈ natText n := by
        rw [← heq]
        decide
      have hrange := range_of_mem_natText hmem
      exact absurd hrange (by decide)
    rw [hprints, sizeDiffers, hwords]
    show Except.ok (decide ("sh:".toList ≠ natText n)) = _
    rw [decide_eq_true hne]
    rfl
  | some bytes =>
    have hprints : RemoteCommand.size.prints r t = natText bytes.length ++ ['\n'] := by
      simp only [RemoteCommand.prints, hfile]
      rfl
    have honly : OnlyNewlines (natText bytes.length ++ ['\n']) := by
      intro c hc hb
      rw [List.mem_append, List.mem_singleton] at hc
      rcases hc with hdigit | hnewline
      · have hrange := range_of_mem_natText hdigit
        rw [isLineBoundary_of_printable (by omega) (by omega)] at hb
        cases hb
      · exact hnewline
    have hblank : ∀ c ∈ natText bytes.length, isSpace c = false := by
      intro c hc
      have hrange := range_of_mem_natText hc
      exact isSpace_of_printable (by omega) (by omega)
    have hjoin : join "\n".toList (splitlines (natText bytes.length ++ ['\n'] ++ ['\n'])) =
        natText bytes.length ++ ['\n'] := join_splitlines_newline honly
    rw [hprints, hjoin, sizeDiffers, words_newline hblank Nat.toDigits_ne_nil]
    have hiff : natText bytes.length ≠ natText n ↔
        ¬(some bytes).map List.length = some n := by
      rw [Option.map_some, Option.some.injEq]
      exact not_congr ⟨natText_injective, congrArg natText⟩
    simp only [hiff, ne_eq]

/-- Every command before the dispatch is answered: the clearing, the pieces and
the three checks. -/
def AllAnswered (env : Nat → Transfer) (d : List UInt8) : Prop :=
  ∀ k < (chunks 875 d).length + 4, (env k).answered = true

/-- The router after clearing and uploading. -/
def uploaded (env : Nat → Transfer) (d : List UInt8) (r : Remote) : Remote :=
  uploads env true (chunks 875 d) (RemoteCommand.clear.after env r)

theorem uploaded_sent (env : Nat → Transfer) (d : List UInt8) {r : Remote} (h : r.sent = 0) :
    (uploaded env d r).sent = (chunks 875 d).length + 1 := by
  rw [uploaded, uploads_sent, after_sent, h, Nat.zero_add, Nat.add_comm]

/-- If everything is answered and the size is right, the dispatch is reached with
the uploaded file in place. -/
theorem prepareRestore_of_answered {env : Nat → Transfer} {d : List UInt8} {r : Remote}
    (h : r.sent = 0) (hall : AllAnswered env d)
    (hsize : (uploaded env d r).file.map List.length = some d.length) :
    ∃ r', prepareRestore (uploadLink env) d r = (.ok (), r') ∧
      r'.file = (uploaded env d r).file := by
  have hsent := uploaded_sent env d h
  have hclear : (env r.sent).answered = true := by
    rw [h]
    exact hall 0 (by omega)
  obtain ⟨cleared, hcleared, _⟩ := requireOk_uploadLink_of_answered hclear clearCommand none
    fun _ => "Could not clear a previous upload on the router."
  rw [read_clearCommand] at hcleared
  have hpieces : ∀ k < (chunks 875 d).length,
      (env ((RemoteCommand.clear.after env r).sent + k)).answered = true := by
    intro k hk
    rw [after_sent, h]
    exact hall (0 + 1 + k) (by omega)
  have hupload : upload (uploadLink env) true (chunks uploadChunk (binaryToPrintfHex d))
      (RemoteCommand.clear.after env r) = (.ok (), uploaded env d r) := by
    rw [chunks_binaryToPrintfHex]
    exact upload_of_answered true (chunks 875 d) hpieces
  have hcheck : (env (uploaded env d r).sent).answered = true := by
    rw [hsent]
    exact hall _ (by omega)
  obtain ⟨check, hchecked, hstdout⟩ := requireOk_uploadLink_of_answered hcheck sizeCommand none
    fun _ => sizeMismatch
  rw [read_sizeCommand] at hchecked hstdout
  have hsame : sizeDiffers check.stdout d.length = .ok false := by
    rw [hstdout, sizeDiffers_printed, hsize]
    simp
  let sized := RemoteCommand.size.after env (uploaded env d r)
  have hgzip : (env sized.sent).answered = true := by
    rw [after_sent, hsent]
    exact hall _ (by omega)
  obtain ⟨tested, htested, _⟩ := requireOk_uploadLink_of_answered hgzip gzipTestCommand none
    fun _ => "The uploaded backup is not a valid gzip archive — restore aborted."
  rw [read_gzipTestCommand] at htested
  have hprobe : (env (RemoteCommand.other.after env sized).sent).answered = true := by
    rw [after_sent, after_sent, hsent]
    exact hall _ (by omega)
  obtain ⟨probe, hprobed, _⟩ := requireOk_uploadLink_of_answered hprobe "command -v sysupgrade"
    none fun _ => "sysupgrade is not available on this device; restore cannot run."
  rw [read_probe] at hprobed
  refine ⟨RemoteCommand.other.after env (RemoteCommand.other.after env sized), ?_, ?_⟩
  · rw [prepareRestore, Fallible.bind_of_ok hcleared, Fallible.bind_of_ok hupload,
      Fallible.bind_of_ok hchecked, hsame]
    exact (Fallible.bind_of_ok htested).trans (Fallible.bind_of_ok hprobed)
  · rw [after_file_of_read env (Or.inr rfl), after_file_of_read env (Or.inr rfl),
      after_file_of_read env (Or.inl rfl)]

/-- If the dispatch is reached, everything was answered and the size is right. -/
theorem answered_of_prepareRestore {env : Nat → Transfer} {d : List UInt8} {r r' : Remote}
    (h : r.sent = 0) (hprepare : prepareRestore (uploadLink env) d r = (.ok (), r')) :
    AllAnswered env d ∧ (uploaded env d r).file.map List.length = some d.length ∧
      r'.file = (uploaded env d r).file := by
  have hsent := uploaded_sent env d h
  rw [prepareRestore] at hprepare
  obtain ⟨cleared, r1, hcleared, _⟩ := Fallible.fst_bind_eq_ok (congrArg Prod.fst hprepare)
  rw [Fallible.bind_of_ok hcleared] at hprepare
  obtain ⟨hclear, hr1, _⟩ := answered_of_requireOk hcleared
  rw [read_clearCommand] at hr1
  obtain ⟨_, r2, hupload, _⟩ := Fallible.fst_bind_eq_ok (congrArg Prod.fst hprepare)
  rw [Fallible.bind_of_ok hupload] at hprepare
  rw [chunks_binaryToPrintfHex] at hupload
  obtain ⟨hpieces, hr2⟩ := answered_of_upload hupload
  have hr2 : r2 = uploaded env d r := by rw [hr2, hr1, uploaded]
  obtain ⟨check, r3, hchecked, _⟩ := Fallible.fst_bind_eq_ok (congrArg Prod.fst hprepare)
  rw [Fallible.bind_of_ok hchecked] at hprepare
  obtain ⟨hcheck, hr3, hstdout⟩ := answered_of_requireOk hchecked
  rw [read_sizeCommand] at hr3 hstdout
  rw [hstdout, sizeDiffers_printed, hr2] at hprepare
  by_cases hsize : (uploaded env d r).file.map List.length = some d.length
  · simp only [hsize, ne_eq, not_true_eq_false, decide_false] at hprepare
    have hrest : (requireOk (uploadLink env) gzipTestCommand none (fun _ =>
        "The uploaded backup is not a valid gzip archive — restore aborted.") >>= fun _ =>
        requireOk (uploadLink env) "command -v sysupgrade" none (fun _ =>
          "sysupgrade is not available on this device; restore cannot run.") >>= fun _ =>
        pure ()) r3 = (.ok (), r') := hprepare
    obtain ⟨tested, r4, htested, _⟩ := Fallible.fst_bind_eq_ok (congrArg Prod.fst hrest)
    rw [Fallible.bind_of_ok htested] at hrest
    obtain ⟨hgzip, hr4, _⟩ := answered_of_requireOk htested
    rw [read_gzipTestCommand] at hr4
    obtain ⟨probe, r5, hprobed, _⟩ := Fallible.fst_bind_eq_ok (congrArg Prod.fst hrest)
    rw [Fallible.bind_of_ok hprobed] at hrest
    obtain ⟨hprobe, hr5, _⟩ := answered_of_requireOk hprobed
    rw [read_probe] at hr5
    have hfinal : r' = r5 := (Prod.mk.inj hrest).2.symm
    refine ⟨?_, hsize, ?_⟩
    · have hsent1 : r1.sent = 1 := by rw [hr1, after_sent, h]
      have hsent2 : r2.sent = (chunks 875 d).length + 1 := by rw [hr2, hsent]
      have hsent3 : r3.sent = (chunks 875 d).length + 2 := by rw [hr3, after_sent, hsent2]
      have hsent4 : r4.sent = (chunks 875 d).length + 3 := by rw [hr4, after_sent, hsent3]
      rw [h] at hclear
      rw [hsent1] at hpieces
      rw [hsent2] at hcheck
      rw [hsent3] at hgzip
      rw [hsent4] at hprobe
      intro k hk
      have hcases : k = 0 ∨ (∃ i < (chunks 875 d).length, k = 1 + i) ∨
          k = (chunks 875 d).length + 1 ∨ k = (chunks 875 d).length + 2 ∨
          k = (chunks 875 d).length + 3 := by
        by_cases hzero : k = 0
        · exact Or.inl hzero
        · by_cases hpiece : k ≤ (chunks 875 d).length
          · exact Or.inr (Or.inl ⟨k - 1, by omega, by omega⟩)
          · omega
      rcases hcases with rfl | ⟨i, hi, rfl⟩ | rfl | rfl | rfl
      · exact hclear
      · exact hpieces i hi
      · exact hcheck
      · exact hgzip
      · exact hprobe
    · rw [hfinal, hr5, after_file_of_read env (Or.inr rfl), hr4,
        after_file_of_read env (Or.inr rfl), hr3, after_file_of_read env (Or.inl rfl), hr2]
  · simp only [hsize, ne_eq, not_false_eq_true, decide_true] at hprepare
    exact absurd (Prod.mk.inj hprepare).1 (by simp)

/-! ## The dispatch -/

/-- The file every dispatched restore works on is the archive. -/
def RestoreSafe (env : Nat → Transfer) (d : List UInt8) (file : Option (List UInt8)) : Prop :=
  ∀ content ∈ (executeRestore (uploadLink env) d { file := file }).2.dispatched,
    content = some d

private theorem foldl_deliver_restore (applied : List Bool) (r : Remote) :
    (applied.foldl RemoteCommand.restore.deliver r).dispatched =
      r.dispatched ++ List.replicate applied.length r.file := by
  induction applied generalizing r with
  | nil => simp
  | cons a applied ih =>
    rw [List.foldl_cons, ih, List.length_cons, List.replicate_succ]
    exact List.append_assoc _ _ _

theorem dispatchRestore_dispatched (env : Nat → Transfer) (r : Remote) :
    (dispatchRestore (uploadLink env) r).2.dispatched =
      r.dispatched ++ List.replicate (env r.sent).applied.length r.file := by
  have hafter : (RemoteCommand.restore.after env r).dispatched =
      r.dispatched ++ List.replicate (env r.sent).applied.length r.file :=
    foldl_deliver_restore (env r.sent).applied r
  rw [dispatchRestore]
  cases hanswered : (env r.sent).answered with
  | true =>
    rw [Fallible.bind_of_ok (run_uploadLink_of_answered hanswered _ _), read_restoreCommand]
    exact hafter
  | false =>
    rw [Fallible.bind_of_ok (run_uploadLink_of_lost hanswered _ _), read_restoreCommand]
    exact hafter

/-- What is dispatched: the uploaded file, once for every delivery, if the checks
pass. -/
theorem mem_dispatched_iff (env : Nat → Transfer) (d : List UInt8) (file : Option (List UInt8))
    (content : Option (List UInt8)) :
    content ∈ (executeRestore (uploadLink env) d { file := file }).2.dispatched ↔
      AllAnswered env d ∧
        (uploaded env d { file := file }).file.map List.length = some d.length ∧
        content = (uploaded env d { file := file }).file := by
  have hopen : openSession (uploadLink env) { file := file } = (.ok (), { file := file }) := rfl
  rw [executeRestore, withTransport, Fallible.bind_of_ok hopen, Fallible.ensuring_apply]
  show content ∈ ((prepareRestore (uploadLink env) d >>= fun _ =>
    dispatchRestore (uploadLink env)) { file := file }).2.dispatched ↔ _
  have hkeeps := prepareRestore_dispatches env d { file := file }
  cases hprepare : prepareRestore (uploadLink env) d { file := file } with
  | mk outcome r =>
    rw [hprepare] at hkeeps
    have hnone : r.dispatched = [] := hkeeps
    cases outcome with
    | error e =>
      rw [Fallible.bind_of_error hprepare, hnone]
      constructor
      · intro hmem
        cases hmem
      · intro ⟨hall, hsize, _⟩
        obtain ⟨r', hok, _⟩ := prepareRestore_of_answered rfl hall hsize
        rw [hok] at hprepare
        exact absurd (Prod.mk.inj hprepare).1 (by simp)
    | ok u =>
      obtain ⟨hall, hsize, hfile⟩ := answered_of_prepareRestore rfl hprepare
      rw [Fallible.bind_of_ok hprepare, dispatchRestore_dispatched, hnone, List.nil_append,
        List.mem_replicate, hfile]
      constructor
      · intro ⟨_, hcontent⟩
        exact ⟨hall, hsize, hcontent⟩
      · intro ⟨_, _, hcontent⟩
        refine ⟨?_, hcontent⟩
        intro hzero
        exact (env r.sent).delivered (List.length_eq_zero_iff.mp hzero)

/-- If losses and repetitions balance, a restore is dispatched for another file. -/
theorem restore_unsafe_of_balance {env : Nat → Transfer} {d : List UInt8}
    (file : Option (List UInt8)) (hall : AllAnswered env d)
    (hlen : (spelled env (chunks 875 d)).length = d.length)
    (hne : spelled env (chunks 875 d) ≠ d) : ¬RestoreSafe env d file := by
  have hcontent : (uploaded env d { file := file }).content = spelled env (chunks 875 d) :=
    content_uploads env (chunks 875 d) (after_clear_file env _) rfl
  intro hsafe
  cases hfile : (uploaded env d { file := file }).file with
  | none =>
    have hempty : spelled env (chunks 875 d) = [] := by
      rw [← hcontent, Remote.content, hfile]
      rfl
    rw [hempty, List.length_nil] at hlen
    exact hne (hempty.trans (List.length_eq_zero_iff.mp hlen.symm).symm)
  | some bytes =>
    have hbytes : bytes = spelled env (chunks 875 d) := by
      rw [← hcontent, Remote.content, hfile]
      rfl
    have hmem : some bytes ∈
        (executeRestore (uploadLink env) d { file := file }).2.dispatched := by
      rw [mem_dispatched_iff, hfile]
      exact ⟨hall, by rw [Option.map_some, hbytes, hlen], rfl⟩
    exact hne (hbytes.symm.trans (Option.some.inj (hsafe _ hmem)))

/--
**A restore is dispatched for another file exactly when the losses and the
repetitions of pieces balance.**

For every archive, every behaviour of the transport and whatever the remote file
held before: the file a restore is dispatched for is the archive unless every
command is answered and the pieces that took effect have together the archive's
length without being the archive.
-/
theorem restoreSafe_iff (env : Nat → Transfer) (d : List UInt8) (file : Option (List UInt8)) :
    RestoreSafe env d file ↔
      ¬(AllAnswered env d ∧ (spelled env (chunks 875 d)).length = d.length ∧
        spelled env (chunks 875 d) ≠ d) := by
  constructor
  · intro hsafe ⟨hall, hlen, hne⟩
    exact restore_unsafe_of_balance file hall hlen hne hsafe
  · intro hbalance content hmem
    obtain ⟨hall, hsize, rfl⟩ := (mem_dispatched_iff env d file content).mp hmem
    have hcontent : (uploaded env d { file := file }).content = spelled env (chunks 875 d) :=
      content_uploads env (chunks 875 d) (after_clear_file env _) rfl
    cases hfile : (uploaded env d { file := file }).file with
    | none =>
      rw [hfile] at hsize
      cases hsize
    | some bytes =>
      have hbytes : bytes = spelled env (chunks 875 d) := by
        rw [← hcontent, Remote.content, hfile]
        rfl
      rw [hfile, Option.map_some, Option.some.injEq, hbytes] at hsize
      rw [hbytes, Option.some.injEq]
      by_contra hne
      exact hbalance ⟨hall, hsize, hne⟩

/-! ## A lost piece and a repeated one -/

/-- A first piece that starts like a gzip file. -/
def firstPiece : List UInt8 := 0x1f :: 0x8b :: List.replicate 873 0

def secondPiece : List UInt8 := List.replicate 875 1

/-- The delivery of the first piece fails, the second piece is delivered twice,
everything else once. -/
def lostThenRepeated : Nat → Transfer
  | 1 => { applied := [false], delivered := by simp, answered := true, output := [] }
  | 2 => { applied := [true, true], delivered := by simp, answered := true, output := [] }
  | _ => { applied := [true], delivered := by simp, answered := true, output := [] }

/-- A restore is dispatched for a file that holds the second piece twice. -/
theorem lost_piece_restore_dispatched :
    ¬RestoreSafe lostThenRepeated (firstPiece ++ secondPiece) none := by
  have hfirst : firstPiece.length = 875 := by
    rw [firstPiece, List.length_cons, List.length_cons, List.length_replicate]
  have hsecond : secondPiece.length = 875 := List.length_replicate
  have hnonempty : ∀ rest : List UInt8, firstPiece ++ rest ≠ [] := fun _ => List.cons_ne_nil _ _
  have hrest : secondPiece ≠ [] := by
    intro hnil
    rw [hnil] at hsecond
    cases hsecond
  have hpieces : chunks 875 (firstPiece ++ secondPiece) = [firstPiece, secondPiece] := by
    rw [chunks_of_ne_nil (by decide) (hnonempty secondPiece), List.take_left' hfirst,
      List.drop_left' hfirst, chunks_of_ne_nil (by decide) hrest,
      List.take_of_length_le hsecond.le, List.drop_of_length_le hsecond.le, chunks_nil]
  have hspelled : spelled lostThenRepeated (chunks 875 (firstPiece ++ secondPiece)) =
      secondPiece ++ secondPiece := by
    have hlost : copies lostThenRepeated 1 = 0 := by decide
    have htwice : copies lostThenRepeated 2 = 2 := by decide
    rw [hpieces, spelled, if_pos hlost, appended, htwice, appended, List.nil_append,
      List.append_nil, List.replicate_succ, List.replicate_one, List.flatten_cons,
      List.flatten_singleton]
  refine restore_unsafe_of_balance none ?_ ?_ ?_
  · intro k _
    unfold lostThenRepeated
    split <;> rfl
  · rw [hspelled, List.length_append, List.length_append, hfirst, hsecond]
  · rw [hspelled]
    intro heq
    have hone : secondPiece = 1 :: List.replicate 874 1 := List.replicate_succ
    rw [hone, firstPiece, List.cons_append, List.cons_append] at heq
    exact absurd (List.cons.inj heq).1 (by decide)

end OpenWrtCopilot.Ports.Management
