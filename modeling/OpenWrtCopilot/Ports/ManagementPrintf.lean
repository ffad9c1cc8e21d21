import Mathlib.Logic.Function.Basic
import OpenWrtCopilot.Ports.ManagementRestore
import OpenWrtCopilot.Verified.PosixTokens
import OpenWrtCopilot.Verified.PrintfFormat

/-!
# The uploaded archive

What a shell makes of the `printf` commands with which `execute_restore` uploads an archive, when
each of them is delivered once: the tokens of a command, the output of its format, and the files
that the output is redirected to.

## Main results

* `readWriting_uploadCommand` — how the shell reads an upload command.
* `upload_delivered` — what the router printed, and its files, after any pieces.
* `upload_exact` — after the pieces of an archive these are its bytes.
-/

namespace OpenWrtCopilot.Ports.Management

open Verified
open Verified.PyText
open Verified.Chunks
open Verified.Hexdump
open Verified.PosixTokens
open Verified.ShellList

/-! ## A shell that runs `printf` -/

/-- What a character of a word stands for, if nothing is expanded there. -/
def wordChar : WordChar → Option Char
  | .bare c => if ['$', '*', '?', '[', '~'].contains c then none else some c
  | .literal c => some c
  | .double c => if c = '$' then none else some c
  | .substitution _ => none

/-- The text of a word that nothing is expanded in. -/
def plainWord (word : Word) : Option Text := word.mapM wordChar

/-- A command that prints to a file. -/
structure Writing where
  append : Bool
  bytes : List UInt8
  target : Text

/-- A redirection of the output. -/
def redirects (operator : Text) : Option Bool :=
  if operator = ['>'] then some false else if operator = ['>', '>'] then some true else none

/-- The command as a `printf` of one argument whose output is redirected. -/
def readWriting (command : Text) : Option Writing := do
  match ← tokens command with
  | [.word name, .word format, .operator operator, .word target] =>
      if (← plainWord name) = "printf".toList then
        let append ← redirects operator
        let bytes ← PrintfFormat.output (← plainWord format)
        return { append := append, bytes := bytes, target := ← plainWord target }
      else none
  | _ => none

/-- A router with files, which remembers what was printed to them. -/
structure PrintfRouter where
  files : Text → Option (List UInt8)
  printed : List Writing := []

def PrintfRouter.write (r : PrintfRouter) (w : Writing) : PrintfRouter where
  files := Function.update r.files w.target
    (some (if w.append then (r.files w.target).getD [] ++ w.bytes else w.bytes))
  printed := r.printed ++ [w]

/-- The shell of the router. -/
def printfShell : RemoteShell PrintfRouter := fun command r =>
  match readWriting command with
  | some w => { output := [], status := 0, state := r.write w }
  | none => { output := [], status := 127, state := r }

/-! ## Reading an upload command -/

theorem plainWord_map {spelling : Char → WordChar} {t : Text}
    (h : ∀ c ∈ t, wordChar (spelling c) = some c) : plainWord (t.map spelling) = some t := by
  induction t with
  | nil => rfl
  | cons c t ih =>
    have hrest := ih fun d hd => h d (List.mem_cons_of_mem c hd)
    rw [plainWord] at hrest ⊢
    rw [List.map_cons, List.mapM_cons, hrest, h c List.mem_cons_self]
    rfl

theorem quote_of_no_quote {t : Text} (h : ∀ c ∈ t, c ≠ '\'') :
    quote t = "'".toList ++ t ++ "'".toList := by
  have hflat : (t.flatMap fun c => if c = '\'' then "'\\''".toList else [c]) = t := by
    induction t with
    | nil => rfl
    | cons c t ih =>
      rw [List.flatMap_cons, if_neg (h c List.mem_cons_self),
        ih fun d hd => h d (List.mem_cons_of_mem c hd)]
      rfl
  rw [quote, hflat]

/-- The operator of the redirection. -/
def redirectOperator (first : Bool) : Text := if first then ['>'] else ['>', '>']

/-- The parts of an upload command. -/
theorem uploadCommand_parts (first : Bool) (chunk : Text) :
    uploadCommand first chunk =
      "printf".toList ++ [' '] ++ ("'".toList ++ chunk ++ "'".toList) ++
        (' ' :: redirectOperator first ++ [' ']) ++ restoreRemote := by
  have hname : "printf '".toList = "printf".toList ++ ([' '] ++ "'".toList) := by rfl
  have hquote : "' ".toList = "'".toList ++ [' '] := by rfl
  have hblank : " ".toList = [' '] := by rfl
  have hoperator : (if first then ">" else ">>" : String).toList = redirectOperator first := by
    cases first <;> rfl
  unfold uploadCommand
  generalize restoreRemote = remote
  simp only [hname, hquote, hblank, hoperator, List.append_assoc, List.cons_append,
    List.nil_append]

/-- **The tokens of an upload command.** -/
theorem tokens_uploadCommand (first : Bool) {chunk : Text} (h : ∀ c ∈ chunk, c ≠ '\'') :
    tokens (uploadCommand first chunk) =
      some [Token.word ("printf".toList.map .bare), Token.word (chunk.map .literal),
        Token.operator (redirectOperator first), Token.word (restoreRemote.map .bare)] := by
  have hname : Spells "printf".toList [Token.word ("printf".toList.map .bare)] :=
    Spells.word fun w => Reads.bare (by decide) w
  have hformat : Spells (quote chunk) [Token.word (chunk.map .literal)] :=
    Spells.word fun w => Reads.quote chunk w
  have htarget : Spells restoreRemote [Token.word (restoreRemote.map .bare)] :=
    Spells.word fun w => Reads.bare (by decide) w
  have hblank : ∀ w, Reads (.plain (some w)) [' '] [Token.word w] (.plain none) := fun _ => rfl
  have hto : ∀ w, Reads (.plain (some w)) (' ' :: redirectOperator first ++ [' '])
      [Token.word w, Token.operator (redirectOperator first)] (.plain none) := by
    intro w
    cases first <;> rfl
  rw [uploadCommand_parts, ← quote_of_no_quote h]
  exact ((hname.append hblank hformat).append hto htarget).tokens

/-- The format that stands for bytes prints them. -/
theorem prints_binaryToPrintfHex (bytes : List UInt8) :
    PrintfFormat.Prints (binaryToPrintfHex bytes) bytes := by
  induction bytes with
  | nil => exact PrintfFormat.Prints.nil
  | cons b bytes ih => exact (PrintfFormat.Prints.hexEscape b).append ih

/-- **How the shell reads an upload command.** -/
theorem readWriting_uploadCommand (first : Bool) (bytes : List UInt8) :
    readWriting (uploadCommand first (binaryToPrintfHex bytes)) =
      some { append := !first, bytes := bytes, target := restoreRemote } := by
  have hname : plainWord ("printf".toList.map .bare) = some "printf".toList :=
    plainWord_map (by decide)
  have hformat : plainWord ((binaryToPrintfHex bytes).map .literal) =
      some (binaryToPrintfHex bytes) := plainWord_map fun _ _ => rfl
  have htarget : plainWord (restoreRemote.map .bare) = some restoreRemote :=
    plainWord_map (by decide)
  have hredirects : redirects (redirectOperator first) = some (!first) := by cases first <;> rfl
  have hbytes := (prints_binaryToPrintfHex bytes).output
  simp only [readWriting, tokens_uploadCommand first (quote_not_mem_binaryToPrintfHex bytes),
    Option.bind_eq_bind, Option.bind_some, hname, if_true, hredirects, hformat, hbytes, htarget]
  rfl

/-! ## The upload -/

/-- The writings of pieces: the first one may truncate, the others append. -/
def writings : Bool → List (List UInt8) → List Writing
  | _, [] => []
  | first, bytes :: rest =>
      { append := !first, bytes := bytes, target := restoreRemote } :: writings false rest

theorem writings_false (pieces : List (List UInt8)) :
    writings false pieces =
      pieces.map fun bytes => { append := true, bytes := bytes, target := restoreRemote } := by
  induction pieces with
  | nil => rfl
  | cons bytes rest ih => rw [writings, ih]; rfl

/-- The bytes of the writings are the pieces. -/
theorem bytes_writings (first : Bool) (pieces : List (List UInt8)) :
    (writings first pieces).map (·.bytes) = pieces := by
  induction pieces generalizing first with
  | nil => rfl
  | cons bytes rest ih => rw [writings, List.map_cons, ih]

/-- **The upload writes its pieces, in their order.** -/
theorem upload_delivered (first : Bool) (pieces : List (List UInt8)) (r : PrintfRouter) :
    upload (shellLink printfShell) first (pieces.map binaryToPrintfHex) r =
      (.ok (), (writings first pieces).foldl PrintfRouter.write r) := by
  induction pieces generalizing first r with
  | nil => rfl
  | cons bytes rest ih =>
    let w : Writing := { append := !first, bytes := bytes, target := restoreRemote }
    have hshell : printfShell (uploadCommand first (binaryToPrintfHex bytes)) r =
        { output := [], status := 0, state := r.write w } := by
      rw [printfShell, readWriting_uploadCommand]
    have hstep : ∃ result, requireOk (shellLink printfShell)
        (uploadCommand first (binaryToPrintfHex bytes)) (some 120) (fun step =>
          "Could not upload the backup to the router (exit " ++ intText step.exitCode ++ ").") r =
          (.ok result, r.write w) := by
      rw [requireOk, Fallible.bind_of_ok (run_shellLink _ _ _ _), hshell]
      exact ⟨_, rfl⟩
    obtain ⟨result, hresult⟩ := hstep
    rw [List.map_cons, upload, Fallible.bind_of_ok hresult, ih]
    rfl

/-- What the writings of a router's log make of the remote file. -/
theorem files_foldl_append (pieces : List (List UInt8)) (r : PrintfRouter) {content : List UInt8}
    (h : r.files restoreRemote = some content) :
    ((writings false pieces).foldl PrintfRouter.write r).files =
      Function.update r.files restoreRemote (some (content ++ pieces.flatten)) := by
  induction pieces generalizing r content with
  | nil =>
    rw [List.flatten_nil, List.append_nil, ← h, Function.update_eq_self]
    rfl
  | cons bytes rest ih =>
    have hfile : (r.write { append := true, bytes := bytes, target := restoreRemote }).files =
        Function.update r.files restoreRemote (some (content ++ bytes)) := by
      rw [PrintfRouter.write]
      simp only [h, Option.getD_some, if_true]
    rw [writings, List.foldl_cons, Bool.not_false,
      ih _ (by rw [hfile, Function.update_self]), hfile, Function.update_idem,
      List.flatten_cons, List.append_assoc]

theorem printed_foldl (ws : List Writing) (r : PrintfRouter) :
    (ws.foldl PrintfRouter.write r).printed = r.printed ++ ws := by
  induction ws generalizing r with
  | nil => exact (List.append_nil _).symm
  | cons w ws ih =>
    rw [List.foldl_cons, ih, PrintfRouter.write, List.append_assoc]
    rfl

/-- The upload of an archive to a router on which no command printed before. -/
structure UploadExact (d : List UInt8) (files : Text → Option (List UInt8)) : Prop where
  /-- Every boundary of two chunks is one of two escapes. -/
  whole : ∀ k, (binaryToPrintfHex d).take (uploadChunk * k) =
    binaryToPrintfHex (d.take (uploadChunk / 4 * k))
  /-- The loop gets to its end. -/
  passes : (upload (shellLink printfShell) true (chunks uploadChunk (binaryToPrintfHex d))
    { files := files }).1 = .ok ()
  /-- The commands print the bytes of the archive. -/
  printed : ((upload (shellLink printfShell) true (chunks uploadChunk (binaryToPrintfHex d))
    { files := files }).2.printed.flatMap (·.bytes)) = d
  /-- The first one truncates the remote file, the others append to it. -/
  redirected : ∃ rest, (upload (shellLink printfShell) true
      (chunks uploadChunk (binaryToPrintfHex d)) { files := files }).2.printed.map
        (fun w => (w.append, w.target)) =
    (false, restoreRemote) :: rest ∧ ∀ w ∈ rest, w = (true, restoreRemote)
  /-- After that the remote file is the archive, and no other file has changed. -/
  stored : (upload (shellLink printfShell) true (chunks uploadChunk (binaryToPrintfHex d))
      { files := files }).2.files =
    Function.update files restoreRemote (some d)

/-- **Every archive arrives as it is.** -/
theorem upload_exact {d : List UInt8} (hd : d ≠ []) (files : Text → Option (List UInt8)) :
    UploadExact d files := by
  have hpos : (0 : Nat) < 875 := by decide
  have hdelivered := upload_delivered true (chunks 875 d) { files := files }
  rw [← chunks_binaryToPrintfHex] at hdelivered
  have hpieces := chunks_of_ne_nil hpos hd
  have hflat := flatten_chunks hpos d
  refine ⟨fun k => ?_, ?_, ?_, ?_, ?_⟩
  · have hcode : ∀ b : UInt8, ('\\' :: 'x' :: hexByte b).length = 4 := fun _ => rfl
    have hwidth : uploadChunk * k = 4 * (uploadChunk / 4 * k) := by
      rw [uploadChunk]
      omega
    rw [hwidth]
    exact take_flatMap hcode _ d
  · rw [hdelivered]
  · rw [hdelivered, printed_foldl, List.nil_append, List.flatMap, bytes_writings, hflat]
  · rw [hdelivered, printed_foldl, List.nil_append, hpieces, writings, List.map_cons,
      writings_false, List.map_map]
    refine ⟨_, rfl, fun w hw => ?_⟩
    obtain ⟨bytes, _, rfl⟩ := List.mem_map.mp hw
    rfl
  · have hfirst : (PrintfRouter.write { files := files }
        { append := false, bytes := d.take 875, target := restoreRemote }).files =
          Function.update files restoreRemote (some (d.take 875)) := rfl
    rw [hdelivered]
    dsimp only
    rw [hpieces, writings, List.foldl_cons, Bool.not_true,
      files_foldl_append _ _ (by rw [hfirst, Function.update_self]), hfirst, Function.update_idem,
      flatten_chunks hpos, List.take_append_drop]

/-- An archive that holds the bytes of a quote, of a backslash and of a percent sign. -/
theorem quote_upload_exact : UploadExact [0x1f, 0x8b, 0x27, 0x5c, 0x25] fun _ => none :=
  upload_exact (by decide) _

end OpenWrtCopilot.Ports.Management
