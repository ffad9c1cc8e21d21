import OpenWrtCopilot.Verified.PyText

/-!
# POSIX shell lists

A router command is a shell list: simple commands joined by `;`, `&&` and `||`,
grouped by `( … ) 2>&1`.  This module gives such lists a meaning over an
arbitrary meaning of their simple commands: what is printed, the exit status,
and which status `$?` shows to the command that runs next.

Simple commands are of two kinds.  `script` stands for any remote command text
and is interpreted by a parameter; `echo` is the builtin, whose arguments may
mention `$?`.
-/

namespace OpenWrtCopilot.Verified.ShellList

open Verified.PyText

/-- What running a command leaves behind. -/
structure Outcome (σ : Type) where
  state : σ
  output : Text
  status : Nat

/-- A fragment of an `echo` argument. -/
inductive Piece
  | lit (text : Text)
  | lastStatus
  deriving DecidableEq

/-- The simple commands of a list. -/
inductive Simple
  | script (text : Text)
  | echo (args : List (List Piece))

/-- A shell list. `group` is `( body ) 2>&1`. -/
inductive ShList
  | simple (command : Simple)
  | group (body : ShList)
  | seq (first rest : ShList)
  | andThen (first rest : ShList)
  | orElse (first rest : ShList)

/-- The meaning of remote command texts. -/
abbrev RemoteShell (σ : Type) := Text → σ → Outcome σ

variable {σ : Type}

/-! ## The meaning of a list -/

/-- Expansion of one `echo` argument when `$?` is `last`. -/
def Piece.expand (last : Nat) : Piece → Text
  | .lit text => text
  | .lastStatus => natText last

/-- One simple command, run when `$?` is `last`. -/
def Simple.run (sh : RemoteShell σ) (last : Nat) (s : σ) : Simple → Outcome σ
  | .script text => sh text s
  | .echo args =>
      { state := s
        output := join " " (args.map fun arg => (arg.map (Piece.expand last)).flatten) ++ "\n"
        status := 0 }

/-- A list, run when `$?` is `last`: the command that runs next sees the status
of the one that ran before it. -/
def ShList.run (sh : RemoteShell σ) : ShList → Nat → σ → Outcome σ
  | .simple command, last, s => command.run sh last s
  | .group body, last, s => body.run sh last s
  | .seq first rest, last, s =>
      let o := first.run sh last s
      let o' := rest.run sh o.status o.state
      { o' with output := o.output ++ o'.output }
  | .andThen first rest, last, s =>
      let o := first.run sh last s
      if o.status = 0 then
        let o' := rest.run sh o.status o.state
        { o' with output := o.output ++ o'.output }
      else o
  | .orElse first rest, last, s =>
      let o := first.run sh last s
      if o.status = 0 then o
      else
        let o' := rest.run sh o.status o.state
        { o' with output := o.output ++ o'.output }

section Laws

variable (sh : RemoteShell σ)

@[simp] theorem run_script (text : Text) (last : Nat) (s : σ) :
    (ShList.simple (.script text)).run sh last s = sh text s := rfl

@[simp] theorem run_group (body : ShList) (last : Nat) (s : σ) :
    (ShList.group body).run sh last s = body.run sh last s := rfl

@[simp] theorem run_seq_state (first rest : ShList) (last : Nat) (s : σ) :
    ((ShList.seq first rest).run sh last s).state =
      (rest.run sh (first.run sh last s).status (first.run sh last s).state).state := rfl

@[simp] theorem run_seq_output (first rest : ShList) (last : Nat) (s : σ) :
    ((ShList.seq first rest).run sh last s).output =
      (first.run sh last s).output ++
        (rest.run sh (first.run sh last s).status (first.run sh last s).state).output := rfl

@[simp] theorem run_seq_status (first rest : ShList) (last : Nat) (s : σ) :
    ((ShList.seq first rest).run sh last s).status =
      (rest.run sh (first.run sh last s).status (first.run sh last s).state).status := rfl

@[simp] theorem run_echo_state (args : List (List Piece)) (last : Nat) (s : σ) :
    ((ShList.simple (.echo args)).run sh last s).state = s := rfl

@[simp] theorem run_echo_output (args : List (List Piece)) (last : Nat) (s : σ) :
    ((ShList.simple (.echo args)).run sh last s).output =
      join " " (args.map fun arg => (arg.map (Piece.expand last)).flatten) ++ "\n" := rfl

@[simp] theorem run_echo_status (args : List (List Piece)) (last : Nat) (s : σ) :
    ((ShList.simple (.echo args)).run sh last s).status = 0 := rfl

end Laws

end OpenWrtCopilot.Verified.ShellList
