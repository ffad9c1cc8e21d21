import OpenWrtCopilot.Verified.ShellTemplate
import Mathlib.Data.List.Forall2

/-!
# Running lists of simple commands

The tokens of a command text are read as simple commands between `;`, `&&` and
`||`.  Each of them changes the state and exits with a status, and the operator
before a command says whether it runs after that status.

Words are read without expansions, as if no pattern in them matched a file;
groups, comments apart, and newlines are not read.

## Main results

* `invocations_append` — a list is read command by command.
* `runAll_chain` — a chain of `&&` runs up to its first failing command.
-/

namespace OpenWrtCopilot.Verified.ShellRuns

open Verified.PyText
open Verified.PosixTokens
open Verified.ShellTemplate

/-! ## Reading the tokens -/

/-- A simple command: its words, and its redirections with their operators. -/
structure Invocation where
  words : List Text := []
  redirects : List (Text × Text) := []
  deriving DecidableEq

/-- The text of a word that has no expansion. -/
def wordText : Word → Option Text
  | [] => some []
  | .bare c :: w => if c = '$' then none else (wordText w).map (c :: ·)
  | .literal c :: w => (wordText w).map (c :: ·)
  | .double c :: w => if c = '$' then none else (wordText w).map (c :: ·)
  | .substitution _ :: _ => none

def separatorOf (op : Text) : Option Separator :=
  if op = ";".toList then some .semi
  else if op = "&&".toList then some .andIf
  else if op = "||".toList then some .orIf
  else none

/-- The operators that send the output to a file. -/
def isRedirect (op : Text) : Bool := op = ">".toList || op = ">>".toList

/-- The simple commands of the tokens, each with the operator before it; `current`
is what was read of the command at hand. -/
def invocations (sep : Separator) (current : Invocation) :
    List Token → Option (List (Separator × Invocation))
  | [] => some [(sep, current)]
  | .word w :: rest =>
      match wordText w with
      | some t => invocations sep { current with words := current.words ++ [t] } rest
      | none => none
  | .operator op :: .word w :: rest =>
      match separatorOf op, wordText w with
      | some next, some t => (invocations next { words := [t] } rest).map ((sep, current) :: ·)
      | none, some t =>
          if isRedirect op then
            invocations sep { current with redirects := current.redirects ++ [(op, t)] } rest
          else none
      | _, none => none
  | _ => none

/-! ## Running -/

/-- Whether the command after the operator runs. -/
def runsAfter : Separator → Nat → Bool
  | .semi, _ => true
  | .andIf, status => status = 0
  | .orIf, status => status ≠ 0

variable {σ : Type} (exec : Invocation → σ → σ × Nat)

/-- The commands, one after the other. -/
def runAll : List (Separator × Invocation) → σ × Nat → σ × Nat
  | [], r => r
  | (sep, command) :: rest, (s, status) =>
      runAll rest (if runsAfter sep status then exec command s else (s, status))

/-- A command text: the state and the status it ends with. -/
def runText (text : Text) (s : σ) : Option (σ × Nat) :=
  ((tokens text).bind (invocations .semi {})).map fun list => runAll exec list (s, 0)

@[simp] theorem runAll_semi (command : Invocation) (rest : List (Separator × Invocation))
    (s : σ) (status : Nat) :
    runAll exec ((.semi, command) :: rest) (s, status) = runAll exec rest (exec command s) := rfl

theorem runAll_orIf (command : Invocation) (s : σ) (status : Nat) :
    runAll exec [(.orIf, command)] (s, status) =
      if status = 0 then (s, status) else exec command s := by
  show (if decide (status ≠ 0) = true then exec command s else (s, status)) = _
  by_cases h : status = 0 <;> simp [h]

theorem runAll_append (first rest : List (Separator × Invocation)) (r : σ × Nat) :
    runAll exec (first ++ rest) r = runAll exec rest (runAll exec first r) := by
  induction first generalizing r with
  | nil => rfl
  | cons item first ih =>
    obtain ⟨sep, command⟩ := item
    exact ih _

/-- The commands up to the first that fails. -/
def runChain : List Invocation → σ → σ × Nat
  | [], s => (s, 0)
  | command :: rest, s =>
      if (exec command s).2 = 0 then runChain rest (exec command s).1 else exec command s

/-- After a failure a chain of `&&` does nothing. -/
theorem runAll_andIf_of_failed (commands : List Invocation) (s : σ) {status : Nat}
    (h : status ≠ 0) :
    runAll exec (commands.map ((Separator.andIf, ·))) (s, status) = (s, status) := by
  induction commands with
  | nil => rfl
  | cons command commands ih =>
    have hskip : runsAfter .andIf status = false := decide_eq_false h
    rw [List.map_cons, runAll, hskip, if_neg Bool.false_ne_true, ih]

theorem runAll_andIf (commands : List Invocation) (s : σ) :
    runAll exec (commands.map ((Separator.andIf, ·))) (s, 0) = runChain exec commands s := by
  induction commands generalizing s with
  | nil => rfl
  | cons command commands ih =>
    rw [List.map_cons, runAll, show runsAfter .andIf 0 = true from rfl, if_pos rfl, runChain]
    by_cases h : (exec command s).2 = 0
    · rw [if_pos h, ← ih (exec command s).1]
      exact congrArg (runAll exec _) (Prod.ext rfl h)
    · rw [if_neg h]
      exact runAll_andIf_of_failed exec commands (exec command s).1 h

/-- What a chain is read as after an operator. -/
def chainedAfter (sep : Separator) : List Invocation → List (Separator × Invocation)
  | [] => []
  | command :: rest => (sep, command) :: rest.map ((Separator.andIf, ·))

/-- **A chain of `&&` runs up to its first failing command.** -/
theorem runAll_chain (commands : List Invocation) (s : σ) :
    runAll exec (chainedAfter .semi commands) (s, 0) = runChain exec commands s := by
  cases commands with
  | nil => rfl
  | cons command commands =>
    have hfirst := runAll_andIf exec (command :: commands) s
    rwa [List.map_cons, runAll] at hfirst

/-! ## What a chain does -/

theorem runChain_append (first rest : List Invocation) (s : σ) :
    runChain exec (first ++ rest) s =
      if (runChain exec first s).2 = 0 then runChain exec rest (runChain exec first s).1
      else runChain exec first s := by
  induction first generalizing s with
  | nil => rfl
  | cons command first ih =>
    rw [List.cons_append, runChain, runChain]
    by_cases h : (exec command s).2 = 0
    · rw [if_pos h, if_pos h, ih]
    · rw [if_neg h, if_neg h, if_neg h]

/-! ## The tokens of templates -/

theorem wordText_literal (t : Text) : wordText (t.map .literal) = some t := by
  induction t with
  | nil => rfl
  | cons c t ih => rw [List.map_cons, wordText, ih, Option.map_some]

theorem wordText_bare {t : Text} (h : '$' ∉ t) : wordText (t.map .bare) = some t := by
  induction t with
  | nil => rfl
  | cons c t ih =>
    have hc : c ≠ '$' := fun heq => h (heq ▸ List.mem_cons_self)
    have ht : '$' ∉ t := fun hmem => h (List.mem_cons_of_mem c hmem)
    rw [List.map_cons, wordText, if_neg hc, ih ht, Option.map_some]

theorem wordText_append {a b : Word} {t u : Text} (ha : wordText a = some t)
    (hb : wordText b = some u) : wordText (a ++ b) = some (t ++ u) := by
  induction a generalizing t with
  | nil =>
    obtain rfl := Option.some.inj ha
    exact hb
  | cons c a ih =>
    cases c with
    | bare c =>
      rw [wordText] at ha
      split at ha
      · cases ha
      · rename_i hc
        obtain ⟨v, hv, rfl⟩ := Option.map_eq_some_iff.mp ha
        rw [List.cons_append, wordText, if_neg hc, ih hv]
        rfl
    | literal c =>
      obtain ⟨v, hv, rfl⟩ := Option.map_eq_some_iff.mp ha
      rw [List.cons_append, wordText, ih hv]
      rfl
    | double c =>
      rw [wordText] at ha
      split at ha
      · cases ha
      · rename_i hc
        obtain ⟨v, hv, rfl⟩ := Option.map_eq_some_iff.mp ha
        rw [List.cons_append, wordText, if_neg hc, ih hv]
        rfl
    | substitution text => cases ha

theorem separatorOf_token (sep : Separator) {op : Text} (h : sep.token = .operator op) :
    separatorOf op = some sep := by
  cases sep <;> (obtain rfl := Token.operator.inj h; rfl)

/-- **A list is read command by command.** -/
theorem invocations_append {sep : Separator} {current : Invocation} {ts : List Token}
    {list : List (Separator × Invocation)} (h : invocations sep current ts = some list)
    (next : Separator) (w : Word) (us : List Token) :
    invocations sep current (ts ++ next.token :: .word w :: us) =
      (invocations next {} (.word w :: us)).map (list ++ ·) := by
  obtain ⟨op, hop⟩ : ∃ op, next.token = .operator op := by cases next <;> exact ⟨_, rfl⟩
  have hsep := separatorOf_token next hop
  rw [hop]
  induction sep, current, ts using invocations.induct generalizing list with
  | case1 sep current =>
    obtain rfl := Option.some.inj h
    rw [List.nil_append, invocations, invocations, hsep]
    cases wordText w with
    | none => rfl
    | some t => rfl
  | case2 sep current v rest t hv ih =>
    simp only [invocations, hv] at h
    rw [List.cons_append, invocations, hv]
    exact ih h
  | case3 sep current v rest hv =>
    simp only [invocations, hv] at h
    cases h
  | case4 sep current op' v rest next' t hv hnext ih =>
    simp only [invocations, hv, hnext] at h
    obtain ⟨list', hlist, rfl⟩ := Option.map_eq_some_iff.mp h
    conv_lhs => rw [List.cons_append, List.cons_append, invocations, hv, hnext]
    show (invocations next' { words := [t] } (rest ++ .operator op :: .word w :: us)).map _ = _
    rw [ih hlist, Option.map_map]
    rfl
  | case5 sep current op' v rest t hv hnext hredirect ih =>
    simp only [invocations, hv, hnext, hredirect, if_true] at h
    conv_lhs => rw [List.cons_append, List.cons_append, invocations, hv, hnext]
    simp only [hredirect, if_true]
    exact ih h
  | case6 sep current op' v rest t hv hnext hredirect =>
    simp only [invocations, hv, hnext, hredirect, Bool.false_eq_true, if_false] at h
    cases h
  | case7 sep current op' v rest hv =>
    simp only [invocations, hv] at h
    cases h
  | case8 ts sep current hnil hword hoperator =>
    rw [invocations] at h
    · cases h
    · exact hnil
    · exact hword
    · exact hoperator

/-- The command is read as the invocation, wherever it stands. -/
def ReadAs {ν : Type} (values : ν → Text) (c : SimpleCommand ν) (i : Invocation) : Prop :=
  ∀ sep, invocations sep {} (c.tokens values) = some [(sep, i)]

theorem invocations_words {ws : List Word} {texts : List Text}
    (h : List.Forall₂ (fun w t => wordText w = some t) ws texts) (sep : Separator)
    (current : Invocation) (rest : List Token) :
    invocations sep current (ws.map .word ++ rest) =
      invocations sep { current with words := current.words ++ texts } rest := by
  induction h generalizing current with
  | nil => rw [List.map_nil, List.nil_append, List.append_nil]
  | @cons w t ws texts hw _ ih =>
    rw [List.map_cons, List.cons_append, invocations, hw]
    show invocations sep { current with words := current.words ++ [t] } _ = _
    rw [ih, List.append_assoc, List.singleton_append]

/-- A command without redirection. -/
theorem readAs_plain {ν : Type} {values : ν → Text} {c : SimpleCommand ν} {texts : List Text}
    (h : List.Forall₂ (fun w t => wordText (w.word values) = some t) (c.name :: c.args) texts)
    (hredirect : c.redirect = none) : ReadAs values c { words := texts } := by
  intro sep
  have hwords : List.Forall₂ (fun w t => wordText w = some t)
      ((c.name :: c.args).map (WordTemplate.word values)) texts := List.forall₂_map_left_iff.mpr h
  have hread := invocations_words hwords sep {} []
  rw [List.map_map] at hread
  rw [SimpleCommand.tokens, hredirect]
  exact hread

/-- A command whose output goes to a file. -/
theorem readAs_output {ν : Type} {values : ν → Text} {c : SimpleCommand ν} {texts : List Text}
    {file : Text} {plain : PlainText file}
    (h : List.Forall₂ (fun w t => wordText (w.word values) = some t) (c.name :: c.args) texts)
    (hredirect : c.redirect = some (.output file plain)) (hfile : '$' ∉ file) :
    ReadAs values c { words := texts, redirects := [(">", file)] } := by
  intro sep
  have hwords : List.Forall₂ (fun w t => wordText w = some t)
      ((c.name :: c.args).map (WordTemplate.word values)) texts := List.forall₂_map_left_iff.mpr h
  have hread := invocations_words hwords sep {} [.operator ">", .word (file.map .bare)]
  rw [List.map_map] at hread
  rw [SimpleCommand.tokens, hredirect]
  refine hread.trans ?_
  have hoperator : separatorOf ">".toList = none ∧ isRedirect ">".toList = true := by decide
  simp only [invocations, hoperator.1, hoperator.2, wordText_bare hfile, if_true]
  rfl

/-- **A chain of `&&` is read as the chain of its commands.** -/
theorem invocations_andAll {ν : Type} {values : ν → Text} {init : List (SimpleCommand ν)}
    {last : SimpleCommand ν} {commands : List Invocation} {final : Invocation}
    (hinit : List.Forall₂ (ReadAs values) init commands) (hlast : ReadAs values last final)
    (sep : Separator) :
    invocations sep {} ((Script.andAll init last).tokens values) =
      some (chainedAfter sep (commands ++ [final])) := by
  induction hinit generalizing sep with
  | nil => exact hlast sep
  | @cons c i init commands hc _ ih =>
    obtain ⟨w, us, hstart⟩ : ∃ w us, (Script.andAll init last).tokens values =
        .word w :: us := by
      cases init with
      | nil => exact ⟨_, _, rfl⟩
      | cons c init => exact ⟨_, _, rfl⟩
    have hrest := ih .andIf
    rw [Script.andAll, Script.tokens, Script.tokens, List.append_assoc, List.singleton_append,
      hstart, invocations_append (hc sep) .andIf w us, ← hstart, hrest]
    cases commands with
    | nil => rfl
    | cons d commands => rfl

/-- A template with every value quoted is run as the commands it means. -/
theorem runText_render {ν : Type} {values : ν → Text} {s : Script ν} (hbare : s.bareValues = [])
    {list : List (Separator × Invocation)}
    (hlist : invocations .semi {} (s.tokens values) = some list) (st : σ) :
    runText exec (s.render values) st = some (runAll exec list (st, 0)) := by
  have htokens : tokens (s.render values) = some (s.tokens values) := by
    refine (s.tokens_render_iff values ?_).mpr ?_
    · rw [hbare]
      nofun
    · rw [hbare]
      nofun
  rw [runText, htokens, Option.bind_some, hlist, Option.map_some]

end OpenWrtCopilot.Verified.ShellRuns
