import OpenWrtCopilot.Verified.PosixTokens

/-!
# Shell command templates

A program that builds shell commands splices values into a fixed list of simple
commands.  A template is that list with its holes: the words of its commands
are made of fixed text and of values, some interpolated as they are and some
between single quotes.  `render` is the text the program builds, `tokens` the
tokens it means to send: the same fixed operators and words, each value inside
the word that holds it.

## Main results

* `Script.spells` — when every value interpolated as it is holds plain
  characters only, the shell reads the tokens the template means.
* `Script.breaks` — a value that ends in a newline and is not quoted ends a
  command.
* `Script.tokens_render_iff` — the shell reads the tokens the template means
  exactly when no unquoted value ends in a newline.
-/

namespace OpenWrtCopilot.Verified.ShellTemplate

open Verified.PyText
open Verified.PosixTokens

variable {ν : Type}

/-! ## Templates -/

/-- A part of a word, or the parts side by side. Values are named by `ν`. -/
inductive WordTemplate (ν : Type)
  | bare (text : Text) (plain : PlainText text)
  /-- `$name`. -/
  | parameter (name : Text) (valid : NameText name)
  /-- `"$name"`. -/
  | doubleParameter (name : Text) (valid : NameText name)
  /-- `$(text)`. -/
  | substitution (text : Text) (valid : ∀ c ∈ text, isCommandChar c = true)
  /-- A fixed text between single quotes. -/
  | quoted (text : Text)
  /-- A value, interpolated as it is. -/
  | value (v : ν)
  /-- A value between single quotes. -/
  | quotedValue (v : ν)
  | append (a b : WordTemplate ν)

instance : Append (WordTemplate ν) := ⟨.append⟩

/-- Where a command's output goes. -/
inductive Redirect
  /-- `2>file`. -/
  | errors (file : Text) (plain : PlainText file)
  /-- `> file`. -/
  | output (file : Text) (plain : PlainText file)
  /-- `>> file`. -/
  | appendTo (file : Text) (plain : PlainText file)

/-- A simple command: its words, and one redirection at most. -/
structure SimpleCommand (ν : Type) where
  name : WordTemplate ν
  args : List (WordTemplate ν) := []
  redirect : Option Redirect := none

/-- The operators between commands. -/
inductive Separator
  | semi
  | andIf
  | orIf

/-- A list of simple commands; a group is `( body ) 2>&1`. -/
inductive Script (ν : Type)
  | command (c : SimpleCommand ν)
  | list (first : Script ν) (sep : Separator) (rest : Script ν)
  | group (body : Script ν)

/-- The commands of `init`, each followed by `&&`, and then `last`. -/
def Script.andAll : List (SimpleCommand ν) → SimpleCommand ν → Script ν
  | [], last => .command last
  | c :: init, last => .list (.command c) .andIf (Script.andAll init last)

/-! ## Their text -/

@[simp] def WordTemplate.render (values : ν → Text) : WordTemplate ν → Text
  | .bare text _ => text
  | .parameter name _ => "$" ++ name
  | .doubleParameter name _ => "\"$" ++ name ++ "\""
  | .substitution text _ => "$(" ++ text ++ ")"
  | .quoted text => quote text
  | .value v => values v
  | .quotedValue v => quote (values v)
  | .append a b => a.render values ++ b.render values

@[simp] theorem WordTemplate.render_append (values : ν → Text) (a b : WordTemplate ν) :
    (a ++ b).render values = a.render values ++ b.render values := rfl

def Redirect.render : Redirect → Text
  | .errors file _ => " 2>" ++ file
  | .output file _ => " > " ++ file
  | .appendTo file _ => " >> " ++ file

@[simp] theorem Redirect.render_errors (file : Text) (plain : PlainText file) :
    (Redirect.errors file plain).render = " 2>" ++ file := by
  rfl

@[simp] theorem Redirect.render_output (file : Text) (plain : PlainText file) :
    (Redirect.output file plain).render = " > " ++ file := by
  rfl

@[simp] theorem Redirect.render_appendTo (file : Text) (plain : PlainText file) :
    (Redirect.appendTo file plain).render = " >> " ++ file := by
  rfl

/-- The words of a command, each after a blank. -/
@[simp] def renderArgs (values : ν → Text) (args : List (WordTemplate ν)) : Text :=
  args.flatMap fun w => " " ++ w.render values

@[simp] def SimpleCommand.render (values : ν → Text) (c : SimpleCommand ν) : Text :=
  c.name.render values ++ renderArgs values c.args ++
    ((c.redirect.map Redirect.render).getD [])

def Separator.render : Separator → Text
  | .semi => "; "
  | .andIf => " && "
  | .orIf => " || "

@[simp] theorem Separator.render_semi : Separator.semi.render = "; ".toList := by
  rfl

@[simp] theorem Separator.render_andIf : Separator.andIf.render = " && ".toList := by
  rfl

@[simp] theorem Separator.render_orIf : Separator.orIf.render = " || ".toList := by
  rfl

@[simp] def Script.render (values : ν → Text) : Script ν → Text
  | .command c => c.render values
  | .list first sep rest => first.render values ++ sep.render ++ rest.render values
  | .group body => "( " ++ body.render values ++ " ) 2>&1"

@[simp] theorem Script.render_andAll (values : ν → Text) (init : List (SimpleCommand ν))
    (last : SimpleCommand ν) :
    (Script.andAll init last).render values =
      join " && " (init.map (·.render values) ++ [last.render values]) := by
  induction init with
  | nil => rw [List.map_nil, List.nil_append, join_singleton, andAll, render]
  | cons c init ih =>
    have hne : init.map (·.render values) ++ [last.render values] ≠ [] := by simp
    have hjoin := join_cons_of_ne_nil " && " (c.render values) hne
    rw [andAll, render, ih]
    exact hjoin.symm

/-! ## Their tokens -/

/-- The word a template means. -/
def WordTemplate.word (values : ν → Text) : WordTemplate ν → Word
  | .bare text _ => text.map .bare
  | .parameter name _ => .bare '$' :: name.map .bare
  | .doubleParameter name _ => .double '$' :: name.map .double
  | .substitution text _ => [.substitution text]
  | .quoted text => text.map .literal
  | .value v => (values v).map .bare
  | .quotedValue v => (values v).map .literal
  | .append a b => a.word values ++ b.word values

def Redirect.tokens : Redirect → List Token
  | .errors file _ => [.ioNumber [.bare '2'], .operator ">", .word (file.map .bare)]
  | .output file _ => [.operator ">", .word (file.map .bare)]
  | .appendTo file _ => [.operator ">>", .word (file.map .bare)]

def SimpleCommand.tokens (values : ν → Text) (c : SimpleCommand ν) : List Token :=
  (c.name :: c.args).map (fun w => .word (w.word values)) ++
    ((c.redirect.map Redirect.tokens).getD [])

def Separator.token : Separator → Token
  | .semi => .operator ";"
  | .andIf => .operator "&&"
  | .orIf => .operator "||"

def Script.tokens (values : ν → Text) : Script ν → List Token
  | .command c => c.tokens values
  | .list first sep rest => first.tokens values ++ [sep.token] ++ rest.tokens values
  | .group body =>
      .operator "(" :: body.tokens values ++
        [.operator ")", .ioNumber [.bare '2'], .operator ">&", .word [.bare '1']]

/-- A template means no newline. -/
theorem Script.newline_notMem_tokens (values : ν → Text) (s : Script ν) :
    .newline ∉ s.tokens values := by
  induction s with
  | command c =>
    intro h
    rw [tokens, SimpleCommand.tokens, List.mem_append] at h
    rcases h with h | h
    · obtain ⟨w, _, hw⟩ := List.mem_map.mp h
      cases hw
    · cases hr : c.redirect with
      | none =>
        rw [hr] at h
        cases h
      | some r =>
        rw [hr] at h
        cases r <;> simp [Redirect.tokens] at h
  | list first sep rest ih₁ ih₂ =>
    have hsep : .newline ≠ sep.token := by cases sep <;> exact fun h => by cases h
    rw [tokens]
    simp only [List.mem_append, List.mem_singleton, not_or]
    exact ⟨⟨ih₁, hsep⟩, ih₂⟩
  | group body ih => simpa [tokens] using ih

/-! ## The values interpolated as they are -/

def WordTemplate.bareValues : WordTemplate ν → List ν
  | .value v => [v]
  | .append a b => a.bareValues ++ b.bareValues
  | _ => []

def SimpleCommand.bareValues (c : SimpleCommand ν) : List ν :=
  c.name.bareValues ++ c.args.flatMap WordTemplate.bareValues

def Script.bareValues : Script ν → List ν
  | .command c => c.bareValues
  | .list first _ rest => first.bareValues ++ rest.bareValues
  | .group body => body.bareValues

theorem Script.bareValues_andAll (init : List (SimpleCommand ν)) (last : SimpleCommand ν) :
    (Script.andAll init last).bareValues =
      init.flatMap SimpleCommand.bareValues ++ last.bareValues := by
  induction init with
  | nil => rfl
  | cons c init ih =>
    rw [andAll, bareValues, ih, List.flatMap_cons, List.append_assoc]
    rfl

/-- Plain characters, with at most one newline after them. -/
def PlainLine (t : Text) : Prop := ∃ body, PlainText body ∧ (t = body ∨ t = body ++ ['\n'])

theorem isPlain_newline : isPlain '\n' = false := by decide

theorem PlainLine.plainText {t : Text} (h : PlainLine t) (hlast : t.getLast? ≠ some '\n') :
    PlainText t := by
  obtain ⟨body, hbody, rfl | rfl⟩ := h
  · exact hbody
  · exact absurd List.getLast?_concat hlast

theorem PlainLine.breaks {t : Text} (h : PlainLine t) (hlast : t.getLast? = some '\n')
    (w : Option Word) : BreaksFrom (.plain w) t := by
  obtain ⟨body, hbody, rfl | rfl⟩ := h
  · obtain ⟨init, rfl⟩ := List.getLast?_eq_some_iff.mp hlast
    have hnewline := hbody.2 '\n' (List.mem_append_right init List.mem_cons_self)
    rw [isPlain_newline] at hnewline
    cases hnewline
  · exact BreaksFrom.after (Reads.bare hbody w) (BreaksFrom.newline _ [])

/-! ## Words -/

theorem WordTemplate.reads (values : ν → Text) (t : WordTemplate ν)
    (h : ∀ v ∈ t.bareValues, PlainText (values v)) (w : Option Word) :
    Reads (.plain w) (t.render values) [] (.plain (some (w.getD [] ++ t.word values))) := by
  induction t generalizing w with
  | bare text plain => exact Reads.bare plain w
  | parameter name valid => exact Reads.parameter valid w
  | doubleParameter name valid => exact Reads.doubleParameter valid w
  | substitution text valid => exact Reads.substitution valid w
  | quoted text => exact Reads.quote text w
  | value v => exact Reads.bare (h v List.mem_cons_self) w
  | quotedValue v => exact Reads.quote (values v) w
  | append a b iha ihb =>
    have ha := iha (fun v hv => h v (List.mem_append_left b.bareValues hv)) w
    have hb := ihb (fun v hv => h v (List.mem_append_right a.bareValues hv))
      (some (w.getD [] ++ a.word values))
    rw [Option.getD_some, List.append_assoc] at hb
    exact Reads.append ha hb

theorem WordTemplate.breaks (values : ν → Text) (t : WordTemplate ν)
    (h : ∀ v ∈ t.bareValues, PlainLine (values v))
    (hbad : ∃ v ∈ t.bareValues, (values v).getLast? = some '\n') (w : Option Word) :
    BreaksFrom (.plain w) (t.render values) := by
  induction t generalizing w with
  | value v =>
    obtain ⟨u, hu, hlast⟩ := hbad
    obtain rfl := List.mem_singleton.mp hu
    exact (h u hu).breaks hlast w
  | append a b iha ihb =>
    have ha : ∀ v ∈ a.bareValues, PlainLine (values v) :=
      fun v hv => h v (List.mem_append_left b.bareValues hv)
    have hb : ∀ v ∈ b.bareValues, PlainLine (values v) :=
      fun v hv => h v (List.mem_append_right a.bareValues hv)
    by_cases hfirst : ∃ v ∈ a.bareValues, (values v).getLast? = some '\n'
    · exact (iha ha hfirst w).append (b.render values)
    · have hread := a.reads values
        (fun v hv => (ha v hv).plainText fun hlast => hfirst ⟨v, hv, hlast⟩) w
      obtain ⟨v, hv, hlast⟩ := hbad
      rcases List.mem_append.mp hv with hv | hv
      · exact absurd ⟨v, hv, hlast⟩ hfirst
      · exact BreaksFrom.after hread (ihb hb ⟨v, hv, hlast⟩ _)
  | bare | parameter | doubleParameter | substitution | quoted | quotedValue =>
    obtain ⟨v, hv, _⟩ := hbad
    cases hv

/-! ## Commands -/

/-- A further word after a blank. -/
theorem Spells.arg {a b : Text} {ts : List Token} {w : Word} (ha : Spells a ts)
    (hb : Spells b [.word w]) : Spells (a ++ " " ++ b) (ts ++ [Token.word w]) := by
  have hblank : ∀ w₀ : Word, Reads (.plain (some w₀)) " " [.word w₀] (.plain none) :=
    fun _ => rfl
  have h := Spells.append ha hblank hb
  rwa [List.append_nil] at h

/-- A plain file name right after the `2>` that redirects to it. -/
theorem Reads.errorsFile {file : Text} (hfile : PlainText file) :
    Reads (.operator '>') file [.operator ">"] (.plain (some (file.map .bare))) := by
  obtain ⟨hne, hplain⟩ := hfile
  cases file with
  | nil => exact absurd rfl hne
  | cons c file =>
    have hc : isPlain c = true := hplain c List.mem_cons_self
    have hrest : ∀ d ∈ file, isPlain d = true :=
      fun d hd => hplain d (List.mem_cons_of_mem c hd)
    have hpair : isOperatorPair '>' c = false := by
      have hne : ∀ d, isPlain d = false → c ≠ d := fun d hd h => by simp [h, hd] at hc
      have hgreat := hne '>' (by decide)
      have hamp := hne '&' (by decide)
      have hbar := hne '|' (by decide)
      simp [isOperatorPair, hgreat, hamp, hbar]
    have hstep : step (.operator '>') c = some ([.operator ">"], .plain (some [.bare c])) := by
      rw [step, hpair, if_neg Bool.false_ne_true, stepPlain_of_isPlain none hc]
      rfl
    exact Reads.cons hstep (Reads.bareFrom hrest [.bare c])

theorem Redirect.spells {a : Text} {ts : List Token} (ha : Spells a ts) (r : Redirect) :
    Spells (a ++ r.render) (ts ++ r.tokens) := by
  have hfile : ∀ {file : Text}, PlainText file → Spells file [.word (file.map .bare)] :=
    fun h => Spells.word (Reads.bare h)
  cases r with
  | errors file plain =>
    obtain ⟨before, w, hread, rfl⟩ := ha
    have hnumber : Reads (.plain (some w)) " 2>" [.word w, .ioNumber [.bare '2']]
        (.operator '>') := rfl
    refine ⟨before ++ [Token.word w, .ioNumber [.bare '2']] ++ [Token.operator ">"],
      file.map .bare, ?_, ?_⟩
    · rw [Redirect.render_errors, ← List.append_assoc]
      exact Reads.append (Reads.append hread hnumber) (Reads.errorsFile plain)
    · simp only [Redirect.tokens, List.append_assoc, List.cons_append, List.nil_append]
  | output file plain =>
    have hmid : ∀ w : Word, Reads (.plain (some w)) " > " [.word w, .operator ">"]
        (.plain none) := fun _ => rfl
    have h := Spells.append ha hmid (hfile plain)
    rwa [List.append_assoc, List.append_assoc] at h
  | appendTo file plain =>
    have hmid : ∀ w : Word, Reads (.plain (some w)) " >> " [.word w, .operator ">>"]
        (.plain none) := fun _ => rfl
    have h := Spells.append ha hmid (hfile plain)
    rwa [List.append_assoc, List.append_assoc] at h

theorem spells_args (values : ν → Text) {args : List (WordTemplate ν)}
    (h : ∀ v ∈ args.flatMap WordTemplate.bareValues, PlainText (values v)) {a : Text}
    {ts : List Token} (ha : Spells a ts) :
    Spells (a ++ renderArgs values args)
      (ts ++ args.map fun w => .word (w.word values)) := by
  induction args generalizing a ts with
  | nil => simpa [renderArgs] using ha
  | cons w args ih =>
    have hw : ∀ v ∈ w.bareValues, PlainText (values v) := fun v hv =>
      h v (List.mem_flatMap.mpr ⟨w, List.mem_cons_self, hv⟩)
    have hargs : ∀ v ∈ args.flatMap WordTemplate.bareValues, PlainText (values v) := by
      intro v hv
      obtain ⟨u, hu, hvu⟩ := List.mem_flatMap.mp hv
      exact h v (List.mem_flatMap.mpr ⟨u, List.mem_cons_of_mem w hu, hvu⟩)
    have hnext := ih hargs (Spells.arg ha (Spells.word (w.reads values hw)))
    simpa only [renderArgs, List.flatMap_cons, List.map_cons, List.append_assoc,
      List.cons_append, List.nil_append] using hnext

theorem SimpleCommand.spells (values : ν → Text) (c : SimpleCommand ν)
    (h : ∀ v ∈ c.bareValues, PlainText (values v)) :
    Spells (c.render values) (c.tokens values) := by
  have hname : Spells (c.name.render values) [.word (c.name.word values)] :=
    Spells.word (c.name.reads values fun v hv => h v (List.mem_append_left _ hv))
  have hargs := spells_args values (fun v hv => h v (List.mem_append_right _ hv)) hname
  rw [SimpleCommand.render, SimpleCommand.tokens]
  cases c.redirect with
  | none => simpa using hargs
  | some r => exact Redirect.spells hargs r

theorem breaks_args (values : ν → Text) {args : List (WordTemplate ν)}
    (h : ∀ v ∈ args.flatMap WordTemplate.bareValues, PlainLine (values v))
    (hbad : ∃ v ∈ args.flatMap WordTemplate.bareValues, (values v).getLast? = some '\n')
    (w : Word) : BreaksFrom (.plain (some w)) (renderArgs values args) := by
  induction args generalizing w with
  | nil =>
    obtain ⟨v, hv, _⟩ := hbad
    cases hv
  | cons a args ih =>
    have ha : ∀ v ∈ a.bareValues, PlainLine (values v) := fun v hv =>
      h v (List.mem_flatMap.mpr ⟨a, List.mem_cons_self, hv⟩)
    have hargs : ∀ v ∈ args.flatMap WordTemplate.bareValues, PlainLine (values v) := by
      intro v hv
      obtain ⟨u, hu, hvu⟩ := List.mem_flatMap.mp hv
      exact h v (List.mem_flatMap.mpr ⟨u, List.mem_cons_of_mem a hu, hvu⟩)
    have hblank : Reads (.plain (some w)) " " [.word w] (.plain none) := rfl
    rw [renderArgs, List.flatMap_cons, List.append_assoc]
    refine BreaksFrom.after hblank ?_
    by_cases hfirst : ∃ v ∈ a.bareValues, (values v).getLast? = some '\n'
    · exact (a.breaks values ha hfirst none).append _
    · have hread := a.reads values
        (fun v hv => (ha v hv).plainText fun hlast => hfirst ⟨v, hv, hlast⟩) none
      refine BreaksFrom.after hread (ih hargs ?_ _)
      obtain ⟨v, hv, hlast⟩ := hbad
      rw [List.flatMap_cons, List.mem_append] at hv
      rcases hv with hv | hv
      · exact absurd ⟨v, hv, hlast⟩ hfirst
      · exact ⟨v, hv, hlast⟩

theorem SimpleCommand.breaks (values : ν → Text) (c : SimpleCommand ν)
    (h : ∀ v ∈ c.bareValues, PlainLine (values v))
    (hbad : ∃ v ∈ c.bareValues, (values v).getLast? = some '\n') :
    BreaksFrom (.plain none) (c.render values) := by
  have hname : ∀ v ∈ c.name.bareValues, PlainLine (values v) :=
    fun v hv => h v (List.mem_append_left _ hv)
  have hargs : ∀ v ∈ c.args.flatMap WordTemplate.bareValues, PlainLine (values v) :=
    fun v hv => h v (List.mem_append_right _ hv)
  rw [SimpleCommand.render]
  refine BreaksFrom.append ?_ _
  by_cases hfirst : ∃ v ∈ c.name.bareValues, (values v).getLast? = some '\n'
  · exact (c.name.breaks values hname hfirst none).append _
  · have hread := c.name.reads values
      (fun v hv => (hname v hv).plainText fun hlast => hfirst ⟨v, hv, hlast⟩) none
    refine BreaksFrom.after hread (breaks_args values hargs ?_ _)
    obtain ⟨v, hv, hlast⟩ := hbad
    rcases List.mem_append.mp hv with hv | hv
    · exact absurd ⟨v, hv, hlast⟩ hfirst
    · exact ⟨v, hv, hlast⟩

/-! ## Scripts -/

/-- A separator ends the word before it and leaves the scanner in a gap. -/
theorem Separator.reads (sep : Separator) (w : Word) :
    Reads (.plain (some w)) sep.render [.word w, sep.token] (.plain none) := by
  cases sep <;> rfl

/-- What opens a group. -/
theorem reads_groupOpen : Reads (.plain none) "( " [.operator "("] (.plain none) := rfl

/--
**The tokens a template means are the tokens the shell reads**, as long as the
values interpolated as they are hold plain characters only.
-/
theorem Script.spells (values : ν → Text) (s : Script ν)
    (h : ∀ v ∈ s.bareValues, PlainText (values v)) :
    Spells (s.render values) (s.tokens values) := by
  induction s with
  | command c => exact c.spells values h
  | list first sep rest ih₁ ih₂ =>
    have hfirst := ih₁ fun v hv => h v (List.mem_append_left _ hv)
    have hrest := ih₂ fun v hv => h v (List.mem_append_right _ hv)
    exact Spells.append hfirst sep.reads hrest
  | group body ih =>
    obtain ⟨before, w, hread, htokens⟩ := ih h
    have hclose : Reads (.plain (some w)) " ) 2>&1"
        [.word w, .operator ")", .ioNumber [.bare '2'], .operator ">&"]
        (.plain (some [.bare '1'])) := rfl
    refine ⟨_, _, Reads.append (Reads.append reads_groupOpen hread) hclose, ?_⟩
    rw [Script.tokens, htokens]
    simp only [List.append_assoc, List.cons_append, List.nil_append]

/-- An unquoted value that ends in a newline ends the command it stands in. -/
theorem Script.breaks (values : ν → Text) (s : Script ν)
    (h : ∀ v ∈ s.bareValues, PlainLine (values v))
    (hbad : ∃ v ∈ s.bareValues, (values v).getLast? = some '\n') :
    BreaksFrom (.plain none) (s.render values) := by
  induction s with
  | command c => exact c.breaks values h hbad
  | list first sep rest ih₁ ih₂ =>
    have hfirst : ∀ v ∈ first.bareValues, PlainLine (values v) :=
      fun v hv => h v (List.mem_append_left _ hv)
    have hrest : ∀ v ∈ rest.bareValues, PlainLine (values v) :=
      fun v hv => h v (List.mem_append_right _ hv)
    rw [Script.render, List.append_assoc]
    by_cases hbreak : ∃ v ∈ first.bareValues, (values v).getLast? = some '\n'
    · exact (ih₁ hfirst hbreak).append _
    · obtain ⟨before, w, hread, _⟩ := first.spells values
        fun v hv => (hfirst v hv).plainText fun hlast => hbreak ⟨v, hv, hlast⟩
      refine BreaksFrom.after hread (BreaksFrom.after (sep.reads w) (ih₂ hrest ?_))
      obtain ⟨v, hv, hlast⟩ := hbad
      rcases List.mem_append.mp hv with hv | hv
      · exact absurd ⟨v, hv, hlast⟩ hbreak
      · exact ⟨v, hv, hlast⟩
  | group body ih =>
    rw [Script.render, List.append_assoc]
    exact BreaksFrom.after reads_groupOpen ((ih h hbad).append _)

/--
**The shell reads the template exactly when no unquoted value ends in a
newline.**

The values interpolated as they are hold plain characters, possibly with a
newline after them; the quoted ones are arbitrary.
-/
theorem Script.tokens_render_iff (values : ν → Text) (s : Script ν)
    (h : ∀ v ∈ s.bareValues, PlainLine (values v)) :
    PosixTokens.tokens (s.render values) = some (s.tokens values) ↔
      ∀ v ∈ s.bareValues, (values v).getLast? ≠ some '\n' := by
  constructor
  · intro htokens v hv hlast
    have hbreak := s.breaks values h ⟨v, hv, hlast⟩
    exact s.newline_notMem_tokens values (hbreak.mem_tokens htokens)
  · intro hquiet
    exact (s.spells values fun v hv => (h v hv).plainText (hquiet v hv)).tokens

end OpenWrtCopilot.Verified.ShellTemplate
