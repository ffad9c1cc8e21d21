import OpenWrtCopilot.Verified.ShellRuns
import OpenWrtCopilot.Ports.ManagementQuoting

/-!
# The system settings of a router

The script of `system_set_config` on a router whose `uci` keeps changes apart until
they are committed, and where any of the commands may fail.  The script is a chain
of `&&` that ends in `|| true`, so it stops at the first failure and still exits with
zero.

## Main results

* `truthful_iff` — when `ok` says whether the settings were committed.
-/

namespace OpenWrtCopilot.Ports.SystemSettings

open Verified
open Verified.PyText
open Verified.PosixTokens
open Verified.ShellList (RemoteShell)
open Verified.ShellTemplate
open Verified.ShellRuns
open Ports.Management

/-! ## The router -/

/-- The options of `system.@system[0]`, as committed and with the changes made since;
and the host name of the kernel. -/
structure SystemState where
  committed : Text → Option Text
  current : Text → Option Text
  kernelHostname : Text

def systemPath : Text := "system.@system[0]."

/-- `uci set <path>=<value>`, on the options of the system section. -/
def uciSet (argument : Text) (s : SystemState) : Option SystemState :=
  match splitFirst '=' argument with
  | (path, some value) =>
      if startsWith systemPath path then
        some { s with current := Function.update s.current (path.drop systemPath.length) (some value) }
      else none
  | _ => none

/-- `uci delete <path>`, which fails where there is nothing to delete. -/
def uciDelete (path : Text) (s : SystemState) : Option SystemState :=
  let option := path.drop systemPath.length
  if startsWith systemPath path = true ∧ (s.current option).isSome = true then
    some { s with current := Function.update s.current option none }
  else none

/-- The commands of the script; `none` for one that fails. -/
def systemCommand (command : Invocation) (s : SystemState) : Option SystemState :=
  match command.words, command.redirects with
  | [name, verb, argument], [] =>
      if name = "uci".toList then
        if verb = "set".toList then uciSet argument s
        else if verb = "delete".toList then uciDelete argument s
        else if verb = "commit".toList ∧ argument = "system".toList then
          some { s with committed := s.current }
        else none
      else none
  | [name, value], [redirect] =>
      if name = "echo".toList ∧ redirect = (">".toList, "/proc/sys/kernel/hostname".toList) then
        some { s with kernelHostname := value }
      else none
  | [name, action], [] =>
      if name = "/etc/init.d/sysntpd".toList ∧ action = "restart".toList then some s else none
  | [name], [] => if name = "true".toList then some s else none
  | _, _ => none

/-- A command, on a router where those that `fails` names fail. -/
def execSystem (fails : Invocation → Bool) (command : Invocation) (s : SystemState) :
    SystemState × Nat :=
  if fails command then (s, 1)
  else
    match systemCommand command s with
    | some s' => (s', 0)
    | none => (s, 1)

/-- The shell of that router. -/
def systemShell (fails : Invocation → Bool) : RemoteShell SystemState := fun command s =>
  match runText (execSystem fails) command s with
  | some (s', status) => { state := s', output := [], status := status }
  | none => { state := s, output := [], status := 2 }

/-! ## The settings -/

/-- The requested settings, in the order of the script; `none` deletes. -/
def settings (config : SystemConfig) : List (Text × Option Text) :=
  (config.hostname.map fun v => ("hostname".toList, some v)).toList ++
    (config.timezone.map fun v => ("timezone".toList, some v)).toList ++
    (config.language.map fun v => ("language".toList, some v)).toList ++
    (config.notes.map fun v => ("notes".toList, if v ≠ [] then some v else none)).toList

/-- Every requested setting is committed. -/
def Committed (config : SystemConfig) (s : SystemState) : Prop :=
  ∀ setting ∈ settings config, s.committed setting.1 = setting.2

/-- The command of a setting. -/
def settingCommand : Text × Option Text → Invocation
  | (option, some value) => { words := ["uci", "set", systemPath ++ option ++ "=" ++ value] }
  | (option, none) => { words := ["uci", "delete", systemPath ++ option] }

def hostnameCommand (hostname : Text) : Invocation :=
  { words := ["echo", hostname], redirects := [(">", "/proc/sys/kernel/hostname")] }

def commitCommand : Invocation := { words := ["uci", "commit", "system"] }

def restartCommand : Invocation := { words := ["/etc/init.d/sysntpd", "restart"] }

def trueCommand : Invocation := { words := ["true"] }

/-- The commands up to the commit. -/
def commitCommands (config : SystemConfig) : List Invocation :=
  (settings config).map settingCommand ++ (config.hostname.map hostnameCommand).toList ++
    [commitCommand]

/-- No command up to the commit fails, and notes that are deleted are there. -/
structure Succeeds (fails : Invocation → Bool) (config : SystemConfig) (s : SystemState) :
    Prop where
  works : ∀ command ∈ commitCommands config, fails command = false
  present : config.notes = some [] → (s.current "notes").isSome = true

/-- `system_set_config` answers; its `ok` says whether every requested setting is
committed, and without it none was. -/
def Truthful (fails : Invocation → Bool) (config : SystemConfig) (s : SystemState) : Prop :=
  ∃ report s', perform (shellLink (systemShell fails)) (systemSetConfig config) s =
      (.ok report, s') ∧
    (report.ok = true ↔ Committed config s') ∧
    (report.ok = false → ∀ setting ∈ settings config, s'.committed setting.1 = s.committed setting.1)

/-! ## The script -/

section

variable {config : SystemConfig}

theorem wordText_name {values : Field → Text} {s : String} {plain : PlainText s}
    (h : '$' ∉ s.toList) : wordText ((bare s plain).word values) = some s.toList :=
  wordText_bare h

/-- A command that sets an option to a quoted value. -/
theorem readAs_option {values : Field → Text} {field : Field} {value : Text}
    (hvalue : values field = value) {s : String} {option : Text} (plain : PlainText s)
    (hoption : s.toList = systemPath ++ option ++ "=") (hs : '$' ∉ s.toList) :
    ReadAs values (systemOption (bare s plain) field) (settingCommand (option, some value)) := by
  have hword : wordText ((bare s plain ++ .quotedValue field : WordTemplate Field).word values) =
      some (s.toList ++ value) := by
    refine wordText_append (wordText_name hs) ?_
    rw [WordTemplate.word, hvalue, wordText_literal]
  rw [settingCommand, ← hoption]
  exact readAs_plain (.cons (wordText_name (by decide))
    (.cons (wordText_name (by decide)) (.cons hword .nil))) rfl

theorem readAs_settings {values : Field → Text}
    (hhostname : ∀ t ∈ config.hostname, values .hostname = t)
    (htimezone : ∀ t ∈ config.timezone, values .timezone = t)
    (hlanguage : ∀ t ∈ config.language, values .language = t)
    (hnotes : ∀ t ∈ config.notes, values .notes = t) :
    List.Forall₂ (ReadAs values) (systemOptions config) ((settings config).map settingCommand) := by
  have hoption : ∀ {o : Option Text} {c : Text → SimpleCommand Field} {f : Text → Invocation},
      (∀ t ∈ o, ReadAs values (c t) (f t)) →
      List.Forall₂ (ReadAs values) (o.map c).toList (o.map f).toList := by
    intro o c f h
    cases o with
    | none => exact .nil
    | some t => exact .cons (h t rfl) .nil
  have hmap : ∀ (o : Option Text) (f : Text → Text × Option Text),
      (o.map f).toList.map settingCommand = (o.map fun t => settingCommand (f t)).toList := by
    intro o f
    cases o <;> rfl
  rw [systemOptions, settings, List.map_append, List.map_append, List.map_append, hmap, hmap, hmap,
    hmap]
  refine List.rel_append (List.rel_append (List.rel_append ?_ ?_) ?_) ?_
  · exact hoption fun t ht => readAs_option (hhostname t ht) _ (by decide +kernel) (by decide)
  · exact hoption fun t ht => readAs_option (htimezone t ht) _ (by decide +kernel) (by decide)
  · exact hoption fun t ht => readAs_option (hlanguage t ht) _ (by decide) (by decide)
  · refine hoption fun t ht => ?_
    by_cases hempty : t = []
    · rw [if_neg (not_not_intro hempty), if_neg (not_not_intro hempty)]
      exact readAs_plain (.cons (wordText_name (by decide)) (.cons (wordText_name (by decide))
        (.cons (wordText_name (by decide)) .nil))) rfl
    · rw [if_pos hempty, if_pos hempty]
      show ReadAs values _ (settingCommand ("notes".toList, some t))
      exact readAs_option (hnotes t ht) _ (by rfl) (by decide)

/-- The script is the chain of its commands, or `true`. -/
theorem invocations_system (config : SystemConfig) :
    invocations .semi {}
        ((systemTemplate config).tokens (WriteOperation.systemSetConfig config).value) =
      some (chainedAfter .semi (commitCommands config ++ [restartCommand]) ++
        [(.orIf, trueCommand)]) := by
  have hvalue : ∀ {o : Option Text}, ∀ t ∈ o, o.getD [] = t := by
    intro o t ht
    rw [ht, Option.getD_some]
  have hecho : List.Forall₂ (ReadAs (WriteOperation.systemSetConfig config).value)
      (config.hostname.map fun _ => echoHostname).toList
      (config.hostname.map hostnameCommand).toList := by
    cases hhostname : config.hostname with
    | none => exact .nil
    | some t =>
      refine .cons ?_ .nil
      have hword : wordText ((WordTemplate.quotedValue Field.hostname).word
          (WriteOperation.systemSetConfig config).value) = some t := by
        show wordText ((config.hostname.getD []).map .literal) = some t
        rw [wordText_literal, hhostname, Option.getD_some]
      exact readAs_output (.cons (wordText_name (by decide)) (.cons hword .nil)) rfl (by decide)
  have hcommit : List.Forall₂ (ReadAs (WriteOperation.systemSetConfig config).value)
      [uci [bare "commit", bare "system"]] [commitCommand] :=
    .cons (readAs_plain (.cons (wordText_name (by decide)) (.cons (wordText_name (by decide))
      (.cons (wordText_name (by decide)) .nil))) rfl) .nil
  have hrestart : ReadAs (WriteOperation.systemSetConfig config).value
      (initScript (bare "/etc/init.d/sysntpd") (bare "restart")) restartCommand :=
    readAs_plain (.cons (wordText_name (by decide)) (.cons (wordText_name (by decide)) .nil)) rfl
  have hinit := List.rel_append
    (List.rel_append (readAs_settings hvalue hvalue hvalue hvalue) hecho) hcommit
  have hchain := invocations_andAll hinit hrestart .semi
  rw [systemTemplate, Script.tokens, List.append_assoc, List.singleton_append]
  refine (invocations_append hchain .orIf _ []).trans ?_
  rfl

end

/-! ## The run -/

variable (fails : Invocation → Bool)

/-- The options after a setting. -/
def SystemState.write (s : SystemState) (setting : Text × Option Text) : SystemState :=
  { s with current := Function.update s.current setting.1 setting.2 }

/-- A setting that can be written in the state. -/
def Writable (setting : Text × Option Text) (s : SystemState) : Prop :=
  fails (settingCommand setting) = false ∧
    (setting.2 = none → (s.current setting.1).isSome = true)

theorem startsWith_systemPath (option : Text) :
    startsWith systemPath (systemPath ++ option) = true :=
  List.isPrefixOf_iff_prefix.mpr (List.prefix_append systemPath option)

theorem systemCommand_setting {setting : Text × Option Text} (hname : '=' ∉ setting.1)
    (s : SystemState) :
    systemCommand (settingCommand setting) s =
      if setting.2 = none → (s.current setting.1).isSome = true then some (s.write setting)
      else none := by
  obtain ⟨option, value⟩ := setting
  have hdrop : (systemPath ++ option).drop systemPath.length = option := List.drop_left
  cases value with
  | some value =>
    have hpath : ∀ c ∈ systemPath ++ option, c ≠ '=' := by
      intro c hc
      rcases List.mem_append.mp hc with hc | hc
      · exact (by decide : ∀ c ∈ systemPath, c ≠ '=') c hc
      · rintro rfl
        exact hname hc
    have hsplit : splitFirst '=' (systemPath ++ option ++ "=" ++ value) =
        (systemPath ++ option, some value) := by
      rw [List.append_assoc]
      exact splitFirst_append_cons hpath value
    rw [if_pos nofun]
    show uciSet (systemPath ++ option ++ "=" ++ value) s = _
    simp only [uciSet, hsplit, startsWith_systemPath, if_true, hdrop]
    rfl
  | none =>
    show uciDelete (systemPath ++ option) s = _
    simp only [uciDelete, startsWith_systemPath, hdrop, true_and]
    by_cases h : (s.current option).isSome = true
    · rw [if_pos h, if_pos fun _ => h]
      rfl
    · rw [if_neg h, if_neg fun hall => h (hall trivial)]

theorem execSystem_setting {setting : Text × Option Text} (hname : '=' ∉ setting.1)
    (s : SystemState) :
    (Writable fails setting s ∧ execSystem fails (settingCommand setting) s = (s.write setting, 0)) ∨
      (¬Writable fails setting s ∧ execSystem fails (settingCommand setting) s = (s, 1)) := by
  rw [execSystem, Writable, systemCommand_setting hname]
  cases fails (settingCommand setting) with
  | true => exact Or.inr ⟨fun h => Bool.false_ne_true h.1.symm, rfl⟩
  | false =>
    by_cases h : setting.2 = none → (s.current setting.1).isSome = true
    · rw [if_pos h]
      exact Or.inl ⟨⟨rfl, h⟩, rfl⟩
    · rw [if_neg h]
      exact Or.inr ⟨fun hw => h hw.2, rfl⟩

/-- What a chain of settings has done: nothing is committed, it succeeded exactly if
every setting could be written, and then the options hold what was requested. -/
structure Wrote (list : List (Text × Option Text)) (s : SystemState) (r : SystemState × Nat) :
    Prop where
  committed : r.1.committed = s.committed
  status : r.2 = 0 ↔ ∀ setting ∈ list, Writable fails setting s
  untouched : ∀ option, option ∉ list.map Prod.fst → r.1.current option = s.current option
  written : r.2 = 0 → ∀ setting ∈ list, r.1.current setting.1 = setting.2

theorem writable_write {p q : Text × Option Text} (hne : q.1 ≠ p.1) (s : SystemState) :
    Writable fails q (s.write p) ↔ Writable fails q s := by
  have hsame : (s.write p).current q.1 = s.current q.1 := Function.update_of_ne hne _ _
  rw [Writable, Writable, hsame]

/-- Settings are written one after the other, up to the first that cannot be. -/
theorem runChain_settings {list : List (Text × Option Text)} (hnames : ∀ p ∈ list, '=' ∉ p.1)
    (hnodup : (list.map Prod.fst).Nodup) (s : SystemState) :
    Wrote fails list s (runChain (execSystem fails) (list.map settingCommand) s) := by
  induction list generalizing s with
  | nil =>
    refine ⟨rfl, ⟨fun _ => ?_, fun _ => rfl⟩, fun _ _ => rfl, fun _ => ?_⟩
    · exact List.forall_mem_nil _
    · exact List.forall_mem_nil _
  | cons p list ih =>
    obtain ⟨hp, hlist⟩ := List.forall_mem_cons.mp hnames
    rw [List.map_cons, List.nodup_cons] at hnodup
    obtain ⟨hfresh, hnodup⟩ := hnodup
    have hother : ∀ q ∈ list, q.1 ≠ p.1 :=
      fun q hq heq => hfresh (heq ▸ List.mem_map_of_mem hq)
    rw [List.map_cons, runChain]
    rcases execSystem_setting fails hp s with ⟨hwritable, hexec⟩ | ⟨hnot, hexec⟩
    · rw [hexec, if_pos rfl]
      have hrest := ih hlist hnodup (s.write p)
      refine ⟨hrest.committed, ?_, ?_, ?_⟩
      · rw [hrest.status, List.forall_mem_cons, and_iff_right hwritable]
        exact forall₂_congr fun q hq => writable_write fails (hother q hq) s
      · intro option hoption
        rw [List.map_cons, List.mem_cons, not_or] at hoption
        rw [hrest.untouched option hoption.2]
        exact Function.update_of_ne hoption.1 _ _
      · intro hstatus
        rw [List.forall_mem_cons]
        refine ⟨?_, hrest.written hstatus⟩
        rw [hrest.untouched p.1 hfresh]
        exact Function.update_self _ _ _
    · rw [hexec, if_neg Nat.one_ne_zero]
      refine ⟨rfl, ⟨?_, fun hall => absurd (hall p List.mem_cons_self) hnot⟩,
        fun _ _ => rfl, ?_⟩
      · rintro ⟨⟩
      · rintro ⟨⟩

theorem settings_names (config : SystemConfig) :
    (∀ p ∈ settings config, '=' ∉ p.1) ∧ ((settings config).map Prod.fst).Nodup := by
  obtain ⟨hostname, timezone, language, notes⟩ := config
  cases hostname <;> cases timezone <;> cases language <;> cases notes <;>
    exact ⟨by simp [settings], by simp [settings]⟩

/-- Only notes are deleted. -/
theorem deleted_mem_settings {config : SystemConfig} {option : Text} :
    (option, none) ∈ settings config ↔ option = "notes".toList ∧ config.notes = some [] := by
  have hset : ∀ {o : Option Text} {name : Text},
      (option, none) ∉ (o.map fun v => (name, some v)).toList := by
    intro o name h
    cases o with
    | none => cases h
    | some v =>
      obtain heq := List.mem_singleton.mp h
      cases (Prod.mk.inj heq).2
  simp only [settings, List.mem_append, hset, false_or]
  cases config.notes with
  | none => exact ⟨nofun, nofun⟩
  | some notes =>
    rw [Option.map_some, Option.toList_some, List.mem_singleton, Prod.mk.injEq,
      Option.some.injEq]
    refine and_congr_right fun _ => ?_
    by_cases hnotes : notes = []
    · rw [hnotes]
      exact ⟨fun _ => rfl, fun _ => rfl⟩
    · rw [if_pos hnotes]
      exact ⟨nofun, fun h => absurd h hnotes⟩

theorem runChain_hostname (hostname : Option Text) (s : SystemState) :
    ∃ s' status, runChain (execSystem fails) (hostname.map hostnameCommand).toList s =
        (s', status) ∧ s'.committed = s.committed ∧ s'.current = s.current ∧
      (status = 0 ↔ ∀ command ∈ (hostname.map hostnameCommand).toList, fails command = false) := by
  cases hostname with
  | none => exact ⟨s, 0, rfl, rfl, rfl, fun _ => List.forall_mem_nil _, fun _ => rfl⟩
  | some hostname =>
    rw [Option.map_some, Option.toList_some, runChain, execSystem]
    simp only [List.mem_singleton, forall_eq]
    cases hfails : fails (hostnameCommand hostname) with
    | true =>
      refine ⟨s, 1, rfl, rfl, rfl, ?_, ?_⟩
      · rintro ⟨⟩
      · rintro ⟨⟩
    | false =>
      exact ⟨{ s with kernelHostname := hostname }, 0, rfl, rfl, rfl, fun _ => rfl, fun _ => rfl⟩

theorem execSystem_commit (s : SystemState) :
    execSystem fails commitCommand s =
      if fails commitCommand then (s, 1) else ({ s with committed := s.current }, 0) := rfl

/-- **The chain commits all settings, or nothing.** -/
theorem runChain_commit (config : SystemConfig) (s : SystemState) :
    (Succeeds fails config s →
      Committed config (runChain (execSystem fails) (commitCommands config) s).1) ∧
    (¬Succeeds fails config s →
      (runChain (execSystem fails) (commitCommands config) s).1.committed = s.committed) := by
  obtain ⟨hnames, hnodup⟩ := settings_names config
  have hwrote := runChain_settings fails hnames hnodup s
  obtain ⟨s', status, hecho, hcommitted, hcurrent, hstatus⟩ := runChain_hostname fails
    config.hostname (runChain (execSystem fails) ((settings config).map settingCommand) s).1
  have hsucceeds : Succeeds fails config s ↔
      (∀ setting ∈ settings config, Writable fails setting s) ∧
        (∀ command ∈ (config.hostname.map hostnameCommand).toList, fails command = false) ∧
        fails commitCommand = false := by
    have hworks : (∀ command ∈ commitCommands config, fails command = false) ↔
        (∀ setting ∈ settings config, fails (settingCommand setting) = false) ∧
          (∀ command ∈ (config.hostname.map hostnameCommand).toList, fails command = false) ∧
          fails commitCommand = false := by
      simp only [commitCommands, List.forall_mem_append, List.forall_mem_map, List.mem_singleton,
        forall_eq, and_assoc]
    constructor
    · rintro ⟨hall, hpresent⟩
      obtain ⟨hsettings, hrest⟩ := hworks.mp hall
      refine ⟨fun setting hsetting => ⟨hsettings setting hsetting, fun hdeleted => ?_⟩, hrest⟩
      obtain ⟨option, value⟩ := setting
      obtain rfl : value = none := hdeleted
      obtain ⟨rfl, hnotes⟩ := deleted_mem_settings.mp hsetting
      exact hpresent hnotes
    · rintro ⟨hwritable, hrest⟩
      refine ⟨hworks.mpr ⟨fun setting hsetting => (hwritable setting hsetting).1, hrest⟩,
        fun hnotes => ?_⟩
      exact (hwritable _ (deleted_mem_settings.mpr ⟨rfl, hnotes⟩)).2 rfl
  rw [commitCommands, List.append_assoc, runChain_append, hsucceeds, ← hwrote.status, ← hstatus]
  by_cases hfirst : (runChain (execSystem fails) ((settings config).map settingCommand) s).2 = 0
  · rw [if_pos hfirst, runChain_append, hecho]
    by_cases hsecond : status = 0
    · rw [if_pos hsecond, runChain, execSystem_commit]
      cases hcommit : fails commitCommand with
      | true =>
        refine ⟨fun h => ?_, fun _ => ?_⟩
        · cases h.2.2
        · exact hcommitted.trans hwrote.committed
      | false =>
        refine ⟨fun _ setting hsetting => ?_, fun h => absurd ⟨hfirst, hsecond, rfl⟩ h⟩
        show s'.current setting.1 = setting.2
        rw [hcurrent]
        exact hwrote.written hfirst setting hsetting
    · rw [if_neg hsecond]
      exact ⟨fun h => absurd h.2.1 hsecond, fun _ => hcommitted.trans hwrote.committed⟩
  · rw [if_neg hfirst]
    exact ⟨fun h => absurd h.1 hfirst, fun _ => hwrote.committed⟩

/-! ## The answer -/

theorem execSystem_restart (s : SystemState) : (execSystem fails restartCommand s).1 = s := by
  rw [execSystem]
  cases fails restartCommand <;> rfl

theorem execSystem_true (s : SystemState) : (execSystem fails trueCommand s).1 = s := by
  rw [execSystem]
  cases fails trueCommand <;> rfl

/-- The script leaves what its commands up to the commit leave. -/
theorem systemShell_state {config : SystemConfig} {command : Text}
    (h : plannedCommand (systemSetConfig config) = some command) (s : SystemState) :
    (systemShell fails command s).state =
      (runChain (execSystem fails) (commitCommands config) s).1 := by
  have hop : (WriteOperation.systemSetConfig config).sent = some command := h
  have hrun := runText_render (execSystem fails) (bareValues_system config)
    (invocations_system config) s
  have hrender : (systemTemplate config).render (WriteOperation.systemSetConfig config).value =
      command := (fills_of_sent hop).2
  rw [hrender, runAll_append, runAll_chain] at hrun
  have hrestart : (runChain (execSystem fails) (commitCommands config ++ [restartCommand]) s).1 =
      (runChain (execSystem fails) (commitCommands config) s).1 := by
    rw [runChain_append]
    split
    · have hstay := execSystem_restart fails
        (runChain (execSystem fails) (commitCommands config) s).1
      rw [runChain]
      split
      · exact hstay
      · exact hstay
    · rfl
  rw [systemShell, hrun]
  show (runAll (execSystem fails) [(Separator.orIf, trueCommand)]
    ((runChain (execSystem fails) (commitCommands config ++ [restartCommand]) s).1,
      (runChain (execSystem fails) (commitCommands config ++ [restartCommand]) s).2)).1 = _
  rw [runAll_orIf]
  split
  · exact hrestart
  · exact (execSystem_true fails _).trans hrestart

/-- What a planned command answers over a working shell. -/
theorem perform_shellLink {σ : Type} (sh : RemoteShell σ) (command : Text) (timeout : Nat)
    (describe : CommandResult → Except ServiceError OperationResult) (s : σ) :
    ∃ result, result.ok = true ∧
      perform (shellLink sh) (.ok (.send command timeout describe)) s =
        (describe result, (sh command s).state) := by
  have hopen : openSession (shellLink sh) s = (.ok (), s) := rfl
  refine ⟨{ command := command
            ok := true
            stdout := join "\n" (splitlines ((sh command s).output ++ ['\n']))
            exitCode := 0
            error := none }, rfl, ?_⟩
  rw [perform, withTransport, Fallible.bind_of_ok hopen, Fallible.ensuring_apply,
    Fallible.bind_of_ok (run_shellLink sh command (some timeout) s)]
  rfl

/-- An accepted request has no settings, or sends the script and passes the `ok` of
its answer on. -/
theorem plan_cases {config : SystemConfig} {plan : Plan} (h : systemSetConfig config = .ok plan) :
    (settings config = [] ∧ ∃ report, plan = .done report ∧ report.ok = true) ∨
      ∃ command describe, plan = .send command 90 describe ∧
        ∀ result, ∃ report, describe result = .ok report ∧ report.ok = result.ok := by
  unfold systemSetConfig at h
  split_ifs at h with hhostname htimezone hlanguage hnone
  all_goals cases h
  · left
    refine ⟨?_, _, rfl, rfl⟩
    simp only [SystemConfig.uciCommands, List.append_eq_nil_iff, Option.toList_eq_nil_iff,
      Option.map_eq_none_iff] at hnone
    obtain ⟨⟨⟨hhostname', htimezone'⟩, hlanguage'⟩, hnotes'⟩ := hnone
    rw [settings, hhostname', htimezone', hlanguage', hnotes']
    rfl
  · exact Or.inr ⟨_, _, rfl, fun result => ⟨_, rfl, rfl⟩⟩

/-- The answer is always ok, so it is right exactly if the settings are committed. -/
theorem truthful_of_answer {config : SystemConfig} {report : OperationResult}
    {s s' : SystemState}
    (hperform : perform (shellLink (systemShell fails)) (systemSetConfig config) s =
      (.ok report, s')) (hok : report.ok = true) :
    Truthful fails config s ↔ Committed config s' := by
  constructor
  · rintro ⟨report', t, ht, hiff, _⟩
    obtain ⟨hreport, rfl⟩ := Prod.mk.inj (hperform.symm.trans ht)
    obtain rfl := Except.ok.inj hreport
    exact hiff.mp hok
  · intro hcommitted
    refine ⟨report, s', hperform, ⟨fun _ => hcommitted, fun _ => hok⟩, fun hnot => ?_⟩
    rw [hok] at hnot
    cases hnot

/--
**The answer says whether the settings were committed exactly if no command up to
the commit fails and deleted notes were there, or everything requested was committed
before.**
-/
theorem truthful_iff {config : SystemConfig} {plan : Plan}
    (h : systemSetConfig config = .ok plan) (s : SystemState) :
    Truthful fails config s ↔ Succeeds fails config s ∨ Committed config s := by
  rcases plan_cases h with ⟨hnone, report, rfl, hok⟩ | ⟨command, describe, rfl, hdescribe⟩
  · have hperform : perform (shellLink (systemShell fails)) (systemSetConfig config) s =
        (.ok report, s) := by
      rw [h]
      rfl
    have hcommitted : Committed config s := by
      intro setting hsetting
      rw [hnone] at hsetting
      cases hsetting
    rw [truthful_of_answer fails hperform hok]
    exact ⟨Or.inr, fun _ => hcommitted⟩
  · have hsent : plannedCommand (systemSetConfig config) = some command := by
      rw [h]
      rfl
    obtain ⟨result, hresult, hperform⟩ :=
      perform_shellLink (systemShell fails) command 90 describe s
    obtain ⟨report, hreport, hok⟩ := hdescribe result
    rw [← h, hreport, systemShell_state fails hsent] at hperform
    rw [truthful_of_answer fails hperform (hok.trans hresult)]
    obtain ⟨hcommits, hkeeps⟩ := runChain_commit fails config s
    by_cases hsucceeds : Succeeds fails config s
    · exact ⟨fun _ => Or.inl hsucceeds, fun _ => hcommits hsucceeds⟩
    · rw [Committed, hkeeps hsucceeds]
      exact ⟨Or.inr, fun h => h.resolve_left hsucceeds⟩

/-- A host name and notes that were never set. -/
def renameAndClear : SystemConfig :=
  { hostname := some "edge", timezone := none, language := none, notes := some [] }

def freshSystem : SystemState := ⟨fun _ => none, fun _ => none, "OpenWrt"⟩

/-- A new time zone is committed. -/
theorem timezone_truthful :
    Truthful (fun _ => false) { hostname := none, timezone := some "UTC", language := none, notes := none }
      freshSystem :=
  (truthful_iff (fun _ => false) rfl freshSystem).mpr
    (Or.inl ⟨fun _ _ => rfl, fun h => by cases h⟩)

/-- Clearing notes that were never set stops the script, and the host name that was
requested with it is not committed, though the answer is ok. -/
theorem rename_not_truthful : ¬Truthful (fun _ => false) renameAndClear freshSystem := by
  rintro ⟨report, s', hperform, hiff, _⟩
  have hok : ((perform (shellLink (systemShell fun _ => false)) (systemSetConfig renameAndClear)
      freshSystem).1.toOption.map (·.ok)) = some true := by decide +kernel
  have hname : (perform (shellLink (systemShell fun _ => false)) (systemSetConfig renameAndClear)
      freshSystem).2.committed "hostname" = none := by decide +kernel
  rw [hperform] at hok hname
  have hcommitted := hiff.mp (Option.some.inj hok) ("hostname".toList, some "edge".toList)
    (by decide)
  rw [hname] at hcommitted
  cases hcommitted

end OpenWrtCopilot.Ports.SystemSettings
