import OpenWrtCopilot.Verified.PosixFiles
import OpenWrtCopilot.Verified.ShellRuns
import OpenWrtCopilot.Ports.ManagementQuoting

/-!
# The hosts file of a router

The commands of `dns_add_host` and `dns_remove_host`, run on a hosts file.  Adding
asks `grep` for the host name, taken as a pattern, before it appends a line; the
`sed` script that removes searches the name between the quotes it was wrapped in.

## Main results

* `hostsAfter_add`, `hostsAfter_remove` — the file after each command.
* `hosts_edits_iff` — when a host is added, and when it is removed, with every
  other entry kept.
-/

namespace OpenWrtCopilot.Ports.HostsFile

open Verified
open Verified.PyText
open Verified.PyPattern
open Verified.PosixTokens
open Verified.PosixFiles
open Verified.ShellTemplate
open Verified.ShellRuns
open Ports.Management

/-! ## Entries -/

/-- The entries of a line: its address with each of its names. A `#` opens a
comment. -/
def lineEntries (line : Text) : List (Text × Text) :=
  match fields (line.takeWhile (· ≠ '#')) with
  | [] => []
  | address :: names => names.map ((address, ·))

/-- The entries of a hosts file: addresses and host names. -/
def entries (file : Text) : List (Text × Text) := (lines file).flatMap lineEntries

/-! ## The commands -/

/-- `printf`, with one argument for each `%s`. -/
def printf : Text → List Text → Option Text
  | [], [] => some []
  | [], _ :: _ => none
  | '%' :: 's' :: rest, arg :: args => (printf rest args).map (arg ++ ·)
  | '\\' :: 't' :: rest, args => (printf rest args).map ('\t' :: ·)
  | '\\' :: 'n' :: rest, args => (printf rest args).map ('\n' :: ·)
  | c :: rest, args => if c = '%' ∨ c = '\\' then none else (printf rest args).map (c :: ·)

def hostsPath : Text := "/etc/hosts"

/-- `grep -q -e`, `sed -i -e` and an appending `printf` on the hosts file. -/
def execHosts (command : Invocation) (file : Text) : Text × Nat :=
  match command.words, command.redirects with
  | [name, flag, option, operand, target], [] =>
      if target = hostsPath ∧ option = "-e".toList then
        if name = "grep".toList ∧ flag = "-q".toList then
          match pattern operand with
          | some atoms => (file, if grep atoms file then 0 else 1)
          | none => (file, 2)
        else if name = "sed".toList ∧ flag = "-i".toList then
          match (deleteScript operand).bind pattern with
          | some atoms => (deleteLines atoms file, 0)
          | none => (file, 1)
        else (file, 127)
      else (file, 127)
  | name :: format :: args, [redirect] =>
      if name = "printf".toList ∧ redirect = (">>".toList, hostsPath) then
        match printf format args with
        | some text => (file ++ text, 0)
        | none => (file, 1)
      else (file, 127)
  | _, _ => (file, 127)

/-- The hosts file after the command an operation sends. -/
def hostsAfter (planned : Planned) (file : Text) : Option Text :=
  (plannedCommand planned).bind fun command => (runText execHosts command file).map Prod.fst

/-- After `dns_add_host` the name has the address, and no other entry has changed. -/
def AddsHost (hostname ip file : Text) : Prop :=
  ∃ file', hostsAfter (dnsAddHost hostname ip) file = some file' ∧
    (ip, hostname) ∈ entries file' ∧
    (entries file').filter (· ≠ (ip, hostname)) = (entries file).filter (· ≠ (ip, hostname))

/-- After `dns_remove_host` exactly the entries of the name with the address are
gone. -/
def RemovesHost (hostname ip file : Text) : Prop :=
  ∃ file', hostsAfter (dnsRemoveHost hostname ip) file = some file' ∧
    entries file' = (entries file).filter (· ≠ (ip, hostname))

/-! ## When they do -/

/-- A text of the same length with the same characters, except at the dots. -/
def Resembles (hostname : Text) (t : Text) : Prop :=
  List.Forall₂ (fun c d => c = '.' ∨ c = d) hostname t

/-- Some line holds a text that resembles the name. -/
def Noticed (hostname file : Text) : Prop :=
  ∃ line ∈ lines file, ∃ t, t <:+: line ∧ Resembles hostname t

/-- Without blanks and comments. -/
def PlainAddress (ip : Text) : Prop := ∀ c ∈ ip, isBlank c = false ∧ c ≠ '#'

/-- Nothing but blanks stands after the last newline. -/
def EndsLine (file : Text) : Prop := ∀ rest ∈ (segments file).getLast?, ∀ c ∈ rest, isBlank c = true

/-- The name as the removing script searches it. -/
def quotedName (hostname : Text) : Text := '\'' :: (hostname ++ ['\''])

/-! ## Valid names -/

theorem valid_hostname {hostname ip : Text} (h : validateDnsHost hostname ip = .ok ()) :
    hostname ≠ [] ∧ ip ≠ [] ∧ ∀ c ∈ hostname, hostnameChar c = true := by
  rw [validateDnsHost] at h
  split_ifs at h with hempty hpattern haddress
  any_goals cases h
  rw [not_or] at hempty
  rw [Bool.not_eq_false] at hpattern
  exact ⟨hempty.1, hempty.2, (fullmatchClass_iff.mp hpattern).2⟩

/-- What the characters of a host name are not. -/
theorem hostnameChar_plain {c : Char} (h : hostnameChar c = true) :
    isBlank c = false ∧ c ≠ '#' ∧ c ≠ '\\' ∧ c ≠ '\'' ∧ c ≠ '/' ∧ c ≠ '\n' ∧
      "[*^$".toList.contains c = false := by
  have hother : ∀ d ∈ " \t\n#\\'/[*^$".toList, hostnameChar d = false := by decide
  have hne : ∀ d ∈ " \t\n#\\'/[*^$".toList, c ≠ d := by
    rintro d hd rfl
    rw [hother c hd] at h
    cases h
  simp only [show " \t\n#\\'/[*^$".toList =
    [' ', '\t', '\n', '#', '\\', '\'', '/', '[', '*', '^', '$'] from rfl, List.forall_mem_cons] at hne
  obtain ⟨hspace, htab, hnewline, hhash, hback, hquote, hslash, hopen, hstar, hcaret, hdollar, _⟩ := hne
  refine ⟨?_, hhash, hback, hquote, hslash, hnewline, ?_⟩
  · simp [isBlank, hspace, htab, hnewline]
  · simp [hopen, hstar, hcaret, hdollar]

theorem field_hostname {hostname : Text} (hne : hostname ≠ [])
    (hchars : ∀ c ∈ hostname, hostnameChar c = true) : Field hostname :=
  ⟨hne, fun c hc => (hostnameChar_plain (hchars c hc)).1⟩

/-! ## Patterns -/

/-- The pattern `grep` makes of a host name. -/
def namePattern (hostname : Text) : List Atom :=
  hostname.map fun c => if c = '.' then .any else .char c

theorem pattern_hostname {hostname : Text} (h : ∀ c ∈ hostname, hostnameChar c = true) :
    pattern hostname = some (namePattern hostname) := by
  induction hostname with
  | nil => rfl
  | cons c hostname ih =>
    obtain ⟨_, _, hback, _, _, _, hspecial⟩ := hostnameChar_plain (h c List.mem_cons_self)
    rw [pattern_cons hback hspecial, ih fun d hd => h d (List.mem_cons_of_mem c hd)]
    rfl

theorem resembles_iff {hostname t : Text} :
    List.Forall₂ (fun a c => Atom.accepts a c = true) (namePattern hostname) t ↔
      Resembles hostname t := by
  have haccepts : ∀ c d, Atom.accepts (if c = '.' then .any else .char c) d = true ↔
      c = '.' ∨ c = d := by
    intro c d
    by_cases hdot : c = '.'
    · simp [hdot, Atom.accepts]
    · simp [hdot, Atom.accepts]
  rw [namePattern, List.forall₂_map_left_iff, Resembles]
  simp only [haccepts]

theorem grep_hostname (hostname file : Text) :
    grep (namePattern hostname) file = true ↔ Noticed hostname file := by
  rw [grep, List.any_eq_true]
  refine exists_congr fun line => and_congr_right fun _ => ?_
  rw [found_iff]
  exact exists_congr fun t => and_congr_right fun _ => resembles_iff

/-- A pattern of the escaped name finds the name itself. -/
theorem pattern_reEscape {t : Text} (h : ∀ c ∈ t, hostnameChar c = true ∨ c = '\'') :
    pattern (reEscape t) = some (t.map .char) := by
  induction t with
  | nil => rfl
  | cons c t ih =>
    have hrest := ih fun d hd => h d (List.mem_cons_of_mem c hd)
    rw [reEscape, List.flatMap_cons, ← reEscape]
    by_cases hspecial : reSpecial.contains c = true
    · -- of the characters of a name, the dot and the hyphen are escaped
      have hoperators : ∀ d ∈ reSpecial, hostnameChar d = true ∨ d = '\'' →
          isEscapeOperator d = false := by decide
      have hoperator : isEscapeOperator c = false :=
        hoperators c (List.contains_iff_mem.mp hspecial) (h c List.mem_cons_self)
      rw [if_pos hspecial, List.cons_append, List.cons_append, List.nil_append,
        pattern_escaped hoperator, hrest]
      rfl
    · have hback : c ≠ '\\' := by
        rintro rfl
        exact hspecial (by decide)
      have hspecials : ∀ d ∈ "[*^$".toList, d ∈ reSpecial := by decide
      have hplain : "[*^$".toList.contains c = false := by
        refine Bool.eq_false_iff.mpr fun hmem => hspecial ?_
        exact List.contains_iff_mem.mpr (hspecials c (List.contains_iff_mem.mp hmem))
      have hdot : c ≠ '.' := by
        rintro rfl
        exact hspecial (by decide)
      rw [if_neg hspecial, List.cons_append, List.nil_append, pattern_cons hback hplain, hrest,
        if_neg hdot]
      rfl

theorem readAddress_reEscape {t : Text} (h : '/' ∉ t) (rest : Text) :
    readAddress (reEscape t ++ '/' :: rest) = some (reEscape t, rest) := by
  induction t with
  | nil => exact readAddress_slash rest
  | cons c t ih =>
    have hslash : c ≠ '/' := fun heq => h (heq ▸ List.mem_cons_self)
    have hrest := ih fun hmem => h (List.mem_cons_of_mem c hmem)
    rw [reEscape, List.flatMap_cons, ← reEscape]
    by_cases hspecial : reSpecial.contains c = true
    · rw [if_pos hspecial]
      show readAddress ('\\' :: c :: (reEscape t ++ '/' :: rest)) = _
      rw [readAddress_escaped, hrest]
      rfl
    · have hback : c ≠ '\\' := by
        rintro rfl
        exact hspecial (by decide)
      rw [if_neg hspecial]
      show readAddress (c :: (reEscape t ++ '/' :: rest)) = _
      rw [readAddress_cons hback hslash, hrest]
      rfl

theorem deleteScript_reEscape {t : Text} (h : '/' ∉ t) :
    deleteScript ("/" ++ reEscape t ++ "/d") = some (reEscape t) := by
  have hscript : ("/" ++ reEscape t ++ "/d" : Text) = '/' :: (reEscape t ++ '/' :: ['d']) := by
    show ('/' :: reEscape t) ++ ['/', 'd'] = _
    rw [List.cons_append]
  simp only [hscript, deleteScript, readAddress_reEscape h]

/-! ## The file after each command -/

theorem sent_add {hostname ip : Text} (h : validateDnsHost hostname ip = .ok ()) :
    ∃ command, plannedCommand (dnsAddHost hostname ip) = some command := by
  rw [dnsAddHost, h]
  exact ⟨_, rfl⟩

theorem sent_remove {hostname ip : Text} (h : validateDnsHost hostname ip = .ok ()) :
    ∃ command, plannedCommand (dnsRemoveHost hostname ip) = some command := by
  rw [dnsRemoveHost, h]
  exact ⟨_, rfl⟩

theorem invocations_add (hostname ip : Text) :
    invocations .semi {}
        (dnsAddHostTemplate.tokens (WriteOperation.dnsAddHost hostname ip).value) =
      some
        [(.semi, { words := ["grep", "-q", "-e", hostname, hostsPath] }),
          (.orIf,
            { words := ["printf", "%s\\t%s\\n", ip, hostname]
              redirects := [(">>", hostsPath)] })] := by
  have hvalue : (WriteOperation.dnsAddHost hostname ip).value .hostname = hostname ∧
      (WriteOperation.dnsAddHost hostname ip).value .ip = ip := ⟨rfl, rfl⟩
  simp only [dnsAddHostTemplate, Script.tokens, SimpleCommand.tokens, WordTemplate.word, bare,
    hvalue, List.map_cons, List.map_nil, Option.map_some, Option.map_none, Option.getD_some,
    Option.getD_none, Redirect.tokens, Separator.token, List.append_nil, List.cons_append,
    List.nil_append, invocations, wordText_literal]
  rfl

theorem invocations_remove (hostname ip : Text) :
    invocations .semi {}
        (dnsRemoveHostTemplate.tokens (WriteOperation.dnsRemoveHost hostname ip).value) =
      some
        [(.semi,
          { words := ["sed", "-i", "-e", "/" ++ reEscape (shQuote hostname) ++ "/d", hostsPath] })] := by
  have hvalue : (WriteOperation.dnsRemoveHost hostname ip).value .hostsPattern =
      "/" ++ reEscape (shQuote hostname) ++ "/d" := rfl
  simp only [dnsRemoveHostTemplate, Script.tokens, SimpleCommand.tokens, WordTemplate.word, bare,
    hvalue, List.map_cons, List.map_nil, Option.map_none, Option.getD_none, List.append_nil,
    invocations, wordText_literal]
  rfl

theorem printf_entry (ip hostname : Text) :
    printf "%s\\t%s\\n" [ip, hostname] = some (ip ++ '\t' :: (hostname ++ ['\n'])) := rfl

/-- `dns_add_host` leaves the file alone when `grep` finds the name, and appends a
line otherwise. -/
theorem hostsAfter_add {hostname ip : Text} (h : validateDnsHost hostname ip = .ok ())
    (file : Text) :
    hostsAfter (dnsAddHost hostname ip) file =
      some (if grep (namePattern hostname) file then file
        else file ++ (ip ++ '\t' :: (hostname ++ ['\n']))) := by
  obtain ⟨command, hsent⟩ := sent_add h
  have hop : (WriteOperation.dnsAddHost hostname ip).sent = some command := hsent
  have hrun := runText_render execHosts (s := dnsAddHostTemplate) rfl
    (invocations_add hostname ip) file
  have hgrep : execHosts { words := ["grep", "-q", "-e", hostname, hostsPath] } file =
      (file, if grep (namePattern hostname) file then 0 else 1) := by
    simp only [execHosts, if_true, and_self, pattern_hostname (valid_hostname h).2.2]
  have hprintf : execHosts
      { words := ["printf", "%s\\t%s\\n", ip, hostname], redirects := [(">>", hostsPath)] } file =
      (file ++ (ip ++ '\t' :: (hostname ++ ['\n'])), 0) := by
    simp only [execHosts, if_true, and_self, printf_entry]
  rw [hostsAfter, hsent, Option.bind_some, ← (fills_of_sent hop).2]
  show (runText execHosts (dnsAddHostTemplate.render _) file).map Prod.fst = _
  rw [hrun, Option.map_some, Option.some.injEq, runAll_semi, hgrep, runAll_orIf]
  by_cases hfound : grep (namePattern hostname) file = true
  · rw [if_pos hfound, if_pos hfound, if_pos rfl]
  · rw [if_neg hfound, if_neg hfound, if_neg Nat.one_ne_zero, hprintf]

theorem shQuote_hostname {hostname : Text} (h : ∀ c ∈ hostname, hostnameChar c = true) :
    shQuote hostname = quotedName hostname := by
  have hquote : '\'' ∉ hostname := fun hmem => (hostnameChar_plain (h _ hmem)).2.2.2.1 rfl
  exact shQuote_of_notMem hquote

/-- `dns_remove_host` deletes the lines that hold the name between quotes. -/
theorem hostsAfter_remove {hostname ip : Text} (h : validateDnsHost hostname ip = .ok ())
    (file : Text) :
    hostsAfter (dnsRemoveHost hostname ip) file =
      some (deleteLines ((quotedName hostname).map .char) file) := by
  obtain ⟨command, hsent⟩ := sent_remove h
  have hop : (WriteOperation.dnsRemoveHost hostname ip).sent = some command := hsent
  have hchars := (valid_hostname h).2.2
  have hrun := runText_render execHosts (s := dnsRemoveHostTemplate) rfl
    (invocations_remove hostname ip) file
  have hname : ∀ c ∈ quotedName hostname, hostnameChar c = true ∨ c = '\'' := by
    intro c hc
    rcases List.mem_cons.mp hc with rfl | hc
    · exact Or.inr rfl
    · rcases List.mem_append.mp hc with hc | hc
      · exact Or.inl (hchars c hc)
      · exact Or.inr (List.mem_singleton.mp hc)
  have hslash : '/' ∉ quotedName hostname := by
    intro hmem
    rcases hname '/' hmem with hc | hc
    · exact (hostnameChar_plain hc).2.2.2.2.1 rfl
    · cases hc
  have hpattern : (deleteScript ("/" ++ reEscape (shQuote hostname) ++ "/d")).bind pattern =
      some ((quotedName hostname).map .char) := by
    rw [shQuote_hostname hchars, deleteScript_reEscape hslash, Option.bind_some,
      pattern_reEscape hname]
  have hsed : execHosts
      { words := ["sed", "-i", "-e", "/" ++ reEscape (shQuote hostname) ++ "/d", hostsPath] } file =
      (deleteLines ((quotedName hostname).map .char) file, 0) := by
    have hother : "sed".toList ≠ "grep".toList := by decide
    simp only [execHosts, if_true, and_self, hother, false_and, if_false, hpattern]
  rw [hostsAfter, hsent, Option.bind_some, ← (fills_of_sent hop).2]
  show (runText execHosts (dnsRemoveHostTemplate.render _) file).map Prod.fst = _
  rw [hrun, Option.map_some, Option.some.injEq, runAll_semi, hsed]
  rfl

/-! ## Entries of files -/

theorem lineEntries_nil : lineEntries [] = [] := rfl

theorem entries_eq (file : Text) : entries file = (segments file).flatMap lineEntries :=
  flatMap_lines lineEntries_nil file

theorem lineEntries_of_blank {line : Text} (h : ∀ c ∈ line, isBlank c = true) :
    lineEntries line = [] := by
  have hfields : fields (line.takeWhile (· ≠ '#')) = [] := by
    have hprefix : ∀ c ∈ line.takeWhile (· ≠ '#'), isBlank c = true :=
      fun c hc => h c ((List.takeWhile_prefix _).subset hc)
    rw [← List.append_nil (line.takeWhile (· ≠ '#')), fields_blanks_append hprefix, fields_nil]
  rw [lineEntries, hfields]

theorem lineEntries_of_fields {line address : Text} {names : List Text}
    (h : fields (line.takeWhile (· ≠ '#')) = address :: names) :
    lineEntries line = names.map ((address, ·)) := by
  rw [lineEntries, h]

/-- The address and the name of an entry stand in its line, before a comment. -/
theorem mem_lineEntries {line ip hostname : Text} (h : (ip, hostname) ∈ lineEntries line) :
    ip ∈ fields (line.takeWhile (· ≠ '#')) ∧ hostname ∈ fields (line.takeWhile (· ≠ '#')) := by
  cases hfields : fields (line.takeWhile (· ≠ '#')) with
  | nil =>
    rw [lineEntries, hfields] at h
    cases h
  | cons address names =>
    rw [lineEntries_of_fields hfields] at h
    obtain ⟨name, hname, heq⟩ := List.mem_map.mp h
    obtain ⟨rfl, rfl⟩ := Prod.mk.inj heq
    exact ⟨List.mem_cons_self, List.mem_cons_of_mem _ hname⟩

theorem infix_of_mem_lineEntries {line ip hostname : Text}
    (h : (ip, hostname) ∈ lineEntries line) : hostname <:+: line :=
  (infix_of_mem_fields (mem_lineEntries h).2).trans (List.takeWhile_prefix _).isInfix

/-- An address that an entry can have. -/
theorem plainAddress_of_mem {file ip hostname : Text} (h : (ip, hostname) ∈ entries file) :
    PlainAddress ip := by
  obtain ⟨line, _, hline⟩ := List.mem_flatMap.mp h
  have hfield := (mem_lineEntries hline).1
  intro c hc
  refine ⟨(field_of_mem_fields hfield).noBlank c hc, ?_⟩
  have hmem : c ∈ line.takeWhile (· ≠ '#') := (infix_of_mem_fields hfield).subset hc
  simpa using List.mem_takeWhile_imp hmem

theorem resembles_refl (hostname : Text) : Resembles hostname hostname :=
  List.forall₂_same.mpr fun _ _ => Or.inr rfl

/-- A line that holds the name is noticed. -/
theorem noticed_of_within {hostname line file : Text} (hline : line ∈ segments file)
    (h : hostname <:+: line) (hne : hostname ≠ []) : Noticed hostname file := by
  refine ⟨line, ?_, hostname, h, resembles_refl hostname⟩
  have hall : ∀ part ∈ segments file, part ≠ [] → part ∈ lines file := by
    refine (forall_lines_iff (P := fun part => part ≠ [] → part ∈ lines file) ?_ file).mp ?_
    · exact fun h => absurd rfl h
    · exact fun part hpart _ => hpart
  refine hall line hline fun hempty => hne ?_
  rw [hempty] at h
  exact List.infix_nil.mp h

theorem noticed_of_mem {file ip hostname : Text} (h : (ip, hostname) ∈ entries file)
    (hne : hostname ≠ []) : Noticed hostname file := by
  rw [entries_eq] at h
  obtain ⟨line, hline, hentry⟩ := List.mem_flatMap.mp h
  exact noticed_of_within hline (infix_of_mem_lineEntries hentry) hne

/-! ## Removing -/

/-- Deleting list elements is deleting one value, if what is deleted is only that
value, and what is kept never. -/
theorem flatMap_filter_iff {α β : Type} [DecidableEq β] {f : α → List β} {p : α → Bool} {e : β}
    {l : List α} :
    (l.filter fun x => !p x).flatMap f = (l.flatMap f).filter (· ≠ e) ↔
      ∀ x ∈ l, (p x = true → ∀ y ∈ f x, y = e) ∧ (p x = false → e ∉ f x) := by
  constructor
  · intro heq x hx
    refine ⟨fun hp y hy => ?_, fun hp he => ?_⟩
    · by_contra hne
      -- every `y` would have been kept, so none was deleted
      have hperm := ((List.filter_append_perm p l).flatMap_right f).count_eq y
      have hkept : ((l.filter fun x => !p x).flatMap f).count y = (l.flatMap f).count y := by
        rw [heq, List.count_filter (by simpa using hne)]
      rw [List.flatMap_append, List.count_append] at hperm
      have hmem : y ∈ (l.filter p).flatMap f :=
        List.mem_flatMap.mpr ⟨x, List.mem_filter.mpr ⟨hx, hp⟩, hy⟩
      have hpos := List.count_pos_iff.mpr hmem
      omega
    · have hmem : e ∈ (l.flatMap f).filter (· ≠ e) := by
        rw [← heq]
        exact List.mem_flatMap.mpr ⟨x, List.mem_filter.mpr ⟨hx, by rw [hp]; rfl⟩, he⟩
      simpa using (List.mem_filter.mp hmem).2
  · intro h
    induction l with
    | nil => rfl
    | cons x l ih =>
      obtain ⟨⟨hdeleted, hkept⟩, hrest⟩ := List.forall_mem_cons.mp h
      rw [List.flatMap_cons, List.filter_append, ← ih hrest]
      cases hp : p x with
      | true =>
        have hnone : (f x).filter (· ≠ e) = [] :=
          List.filter_eq_nil_iff.mpr fun y hy => by simpa using hdeleted hp y hy
        rw [List.filter_cons_of_neg (by simp [hp]), hnone, List.nil_append]
      | false =>
        have hall : (f x).filter (· ≠ e) = f x := by
          refine List.filter_eq_self.mpr fun y hy => ?_
          exact decide_eq_true fun heq => hkept hp (heq ▸ hy)
        rw [List.filter_cons_of_pos (by simp [hp]), hall, List.flatMap_cons]

theorem removes_iff {hostname ip : Text} (h : validateDnsHost hostname ip = .ok ())
    (file : Text) :
    RemovesHost hostname ip file ↔
      ∀ line ∈ lines file,
        (quotedName hostname <:+: line → ∀ e ∈ lineEntries line, e = (ip, hostname)) ∧
          (¬quotedName hostname <:+: line → (ip, hostname) ∉ lineEntries line) := by
  have hfile : RemovesHost hostname ip file ↔
      ((segments file).filter fun line =>
          !found ((quotedName hostname).map .char) line).flatMap lineEntries =
        ((segments file).flatMap lineEntries).filter (· ≠ (ip, hostname)) := by
    rw [RemovesHost, hostsAfter_remove h, ← entries_eq,
      ← flatMap_deleteLines lineEntries_nil]
    exact ⟨fun ⟨_, hfile, heq⟩ => Option.some.inj hfile ▸ heq, fun heq => ⟨_, rfl, heq⟩⟩
  rw [hfile, flatMap_filter_iff, forall_lines_iff]
  · refine forall₂_congr fun line _ => ?_
    rw [found_char_iff, ← found_char_iff, Bool.not_eq_true]
  · exact ⟨fun _ => nofun, fun _ => List.not_mem_nil⟩

/-! ## Adding -/

theorem takeWhile_append_of_hash {rest : Text} (h : '#' ∈ rest) (more : Text) :
    (rest ++ more).takeWhile (· ≠ '#') = rest.takeWhile (· ≠ '#') := by
  induction rest with
  | nil => cases h
  | cons c rest ih =>
    rw [List.cons_append, List.takeWhile_cons, List.takeWhile_cons]
    by_cases hc : c = '#'
    · rw [hc]
      rfl
    · have hrest : '#' ∈ rest := by
        rcases List.mem_cons.mp h with rfl | h
        · exact absurd rfl hc
        · exact h
      rw [if_pos (by simpa using hc), if_pos (by simpa using hc), ih hrest]

theorem takeWhile_of_noHash {t : Text} (h : '#' ∉ t) : t.takeWhile (· ≠ '#') = t :=
  List.takeWhile_eq_self_iff.mpr fun c hc => decide_eq_true fun heq => h (heq ▸ hc)

section

variable {hostname ip rest : Text} (hname : Field hostname) (hhash : '#' ∉ hostname)
  (haddress : PlainAddress ip) (hne : ip ≠ [])

include hname hhash haddress hne

theorem field_address : Field ip := ⟨hne, fun c hc => (haddress c hc).1⟩

/-- What is appended to a line with nothing but blanks is an entry. -/
theorem lineEntries_appended (hrest : ∀ c ∈ rest, isBlank c = true) :
    lineEntries (rest ++ (ip ++ '\t' :: hostname)) = [(ip, hostname)] := by
  have hnoHash : '#' ∉ rest ++ (ip ++ '\t' :: hostname) := by
    simp only [List.mem_append, List.mem_cons, not_or]
    refine ⟨fun hmem => ?_, fun hmem => (haddress _ hmem).2 rfl, by decide, hhash⟩
    exact absurd (hrest _ hmem) (by decide)
  have hline : fields (ip ++ '\t' :: hostname) = [ip, hostname] := by
    rw [fields_append_blank (by decide), fields_field hname,
      fields_field (field_address hname hhash haddress hne)]
    rfl
  have hfields : fields (rest ++ (ip ++ '\t' :: hostname)) = [ip, hostname] := by
    rw [fields_blanks_append hrest, hline]
  rw [lineEntries_of_fields (by rw [takeWhile_of_noHash hnoHash, hfields])]
  rfl

/-- After something else on the line it makes no entry, or changes one. -/
theorem appended_differs (hother : ∃ c ∈ rest, isBlank c = false)
    (hfresh : ¬hostname <:+: rest)
    (hmem : (ip, hostname) ∈ lineEntries (rest ++ (ip ++ '\t' :: hostname))) :
    (lineEntries (rest ++ (ip ++ '\t' :: hostname))).filter (· ≠ (ip, hostname)) ≠
      (lineEntries rest).filter (· ≠ (ip, hostname)) := by
  intro hsame
  have hcomment : '#' ∉ rest := by
    intro hhash'
    rw [lineEntries, takeWhile_append_of_hash hhash', ← lineEntries] at hmem
    exact hfresh (infix_of_mem_lineEntries hmem)
  have hnoHash : '#' ∉ rest ++ (ip ++ '\t' :: hostname) := by
    simp only [List.mem_append, List.mem_cons, not_or]
    exact ⟨hcomment, fun hmem => (haddress _ hmem).2 rfl, by decide, hhash⟩
  obtain ⟨before, run, rfl, hrun, hbefore⟩ := exists_last_run rest
  have hlast : Field (run ++ ip) := by
    refine ⟨fun h => hne (List.append_eq_nil_iff.mp h).2, fun c hc => ?_⟩
    rcases List.mem_append.mp hc with hc | hc
    · exact hrun c hc
    · exact (haddress c hc).1
  have hnew : fields (before ++ run ++ (ip ++ '\t' :: hostname)) =
      fields before ++ [run ++ ip, hostname] := by
    rw [List.append_assoc, hbefore, ← List.append_assoc, fields_append_blank (by decide),
      fields_field hlast, fields_field hname]
    rfl
  have hold : fields (before ++ run) = fields before ++ [run].filter (· ≠ []) := by
    rw [hbefore]
    by_cases hempty : run = []
    · rw [hempty]
      rfl
    · rw [fields_field ⟨hempty, hrun⟩, List.filter_cons_of_pos (by simpa using hempty)]
      rfl
  cases hfields : fields before with
  | nil =>
    have hentries : lineEntries (before ++ run ++ (ip ++ '\t' :: hostname)) =
        [(run ++ ip, hostname)] := by
      rw [lineEntries, takeWhile_of_noHash hnoHash, hnew, hfields]
      rfl
    rw [hentries, List.mem_singleton, Prod.mk.injEq] at hmem
    have hempty : run = [] := List.self_eq_append_left.mp hmem.1
    have hnone : fields (before ++ run) = [] := by
      rw [hold, hfields, hempty]
      rfl
    obtain ⟨c, hc, hblank⟩ := hother
    rw [blank_of_fields_eq_nil hnone c hc] at hblank
    cases hblank
  | cons address names =>
    rw [hfields, List.cons_append] at hnew hold
    have hentries : lineEntries (before ++ run ++ (ip ++ '\t' :: hostname)) =
        (names ++ [run ++ ip, hostname]).map ((address, ·)) :=
      lineEntries_of_fields (by rw [takeWhile_of_noHash hnoHash, hnew])
    have hentries' : lineEntries (before ++ run) =
        (names ++ [run].filter (· ≠ [])).map ((address, ·)) :=
      lineEntries_of_fields (by rw [takeWhile_of_noHash hcomment, hold])
    have hstands : ∀ t ∈ address :: (names ++ [run].filter (· ≠ [])), t ≠ hostname := by
      rintro t ht rfl
      exact hfresh (infix_of_mem_fields (hold ▸ ht))
    obtain rfl : address = ip := by
      rw [hentries] at hmem
      obtain ⟨name, _, heq⟩ := List.mem_map.mp hmem
      exact congrArg Prod.fst heq
    rw [hentries, hentries', List.map_append, List.map_append, List.filter_append,
      List.filter_append] at hsame
    have hends := List.append_cancel_left hsame
    by_cases hempty : run = []
    · -- then the address stands as a name, which it only may if it is the name
      have hkept : (address, address) ∈ ([run ++ address, hostname].map ((address, ·))).filter
          (· ≠ (address, hostname)) := by
        refine List.mem_filter.mpr ⟨?_, decide_eq_true fun heq => ?_⟩
        · rw [hempty]
          exact List.mem_cons_self
        · exact hstands address List.mem_cons_self (congrArg Prod.snd heq)
      rw [hends, hempty] at hkept
      cases hkept
    · -- then the last name of the line is no longer there
      have hrunMem : run ∈ address :: (names ++ [run].filter (· ≠ [])) := by
        refine List.mem_cons_of_mem _ (List.mem_append_right _ (List.mem_filter.mpr ?_))
        exact ⟨List.mem_singleton_self run, decide_eq_true hempty⟩
      have hkept : (address, run) ∈ (([run].filter (· ≠ [])).map ((address, ·))).filter
          (· ≠ (address, hostname)) := by
        refine List.mem_filter.mpr ⟨List.mem_map_of_mem ?_, decide_eq_true fun heq => ?_⟩
        · exact List.mem_filter.mpr ⟨List.mem_singleton_self run, decide_eq_true hempty⟩
        · exact hstands run hrunMem (congrArg Prod.snd heq)
      rw [← hends] at hkept
      obtain ⟨name, hname', heq⟩ := List.mem_map.mp (List.mem_filter.mp hkept).1
      obtain rfl : name = run := congrArg Prod.snd heq
      rcases List.mem_cons.mp hname' with hlonger | hlast'
      · exact hne (List.self_eq_append_right.mp hlonger)
      · exact hstands name hrunMem (List.mem_singleton.mp hlast')

end

theorem adds_iff {hostname ip : Text} (h : validateDnsHost hostname ip = .ok ())
    (file : Text) :
    AddsHost hostname ip file ↔
      (ip, hostname) ∈ entries file ∨
        (¬Noticed hostname file ∧ PlainAddress ip ∧ EndsLine file) := by
  obtain ⟨hname, haddress, hchars⟩ := valid_hostname h
  have hfield : Field hostname := field_hostname hname hchars
  have hhash : '#' ∉ hostname := fun hmem => (hostnameChar_plain (hchars _ hmem)).2.1 rfl
  obtain ⟨complete, rest, hsegments, _⟩ := exists_segments file
  have hentries : entries file = complete.flatMap lineEntries ++ lineEntries rest := by
    rw [entries_eq, hsegments, List.flatMap_append, List.flatMap_singleton]
  have hends : EndsLine file ↔ ∀ c ∈ rest, isBlank c = true := by
    rw [EndsLine, hsegments, List.getLast?_concat]
    exact ⟨fun hall => hall rest rfl, fun hall last hlast => Option.some.inj hlast ▸ hall⟩
  by_cases hnoticed : Noticed hostname file
  · -- the command leaves the file as it is
    have hgrep := (grep_hostname hostname file).mpr hnoticed
    rw [AddsHost, hostsAfter_add h, if_pos hgrep]
    constructor
    · rintro ⟨file', hfile, hmem, _⟩
      exact Or.inl (Option.some.inj hfile ▸ hmem)
    · rintro (hmem | ⟨hnot, _⟩)
      · exact ⟨file, rfl, hmem, rfl⟩
      · exact absurd hnoticed hnot
  · have hnotMem : (ip, hostname) ∉ entries file :=
      fun hmem => hnoticed (noticed_of_mem hmem hname)
    have hgrep : ¬grep (namePattern hostname) file = true :=
      mt (grep_hostname hostname file).mp hnoticed
    have hplain : PlainAddress ip → entries (file ++ (ip ++ '\t' :: (hostname ++ ['\n']))) =
        complete.flatMap lineEntries ++ lineEntries (rest ++ (ip ++ '\t' :: hostname)) := by
      intro hplain
      have hnewline : '\n' ∉ ip ++ '\t' :: hostname := by
        simp only [List.mem_append, List.mem_cons, not_or]
        refine ⟨fun hmem => ?_, by decide, fun hmem => ?_⟩
        · exact absurd (hplain _ hmem).1 (by decide)
        · exact absurd (hfield.noBlank _ hmem) (by decide)
      have hline : ip ++ '\t' :: (hostname ++ ['\n']) = ip ++ '\t' :: hostname ++ ['\n'] := by
        rw [List.append_assoc, List.cons_append]
      rw [entries_eq, hline, segments_append_line hsegments hnewline, List.flatMap_append,
        List.flatMap_cons, List.flatMap_singleton, lineEntries_nil, List.append_nil]
    rw [AddsHost, hostsAfter_add h, if_neg hgrep]
    constructor
    · rintro ⟨file', hfile, hmem, hsame⟩
      obtain rfl := Option.some.inj hfile
      have haddr : PlainAddress ip := plainAddress_of_mem hmem
      refine Or.inr ⟨hnoticed, haddr, hends.mpr ?_⟩
      rw [hplain haddr] at hmem hsame
      rw [hentries, List.filter_append, List.filter_append] at hsame
      have hlast := List.append_cancel_left hsame
      have hfresh : ¬hostname <:+: rest := fun hinside => hnoticed
        (noticed_of_within (hsegments ▸ List.mem_append_right _ (List.mem_singleton_self rest))
          hinside hname)
      have hmemLast : (ip, hostname) ∈ lineEntries (rest ++ (ip ++ '\t' :: hostname)) := by
        rcases List.mem_append.mp hmem with hmem | hmem
        · exact absurd (hentries ▸ List.mem_append_left _ hmem) hnotMem
        · exact hmem
      by_contra hother
      push_neg at hother
      obtain ⟨c, hc, hblank⟩ := hother
      exact appended_differs hfield hhash haddr haddress
        ⟨c, hc, Bool.eq_false_iff.mpr hblank⟩ hfresh hmemLast hlast
    · rintro (hmem | ⟨_, haddr, hline⟩)
      · exact absurd hmem hnotMem
      · have hblank := hends.mp hline
        have hlast := lineEntries_appended hfield hhash haddr haddress hblank
        have hrest : lineEntries rest = [] := lineEntries_of_blank hblank
        refine ⟨_, rfl, ?_, ?_⟩
        · rw [hplain haddr, hlast]
          exact List.mem_append_right _ (List.mem_singleton_self _)
        · rw [hplain haddr, hentries, hlast, hrest, List.filter_append, List.filter_append]
          simp

/-! ## Both changes -/

/--
**A host is added, and every other entry kept, exactly if the file maps the name to
the address already, or no line holds a text that resembles the name, the address is
one word and the file ends with its last line; it is removed, and every other entry
kept, exactly if its entries stand on lines that hold the name in single quotes, and
no other entry does.**
-/
theorem hosts_edits_iff {hostname ip : Text} (h : validateDnsHost hostname ip = .ok ())
    (file : Text) :
    (AddsHost hostname ip file ↔
      (ip, hostname) ∈ entries file ∨
        (¬Noticed hostname file ∧ PlainAddress ip ∧ EndsLine file)) ∧
    (RemovesHost hostname ip file ↔
      ∀ line ∈ lines file,
        (quotedName hostname <:+: line → ∀ e ∈ lineEntries line, e = (ip, hostname)) ∧
          (¬quotedName hostname <:+: line → (ip, hostname) ∉ lineEntries line)) :=
  ⟨adds_iff h file, removes_iff h file⟩

def exampleHosts : Text := "127.0.0.1\tlocalhost\n192.168.1.5\tnas.lan\n"

/-- A name that stands in the file with its address is added by doing nothing. -/
theorem nas_added : AddsHost "nas.lan" "192.168.1.5" exampleHosts :=
  ((hosts_edits_iff (by rfl) exampleHosts).1).mpr (Or.inl (by decide))

/-- The name `nas` is not added, since a line holds `nas.lan`; and `nas.lan` is not
removed, since no line holds it in quotes. -/
theorem nas_not_added_nor_removed :
    ¬AddsHost "nas" "192.168.1.9" exampleHosts ∧
      ¬RemovesHost "nas.lan" "192.168.1.5" exampleHosts := by
  have hadd : hostsAfter (dnsAddHost "nas" "192.168.1.9") exampleHosts = some exampleHosts := by
    rfl
  have hremove : hostsAfter (dnsRemoveHost "nas.lan" "192.168.1.5") exampleHosts =
      some exampleHosts := by decide +kernel
  constructor
  · rintro ⟨file', hfile, hmem, _⟩
    obtain rfl := Option.some.inj (hadd.symm.trans hfile)
    exact absurd hmem (by decide)
  · rintro ⟨file', hfile, hsame⟩
    obtain rfl := Option.some.inj (hremove.symm.trans hfile)
    exact absurd hsame (by decide)

end OpenWrtCopilot.Ports.HostsFile
