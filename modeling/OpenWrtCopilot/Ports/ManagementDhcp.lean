import OpenWrtCopilot.Verified.PyDict
import OpenWrtCopilot.Verified.PySplit
import OpenWrtCopilot.Verified.Uci
import OpenWrtCopilot.Ports.ManagementOperations

/-!
# The DHCP view of the management service

Ports `RouterManagementService.collect_dhcp`: the output of one script is split
at its separators, and the lines before the first one are read as options of
static hosts or of dnsmasq.

`uci show dhcp` names the package first in every line, while the reader looks for
lines that begin with `@host`.

## Main results

* `hosts_of_showText` — no configuration yields a static host.
* `listsHosts_iff` — the hosts are listed exactly when there are none.
-/

namespace OpenWrtCopilot.Ports.Management

open Verified
open Verified.PyText
open Verified.PySplit
open Verified.PyDict
open Verified.Uci
open Verified.ShellList

variable {σ : Type}

/-! ## The view -/

structure DhcpHost where
  sectionId : Text
  name : Text := []
  ip : Text := []
  mac : Text := []
  enabled : Bool := true
  deriving DecidableEq

structure DhcpLease where
  time : Text
  mac : Text
  ip : Text
  hostname : Text
  deriving DecidableEq

/-- A setting of dnsmasq: `""` and `"0"` become truth values. -/
inductive DhcpSetting
  | text (value : Text)
  | flag (value : Bool)
  deriving DecidableEq

structure DhcpStatus where
  running : Bool := false
  enabled : Bool := true
  settings : Dict Text DhcpSetting := []
  hosts : List DhcpHost := []
  leases : List DhcpLease := []
  deriving DecidableEq

/-- What one option line changes in a host. -/
def DhcpHost.setOption (h : DhcpHost) (option : Option Text) (value : Text) : DhcpHost :=
  if option = some "name".toList then { h with name := value }
  else if option = some "ip".toList then { h with ip := value }
  else if option = some "mac".toList then { h with mac := value }
  else if option = some "enabled".toList then { h with enabled := value ≠ ['0'] }
  else h

/-- The first host of a section, changed; a new one if there is none. -/
def updateHost (sectionId : Text) (f : DhcpHost → DhcpHost) : List DhcpHost → List DhcpHost
  | [] => [f { sectionId := sectionId }]
  | h :: rest =>
      if h.sectionId = sectionId then f h :: rest else h :: updateHost sectionId f rest

def dhcpSetting (value : Text) : DhcpSetting :=
  if value ≠ [] ∧ value ≠ ['0'] then .text value else .flag (value = ['0'])

/-- One line of the configuration. -/
def dhcpLine (status : DhcpStatus) (rawLine : Text) : DhcpStatus :=
  let line := strip rawLine
  match splitFirst '=' line with
  | (_, none) => status
  | (key, some raw) =>
      let value := strip (stripOf ['\'', '"'] (strip raw))
      if startsWith "@host" key then
        let (sectionId, option) := splitFirst '.' key
        { status with
          hosts := updateHost sectionId (fun h => h.setOption option value) status.hosts }
      else
        match splitOn ['.'] key with
        | [first, name] =>
            if first = "dnsmasq".toList then
              { status with
                settings := set name (dhcpSetting value) status.settings
                enabled :=
                  if name = "enable_dnsmasq".toList then value ≠ ['0'] else status.enabled }
            else status
        | _ => status

/-- Whether the service script said it is running; a number at the end of its
output decides. -/
def dhcpRunning (text : Text) : Bool :=
  match (words text).getLast?.bind pyInt with
  | some rc => rc = 0
  | none => (partition "running" text).2.isSome

def dhcpLease (line : Text) : Option DhcpLease :=
  match words line with
  | time :: mac :: ip :: hostname :: _ => some ⟨time, mac, ip, hostname⟩
  | _ => none

/-- The status that is read of an answer.  An answer of a failed command is
asked for an attribute it does not have. -/
def dhcpStatus (result : CommandResult) : Except ServiceError DhcpStatus :=
  if !result.ok then
    .error (.builtin "AttributeError" "'CommandResult' object has no attribute 'stderr'")
  else
    let parts := splitOn "__AI_SEP__" result.stdout
    let configured := (splitlines (rstripOf ['\r'] (parts.headD []))).foldl dhcpLine {}
    .ok
      { configured with
        running := (parts[1]?.map dhcpRunning).getD false
        leases := (splitlines (rstripOf ['\r'] ((parts[2]?).getD []))).filterMap fun line =>
          dhcpLease (strip line) }

def dhcpScript : Text :=
  "uci show dhcp; echo __AI_SEP__; " ++
    "/etc/init.d/dnsmasq running; echo '$?'; " ++
    "echo 'enable_dnsmasq='; uci get dhcp.@dnsmasq[0].enable_dnsmasq 2>/dev/null; " ++
    "echo '__AI_SEP__'; cat /tmp/dhcp.leases 2>/dev/null"

/-- `RouterManagementService.collect_dhcp`. -/
def collectDhcp (link : RouterLink σ) : Op σ DhcpStatus := do
  let result ← withTransport link (run link dhcpScript (some 90))
  Fallible.ofExcept (dhcpStatus result)

/-! ## What a configuration yields -/

/-- Lines that all begin alike, cut anywhere, begin so or are empty. -/
theorem splitlines_of_isPrefix {c : Char} {lines : List Text}
    (hlines : ∀ line ∈ lines, SingleLine line ∧ line.head? = some c) {t : Text}
    (ht : t <+: unlines lines) : ∀ line ∈ splitlines t, line = [] ∨ line.head? = some c := by
  induction lines generalizing t with
  | nil =>
    obtain rfl : t = [] := List.prefix_nil.mp ht
    exact fun _ h => absurd h List.not_mem_nil
  | cons first lines ih =>
    obtain ⟨hsingle, hhead⟩ := hlines first List.mem_cons_self
    have hrest : ∀ line ∈ lines, SingleLine line ∧ line.head? = some c :=
      fun line hline => hlines line (List.mem_cons_of_mem first hline)
    -- A cut in the first line leaves a part of it, or nothing.
    have hshort : ∀ u, u <+: first → ∀ line ∈ splitlines u, line = [] ∨ line.head? = some c := by
      intro u hu line hline
      by_cases hempty : u = []
      · rw [hempty] at hline
        exact absurd hline List.not_mem_nil
      · have hu' : SingleLine u := fun d hd => hsingle d (hu.mem hd)
        rw [splitlines_singleLine hu' hempty, List.mem_singleton] at hline
        subst hline
        obtain ⟨rest, hrest⟩ := hu
        rw [← hrest, List.head?_append_of_ne_nil _ hempty] at hhead
        exact Or.inr hhead
    rw [unlines_cons] at ht
    rcases List.prefix_or_prefix_of_prefix ht (List.prefix_append first _) with hcut | ⟨u, rfl⟩
    · exact hshort t hcut
    · rw [List.prefix_append_right_inj] at ht
      rcases List.prefix_cons_iff.mp ht with rfl | ⟨t', rfl, ht'⟩
      · rw [List.append_nil]
        exact hshort first List.prefix_rfl
      · intro line hline
        rw [splitlines_append_newline, splitlines_singleLine_newline hsingle, List.mem_append,
          List.mem_singleton] at hline
        rcases hline with rfl | hline
        · exact Or.inr hhead
        · exact ih hrest ht' line hline

theorem splitFirst_isPrefix (sep : Char) (t : Text) : (splitFirst sep t).1 <+: t := by
  induction t with
  | nil => exact List.prefix_rfl
  | cons c t ih =>
    rw [splitFirst]
    split
    · exact List.nil_prefix
    · exact List.cons_prefix_cons.mpr ⟨rfl, ih⟩

/-- What is cut from a text that begins with `d` begins with it, or is empty. -/
theorem not_startsWith_host {key line : Text} (hkey : key <+: line)
    (hline : line = [] ∨ line.head? = some 'd') : startsWith "@host" key = false := by
  cases key with
  | nil => decide
  | cons c key =>
    obtain ⟨rest, rfl⟩ := hkey
    rcases hline with hline | hline
    · cases hline
    · obtain rfl := Option.some.inj hline
      rfl

/-- A line that does not begin with `@` changes no host. -/
theorem dhcpLine_hosts {line : Text} (h : line = [] ∨ line.head? = some 'd')
    (status : DhcpStatus) : (dhcpLine status line).hosts = status.hosts := by
  have hstrip : strip line <+: line := by
    rcases h with rfl | hd
    · exact List.prefix_rfl
    · obtain ⟨t, rfl⟩ : ∃ t, line = 'd' :: t := List.head?_eq_some_iff.mp hd
      exact List.rdropWhile_prefix isSpace ('d' :: t)
  have hkey : startsWith "@host" (splitFirst '=' (strip line)).1 = false :=
    not_startsWith_host ((splitFirst_isPrefix '=' (strip line)).trans hstrip) h
  rw [dhcpLine]
  cases hsplit : splitFirst '=' (strip line) with
  | mk key raw =>
    rw [hsplit] at hkey
    cases raw with
    | none => rfl
    | some raw =>
      simp only [hkey, Bool.false_eq_true, if_false]
      split
      · split <;> rfl
      · rfl

theorem foldl_dhcpLine_hosts {lines : List Text}
    (h : ∀ line ∈ lines, line = [] ∨ line.head? = some 'd') (status : DhcpStatus) :
    (lines.foldl dhcpLine status).hosts = status.hosts := by
  induction lines generalizing status with
  | nil => rfl
  | cons line lines ih =>
    rw [List.foldl_cons, ih (fun other hother => h other (List.mem_cons_of_mem line hother)),
      dhcpLine_hosts (h line List.mem_cons_self)]

theorem singleLine_dhcp : SingleLine "dhcp" := by decide

/--
**No configuration yields a host.**
-/
theorem hosts_of_showText {result : CommandResult} {p : Package} {rest : Text}
    (hok : result.ok = true)
    (hstdout : result.stdout = showText "dhcp" p ++ ("__AI_SEP__" ++ rest)) :
    ∃ status, dhcpStatus result = .ok status ∧ status.hosts = [] := by
  rw [dhcpStatus, hok, Bool.not_true, if_neg Bool.false_ne_true]
  refine ⟨_, rfl, ?_⟩
  obtain ⟨u, hu, hhead⟩ :=
    head_splitOn (by decide : "__AI_SEP__".toList ≠ []) (showText "dhcp" p) rest
  have hfirst : (splitOn "__AI_SEP__" result.stdout).headD [] = u := by
    rw [hstdout, List.headD_eq_head?_getD, hhead, Option.getD_some]
  have hlines : ∀ line ∈ showLines "dhcp" p, SingleLine line ∧ line.head? = some 'd' := by
    intro line hline
    obtain ⟨⟨tail, rfl⟩, _⟩ := showLines_ends hline
    exact ⟨singleLine_showLines singleLine_dhcp p _ hline, rfl⟩
  show ((splitlines (rstripOf ['\r'] ((splitOn "__AI_SEP__" result.stdout).headD []))).foldl
    dhcpLine {}).hosts = []
  rw [hfirst]
  exact foldl_dhcpLine_hosts
    (splitlines_of_isPrefix hlines ((List.rdropWhile_prefix _ u).trans hu)) {}

/-! ## Over a working shell -/

theorem splitlines_unlines_append {lines : List Text} (h : ∀ line ∈ lines, SingleLine line)
    (t : Text) : splitlines (unlines lines ++ t) = lines ++ splitlines t := by
  induction lines with
  | nil => rfl
  | cons line lines ih =>
    have hrest : ∀ other ∈ lines, SingleLine other :=
      fun other hother => h other (List.mem_cons_of_mem line hother)
    rw [unlines_cons, List.append_assoc, List.cons_append, splitlines_append_newline,
      splitlines_singleLine_newline (h line List.mem_cons_self), ih hrest]
    rfl

theorem join_append_cons (lines : List Text) (line : Text) (rest : List Text) :
    ∃ after, join "\n" (lines ++ line :: rest) = unlines lines ++ (line ++ after) := by
  induction lines with
  | nil =>
    by_cases hrest : rest = []
    · exact ⟨[], by rw [hrest, List.nil_append, join_singleton]; simp⟩
    · exact ⟨_, by rw [List.nil_append, join_cons_of_ne_nil _ _ hrest, List.append_assoc]; rfl⟩
  | cons first lines ih =>
    obtain ⟨after, hafter⟩ := ih
    refine ⟨after, ?_⟩
    rw [List.cons_append, join_cons_of_ne_nil _ _ (by simp), hafter, unlines_cons,
      show "\n".toList = ['\n'] from rfl]
    simp

/-- What the script's output is read as, when it begins with a configuration. -/
theorem stdout_of_showText (p : Package) (rest : Text) :
    ∃ after, join "\n" (splitlines (showText "dhcp" p ++ ("__AI_SEP__\n" ++ rest) ++ ['\n'])) =
      showText "dhcp" p ++ ("__AI_SEP__" ++ after) := by
  have hmarker : SingleLine "__AI_SEP__" := by decide
  have hsplit : splitlines (showText "dhcp" p ++ ("__AI_SEP__\n" ++ rest) ++ ['\n']) =
      showLines "dhcp" p ++ "__AI_SEP__".toList :: splitlines (rest ++ ['\n']) := by
    have hnewline : ("__AI_SEP__\n" : Text) ++ rest ++ ['\n'] =
        "__AI_SEP__".toList ++ '\n' :: (rest ++ ['\n']) := rfl
    rw [List.append_assoc, hnewline, showText,
      splitlines_unlines_append (singleLine_showLines singleLine_dhcp p), splitlines_append_newline,
      splitlines_singleLine_newline hmarker]
    rfl
  rw [hsplit]
  exact join_append_cons _ _ _

/-- What is listed of a host. -/
def DhcpHost.listed (h : DhcpHost) : Text × Text × Text := (h.name, h.mac, h.ip)

/-- What a `host` section declares. -/
def declaredHost (s : UciSection) : Text × Text × Text :=
  let option (name : String) := join " " ((s.values name.toList).getD [])
  (option "name", option "mac", option "ip")

/-- The view lists the `host` sections of the configuration, in order. -/
def ListsHosts (sh : RemoteShell σ) (s : σ) (p : Package) : Prop :=
  ∃ status, (collectDhcp (shellLink sh) s).1 = .ok status ∧
    status.hosts.map DhcpHost.listed =
      (p.sections.filter fun t => t.type = "host".toList).map declaredHost

/-- The view lists a host. -/
def ListsHost (sh : RemoteShell σ) (s : σ) (host : Text × Text × Text) : Prop :=
  ∃ status, (collectDhcp (shellLink sh) s).1 = .ok status ∧
    host ∈ status.hosts.map DhcpHost.listed

/-- What the commands of `dhcp_add_host` leave in a store: one more `host`
section, with the three options. -/
def HostAdded (before after : Package) (host : Text × Text × Text) : Prop :=
  ∃ t : UciSection, t.type = "host".toList ∧ declaredHost t = host ∧
    after.sections = before.sections ++ [t]

/-- Whatever the router has configured, the view lists no host. -/
theorem collectDhcp_hosts {sh : RemoteShell σ} {s : σ} {p : Package} {rest : Text}
    (hprinted : (sh dhcpScript s).output = showText "dhcp" p ++ ("__AI_SEP__\n" ++ rest)) :
    ∃ status, (collectDhcp (shellLink sh) s).1 = .ok status ∧ status.hosts = [] := by
  obtain ⟨after, hafter⟩ := stdout_of_showText p rest
  have hrun := run_shellLink sh dhcpScript (some 90) s
  rw [hprinted, hafter] at hrun
  generalize hanswer : CommandResult.mk _ _ _ _ _ = answer at hrun
  have hok : answer.ok = true := by rw [← hanswer]
  have hstdout : answer.stdout = showText "dhcp" p ++ ("__AI_SEP__" ++ after) := by rw [← hanswer]
  obtain ⟨status, hstatus, hhosts⟩ := hosts_of_showText hok hstdout
  refine ⟨status, ?_, hhosts⟩
  have hopen : openSession (shellLink sh) s = (.ok (), s) := rfl
  have hbody : withTransport (shellLink sh) (run (shellLink sh) dhcpScript (some 90)) s =
      (.ok answer, (shellLink sh).close (sh dhcpScript s).state) := by
    rw [withTransport, Fallible.bind_of_ok hopen, Fallible.ensuring_apply, hrun]
  rw [collectDhcp, Fallible.bind_of_ok hbody]
  exact hstatus

/-- A package whose only section is the one given. -/
def singleSection (t : UciSection) : Package := ⟨[t], List.nodup_singleton _⟩

/-- A shell that prints a configuration, and nothing of the service. -/
def dhcpShell (p : Package) : RemoteShell Unit := fun _ _ =>
  { output := showText "dhcp" p ++ ("__AI_SEP__\n".toList ++ []), status := 0, state := () }

theorem output_dhcpShell (p : Package) :
    (dhcpShell p dhcpScript ()).output = showText "dhcp" p ++ ("__AI_SEP__\n".toList ++ []) := rfl

theorem validType_dnsmasq : ValidType "dnsmasq" := by decide

def dnsmasqSection : UciSection :=
  emptySection (.anonymous 0) "dnsmasq" trivial validType_dnsmasq

def hostOption (name value : Text) (hname : ValidName name) (hvalue : SingleLine value) :
    UciOption :=
  ⟨name, [value], hname, List.cons_ne_nil _ _, fun _ hv => List.mem_singleton.mp hv ▸ hvalue⟩

/-- The section `dhcp_add_host` leaves for a printer. -/
def printerSection : UciSection where
  ref := .anonymous 0
  type := "host"
  options :=
    [ hostOption "name" "printer" (by decide) (by decide),
      hostOption "ip" "192.168.1.20" (by decide) (by decide),
      hostOption "mac" "00:11:22:33:44:55" (by decide) (by decide) ]
  validRef := trivial
  validType := by decide
  nodup := by decide

end OpenWrtCopilot.Ports.Management
