import OpenWrtCopilot.Ports.ManagementRecording
import OpenWrtCopilot.Ports.ManagementReads

/-!
# Commands that leave the router as it is

`ReadOnly` lists the commands the service sends only to read: probes, gather
scripts, package queries, log reads, and the archive commands of a backup, which
make a file under `/tmp` and remove it.  Every other command counts as
state-changing.

## Main results

* `not_readOnly` — a state-changing command is told apart by how it begins.
* `sends_backup`, `sends_bundle`, … — what the read operations send.
-/

namespace OpenWrtCopilot.Ports.Management

open Verified
open Verified.PyText

variable {σ α : Type}

/-! ## The commands -/

/-- The commands that are sent only to read. -/
inductive ReadOnly : Text → Prop
  | probeApk : ReadOnly "command -v apk"
  | probeOpkg : ReadOnly "command -v opkg"
  | probeSysupgrade : ReadOnly "command -v sysupgrade"
  | apkInstalled : ReadOnly "apk list --installed"
  | apkUpgradable : ReadOnly "apk list --upgradable"
  | apkDatabase : ReadOnly "cat /lib/apk/db/installed 2>/dev/null"
  | opkgInstalled : ReadOnly "opkg list-installed"
  | opkgUpgradable : ReadOnly "opkg list-upgradable"
  | opkgStatus : ReadOnly "opkg status 2>/dev/null || cat /usr/lib/opkg/status 2>/dev/null"
  | opkgList : ReadOnly "opkg list"
  | distFeeds : ReadOnly "cat /etc/opkg/distfeeds.conf 2>/dev/null"
  | customFeeds : ReadOnly "cat /etc/opkg/customfeeds.conf 2>/dev/null"
  | repositories : ReadOnly "cat /etc/apk/repositories /etc/apk/repositories.d/* 2>/dev/null"
  | opkgLists : ReadOnly "ls -1t /var/opkg-lists/* 2>/dev/null | head -1"
  | apkIndexes : ReadOnly "ls -1t /var/cache/apk/*APKINDEX* 2>/dev/null | head -1"
  | cpuCount : ReadOnly "grep -c '^processor' /proc/cpuinfo 2>/dev/null"
  | storageGather : ReadOnly storageGatherCmd
  | servicesGather : ReadOnly servicesGatherCmd
  | firewallGather : ReadOnly firewallGatherCmd
  | dns : ReadOnly dnsScript
  | procs : ReadOnly procsScript
  | systemGather : ReadOnly systemGatherCmd
  | hostname : ReadOnly hostnameCommand
  | sysupgradeBackup : ReadOnly Management.sysupgradeBackup
  | configBackup : ReadOnly Management.configBackup
  | bundle {title command : Text} (h : (title, command) ∈ bundleSections) : ReadOnly command
  | logread (lines : Int) : ReadOnly (logreadCommand lines)
  | updated (marker : Text) : ReadOnly (feedsUpdatedCommand marker)
  | opkgInfo (name : Text) : ReadOnly ("opkg info " ++ shQuote name)
  | apkInfo (name : Text) : ReadOnly ("apk info -a " ++ shQuote name)
  | apkSearch (term : Text) : ReadOnly ("apk search -v -q " ++ shQuote term)

/-- The ways a read-only command begins. -/
def readHeads : List Text :=
  [['c'], ['o'], ['l'], ['g'], ['f'], ['u'], ['p'], ['t'], ['e'], ['s'], ['d'], ['i'],
    ['a', 'p', 'k', ' ', 'l'], ['a', 'p', 'k', ' ', 'i'], ['a', 'p', 'k', ' ', 's']]

/-- How the state-changing commands begin that a request sends without a
confirmation, or although the guard would deny it. -/
def changingHeads : List Text :=
  [['k'], ['('], ['a', 'p', 'k', ' ', 'u'], ['a', 'p', 'k', ' ', 'd']]

theorem heads_apart : ∀ p ∈ readHeads, ∀ q ∈ changingHeads, ¬p <+: q ∧ ¬q <+: p := by decide

/-- The commands of the bundle begin like read-only commands. -/
theorem bundleSections_begin :
    ∀ entry ∈ bundleSections, ∃ p ∈ readHeads, p <+: entry.2 := by
  intro entry hentry
  simp only [bundleSections, List.mem_cons, List.not_mem_nil, or_false] at hentry
  rcases hentry with rfl | rfl | rfl | rfl | rfl | rfl | rfl | rfl | rfl
  · exact ⟨['c'], by decide, begins_literal rfl⟩
  · exact ⟨['d'], by decide, begins_literal rfl⟩
  · exact ⟨['d'], by decide, begins_literal rfl⟩
  · exact ⟨['f'], by decide, begins_literal rfl⟩
  · exact ⟨['i'], by decide, begins_literal rfl⟩
  · exact ⟨['u'], by decide, begins_literal rfl⟩
  · exact ⟨['u'], by decide, begins_literal rfl⟩
  · exact ⟨['a', 'p', 'k', ' ', 'l'], by decide, begins_literal rfl⟩
  · exact ⟨['l'], by decide, begins_literal rfl⟩

theorem storageGatherCmd_begins : ['f'] <+: storageGatherCmd := by
  delta storageGatherCmd
  simp only [List.append_assoc]
  exact begins_append rfl _

theorem servicesGatherCmd_begins : ['u'] <+: servicesGatherCmd := by
  delta servicesGatherCmd
  simp only [List.append_assoc]
  exact begins_append rfl _

theorem firewallGatherCmd_begins : ['p'] <+: firewallGatherCmd := by
  delta firewallGatherCmd
  simp only [List.append_assoc]
  exact begins_append rfl _

theorem dnsScript_begins : ['u'] <+: dnsScript := by
  delta dnsScript
  simp only [List.append_assoc]
  exact begins_append rfl _

theorem procsScript_begins : ['t'] <+: procsScript := by
  delta procsScript
  simp only [List.append_assoc]
  exact begins_append rfl _

theorem systemGatherCmd_begins : ['e'] <+: systemGatherCmd := by
  delta systemGatherCmd
  simp only [List.append_assoc]
  exact begins_append rfl _

theorem hostnameCommand_begins : ['c'] <+: hostnameCommand := by
  delta hostnameCommand
  exact begins_append rfl _

theorem feedsUpdatedCommand_begins (marker : Text) : ['d'] <+: feedsUpdatedCommand marker := by
  delta feedsUpdatedCommand
  simp only [List.append_assoc]
  exact begins_append rfl _

theorem sysupgradeBackup_begins : ['s'] <+: sysupgradeBackup := by
  delta Management.sysupgradeBackup archiveCommand
  simp only [List.append_assoc]
  exact begins_append rfl _

theorem configBackup_begins : ['t'] <+: configBackup := by
  delta configBackup
  simp only [List.append_assoc]
  exact begins_append rfl _

/-- A read-only command begins in one of the listed ways. -/
theorem ReadOnly.begins {command : Text} (h : ReadOnly command) :
    ∃ p ∈ readHeads, p <+: command := by
  cases h with
  | probeApk => exact ⟨['c'], by decide, begins_literal rfl⟩
  | probeOpkg => exact ⟨['c'], by decide, begins_literal rfl⟩
  | probeSysupgrade => exact ⟨['c'], by decide, begins_literal rfl⟩
  | apkInstalled => exact ⟨['a', 'p', 'k', ' ', 'l'], by decide, begins_literal rfl⟩
  | apkUpgradable => exact ⟨['a', 'p', 'k', ' ', 'l'], by decide, begins_literal rfl⟩
  | apkDatabase => exact ⟨['c'], by decide, begins_literal rfl⟩
  | opkgInstalled => exact ⟨['o'], by decide, begins_literal rfl⟩
  | opkgUpgradable => exact ⟨['o'], by decide, begins_literal rfl⟩
  | opkgStatus => exact ⟨['o'], by decide, begins_literal rfl⟩
  | opkgList => exact ⟨['o'], by decide, begins_literal rfl⟩
  | distFeeds => exact ⟨['c'], by decide, begins_literal rfl⟩
  | customFeeds => exact ⟨['c'], by decide, begins_literal rfl⟩
  | repositories => exact ⟨['c'], by decide, begins_literal rfl⟩
  | opkgLists => exact ⟨['l'], by decide, begins_literal rfl⟩
  | apkIndexes => exact ⟨['l'], by decide, begins_literal rfl⟩
  | cpuCount => exact ⟨['g'], by decide, begins_literal rfl⟩
  | storageGather => exact ⟨['f'], by decide, storageGatherCmd_begins⟩
  | servicesGather => exact ⟨['u'], by decide, servicesGatherCmd_begins⟩
  | firewallGather => exact ⟨['p'], by decide, firewallGatherCmd_begins⟩
  | dns => exact ⟨['u'], by decide, dnsScript_begins⟩
  | procs => exact ⟨['t'], by decide, procsScript_begins⟩
  | systemGather => exact ⟨['e'], by decide, systemGatherCmd_begins⟩
  | hostname => exact ⟨['c'], by decide, hostnameCommand_begins⟩
  | sysupgradeBackup => exact ⟨['s'], by decide, sysupgradeBackup_begins⟩
  | configBackup => exact ⟨['t'], by decide, configBackup_begins⟩
  | bundle hentry => exact bundleSections_begin _ hentry
  | logread lines => exact ⟨['l'], by decide, begins_append rfl _⟩
  | updated marker => exact ⟨['d'], by decide, feedsUpdatedCommand_begins marker⟩
  | opkgInfo name => exact ⟨['o'], by decide, begins_append rfl _⟩
  | apkInfo name => exact ⟨['a', 'p', 'k', ' ', 'i'], by decide, begins_append rfl _⟩
  | apkSearch term => exact ⟨['a', 'p', 'k', ' ', 's'], by decide, begins_append rfl _⟩

/-- A command that begins like a state-changing one is not read-only. -/
theorem not_readOnly {command q : Text} (hq : q ∈ changingHeads) (h : q <+: command) :
    ¬ReadOnly command := by
  intro hread
  obtain ⟨p, hp, hcommand⟩ := hread.begins
  obtain ⟨hpq, hqp⟩ := heads_apart p hp q hq
  rcases List.prefix_or_prefix_of_prefix hcommand h with hpre | hpre
  · exact hpq hpre
  · exact hqp hpre

/-! ## What the read operations send -/

/-- The link that logs the commands themselves. -/
abbrev commandLog (link : RouterLink σ) : RouterLink (σ × List Text) :=
  recording unwrapCommand link

section Reading

variable {P : Text → Prop} (link : RouterLink σ)

theorem sends_run {command : Text} (h : P command) (timeout : Option Nat) :
    Fallible.Respects (Sends P) (Management.run (commandLog link) command timeout) := by
  refine Respects.run unwrapCommand link ?_ timeout
  rw [unwrapCommand_wrapCommand]
  exact h

theorem sends_pkgRun {command : Text} (h : P command) (timeout : Nat) :
    Fallible.Respects (Sends P) (pkgRun (commandLog link) command timeout) :=
  Respects.withTransport unwrapCommand link (sends_run link h (some timeout))

theorem sends_readOutput {command : Text} (h : P command) (timeout : Nat) :
    Fallible.Respects (Sends P) (readOutput (commandLog link) command timeout) :=
  Fallible.Respects.bind (sends_pkgRun link h timeout) fun _ => Fallible.Respects.pure _

/-- An operation that only reads. -/
abbrev Reads (P : Text → Prop) : Prop := ∀ command, ReadOnly command → P command

variable (hP : Reads P)

include hP

theorem sends_detectPackageManager :
    Fallible.Respects (Sends P) (detectPackageManager (commandLog link)) := by
  refine Fallible.Respects.bind (sends_run link (hP _ .probeApk) none) fun apk => ?_
  refine Fallible.Respects.ite (fun _ => Fallible.Respects.pure _) fun _ => ?_
  refine Fallible.Respects.bind (sends_run link (hP _ .probeOpkg) none) fun opkg => ?_
  exact Fallible.Respects.ite (fun _ => Fallible.Respects.pure _) fun _ =>
    Fallible.Respects.pure _

theorem sends_pkgManager : Fallible.Respects (Sends P) (pkgManager (commandLog link)) :=
  Respects.withTransport unwrapCommand link (sends_detectPackageManager link hP)

/-- The probes of the package manager and the command for the manager found. -/
theorem sends_runForManager {command : PackageManager → Option Text}
    (h : ∀ manager text, command manager = some text → P text) :
    Fallible.Respects (Sends P) (runForManager (commandLog link) command) := by
  refine Fallible.Respects.bind (sends_pkgManager link hP) fun manager => ?_
  cases htext : command manager with
  | none =>
    simp only
    exact Fallible.Respects.raise _
  | some text =>
    simp only
    exact sends_pkgRun link (h manager text htext) 600

theorem sends_readLogs (lines : Int) :
    Fallible.Respects (Sends P) (readLogs (commandLog link) lines) := by
  refine Respects.withTransport unwrapCommand link ?_
  refine Fallible.Respects.bind (sends_run link (hP _ (.logread lines)) none) fun result => ?_
  exact Fallible.Respects.ite (fun _ => Fallible.Respects.raise_bind _ _) fun _ =>
    Fallible.Respects.pure _

theorem sends_processes : Fallible.Respects (Sends P) (processes (commandLog link)) := by
  refine Respects.withTransport unwrapCommand link ?_
  refine Fallible.Respects.bind (sends_run link (hP _ .procs) _) fun first => ?_
  refine Fallible.Respects.bind (sends_run link (hP _ .procs) _) fun second => ?_
  refine Fallible.Respects.bind (sends_run link (hP _ .cpuCount) _) fun cpus => ?_
  exact Fallible.Respects.pure _

omit hP in
/-- The inventory of one manager: three commands. -/
theorem sends_inventory {installed upgradable status : Text} (hinstalled : P installed)
    (hupgradable : P upgradable) (hstatus : P status)
    (f : CommandResult → CommandResult → CommandResult → PackageInventory) :
    Fallible.Respects (Sends P)
      (do
        let first ← Management.run (commandLog link) installed none
        let second ← Management.run (commandLog link) upgradable none
        let third ← Management.run (commandLog link) status none
        return f first second third) := by
  refine Fallible.Respects.bind (sends_run link hinstalled none) fun first => ?_
  refine Fallible.Respects.bind (sends_run link hupgradable none) fun second => ?_
  refine Fallible.Respects.bind (sends_run link hstatus none) fun third => ?_
  exact Fallible.Respects.pure _

theorem sends_collectPackages :
    Fallible.Respects (Sends P) (collectPackages (commandLog link)) := by
  refine Respects.withTransport unwrapCommand link ?_
  refine Fallible.Respects.bind (sends_detectPackageManager link hP) fun manager => ?_
  cases manager with
  | apk =>
    exact sends_inventory link (hP _ .apkInstalled) (hP _ .apkUpgradable)
      (hP _ .apkDatabase) _
  | opkg =>
    exact sends_inventory link (hP _ .opkgInstalled) (hP _ .opkgUpgradable)
      (hP _ .opkgStatus) _
  | unknown => exact Fallible.Respects.pure _

theorem sends_packages (refresh : Bool) :
    Fallible.Respects (SendsVia ServiceState.router P) (packages (commandLog link) refresh) := by
  have hrefresh : Fallible.Respects (SendsVia ServiceState.router P)
      (refreshPackages (commandLog link)) := by
    refine Fallible.Respects.bind (Respects.onRouter (sends_collectPackages link hP))
      fun data => ?_
    refine Fallible.Respects.bind ?_ fun _ => Fallible.Respects.pure _
    exact Fallible.Respects.modify fun s => Sends.of_log_eq rfl
  refine Fallible.Respects.bind Fallible.Respects.read fun s => ?_
  cases s.packagesCache with
  | none => exact hrefresh
  | some cached =>
    exact Fallible.Respects.ite (fun _ => Fallible.Respects.pure _) fun _ => hrefresh

theorem sends_feedsUpdated {listing : Text} (h : P listing) :
    Fallible.Respects (Sends P) (feedsUpdated (commandLog link) listing) := by
  refine Fallible.Respects.bind (sends_readOutput link h 30) fun marker => ?_
  refine Fallible.Respects.ite (fun _ => Fallible.Respects.pure _) fun _ => ?_
  exact sends_readOutput link (hP _ (.updated _)) 30

theorem sends_feeds : Fallible.Respects (Sends P) (feeds (commandLog link)) := by
  refine Fallible.Respects.bind (sends_pkgManager link hP) fun manager => ?_
  cases manager with
  | opkg =>
    refine Fallible.Respects.bind
      (sends_readOutput link (hP _ .distFeeds) 30) fun dist => ?_
    refine Fallible.Respects.bind
      (sends_readOutput link (hP _ .customFeeds) 30) fun custom => ?_
    refine Fallible.Respects.bind
      (sends_feedsUpdated link hP (hP _ .opkgLists)) fun updated => ?_
    exact Fallible.Respects.pure _
  | apk =>
    refine Fallible.Respects.bind
      (sends_readOutput link (hP _ .repositories) 30) fun repositories => ?_
    refine Fallible.Respects.bind
      (sends_feedsUpdated link hP (hP _ .apkIndexes)) fun updated => ?_
    exact Fallible.Respects.pure _
  | unknown => exact Fallible.Respects.raise _

theorem sends_packageDetails (name : Text) :
    Fallible.Respects (Sends P) (packageDetails (commandLog link) name) := by
  refine Fallible.Respects.ite (fun _ => Fallible.Respects.raise_bind _ _) fun _ => ?_
  refine Fallible.Respects.bind (sends_pkgManager link hP) fun manager => ?_
  cases manager with
  | opkg => exact sends_readOutput link (hP _ (.opkgInfo name)) 60
  | apk =>
    refine Fallible.Respects.bind (sends_readOutput link (hP _ (.apkInfo name)) 60)
      fun text => ?_
    exact Fallible.Respects.ite (fun _ => Fallible.Respects.raise_bind _ _) fun _ =>
      Fallible.Respects.pure _
  | unknown => exact Fallible.Respects.raise _

theorem sends_backup (timestamp : Text) :
    Fallible.Respects (Sends P) (buildBackup (commandLog link) timestamp) := by
  have harchive : ∀ command, ReadOnly command → ∀ failure,
      Fallible.Respects (Sends P) (collectArchive (commandLog link) command failure) := by
    intro command hread failure
    refine Fallible.Respects.bind (sends_run link (hP command hread) _) fun step => ?_
    exact Fallible.Respects.ite (fun _ => Fallible.Respects.raise_bind _ _) fun _ =>
      Fallible.Respects.pure _
  have hhostname := sends_run link (hP _ .hostname) none
  have hprobe := sends_run link (hP _ .probeSysupgrade) none
  refine Respects.withTransport unwrapCommand link ?_
  refine Fallible.Respects.bind ?_ fun hostname => Fallible.Respects.bind ?_ fun data => ?_
  · refine Fallible.Respects.bind hhostname fun result => ?_
    cases splitlines (strip result.stdout) <;> exact Fallible.Respects.pure _
  · refine Fallible.Respects.bind hprobe fun probe => ?_
    exact Fallible.Respects.ite
      (fun _ => harchive _ .sysupgradeBackup _) fun _ => harchive _ .configBackup _
  · exact Fallible.Respects.ite (fun _ => Fallible.Respects.raise_bind _ _) fun _ =>
      Fallible.Respects.pure _

theorem sends_bundle (timestamp : Text) :
    Fallible.Respects (Sends P) (buildBundle (commandLog link) timestamp) := by
  have hbody : ∀ sections : List (Text × Text), (∀ entry ∈ sections, P entry.2) →
      Fallible.Respects (Sends P) (bundleBody (commandLog link) sections) := by
    intro sections
    induction sections with
    | nil => exact fun _ => Fallible.Respects.pure _
    | cons entry rest ih =>
      intro hall
      refine Fallible.Respects.bind ?_ fun lines => ?_
      · refine Fallible.Respects.bind
          (sends_run link (hall entry List.mem_cons_self) _) fun result => ?_
        exact Fallible.Respects.pure _
      · exact Fallible.Respects.bind
          (ih fun other hother => hall other (List.mem_cons_of_mem entry hother))
          fun more => Fallible.Respects.pure _
  have hsections : ∀ entry ∈ bundleSections, P entry.2 := by
    intro entry hentry
    exact hP _ (.bundle hentry)
  have hhostname := sends_run link (hP _ .hostname) none
  refine Respects.withTransport unwrapCommand link ?_
  refine Fallible.Respects.bind ?_ fun hostname => ?_
  · refine Fallible.Respects.bind hhostname fun result => ?_
    cases splitlines (strip result.stdout) <;> exact Fallible.Respects.pure _
  · exact Fallible.Respects.bind (hbody bundleSections hsections) fun body =>
      Fallible.Respects.pure _

end Reading

end OpenWrtCopilot.Ports.Management
