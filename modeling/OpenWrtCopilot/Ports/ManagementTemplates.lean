import OpenWrtCopilot.Verified.ShellTemplate
import OpenWrtCopilot.Ports.ManagementPackages

/-!
# The command templates of the write operations

The write operations of the management service splice validated values into
command texts.  Each operation is given here with the command it sends and with
the template of that command: its simple commands, with the values in the words
that hold them.  Section identifiers are interpolated as they are; every other
value is quoted.
-/

namespace OpenWrtCopilot.Ports.Management

open Verified
open Verified.PyText
open Verified.PyPattern
open Verified.PosixTokens
open Verified.ShellTemplate

/-! ## Operations -/

/-- A write operation with its arguments; package operations name the manager
that was detected. -/
inductive WriteOperation
  | toggleFirewallRule (sectionId : Text) (enabled : Bool)
  | firewallSetSectionEnabled (sectionId : Text) (enabled : Bool)
  | toggleWirelessSsid (sectionId : Text) (enabled : Bool)
  | toggleWirelessRadio (sectionId : Text) (enabled : Bool)
  | toggleVpnInstance (sectionId : Text) (enabled : Bool)
  | dhcpAddHost (hostname ip mac : Text)
  | dhcpEditHost (sectionId hostname ip mac : Text)
  | dhcpDeleteHost (sectionId : Text)
  | dhcpToggleHost (sectionId : Text) (enabled : Bool)
  | dnsAddServer (server : Text)
  | dnsRemoveServer (server : Text)
  | dnsAddHost (hostname ip : Text)
  | dnsRemoveHost (hostname ip : Text)
  | netInterfaceRestart (sectionId : Text)
  | netInterfaceRenew (sectionId : Text)
  | netInterfaceRelease (sectionId : Text)
  | netInterfaceSetEnabled (sectionId : Text) (enabled : Bool)
  | systemSetConfig (config : SystemConfig)
  | packageAction (actionName name : Text) (manager : PackageManager)
  | serviceAction (actionName service : Text)

/-- The command of a plan that sends one. -/
def Plan.command : Plan → Option Text
  | .done _ => none
  | .send command _ _ => some command

/-- The command an accepted plan sends. -/
def plannedCommand : Planned → Option Text
  | .error _ => none
  | .ok plan => plan.command

/-- The command an operation sends, if its arguments are accepted and it sends
one. -/
def WriteOperation.sent : WriteOperation → Option Text
  | .toggleFirewallRule sectionId enabled => plannedCommand (Management.toggleFirewallRule sectionId enabled)
  | .firewallSetSectionEnabled sectionId enabled =>
      plannedCommand (Management.firewallSetSectionEnabled sectionId enabled)
  | .toggleWirelessSsid sectionId enabled => plannedCommand (Management.toggleWirelessSsid sectionId enabled)
  | .toggleWirelessRadio sectionId enabled =>
      plannedCommand (Management.toggleWirelessRadio sectionId enabled)
  | .toggleVpnInstance sectionId enabled => plannedCommand (Management.toggleVpnInstance sectionId enabled)
  | .dhcpAddHost hostname ip mac => plannedCommand (Management.dhcpAddHost hostname ip mac)
  | .dhcpEditHost sectionId hostname ip mac =>
      plannedCommand (Management.dhcpEditHost sectionId hostname ip mac)
  | .dhcpDeleteHost sectionId => plannedCommand (Management.dhcpDeleteHost sectionId)
  | .dhcpToggleHost sectionId enabled => plannedCommand (Management.dhcpToggleHost sectionId enabled)
  | .dnsAddServer server => plannedCommand (Management.dnsAddServer server)
  | .dnsRemoveServer server => plannedCommand (Management.dnsRemoveServer server)
  | .dnsAddHost hostname ip => plannedCommand (Management.dnsAddHost hostname ip)
  | .dnsRemoveHost hostname ip => plannedCommand (Management.dnsRemoveHost hostname ip)
  | .netInterfaceRestart sectionId => plannedCommand (Management.netInterfaceRestart sectionId)
  | .netInterfaceRenew sectionId => plannedCommand (Management.netInterfaceRenew sectionId)
  | .netInterfaceRelease sectionId => plannedCommand (Management.netInterfaceRelease sectionId)
  | .netInterfaceSetEnabled sectionId enabled =>
      plannedCommand (Management.netInterfaceSetEnabled sectionId enabled)
  | .systemSetConfig config => plannedCommand (Management.systemSetConfig config)
  | .packageAction actionName name manager =>
      if pkgNamePattern name then
        (packageMutation actionName).bind fun m => m.command name manager
      else none
  | .serviceAction actionName service => (serviceCommand actionName service).toOption

/-! ## Templates -/

/-- The values a template may hold. -/
inductive Field
  | sectionId
  | hostname
  | ip
  | mac
  | server
  /-- The `sed` address of a host entry. -/
  | hostsPattern
  | timezone
  | language
  | notes
  | package
  | service
  deriving DecidableEq

abbrev Words := List (WordTemplate Field)

/-- A fixed word, or a fixed part of one. -/
def bare (s : String) (plain : PlainText s := by decide +kernel) : WordTemplate Field :=
  .bare s plain

def uci (args : Words) : SimpleCommand Field := { name := bare "uci", args := args }

/-- An init script with its action. -/
def initScript (path action : WordTemplate Field) : SimpleCommand Field :=
  { name := path, args := [action] }

/-- `firewall.<section>.enabled`. -/
def firewallTemplate (enabled : Bool) : Script Field :=
  .andAll
    [uci [bare "set",
        bare "firewall." ++ .value .sectionId ++ bare ".enabled=" ++ .quoted (flag enabled)],
      uci [bare "commit", bare "firewall"]]
    (initScript (bare "/etc/init.d/firewall") (bare "reload"))

def ssidTemplate (enabled : Bool) : Script Field :=
  .andAll
    [uci [bare "set",
        bare "wireless." ++ .value .sectionId ++ bare ".disabled=" ++ .quoted (flag (!enabled))],
      uci [bare "commit", bare "wireless"]]
    (initScript (bare "/etc/init.d/wireless") (bare "reload"))

/-- The command that enables or disables through a `disabled` option. -/
def disabledOption (package : WordTemplate Field) (enabled : Bool) : SimpleCommand Field :=
  if enabled then uci [bare "delete", package ++ .value .sectionId ++ bare ".disabled"]
  else uci [bare "set", package ++ .value .sectionId ++ bare ".disabled=" ++ .quoted "1"]

def radioTemplate (enabled : Bool) : Script Field :=
  .andAll [disabledOption (bare "wireless.") enabled, uci [bare "commit", bare "wireless"]]
    (initScript (bare "/etc/init.d/wireless") (bare "reload"))

def vpnTemplate (enabled : Bool) : Script Field :=
  .andAll
    [uci [bare "set",
        bare "openvpn." ++ .value .sectionId ++ bare ".enabled=" ++ .quoted (flag enabled)],
      uci [bare "commit", bare "openvpn"]]
    (initScript (bare "/etc/init.d/openvpn") (bare "reload"))

/-- `uci set dhcp.<section>.<option>` to a quoted value. -/
def leaseOption (lease option : WordTemplate Field) (field : Field) : SimpleCommand Field :=
  uci [bare "set", bare "dhcp." ++ lease ++ option ++ .quotedValue field]

def leaseOptions (lease : WordTemplate Field) : List (SimpleCommand Field) :=
  [leaseOption lease (bare ".name=") .hostname, leaseOption lease (bare ".ip=") .ip,
    leaseOption lease (bare ".mac=") .mac]

def dhcpCommit : SimpleCommand Field := uci [bare "commit", bare "dhcp"]

def dnsmasqReload : SimpleCommand Field :=
  initScript (bare "/etc/init.d/dnsmasq") (bare "reload")

def dhcpAddTemplate : Script Field :=
  .andAll
    ([{ name := bare "sid=" ++ .substitution "uci add dhcp host" (by decide) }] ++
      leaseOptions (.parameter "sid" (by decide)) ++ [dhcpCommit, dnsmasqReload])
    { name := bare "printf"
      args := [.quoted "%s", .doubleParameter "sid" (by decide +kernel)] }

def dhcpEditTemplate : Script Field :=
  .andAll (leaseOptions (.value .sectionId) ++ [dhcpCommit]) dnsmasqReload

def dhcpDeleteTemplate : Script Field :=
  .andAll [uci [bare "delete", bare "dhcp." ++ .value .sectionId], dhcpCommit] dnsmasqReload

def dhcpToggleTemplate (enabled : Bool) : Script Field :=
  .andAll
    [if enabled then uci [bare "delete", bare "dhcp." ++ .value .sectionId ++ bare ".enabled"]
      else uci [bare "set",
        bare "dhcp." ++ .value .sectionId ++ bare ".enabled=" ++ .quoted "0"]]
    dhcpCommit

/-- A change of the upstream server list. -/
def dnsServerTemplate (change : WordTemplate Field) : Script Field :=
  .andAll [uci [change, bare "dhcp.@dnsmasq[0].server=" ++ .quotedValue .server], dhcpCommit]
    dnsmasqReload

def dnsAddHostTemplate : Script Field :=
  .list
    (.command
      { name := bare "grep"
        args := [bare "-q", bare "-e", .quotedValue .hostname, bare "/etc/hosts"] })
    .orIf
    (.command
      { name := bare "printf"
        args := [.quoted "%s\\t%s\\n", .quotedValue .ip, .quotedValue .hostname]
        redirect := some (.appendTo "/etc/hosts" (by decide +kernel)) })

def dnsRemoveHostTemplate : Script Field :=
  .command
    { name := bare "sed"
      args := [bare "-i", bare "-e", .quotedValue .hostsPattern, bare "/etc/hosts"] }

def ifdown : SimpleCommand Field := { name := bare "ifdown", args := [.value .sectionId] }

def interfaceCycleTemplate : Script Field :=
  .list (.command { ifdown with redirect := some (.errors "/dev/null" (by decide)) }) .semi
    (.list (.command { name := bare "ifup", args := [.value .sectionId] }) .semi
      (.command { name := bare "true" }))

def interfaceReleaseTemplate : Script Field :=
  .list (.command ifdown) .semi (.command { name := bare "true" })

def interfaceEnabledTemplate (enabled : Bool) : Script Field :=
  .andAll [disabledOption (bare "network.") enabled, uci [bare "commit", bare "network"]]
    (initScript (bare "/etc/init.d/network") (bare "reload"))

/-- One `uci set` on the system section. -/
def systemOption (option : WordTemplate Field) (field : Field) : SimpleCommand Field :=
  uci [bare "set", option ++ .quotedValue field]

/-- The `uci` commands of the requested settings. -/
def systemOptions (config : SystemConfig) : List (SimpleCommand Field) :=
  (config.hostname.map fun _ =>
      systemOption (bare "system.@system[0].hostname=") .hostname).toList ++
    (config.timezone.map fun _ =>
      systemOption (bare "system.@system[0].timezone=") .timezone).toList ++
    (config.language.map fun _ =>
      systemOption (bare "system.@system[0].language=") .language).toList ++
    (config.notes.map fun notes =>
      if notes ≠ [] then systemOption (bare "system.@system[0].notes=") .notes
      else uci [bare "delete", bare "system.@system[0].notes"]).toList

def echoHostname : SimpleCommand Field :=
  { name := bare "echo"
    args := [.quotedValue .hostname]
    redirect := some (.output "/proc/sys/kernel/hostname" (by decide +kernel)) }

def systemTemplate (config : SystemConfig) : Script Field :=
  .list
    (.andAll
      (systemOptions config ++
        (config.hostname.map fun _ => echoHostname).toList ++
        [uci [bare "commit", bare "system"]])
      (initScript (bare "/etc/init.d/sysntpd") (bare "restart")))
    .orIf (.command { name := bare "true" })

/-- The verb of a package action under `opkg`. -/
def opkgWords (actionName : Text) : Words :=
  if actionName = "install".toList then [bare "install"]
  else if actionName = "remove".toList then [bare "remove"]
  else if actionName = "upgrade".toList then [bare "upgrade"]
  else [bare "install", bare "--force-reinstall"]

/-- The verb of a package action under `apk`. -/
def apkWords (actionName : Text) : Words :=
  if actionName = "install".toList then [bare "add"]
  else if actionName = "remove".toList then [bare "del"]
  else if actionName = "upgrade".toList then [bare "upgrade"]
  else [bare "fix"]

def packageTemplate (actionName : Text) : PackageManager → Script Field
  | .opkg => .command
      { name := bare "opkg", args := opkgWords actionName ++ [.quotedValue .package] }
  | _ => .command { name := bare "apk", args := apkWords actionName ++ [.quotedValue .package] }

/-- A service action as a word. -/
def actionWord (actionName : Text) : WordTemplate Field :=
  if h : PlainText actionName then .bare actionName h else .quoted actionName

def serviceTemplate (actionName : Text) : Script Field :=
  .command
    { name := bare "/etc/init.d/" ++ .quotedValue .service, args := [actionWord actionName] }

/-- The fixed commands of an operation. -/
def WriteOperation.template : WriteOperation → Script Field
  | .toggleFirewallRule _ enabled => firewallTemplate enabled
  | .firewallSetSectionEnabled _ enabled => firewallTemplate enabled
  | .toggleWirelessSsid _ enabled => ssidTemplate enabled
  | .toggleWirelessRadio _ enabled => radioTemplate enabled
  | .toggleVpnInstance _ enabled => vpnTemplate enabled
  | .dhcpAddHost .. => dhcpAddTemplate
  | .dhcpEditHost .. => dhcpEditTemplate
  | .dhcpDeleteHost _ => dhcpDeleteTemplate
  | .dhcpToggleHost _ enabled => dhcpToggleTemplate enabled
  | .dnsAddServer _ => dnsServerTemplate (bare "add_list")
  | .dnsRemoveServer _ => dnsServerTemplate (bare "del_list")
  | .dnsAddHost .. => dnsAddHostTemplate
  | .dnsRemoveHost .. => dnsRemoveHostTemplate
  | .netInterfaceRestart _ => interfaceCycleTemplate
  | .netInterfaceRenew _ => interfaceCycleTemplate
  | .netInterfaceRelease _ => interfaceReleaseTemplate
  | .netInterfaceSetEnabled _ enabled => interfaceEnabledTemplate enabled
  | .systemSetConfig config => systemTemplate config
  | .packageAction actionName _ manager => packageTemplate actionName manager
  | .serviceAction actionName _ => serviceTemplate actionName

/-- The section identifier of an operation that interpolates one. -/
def WriteOperation.sectionId : WriteOperation → Option Text
  | .toggleFirewallRule sectionId _ => some sectionId
  | .firewallSetSectionEnabled sectionId _ => some sectionId
  | .toggleWirelessSsid sectionId _ => some sectionId
  | .toggleWirelessRadio sectionId _ => some sectionId
  | .toggleVpnInstance sectionId _ => some sectionId
  | .dhcpEditHost sectionId .. => some sectionId
  | .dhcpDeleteHost sectionId => some sectionId
  | .dhcpToggleHost sectionId _ => some sectionId
  | .netInterfaceRestart sectionId => some sectionId
  | .netInterfaceRenew sectionId => some sectionId
  | .netInterfaceRelease sectionId => some sectionId
  | .netInterfaceSetEnabled sectionId _ => some sectionId
  | _ => none

/-- The value an operation puts in a hole; a field it has no value for stands
in none of its words. -/
def WriteOperation.value (op : WriteOperation) (field : Field) : Text :=
  match op, field with
  | op, .sectionId => op.sectionId.getD []
  | .dhcpAddHost hostname _ _, .hostname => hostname
  | .dhcpAddHost _ ip _, .ip => ip
  | .dhcpAddHost _ _ mac, .mac => mac
  | .dhcpEditHost _ hostname _ _, .hostname => hostname
  | .dhcpEditHost _ _ ip _, .ip => ip
  | .dhcpEditHost _ _ _ mac, .mac => mac
  | .dnsAddServer server, .server => server
  | .dnsRemoveServer server, .server => server
  | .dnsAddHost hostname _, .hostname => hostname
  | .dnsAddHost _ ip, .ip => ip
  | .dnsRemoveHost hostname _, .hostsPattern => "/" ++ reEscape (shQuote hostname) ++ "/d"
  | .systemSetConfig config, .hostname => config.hostname.getD []
  | .systemSetConfig config, .timezone => config.timezone.getD []
  | .systemSetConfig config, .language => config.language.getD []
  | .systemSetConfig config, .notes => config.notes.getD []
  | .packageAction _ name _, .package => name
  | .serviceAction _ service, .service => service
  | _, _ => []

/-- The template of the text `run` wraps around a command. -/
def wrapTemplate (body : Script Field) : Script Field :=
  .list (.group body) .semi
    (.list (.command { name := bare "echo" }) .semi
      (.command
        { name := bare "echo"
          args := [bare "__AI_EXIT__=" ++ .parameter "?" (by decide +kernel)] }))

end OpenWrtCopilot.Ports.Management
