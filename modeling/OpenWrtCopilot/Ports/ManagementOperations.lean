import OpenWrtCopilot.Verified.PyPattern
import OpenWrtCopilot.Verified.PyIpAddress
import OpenWrtCopilot.Ports.ActionGuard
import OpenWrtCopilot.Ports.ManagementCommand

/-!
# The write operations of the management service

Every write operation of `RouterManagementService` validates its arguments,
builds one command text, sends it in a fresh session and describes the result.
The pure part is ported as a `Plan`: what the arguments are rejected with, or
which command is sent with which timeout and how its result is described.
`perform` is the effectful part they share.

Package mutations and feed updates detect the package manager in a session of
their own before they plan their command.
-/

namespace OpenWrtCopilot.Ports.Management

open Verified
open Verified.PyText
open Verified.PyPattern
open Verified.PyIpAddress
open Ports.ActionGuard

variable {σ : Type}

/-! ## Results and plans -/

/-- The result dictionary of a write operation. -/
structure OperationResult where
  ok : Bool
  message : Text
  action : Option Text := none
  label : Option Text := none
  sectionId : Option Text := none
  detail : Option CommandResult := none
  risk : Option Risk := none
  deriving DecidableEq

/-- What an operation does once its arguments are accepted. -/
inductive Plan
  /-- Nothing is sent. -/
  | done (result : OperationResult)
  /-- One command, with its timeout in seconds and the description of its result. -/
  | send (command : Text) (timeout : Nat)
      (describe : CommandResult → Except ServiceError OperationResult)

/-- A plan, or the exception the arguments are rejected with. -/
abbrev Planned := Except ServiceError Plan

/-- Carry a plan out. -/
def perform (link : RouterLink σ) : Planned → Op σ OperationResult
  | .error e => Fallible.raise e
  | .ok (.done result) => pure result
  | .ok (.send command timeout describe) =>
      withTransport link do
        let result ← run link command (some timeout)
        Fallible.ofExcept (describe result)

/-- `raise RouterManagementError(message)`. -/
def reject {α : Type} (message : Text) : Except ServiceError α := .error (.management message)

/-! ## Quoting -/

/-- `_sh_quote` and `_shell_single`, which are the same function twice. -/
def shQuote (value : Text) : Text :=
  "'" ++ value.flatMap (fun c => if c = '\'' then "'\\''" else [c]) ++ "'"

/-- Characters `re.escape` puts a backslash before. -/
def reSpecial : List Char :=
  ['(', ')', '[', ']', '{', '}', '?', '*', '+', '-', '|', '^', '$', '\\', '.', '&', '~', '#',
    ' ', '\t', '\n', '\r', '\x0b', '\x0c']

/-- `re.escape(value)`. -/
def reEscape (value : Text) : Text :=
  value.flatMap fun c => if reSpecial.contains c then ['\\', c] else [c]

/-! ## Actions -/

/-- An entry of `ACTION_COMMANDS` with its `ACTION_LABELS` text. -/
structure ActionEntry where
  name : Text
  command : Text
  asyncDispatch : Bool
  label : Text

/-- An action dispatched inline. -/
def inlineAction (name command label : String) : ActionEntry :=
  { name := name, command := command, asyncDispatch := false, label := label }

/-- An action dispatched as a detached background job. -/
def asyncAction (name command label : String) : ActionEntry :=
  { name := name, command := command, asyncDispatch := true, label := label }

def actionCommands : List ActionEntry :=
  [asyncAction "reboot" "reboot" "Reboot",
    asyncAction "shutdown" "poweroff || halt" "Shutdown",
    inlineAction "restart-network" "/etc/init.d/network restart" "Restart Network",
    inlineAction "restart-wifi" "/etc/init.d/wireless restart" "Restart WiFi",
    inlineAction "reload-wireless" "/etc/init.d/wireless reload" "Reload Wireless",
    inlineAction "restart-firewall" "/etc/init.d/firewall restart" "Restart Firewall",
    inlineAction "reload-firewall" "/etc/init.d/firewall reload" "Reload Firewall",
    inlineAction "restart-dnsmasq" "/etc/init.d/dnsmasq restart" "Restart DNSMasq",
    inlineAction "restart-dropbear" "/etc/init.d/dropbear restart" "Restart Dropbear",
    inlineAction "reload-vpn" "/etc/init.d/openvpn reload" "Reload VPN",
    inlineAction "restart-vpn" "/etc/init.d/openvpn restart" "Restart VPN",
    inlineAction "reload-dhcp" "/etc/init.d/dnsmasq reload" "Reload DHCP",
    inlineAction "restart-dhcp" "/etc/init.d/dnsmasq restart" "Restart DHCP",
    inlineAction "reload-network" "/etc/init.d/network reload" "Reload Network",
    inlineAction "restart-monitoring"
      ("for s in netdata collectd telegraf zabbix_agentd monit; do " ++
        "[ -x /etc/init.d/$s ] && /etc/init.d/$s enabled >/dev/null 2>&1 && " ++
        "/etc/init.d/$s restart >/dev/null 2>&1; done; true")
      "Restart Monitoring",
    inlineAction "restart-ntp" "/etc/init.d/sysntpd restart" "Restart NTP",
    asyncAction "sync-time"
      ("ntpd -q -n -p 1.openwrt.pool.ntp.org 2>/dev/null || " ++
        "ntpd -q -n 2>/dev/null; hwclock -s 2>/dev/null; true")
      "Sync Time",
    asyncAction "factory-reset"
      ("for f in /etc/config/*; do [ -f \"$f\" ] && rm -f \"$f\"; done; " ++ "sync; reboot")
      "Factory Reset"]

/-- The text `action` sends for an entry. -/
def ActionEntry.full (entry : ActionEntry) : Text :=
  if entry.asyncDispatch then "( sleep 1; " ++ entry.command ++ " ) >/dev/null 2>&1 &"
  else entry.command

/-- `RouterManagementService.action`. The guard's decision only contributes the
risk that is reported. -/
def action (actionName : Text) : Planned :=
  match actionCommands.find? fun entry => entry.name = actionName with
  | none => reject ("unknown action: " ++ actionName)
  | some entry =>
      let decision := evaluate actionName
      .ok (.send entry.full (if entry.asyncDispatch then 45 else 90) fun result =>
        .ok
          { ok := entry.asyncDispatch || result.ok
            message :=
              if entry.asyncDispatch then entry.label ++ " dispatched to the router."
              else if result.ok then entry.label ++ " completed successfully."
              else entry.label ++ " failed (exit " ++ intText result.exitCode ++ ")."
            action := some actionName
            label := some entry.label
            detail := some result.toDict
            risk := some decision.risk })

/-! ## Firewall, wireless and VPN sections -/

/-- `_SECTION_PATTERN` and `_IFACE_PATTERN`: `^[A-Za-z0-9_@.\-]+$`. -/
def sectionPattern (t : Text) : Bool := matchClass (alnumOr ['_', '@', '.', '-']) oneOrMore t

/-- The value a toggle writes. -/
def flag (b : Bool) : Text := if b then "1" else "0"

/-- A section toggle: one `uci` command, a commit and a reload, reported with a
label and one of two messages. -/
def sectionChange (invalid sectionId command label failure success : Text) : Planned :=
  if sectionPattern sectionId then
    .ok (.send command 90 fun result =>
      .ok
        { ok := result.ok
          label := some label
          message :=
            if result.ok then success
            else failure ++ " (exit " ++ intText result.exitCode ++ ")."
          detail := some result.toDict })
  else reject invalid

/-- The command a firewall section toggle sends. -/
def firewallToggleCommand (sectionId : Text) (enabled : Bool) : Text :=
  "uci set firewall." ++ sectionId ++ ".enabled='" ++ flag enabled ++ "' && " ++
    "uci commit firewall && /etc/init.d/firewall reload"

/-- `RouterManagementService.toggle_firewall_rule`. -/
def toggleFirewallRule (sectionId : Text) (enabled : Bool) : Planned :=
  let label : Text := if enabled then "Enable" else "Disable"
  sectionChange "Invalid firewall section identifier." sectionId
    (firewallToggleCommand sectionId enabled) label (label ++ " failed")
    ("Firewall rule " ++ label ++ "d and reloaded.")

/-- `RouterManagementService._firewall_set_section_enabled`. -/
def firewallSetSectionEnabled (sectionId : Text) (enabled : Bool) : Planned :=
  let label : Text := if enabled then "enabled" else "disabled"
  sectionChange "Invalid firewall section identifier." sectionId
    (firewallToggleCommand sectionId enabled) label
    ("Firewall section could not be " ++ label)
    ("Firewall section " ++ label ++ " and reloaded.")

/-- `RouterManagementService.firewall_set_enabled`. -/
def firewallSetEnabled (enabled : Bool) : Planned :=
  let base : Text :=
    if enabled then "uci delete firewall.@defaults[0].enabled"
    else "uci set firewall.@defaults[0].enabled='0'"
  let label : Text := if enabled then "enabled" else "disabled"
  .ok (.send (base ++ " && uci commit firewall && /etc/init.d/firewall restart") 90
    fun result =>
      .ok
        { ok := result.ok
          message :=
            if result.ok then "Firewall " ++ label ++ " and restarted."
            else "Firewall could not be " ++ label ++ " (exit " ++
              intText result.exitCode ++ ")."
          detail := some result.toDict })

/-- `RouterManagementService.toggle_wireless_ssid`. -/
def toggleWirelessSsid (sectionId : Text) (enabled : Bool) : Planned :=
  let label : Text := if enabled then "Enable" else "Disable"
  sectionChange "Invalid wireless section identifier." sectionId
    ("uci set wireless." ++ sectionId ++ ".disabled='" ++ flag (!enabled) ++ "' && " ++
      "uci commit wireless && /etc/init.d/wireless reload")
    label (label ++ " failed") ("SSID " ++ label ++ "d and wireless reloaded.")

/-- `RouterManagementService.toggle_wireless_radio`. -/
def toggleWirelessRadio (sectionId : Text) (enabled : Bool) : Planned :=
  let base : Text :=
    if enabled then "uci delete wireless." ++ sectionId ++ ".disabled"
    else "uci set wireless." ++ sectionId ++ ".disabled='1'"
  let label : Text := if enabled then "enabled" else "disabled"
  sectionChange "Invalid wireless radio section identifier." sectionId
    (base ++ " && uci commit wireless && /etc/init.d/wireless reload")
    label ("Radio could not be " ++ label) ("Radio " ++ label ++ " and wireless reloaded.")

/-- `RouterManagementService.toggle_vpn_instance`. -/
def toggleVpnInstance (sectionId : Text) (enabled : Bool) : Planned :=
  let label : Text := if enabled then "Enable" else "Disable"
  sectionChange "Invalid VPN section identifier." sectionId
    ("uci set openvpn." ++ sectionId ++ ".enabled='" ++ flag enabled ++ "' && " ++
      "uci commit openvpn && /etc/init.d/openvpn reload")
    label (label ++ " failed") ("VPN instance " ++ label ++ "d and OpenVPN reloaded.")

/-! ## DHCP -/

/-- `^@?[A-Za-z0-9_@.\-]+(\[\d+\])?$` without its final newline: the leading
`@?` adds nothing, since the class holds `@`. -/
def dhcpSectionBody (t : Text) : Bool :=
  let (name, index) := splitFirst '[' t
  fullmatchClass (alnumOr ['_', '@', '.', '-']) oneOrMore name &&
    match index with
    | none => true
    | some rest =>
        rest.getLast? == some ']' && rest.dropLast ≠ [] &&
          rest.dropLast.all fun c => (digitValue c).isSome

/-- `_DHCP_SECTION_PATTERN.match`. -/
def dhcpSectionPattern (t : Text) : Bool :=
  dhcpSectionBody t || (t.getLast? == some '\n' && dhcpSectionBody t.dropLast)

/-- A hostname character of `[A-Za-z0-9_.\-]`. -/
def hostnameChar : Char → Bool := alnumOr ['_', '.', '-']

/-- `(?:[0-9A-Fa-f]{2}[:-]){5}[0-9A-Fa-f]{2}`, matched in full. -/
def macPattern (t : Text) : Bool :=
  t.length = 17 &&
    t.zipIdx.all fun (c, i) =>
      if i % 3 = 2 then c = ':' || c = '-' else (hexDigit c).isSome

/-- `RouterManagementService._validate_static`. -/
def validateStatic (hostname ip mac : Text) : Except ServiceError Unit :=
  if hostname = [] ∨ ip = [] ∨ mac = [] then reject "Hostname, IP and MAC are all required."
  else if 63 < hostname.length ∨ fullmatchClass hostnameChar oneOrMore hostname = false then
    reject "Invalid hostname."
  else
    match ipAddress ip with
    | none => reject "Invalid IP address."
    | some (.v6 _) => reject "Only IPv4 static leases are supported."
    | some (.v4 _) =>
        if macPattern mac then .ok () else reject "Invalid MAC address."

/-- A DHCP change: one command and one of two messages. -/
def dhcpChange (command failure success : Text) : Plan :=
  .send command 90 fun result =>
    .ok { ok := result.ok, message := if result.ok then success else failure }

/-- `RouterManagementService.dhcp_set_enabled`. -/
def dhcpSetEnabled (enabled : Bool) : Planned :=
  let label : Text := if enabled then "enabled" else "disabled"
  .ok (dhcpChange
    ("uci set dhcp.@dnsmasq[0].enable_dnsmasq='" ++ flag enabled ++ "' && " ++
      "uci commit dhcp && /etc/init.d/dnsmasq restart")
    ("Could not " ++ label ++ " the DHCP server.") ("DHCP server " ++ label ++ "."))

/-- `RouterManagementService.dhcp_add_host`. -/
def dhcpAddHost (hostname ip mac : Text) : Planned := do
  validateStatic hostname ip mac
  return .send
    ("sid=$(uci add dhcp host) && uci set dhcp.$sid.name=" ++ shQuote hostname ++
      " && uci set dhcp.$sid.ip=" ++ shQuote ip ++
      " && uci set dhcp.$sid.mac=" ++ shQuote mac ++
      " && uci commit dhcp && /etc/init.d/dnsmasq reload && printf '%s' \"$sid\"") 90
    fun result =>
      .ok
        (if result.ok then
          { ok := true
            sectionId := ((splitlines (strip result.stdout)).getLast?).map strip
            message := "Static lease for " ++ hostname ++ " added." }
        else
          { ok := false, message := "Could not add the static lease." })

/-- `RouterManagementService.dhcp_edit_host`. -/
def dhcpEditHost (sectionId hostname ip mac : Text) : Planned := do
  if !dhcpSectionPattern sectionId then
    reject "Invalid static lease section identifier."
  validateStatic hostname ip mac
  return dhcpChange
    ("uci set dhcp." ++ sectionId ++ ".name=" ++ shQuote hostname ++
      " && uci set dhcp." ++ sectionId ++ ".ip=" ++ shQuote ip ++
      " && uci set dhcp." ++ sectionId ++ ".mac=" ++ shQuote mac ++
      " && uci commit dhcp && /etc/init.d/dnsmasq reload")
    ("Could not update the static lease for " ++ hostname ++ ".")
    ("Static lease for " ++ hostname ++ " updated.")

/-- `RouterManagementService.dhcp_delete_host`. -/
def dhcpDeleteHost (sectionId : Text) : Planned :=
  if dhcpSectionPattern sectionId then
    .ok (dhcpChange
      ("uci delete dhcp." ++ sectionId ++ " && uci commit dhcp && /etc/init.d/dnsmasq reload")
      "Could not delete the static lease." "Static lease deleted.")
  else reject "Invalid static lease section identifier."

/-- `RouterManagementService.dhcp_toggle_host`. -/
def dhcpToggleHost (sectionId : Text) (enabled : Bool) : Planned :=
  if dhcpSectionPattern sectionId then
    .ok (dhcpChange
      (if enabled then "uci delete dhcp." ++ sectionId ++ ".enabled && uci commit dhcp"
        else "uci set dhcp." ++ sectionId ++ ".enabled='0' && uci commit dhcp")
      "Could not change the static lease state."
      ("Static lease " ++ (if enabled then "enabled" else "disabled") ++ "."))
  else reject "Invalid static lease section identifier."

/-! ## DNS -/

/-- `_DNS_SERVER_PATTERN`: `^[A-Za-z0-9_.:\-]{1,253}$`. -/
def dnsServerPattern (t : Text) : Bool :=
  matchClass (alnumOr ['_', '.', ':', '-']) (between 1 253) t

/-- `RouterManagementService._validate_dns_host`. -/
def validateDnsHost (hostname ip : Text) : Except ServiceError Unit :=
  if hostname = [] ∨ ip = [] then reject "Hostname and IP are both required."
  else if fullmatchClass hostnameChar (between 1 63) hostname = false then
    reject "Invalid hostname."
  else if ipAddress ip = none then reject "Invalid IP address."
  else .ok ()

/-- `ok, _ = result`, for a `CommandResult`: a dataclass instance is not
iterable, so the assignment raises. -/
def unpackPair (_ : CommandResult) : Except ServiceError (Bool × Text) :=
  .error (.builtin "TypeError" "cannot unpack non-iterable CommandResult object")

/-- A DNS change: the command is sent, then its result is unpacked. -/
def dnsChange (command failure success : Text) : Plan :=
  .send command 90 fun result => do
    let (ok, _) ← unpackPair result
    return { ok := ok, message := if ok then success else failure }

/-- `RouterManagementService.dns_set_enabled`. -/
def dnsSetEnabled (enabled : Bool) : Planned :=
  let label : Text := if enabled then "enabled" else "disabled"
  .ok (dnsChange
    ("uci set dhcp.@dnsmasq[0].enable_dnsmasq='" ++ flag enabled ++ "' && " ++
      "uci commit dhcp && /etc/init.d/dnsmasq restart")
    ("Could not " ++ label ++ " the DNS server.") ("DNS server " ++ label ++ "."))

/-- `RouterManagementService.dns_add_server`. -/
def dnsAddServer (server : Text) : Planned :=
  if dnsServerPattern server then
    .ok (dnsChange
      ("uci add_list dhcp.@dnsmasq[0].server=" ++ shQuote server ++
        " && uci commit dhcp && /etc/init.d/dnsmasq reload")
      ("Could not add upstream server " ++ server ++ ".")
      ("Added upstream server " ++ server ++ "."))
  else reject "Invalid DNS server address."

/-- `RouterManagementService.dns_remove_server`. -/
def dnsRemoveServer (server : Text) : Planned :=
  if dnsServerPattern server then
    .ok (dnsChange
      ("uci del_list dhcp.@dnsmasq[0].server=" ++ shQuote server ++
        " && uci commit dhcp && /etc/init.d/dnsmasq reload")
      ("Could not remove upstream server " ++ server ++ ".")
      ("Removed upstream server " ++ server ++ "."))
  else reject "Invalid DNS server address."

/-- `RouterManagementService.dns_add_host`. -/
def dnsAddHost (hostname ip : Text) : Planned := do
  validateDnsHost hostname ip
  return dnsChange
    ("grep -q -e " ++ shQuote hostname ++ " /etc/hosts || printf '%s\\t%s\\n' " ++
      shQuote ip ++ " " ++ shQuote hostname ++ " >> /etc/hosts")
    ("Could not add host entry for " ++ hostname ++ ".")
    ("Host entry for " ++ hostname ++ " added.")

/-- `RouterManagementService.dns_remove_host`. -/
def dnsRemoveHost (hostname ip : Text) : Planned := do
  validateDnsHost hostname ip
  return dnsChange
    ("sed -i -e " ++ shQuote ("/" ++ reEscape (shQuote hostname) ++ "/d") ++ " /etc/hosts")
    ("Could not remove host entry for " ++ hostname ++ ".")
    ("Host entry for " ++ hostname ++ " removed.")

/-! ## Network interfaces -/

/-- A network interface change, reported with one of two messages. -/
def interfaceChange (sectionId command failure success : Text) : Planned :=
  if sectionPattern sectionId then
    .ok (.send command 90 fun result =>
      .ok
        { ok := result.ok
          message := if result.ok then success else failure
          detail := some result.toDict })
  else reject "Invalid interface name."

/-- The command that takes an interface down and up again. -/
def interfaceCycleCommand (sectionId : Text) : Text :=
  "ifdown " ++ sectionId ++ " 2>/dev/null; ifup " ++ sectionId ++ "; true"

/-- `RouterManagementService.net_interface_restart`. -/
def netInterfaceRestart (sectionId : Text) : Planned :=
  interfaceChange sectionId (interfaceCycleCommand sectionId)
    ("Interface " ++ sectionId ++ " could not be restarted.")
    ("Interface " ++ sectionId ++ " restarted.")

/-- `RouterManagementService.net_interface_renew`. -/
def netInterfaceRenew (sectionId : Text) : Planned :=
  interfaceChange sectionId (interfaceCycleCommand sectionId)
    ("DHCP lease on " ++ sectionId ++ " could not be renewed.")
    ("DHCP lease on " ++ sectionId ++ " renewed.")

/-- `RouterManagementService.net_interface_release`. -/
def netInterfaceRelease (sectionId : Text) : Planned :=
  interfaceChange sectionId ("ifdown " ++ sectionId ++ "; true")
    ("DHCP lease on " ++ sectionId ++ " could not be released.")
    ("DHCP lease on " ++ sectionId ++ " released.")

/-- `RouterManagementService.net_interface_set_enabled`. -/
def netInterfaceSetEnabled (sectionId : Text) (enabled : Bool) : Planned :=
  let base : Text :=
    if enabled then "uci delete network." ++ sectionId ++ ".disabled"
    else "uci set network." ++ sectionId ++ ".disabled='1'"
  let label : Text := if enabled then "enabled" else "disabled"
  interfaceChange sectionId
    (base ++ " && uci commit network && /etc/init.d/network reload")
    ("Interface " ++ sectionId ++ " could not be " ++ label ++ ".")
    ("Interface " ++ sectionId ++ " " ++ label ++ " and the network was reloaded.")

/-! ## System settings -/

/-- `_HOSTNAME_PATTERN`: `^[A-Za-z0-9_.\-]{1,63}$`. -/
def hostnamePattern (t : Text) : Bool := matchClass hostnameChar (between 1 63) t

/-- `_TIMEZONE_PATTERN`: `^[A-Za-z0-9_+./\-]{1,64}$`. -/
def timezonePattern (t : Text) : Bool :=
  matchClass (alnumOr ['_', '+', '.', '/', '-']) (between 1 64) t

/-- `_LANGUAGE_PATTERN`: `^[A-Za-z0-9_@+./\-]{1,32}$`. -/
def languagePattern (t : Text) : Bool :=
  matchClass (alnumOr ['_', '@', '+', '.', '/', '-']) (between 1 32) t

/-- The settings `system_set_config` can change; `none` leaves one alone. -/
structure SystemConfig where
  hostname : Option Text
  timezone : Option Text
  language : Option Text
  notes : Option Text

/-- One `uci set` on the system section. -/
def systemSet (option value : Text) : Text :=
  "uci set system.@system[0]." ++ option ++ "=" ++ shQuote value

/-- The `uci` commands the requested settings need. -/
def SystemConfig.uciCommands (config : SystemConfig) : List Text :=
  (config.hostname.map (systemSet "hostname")).toList ++
    (config.timezone.map (systemSet "timezone")).toList ++
    (config.language.map (systemSet "language")).toList ++
    (config.notes.map fun notes =>
      if notes ≠ [] then systemSet "notes" notes
      else "uci delete system.@system[0].notes").toList

/-- All commands of the script, in order. -/
def SystemConfig.commands (config : SystemConfig) : List Text :=
  config.uciCommands ++
    (config.hostname.map fun hostname =>
      "echo " ++ shQuote hostname ++ " > /proc/sys/kernel/hostname").toList ++
    ["uci commit system", "/etc/init.d/sysntpd restart"].map String.toList

/-- `RouterManagementService.system_set_config`. -/
def systemSetConfig (config : SystemConfig) : Planned :=
  if config.hostname.all hostnamePattern = false then reject "Invalid hostname."
  else if config.timezone.all timezonePattern = false then reject "Invalid timezone."
  else if config.language.all languagePattern = false then reject "Invalid language."
  else if config.uciCommands = [] then
    .ok (.done { ok := true, message := "No changes provided." })
  else
    .ok (.send (join " && " config.commands ++ " || true") 90 fun result =>
      .ok
        { ok := result.ok
          message :=
            if result.ok then "System settings saved and applied."
            else "System settings could not be saved."
          detail := some result.toDict })

/-! ## Storage and services -/

/-- The command of a storage action, or its rejection. -/
def storageCommand (actionName target : Text) : Except ServiceError Text :=
  if actionName = "unmount".toList then .ok ("umount " ++ shQuote target)
  else if actionName = "remount".toList then .ok ("mount -o remount " ++ shQuote target)
  else if actionName = "mount".toList then .ok ("mount " ++ shQuote target)
  else reject ("Unsupported storage action: " ++ actionName)

/-- `_SERVICE_NAME_PATTERN`: `^[A-Za-z0-9_.-]{1,64}$`. -/
def serviceNamePattern (t : Text) : Bool := matchClass hostnameChar (between 1 64) t

def serviceActions : List Text :=
  ["start", "stop", "restart", "enable", "disable"].map String.toList

/-- The command of a service action, or its rejection. -/
def serviceCommand (actionName service : Text) : Except ServiceError Text :=
  if serviceNamePattern service = false then reject "Invalid service name."
  else if actionName ∉ serviceActions then
    reject ("Unsupported service action: " ++ actionName)
  else .ok ("/etc/init.d/" ++ shQuote service ++ " " ++ actionName)

/-! ## Packages -/

/-- `_PKG_NAME_PATTERN`: 1 to 128 letters, digits and `. _ + @ ~ / -`. -/
def pkgNamePattern (t : Text) : Bool :=
  matchClass (alnumOr ['.', '_', '+', '@', '~', '/', '-']) (between 1 128) t

/-- `RouterManagementService._pkg_run`. -/
def pkgRun (link : RouterLink σ) (command : Text) (timeout : Nat) : Op σ CommandResult :=
  withTransport link (run link command (some timeout))

/-- `RouterManagementService._pkg_manager`. -/
def pkgManager (link : RouterLink σ) : Op σ PackageManager :=
  withTransport link (detectPackageManager link)

/-- A package mutation: its verb and its command under either manager. -/
structure PackageMutation where
  verb : Text
  opkg : Text
  apk : Text

def packageInstall : PackageMutation :=
  { verb := "installed", opkg := "opkg install", apk := "apk add" }

def packageRemove : PackageMutation :=
  { verb := "removed", opkg := "opkg remove", apk := "apk del" }

def packageUpgrade : PackageMutation :=
  { verb := "upgraded", opkg := "opkg upgrade", apk := "apk upgrade" }

def packageReinstall : PackageMutation :=
  { verb := "reinstalled", opkg := "opkg install --force-reinstall", apk := "apk fix" }

/-- The command of a package mutation under a manager. -/
def PackageMutation.command (m : PackageMutation) (name : Text) : PackageManager → Option Text
  | .opkg => some (m.opkg ++ " " ++ shQuote name)
  | .apk => some (m.apk ++ " " ++ shQuote name)
  | .unknown => none

/-- The command of a feed update under a manager. -/
def updateFeedsCommand : PackageManager → Option Text
  | .opkg => some "opkg update"
  | .apk => some "apk update"
  | .unknown => none

/-- Run the command the detected manager needs, if it is a supported one. -/
def runForManager (link : RouterLink σ) (command : PackageManager → Option Text) :
    Op σ CommandResult := do
  let manager ← pkgManager link
  match command manager with
  | none => Fallible.raise (.management "No supported package manager found.")
  | some text => pkgRun link text 600

/-- The result dictionary of `_pkg_mutate`. -/
def PackageMutation.describe (m : PackageMutation) (name : Text) (result : CommandResult) :
    OperationResult :=
  { ok := result.ok
    message :=
      if result.ok then "Package '" ++ name ++ "' " ++ m.verb ++ "."
      else "Package '" ++ name ++ "' could not be " ++ m.verb ++ "."
    detail := some result.toDict }

/-- The result dictionary of `update_feeds`. -/
def describeFeeds (result : CommandResult) : OperationResult :=
  { ok := result.ok
    message :=
      if result.ok then "Package lists updated." else "Package lists could not be updated."
    detail := some result.toDict }

end OpenWrtCopilot.Ports.Management
