import OpenWrtCopilot.Ports.ManagementPackages
import OpenWrtCopilot.Ports.ManagementBackup

/-!
# The read operations of the management service

Ports the operations behind the read endpoints and the diagnostic bundle as far
as they talk to the router: which commands they send, in which sessions, and how
answers and caches decide what is sent next.  They return the texts they read;
of the parsing only the part that decides a further command is ported here.
-/

namespace OpenWrtCopilot.Ports.Management

open Verified
open Verified.PyText

variable {σ : Type}

/-! ## Gather commands -/

/-- `_STORAGE_GATHER_CMD`. -/
def storageGatherCmd : Text :=
  "for d in /sys/block/*; do [ -e \"$d/size\" ] || continue; n=$\x7bd##*/\x7d; " ++
    "s=$(cat \"$d/size\" 2>/dev/null); [ -n \"$s\" ] || s=0; " ++
    "t=$(cat \"$d/device/type\" 2>/dev/null); r=$(cat \"$d/removable\" 2>/dev/null); " ++
    "dd=$(cat \"$d/dev\" 2>/dev/null); v=$(cat \"$d/device/vendor\" 2>/dev/null); " ++
    "m=$(cat \"$d/device/model\" 2>/dev/null); " ++
    "printf '__AI_BLOCK__ %s|%s|%s|%s|%s|%s|%s\\n' " ++
    "\"$n\" \"$s\" \"$t\" \"$r\" \"$dd\" \"$v\" \"$m\"; done; printf '__AI_DF__\\n'; " ++
    "df -k 2>/dev/null; printf '__AI_MOUNT__\\n'; cat /proc/mounts 2>/dev/null"

/-- `_SERVICES_GATHER_CMD`. -/
def servicesGatherCmd : Text :=
  "ubus call service list 2>/dev/null; printf '__AI_ENABLED__\\n'; " ++
    "for s in /etc/init.d/*; do [ -x \"$s\" ] || continue; n=$\x7bs##*/\x7d; " ++
    "printf '__AI_EN__ %s|%s\\n' \"$n\" \"$(/etc/init.d/\"$n\" enabled 2>/dev/null)\"; " ++
    "done; printf '__AI_PROC__\\n'; for p in /proc/[0-9]*; do " ++
    "[ -r \"$p/cmdline\" ] || continue; c=$(tr '\\0' ' ' < \"$p/cmdline\" 2>/dev/null); " ++
    "[ -z \"$c\" ] && continue; " ++
    "printf '__AI_PROCESS__ %s|%s\\n' \"$\x7bp##*/\x7d\" \"$c\"; done"

/-- `_FIREWALL_GATHER_CMD`. -/
def firewallGatherCmd : Text :=
  "printf '__AI_FW_CONFIG__\\n'; uci show firewall 2>/dev/null; " ++
    "printf '__AI_FW_INTERFACES__\\n'; ubus call network.interface dump 2>/dev/null; " ++
    "printf '__AI_FW_STATUS__\\n'; if [ -f /var/run/fw4.state ] || [ -f /tmp/fw4.state ] " ++
    "|| pgrep -x fw4 >/dev/null 2>&1; then echo running; else echo stopped; fi; " ++
    "ls /etc/rc.d/S*firewall >/dev/null 2>&1 && echo boot-enabled || echo boot-disabled; " ++
    "fw4 -v 2>/dev/null | head -1 || fw3 -v 2>/dev/null | head -1; " ++
    "printf '__AI_FW_CONNTRACK__\\n'; " ++
    "printf 'count=%s\\n' \"$(cat /proc/sys/net/netfilter/nf_conntrack_count 2>/dev/null)\"; " ++
    "printf 'max=%s\\n' \"$(cat /proc/sys/net/netfilter/nf_conntrack_max 2>/dev/null)\"; " ++
    "printf '__AI_FW_IPSET__\\n'; " ++
    "if command -v ipset >/dev/null 2>&1; then echo available; else echo missing; fi; " ++
    "echo __AI_FW_DONE__"

/-- `_PROCS_SCRIPT`. -/
def procsScript : Text :=
  "tot=$(awk '\x7bs=0;for(i=2;i<=NF;i++)s+=$i\x7dEND\x7bprint s\x7d' /proc/stat 2>/dev/null); " ++
    "printf '__AI_CPU_TOTAL__ %s\\n' \"$tot\"; " ++
    "mem=$(awk '/^MemTotal:/\x7bprint $2\x7d' /proc/meminfo 2>/dev/null); " ++
    "printf '__AI_MEM_TOTAL_KB__ %s\\n' \"$mem\"; for d in /proc/[0-9]*; do " ++
    "[ -r \"$d/stat\" ] || continue; p=$\x7bd#/proc/\x7d; " ++
    "s=$(cat \"$d/stat\" 2>/dev/null) || continue; " ++
    "u=$(awk '/^Uid:/\x7bprint $2\x7d' \"$d/status\" 2>/dev/null); " ++
    "c=$(cat \"$d/cmdline\" 2>/dev/null | tr '\\0' ' '); [ -n \"$u\" ] || u=0; " ++
    "printf '%s|__AI_UIDSEP__|%s|__AI_CMDSEP__|%s\\n' \"$u\" \"$s\" \"$c\"; done"

/-- `_SYSTEM_GATHER_CMD`. -/
def systemGatherCmd : Text :=
  "echo '==release=='; cat /etc/openwrt_release 2>/dev/null; " ++
    "echo '==boardjson=='; cat /etc/board.json 2>/dev/null; " ++
    "echo '==hostname=='; uci get system.@system[0].hostname 2>/dev/null " ++
    "|| hostname 2>/dev/null; " ++
    "echo '==timezone=='; uci get system.@system[0].timezone 2>/dev/null; " ++
    "echo '==zonename=='; uci get system.@system[0].zonename 2>/dev/null; " ++
    "echo '==language=='; uci get system.@system[0].language 2>/dev/null; " ++
    "echo '==notes=='; uci get system.@system[0].notes 2>/dev/null; " ++
    "echo '==localtime=='; date '+%Y-%m-%dT%H:%M:%S %z'; echo '==epoch=='; date +%s; " ++
    "echo '==uptime=='; cat /proc/uptime 2>/dev/null | cut -d' ' -f1; " ++
    "echo '==endian=='; printf '\\x01\\x00' | hexdump -n 2 -e '1/2 \"%04x\"' 2>/dev/null " ++
    "|| printf '\\x01\\x00' | od -An -tx2 2>/dev/null; echo; " ++
    "echo '==mtd=='; cat /proc/mtd 2>/dev/null; " ++
    "echo '==mounts=='; cat /proc/mounts 2>/dev/null; " ++
    "echo '==dtnode=='; tr -d '\\0' < /proc/device-tree/model 2>/dev/null; echo; " ++
    "echo '==uname=='; uname -s -r -m 2>/dev/null; " ++
    "echo '==ntpen=='; uci get system.ntp.enabled 2>/dev/null; " ++
    "echo '==ntpsrv=='; uci get system.ntp.server 2>/dev/null; " ++
    "echo '==ntpinfo=='; ubus call system ntpinfo 2>/dev/null; true"

/-- The script `collect_dns` sends. -/
def dnsScript : Text :=
  "uci show dhcp 2>/dev/null; echo '__AI_SEP__'; " ++
    "cat /etc/resolv.conf 2>/dev/null; echo '__AI_SEP__'; " ++
    "cat /etc/hosts 2>/dev/null; echo '__AI_SEP__'; " ++
    "/etc/init.d/dnsmasq running >/dev/null 2>&1 && echo running || echo stopped"

/-- The command `read_logs` sends. -/
def logreadCommand (lines : Int) : Text :=
  "logread -l " ++ intText (max 1 (min 5000 lines))

/-- The sections of the diagnostic bundle, with the commands that fill them. -/
def bundleSections : List (Text × Text) :=
  [("System Information", "cat /etc/openwrt_release; echo; uname -a; echo; uptime"),
    ("Boot Messages (dmesg)", "dmesg"),
    ("Filesystems (df)", "df -h"),
    ("Memory (free)", "free"),
    ("Network (ip addr)", "ip addr"),
    ("Ubus", "ubus list 2>&1; echo; ubus -S call system board 2>&1"),
    ("UCI Configuration", "uci export"),
    ("Installed Packages", "apk list --installed 2>/dev/null || opkg list-installed"),
    ("System Log (logread)", "logread -l 1000")]

/-! ## One-command reads -/

/-- `self._pkg_run(command, timeout).stdout`. -/
def readOutput (link : RouterLink σ) (command : Text) (timeout : Nat) : Op σ Text := do
  let result ← pkgRun link command timeout
  return result.stdout

/-- What `storage` reads. -/
def storage (link : RouterLink σ) : Op σ Text := readOutput link storageGatherCmd 60

/-- What `services` reads. -/
def services (link : RouterLink σ) : Op σ Text := readOutput link servicesGatherCmd 60

/-- What `firewall` reads. -/
def firewallGather (link : RouterLink σ) : Op σ Text := readOutput link firewallGatherCmd 60

/-- What `collect_dns` reads. -/
def collectDns (link : RouterLink σ) : Op σ CommandResult := pkgRun link dnsScript 90

/-- What `system_info` reads. -/
def systemInfo (link : RouterLink σ) : Op σ Text := readOutput link systemGatherCmd 60

/-- What `read_logs` reads. -/
def readLogs (link : RouterLink σ) (lines : Int) : Op σ Text :=
  withTransport link do
    let result ← run link (logreadCommand lines) none
    if !result.ok then
      Fallible.raise (.management ("logread failed (exit " ++ intText result.exitCode ++ ")"))
    return result.stdout

/-- What `processes` reads: two samples of the process table and the processor
count. -/
def processes (link : RouterLink σ) : Op σ (Text × Text × Text) :=
  withTransport link do
    let first ← run link procsScript (some 30)
    let second ← run link procsScript (some 30)
    let cpus ← run link "grep -c '^processor' /proc/cpuinfo 2>/dev/null" (some 20)
    return (first.stdout, second.stdout, cpus.stdout)

/-! ## Packages -/

/-- `PACKAGE_CACHE_TTL_S`, in milliseconds. -/
def packageCacheTtl : Nat := 30000

/-- `PACKAGE_LIST_TTL_S`, in milliseconds. -/
def packageListTtl : Nat := 120000

/-- What `_collect_packages` reads. -/
def collectPackages (link : RouterLink σ) : Op σ PackageInventory :=
  withTransport link do
    let manager ← detectPackageManager link
    match manager with
    | .apk =>
        let installed ← run link "apk list --installed" none
        let upgradable ← run link "apk list --upgradable" none
        let status ← run link "cat /lib/apk/db/installed 2>/dev/null" none
        return {
          manager := manager
          installed := installed.stdout
          upgradable := upgradable.stdout
          status := status.stdout }
    | .opkg =>
        let installed ← run link "opkg list-installed" none
        let upgradable ← run link "opkg list-upgradable" none
        let status ← run link
          "opkg status 2>/dev/null || cat /usr/lib/opkg/status 2>/dev/null" none
        return {
          manager := manager
          installed := installed.stdout
          upgradable := upgradable.stdout
          status := status.stdout }
    | .unknown => return { manager := manager, installed := [], upgradable := [], status := [] }

/-- Collect the inventory and keep it. -/
def refreshPackages (link : RouterLink σ) : ServiceOp σ PackageInventory := do
  let data ← onRouter (collectPackages link)
  Fallible.modify fun s =>
    { s with packagesCache := some data, packagesCacheAt := link.monotonic s.router }
  return data

/-- `RouterManagementService.packages`. -/
def packages (link : RouterLink σ) (refresh : Bool) : ServiceOp σ PackageInventory := do
  let s ← Fallible.read
  match s.packagesCache with
  | some cached =>
      if refresh = false ∧ link.monotonic s.router < s.packagesCacheAt + packageCacheTtl then
        return cached
      else refreshPackages link
  | none => refreshPackages link

/-- The command that asks for the time a file was changed. -/
def feedsUpdatedCommand (marker : Text) : Text :=
  "date -r " ++ shQuote marker ++ " +%s 2>/dev/null || stat -c %Y " ++ shQuote marker ++
    " 2>/dev/null"

/-- The time the package lists were last updated, as `feeds` asks for it. -/
def feedsUpdated (link : RouterLink σ) (listing : Text) : Op σ Text := do
  let marker ← readOutput link listing 30
  if strip marker = [] then
    return []
  else
    readOutput link (feedsUpdatedCommand (strip marker)) 30

/-- What `feeds` reads: the feed lists and the time of the last update. -/
def feeds (link : RouterLink σ) : Op σ (List Text × Text) := do
  match ← pkgManager link with
  | .opkg =>
      let dist ← readOutput link "cat /etc/opkg/distfeeds.conf 2>/dev/null" 30
      let custom ← readOutput link "cat /etc/opkg/customfeeds.conf 2>/dev/null" 30
      let updated ← feedsUpdated link "ls -1t /var/opkg-lists/* 2>/dev/null | head -1"
      return ([dist, custom], updated)
  | .apk =>
      let repositories ← readOutput link
        "cat /etc/apk/repositories /etc/apk/repositories.d/* 2>/dev/null" 30
      let updated ← feedsUpdated link "ls -1t /var/cache/apk/*APKINDEX* 2>/dev/null | head -1"
      return ([repositories], updated)
  | .unknown => Fallible.raise (.management "No supported package manager found.")

/-- What `package_details` reads. -/
def packageDetails (link : RouterLink σ) (name : Text) : Op σ Text := do
  if !pkgNamePattern name then
    Fallible.raise (.management "Invalid package name.")
  match ← pkgManager link with
  | .opkg => readOutput link ("opkg info " ++ shQuote name) 60
  | .apk =>
      let text ← readOutput link ("apk info -a " ++ shQuote name) 60
      if strip text = [] then
        Fallible.raise (.management ("Package '" ++ name ++ "' was not found."))
      return text
  | .unknown => Fallible.raise (.management "No supported package manager found.")

/-- `_split_apk_pkgid`: the version starts at the first part, after the first
one, that begins with a digit. -/
def splitApkPkgid (pkgid : Text) : Text × Text :=
  match pkgid.splitOn '-' with
  | [] => (pkgid, [])
  | first :: rest =>
      let name := rest.takeWhile fun part => !part.head?.any isDigit
      let version := rest.dropWhile fun part => !part.head?.any isDigit
      if version = [] then (pkgid, []) else (join "-" (first :: name), join "-" version)

/-- `_split_apk_stream`: data lines and diagnostics. -/
def splitApkStream (text : Text) : List Text × List Text :=
  (((splitlines text).map strip).filter (· ≠ [])).partition fun line =>
    !startsWith "WARNING:" line && !startsWith "ERROR:" line

/-- An entry of a package search. -/
structure FoundPackage where
  name : Text
  version : Text
  description : Text
  deriving DecidableEq

/-- The entry one data line of `apk search` stands for. -/
def parseApkSearchLine (line : Text) : Option FoundPackage :=
  match words line with
  | [] => none
  | pkgid :: _ =>
      let (name, version) := splitApkPkgid pkgid
      let rest := strip (line.drop pkgid.length)
      if name = [] then none
      else some
        { name := name
          version := version
          description :=
            if startsWith "-" rest then strip (rest.drop 1)
            else (partition " - " rest).2.elim rest strip }

/-- `_parse_apk_search`. -/
def parseApkSearch (text : Text) : List FoundPackage × List Text :=
  ((splitApkStream text).1.filterMap parseApkSearchLine, (splitApkStream text).2)

/-- One `apk search`. -/
def apkSearch (link : RouterLink σ) (term : Text) : Op σ (List FoundPackage × List Text) := do
  let text ← readOutput link ("apk search -v -q " ++ shQuote term) 60
  return parseApkSearch text

/-- What a search read: entries with diagnostics, or the whole list of packages. -/
inductive SearchAnswer
  | apk (results : List FoundPackage) (warnings : List Text)
  | opkg (listText : Text)
  | unknown

/-- The search under `apk`, which refreshes a missing index once. -/
def searchApk (link : RouterLink σ) (needle : Text) : Op σ SearchAnswer := do
  let (results, warnings) ← apkSearch link needle
  if results = [] ∧ warnings ≠ [] then
    let refresh ← pkgRun link "apk update" 180
    if refresh.ok then
      let (results, warnings) ← apkSearch link needle
      return .apk results warnings
    else return .apk results warnings
  else return .apk results warnings

/-- The package list of `opkg`, from the cache while it is fresh. -/
def opkgList (link : RouterLink σ) : ServiceOp σ Text := do
  let s ← Fallible.read
  if s.opkgListText = [] ∨ s.opkgListAt + packageListTtl ≤ link.monotonic s.router then
    let text ← onRouter (readOutput link "opkg list" 300)
    Fallible.modify fun s =>
      { s with opkgListText := text, opkgListAt := link.monotonic s.router }
    return text
  else return s.opkgListText

/-- What `search_packages` reads. -/
def searchPackages (link : RouterLink σ) (query : Text) : ServiceOp σ SearchAnswer := do
  let needle := strip query
  if needle = [] then
    Fallible.raise (.management "A search query is required.")
  else
    match ← onRouter (pkgManager link) with
    | .apk => onRouter (searchApk link needle)
    | .opkg =>
        let text ← opkgList link
        return .opkg text
    | .unknown => return .unknown

/-! ## The diagnostic bundle -/

/-- The lines a bundle section contributes. -/
def bundleSection (link : RouterLink σ) (title command : Text) : Op σ (List Text) := do
  let result ← run link command (some 90)
  let body := strip result.stdout
  return [
    List.replicate 64 '=', "### " ++ title, List.replicate 64 '=',
    if body = [] then "(no output / command failed)" else body, []]

/-- The sections in order. -/
def bundleBody (link : RouterLink σ) : List (Text × Text) → Op σ (List Text)
  | [] => pure []
  | (title, command) :: rest => do
      let lines ← bundleSection link title command
      let more ← bundleBody link rest
      return lines ++ more

/-- `RouterManagementService.build_bundle`, at the time the `timestamp` shows and
before compression. -/
def buildBundle (link : RouterLink σ) (timestamp : Text) : Op σ (Text × Text) :=
  withTransport link do
    let hostname ← routerHostname link
    let body ← bundleBody link bundleSections
    return ("diagnostics-" ++ hostname ++ "-" ++ timestamp ++ ".txt.gz", join "\n" body)

/-! ## Processes -/

/-- The command `kill_process` sends. -/
def killCommand (pid : Int) : Text :=
  "kill " ++ intText pid ++ "; wait " ++ intText pid ++ " 2>/dev/null; true"

/-- `RouterManagementService.kill_process`. -/
def killProcess (link : RouterLink σ) (pid : Int) : Op σ OperationResult :=
  if pid ≤ 0 ∨ 4194304 < pid then Fallible.raise (.management "Invalid process id.")
  else
    withTransport link do
      let result ← run link (killCommand pid) (some 30)
      return {
        ok := result.ok
        message :=
          if result.ok then "SIGTERM sent to process " ++ intText pid ++ "."
          else "Could not signal process " ++ intText pid ++ " (exit " ++
            intText result.exitCode ++ ")."
        detail := some result.toDict }

end OpenWrtCopilot.Ports.Management
