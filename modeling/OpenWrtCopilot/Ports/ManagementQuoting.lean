import OpenWrtCopilot.Ports.ManagementTemplates

/-!
# What the shell reads of a write operation

The patterns that guard section identifiers are matched with `re.match`, whose
`$` also matches before a final newline, and the identifiers stand unquoted in
the commands.

## Main results

* `fills_of_sent` — an operation sends the text of its template, and what it
  interpolates unquoted is a line of plain characters.
* `readAsTemplate_iff` — the shell reads the commands of the template exactly
  when the section identifier does not end in a newline.
-/

namespace OpenWrtCopilot.Ports.Management

open Verified
open Verified.PyText
open Verified.PyPattern
open Verified.PosixTokens
open Verified.ShellTemplate

/-! ## Values that may be interpolated -/

@[simp] theorem quote_eq_shQuote (value : Text) : quote value = shQuote value := rfl

/-- A text without single quotes is only put between two. -/
@[simp] theorem shQuote_of_notMem {value : Text} (h : '\'' ∉ value) :
    shQuote value = '\'' :: (value ++ ['\'']) := by
  have hbody : value.flatMap (fun c => if c = '\'' then "'\\''".toList else [c]) = value := by
    have hchars : value.flatMap (fun c => if c = '\'' then "'\\''".toList else [c]) =
        value.flatMap fun c => [c] := by
      refine List.flatMap_congr fun c hc => if_neg ?_
      intro hquote
      exact h (hquote ▸ hc)
    rw [hchars, List.flatMap_singleton']
  show '\'' :: (value.flatMap _ ++ ['\'']) = _
  rw [hbody]

@[simp] theorem quote_notMem_flag (b : Bool) : '\'' ∉ flag b := by
  cases b <;> decide

/-- A class of plain characters only matches plain lines. -/
theorem plainLine_of_matchClass {inClass : Char → Bool} {r : Repeat} {t : Text}
    (hclass : ∀ c, inClass c = true → isPlain c = true) (hleast : 0 < r.least)
    (h : matchClass inClass r t = true) : PlainLine t := by
  obtain ⟨body, hbody, hends⟩ := matchClass_iff.mp h
  obtain ⟨hlength, hchars⟩ := fullmatchClass_iff.mp hbody
  refine ⟨body, ⟨?_, fun c hc => hclass c (hchars c hc)⟩, hends⟩
  intro hnil
  rw [hnil, Repeat.allows, List.length_nil, Bool.and_eq_true] at hlength
  have hle : r.least ≤ 0 := of_decide_eq_true hlength.1
  omega

theorem isPlain_of_isAlphanum {c : Char} (h : c.isAlphanum = true) : isPlain c = true :=
  isPlain_of_isNameChar (by simp [isNameChar, h])

theorem isPlain_of_alnumOr {extra : List Char} (hextra : ∀ c ∈ extra, isPlain c = true)
    (c : Char) (h : alnumOr extra c = true) : isPlain c = true := by
  rw [alnumOr, Bool.or_eq_true] at h
  rcases h with h | h
  · exact isPlain_of_isAlphanum h
  · exact hextra c (by simpa using h)

theorem plainLine_of_sectionPattern {t : Text} (h : sectionPattern t = true) : PlainLine t :=
  plainLine_of_matchClass (isPlain_of_alnumOr (by decide)) (by decide) h

/-- A decimal digit of any script is a plain character. -/
theorem isPlain_of_digitValue {c : Char} (h : (digitValue c).isSome = true) :
    isPlain c = true := by
  cases hplain : isPlain c with
  | true => rfl
  | false =>
    exfalso
    simp only [isPlain, Bool.not_eq_false', List.contains_eq_mem, decide_eq_true_eq,
      List.mem_cons, List.not_mem_nil, or_false] at hplain
    have hnone : ∀ d ∈ [' ', '\t', '\n', '(', ')', ';', '&', '|', '<', '>', '\'', '"', '\\',
        '$', '`', '#'], (digitValue d).isSome = false := by decide
    rcases hplain with h' | h' | h' | h' | h' | h' | h' | h' | h' | h' | h' | h' | h' | h' | h'
        | h' <;>
      exact absurd h (by rw [h', hnone _ (by decide)]; decide)

/-- The parts of a split text, joined at the separator, are the text. -/
theorem splitFirst_spec (sep : Char) (t : Text) :
    match splitFirst sep t with
    | (before, none) => t = before
    | (before, some after) => t = before ++ sep :: after := by
  induction t with
  | nil => rfl
  | cons c t ih =>
    by_cases hc : c = sep
    · rw [splitFirst, if_pos hc, hc]
      rfl
    · rw [splitFirst, if_neg hc]
      generalize splitFirst sep t = parts at ih
      obtain ⟨before, after⟩ := parts
      cases after with
      | none => exact congrArg (c :: ·) ih
      | some after => exact congrArg (c :: ·) ih

theorem plainText_of_dhcpSectionBody {t : Text} (h : dhcpSectionBody t = true) : PlainText t := by
  have hname : ∀ c, alnumOr ['_', '@', '.', '-'] c = true → isPlain c = true :=
    isPlain_of_alnumOr (by decide)
  have hsplit := splitFirst_spec '[' t
  rw [dhcpSectionBody] at h
  generalize splitFirst '[' t = parts at h hsplit
  obtain ⟨name, index⟩ := parts
  obtain ⟨hbody, hindex⟩ := Bool.and_eq_true_iff.mp h
  obtain ⟨hlength, hchars⟩ := fullmatchClass_iff.mp hbody
  have hne : name ≠ [] := by
    intro hnil
    rw [hnil] at hlength
    exact absurd hlength (by decide)
  cases index with
  | none =>
    obtain rfl : t = name := hsplit
    exact ⟨hne, fun c hc => hname c (hchars c hc)⟩
  | some rest =>
    obtain rfl : t = name ++ '[' :: rest := hsplit
    simp only [Bool.and_eq_true, beq_iff_eq] at hindex
    obtain ⟨⟨hlast, _⟩, hdigits⟩ := hindex
    obtain ⟨digits, rfl⟩ := List.getLast?_eq_some_iff.mp hlast
    rw [List.dropLast_concat, List.all_eq_true] at hdigits
    refine ⟨by simp, fun c hc => ?_⟩
    simp only [List.mem_append, List.mem_cons, List.not_mem_nil, or_false] at hc
    rcases hc with hc | rfl | hc | rfl
    · exact hname c (hchars c hc)
    · decide
    · exact isPlain_of_digitValue (hdigits c hc)
    · decide

theorem plainLine_of_dhcpSectionPattern {t : Text} (h : dhcpSectionPattern t = true) :
    PlainLine t := by
  rw [dhcpSectionPattern, Bool.or_eq_true, Bool.and_eq_true] at h
  rcases h with h | ⟨hlast, h⟩
  · exact ⟨t, plainText_of_dhcpSectionBody h, Or.inl rfl⟩
  · refine ⟨t.dropLast, plainText_of_dhcpSectionBody h, Or.inr ?_⟩
    obtain ⟨body, rfl⟩ := List.getLast?_eq_some_iff.mp (by simpa using hlast)
    rw [List.dropLast_concat]

/-! ## The templates spell the commands -/

theorem command_sectionChange {invalid sectionId text label failure success command : Text}
    (h : plannedCommand (sectionChange invalid sectionId text label failure success) =
      some command) : sectionPattern sectionId = true ∧ command = text := by
  unfold sectionChange at h
  split at h
  · exact ⟨‹_›, (Option.some.inj h).symm⟩
  · cases h

theorem command_interfaceChange {sectionId text failure success command : Text}
    (h : plannedCommand (interfaceChange sectionId text failure success) = some command) :
    sectionPattern sectionId = true ∧ command = text := by
  unfold interfaceChange at h
  split at h
  · exact ⟨‹_›, (Option.some.inj h).symm⟩
  · cases h

theorem command_bind_unit {check : Except ServiceError Unit} {plan : Plan} {command : Text}
    (h : plannedCommand (check >>= fun _ => pure plan) = some command) :
    plan.command = some command := by
  cases check with
  | error e => cases h
  | ok u => exact h

theorem command_ite {ok : Bool} {plan : Plan} {message command : Text}
    (h : plannedCommand (if ok then .ok plan else reject message) = some command) :
    ok = true ∧ plan.command = some command := by
  cases ok with
  | true => exact ⟨rfl, h⟩
  | false => cases h

theorem command_dhcpEditHost {sectionId hostname ip mac command : Text}
    (h : plannedCommand (dhcpEditHost sectionId hostname ip mac) = some command) :
    dhcpSectionPattern sectionId = true ∧
      command = "uci set dhcp." ++ sectionId ++ ".name=" ++ shQuote hostname ++
        " && uci set dhcp." ++ sectionId ++ ".ip=" ++ shQuote ip ++
        " && uci set dhcp." ++ sectionId ++ ".mac=" ++ shQuote mac ++
        " && uci commit dhcp && /etc/init.d/dnsmasq reload" := by
  unfold dhcpEditHost at h
  cases hsection : dhcpSectionPattern sectionId with
  | false =>
    rw [hsection] at h
    cases h
  | true =>
    rw [hsection] at h
    exact ⟨rfl, (Option.some.inj (command_bind_unit h)).symm⟩

/-- The word of a service action that is accepted. -/
theorem actionWord_eq {actionName : Text} (h : actionName ∈ serviceActions) :
    ∃ plain, actionWord actionName = .bare actionName plain := by
  have hplain : PlainText actionName := by
    have hall : ∀ a ∈ serviceActions, PlainText a := by decide
    exact hall actionName h
  exact ⟨hplain, dif_pos hplain⟩

/-- The words of a package action are those of its mutation, under either manager. -/
theorem words_of_packageMutation {actionName : Text} {m : PackageMutation}
    (h : packageMutation actionName = some m) (values : Field → Text) :
    m.opkg = "opkg" ++ renderArgs values (opkgWords actionName) ∧
      m.apk = "apk" ++ renderArgs values (apkWords actionName) := by
  unfold packageMutation at h
  split_ifs at h with hinstall hremove hupgrade hreinstall
  · obtain rfl := Option.some.inj h
    rw [opkgWords, if_pos hinstall, apkWords, if_pos hinstall]
    delta packageInstall
    refine ⟨?_, ?_⟩ <;> simp [bare]
  · obtain rfl := Option.some.inj h
    rw [opkgWords, if_neg hinstall, if_pos hremove, apkWords, if_neg hinstall, if_pos hremove]
    delta packageRemove
    refine ⟨?_, ?_⟩ <;> simp [bare]
  · obtain rfl := Option.some.inj h
    rw [opkgWords, if_neg hinstall, if_neg hremove, if_pos hupgrade, apkWords, if_neg hinstall,
      if_neg hremove, if_pos hupgrade]
    delta packageUpgrade
    refine ⟨?_, ?_⟩ <;> simp [bare]
  · obtain rfl := Option.some.inj h
    rw [opkgWords, if_neg hinstall, if_neg hremove, if_neg hupgrade, apkWords, if_neg hinstall,
      if_neg hremove, if_neg hupgrade]
    delta packageReinstall
    refine ⟨?_, ?_⟩ <;> simp [bare]

theorem render_package {actionName name command : Text} {manager : PackageManager}
    (h : (WriteOperation.packageAction actionName name manager).sent = some command)
    (values : Field → Text) (hname : values .package = name) :
    (packageTemplate actionName manager).render values = command := by
  rw [WriteOperation.sent] at h
  split at h
  · obtain ⟨m, hm, hcommand⟩ := Option.bind_eq_some_iff.mp h
    obtain ⟨hopkg, hapk⟩ := words_of_packageMutation hm values
    cases manager with
    | opkg =>
      obtain rfl := Option.some.inj hcommand
      simp [packageTemplate, bare, hname, hopkg]
    | apk =>
      obtain rfl := Option.some.inj hcommand
      simp [packageTemplate, bare, hname, hapk]
    | unknown => cases hcommand
  · cases h

theorem render_service {actionName service command : Text}
    (h : serviceCommand actionName service = .ok command) (values : Field → Text)
    (hservice : values .service = service) :
    (serviceTemplate actionName).render values = command := by
  unfold serviceCommand at h
  split_ifs at h with hname haction
  · cases h
  · obtain ⟨plain, hword⟩ := actionWord_eq haction
    obtain rfl := Except.ok.inj h
    simp [serviceTemplate, hword, bare, hservice]
  · cases h

/-- A requested setting is rendered as its command. -/
theorem render_toList {values : Field → Text} {o : Option Text} {c : Text → SimpleCommand Field}
    {f : Text → Text} (h : ∀ t ∈ o, (c t).render values = f t) :
    (o.map c).toList.map (·.render values) = (o.map f).toList := by
  cases o with
  | none => rfl
  | some t => exact congrArg (fun x => [x]) (h t rfl)

theorem render_systemOption {values : Field → Text} {field : Field} {value : Text}
    (hvalue : values field = value) (name : WordTemplate Field) (option : Text)
    (hname : name.render values = "system.@system[0]." ++ option ++ "=") :
    (systemOption name field).render values = systemSet option value := by
  delta systemSet
  simp [systemOption, uci, bare, hname, hvalue, -List.cons.injEq]

theorem render_systemOptions {config : SystemConfig} {values : Field → Text}
    (hhostname : ∀ t ∈ config.hostname, values .hostname = t)
    (htimezone : ∀ t ∈ config.timezone, values .timezone = t)
    (hlanguage : ∀ t ∈ config.language, values .language = t)
    (hnotes : ∀ t ∈ config.notes, values .notes = t) :
    (systemOptions config).map (·.render values) = config.uciCommands := by
  have hname : ∀ (s : String) (plain : PlainText s) (option : Text),
      s.toList = "system.@system[0]." ++ option ++ "=" →
      (bare s plain).render values = "system.@system[0]." ++ option ++ "=" := fun _ _ _ h => h
  rw [systemOptions, SystemConfig.uciCommands]
  simp only [List.map_append]
  congr 1
  · congr 1
    · congr 1
      · exact render_toList fun t ht =>
          render_systemOption (hhostname t ht) _ _ (hname _ _ _ (by rfl))
      · exact render_toList fun t ht =>
          render_systemOption (htimezone t ht) _ _ (hname _ _ _ (by rfl))
    · exact render_toList fun t ht =>
        render_systemOption (hlanguage t ht) _ _ (hname _ _ _ (by decide +kernel))
  · refine render_toList fun t ht => ?_
    by_cases hempty : t = []
    · simp [hempty, uci, bare, -List.cons.injEq]
    · rw [if_pos hempty, if_pos hempty]
      exact render_systemOption (hnotes t ht) _ _ (hname _ _ _ (by rfl))

theorem render_system {config : SystemConfig} {command : Text}
    (h : plannedCommand (systemSetConfig config) = some command) :
    (systemTemplate config).render (WriteOperation.systemSetConfig config).value = command := by
  have hcommand : command = join " && " config.commands ++ " || true" := by
    unfold systemSetConfig at h
    split_ifs at h
    any_goals cases h
    rfl
  have hvalue : ∀ {o : Option Text}, ∀ t ∈ o, o.getD [] = t := by
    intro o t ht
    rw [ht, Option.getD_some]
  have hoptions : (systemOptions config).map
      (·.render (WriteOperation.systemSetConfig config).value) = config.uciCommands :=
    render_systemOptions hvalue hvalue hvalue hvalue
  have hecho : (config.hostname.map fun _ => echoHostname).toList.map
      (·.render (WriteOperation.systemSetConfig config).value) =
      (config.hostname.map fun hostname =>
        "echo " ++ shQuote hostname ++ " > /proc/sys/kernel/hostname").toList := by
    refine render_toList fun t ht => ?_
    have hhostname : (WriteOperation.systemSetConfig config).value .hostname = t := hvalue t ht
    simp [echoHostname, bare, hhostname, -List.cons.injEq]
  have hcommit : (uci [bare "commit", bare "system"]).render
      (WriteOperation.systemSetConfig config).value = "uci commit system".toList := by
    simp [uci, bare]
  have hrestart : (initScript (bare "/etc/init.d/sysntpd") (bare "restart")).render
      (WriteOperation.systemSetConfig config).value = "/etc/init.d/sysntpd restart".toList := by
    simp [initScript, bare]
  have htrue : (Script.command { name := bare "true" }).render
      (WriteOperation.systemSetConfig config).value = "true".toList := by
    simp [bare]
  have hor : " || true".toList = Separator.orIf.render ++ "true".toList := by rfl
  have hcommands : config.commands = config.uciCommands ++
      (config.hostname.map fun hostname =>
        "echo " ++ shQuote hostname ++ " > /proc/sys/kernel/hostname").toList ++
      ["uci commit system".toList] ++ ["/etc/init.d/sysntpd restart".toList] := by
    rw [SystemConfig.commands, List.append_assoc _ [_] [_]]
    rfl
  rw [hcommand, hcommands, hor, systemTemplate, Script.render, Script.render_andAll,
    List.map_append, List.map_append, hoptions, hecho, List.map_singleton, hcommit, hrestart, htrue]
  exact List.append_assoc _ _ _

/-! ## What the templates render -/

section Templates

variable (value : Field → Text)

theorem render_firewallTemplate (enabled : Bool) :
    (firewallTemplate enabled).render value =
      firewallToggleCommand (value .sectionId) enabled := by
  delta firewallToggleCommand
  simp [firewallTemplate, uci, initScript, bare, join, -List.cons.injEq]

theorem render_ssidTemplate (enabled : Bool) :
    (ssidTemplate enabled).render value =
      "uci set wireless.".toList ++ value .sectionId ++ ".disabled='".toList ++ flag (!enabled) ++
        "' && ".toList ++ "uci commit wireless && /etc/init.d/wireless reload".toList := by
  simp [ssidTemplate, uci, initScript, bare, join, -List.cons.injEq]

theorem render_vpnTemplate (enabled : Bool) :
    (vpnTemplate enabled).render value =
      "uci set openvpn.".toList ++ value .sectionId ++ ".enabled='".toList ++ flag enabled ++
        "' && ".toList ++ "uci commit openvpn && /etc/init.d/openvpn reload".toList := by
  simp [vpnTemplate, uci, initScript, bare, join, -List.cons.injEq]

theorem render_radioTemplate (enabled : Bool) :
    (radioTemplate enabled).render value =
      (if enabled then "uci delete wireless.".toList ++ value .sectionId ++ ".disabled".toList
        else "uci set wireless.".toList ++ value .sectionId ++ ".disabled='1'".toList) ++
        " && uci commit wireless && /etc/init.d/wireless reload".toList := by
  cases enabled
  all_goals
    simp [radioTemplate, disabledOption, uci, initScript, bare, join, -List.cons.injEq]

theorem render_interfaceEnabledTemplate (enabled : Bool) :
    (interfaceEnabledTemplate enabled).render value =
      (if enabled then "uci delete network.".toList ++ value .sectionId ++ ".disabled".toList
        else "uci set network.".toList ++ value .sectionId ++ ".disabled='1'".toList) ++
        " && uci commit network && /etc/init.d/network reload".toList := by
  cases enabled
  all_goals
    simp [interfaceEnabledTemplate, disabledOption, uci, initScript, bare, join,
      -List.cons.injEq]

theorem render_dhcpAddTemplate :
    dhcpAddTemplate.render value =
      "sid=$(uci add dhcp host) && uci set dhcp.$sid.name=".toList ++ shQuote (value .hostname) ++
        " && uci set dhcp.$sid.ip=".toList ++ shQuote (value .ip) ++
        " && uci set dhcp.$sid.mac=".toList ++ shQuote (value .mac) ++
        " && uci commit dhcp && /etc/init.d/dnsmasq reload && printf '%s' \"$sid\"".toList := by
  simp [dhcpAddTemplate, leaseOptions, leaseOption, dhcpCommit, dnsmasqReload, uci, initScript,
    bare, join, -List.cons.injEq]

theorem render_dhcpEditTemplate :
    dhcpEditTemplate.render value =
      "uci set dhcp.".toList ++ value .sectionId ++ ".name=".toList ++ shQuote (value .hostname) ++
        " && uci set dhcp.".toList ++ value .sectionId ++ ".ip=".toList ++ shQuote (value .ip) ++
        " && uci set dhcp.".toList ++ value .sectionId ++ ".mac=".toList ++ shQuote (value .mac) ++
        " && uci commit dhcp && /etc/init.d/dnsmasq reload".toList := by
  simp [dhcpEditTemplate, leaseOptions, leaseOption, dhcpCommit, dnsmasqReload, uci, initScript,
    bare, join, -List.cons.injEq]

theorem render_dhcpDeleteTemplate :
    dhcpDeleteTemplate.render value =
      "uci delete dhcp.".toList ++ value .sectionId ++
        " && uci commit dhcp && /etc/init.d/dnsmasq reload".toList := by
  simp [dhcpDeleteTemplate, dhcpCommit, dnsmasqReload, uci, initScript, bare, join,
    -List.cons.injEq]

theorem render_dhcpToggleTemplate (enabled : Bool) :
    (dhcpToggleTemplate enabled).render value =
      if enabled then
        "uci delete dhcp.".toList ++ value .sectionId ++ ".enabled && uci commit dhcp".toList
      else
        "uci set dhcp.".toList ++ value .sectionId ++
          ".enabled='0' && uci commit dhcp".toList := by
  cases enabled
  all_goals
    simp [dhcpToggleTemplate, dhcpCommit, uci, bare, join, -List.cons.injEq]

theorem render_dnsServerTemplate (s : String) (plain : PlainText s) :
    (dnsServerTemplate (bare s plain)).render value =
      "uci ".toList ++ s.toList ++ " dhcp.@dnsmasq[0].server=".toList ++ shQuote (value .server) ++
        " && uci commit dhcp && /etc/init.d/dnsmasq reload".toList := by
  simp [dnsServerTemplate, dhcpCommit, dnsmasqReload, uci, initScript, bare, join,
    -List.cons.injEq]

theorem render_dnsAddHostTemplate :
    dnsAddHostTemplate.render value =
      "grep -q -e ".toList ++ shQuote (value .hostname) ++
        " /etc/hosts || printf '%s\\t%s\\n' ".toList ++ shQuote (value .ip) ++ " ".toList ++
        shQuote (value .hostname) ++ " >> /etc/hosts".toList := by
  simp [dnsAddHostTemplate, bare, -List.cons.injEq]

theorem render_dnsRemoveHostTemplate :
    dnsRemoveHostTemplate.render value =
      "sed -i -e ".toList ++ shQuote (value .hostsPattern) ++ " /etc/hosts".toList := by
  simp [dnsRemoveHostTemplate, bare, -List.cons.injEq]

theorem render_interfaceCycleTemplate :
    interfaceCycleTemplate.render value = interfaceCycleCommand (value .sectionId) := by
  delta interfaceCycleCommand
  simp [interfaceCycleTemplate, ifdown, bare, -List.cons.injEq]

theorem render_interfaceReleaseTemplate :
    interfaceReleaseTemplate.render value =
      "ifdown ".toList ++ value .sectionId ++ "; true".toList := by
  simp [interfaceReleaseTemplate, ifdown, bare, -List.cons.injEq]

end Templates

/-- An operation sends the text of its template, and its section identifier is a
line of plain characters. -/
theorem fills_of_sent {op : WriteOperation} {command : Text} (h : op.sent = some command) :
    (∀ sectionId ∈ op.sectionId, PlainLine sectionId) ∧
      op.template.render op.value = command := by
  have noSection : ∀ sectionId ∈ (none : Option Text), PlainLine sectionId := fun _ hs => by cases hs
  have named : ∀ {sectionId : Text}, sectionPattern sectionId = true →
      ∀ s ∈ some sectionId, PlainLine s :=
    fun hsection _ hs => Option.some.inj hs ▸ plainLine_of_sectionPattern hsection
  have lease : ∀ {sectionId : Text}, dhcpSectionPattern sectionId = true →
      ∀ s ∈ some sectionId, PlainLine s :=
    fun hsection _ hs => Option.some.inj hs ▸ plainLine_of_dhcpSectionPattern hsection
  cases op with
  | toggleFirewallRule sectionId enabled =>
    obtain ⟨hsection, rfl⟩ := command_sectionChange h
    exact ⟨named hsection, render_firewallTemplate _ enabled⟩
  | firewallSetSectionEnabled sectionId enabled =>
    obtain ⟨hsection, rfl⟩ := command_sectionChange h
    exact ⟨named hsection, render_firewallTemplate _ enabled⟩
  | toggleWirelessSsid sectionId enabled =>
    obtain ⟨hsection, rfl⟩ := command_sectionChange h
    exact ⟨named hsection, render_ssidTemplate _ enabled⟩
  | toggleWirelessRadio sectionId enabled =>
    obtain ⟨hsection, rfl⟩ := command_sectionChange h
    exact ⟨named hsection, render_radioTemplate _ enabled⟩
  | toggleVpnInstance sectionId enabled =>
    obtain ⟨hsection, rfl⟩ := command_sectionChange h
    exact ⟨named hsection, render_vpnTemplate _ enabled⟩
  | dhcpAddHost hostname ip mac =>
    obtain rfl := Option.some.inj (command_bind_unit h)
    exact ⟨noSection, render_dhcpAddTemplate _⟩
  | dhcpEditHost sectionId hostname ip mac =>
    obtain ⟨hsection, rfl⟩ := command_dhcpEditHost h
    exact ⟨lease hsection, render_dhcpEditTemplate _⟩
  | dhcpDeleteHost sectionId =>
    obtain ⟨hsection, hplan⟩ := command_ite h
    obtain rfl := Option.some.inj hplan
    exact ⟨lease hsection, render_dhcpDeleteTemplate _⟩
  | dhcpToggleHost sectionId enabled =>
    obtain ⟨hsection, hplan⟩ := command_ite h
    obtain rfl := Option.some.inj hplan
    exact ⟨lease hsection, render_dhcpToggleTemplate _ enabled⟩
  | dnsAddServer server =>
    obtain ⟨_, hplan⟩ := command_ite h
    obtain rfl := Option.some.inj hplan
    exact ⟨noSection, (render_dnsServerTemplate _ _ _).trans (by rfl)⟩
  | dnsRemoveServer server =>
    obtain ⟨_, hplan⟩ := command_ite h
    obtain rfl := Option.some.inj hplan
    exact ⟨noSection, (render_dnsServerTemplate _ _ _).trans (by rfl)⟩
  | dnsAddHost hostname ip =>
    obtain rfl := Option.some.inj (command_bind_unit h)
    exact ⟨noSection, render_dnsAddHostTemplate _⟩
  | dnsRemoveHost hostname ip =>
    obtain rfl := Option.some.inj (command_bind_unit h)
    exact ⟨noSection, render_dnsRemoveHostTemplate _⟩
  | netInterfaceRestart sectionId =>
    obtain ⟨hsection, rfl⟩ := command_interfaceChange h
    exact ⟨named hsection, render_interfaceCycleTemplate _⟩
  | netInterfaceRenew sectionId =>
    obtain ⟨hsection, rfl⟩ := command_interfaceChange h
    exact ⟨named hsection, render_interfaceCycleTemplate _⟩
  | netInterfaceRelease sectionId =>
    obtain ⟨hsection, rfl⟩ := command_interfaceChange h
    exact ⟨named hsection, render_interfaceReleaseTemplate _⟩
  | netInterfaceSetEnabled sectionId enabled =>
    obtain ⟨hsection, rfl⟩ := command_interfaceChange h
    exact ⟨named hsection, render_interfaceEnabledTemplate _ enabled⟩
  | systemSetConfig config => exact ⟨noSection, render_system h⟩
  | packageAction actionName name manager => exact ⟨noSection, render_package h _ rfl⟩
  | serviceAction actionName service =>
    refine ⟨noSection, render_service ?_ _ rfl⟩
    cases hcommand : serviceCommand actionName service with
    | error e =>
      rw [WriteOperation.sent, hcommand] at h
      cases h
    | ok text =>
      rw [WriteOperation.sent, hcommand] at h
      exact hcommand.trans (congrArg Except.ok (Option.some.inj h))

/-! ## The section identifier is all that stands unquoted -/

theorem mem_bareValues_of_replicate (op : WriteOperation) {n : Nat}
    (hvalues : op.template.bareValues = List.replicate n .sectionId)
    (hn : op.sectionId.isSome = decide (0 < n)) (v : Field) :
    v ∈ op.template.bareValues ↔ v = .sectionId ∧ op.sectionId.isSome = true := by
  rw [hvalues, List.mem_replicate, hn, decide_eq_true_iff]
  constructor
  · rintro ⟨hne, hv⟩
    exact ⟨hv, by omega⟩
  · rintro ⟨hv, hpos⟩
    exact ⟨by omega, hv⟩

theorem bareValues_system (config : SystemConfig) : (systemTemplate config).bareValues = [] := by
  have hoptions : ∀ c ∈ systemOptions config, c.bareValues = [] := by
    intro c hc
    simp only [systemOptions, List.mem_append, Option.mem_toList, Option.map_eq_some_iff] at hc
    rcases hc with ((⟨t, _, rfl⟩ | ⟨t, _, rfl⟩) | ⟨t, _, rfl⟩) | ⟨t, _, rfl⟩
    · rfl
    · rfl
    · rfl
    · by_cases hempty : t = []
      · rw [if_neg (not_not.mpr hempty)]
        rfl
      · rw [if_pos hempty]
        rfl
  have hecho : ∀ c ∈ (config.hostname.map fun _ => echoHostname).toList, c.bareValues = [] := by
    intro c hc
    obtain ⟨_, _, rfl⟩ := Option.map_eq_some_iff.mp (Option.mem_toList.mp hc)
    rfl
  rw [systemTemplate, Script.bareValues, Script.bareValues_andAll]
  simp only [List.flatMap_append, List.flatMap_eq_nil_iff.mpr hoptions,
    List.flatMap_eq_nil_iff.mpr hecho]
  rfl

theorem bareValues_package (actionName : Text) (manager : PackageManager) :
    (packageTemplate actionName manager).bareValues = [] := by
  have hopkg : (opkgWords actionName).flatMap WordTemplate.bareValues = [] := by
    unfold opkgWords
    split_ifs <;> rfl
  have hapk : (apkWords actionName).flatMap WordTemplate.bareValues = [] := by
    unfold apkWords
    split_ifs <;> rfl
  cases manager with
  | opkg =>
    rw [packageTemplate, Script.bareValues, SimpleCommand.bareValues, List.flatMap_append, hopkg]
    rfl
  | apk =>
    rw [packageTemplate, Script.bareValues, SimpleCommand.bareValues, List.flatMap_append, hapk]
    · rfl
    · exact fun h => by cases h
  | unknown =>
    rw [packageTemplate, Script.bareValues, SimpleCommand.bareValues, List.flatMap_append, hapk]
    · rfl
    · exact fun h => by cases h

theorem bareValues_service (actionName : Text) : (serviceTemplate actionName).bareValues = [] := by
  unfold serviceTemplate actionWord
  split <;> rfl

/-- The values of a template that stand unquoted are its section identifiers. -/
theorem mem_bareValues_iff (op : WriteOperation) (v : Field) :
    v ∈ op.template.bareValues ↔ v = .sectionId ∧ op.sectionId.isSome = true := by
  cases op with
  | toggleFirewallRule => exact mem_bareValues_of_replicate _ (n := 1) rfl rfl v
  | firewallSetSectionEnabled => exact mem_bareValues_of_replicate _ (n := 1) rfl rfl v
  | toggleWirelessSsid => exact mem_bareValues_of_replicate _ (n := 1) rfl rfl v
  | toggleWirelessRadio _ enabled =>
    cases enabled <;> exact mem_bareValues_of_replicate _ (n := 1) rfl rfl v
  | toggleVpnInstance => exact mem_bareValues_of_replicate _ (n := 1) rfl rfl v
  | dhcpAddHost => exact mem_bareValues_of_replicate _ (n := 0) rfl rfl v
  | dhcpEditHost => exact mem_bareValues_of_replicate _ (n := 3) rfl rfl v
  | dhcpDeleteHost => exact mem_bareValues_of_replicate _ (n := 1) rfl rfl v
  | dhcpToggleHost _ enabled =>
    cases enabled <;> exact mem_bareValues_of_replicate _ (n := 1) rfl rfl v
  | dnsAddServer => exact mem_bareValues_of_replicate _ (n := 0) rfl rfl v
  | dnsRemoveServer => exact mem_bareValues_of_replicate _ (n := 0) rfl rfl v
  | dnsAddHost => exact mem_bareValues_of_replicate _ (n := 0) rfl rfl v
  | dnsRemoveHost => exact mem_bareValues_of_replicate _ (n := 0) rfl rfl v
  | netInterfaceRestart => exact mem_bareValues_of_replicate _ (n := 2) rfl rfl v
  | netInterfaceRenew => exact mem_bareValues_of_replicate _ (n := 2) rfl rfl v
  | netInterfaceRelease => exact mem_bareValues_of_replicate _ (n := 1) rfl rfl v
  | netInterfaceSetEnabled _ enabled =>
    cases enabled <;> exact mem_bareValues_of_replicate _ (n := 1) rfl rfl v
  | systemSetConfig config =>
    exact mem_bareValues_of_replicate (.systemSetConfig config) (n := 0) (bareValues_system config) rfl v
  | packageAction actionName name manager =>
    exact mem_bareValues_of_replicate (.packageAction actionName name manager) (n := 0)
      (bareValues_package actionName manager) rfl v
  | serviceAction actionName service =>
    exact mem_bareValues_of_replicate (.serviceAction actionName service) (n := 0)
      (bareValues_service actionName) rfl v

/-- The text that reaches the router is the wrapped template. -/
theorem render_wrapTemplate (values : Field → Text) (body : Script Field) :
    (wrapTemplate body).render values = wrapCommand (body.render values) := by
  delta wrapCommand exitSentinel
  simp [wrapTemplate, bare, -List.cons.injEq]

/-- The text an accepted operation hands to the transport is read by the shell as
the fixed commands of the operation, each value inside the word that holds it. -/
def ReadAsTemplate (op : WriteOperation) : Prop :=
  ∀ command, op.sent = some command →
    tokens (wrapCommand command) = some ((wrapTemplate op.template).tokens op.value)

theorem tokens_wrapCommand_iff {op : WriteOperation} {command : Text}
    (h : op.sent = some command) :
    tokens (wrapCommand command) = some ((wrapTemplate op.template).tokens op.value) ↔
      ∀ sectionId ∈ op.sectionId, sectionId.getLast? ≠ some '\n' := by
  obtain ⟨hplain, hrender⟩ := fills_of_sent h
  have hbare : ∀ v, v ∈ (wrapTemplate op.template).bareValues ↔
      v = .sectionId ∧ op.sectionId.isSome = true := by
    intro v
    rw [← mem_bareValues_iff, show (wrapTemplate op.template).bareValues =
      op.template.bareValues ++ [] from rfl, List.append_nil]
  have hvalue : ∀ sectionId ∈ op.sectionId, op.value .sectionId = sectionId := by
    intro sectionId hs
    show op.sectionId.getD [] = sectionId
    rw [hs, Option.getD_some]
  have hline : ∀ v ∈ (wrapTemplate op.template).bareValues, PlainLine (op.value v) := by
    intro v hv
    obtain ⟨rfl, hsome⟩ := (hbare v).mp hv
    obtain ⟨sectionId, hs⟩ := Option.isSome_iff_exists.mp hsome
    rw [hvalue sectionId hs]
    exact hplain sectionId hs
  rw [← hrender, ← render_wrapTemplate, Script.tokens_render_iff _ _ hline]
  constructor
  · intro hquiet sectionId hs
    rw [← hvalue sectionId hs]
    exact hquiet .sectionId ((hbare .sectionId).mpr ⟨rfl, Option.isSome_of_mem hs⟩)
  · intro hquiet v hv
    obtain ⟨rfl, hsome⟩ := (hbare v).mp hv
    obtain ⟨sectionId, hs⟩ := Option.isSome_iff_exists.mp hsome
    rw [hvalue sectionId hs]
    exact hquiet sectionId hs

/--
**An accepted operation is read as its template exactly when the section
identifier it interpolates, if there is one, does not end in a newline.**
-/
theorem readAsTemplate_iff (op : WriteOperation) :
    ReadAsTemplate op ↔
      (op.sent.isSome = true → ∀ sectionId ∈ op.sectionId, sectionId.getLast? ≠ some '\n') := by
  constructor
  · intro h hsome
    obtain ⟨command, hsent⟩ := Option.isSome_iff_exists.mp hsome
    exact (tokens_wrapCommand_iff hsent).mp (h command hsent)
  · intro h command hsent
    exact (tokens_wrapCommand_iff hsent).mpr (h (Option.isSome_of_mem hsent))

/-- An accepted identifier that ends the command it stands in: after
`uci set firewall.lan` the rest of the word is a command of its own. -/
theorem toggle_newline_not_readAsTemplate :
    ¬ReadAsTemplate (.toggleFirewallRule "lan\n" true) := by
  intro h
  have hsent : (WriteOperation.toggleFirewallRule "lan\n" true).sent =
      some (firewallToggleCommand "lan\n" true) := rfl
  exact (tokens_wrapCommand_iff hsent).mp (h _ hsent) "lan\n" rfl (by decide)

end OpenWrtCopilot.Ports.Management
