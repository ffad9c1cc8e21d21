import OpenWrtCopilot.Verified.PySplit
import OpenWrtCopilot.Verified.PyWords
import OpenWrtCopilot.Ports.ManagementFirewall
import OpenWrtCopilot.Ports.ManagementReads

/-!
# Package ids of `apk`

`apk` writes a package as its name, a hyphen and its version.  The service takes the
first part after a hyphen that begins with a digit for the begin of the version, and
fills the map of available versions with what it split.

## Main results

* `splitApkPkgid_append` — how the id of a package is split.
* `apk_split_iff` — when a name and its version are split rightly, and when the map
  of available versions holds right pairs only.
-/

namespace OpenWrtCopilot.Ports.Management

open Verified
open Verified.PyText
open Verified.PySplit
open Verified.PyDict

/-! ## The upgradable packages -/

/-- The pair one line of `apk list --upgradable` gives. -/
def apkUpgrade (line : Text) : Option (Text × Text) :=
  if line = [] ∨ startsWith "WARNING:" line = true ∨ startsWith "ERROR:" line = true then none
  else if contains "[upgradable" line = false then none
  else
    match words line with
    | [] => none
    | pkgid :: _ =>
        let (name, available) := splitApkPkgid pkgid
        if name ≠ [] ∧ available ≠ [] then some (name, available) else none

/-- `_parse_apk_upgradable`. -/
def parseApkUpgradable (text : Text) : Dict Text Text :=
  (((splitlines text).map strip).filterMap apkUpgrade).foldl
    (fun upgrades pair => PyDict.set pair.1 pair.2 upgrades) []

/-! ## Names and versions -/

/-- The part between hyphens begins with a digit. -/
def digitLed (part : Text) : Bool := part.head?.any isDigit

/-- Letters, digits and `+-._`. -/
structure ApkName (name : Text) : Prop where
  nonempty : name ≠ []
  chars : ∀ c ∈ name, c.isAlphanum = true ∨ c ∈ "+-._".toList

/-- A digit first, and a hyphen only before a final `r<N>`. -/
structure ApkVersion (version : Text) : Prop where
  digit : ∀ c ∈ version.head?, c.isDigit = true
  nonempty : version ≠ []
  release : ∃ base, '-' ∉ base ∧
    (version = base ∨ ∃ number, number ≠ [] ∧ (∀ c ∈ number, c.isDigit = true) ∧
      version = base ++ '-' :: 'r' :: number)
  noSpace : ∀ c ∈ version, isSpace c = false

/-- The parts of a name up to the first, after the first one, that begins with a
digit; and the parts from there. -/
def stem (name : Text) : Text :=
  match name.splitOn '-' with
  | [] => []
  | first :: rest => join "-" (first :: rest.takeWhile fun part => !digitLed part)

def leftover (name : Text) : List Text :=
  (name.splitOn '-').tail.dropWhile fun part => !digitLed part

/-- A part after the first begins with a digit. -/
def DigitLater (name : Text) : Prop := ∃ part ∈ (name.splitOn '-').tail, digitLed part = true

theorem leftover_ne_nil_iff {name : Text} : leftover name ≠ [] ↔ DigitLater name := by
  rw [leftover, Ne, List.dropWhile_eq_nil_iff, DigitLater]
  simp

/-! ## Splitting an id -/

theorem join_parts (t : Text) : join "-" (t.splitOn '-') = t := List.intercalate_splitOn '-'

theorem parts_join {parts : List Text} (h : ∀ part ∈ parts, '-' ∉ part) (hne : parts ≠ []) :
    (join "-" parts).splitOn '-' = parts :=
  List.splitOn_intercalate '-' h hne

theorem isDigit_of_asciiDigit {c : Char} (h : c.isDigit = true) : isDigit c = true := by
  rw [isDigit, digitValue_of_isDigit h]
  rfl

/-- Of the parts of a version the first begins with a digit, and no other. -/
theorem parts_version {version : Text} (h : ApkVersion version) :
    ∃ base rest, version.splitOn '-' = base :: rest ∧ digitLed base = true ∧
      ∀ part ∈ rest, digitLed part = false := by
  obtain ⟨base, hbase, hversion⟩ := h.release
  have hled : version.head? = base.head? → digitLed base = true := by
    intro hhead
    obtain ⟨c, rest, hcons⟩ := List.exists_cons_of_ne_nil h.nonempty
    have hc : version.head? = some c := by rw [hcons]; rfl
    rw [digitLed, ← hhead, hc]
    exact isDigit_of_asciiDigit (h.digit c hc)
  rcases hversion with rfl | ⟨number, _, hnumber, rfl⟩
  · exact ⟨version, [], parts_of_notMem hbase, hled rfl, nofun⟩
  · have hbaseNe : base ≠ [] := by
      rintro rfl
      exact absurd (h.digit '-' rfl) (by decide)
    have hrelease : '-' ∉ 'r' :: number := by
      rw [List.mem_cons, not_or]
      exact ⟨by decide, fun hmem => absurd (hnumber _ hmem) (by decide)⟩
    refine ⟨base, ['r' :: number], ?_, hled (List.head?_append_of_ne_nil _ hbaseNe), ?_⟩
    · rw [parts_append, parts_of_notMem hbase, parts_of_notMem hrelease]
      rfl
    · intro part hpart
      rw [List.mem_singleton.mp hpart]
      rfl

/-- Where the second list begins with an element that is not taken. -/
theorem takeWhile_append_stop {α : Type} {p : α → Bool} {x : α} (hx : p x = false)
    (first rest : List α) :
    (first ++ x :: rest).takeWhile p = first.takeWhile p ∧
      (first ++ x :: rest).dropWhile p = first.dropWhile p ++ x :: rest := by
  induction first with
  | nil => simp [hx]
  | cons y first ih =>
    cases hy : p y with
    | true => simp [hy, ih]
    | false => simp [hy]

/-- **The id of a package is split at the first part of its name that begins with a
digit, after the first one.** -/
theorem splitApkPkgid_append {name version : Text} (h : ApkVersion version) :
    splitApkPkgid (name ++ '-' :: version) =
      (stem name, join "-" (leftover name ++ version.splitOn '-')) := by
  obtain ⟨base, rest, hversion, hbase, _⟩ := parts_version h
  obtain ⟨first, others, hname⟩ : ∃ first others, name.splitOn '-' = first :: others :=
    List.exists_cons_of_ne_nil (List.splitOnP_ne_nil _ name)
  obtain ⟨htake, hdrop⟩ := takeWhile_append_stop (p := fun part => !digitLed part)
    (by rw [hbase]; rfl) others rest
  have hparts : (name ++ '-' :: version).splitOn '-' = first :: (others ++ base :: rest) := by
    rw [parts_append, hname, hversion, List.cons_append]
  have hsome : others.dropWhile (fun part => !digitLed part) ++ base :: rest ≠ [] := by simp
  rw [splitApkPkgid, hparts, stem, leftover, hname, hversion]
  show (if (others ++ base :: rest).dropWhile (fun part => !digitLed part) = [] then _
    else (join "-" (first :: (others ++ base :: rest).takeWhile fun part => !digitLed part),
      join "-" ((others ++ base :: rest).dropWhile fun part => !digitLed part))) = _
  rw [hdrop, htake, if_neg hsome]
  rfl

/-- A name without such a part is its own stem, and no other. -/
theorem stem_eq_iff {name : Text} : stem name = name ↔ ¬DigitLater name := by
  obtain ⟨first, others, hname⟩ : ∃ first others, name.splitOn '-' = first :: others :=
    List.exists_cons_of_ne_nil (List.splitOnP_ne_nil _ name)
  have hstem : stem name = join "-" (first :: others.takeWhile fun part => !digitLed part) := by
    rw [stem, hname]
  have htail : (name.splitOn '-').tail = others := by
    rw [hname]
    rfl
  rw [← leftover_ne_nil_iff, not_not, leftover, htail, hstem]
  constructor
  · intro heq
    have hparts : first :: others.takeWhile (fun part => !digitLed part) = first :: others := by
      rw [← hname, ← heq]
      refine (parts_join (fun part hpart => ?_) (List.cons_ne_nil _ _)).symm
      refine notMem_of_mem_parts (t := name) ?_
      rw [hname]
      exact List.cons_subset_cons first (List.takeWhile_prefix _).subset hpart
    have hall := (List.cons.inj hparts).2
    have hsplit := List.takeWhile_append_dropWhile (p := fun part => !digitLed part) (l := others)
    rw [hall] at hsplit
    exact List.append_right_eq_self.mp hsplit
  · intro hnone
    have hsplit := List.takeWhile_append_dropWhile (p := fun part => !digitLed part) (l := others)
    rw [hnone, List.append_nil] at hsplit
    rw [hsplit, ← hname, join_parts]

theorem split_iff {name version : Text} (h : ApkVersion version) :
    splitApkPkgid (name ++ '-' :: version) = (name, version) ↔ ¬DigitLater name := by
  rw [splitApkPkgid_append h, Prod.mk.injEq, stem_eq_iff, and_iff_left_iff_imp]
  intro hlater
  have hnone : leftover name = [] := by
    by_contra hsome
    exact hlater (leftover_ne_nil_iff.mp hsome)
  rw [hnone, List.nil_append, join_parts]

/-! ## A listing -/

/-- A package that can be upgraded, with what its line says after the id. -/
structure Upgrade where
  name : Text
  version : Text
  rest : Text
  validName : ApkName name
  validVersion : ApkVersion version

/-- The line `apk list --upgradable` writes for it. -/
def Upgrade.line (p : Upgrade) : Text := p.name ++ '-' :: (p.version ++ ' ' :: p.rest)

/-- The version that is filed for the package. -/
def Upgrade.available (p : Upgrade) : Text :=
  join "-" (leftover p.name ++ p.version.splitOn '-')

/-- A stripped line that tells an upgrade: neither blank nor a diagnostic, and marked. -/
def upgradeLine (line : Text) : Bool :=
  ¬(line = [] ∨ startsWith "WARNING:" line = true ∨ startsWith "ERROR:" line = true) ∧
    contains "[upgradable" line = true

/-- The lines of the text that tell an upgrade are those of the packages. -/
def Lists (listing : List Upgrade) (text : Text) : Prop :=
  ((splitlines text).map strip).filter upgradeLine = listing.map fun p => strip p.line

/-- Every version in the map is one that is available for its name. -/
def UpgradesRight (listing : List Upgrade) (upgrades : Dict Text Text) : Prop :=
  ∀ name available, PyDict.get? name upgrades = some available →
    ∃ p ∈ listing, p.name = name ∧ p.version = available

theorem isSpace_of_isAlphanum {c : Char} (h : c.isAlphanum = true) : isSpace c = false := by
  simp only [Char.isAlphanum, Char.isAlpha, Char.isUpper, Char.isLower, Char.isDigit,
    Bool.or_eq_true, decide_eq_true_eq, UInt32.le_iff_toNat_le, Bool.and_eq_true] at h
  have hval : c.val.toNat = c.toNat := rfl
  simp only [isSpace, decide_eq_false_iff_not, List.mem_cons, List.not_mem_nil, or_false]
  rcases h with (⟨hlo, hhi⟩ | ⟨hlo, hhi⟩) | ⟨hlo, hhi⟩
  · have hlower : 65 ≤ c.toNat := hlo
    have hupper : c.toNat ≤ 90 := hhi
    omega
  · have hlower : 97 ≤ c.toNat := hlo
    have hupper : c.toNat ≤ 122 := hhi
    omega
  · have hlower : 48 ≤ c.toNat := hlo
    have hupper : c.toNat ≤ 57 := hhi
    omega

theorem ApkName.word {name : Text} (h : ApkName name) : Word name := by
  refine ⟨h.nonempty, fun c hc => ?_⟩
  obtain halnum | hmark := h.chars c hc
  · exact isSpace_of_isAlphanum halnum
  · have hmarks : ∀ d ∈ "+-._".toList, isSpace d = false := by decide
    exact hmarks c hmark

theorem Upgrade.word (p : Upgrade) : Word (p.name ++ '-' :: p.version) := by
  refine ⟨List.append_ne_nil_of_left_ne_nil p.validName.nonempty _, fun c hc => ?_⟩
  rw [List.mem_append, List.mem_cons] at hc
  obtain hname | rfl | hversion := hc
  · exact p.validName.word.2 c hname
  · rfl
  · exact p.validVersion.noSpace c hversion

theorem Upgrade.words_line (p : Upgrade) :
    words (strip p.line) = (p.name ++ '-' :: p.version) :: words p.rest := by
  have hline : p.line = (p.name ++ '-' :: p.version) ++ ' ' :: p.rest := by simp [Upgrade.line]
  rw [words_strip, hline, words_append_space p.word]

theorem Upgrade.parts_available (p : Upgrade) :
    p.available.splitOn '-' = leftover p.name ++ p.version.splitOn '-' := by
  refine parts_join (fun part hpart => ?_) ?_
  · obtain hname | hversion := List.mem_append.mp hpart
    · exact notMem_of_mem_parts
        (List.mem_of_mem_tail ((List.dropWhile_suffix _).subset hname))
    · exact notMem_of_mem_parts hversion
  · exact List.append_ne_nil_of_right_ne_nil _ (List.splitOnP_ne_nil _ _)

theorem Upgrade.available_ne_nil (p : Upgrade) : p.available ≠ [] := by
  obtain ⟨base, rest, hparts, hbase, _⟩ := parts_version p.validVersion
  intro hnil
  have hempty := p.parts_available
  rw [hnil, hparts] at hempty
  have hmem : base ∈ ([[]] : List Text) := by
    have : ([] : Text).splitOn '-' = [[]] := rfl
    rw [← this, hempty]
    simp
  rw [List.mem_singleton.mp hmem] at hbase
  cases hbase

/-- A version with a part of the name before it is no version. -/
theorem Upgrade.not_digitLater_of_available {p : Upgrade} (h : ApkVersion p.available) :
    ¬DigitLater p.name := by
  rw [← leftover_ne_nil_iff, not_not]
  obtain ⟨base, rest, hparts, hbase, _⟩ := parts_version p.validVersion
  obtain ⟨first, others, havailable, _, hothers⟩ := parts_version h
  rw [p.parts_available, hparts] at havailable
  cases hleft : leftover p.name with
  | nil => rfl
  | cons part left =>
    rw [hleft, List.cons_append] at havailable
    have hmem : base ∈ others := by
      rw [← (List.cons.inj havailable).2]
      simp
    rw [hothers base hmem] at hbase
    cases hbase

theorem Upgrade.available_eq {p : Upgrade} (h : ¬DigitLater p.name) :
    p.available = p.version := by
  have hnone : leftover p.name = [] := by
    by_contra hsome
    exact h (leftover_ne_nil_iff.mp hsome)
  rw [Upgrade.available, hnone, List.nil_append, join_parts]

/-! ## The map of available versions -/

/-- What the line of a package gives. -/
theorem apkUpgrade_line {p : Upgrade} (h : upgradeLine (strip p.line) = true) :
    apkUpgrade (strip p.line) =
      if stem p.name ≠ [] then some (stem p.name, p.available) else none := by
  obtain ⟨hkept, hmarked⟩ := of_decide_eq_true h
  rw [apkUpgrade, if_neg hkept, if_neg (by rw [hmarked]; decide),
    p.words_line]
  show (let (name, available) := splitApkPkgid (p.name ++ '-' :: p.version)
    if name ≠ [] ∧ available ≠ [] then some (name, available) else none) = _
  rw [splitApkPkgid_append p.validVersion]
  exact if_congr (and_iff_left p.available_ne_nil) rfl rfl

theorem apkUpgrade_of_not {line : Text} (h : upgradeLine line = false) :
    apkUpgrade line = none := by
  rw [apkUpgrade]
  split_ifs with hskip hmarked
  · rfl
  · rfl
  · exact absurd ⟨hskip, Bool.not_eq_false _ ▸ hmarked⟩ (of_decide_eq_false h)

/-- The packages that are filed, under the begins of their names. -/
theorem filterMap_apkUpgrade {listing : List Upgrade} {text : Text} (h : Lists listing text) :
    ((splitlines text).map strip).filterMap apkUpgrade =
      (listing.filter fun p => stem p.name ≠ []).map fun p => (stem p.name, p.available) := by
  have hfiltered : ((splitlines text).map strip).filterMap apkUpgrade =
      (((splitlines text).map strip).filter upgradeLine).filterMap apkUpgrade := by
    rw [List.filterMap_filter]
    refine List.filterMap_congr fun line _ => ?_
    cases hline : upgradeLine line with
    | true => rfl
    | false => exact apkUpgrade_of_not hline
  have hlines : ∀ p ∈ listing, upgradeLine (strip p.line) = true := by
    intro p hp
    have hmem : strip p.line ∈ ((splitlines text).map strip).filter upgradeLine := by
      rw [h]
      exact List.mem_map_of_mem hp
    exact (List.mem_filter.mp hmem).2
  rw [hfiltered, h, List.filterMap_map, ← List.filterMap_eq_map, List.filterMap_filter]
  refine List.filterMap_congr fun p hp => ?_
  rw [Function.comp_apply, apkUpgrade_line (hlines p hp)]
  by_cases hstem : stem p.name = []
  · simp [hstem]
  · simp [hstem]

/-- A name gets the version of the last package filed under it. -/
theorem get?_parseApkUpgradable {listing : List Upgrade} {text : Text} (h : Lists listing text)
    (name : Text) :
    PyDict.get? name (parseApkUpgradable text) =
      (listing.filter fun p => stem p.name = name ∧ stem p.name ≠ []).getLast?.map
        Upgrade.available := by
  rw [parseApkUpgradable, filterMap_apkUpgrade h, List.foldl_map,
    PyDict.get?_foldl_set_last (fun p : Upgrade => stem p.name) Upgrade.available,
    List.filter_filter]
  simp only [PyDict.get?_nil, Option.or_none, Bool.decide_and]

theorem getLast?_filter_eq_some_iff {α : Type} {p : α → Bool} {l : List α} {x : α} :
    (l.filter p).getLast? = some x ↔
      ∃ pre post, l = pre ++ x :: post ∧ p x = true ∧ ∀ y ∈ post, p y = false := by
  rw [List.getLast?_eq_some_iff]
  constructor
  · rintro ⟨before, hfilter⟩
    obtain ⟨l₁, l₂, rfl, _, hlast⟩ := List.filter_eq_append_iff.mp hfilter
    obtain ⟨l₃, post, rfl, _, hx, hpost⟩ := List.filter_eq_cons_iff.mp hlast
    refine ⟨l₁ ++ l₃, post, by simp, hx, fun y hy => ?_⟩
    simpa using List.filter_eq_nil_iff.mp hpost y hy
  · rintro ⟨pre, post, rfl, hx, hpost⟩
    refine ⟨pre.filter p, ?_⟩
    have hnone : post.filter p = [] := List.filter_eq_nil_iff.mpr fun y hy => by simp [hpost y hy]
    rw [List.filter_append, List.filter_cons_of_pos hx, hnone]

/-- The map is right when the last package filed under a name is. -/
theorem upgradesRight_iff_last {listing : List Upgrade} {text : Text} (h : Lists listing text) :
    UpgradesRight listing (parseApkUpgradable text) ↔
      ∀ name p, (listing.filter fun p => stem p.name = name ∧ stem p.name ≠ []).getLast? =
        some p → ¬DigitLater p.name := by
  constructor
  · intro hright name p hlast
    have hget := get?_parseApkUpgradable h name
    rw [hlast] at hget
    obtain ⟨q, _, _, hversion⟩ := hright name p.available hget
    exact p.not_digitLater_of_available (hversion ▸ q.validVersion)
  · intro hlast name available hget
    rw [get?_parseApkUpgradable h, Option.map_eq_some_iff] at hget
    obtain ⟨p, hp, rfl⟩ := hget
    have hplain := hlast name p hp
    obtain ⟨hmem, hkeyed⟩ := List.mem_filter.mp (List.mem_of_getLast? hp)
    refine ⟨p, hmem, ?_, (Upgrade.available_eq hplain).symm⟩
    rw [← (of_decide_eq_true hkeyed).1, stem_eq_iff.mpr hplain]

/-- The map is right when every package with a later part that begins with a digit is
followed by one that is filed under the same name. -/
theorem upgradesRight_iff {listing : List Upgrade} {text : Text} (h : Lists listing text) :
    UpgradesRight listing (parseApkUpgradable text) ↔
      ∀ pre p post, listing = pre ++ p :: post → DigitLater p.name →
        stem p.name = [] ∨ ∃ q ∈ post, stem q.name = stem p.name := by
  rw [upgradesRight_iff_last h]
  constructor
  · intro hlast pre p post hlisting hlater
    by_contra hneither
    obtain ⟨hstem, hnone⟩ := not_or.mp hneither
    refine hlast (stem p.name) p (getLast?_filter_eq_some_iff.mpr ?_) hlater
    refine ⟨pre, post, hlisting, decide_eq_true ⟨rfl, hstem⟩, fun q hq => ?_⟩
    exact decide_eq_false fun hkeyed => hnone ⟨q, hq, hkeyed.1⟩
  · intro hfollowed name p hlast hlater
    obtain ⟨pre, post, hlisting, hkeyed, hpost⟩ := getLast?_filter_eq_some_iff.mp hlast
    obtain ⟨hname, hstem⟩ := of_decide_eq_true hkeyed
    obtain hempty | ⟨q, hq, hsame⟩ := hfollowed pre p post hlisting hlater
    · exact hstem hempty
    · refine of_decide_eq_false (hpost q hq) ⟨hsame.trans hname, ?_⟩
      rw [hsame]
      exact hstem

/-- **A package id is split rightly when no part of the name after the first begins
with a digit; the map of available versions is right when every other package is
followed by one that is filed under the same begin of its name.** -/
theorem apk_split_iff {listing : List Upgrade} {text : Text} (h : Lists listing text) :
    (∀ name version, ApkName name → ApkVersion version →
      (splitApkPkgid (name ++ '-' :: version) = (name, version) ↔ ¬DigitLater name)) ∧
    (UpgradesRight listing (parseApkUpgradable text) ↔
      ∀ pre p post, listing = pre ++ p :: post → DigitLater p.name →
        stem p.name = [] ∨ ∃ q ∈ post, stem q.name = stem p.name) :=
  ⟨fun _ _ _ hversion => split_iff hversion, upgradesRight_iff h⟩

section Examples

/-- A version with an `r<N>` suffix. -/
theorem apkVersion_release (base number : Text) (hbase : '-' ∉ base)
    (hdigit : ∀ c ∈ base.head?, c.isDigit = true) (hspace : ∀ c ∈ base, isSpace c = false)
    (hnumber : number ≠ [] ∧ ∀ c ∈ number, c.isDigit = true) (hne : base ≠ []) :
    ApkVersion (base ++ '-' :: 'r' :: number) where
  digit := by
    rw [List.head?_append_of_ne_nil _ hne]
    exact hdigit
  nonempty := List.append_ne_nil_of_left_ne_nil hne _
  release := ⟨base, hbase, .inr ⟨number, hnumber.1, hnumber.2, rfl⟩⟩
  noSpace := by
    intro c hc
    simp only [List.mem_append, List.mem_cons] at hc
    obtain hc | rfl | rfl | hc := hc
    · exact hspace c hc
    · rfl
    · rfl
    · exact isSpace_of_isAlphanum (by simp [Char.isAlphanum, hnumber.2 c hc])

/-- A package whose name has no digit. -/
def dnsmasq : Upgrade where
  name := "dnsmasq".toList
  version := "2.90-r4".toList
  rest := "x86_64 {dnsmasq} (GPL-2.0) [upgradable from: dnsmasq-2.90-r3]".toList
  validName := ⟨by decide, by decide⟩
  validVersion :=
    apkVersion_release "2.90" "4" (by decide) (by decide) (by decide) (by decide) (by decide)

/-- A package whose name has a later part that begins with a digit. -/
def luciProto : Upgrade where
  name := "luci-proto-3g".toList
  version := "25.1-r2".toList
  rest := "noarch {luci} (Apache-2.0) [upgradable from: luci-proto-3g-25.1-r1]".toList
  validName := ⟨by decide, by decide⟩
  validVersion :=
    apkVersion_release "25.1" "2" (by decide) (by decide) (by decide) (by decide) (by decide)

theorem dnsmasq_right :
    ApkVersion "2.90-r4".toList ∧
    splitApkPkgid "dnsmasq-2.90-r4".toList = ("dnsmasq".toList, "2.90-r4".toList) ∧
    UpgradesRight [dnsmasq]
      (parseApkUpgradable ("WARNING: opening from cache\n".toList ++ dnsmasq.line)) := by
  have hlists :
      Lists [dnsmasq] ("WARNING: opening from cache\n".toList ++ dnsmasq.line) := by
    unfold Lists
    decide +kernel
  have hplain : ¬DigitLater dnsmasq.name := by
    rw [DigitLater]
    decide +kernel
  obtain ⟨hsplit, hmap⟩ := apk_split_iff hlists
  refine ⟨dnsmasq.validVersion,
    (hsplit _ _ dnsmasq.validName dnsmasq.validVersion).mpr hplain, hmap.mpr ?_⟩
  intro pre p post hlisting hlater
  have hp : p ∈ [dnsmasq] := hlisting ▸ by simp
  rw [List.mem_singleton.mp hp] at hlater
  exact absurd hlater hplain

/-- **The id of `luci-proto-3g` is split before the `3g`, and its version is filed
under `luci-proto`.** -/
theorem luciProto_not_split :
    Lists [luciProto] luciProto.line ∧
    splitApkPkgid "luci-proto-3g-25.1-r2".toList =
      ("luci-proto".toList, "3g-25.1-r2".toList) ∧
    parseApkUpgradable luciProto.line =
      [("luci-proto".toList, "3g-25.1-r2".toList)] ∧
    (¬∀ name version, ApkName name → ApkVersion version →
      splitApkPkgid (name ++ '-' :: version) = (name, version)) ∧
    ¬∀ listing text, Lists listing text → UpgradesRight listing (parseApkUpgradable text) := by
  have hlists : Lists [luciProto] luciProto.line := by
    unfold Lists
    decide
  have hmap : parseApkUpgradable luciProto.line =
      [("luci-proto".toList, "3g-25.1-r2".toList)] := by rfl
  refine ⟨hlists, by decide, hmap, fun hsplit => ?_, fun hright => ?_⟩
  · exact absurd (hsplit _ _ luciProto.validName luciProto.validVersion) (by decide +kernel)
  · obtain ⟨p, hp, hname, _⟩ := hright [luciProto] luciProto.line hlists
      "luci-proto".toList "3g-25.1-r2".toList (by rw [hmap]; decide +kernel)
    rw [List.mem_singleton.mp hp] at hname
    exact absurd hname (by decide)

end Examples

end OpenWrtCopilot.Ports.Management
