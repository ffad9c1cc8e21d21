import OpenWrtCopilot.Ports.DhcpPackages

/-!
# Which packages the DHCP collector decodes

The collector takes a section for one of a type if it has the type, or if its name begins like
that of an anonymous section of the type: `@hostrecord[0]` counts as a `host`.  Sections of which
no option is read make neither a lease nor a pool.

## Main results

* `isType_key` — which sections are taken for one of a type.
* `decoded_iff` — which packages are decoded.
* `list_option_dropped` — a list of two resolvers that is not read.
-/

namespace OpenWrtCopilot.Ports.DhcpDecoding

open Verified
open Verified.PyText
open Verified.PyDict
open Verified.UciReading (WordClass collect collect_isOk_iff collect_eq_filterMap)
open Ports.DhcpCollector
open Ports.DhcpPackages

/-! ## What a package declares -/

/-- The first value of an option. -/
def first (s : ListSection) (name : Text) : Option Text := (s.values name).bind List.head?

def sectionsOf (p : ListPackage) (type : Text) : List ListSection :=
  p.sections.filter fun s => s.type = type

/-- The static lease of a section. -/
def leaseOf (s : ListSection) : DhcpStaticLease where
  name := s.key
  hostname := first s "name".toList
  ip := first s "ip".toList
  mac := first s "mac".toList
  enabled := (first s "enabled".toList).getD "1".toList ≠ "0".toList

/-- The pool has the name, the interface and the lease time of the section. -/
structure PoolOf (s : ListSection) (pool : DhcpPool) : Prop where
  name : pool.name = ((first s "name".toList).filter (· ≠ [])).getD s.key
  interface : pool.interface = first s "interface".toList
  leasetime : pool.leasetime = first s "leasetime".toList

/-- The values of the `dhcp_option` lists of sections. -/
def listed (sections : List ListSection) : List Text :=
  sections.flatMap fun s => (s.values "dhcp_option".toList).getD []

/-- The values of the `dhcp_option` lists, which are valid in sections of two types. -/
def given (p : ListPackage) : List Text :=
  listed (p.sections.filter fun s => s.type = "dnsmasq".toList ∨ s.type = "dhcp".toList)

/-- The sections and all values of their options are recovered, and nothing else. -/
structure Recovers (p : ListPackage) (sections : Sections) : Prop where
  types : sections.2 = typesOf p.sections
  values : ∀ s ∈ p.sections, ∀ o ∈ s.options,
    (get? s.key sections.1).bind (get? o.name) = some o.values
  declared : ∀ item ∈ sections.1, ∃ s ∈ p.sections,
    item.1 = s.key ∧ keys item.2 = s.options.map ListOption.name

/-- A package is decoded: its sections are recovered, each section of type `host` gives one static
lease, each section of type `dhcp` one pool, and the gateway and the resolvers are those that are
given. -/
structure Decoded (w : WordClass) (A : Addresses) (ifaceNet : Dict Text (Text × Int))
    (p : ListPackage) : Prop where
  recovers : Recovers p (uciSections w (showText p))
  leases : (parseDnsmasq (uciSections w (showText p))).staticLeases =
    (sectionsOf p "host".toList).map leaseOf
  pools : ∃ enabled entries,
    poolEntries A (uciSections w (showText p)) ifaceNet = .ok entries ∧
      parsePools A (uciSections w (showText p)) ifaceNet =
        .ok (enabled, entries.map Prod.snd) ∧
      List.Forall₂ (fun s entry => entry.1 = s.key ∧ PoolOf s entry.2)
        (sectionsOf p "dhcp".toList) entries
  gateway : (parseDnsmasq (uciSections w (showText p))).gateway = (given p).findSome? gatewayOf
  dns : ∀ server, server ∈ (parseDnsmasq (uciSections w (showText p))).dns ↔
    ∃ value ∈ given p, server ∈ serversOf value

/-! ## Types -/

/-- The name of the section begins like that of an anonymous section of the type. -/
def looks (s : ListSection) (pre : Text) : Bool :=
  match s.ref with
  | .named _ => false
  | .anonymous _ => startsWith pre s.type

/-- The section counts as one of the type. -/
def countsAs (s : ListSection) (pre : Text) : Bool := looks s pre || s.type = pre

theorem prefix_of_countsAs {s : ListSection} {pre : Text} (h : countsAs s pre = true) :
    pre <+: s.type := by
  obtain hlooks | htype := Bool.or_eq_true_iff.mp h
  · rw [looks] at hlooks
    split at hlooks
    · cases hlooks
    · exact List.isPrefixOf_iff_prefix.mp hlooks
  · have hsame : s.type = pre := of_decide_eq_true htype
    exact hsame ▸ List.prefix_refl s.type

/-- No section counts as one of two types of which neither begins like the other. -/
theorem countsAs_apart {s : ListSection} {pre pre' : Text} (h : countsAs s pre = true)
    (hapart : ¬ pre <+: pre' ∧ ¬ pre' <+: pre) : countsAs s pre' = false := by
  refine Bool.eq_false_iff.mpr fun h' => ?_
  obtain hle | hle := List.prefix_or_prefix_of_prefix (prefix_of_countsAs h) (prefix_of_countsAs h')
  · exact hapart.1 hle
  · exact hapart.2 hle

theorem startsWith_key (s : ListSection) {pre : Text} (hpre : '[' ∉ pre) :
    startsWith ('@' :: pre) s.key = looks s pre := by
  have hkey : s.key = (match s.ref with
      | .named name => name
      | .anonymous index => '@' :: (s.type ++ '[' :: (natText index ++ [']']))) := rfl
  rw [hkey, looks]
  cases href : s.ref with
  | named name =>
    have hvalid := s.validRef
    rw [href] at hvalid
    refine Bool.eq_false_iff.mpr fun hstarts => ?_
    obtain ⟨rest, rfl⟩ := List.isPrefixOf_iff_prefix.mp hstarts
    exact absurd (hvalid.2 '@' List.mem_cons_self) (by decide)
  | anonymous index =>
    dsimp only
    rw [Bool.eq_iff_iff, startsWith, startsWith, List.isPrefixOf_iff_prefix,
      List.isPrefixOf_iff_prefix, List.cons_prefix_cons, and_iff_right rfl]
    constructor
    · intro h
      obtain hle | hle := List.prefix_or_prefix_of_prefix h
        (List.prefix_append s.type ('[' :: (natText index ++ [']'])))
      · exact hle
      · -- a longer one would hold the bracket
        obtain ⟨rest, rfl⟩ := hle
        cases rest with
        | nil =>
          simp only [List.append_nil, List.prefix_refl]
        | cons c rest =>
          have hrest := (List.prefix_append_right_inj s.type).mp h
          obtain ⟨rfl, -⟩ := List.cons_prefix_cons.mp hrest
          exact absurd (List.mem_append_right s.type List.mem_cons_self) hpre
    · exact fun h => h.trans (List.prefix_append _ _)

theorem get?_typesOf {p : ListPackage} {s : ListSection} (hs : s ∈ p.sections) :
    get? s.key (typesOf p.sections) = some s.type := by
  refine (get?_eq_some_iff ?_).mpr (List.mem_map.mpr ⟨s, hs, rfl⟩)
  rw [keys, typesOf, List.map_map]
  exact p.nodup

/-- Which sections are taken for one of a type. -/
theorem isType_key {p : ListPackage} {s : ListSection} (hs : s ∈ p.sections) {pre : Text}
    (hpre : '[' ∉ pre) : isType s.key pre (typesOf p.sections) pre = countsAs s pre := by
  rw [isType, startsWith_key s hpre, get?_typesOf hs, countsAs]
  congr 1
  exact decide_eq_decide.mpr Option.some_inj

/-! ## Packages of single values -/

/-- Each option has one value, which is a single line. -/
def OneLine (p : ListPackage) : Prop :=
  ∀ s ∈ p.sections, ∀ o ∈ s.options, ∃ v, o.values = [v] ∧ SingleLine v

theorem OneLine.single {p : ListPackage} (h : OneLine p) : Single p := by
  intro s hs o ho v hv
  obtain ⟨w, hvalues, hw⟩ := h s hs o ho
  rw [hvalues, List.mem_singleton] at hv
  exact hv ▸ hw

/-- If the values are recovered there is one of each option, and a single line. -/
theorem oneLine_of_recovers {w : WordClass} {p : ListPackage}
    (h : Recovers p (uciSections w (showText p))) : OneLine p := by
  have hsingle : Single p := by
    intro s hs o ho v hv
    obtain ⟨opts, hopts, hvalues⟩ := Option.bind_eq_some_iff.mp (h.values s hs o ho)
    exact recorded_uciSections w _ s.key opts hopts o.name o.values hvalues v hv
  intro s hs o ho
  obtain ⟨opts, hopts, hvalues⟩ := Option.bind_eq_some_iff.mp (h.values s hs o ho)
  rw [uciSections_showText w hsingle] at hopts
  obtain ⟨t, -, htopts⟩ := List.mem_map.mp (mem_of_get? hopts)
  obtain ⟨-, rfl⟩ := Prod.mk.inj htopts
  obtain ⟨other, -, halone⟩ := List.mem_filterMap.mp (mem_of_get? hvalues)
  rw [alone] at halone
  split at halone
  · obtain ⟨-, hv⟩ := Prod.mk.inj (Option.some.inj halone)
    rename_i v _
    exact ⟨v, hv.symm, hsingle s hs o ho v (hv ▸ List.mem_singleton.mpr rfl)⟩
  · cases halone

section OneLine

variable {p : ListPackage} (h : OneLine p) {s : ListSection} (hs : s ∈ p.sections)

include h hs in
theorem readOpts_eq : readOpts s = s.options.map fun o => (o.name, o.values) := by
  rw [readOpts, ← List.filterMap_eq_map']
  refine List.filterMap_congr fun o ho => ?_
  obtain ⟨v, hvalues, -⟩ := h s hs o ho
  rw [alone, hvalues]

include h hs in
theorem readOpts_eq_nil_iff : readOpts s = [] ↔ s.options = [] := by
  rw [readOpts_eq h hs, List.map_eq_nil_iff]

include h hs in
theorem get?_readOpts (name : Text) : get? name (readOpts s) = s.values name := by
  have hfind : ∀ options : List ListOption,
      get? name (options.map fun o => (o.name, o.values)) =
        (options.find? fun o => o.name = name).map ListOption.values := by
    intro options
    induction options with
    | nil => rfl
    | cons o options ih =>
      rw [List.map_cons, get?, ih]
      by_cases ho : o.name = name
      · rw [if_pos ho, List.find?_cons_of_pos (by simpa using ho)]
        rfl
      · rw [if_neg ho, List.find?_cons_of_neg (by simpa using ho)]
  rw [readOpts_eq h hs, hfind]
  rfl

include h hs in
theorem optFirst_readOpts (name : Text) (default : Option Text) :
    optFirst (readOpts s) name default = (first s name).or default := by
  rw [optFirst, get?_readOpts h hs, first]
  cases hvalues : s.values name with
  | none => rfl
  | some values =>
    obtain ⟨o, ho, rfl⟩ := Option.map_eq_some_iff.mp hvalues
    obtain ⟨v, hv, -⟩ := h s hs o (List.mem_of_find?_eq_some ho)
    rw [hv]
    rfl

include h hs in
theorem staticLease_readOpts : staticLease s.key (readOpts s) = leaseOf s := by
  have henabled : optFirst (readOpts s) "enabled".toList (some "1".toList) =
      some ((first s "enabled".toList).getD "1".toList) := by
    rw [optFirst_readOpts h hs]
    cases first s "enabled".toList <;> rfl
  rw [staticLease, leaseOf, henabled]
  simp only [optFirst_readOpts h hs, Option.or_none, ne_eq, Option.some_inj]

end OneLine

/-! ### Leases and pools -/

/-- The sections with options that count as of a type. -/
def counted (sections : List ListSection) (pre : Text) : List ListSection :=
  sections.filter fun s => s.options ≠ [] ∧ countsAs s pre = true

/-- The first address of the pool of the section has 128 bits, if it is found. -/
def InRange (A : Addresses) (ifaceNet : Dict Text (Text × Int)) (s : ListSection) : Prop :=
  ∀ start, first s "start".toList = some start → start ≠ [] →
    ∀ n, startInt A start (netOf ifaceNet (first s "interface".toList)) = some n →
      0 ≤ n ∧ n < 2 ^ 128

/-- Sections are told apart by their keys. -/
theorem iff_of_map_key {p : ListPackage} {P Q : ListSection → Bool}
    (h : (p.sections.filter P).map ListSection.key = (p.sections.filter Q).map ListSection.key)
    {s : ListSection} (hs : s ∈ p.sections) : P s = true ↔ Q s = true := by
  have hmem (R : ListSection → Bool) :
      R s = true ↔ s.key ∈ (p.sections.filter R).map ListSection.key := by
    rw [List.mem_map]
    constructor
    · exact fun hR => ⟨s, List.mem_filter.mpr ⟨hs, hR⟩, rfl⟩
    · rintro ⟨t, ht, hkey⟩
      obtain ⟨ht, hR⟩ := List.mem_filter.mp ht
      exact List.inj_on_of_nodup_map p.nodup ht hs hkey ▸ hR
  rw [hmem P, hmem Q, h]

section Read

variable {p : ListPackage} (h : OneLine p)

include h in
theorem filter_readItems (q : Text → Bool) {q' : ListSection → Bool}
    (hq : ∀ s ∈ p.sections, q s.key = q' s) :
    (readItems p.sections).filter (fun item => q item.1) =
      (p.sections.filter fun s => s.options ≠ [] ∧ q' s = true).map
        fun s => (s.key, readOpts s) := by
  rw [readItems, List.filter_map, List.filter_filter]
  congr 1
  refine List.filter_congr fun s hs => ?_
  have hopts := readOpts_eq_nil_iff h hs
  show (q s.key && decide (readOpts s ≠ [])) = _
  rw [hq s hs]
  by_cases hnil : s.options = []
  · simp [hnil, hopts.mpr hnil]
  · simp [hnil, hopts.not.mpr hnil]

include h in
theorem staticLeases_eq :
    (parseDnsmasq (readItems p.sections, typesOf p.sections)).staticLeases =
      (counted p.sections "host".toList).map leaseOf := by
  obtain ⟨-, -, hleases⟩ := parseDnsmasq_eq (readItems p.sections, typesOf p.sections)
  have hfilter : _ = (counted p.sections "host".toList).map fun s => (s.key, readOpts s) :=
    filter_readItems h (isType · "host".toList (typesOf p.sections) "host".toList)
      fun s hs => isType_key hs (by decide)
  refine hleases.trans ((congrArg (List.map _) hfilter).trans ?_)
  rw [List.map_map]
  refine List.map_congr_left fun s hs => ?_
  exact staticLease_readOpts h (List.mem_filter.mp hs).1

variable (A : Addresses) (ifaceNet : Dict Text (Text × Int))

/-- What becomes of a section that is read. -/
abbrev entryOf (p : ListPackage) (s : ListSection) :=
  poolEntry A (typesOf p.sections) ifaceNet s.key (readOpts s)

theorem entryOf_other {s : ListSection} (hs : s ∈ p.sections)
    (hother : countsAs s "dhcp".toList = false) : entryOf A ifaceNet p s = .ok none := by
  rw [entryOf, poolEntry, isType_key hs (by decide), isType_key hs (by decide), hother, if_pos rfl,
    ite_self]

include h in
theorem entryOf_pool {s : ListSection} (hs : s ∈ p.sections)
    (hpool : countsAs s "dhcp".toList = true) :
    ((∃ entry, entryOf A ifaceNet p s = .ok entry) ↔ InRange A ifaceNet s) ∧
      ∀ entry, entryOf A ifaceNet p s = .ok entry →
        ∃ pool, entry = some (s.key, pool) ∧ PoolOf s pool := by
  have hdnsmasq : countsAs s "dnsmasq".toList = false := countsAs_apart hpool (by decide)
  have hstart := resolvePoolRange_isOk_iff A (first s "start".toList)
    (intOffset ((first s "limit".toList).getD [])) (netOf ifaceNet (first s "interface".toList))
  rw [entryOf, poolEntry, isType_key hs (by decide), isType_key hs (by decide), hdnsmasq, hpool,
    if_neg Bool.false_ne_true, if_neg Bool.true_eq_false.mp]
  simp only [optFirst_readOpts h hs, Option.or_none]
  rw [InRange, ← hstart]
  cases resolvePoolRange A (first s "start".toList)
      (intOffset ((first s "limit".toList).getD []))
      (netOf ifaceNet (first s "interface".toList)) with
  | error e => exact ⟨⟨by rintro ⟨_, ⟨⟩⟩, by rintro ⟨_, ⟨⟩⟩⟩, by rintro _ ⟨⟩⟩
  | ok range =>
    refine ⟨⟨fun _ => ⟨range, rfl⟩, fun _ => ⟨_, rfl⟩⟩, ?_⟩
    rintro _ ⟨⟩
    refine ⟨_, rfl, ?_, rfl, rfl⟩
    show Option.getD (Option.filter _ ((first s "name".toList).or (some s.key))) s.key = _
    cases first s "name".toList with
    | none =>
      show Option.getD (Option.filter _ (some s.key)) s.key = s.key
      rw [Option.filter_some]
      split <;> rfl
    | some name => rfl

include h in
/-- The pools that are made, and whether they are. -/
theorem poolEntries_iff :
    ((∃ entries, poolEntries A (readItems p.sections, typesOf p.sections) ifaceNet = .ok entries) ↔
        ∀ s ∈ counted p.sections "dhcp".toList, InRange A ifaceNet s) ∧
      ∀ entries, poolEntries A (readItems p.sections, typesOf p.sections) ifaceNet = .ok entries →
        List.Forall₂ (fun s entry => entry.1 = s.key ∧ PoolOf s entry.2)
          (counted p.sections "dhcp".toList) entries := by
  have hread {s : ListSection} (hs : s ∈ p.sections) :
      s ∈ p.sections.filter (fun s => readOpts s ≠ []) ↔ s.options ≠ [] := by
    rw [List.mem_filter, and_iff_right hs, decide_eq_true_iff, Ne, readOpts_eq_nil_iff h hs]
  constructor
  · rw [poolEntries, collect_isOk_iff]
    constructor
    · intro hall s hs
      obtain ⟨hs, hcounted⟩ := List.mem_filter.mp hs
      obtain ⟨hopts, hpool⟩ := of_decide_eq_true hcounted
      refine (entryOf_pool h A ifaceNet hs hpool).1.mp ?_
      exact hall (s.key, readOpts s) (List.mem_map.mpr ⟨s, (hread hs).mpr hopts, rfl⟩)
    · intro hall item hitem
      obtain ⟨s, hs, rfl⟩ := List.mem_map.mp hitem
      have hmem := (List.mem_filter.mp hs).1
      cases hpool : countsAs s "dhcp".toList with
      | false => exact ⟨none, entryOf_other A ifaceNet hmem hpool⟩
      | true =>
        refine (entryOf_pool h A ifaceNet hmem hpool).1.mpr (hall s ?_)
        exact List.mem_filter.mpr ⟨hmem, decide_eq_true ⟨(hread hmem).mp hs, hpool⟩⟩
  · intro entries hentries
    have hok := collect_isOk_iff.mp ⟨entries, hentries⟩
    rw [collect_eq_filterMap hentries]
    -- over the sections that are read
    have hlist : ∀ l : List ListSection, (∀ s ∈ l, s ∈ p.sections) →
        (∀ item ∈ readItems l, ∃ e, poolEntry A (typesOf p.sections) ifaceNet item.1 item.2 =
          .ok e) →
        List.Forall₂ (fun s entry => entry.1 = s.key ∧ PoolOf s entry.2)
          (counted l "dhcp".toList)
          ((readItems l).filterMap fun item =>
            (poolEntry A (typesOf p.sections) ifaceNet item.1 item.2).toOption.join) := by
      intro l
      induction l with
      | nil => exact fun _ _ => List.Forall₂.nil
      | cons s l ih =>
        intro hsub hl
        have hs := hsub s List.mem_cons_self
        rw [counted, readItems, List.filter_cons, List.filter_cons]
        by_cases hopts : s.options = []
        · have hnil := (readOpts_eq_nil_iff h hs).mpr hopts
          rw [if_neg (by simp [hopts]), if_neg (by simp [hnil])]
          refine ih (fun t ht => hsub t (List.mem_cons_of_mem s ht)) fun item hitem => hl item ?_
          rw [readItems, List.filter_cons_of_neg (by simp [hnil])]
          exact hitem
        · have hne := (readOpts_eq_nil_iff h hs).not.mpr hopts
          have hrest : readItems (s :: l) = (s.key, readOpts s) :: readItems l := by
            rw [readItems, List.filter_cons_of_pos (by simpa using hne)]
            rfl
          rw [hrest] at hl
          have ih := ih (fun t ht => hsub t (List.mem_cons_of_mem s ht))
            fun item hitem => hl item (List.mem_cons_of_mem _ hitem)
          obtain ⟨entry, hentry⟩ := hl _ List.mem_cons_self
          rw [if_pos (show decide (readOpts s ≠ []) = true by simpa using hne)]
          cases hpool : countsAs s "dhcp".toList with
          | false =>
            have hnone := entryOf_other A ifaceNet hs hpool
            rw [if_neg (by simp), List.map_cons, List.filterMap_cons_none]
            · exact ih
            · show Option.join (Except.toOption (entryOf A ifaceNet p s)) = none
              rw [hnone]
              rfl
          | true =>
            obtain ⟨pool, rfl, hpoolOf⟩ := (entryOf_pool h A ifaceNet hs hpool).2 entry hentry
            rw [if_pos (by simpa using hopts), List.map_cons, List.filterMap_cons_some]
            · have hfirst : (s.key, pool).1 = s.key ∧ PoolOf s (s.key, pool).2 := ⟨rfl, hpoolOf⟩
              exact List.Forall₂.cons hfirst ih
            · show Option.join (Except.toOption (entryOf A ifaceNet p s)) = some (s.key, pool)
              rw [show entryOf A ifaceNet p s = .ok (some (s.key, pool)) from hentry]
              rfl
    exact hlist p.sections (fun s hs => hs) hok

/-- Items that contribute nothing may be left out. -/
theorem flatMap_filter_congr {α β : Type} {f : α → List β} {P Q : α → Bool} {l : List α}
    (h : ∀ a ∈ l, f a ≠ [] → P a = Q a) : (l.filter P).flatMap f = (l.filter Q).flatMap f := by
  induction l with
  | nil => rfl
  | cons a l ih =>
    have ih := ih fun b hb => h b (List.mem_cons_of_mem a hb)
    have hleft (R : α → Bool) : ((a :: l).filter R).flatMap f =
        (if R a = true then f a else []) ++ (l.filter R).flatMap f := by
      rw [List.filter_cons]
      split <;> rfl
    rw [hleft, hleft, ih]
    by_cases hnil : f a = []
    · rw [hnil, ite_self, ite_self]
    · rw [h a List.mem_cons_self hnil]

theorem options_ne_nil {s : ListSection} {name : Text} (h : (s.values name).getD [] ≠ []) :
    s.options ≠ [] := by
  intro hnil
  rw [ListSection.values, hnil] at h
  exact h rfl

/-- The sections whose `dhcp_option` lists are read, but for those without options. -/
def consulted (p : ListPackage) : List ListSection :=
  p.sections.filter fun s =>
    countsAs s "dnsmasq".toList = true ∨ countsAs s "dhcp".toList = true

include h in
theorem optionValues_eq :
    optionValues (typesOf p.sections) (readItems p.sections) = listed (consulted p) := by
  have hreads : ∀ s ∈ p.sections, readsOptions (typesOf p.sections) s.key =
      decide (countsAs s "dnsmasq".toList = true ∨ countsAs s "dhcp".toList = true) := by
    intro s hs
    rw [readsOptions, isType_key hs (by decide), isType_key hs (by decide),
      isType_key hs (by decide), Bool.decide_or, Bool.decide_eq_true, Bool.decide_eq_true]
    cases hhost : countsAs s "host".toList with
    | false => rfl
    | true =>
      rw [countsAs_apart hhost (by decide), countsAs_apart hhost (by decide)]
      rfl
  rw [optionValues, filter_readItems h (readsOptions (typesOf p.sections)) hreads, listed,
    consulted, List.flatMap_map]
  refine (List.flatMap_congr fun s hs => ?_).trans (flatMap_filter_congr fun s _ hvalues => ?_)
  · show (get? "dhcp_option".toList (readOpts s)).getD [] = _
    rw [get?_readOpts h (List.mem_filter.mp hs).1]
  · have hopts := options_ne_nil hvalues
    exact decide_eq_decide.mpr ((and_iff_right hopts).trans decide_eq_true_iff)

end Read

/-! ## Which packages are decoded -/

/-- A package that is decoded: one value of each option, and a single line; options in each section
of type `host` or `dhcp`, and in no other section whose name begins like theirs; pools whose first
addresses have 128 bits; and sections whose names begin like `dnsmasq` that give no gateway and no
resolver of their own. -/
structure Plain (A : Addresses) (ifaceNet : Dict Text (Text × Int)) (p : ListPackage) : Prop where
  values : OneLine p
  optioned : ∀ s ∈ p.sections, s.type = "host".toList ∨ s.type = "dhcp".toList → s.options ≠ []
  hosts : ∀ s ∈ p.sections, s.options ≠ [] → looks s "host".toList = true → s.type = "host".toList
  pools : ∀ s ∈ p.sections, s.options ≠ [] → looks s "dhcp".toList = true → s.type = "dhcp".toList
  ranges : ∀ s ∈ sectionsOf p "dhcp".toList, InRange A ifaceNet s
  gateway : (listed (p.sections.filter fun s => countsAs s "dnsmasq".toList = true ∨
    s.type = "dhcp".toList)).findSome? gatewayOf = (given p).findSome? gatewayOf
  resolvers : ∀ s ∈ p.sections, looks s "dnsmasq".toList = true →
    ∀ value ∈ (s.values "dhcp_option".toList).getD [], ∀ server ∈ serversOf value,
      ∃ value' ∈ given p, server ∈ serversOf value'

/-- The sections that count as of a type are those of the type. -/
theorem counted_eq_iff {p : ListPackage} {type : Text} :
    (∀ s ∈ p.sections, (s.type = type → s.options ≠ []) ∧
      (s.options ≠ [] → looks s type = true → s.type = type)) ↔
        ∀ s ∈ p.sections, decide (s.options ≠ [] ∧ countsAs s type = true) =
          decide (s.type = type) := by
  refine forall₂_congr fun s _ => ?_
  rw [decide_eq_decide, countsAs, Bool.or_eq_true, decide_eq_true_iff]
  constructor
  · rintro ⟨hoptioned, hlooks⟩
    constructor
    · rintro ⟨hopts, hcounts | htype⟩
      · exact hlooks hopts hcounts
      · exact htype
    · exact fun htype => ⟨hoptioned htype, Or.inr htype⟩
  · intro h
    exact ⟨fun htype => (h.mpr htype).1, fun hopts hcounts => h.mp ⟨hopts, Or.inl hcounts⟩⟩

/-- Sections of one line are recovered. -/
theorem recovers_of_oneLine {p : ListPackage} (h : OneLine p) :
    Recovers p (readItems p.sections, typesOf p.sections) where
  types := rfl
  values s hs o ho := by
    have hopts : s.options ≠ [] := List.ne_nil_of_mem ho
    have hread : get? s.key (readItems p.sections) = some (readOpts s) := by
      refine (get?_eq_some_iff ?_).mpr (List.mem_map.mpr ⟨s, List.mem_filter.mpr ⟨hs, ?_⟩, rfl⟩)
      · rw [keys, readItems, List.map_map]
        exact p.nodup.sublist (List.filter_sublist.map _)
      · exact decide_eq_true ((readOpts_eq_nil_iff h hs).not.mpr hopts)
    have hfind : s.options.find? (fun other => other.name = o.name) = some o := by
      have hsome : (s.options.find? fun other => other.name = o.name).isSome = true :=
        List.find?_isSome.mpr ⟨o, ho, decide_eq_true rfl⟩
      obtain ⟨other, hother⟩ := Option.isSome_iff_exists.mp hsome
      have hname : other.name = o.name := by simpa using List.find?_some hother
      rw [hother, List.inj_on_of_nodup_map s.nodup (List.mem_of_find?_eq_some hother) ho hname]
    rw [hread, Option.bind_some, get?_readOpts h hs, ListSection.values, hfind]
    rfl
  declared item hitem := by
    obtain ⟨s, hs, rfl⟩ := List.mem_map.mp hitem
    have hmem := (List.mem_filter.mp hs).1
    refine ⟨s, hmem, rfl, ?_⟩
    rw [readOpts_eq h hmem, keys, List.map_map]
    rfl

theorem map_key_of_forall₂ {A : List ListSection} {entries : List (Text × DhcpPool)}
    (h : List.Forall₂ (fun s entry => entry.1 = s.key ∧ PoolOf s entry.2) A entries) :
    A.map ListSection.key = entries.map Prod.fst := by
  induction h with
  | nil => rfl
  | cons hfirst _ ih => rw [List.map_cons, List.map_cons, ih, hfirst.1]

/-- If the pools are those of the type, sections that only look like it have no lists. -/
theorem listed_consulted {p : ListPackage}
    (h : ∀ s ∈ p.sections, decide (s.options ≠ [] ∧ countsAs s "dhcp".toList = true) =
      decide (s.type = "dhcp".toList)) :
    listed (consulted p) = listed (p.sections.filter fun s =>
      countsAs s "dnsmasq".toList = true ∨ s.type = "dhcp".toList) := by
  refine flatMap_filter_congr fun s hs hvalues => ?_
  have hdhcp := decide_eq_decide.mp (h s hs)
  rw [decide_eq_decide, ← hdhcp, and_iff_right (options_ne_nil hvalues)]

/-- **Decoded packages.**  A package is decoded exactly if it is plain. -/
theorem decoded_iff (w : WordClass) (A : Addresses) (ifaceNet : Dict Text (Text × Int))
    (p : ListPackage) : Decoded w A ifaceNet p ↔ Plain A ifaceNet p := by
  constructor
  · intro h
    have hone := oneLine_of_recovers h.recovers
    have hread := uciSections_showText w hone.single
    have hleases := h.leases
    obtain ⟨-, entries, hentries, -, hpools⟩ := h.pools
    rw [hread] at hleases hentries
    rw [staticLeases_eq hone] at hleases
    have hhosts : ∀ s ∈ p.sections, decide (s.options ≠ [] ∧ countsAs s "host".toList = true) =
        decide (s.type = "host".toList) := by
      intro s hs
      have hkeys := congrArg (List.map DhcpStaticLease.name) hleases
      rw [List.map_map, List.map_map] at hkeys
      exact Bool.eq_iff_iff.mpr (iff_of_map_key hkeys hs)
    have hdhcp : ∀ s ∈ p.sections, decide (s.options ≠ [] ∧ countsAs s "dhcp".toList = true) =
        decide (s.type = "dhcp".toList) := by
      intro s hs
      obtain ⟨-, hmade⟩ := poolEntries_iff hone A ifaceNet
      have hkeys := (map_key_of_forall₂ (hmade entries hentries)).trans
        (map_key_of_forall₂ hpools).symm
      exact Bool.eq_iff_iff.mpr (iff_of_map_key hkeys hs)
    have hcounted : counted p.sections "dhcp".toList = sectionsOf p "dhcp".toList :=
      List.filter_congr hdhcp
    obtain ⟨hgateway, hdns, -⟩ := parseDnsmasq_eq (readItems p.sections, typesOf p.sections)
    rw [optionValues_eq hone, listed_consulted hdhcp] at hgateway hdns
    exact {
      values := hone
      optioned := fun s hs htype => htype.elim
        (fun h => (counted_eq_iff.mpr hhosts s hs).1 h)
        (fun h => (counted_eq_iff.mpr hdhcp s hs).1 h)
      hosts := fun s hs => (counted_eq_iff.mpr hhosts s hs).2
      pools := fun s hs => (counted_eq_iff.mpr hdhcp s hs).2
      ranges := hcounted ▸ (poolEntries_iff hone A ifaceNet).1.mp ⟨entries, hentries⟩
      gateway := by
        rw [← hgateway, ← hread]
        exact h.gateway
      resolvers := by
        intro s hs hlooks value hvalue server hserver
        refine (h.dns server).mp ?_
        rw [hread, hdns]
        refine ⟨value, List.mem_flatMap.mpr ⟨s, List.mem_filter.mpr ⟨hs, ?_⟩, hvalue⟩, hserver⟩
        exact decide_eq_true (Or.inl (by rw [countsAs, hlooks]; rfl)) }
  · intro h
    have hone := h.values
    have hread := uciSections_showText w hone.single
    have hhosts := counted_eq_iff.mp fun s hs =>
      ⟨fun htype => h.optioned s hs (Or.inl htype), h.hosts s hs⟩
    have hdhcp := counted_eq_iff.mp fun s hs =>
      ⟨fun htype => h.optioned s hs (Or.inr htype), h.pools s hs⟩
    have hcounted : counted p.sections "dhcp".toList = sectionsOf p "dhcp".toList :=
      List.filter_congr hdhcp
    obtain ⟨hmade, hpools⟩ := poolEntries_iff hone A ifaceNet
    rw [hcounted] at hmade hpools
    obtain ⟨entries, hentries⟩ := hmade.mpr h.ranges
    obtain ⟨hgateway, hdns, -⟩ := parseDnsmasq_eq (readItems p.sections, typesOf p.sections)
    rw [optionValues_eq hone, listed_consulted hdhcp] at hgateway hdns
    refine ⟨?_, ?_, ?_, ?_, ?_⟩
    · rw [hread]
      exact recovers_of_oneLine hone
    · rw [hread, staticLeases_eq hone]
      exact congrArg (List.map leaseOf) (List.filter_congr hhosts)
    · rw [hread]
      obtain ⟨enabled, hparsed⟩ := parsePools_of_entries hentries
      exact ⟨enabled, entries, hentries, hparsed, hpools entries hentries⟩
    · rw [hread, hgateway, h.gateway]
    · intro server
      rw [hread, hdns]
      constructor
      · rintro ⟨value, hvalue, hserver⟩
        obtain ⟨s, hs, hvalue⟩ := List.mem_flatMap.mp hvalue
        obtain ⟨hs, hcounts⟩ := List.mem_filter.mp hs
        obtain hcounts | htype := of_decide_eq_true hcounts
        · obtain hlooks | htype := Bool.or_eq_true_iff.mp hcounts
          · exact h.resolvers s hs hlooks value hvalue server hserver
          · refine ⟨value, List.mem_flatMap.mpr ⟨s, List.mem_filter.mpr ⟨hs, ?_⟩, hvalue⟩, hserver⟩
            exact decide_eq_true (Or.inl (of_decide_eq_true htype))
        · refine ⟨value, List.mem_flatMap.mpr ⟨s, List.mem_filter.mpr ⟨hs, ?_⟩, hvalue⟩, hserver⟩
          exact decide_eq_true (Or.inr htype)
      · rintro ⟨value, hvalue, hserver⟩
        obtain ⟨s, hs, hvalue⟩ := List.mem_flatMap.mp hvalue
        obtain ⟨hs, htype⟩ := List.mem_filter.mp hs
        refine ⟨value, List.mem_flatMap.mpr ⟨s, List.mem_filter.mpr ⟨hs, ?_⟩, hvalue⟩, hserver⟩
        obtain htype | htype := of_decide_eq_true htype
        · exact decide_eq_true (Or.inl (by rw [countsAs, htype]; simp))
        · exact decide_eq_true (Or.inr htype)

/-- A gateway and a resolver in one list. -/
def dnsmasqPackage : ListPackage where
  sections := [{
    ref := .anonymous 0
    type := "dnsmasq".toList
    options := [{
      name := "dhcp_option".toList
      values := ["3,192.168.1.1".toList, "6,1.1.1.1".toList]
      validName := by decide
      nonempty := by decide
      quoteFree := by decide }]
    validRef := trivial
    validType := by decide
    nodup := by decide }]
  nodup := List.nodup_singleton _

/-- Numbers as addresses, where no pool is declared. -/
def plainAddresses : Addresses where
  parse _ := none
  shown n := if 0 ≤ n ∧ n < 2 ^ 128 then some (intText n) else none
  isSome_shown n := by
    by_cases hn : 0 ≤ n ∧ n < 2 ^ 128
    · rw [if_pos hn]
      exact iff_of_true rfl hn
    · rw [if_neg hn]
      exact iff_of_false Bool.false_ne_true hn

/-- A list of several values is one line, which the option pattern does not match. -/
theorem list_option_dropped : ¬ Decoded UciReading.asciiWords plainAddresses [] dnsmasqPackage := by
  intro h
  obtain ⟨v, hvalues, -⟩ := oneLine_of_recovers h.recovers _ List.mem_cons_self _ List.mem_cons_self
  cases hvalues

end OpenWrtCopilot.Ports.DhcpDecoding
