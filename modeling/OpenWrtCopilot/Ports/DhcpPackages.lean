import OpenWrtCopilot.Ports.DhcpCollector

/-!
# What the DHCP collector recovers of a package

A package as `uci show dhcp` prints it, with lists of values that hold any text but quotes.  The
collector reads a line at a time, and an option line with one value only.

## Main results

* `uciSections_showText` — what is read of a package whose values are single lines.
* `recorded_uciSections` — only single lines are read of any text.
-/

namespace OpenWrtCopilot.Ports.DhcpPackages

open Verified
open Verified.PyText
open Verified.PyDict
open Verified.Uci (Ref UciOption UciSection ValidName ValidType emptySection
  innerValues)
open Verified.UciReading
open Ports.DhcpCollector

/-! ## Packages -/

/-- An option: its value, or the values of a list. -/
structure ListOption where
  name : Text
  values : List Text
  validName : ValidName name
  nonempty : values ≠ []
  quoteFree : ∀ v ∈ values, '\'' ∉ v

/-- A section; no two of its options share a name. -/
structure ListSection where
  ref : Ref
  type : Text
  options : List ListOption
  validRef : ref.Valid
  validType : ValidType type
  nodup : (options.map ListOption.name).Nodup

/-- The section without its options. -/
def ListSection.header (s : ListSection) : UciSection :=
  emptySection s.ref s.type s.validRef s.validType

/-- What `uci` calls the section. -/
def ListSection.key (s : ListSection) : Text := s.header.key

/-- A package; its sections are told apart by their keys. -/
structure ListPackage where
  sections : List ListSection
  nodup : (sections.map ListSection.key).Nodup

/-- The values of an option of the section, if it has it. -/
def ListSection.values (s : ListSection) (name : Text) : Option (List Text) :=
  (s.options.find? fun o => o.name = name).map ListOption.values

def showOption (s : ListSection) (o : ListOption) : Text :=
  "dhcp".toList ++ '.' ::
    (s.key ++ '.' :: (o.name ++ '=' :: '\'' :: (innerValues o.values ++ ['\''])))

/-- The lines of `uci show` about one section. -/
def sectionLines (s : ListSection) : List Text :=
  Uci.showSection "dhcp".toList s.header :: s.options.map (showOption s)

/-- What `uci show dhcp` prints. -/
def showText (p : ListPackage) : Text := unlines (p.sections.flatMap sectionLines)

/-! ## Single lines -/

/-- All values are single lines. -/
def Single (p : ListPackage) : Prop :=
  ∀ s ∈ p.sections, ∀ o ∈ s.options, ∀ v ∈ o.values, SingleLine v

/-- The section with one of its options. -/
def ListSection.only (s : ListSection) (o : ListOption) (h : ∀ v ∈ o.values, SingleLine v) :
    UciSection :=
  { s.header with
    options := [⟨o.name, o.values, o.validName, o.nonempty, h⟩]
    nodup := List.nodup_singleton _ }

/-- The lines of a package of single lines are lines of `uci show`. -/
theorem exists_showLines {p : ListPackage} (h : Single p) {line : Text}
    (hline : line ∈ p.sections.flatMap sectionLines) :
    ∃ q : Uci.Package, line ∈ Uci.showLines "dhcp".toList q := by
  obtain ⟨s, hs, hline⟩ := List.mem_flatMap.mp hline
  obtain rfl | hline := List.mem_cons.mp hline
  · refine ⟨⟨[s.header], List.nodup_singleton _⟩, List.mem_flatMap.mpr ⟨s.header, ?_⟩⟩
    exact ⟨List.mem_singleton.mpr rfl, List.mem_cons_self⟩
  · obtain ⟨o, ho, rfl⟩ := List.mem_map.mp hline
    let only := s.only o fun v hv => h s hs o ho v hv
    refine ⟨⟨[only], List.nodup_singleton _⟩, List.mem_flatMap.mpr ⟨only, ?_⟩⟩
    exact ⟨List.mem_singleton.mpr rfl, List.mem_cons_of_mem _ (List.mem_singleton.mpr rfl)⟩

/-- Each line of a package of single lines is read as it is. -/
theorem uciSections_eq_foldl (w : WordClass) {p : ListPackage} (h : Single p) :
    uciSections w (showText p) =
      (p.sections.flatMap sectionLines).foldl (readLine w) ([], []) := by
  have hsingle : ∀ line ∈ p.sections.flatMap sectionLines, SingleLine line := by
    intro line hline
    obtain ⟨q, hq⟩ := exists_showLines h hline
    exact Uci.singleLine_showLines (by decide) q line hq
  rw [uciSections, showText, splitlines_unlines hsingle]
  refine List.foldl_ext _ _ _ fun state line hline => ?_
  obtain ⟨q, hq⟩ := exists_showLines h hline
  rw [(Uci.strip_showLines (show ValidName "dhcp".toList by decide) hq).1]

/-! ### Lines -/

/-- The section pattern at a line with a key before the first `=`. -/
theorem sectionLine_eq {name : Text} (hname : ∀ c ∈ name, c ≠ '=') (hne : name ≠ [])
    (type : Text) : sectionLine ("dhcp".toList ++ '.' :: (name ++ '=' :: type)) =
      if '.' ∉ name ∧ type ≠ [] ∧ type.all (fun c => c ≠ '=' ∧ !isSpace c) = true then
        some (name, type)
      else none := by
  have hline : "dhcp".toList ++ '.' :: (name ++ '=' :: type) =
      "dhcp.".toList ++ (name ++ '=' :: type) := by simp
  rw [sectionLine, hline, startsWith_append, if_pos rfl,
    show (5 : Nat) = "dhcp.".toList.length by decide, List.drop_left,
    splitFirst_append_cons hname]
  simp only [hne, ne_eq, not_false_eq_true, true_and]

theorem sectionLine_showSection (s : ListSection) :
    sectionLine (Uci.showSection "dhcp".toList s.header) = some (s.key, s.type) := by
  have hkey : ∀ c ∈ s.key, c ≠ '=' := fun c hc => (Uci.key_chars s.header hc).2.1
  rw [Uci.showSection]
  refine (sectionLine_eq hkey (Uci.key_ne_nil s.header) _).trans (if_pos ⟨?_, s.validType.1, ?_⟩)
  · exact fun hdot => (Uci.key_chars s.header hdot).2.2.1 rfl
  · refine List.all_eq_true.mpr fun c hc => ?_
    have hchar := s.validType.2 c hc
    have hspace : isSpace c = false := Uci.isSpace_of_isTypeChar hchar
    have hne : c ≠ '=' := by
      rintro rfl
      exact absurd hchar (by decide)
    simp [hspace, hne]

theorem sectionLine_showOption (s : ListSection) (o : ListOption) :
    sectionLine (showOption s o) = none := by
  have hname : ∀ c ∈ s.key ++ '.' :: o.name, c ≠ '=' := by
    intro c hc
    obtain hc | hc := List.mem_append.mp hc
    · exact (Uci.key_chars s.header hc).2.1
    · obtain rfl | hc := List.mem_cons.mp hc
      · decide
      · rintro rfl
        exact absurd (o.validName.2 '=' hc) (by decide)
  have hline := sectionLine_eq hname (by simp) ('\'' :: (innerValues o.values ++ ['\'']))
  rw [if_neg fun h => h.1 (by simp), List.append_assoc, List.cons_append] at hline
  exact hline

/-- The option pattern captures a value that is alone. -/
theorem optionLine_showOption (w : WordClass) (s : ListSection) {o : ListOption}
    (h : ∀ v ∈ o.values, SingleLine v) :
    (patterns w).optionLine (showOption s o) =
      match o.values with
      | [v] => some (s.key, o.name, v)
      | _ => none := by
  have hline := UciReading.optionLine_showOption (patterns w) (s.only o h)
    ⟨o.name, o.values, o.validName, o.nonempty, h⟩
  refine hline.trans ?_
  show (if (!(innerValues o.values).contains '\'') = true then
    some (s.key, o.name, innerValues o.values) else none) = _
  have hnonempty := o.nonempty
  have hquote := o.quoteFree
  revert hnonempty hquote
  cases o.values with
  | nil => exact fun hnonempty => absurd rfl hnonempty
  | cons v rest =>
    intro _ hquote
    cases rest with
    | nil =>
      have hfree := hquote v List.mem_cons_self
      have hinner : innerValues [v] = v := by
        rw [innerValues, List.map_singleton, join_singleton, escapeValue_of_notMem hfree]
      rw [hinner, if_pos (by simpa using hfree)]
    | cons v' rest =>
      have hmem := quote_mem_innerValues v v' rest
      rw [if_neg (by simpa using hmem)]

/-! ### Sections -/

/-- The option with its value, if it has one only. -/
def alone (o : ListOption) : Option (Text × List Text) :=
  match o.values with
  | [v] => some (o.name, [v])
  | _ => none

/-- What is read of the section. -/
def readOpts (s : ListSection) : Opts := s.options.filterMap alone

/-- The items of a dictionary with the section's, if there are any. -/
def withOpts (items : Dict Text Opts) (key : Text) (opts : Opts) : Dict Text Opts :=
  if opts = [] then items else items ++ [(key, opts)]

theorem withOpts_set {items : Dict Text Opts} {key : Text} (hkey : key ∉ keys items)
    {opts : Opts} {name : Text} (hname : name ∉ keys opts) (value : Text) :
    set key (set name ((get? name ((get? key (withOpts items key opts)).getD [])).getD [] ++
        [value]) ((get? key (withOpts items key opts)).getD [])) (withOpts items key opts) =
      withOpts items key (opts ++ [(name, [value])]) := by
  have hget : (get? key (withOpts items key opts)).getD [] = opts := by
    rw [withOpts]
    by_cases hopts : opts = []
    · rw [if_pos hopts, get?_eq_none_iff.mpr hkey, hopts]
      rfl
    · rw [if_neg hopts, get?_append_singleton hkey]
      rfl
  rw [hget, get?_eq_none_iff.mpr hname, Option.getD_none, List.nil_append, set_of_notMem hname,
    withOpts, withOpts, if_neg (List.append_ne_nil_of_right_ne_nil _ (List.cons_ne_nil _ _))]
  by_cases hopts : opts = []
  · rw [if_pos hopts, set_of_notMem hkey]
  · rw [if_neg hopts, set_append_singleton hkey]

/-- The lines of the options of a section. -/
theorem foldl_showOption (w : WordClass) (s : ListSection) {items : Dict Text Opts}
    (hkey : s.key ∉ keys items) (types : Dict Text Text) (options : List ListOption) (opts : Opts)
    (hsingle : ∀ o ∈ options, ∀ v ∈ o.values, SingleLine v)
    (hnodup : (keys opts ++ options.map ListOption.name).Nodup) :
    (options.map (showOption s)).foldl (readLine w) (withOpts items s.key opts, types) =
      (withOpts items s.key (opts ++ options.filterMap alone), types) := by
  induction options generalizing opts with
  | nil => rw [List.map_nil, List.foldl_nil, List.filterMap_nil, List.append_nil]
  | cons o options ih =>
    have hrest := fun other hother => hsingle other (List.mem_cons_of_mem o hother)
    have hline : readLine w (withOpts items s.key opts, types) (showOption s o) =
        (withOpts items s.key (opts ++ (alone o).toList), types) := by
      rw [readLine, sectionLine_showOption, optionLine_showOption w s
        (hsingle o List.mem_cons_self), alone]
      have hname : o.name ∉ keys opts := fun hmem =>
        (List.nodup_append.mp hnodup).2.2 o.name hmem o.name List.mem_cons_self rfl
      match o.values with
      | [v] => exact congrArg (·, types) (withOpts_set hkey hname v)
      | [] => exact congrArg (withOpts items s.key ·, types) (List.append_nil opts).symm
      | _ :: _ :: _ =>
        exact congrArg (withOpts items s.key ·, types) (List.append_nil opts).symm
    have hkeys : (keys (opts ++ (alone o).toList) ++ options.map ListOption.name).Nodup := by
      refine hnodup.sublist ?_
      rw [keys_append, List.append_assoc, List.map_cons]
      refine List.Sublist.append_left ?_ _
      rw [alone]
      match o.values with
      | [_] => exact List.Sublist.refl _
      | [] => exact List.sublist_cons_self _ _
      | _ :: _ :: _ => exact List.sublist_cons_self _ _
    rw [List.map_cons, List.foldl_cons, hline, ih _ hrest hkeys, List.append_assoc]
    cases halone : alone o with
    | none => rw [List.filterMap_cons_none halone]; rfl
    | some item => rw [List.filterMap_cons_some halone]; rfl

/-- The sections that are read with their options. -/
def readItems (sections : List ListSection) : Dict Text Opts :=
  (sections.filter fun s => readOpts s ≠ []).map fun s => (s.key, readOpts s)

/-- The types of the sections. -/
def typesOf (sections : List ListSection) : Dict Text Text :=
  sections.map fun s => (s.key, s.type)

theorem foldl_sectionLines (w : WordClass) (sections before : List ListSection)
    (hnodup : ((before ++ sections).map ListSection.key).Nodup)
    (hsingle : ∀ s ∈ sections, ∀ o ∈ s.options, ∀ v ∈ o.values, SingleLine v) :
    (sections.flatMap sectionLines).foldl (readLine w) (readItems before, typesOf before) =
      (readItems (before ++ sections), typesOf (before ++ sections)) := by
  induction sections generalizing before with
  | nil => rw [List.append_nil, List.flatMap_nil, List.foldl_nil]
  | cons s sections ih =>
    have hnew : s.key ∉ before.map ListSection.key := by
      rw [List.map_append, List.map_cons] at hnodup
      exact fun hmem => (List.nodup_middle.mp hnodup).notMem (List.mem_append_left _ hmem)
    have hkey : s.key ∉ keys (readItems before) := by
      intro hmem
      obtain ⟨item, hitem, hname⟩ := List.mem_map.mp hmem
      obtain ⟨t, ht, rfl⟩ := List.mem_map.mp hitem
      exact hnew (List.mem_map.mpr ⟨t, (List.mem_filter.mp ht).1, hname⟩)
    have htypes : s.key ∉ keys (typesOf before) := by
      rw [typesOf, keys, List.map_map]
      exact hnew
    have hheader : readLine w (readItems before, typesOf before)
        (Uci.showSection "dhcp".toList s.header) =
          (withOpts (readItems before) s.key [], typesOf (before ++ [s])) := by
      rw [readLine, sectionLine_showSection]
      show (_, set s.key s.type (typesOf before)) = _
      rw [set_of_notMem htypes, typesOf, typesOf, List.map_append, withOpts, if_pos rfl]
      rfl
    have hitems : withOpts (readItems before) s.key ([] ++ s.options.filterMap alone) =
        readItems (before ++ [s]) := by
      rw [readItems, readItems, List.filter_append, List.map_append, withOpts, List.nil_append]
      show (if readOpts s = [] then _ else _ ++ [(s.key, readOpts s)]) = _
      by_cases hopts : readOpts s = []
      · rw [if_pos hopts, List.filter_cons_of_neg (by simpa using hopts)]
        exact (List.append_nil _).symm
      · rw [if_neg hopts, List.filter_cons_of_pos (by simpa using hopts)]
        rfl
    have hsplit : before ++ s :: sections = before ++ [s] ++ sections := by simp
    rw [List.flatMap_cons, List.foldl_append, sectionLines, List.foldl_cons, hheader,
      foldl_showOption w s hkey _ s.options [] (hsingle s List.mem_cons_self) s.nodup, hitems, hsplit]
    rw [hsplit] at hnodup
    exact ih (before ++ [s]) hnodup fun t ht => hsingle t (List.mem_cons_of_mem s ht)

/-- What is read of a package whose values are single lines. -/
theorem uciSections_showText (w : WordClass) {p : ListPackage} (h : Single p) :
    uciSections w (showText p) = (readItems p.sections, typesOf p.sections) := by
  rw [uciSections_eq_foldl w h]
  exact foldl_sectionLines w p.sections [] p.nodup h

/-! ### Recorded values -/

theorem mem_of_splitFirst {sep c : Char} {t left right : Text}
    (h : splitFirst sep t = (left, some right)) (hc : c ∈ right) : c ∈ t := by
  induction t generalizing left right with
  | nil => cases h
  | cons d t ih =>
    rw [splitFirst] at h
    split at h
    · obtain ⟨-, hright⟩ := Prod.mk.inj h
      exact List.mem_cons_of_mem d (Option.some.inj hright ▸ hc)
    · obtain ⟨-, hright⟩ := Prod.mk.inj h
      exact List.mem_cons_of_mem d (ih (Prod.ext rfl hright) hc)

theorem mem_of_optionLine {w : WordClass} {line name option value : Text} {c : Char}
    (h : (patterns w).optionLine line = some (name, option, value)) (hc : c ∈ value) :
    c ∈ line := by
  obtain ⟨tail, htail, h⟩ := Option.bind_eq_some_iff.mp h
  rw [LinePatterns.tail] at htail
  obtain ⟨-, htail⟩ := Option.ite_none_right_eq_some.mp htail
  cases hsplit : splitFirst '=' tail with
  | mk before rest =>
    rw [hsplit] at h
    obtain ⟨quoted, hrest, h⟩ := Option.bind_eq_some_iff.mp h
    obtain ⟨inner, hinner, h⟩ := Option.bind_eq_some_iff.mp h
    obtain ⟨⟨key, last⟩, -, h⟩ := Option.bind_eq_some_iff.mp h
    obtain ⟨-, h⟩ := Option.ite_none_right_eq_some.mp h
    obtain ⟨-, hvalue⟩ := Prod.mk.inj (Prod.mk.inj (Option.some.inj h)).2
    have hquoted : c ∈ quoted := by
      rw [unquoted.eq_def] at hinner
      split at hinner
      · obtain ⟨-, hinner⟩ := Option.ite_none_right_eq_some.mp hinner
        rw [← hvalue, ← Option.some.inj hinner] at hc
        exact List.mem_cons_of_mem _ ((List.dropLast_sublist _).subset hc)
      · cases hinner
    have htail' := mem_of_splitFirst (hsplit.trans (congrArg (before, ·) hrest)) hquoted
    rw [← Option.some.inj htail] at htail'
    exact List.mem_of_mem_drop htail'

/-- All recorded values are single lines. -/
def Recorded (items : Dict Text Opts) : Prop :=
  ∀ name opts, get? name items = some opts → ∀ option values, get? option opts = some values →
    ∀ v ∈ values, SingleLine v

theorem recorded_readLine (w : WordClass) {state : Sections} (h : Recorded state.1) {line : Text}
    (hline : SingleLine line) : Recorded (readLine w state line).1 := by
  rw [readLine]
  cases sectionLine line with
  | some item => exact h
  | none =>
    cases hoption : (patterns w).optionLine line with
    | none => exact h
    | some item =>
      obtain ⟨name, option, value⟩ := item
      have hvalue : SingleLine value := fun c hc => hline c (mem_of_optionLine hoption hc)
      -- what is there of the section already is recorded
      have hold : ∀ other values, get? other ((get? name state.1).getD []) = some values →
          ∀ v ∈ values, SingleLine v := by
        cases hopts : get? name state.1 with
        | none => exact nofun
        | some opts => exact h name opts hopts
      intro key opts hopts
      by_cases hkey : key = name
      · subst hkey
        rw [get?_set_self] at hopts
        obtain rfl := Option.some.inj hopts
        intro other values hvalues v hv
        by_cases hother : other = option
        · subst hother
          rw [get?_set_self] at hvalues
          obtain rfl := Option.some.inj hvalues
          obtain hv | hv := List.mem_append.mp hv
          · cases hbefore : get? other ((get? key state.1).getD []) with
            | none =>
              rw [hbefore] at hv
              cases hv
            | some before =>
              rw [hbefore] at hv
              exact hold other before hbefore v hv
          · exact List.mem_singleton.mp hv ▸ hvalue
        · rw [get?_set_of_ne hother] at hvalues
          exact hold other values hvalues v hv
      · rw [get?_set_of_ne hkey] at hopts
        exact h key opts hopts

theorem recorded_uciSections (w : WordClass) (text : Text) :
    Recorded (uciSections w text).1 := by
  have hloop : ∀ (lines : List Text), (∀ line ∈ lines, SingleLine line) → ∀ state : Sections,
      Recorded state.1 →
        Recorded (lines.foldl (fun state line => readLine w state (strip line)) state).1 := by
    intro lines
    induction lines with
    | nil => exact fun _ state h => h
    | cons line lines ih =>
      intro hlines state h
      refine ih (fun other hother => hlines other (List.mem_cons_of_mem line hother)) _ ?_
      refine recorded_readLine w h fun c hc => ?_
      exact hlines line List.mem_cons_self c (mem_of_mem_strip hc)
  exact hloop _ (splitlines_singleLines text) _ nofun

end OpenWrtCopilot.Ports.DhcpPackages
