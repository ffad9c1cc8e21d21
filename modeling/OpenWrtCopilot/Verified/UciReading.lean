import OpenWrtCopilot.Verified.PyDict
import OpenWrtCopilot.Verified.Uci

/-!
# Reading `uci show` line by line

Readers of `uci show` output match each line against two regular expressions,
one for an option and one for a section, and collect the options of a section in
a dictionary that starts with its type under the key `_type`:

    ^<package>\.(?P<key>[^=]+)\.(?P<option>[class]+)='(?P<value>…)'$
    ^<package>\.(?P<key>[^=]+)=(?P<type>[class]+)$

The readers differ in the classes, in what they allow between the quotes, and
in how they store a value; these are the parameters here.  Lines hold no newline,
so `$` only matches at their end.

## Main results

* `read_showLines` — what a reader makes of a whole package, section by section.
* `lookup_eq` — what it stores for one option.
-/

namespace OpenWrtCopilot.Verified.UciReading

open Verified.PyText
open Verified.PyDict
open Verified.Uci

/-! ## Patterns -/

/-- `\w` on `str`: which characters beyond ASCII it takes depends on the Unicode
tables of the interpreter. -/
structure WordClass where
  isWord : Char → Bool
  ascii : ∀ c : Char, c.toNat < 0x80 → isWord c = isNameChar c

/-- `\w` on ASCII text. -/
def asciiWords : WordClass := ⟨isNameChar, fun _ _ => rfl⟩

theorem WordClass.isWord_of_isNameChar (w : WordClass) {c : Char} (h : isNameChar c = true) :
    w.isWord c = true := by
  have hrange := printable_of_isTypeChar (isTypeChar_of_isNameChar h)
  rw [w.ascii c (by omega), h]

/-- The parameters of the two patterns. -/
structure LinePatterns where
  package : Text
  isOptionChar : Char → Bool
  isTypeChar : Char → Bool
  /-- What the value group allows. -/
  allows : Text → Bool
  option_name : ∀ c, isNameChar c = true → isOptionChar c = true
  type_quote : isTypeChar '\'' = false

/-- `t` up to its last `sep`, and what follows it. -/
def splitLast (sep : Char) (t : Text) : Option (Text × Text) :=
  match splitFirst sep t.reverse with
  | (after, some before) => some (before.reverse, after.reverse)
  | (_, none) => none

/-- What stands between a first and a last single quote. -/
def unquoted : Text → Option Text
  | '\'' :: rest => if rest.getLast? = some '\'' then some rest.dropLast else none
  | _ => none

/-- The text after `<package>.`. -/
def LinePatterns.tail (p : LinePatterns) (line : Text) : Option Text :=
  if startsWith (p.package ++ ['.']) line then some (line.drop (p.package.length + 1)) else none

/-- The option pattern: the key, the option and the value group. -/
def LinePatterns.optionLine (p : LinePatterns) (line : Text) : Option (Text × Text × Text) := do
  let tail ← p.tail line
  -- Neither group before the `=` can hold one, so it is the first.
  let (name, rest) := splitFirst '=' tail
  let value ← unquoted (← rest)
  -- No class of an option holds a `.`, so it follows the last one.
  let (key, option) ← splitLast '.' name
  if key ≠ [] ∧ option ≠ [] ∧ option.all p.isOptionChar ∧ p.allows value then
    some (key, option, value)
  else none

/-- The section pattern: the key and the type. -/
def LinePatterns.sectionLine (p : LinePatterns) (line : Text) : Option (Text × Text) := do
  let tail ← p.tail line
  let (key, rest) := splitFirst '=' tail
  let type ← rest
  if key ≠ [] ∧ type ≠ [] ∧ type.all p.isTypeChar then some (key, type) else none

/-! ## Readers -/

/-- A reader that stores values of `α`. -/
structure Reader (α : Type) extends LinePatterns where
  /-- The new value of an option, from its old one and a value that was read. -/
  put : Option α → Text → α
  /-- A type, as it is stored under `_type`. -/
  typed : Text → α

variable {α : Type}

def typeKey : Text := "_type"

/-- One line. -/
def Reader.readLine (r : Reader α) (sections : Dict Text (Dict Text α)) (line : Text) :
    Dict Text (Dict Text α) :=
  match r.optionLine line with
  | some (key, option, value) =>
      let fields := (get? key sections).getD []
      set key (set option (r.put (get? option fields) value) fields) sections
  | none =>
      match r.sectionLine line with
      | some (key, type) => setdefault key [(typeKey, r.typed type)] sections
      | none => sections

/-- All lines. -/
def Reader.read (r : Reader α) (lines : List Text) : Dict Text (Dict Text α) :=
  lines.foldl r.readLine []

/-! ## What a line of `uci show` matches -/

theorem splitLast_append_cons {sep : Char} {right : Text} (h : ∀ c ∈ right, c ≠ sep)
    (left : Text) : splitLast sep (left ++ sep :: right) = some (left, right) := by
  have hreverse : (left ++ sep :: right).reverse = right.reverse ++ sep :: left.reverse := by simp
  have hright : ∀ c ∈ right.reverse, c ≠ sep := fun c hc => h c (List.mem_reverse.mp hc)
  rw [splitLast, hreverse, splitFirst_append_cons hright]
  simp

theorem splitLast_of_not_mem {sep : Char} {t : Text} (h : ∀ c ∈ t, c ≠ sep) :
    splitLast sep t = none := by
  have hreverse : ∀ c ∈ t.reverse, c ≠ sep := fun c hc => h c (List.mem_reverse.mp hc)
  rw [splitLast, splitFirst_of_not_mem hreverse]

theorem unquoted_quoted (value : Text) : unquoted ('\'' :: (value ++ ['\''])) = some value := by
  rw [unquoted, if_pos List.getLast?_concat, List.dropLast_concat]

theorem tail_append (p : LinePatterns) (rest : Text) :
    p.tail (p.package ++ '.' :: rest) = some rest := by
  have hline : p.package ++ '.' :: rest = (p.package ++ ['.']) ++ rest := by simp
  rw [LinePatterns.tail, hline, startsWith_append, if_pos rfl,
    show p.package.length + 1 = (p.package ++ ['.']).length by simp, List.drop_left]

theorem optionLine_showOption (p : LinePatterns) (s : UciSection) (o : UciOption) :
    p.optionLine (showOption p.package s o) =
      if p.allows (innerValues o.values) = true then some (s.key, o.name, innerValues o.values)
      else none := by
  have hname : ∀ c ∈ s.key ++ '.' :: o.name, c ≠ '=' := by
    intro c hc
    simp only [List.mem_append, List.mem_cons] at hc
    rcases hc with hc | rfl | hc
    · exact (key_chars s hc).2.1
    · decide
    · rintro rfl
      exact absurd (o.validName.2 '=' hc) (by decide)
  have hdot : ∀ c ∈ o.name, c ≠ '.' := by
    rintro c hc rfl
    exact absurd (o.validName.2 '.' hc) (by decide)
  have hchars : o.name.all p.isOptionChar = true :=
    List.all_eq_true.mpr fun c hc => p.option_name c (o.validName.2 c hc)
  have hsplit := splitFirst_append_cons hname ('\'' :: (innerValues o.values ++ ['\'']))
  rw [List.append_assoc, List.cons_append] at hsplit
  simp only [LinePatterns.optionLine, showOption, tail_append, Option.bind_eq_bind,
    Option.bind_some, hsplit, unquoted_quoted, splitLast_append_cons hdot]
  simp only [key_ne_nil s, o.validName.1, hchars, ne_eq, not_false_eq_true, true_and]

theorem sectionLine_showOption (p : LinePatterns) (s : UciSection) (o : UciOption) :
    p.sectionLine (showOption p.package s o) = none := by
  have hname : ∀ c ∈ s.key ++ '.' :: o.name, c ≠ '=' := by
    intro c hc
    simp only [List.mem_append, List.mem_cons] at hc
    rcases hc with hc | rfl | hc
    · exact (key_chars s hc).2.1
    · decide
    · rintro rfl
      exact absurd (o.validName.2 '=' hc) (by decide)
  have hsplit := splitFirst_append_cons hname ('\'' :: (innerValues o.values ++ ['\'']))
  rw [List.append_assoc, List.cons_append] at hsplit
  simp only [LinePatterns.sectionLine, showOption, tail_append, Option.bind_eq_bind,
    Option.bind_some, hsplit]
  rw [if_neg]
  rintro ⟨_, _, htype⟩
  have hquote := List.all_eq_true.mp htype '\'' List.mem_cons_self
  rw [p.type_quote] at hquote
  cases hquote

theorem splitFirst_key (s : UciSection) (rest : Text) :
    splitFirst '=' (s.key ++ '=' :: rest) = (s.key, some rest) :=
  splitFirst_append_cons (fun _ hc => (key_chars s hc).2.1) rest

theorem optionLine_showSection (p : LinePatterns) (s : UciSection) :
    p.optionLine (showSection p.package s) = none := by
  have hlast : splitLast '.' s.key = none :=
    splitLast_of_not_mem fun _ hc => (key_chars s hc).2.2.1
  simp only [LinePatterns.optionLine, showSection, tail_append, Option.bind_eq_bind,
    Option.bind_some, splitFirst_key, hlast, Option.bind_none, Option.bind_fun_none]

theorem sectionLine_showSection (p : LinePatterns) (s : UciSection) :
    p.sectionLine (showSection p.package s) =
      if s.type.all p.isTypeChar = true then some (s.key, s.type) else none := by
  simp only [LinePatterns.sectionLine, showSection, tail_append, Option.bind_eq_bind,
    Option.bind_some, splitFirst_key]
  simp only [key_ne_nil s, s.validType.1, ne_eq, not_false_eq_true, true_and]

/-! ## What a reader makes of a section -/

/-- The dictionary after the section's own line. -/
def Reader.start (r : Reader α) (s : UciSection) : Option (Dict Text α) :=
  if s.type.all r.isTypeChar then some [(typeKey, r.typed s.type)] else none

/-- The dictionary after one more option. -/
def Reader.addOption (r : Reader α) (fields : Option (Dict Text α)) (o : UciOption) :
    Option (Dict Text α) :=
  if r.allows (innerValues o.values) then
    some (set o.name (r.put (get? o.name (fields.getD [])) (innerValues o.values))
      (fields.getD []))
  else fields

/-- What the reader collects about a section, if it notices it at all. -/
def Reader.fields (r : Reader α) (s : UciSection) : Option (Dict Text α) :=
  s.options.foldl r.addOption (r.start s)

/-- The items of a dictionary with the section's, if there are any. -/
def withFields (sections : Dict Text (Dict Text α)) (key : Text) :
    Option (Dict Text α) → Dict Text (Dict Text α)
  | none => sections
  | some fields => sections ++ [(key, fields)]

theorem readLine_showOption (r : Reader α) {sections : Dict Text (Dict Text α)} {s : UciSection}
    (hkey : s.key ∉ keys sections) (fields : Option (Dict Text α)) (o : UciOption) :
    r.readLine (withFields sections s.key fields) (showOption r.package s o) =
      withFields sections s.key (r.addOption fields o) := by
  unfold Reader.readLine Reader.addOption
  rw [optionLine_showOption, sectionLine_showOption]
  by_cases hallows : r.allows (innerValues o.values) = true
  · rw [if_pos hallows, if_pos hallows]
    cases fields with
    | none =>
      simp only [withFields, get?_eq_none_iff.mpr hkey, Option.getD_none]
      exact set_of_notMem hkey _
    | some fields =>
      simp only [withFields, get?_append_singleton hkey, Option.getD_some]
      exact set_append_singleton hkey fields _
  · rw [if_neg hallows, if_neg hallows]

theorem foldl_showOption (r : Reader α) {sections : Dict Text (Dict Text α)} {s : UciSection}
    (hkey : s.key ∉ keys sections) (options : List UciOption) (fields : Option (Dict Text α)) :
    (options.map (showOption r.package s)).foldl r.readLine (withFields sections s.key fields) =
      withFields sections s.key (options.foldl r.addOption fields) := by
  induction options generalizing fields with
  | nil => rfl
  | cons o options ih =>
    rw [List.map_cons, List.foldl_cons, List.foldl_cons, readLine_showOption r hkey, ih]

theorem foldl_sectionLines (r : Reader α) {sections : Dict Text (Dict Text α)} {s : UciSection}
    (hkey : s.key ∉ keys sections) :
    (sectionLines r.package s).foldl r.readLine sections =
      withFields sections s.key (r.fields s) := by
  have hstart : r.readLine sections (showSection r.package s) =
      withFields sections s.key (r.start s) := by
    unfold Reader.readLine Reader.start
    rw [optionLine_showSection, sectionLine_showSection]
    by_cases htype : s.type.all r.isTypeChar = true
    · rw [if_pos htype, if_pos htype]
      exact setdefault_of_notMem hkey _
    · rw [if_neg htype, if_neg htype]
      rfl
  rw [sectionLines, List.foldl_cons, hstart, foldl_showOption r hkey]
  rfl

/-- The items of the sections a reader notices. -/
def Reader.items (r : Reader α) (sections : List UciSection) : Dict Text (Dict Text α) :=
  sections.filterMap fun s => (r.fields s).map fun fields => (s.key, fields)

theorem mem_keys_items {r : Reader α} {sections : List UciSection} {key : Text}
    (h : key ∈ keys (r.items sections)) : key ∈ sections.map UciSection.key := by
  obtain ⟨item, hitem, rfl⟩ := List.mem_map.mp h
  obtain ⟨s, hs, hfields⟩ := List.mem_filterMap.mp hitem
  obtain ⟨fields, _, rfl⟩ := Option.map_eq_some_iff.mp hfields
  exact List.mem_map_of_mem hs

theorem withFields_items (r : Reader α) (sections : List UciSection) (s : UciSection) :
    withFields (r.items sections) s.key (r.fields s) = r.items (sections ++ [s]) := by
  unfold Reader.items
  rw [List.filterMap_append]
  cases hfields : r.fields s with
  | none => simp [withFields, hfields]
  | some fields => simp [withFields, hfields]

/--
**A reader collects each section on its own.**

The sections are in the order of the package; those the reader does not notice
are missing.
-/
theorem read_showLines (r : Reader α) (p : Package) :
    r.read (showLines r.package p) = r.items p.sections := by
  have hrun : ∀ (after before : List UciSection),
      ((before ++ after).map UciSection.key).Nodup →
      (after.flatMap (sectionLines r.package)).foldl r.readLine (r.items before) =
        r.items (before ++ after) := by
    intro after
    induction after with
    | nil =>
      intro before _
      rw [List.append_nil, List.flatMap_nil, List.foldl_nil]
    | cons s after ih =>
      intro before hnodup
      have hkey : s.key ∉ keys (r.items before) := by
        intro hmem
        rw [List.map_append, List.map_cons] at hnodup
        exact (List.nodup_middle.mp hnodup).notMem
          (List.mem_append_left _ (mem_keys_items hmem))
      have hsplit : before ++ s :: after = before ++ [s] ++ after := by simp
      rw [hsplit] at hnodup
      rw [List.flatMap_cons, List.foldl_append, foldl_sectionLines r hkey, withFields_items,
        ih (before ++ [s]) hnodup, hsplit]
  have h := hrun p.sections [] (by simpa using p.nodup)
  simpa [Reader.read, Reader.items, showLines] using h

/-! ## What a reader stores for an option -/

/-- What the value group of an option's line captures, if it matches. -/
def LinePatterns.visible (p : LinePatterns) (s : UciSection) (name : Text) : Option Text :=
  ((s.values name).map innerValues).filter p.allows

theorem quote_mem_escapeValue_iff (value : Text) : '\'' ∈ escapeValue value ↔ '\'' ∈ value := by
  constructor
  · intro h
    obtain ⟨c, hc, hquote⟩ := List.mem_flatMap.mp h
    by_cases hcase : c = '\''
    · exact hcase ▸ hc
    · rw [if_neg hcase, List.mem_singleton] at hquote
      exact absurd hquote.symm hcase
  · intro h
    refine List.mem_flatMap.mpr ⟨'\'', h, ?_⟩
    rw [if_pos rfl]
    decide

/-- A value without quotes is printed as it is. -/
theorem escapeValue_of_notMem {value : Text} (h : '\'' ∉ value) : escapeValue value = value := by
  have hchars : escapeValue value = value.flatMap fun c => [c] := by
    refine List.flatMap_congr fun c hc => if_neg ?_
    rintro rfl
    exact h hc
  rw [hchars, List.flatMap_singleton']

/-- Several values are printed with quotes between them. -/
theorem quote_mem_innerValues (a b : Text) (rest : List Text) :
    '\'' ∈ innerValues (a :: b :: rest) := by
  have hne : (b :: rest).map escapeValue ≠ [] := by simp
  rw [innerValues, List.map_cons, join_cons_of_ne_nil _ _ hne, List.mem_append, List.mem_append]
  exact Or.inl (Or.inr (by decide))

/-- A pattern that allows no quote captures single values without quotes. -/
theorem visible_eq_some_iff {p : LinePatterns} (hp : ∀ t, p.allows t = !t.contains '\'')
    {s : UciSection} {name value : Text} :
    p.visible s name = some value ↔ s.values name = some [value] ∧ '\'' ∉ value := by
  rw [LinePatterns.visible, Option.filter_eq_some_iff, hp]
  constructor
  · rintro ⟨hinner, hquote⟩
    obtain ⟨values, hvalues, rfl⟩ := Option.map_eq_some_iff.mp hinner
    have hnot : '\'' ∉ innerValues values := by simpa using hquote
    cases values with
    | nil =>
      obtain ⟨o, ho, hempty⟩ := Option.map_eq_some_iff.mp hvalues
      exact absurd hempty o.nonempty
    | cons a rest =>
      cases rest with
      | nil =>
        rw [innerValues, List.map_singleton, join_singleton, quote_mem_escapeValue_iff] at hnot
        rw [innerValues, List.map_singleton, join_singleton, escapeValue_of_notMem hnot]
        exact ⟨hvalues, hnot⟩
      | cons b rest => exact absurd (quote_mem_innerValues a b rest) hnot
  · rintro ⟨hvalues, hnot⟩
    have hinner : innerValues [value] = value := by
      rw [innerValues, List.map_singleton, join_singleton, escapeValue_of_notMem hnot]
    rw [hvalues, Option.map_some, hinner]
    exact ⟨rfl, by simpa using hnot⟩

/-- What is stored under a name before the options are read. -/
def Reader.initial (r : Reader α) (s : UciSection) (name : Text) : Option α :=
  (r.start s).bind (get? name)

/-- What the reader stores for an option of a section. -/
def Reader.lookup (r : Reader α) (s : UciSection) (name : Text) : Option α :=
  (r.fields s).bind (get? name)

theorem get?_foldl_addOption (r : Reader α) (name : Text) (options : List UciOption)
    (hnodup : (options.map UciOption.name).Nodup) (fields : Option (Dict Text α)) :
    (options.foldl r.addOption fields).bind (get? name) =
      match ((((options.find? fun o => o.name = name).map UciOption.values).map
          innerValues).filter r.allows) with
      | some value => some (r.put (fields.bind (get? name)) value)
      | none => fields.bind (get? name) := by
  induction options generalizing fields with
  | nil => rfl
  | cons o options ih =>
    have htail := (List.nodup_cons.mp hnodup).2
    rw [List.foldl_cons, ih htail]
    by_cases ho : o.name = name
    · have hnone : (options.find? fun o => o.name = name) = none := by
        rw [List.find?_eq_none]
        intro other hother hname
        have heq : other.name = name := by simpa using hname
        exact (List.nodup_cons.mp hnodup).1 (ho.trans heq.symm ▸ List.mem_map_of_mem hother)
      rw [hnone, List.find?_cons_of_pos (by simp [ho])]
      unfold Reader.addOption
      cases hallows : r.allows (innerValues o.values) with
      | false => simp [Option.filter_some, hallows]
      | true => cases fields <;> simp [Option.filter_some, hallows, ho]
    · have hstep : (r.addOption fields o).bind (get? name) = fields.bind (get? name) := by
        unfold Reader.addOption
        split
        · rw [Option.bind_some, get?_set_of_ne (Ne.symm ho)]
          cases fields <;> rfl
        · rfl
      rw [hstep, List.find?_cons_of_neg (by simp [ho])]

/-- The stored value is made from what the pattern captures. -/
theorem lookup_eq (r : Reader α) (s : UciSection) (name : Text) :
    r.lookup s name =
      match r.visible s name with
      | some value => some (r.put (r.initial s name) value)
      | none => r.initial s name :=
  get?_foldl_addOption r name s.options s.nodup (r.start s)

/-- Under any other name than `_type` there is nothing at first. -/
theorem initial_of_ne (r : Reader α) (s : UciSection) {name : Text} (h : name ≠ typeKey) :
    r.initial s name = none := by
  unfold Reader.initial Reader.start
  split
  · rw [Option.bind_some, get?, if_neg (Ne.symm h), get?_nil]
  · rfl

theorem initial_typeKey (r : Reader α) {s : UciSection} (h : s.type.all r.isTypeChar = true) :
    r.initial s typeKey = some (r.typed s.type) := by
  rw [Reader.initial, Reader.start, if_pos h, Option.bind_some, get?, if_pos rfl]

/-- A section whose type is matched is noticed. -/
theorem fields_isSome (r : Reader α) {s : UciSection} (h : s.type.all r.isTypeChar = true) :
    (r.fields s).isSome = true := by
  have hrun : ∀ (options : List UciOption) (fields : Option (Dict Text α)),
      fields.isSome = true → (options.foldl r.addOption fields).isSome = true := by
    intro options
    induction options with
    | nil => exact fun _ hsome => hsome
    | cons o options ih =>
      intro fields hsome
      refine ih _ ?_
      unfold Reader.addOption
      split
      · rfl
      · exact hsome
  refine hrun s.options _ ?_
  rw [Reader.start, if_pos h]
  rfl

/-- Setting an option leaves what is stored under other names. -/
theorem lookup_setOption_of_ne (r : Reader α) (s : UciSection) {option : UciOption} {name : Text}
    (h : name ≠ option.name) : r.lookup (s.setOption option) name = r.lookup s name := by
  have hvisible : r.visible (s.setOption option) name = r.visible s name := by
    rw [LinePatterns.visible, values_setOption_of_ne s h, LinePatterns.visible]
  rw [lookup_eq, lookup_eq, hvisible]
  rfl

/-- The dictionary of a section, empty when the reader does not notice it. -/
theorem get?_fields_getD (r : Reader α) (s : UciSection) (name : Text) :
    get? name ((r.fields s).getD []) = r.lookup s name := by
  rw [Reader.lookup]
  cases r.fields s <;> rfl

/-- The sections that store a value under a name. -/
theorem filter_items [DecidableEq α] (r : Reader α) (name : Text) (value : α)
    (sections : List UciSection) :
    (r.items sections).filter (fun item => get? name item.2 = some value) =
      (sections.filter fun s => r.lookup s name = some value).map fun s =>
        (s.key, (r.fields s).getD []) := by
  induction sections with
  | nil => rfl
  | cons s sections ih =>
    have hitems : r.items (s :: sections) =
        ((r.fields s).map fun fields => (s.key, fields)).toList ++ r.items sections := by
      rw [Reader.items, List.filterMap_cons]
      cases r.fields s <;> rfl
    rw [hitems, List.filter_append, ih]
    cases hfields : r.fields s with
    | none => simp [Reader.lookup, hfields]
    | some fields =>
      by_cases hvalue : get? name fields = some value
      · simp [Reader.lookup, hfields, hvalue]
      · simp [Reader.lookup, hfields, hvalue]

/-- The items of a package, one by one. -/
theorem mem_items_iff {r : Reader α} {sections : List UciSection} {key : Text}
    {fields : Dict Text α} :
    (key, fields) ∈ r.items sections ↔
      ∃ s ∈ sections, s.key = key ∧ r.fields s = some fields := by
  rw [Reader.items, List.mem_filterMap]
  constructor
  · rintro ⟨s, hs, hitem⟩
    obtain ⟨fields', hfields, heq⟩ := Option.map_eq_some_iff.mp hitem
    obtain ⟨hkey, rfl⟩ := Prod.mk.inj heq
    exact ⟨s, hs, hkey, hfields⟩
  · rintro ⟨s, hs, rfl, hfields⟩
    exact ⟨s, hs, by rw [hfields]; rfl⟩

/-! ## What is made of the sections -/

variable {ε β γ : Type}

theorem except_bind_eq_ok {x : Except ε β} {f : β → Except ε γ} {c : γ} :
    (x >>= f) = .ok c ↔ ∃ b, x = .ok b ∧ f b = .ok c := by
  cases x with
  | error e => simp [bind, Except.bind]
  | ok b => simp [bind, Except.bind]

theorem except_ok_bind (b : β) (f : β → Except ε γ) : ((.ok b : Except ε β) >>= f) = f b := rfl

/-- What a function that may fail makes of each section, in order. -/
def collect (entry : Text → Dict Text α → Except ε (Option β)) :
    Dict Text (Dict Text α) → Except ε (List β)
  | [] => .ok []
  | (key, fields) :: rest => do
      let e ← entry key fields
      let entries ← collect entry rest
      return e.toList ++ entries

variable {entry : Text → Dict Text α → Except ε (Option β)}

/-- Everything can be collected when each section can. -/
theorem collect_isOk_iff {sections : Dict Text (Dict Text α)} :
    (∃ entries, collect entry sections = .ok entries) ↔
      ∀ item ∈ sections, ∃ e, entry item.1 item.2 = .ok e := by
  induction sections with
  | nil => simp [collect]
  | cons item sections ih =>
    obtain ⟨key, fields⟩ := item
    rw [List.forall_mem_cons, ← ih]
    constructor
    · rintro ⟨entries, h⟩
      obtain ⟨e, he, h⟩ := except_bind_eq_ok.mp h
      obtain ⟨rest, hrest, _⟩ := except_bind_eq_ok.mp h
      exact ⟨⟨e, he⟩, rest, hrest⟩
    · rintro ⟨⟨e, he⟩, rest, hrest⟩
      exact ⟨_, except_bind_eq_ok.mpr ⟨e, he, except_bind_eq_ok.mpr ⟨rest, hrest, rfl⟩⟩⟩

/-- What is collected comes from the sections, one by one. -/
theorem collect_eq_filterMap {sections : Dict Text (Dict Text α)} {entries : List β}
    (h : collect entry sections = .ok entries) :
    entries = sections.filterMap fun item => (entry item.1 item.2).toOption.join := by
  induction sections generalizing entries with
  | nil => exact (Except.ok.inj h).symm
  | cons item sections ih =>
    obtain ⟨key, fields⟩ := item
    obtain ⟨e, he, h⟩ := except_bind_eq_ok.mp h
    obtain ⟨rest, hrest, h⟩ := except_bind_eq_ok.mp h
    obtain rfl := Except.ok.inj h
    rw [ih hrest, List.filterMap_cons, he]
    cases e <;> rfl

theorem mem_collect {sections : Dict Text (Dict Text α)} {entries : List β}
    (h : collect entry sections = .ok entries) (e : β) :
    e ∈ entries ↔ ∃ item ∈ sections, entry item.1 item.2 = .ok (some e) := by
  have hentry : ∀ x : Except ε (Option β), x.toOption.join = some e ↔ x = .ok (some e) := by
    intro x
    cases x with
    | error failure => simp [Except.toOption]
    | ok made => cases made <;> simp [Except.toOption]
  rw [collect_eq_filterMap h, List.mem_filterMap]
  simp only [hentry]

/-- What becomes of one section of a package. -/
def Reader.made (r : Reader α) (entry : Text → Dict Text α → Except ε (Option β))
    (s : UciSection) : Except ε (Option β) :=
  match r.fields s with
  | some fields => entry s.key fields
  | none => .ok none

theorem collect_items_isOk_iff {r : Reader α} {sections : List UciSection} :
    (∃ entries, collect entry (r.items sections) = .ok entries) ↔
      ∀ s ∈ sections, ∃ e, r.made entry s = .ok e := by
  rw [collect_isOk_iff]
  constructor
  · intro h s hs
    rw [Reader.made]
    cases hfields : r.fields s with
    | none => exact ⟨none, rfl⟩
    | some fields => exact h _ (mem_items_iff.mpr ⟨s, hs, rfl, hfields⟩)
  · intro h item hitem
    obtain ⟨s, hs, hkey, hfields⟩ := mem_items_iff.mp hitem
    obtain ⟨e, he⟩ := h s hs
    rw [Reader.made, hfields] at he
    exact ⟨e, hkey ▸ he⟩

theorem collect_items_eq {r : Reader α} {sections : List UciSection} {entries : List β}
    (h : collect entry (r.items sections) = .ok entries) :
    entries = sections.filterMap fun s => (r.made entry s).toOption.join := by
  rw [collect_eq_filterMap h, Reader.items, List.filterMap_filterMap]
  refine List.filterMap_congr fun s _ => ?_
  rw [Reader.made]
  cases r.fields s with
  | none => rfl
  | some fields => rfl

end OpenWrtCopilot.Verified.UciReading
