import Mathlib
import OpenWrtCopilot.Verified.PyText

/-!
# UCI configurations

OpenWrt keeps its configuration in packages of typed sections with options.  A
section is named or anonymous; an anonymous one is referred to as `@type[n]`.
An option holds one value, or the values of a list.

`showLines` is what `uci show <package>` prints: a line for each section and one
for each of its options, the values between single quotes.  Identifiers hold
letters, digits and `_` (a type `-`, too), and a value is a single line of text.

## Main results

* `splitlines_showText` — the printed text splits into the printed lines.
* `values_setOption_self`, `values_setOption_of_ne` — `uci set` changes one
  option of one section.
-/

namespace OpenWrtCopilot.Verified.Uci

open Verified.PyText

/-! ## Configurations -/

def isNameChar (c : Char) : Bool := c.isAlphanum || c == '_'

def isTypeChar (c : Char) : Bool := isNameChar c || c == '-'

/-- The name of a section or an option. -/
def ValidName (t : Text) : Prop := t ≠ [] ∧ ∀ c ∈ t, isNameChar c = true

def ValidType (t : Text) : Prop := t ≠ [] ∧ ∀ c ∈ t, isTypeChar c = true

instance (t : Text) : Decidable (ValidName t) := by
  unfold ValidName
  infer_instance

instance (t : Text) : Decidable (ValidType t) := by
  unfold ValidType
  infer_instance

/-- An option: its value, or the values of a list. -/
structure UciOption where
  name : Text
  values : List Text
  validName : ValidName name
  nonempty : values ≠ []
  singleLine : ∀ v ∈ values, SingleLine v

/-- How a section is referred to. -/
inductive Ref
  | named (name : Text)
  /-- `@type[index]`. -/
  | anonymous (index : Nat)
  deriving DecidableEq

def Ref.Valid : Ref → Prop
  | .named name => ValidName name
  | .anonymous _ => True

instance (r : Ref) : Decidable r.Valid := by
  cases r <;> unfold Ref.Valid <;> infer_instance

/-- A section; no two of its options share a name. -/
structure UciSection where
  ref : Ref
  type : Text
  options : List UciOption
  validRef : ref.Valid
  validType : ValidType type
  nodup : (options.map UciOption.name).Nodup

/-- A section without options. -/
def emptySection (ref : Ref) (type : Text) (validRef : ref.Valid) (validType : ValidType type) :
    UciSection :=
  ⟨ref, type, [], validRef, validType, List.nodup_nil⟩

/-- What `uci` calls the section. -/
def UciSection.key (s : UciSection) : Text :=
  match s.ref with
  | .named name => name
  | .anonymous index => '@' :: (s.type ++ '[' :: (natText index ++ [']']))

/-- A package; its sections are told apart by their keys. -/
structure Package where
  sections : List UciSection
  nodup : (sections.map UciSection.key).Nodup

/-- The values of an option of the section, if it has it. -/
def UciSection.values (s : UciSection) (name : Text) : Option (List Text) :=
  (s.options.find? fun o => o.name = name).map UciOption.values

/-! ## Printing -/

/-- A value inside its quotes. -/
def escapeValue (value : Text) : Text :=
  value.flatMap fun c => if c = '\'' then "'\\''" else [c]

/-- What stands between the first and the last quote of an option line. -/
def innerValues (values : List Text) : Text := join "' '" (values.map escapeValue)

def showSection (package : Text) (s : UciSection) : Text :=
  package ++ '.' :: (s.key ++ '=' :: s.type)

def showOption (package : Text) (s : UciSection) (o : UciOption) : Text :=
  package ++ '.' :: (s.key ++ '.' :: (o.name ++ '=' :: '\'' :: (innerValues o.values ++ ['\''])))

/-- The lines of `uci show` about one section. -/
def sectionLines (package : Text) (s : UciSection) : List Text :=
  showSection package s :: s.options.map (showOption package s)

/-- The lines of `uci show <package>`. -/
def showLines (package : Text) (p : Package) : List Text :=
  p.sections.flatMap (sectionLines package)

/-- What `uci show <package>` prints. -/
def showText (package : Text) (p : Package) : Text := unlines (showLines package p)

/-! ## What keys and lines hold -/

theorem printable_of_isTypeChar {c : Char} (h : isTypeChar c = true) :
    0x20 < c.toNat ∧ c.toNat < 0x7f := by
  simp only [isTypeChar, isNameChar, Char.isAlphanum, Char.isAlpha, Char.isUpper, Char.isLower,
    Char.isDigit, Bool.or_eq_true, Bool.and_eq_true, decide_eq_true_eq, beq_iff_eq,
    ge_iff_le, UInt32.le_iff_toNat_le] at h
  rcases h with ((((⟨hlo, hhi⟩ | ⟨hlo, hhi⟩) | ⟨hlo, hhi⟩) | rfl) | rfl)
  · have hlower : 65 ≤ c.toNat := hlo
    have hupper : c.toNat ≤ 90 := hhi
    omega
  · have hlower : 97 ≤ c.toNat := hlo
    have hupper : c.toNat ≤ 122 := hhi
    omega
  · have hlower : 48 ≤ c.toNat := hlo
    have hupper : c.toNat ≤ 57 := hhi
    omega
  · decide
  · decide

theorem isTypeChar_of_isNameChar {c : Char} (h : isNameChar c = true) : isTypeChar c = true := by
  rw [isTypeChar, h, Bool.true_or]

/-- The characters of a key: printable, and neither `=` nor `.` nor a quote. -/
theorem key_chars (s : UciSection) {c : Char} (hc : c ∈ s.key) :
    (0x20 < c.toNat ∧ c.toNat < 0x7f) ∧ c ≠ '=' ∧ c ≠ '.' ∧ c ≠ '\'' := by
  have hword : ∀ {d : Char}, isTypeChar d = true →
      (0x20 < d.toNat ∧ d.toNat < 0x7f) ∧ d ≠ '=' ∧ d ≠ '.' ∧ d ≠ '\'' := by
    intro d hd
    refine ⟨printable_of_isTypeChar hd, ?_, ?_, ?_⟩ <;>
      · rintro rfl
        exact absurd hd (by decide)
  cases href : s.ref with
  | named name =>
    have hvalid := s.validRef
    rw [href] at hvalid
    rw [UciSection.key, href] at hc
    exact hword (isTypeChar_of_isNameChar (hvalid.2 c hc))
  | anonymous index =>
    rw [UciSection.key, href] at hc
    simp only [List.mem_cons, List.mem_append, List.not_mem_nil, or_false] at hc
    rcases hc with rfl | hc | rfl | hc | rfl
    · decide
    · exact hword (s.validType.2 c hc)
    · decide
    · have hrange := range_of_mem_natText hc
      refine ⟨⟨by omega, by omega⟩, ?_, ?_, ?_⟩ <;>
        · rintro rfl
          exact absurd hrange (by decide)
    · decide

theorem key_ne_nil (s : UciSection) : s.key ≠ [] := by
  cases href : s.ref with
  | named name =>
    have hvalid := s.validRef
    rw [href] at hvalid
    rw [UciSection.key, href]
    exact hvalid.1
  | anonymous index =>
    rw [UciSection.key, href]
    exact List.cons_ne_nil _ _

theorem mem_escapeValue {value : Text} {c : Char} (hc : c ∈ escapeValue value) :
    c ∈ value ∨ c = '\'' ∨ c = '\\' := by
  obtain ⟨d, hd, hcd⟩ := List.mem_flatMap.mp hc
  by_cases hquote : d = '\''
  · rw [if_pos hquote] at hcd
    have hchars : ∀ e ∈ "'\\''".toList, e = '\'' ∨ e = '\\' := by decide
    exact Or.inr (hchars c hcd)
  · rw [if_neg hquote, List.mem_singleton] at hcd
    exact Or.inl (hcd ▸ hd)

theorem singleLine_innerValues {values : List Text} (h : ∀ v ∈ values, SingleLine v) :
    SingleLine (innerValues values) := by
  intro c hc
  rcases mem_join hc with hsep | ⟨line, hline, hc⟩
  · have hchars : ∀ d ∈ "' '".toList, isLineBoundary d = false := by decide
    exact hchars c hsep
  · obtain ⟨v, hv, rfl⟩ := List.mem_map.mp hline
    rcases mem_escapeValue hc with hc | rfl | rfl
    · exact h v hv c hc
    · decide
    · decide

theorem singleLine_key (s : UciSection) : SingleLine s.key := by
  intro c hc
  obtain ⟨⟨hlo, hhi⟩, _⟩ := key_chars s hc
  exact isLineBoundary_of_printable (by omega) hhi

theorem singleLine_validType {t : Text} (h : ∀ c ∈ t, isTypeChar c = true) : SingleLine t := by
  intro c hc
  obtain ⟨hlo, hhi⟩ := printable_of_isTypeChar (h c hc)
  exact isLineBoundary_of_printable (by omega) hhi

theorem singleLine_showLines {package : Text} (hpackage : SingleLine package) (p : Package) :
    ∀ line ∈ showLines package p, SingleLine line := by
  intro line hline
  obtain ⟨s, _, hline⟩ := List.mem_flatMap.mp hline
  have hkey := singleLine_key s
  rcases List.mem_cons.mp hline with rfl | hline
  · intro c hc
    simp only [showSection, List.mem_append, List.mem_cons] at hc
    rcases hc with hc | rfl | hc | rfl | hc
    · exact hpackage c hc
    · decide
    · exact hkey c hc
    · decide
    · exact singleLine_validType s.validType.2 c hc
  · obtain ⟨o, _, rfl⟩ := List.mem_map.mp hline
    have hname : ∀ c ∈ o.name, isTypeChar c = true :=
      fun c hc => isTypeChar_of_isNameChar (o.validName.2 c hc)
    intro c hc
    simp only [showOption, List.mem_append, List.mem_cons, List.not_mem_nil, or_false] at hc
    rcases hc with hc | rfl | hc | rfl | hc | rfl | rfl | hc | rfl
    · exact hpackage c hc
    · decide
    · exact hkey c hc
    · decide
    · exact singleLine_validType hname c hc
    · decide
    · decide
    · exact singleLine_innerValues o.singleLine c hc
    · decide

/-- The printed text splits into the printed lines. -/
theorem splitlines_showText {package : Text} (hpackage : SingleLine package) (p : Package) :
    splitlines (showText package p) = showLines package p :=
  splitlines_unlines (singleLine_showLines hpackage p)

theorem isSpace_of_isTypeChar {c : Char} (h : isTypeChar c = true) : isSpace c = false :=
  isSpace_of_printable (printable_of_isTypeChar h).1 (printable_of_isTypeChar h).2

/-- A printed line begins with the name of the package and ends in no blank. -/
theorem showLines_ends {package : Text} {p : Package} {line : Text}
    (hline : line ∈ showLines package p) :
    (∃ rest, line = package ++ '.' :: rest) ∧ ∀ c ∈ line.getLast?, isSpace c = false := by
  obtain ⟨s, _, hline⟩ := List.mem_flatMap.mp hline
  rcases List.mem_cons.mp hline with rfl | hline
  · refine ⟨⟨_, rfl⟩, fun c hc => ?_⟩
    have hlast : (showSection package s).getLast? = s.type.getLast? := by
      have hsplit : showSection package s = (package ++ '.' :: (s.key ++ ['='])) ++ s.type := by
        simp [showSection]
      rw [hsplit, List.getLast?_append_of_ne_nil _ s.validType.1]
    rw [hlast] at hc
    exact isSpace_of_isTypeChar (s.validType.2 c (List.mem_of_mem_getLast? hc))
  · obtain ⟨o, _, rfl⟩ := List.mem_map.mp hline
    refine ⟨⟨_, rfl⟩, fun c hc => ?_⟩
    have hsplit : showOption package s o =
        (package ++ '.' :: (s.key ++ '.' :: (o.name ++ '=' :: '\'' :: innerValues o.values))) ++
          ['\''] := by
      simp [showOption]
    rw [hsplit, List.getLast?_concat] at hc
    obtain rfl := Option.some.inj hc
    decide

/-- Stripping a printed line changes nothing. -/
theorem strip_showLines {package : Text} (hpackage : ValidName package) {p : Package} {line : Text}
    (hline : line ∈ showLines package p) : strip line = line ∧ line ≠ [] := by
  obtain ⟨⟨rest, rfl⟩, hlast⟩ := showLines_ends hline
  obtain ⟨hne, hchars⟩ := hpackage
  cases package with
  | nil => exact absurd rfl hne
  | cons c package =>
    refine ⟨strip_of_ends (List.cons_ne_nil _ _) (fun d hd => ?_) hlast, List.cons_ne_nil _ _⟩
    obtain rfl := Option.some.inj hd
    exact isSpace_of_isTypeChar (isTypeChar_of_isNameChar (hchars c List.mem_cons_self))

theorem map_strip_showLines {package : Text} (hpackage : ValidName package) (p : Package) :
    (showLines package p).map strip = showLines package p := by
  calc (showLines package p).map strip
      = (showLines package p).map id :=
        List.map_congr_left fun line hline => (strip_showLines hpackage hline).1
    _ = showLines package p := List.map_id _

/-! ## Changing an option -/

/-- `options` with one option set to a single value. -/
def setOptions (option : UciOption) : List UciOption → List UciOption
  | [] => [option]
  | o :: rest => if o.name = option.name then option :: rest else o :: setOptions option rest

theorem setOptions_names (option : UciOption) (options : List UciOption) :
    (setOptions option options).map UciOption.name =
      if option.name ∈ options.map UciOption.name then options.map UciOption.name
      else options.map UciOption.name ++ [option.name] := by
  induction options with
  | nil => rfl
  | cons o rest ih =>
    by_cases ho : o.name = option.name
    · rw [setOptions, if_pos ho, if_pos (by simp [ho])]
      simp [ho]
    · rw [setOptions, if_neg ho, List.map_cons, ih]
      by_cases hmem : option.name ∈ rest.map UciOption.name
      · rw [if_pos hmem, if_pos (by simpa using Or.inr (by simpa using hmem))]
        rfl
      · have hnot : option.name ∉ (o :: rest).map UciOption.name := by
          rw [List.map_cons, List.mem_cons, not_or]
          exact ⟨Ne.symm ho, hmem⟩
        rw [if_neg hmem, if_neg hnot]
        rfl

theorem find?_setOptions_self (option : UciOption) (options : List UciOption) :
    (setOptions option options).find? (fun o => o.name = option.name) = some option := by
  induction options with
  | nil => simp [setOptions]
  | cons o rest ih =>
    by_cases ho : o.name = option.name
    · simp [setOptions, ho]
    · simp [setOptions, ho, ih]

theorem find?_setOptions_of_ne {option : UciOption} {name : Text} (h : name ≠ option.name)
    (options : List UciOption) :
    (setOptions option options).find? (fun o => o.name = name) =
      options.find? fun o => o.name = name := by
  induction options with
  | nil => simp [setOptions, Ne.symm h]
  | cons o rest ih =>
    by_cases ho : o.name = option.name
    · have hold : o.name ≠ name := fun hname => h (hname ▸ ho)
      simp [setOptions, ho, Ne.symm h]
    · rw [setOptions, if_neg ho, List.find?_cons, List.find?_cons, ih]

/-- The section with one option set. -/
def UciSection.setOption (s : UciSection) (option : UciOption) : UciSection :=
  { s with
    options := setOptions option s.options
    nodup := by
      rw [setOptions_names]
      split
      · exact s.nodup
      · rename_i hnot
        exact List.Nodup.append s.nodup (List.nodup_singleton _) (by simpa using hnot) }

theorem values_setOption_self (s : UciSection) (option : UciOption) :
    (s.setOption option).values option.name = some option.values := by
  rw [UciSection.values, UciSection.setOption, find?_setOptions_self, Option.map_some]

theorem values_setOption_of_ne (s : UciSection) {option : UciOption} {name : Text}
    (h : name ≠ option.name) : (s.setOption option).values name = s.values name := by
  rw [UciSection.values, UciSection.setOption, find?_setOptions_of_ne h, UciSection.values]

@[simp] theorem key_setOption (s : UciSection) (option : UciOption) :
    (s.setOption option).key = s.key := rfl

/-- `uci set <package>.<key>.<option>=<value>`: the section with that key gets
the option. -/
def Package.setOption (p : Package) (key : Text) (option : UciOption) : Package where
  sections := p.sections.map fun s => if s.key = key then s.setOption option else s
  nodup := by
    have hkeys : (p.sections.map fun s => if s.key = key then s.setOption option else s).map
        UciSection.key = p.sections.map UciSection.key := by
      rw [List.map_map]
      refine List.map_congr_left fun s _ => ?_
      show (if s.key = key then s.setOption option else s).key = s.key
      split <;> rfl
    rw [hkeys]
    exact p.nodup

theorem mem_setOption_iff {p : Package} {key : Text} {option : UciOption} {t : UciSection} :
    t ∈ (p.setOption key option).sections ↔
      ∃ s ∈ p.sections, t = if s.key = key then s.setOption option else s := by
  show t ∈ p.sections.map _ ↔ _
  rw [List.mem_map]
  exact ⟨fun ⟨s, hs, ht⟩ => ⟨s, hs, ht.symm⟩, fun ⟨s, hs, ht⟩ => ⟨s, hs, ht.symm⟩⟩

/-- Two sections of a package with one key are the same. -/
theorem section_unique {p : Package} {s t : UciSection} (hs : s ∈ p.sections)
    (ht : t ∈ p.sections) (hkey : s.key = t.key) : s = t :=
  List.inj_on_of_nodup_map p.nodup hs ht hkey

end OpenWrtCopilot.Verified.Uci
