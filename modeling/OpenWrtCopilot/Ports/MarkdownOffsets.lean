import OpenWrtCopilot.Ports.KnowledgeChunking
import OpenWrtCopilot.Ports.MarkdownParser

/-!
# Offsets of headings

The parser searches the text of a heading, as it is written, in a text without markup whose lines
are normalised.  Here each character of that text is traced to the heading it comes from, so that
the line of a heading is known however often its words occur.

## Main results

* `join_searchedLines`, `text_parse` — the traced lines are those of the texts.
* `located_iff` — exactly when the offsets are those of the headings' own lines, and the sections
  of the heading strategy begin there.
* `earlier_words` — words before a heading that are the heading's.
-/

namespace OpenWrtCopilot.Ports.MarkdownOffsets

open Verified
open Verified.PySub (At findFrom findFrom_eq_some_iff)
open Verified.PyText
open Ports.KnowledgeChunking (Heading WholeWords boundaries sections)
open Ports.KnowledgeText
open Ports.MarkdownParser

/-! ## Traced characters -/

/-- A character, with the number of the heading that it comes from. -/
abbrev Traced := Char × Option Nat

/-- The lines, with the numbers of headings. -/
def number : Nat → List (Option HeadingRecord × Text) → List (Option Nat × Text)
  | _, [] => []
  | k, (some _, line) :: rest => (some k, line) :: number (k + 1) rest
  | k, (none, line) :: rest => (none, line) :: number k rest

/-- The characters of a line. -/
def traceLine (line : Option Nat × Text) : List Traced := line.2.map fun c => (c, line.1)

/-- The lines together, without markup. -/
def traced (text : Text) : List Traced :=
  stripMarkup Prod.fst ([('\n', none)].intercalate ((number 0 (readLines text)).map traceLine))

/-- A line is the own line of the heading that it begins with a character of. -/
def owned (line : List Traced) : Option Nat × Text :=
  (line.head?.bind Prod.snd, line.map Prod.fst)

/-- Lines as `normalize_text` leaves them. -/
def normalizeLines (nfc : NormalForm) (lines : List (Option Nat × Text)) :
    List (Option Nat × Text) :=
  tidy Prod.snd (lines.map fun line => (line.1, cleanLine nfc line.2))

/-- The lines of the text that is searched. -/
def searchedLines (nfc : NormalForm) (text : Text) : List (Option Nat × Text) :=
  normalizeLines nfc (((traced text).splitOnP (·.1 == '\n')).map owned)

/-- The lines of the document; its text is normalised once more. -/
def documentLines (nfc : NormalForm) (text : Text) : List (Option Nat × Text) :=
  normalizeLines nfc (searchedLines nfc text)

/-- Where the own line of a heading starts. -/
def lineStart (k : Nat) : List (Option Nat × Text) → Option Nat
  | [] => none
  | (owner, line) :: rest =>
      if owner = some k then some 0 else (lineStart k rest).map (line.length + 1 + ·)

/-! ## The property and the condition -/

/-- A record as the chunk strategies read it. -/
def entry (heading : HeadingRecord) : Heading where
  text := heading.text
  offset := heading.offset.map Int.ofNat

/-- Every heading has the offset of its own line; the offsets increase; sections start there and
nowhere else, but at the start of the text; no word is split. -/
structure Located (nfc : NormalForm) (text : Text) (document : KnowledgeDocument) : Prop where
  offsets : ∀ k heading, document.headings[k]? = some heading →
    ∃ start, heading.offset = some start ∧ lineStart k (documentLines nfc text) = some start
  increasing : document.headings.Pairwise fun heading later =>
    ∀ i ∈ heading.offset, ∀ j ∈ later.offset, i < j
  starts : document.headings ≠ [] → ∀ b : Int,
    (∃ stop, (b, stop) ∈ sections (boundaries document.text (document.headings.map entry))) ↔
      b = 0 ∨ ∃ k < document.headings.length, ∃ start : Nat,
        lineStart k (documentLines nfc text) = some start ∧ b = start
  whole : WholeWords document.text (document.headings.map entry)

/-- Every heading, from a number and a position on, has a line of its own; its text stands there
as it is written, and not between the heading before it and its line. -/
def Found (start : Nat → Option Nat) (searched : Text) : Nat → Nat → List HeadingRecord → Prop
  | _, _, [] => True
  | cursor, k, heading :: rest =>
      ∃ s, start k = some s ∧ cursor ≤ s ∧ At heading.text searched s ∧
        (∀ i, cursor ≤ i → i < s → ¬ At heading.text searched i) ∧
        Found start searched (s + heading.text.length) (k + 1) rest

/-! ## The traced lines -/

theorem map_traceLine (line : Option Nat × Text) : (traceLine line).map Prod.fst = line.2 := by
  rw [traceLine, List.map_map]
  exact List.map_id line.2

theorem map_number (k : Nat) (lines : List (Option HeadingRecord × Text)) :
    (number k lines).map Prod.snd = lines.map Prod.snd := by
  induction lines generalizing k with
  | nil => rfl
  | cons read rest ih =>
    obtain ⟨heading, line⟩ := read
    cases heading with
    | some heading => exact congrArg (line :: ·) (ih (k + 1))
    | none => exact congrArg (line :: ·) (ih k)

/-- The traced text is the text. -/
theorem map_traced (text : Text) : (traced text).map Prod.fst = merged text := by
  have hlines : ((number 0 (readLines text)).map traceLine).map (List.map Prod.fst) =
      (readLines text).map Prod.snd := by
    rw [List.map_map, ← map_number 0]
    exact List.map_congr_left fun line _ => map_traceLine line
  rw [traced, map_stripMarkup, PySplit.map_intercalate, hlines, merged]
  rfl

/-- A heading's own line is not empty. -/
theorem mem_number {k j : Nat} {line : Text} {lines : List (Option HeadingRecord × Text)}
    (hread : ∀ read ∈ lines, ∀ heading ∈ read.1, heading.text = read.2)
    (h : (some k, line) ∈ number j lines) :
    j ≤ k ∧ ∃ heading, (lines.filterMap Prod.fst)[k - j]? = some heading ∧ heading.text = line := by
  induction lines generalizing j with
  | nil => exact absurd h List.not_mem_nil
  | cons read rest ih =>
    have hrest := fun read' hmem => hread read' (List.mem_cons_of_mem read hmem)
    obtain ⟨heading, text⟩ := read
    cases heading with
    | none => exact ih hrest ((List.mem_cons.mp h).resolve_left nofun)
    | some heading =>
      obtain heq | h := List.mem_cons.mp h
      · obtain ⟨hk, rfl⟩ := Prod.mk.inj heq
        obtain rfl := Option.some.inj hk
        refine ⟨le_refl k, heading, ?_, hread _ List.mem_cons_self heading rfl⟩
        rw [Nat.sub_self]
        rfl
      · obtain ⟨hle, found, hget, htext⟩ := ih hrest h
        refine ⟨by omega, found, ?_, htext⟩
        rw [show k - j = k - (j + 1) + 1 by omega]
        exact hget

/-- Each line is without markup what a line was, and carries its owner. -/
theorem map_owned (text : Text) :
    (((traced text).splitOnP (·.1 == '\n')).map owned).map Prod.snd =
      PySplit.splitOn ['\n'] (merged text) := by
  rw [PySplit.splitOn_eq_splitOnP, ← map_traced, ← PySplit.map_splitOnP Prod.fst, List.map_map]
  rfl

theorem unbroken_merged {text line : Text} (h : line ∈ PySplit.splitOn ['\n'] (merged text)) :
    Unbroken line := by
  intro c hc
  have hnewline : '\n' ∉ line := PySplit.notMem_splitFrom List.not_mem_nil h
  refine ⟨fun heq => hnewline (heq ▸ hc), fun heq => ?_⟩
  have hsplit : c ∈ merged text := by
    rw [PySplit.splitOn_eq_splitOnP] at h
    exact PySplit.subset_splitOnP h hc
  have hjoin := (stripMarkup_sublist _).subset hsplit
  obtain hsep | ⟨t, ht, hmem⟩ := mem_join hjoin
  · rw [heq] at hsep
    exact absurd hsep (by decide)
  · obtain ⟨read, hread, rfl⟩ := List.mem_map.mp ht
    exact (unbroken_readLine hread c hmem).2 heq

theorem map_normalizeLines (nfc : NormalForm) (lines : List (Option Nat × Text)) :
    (normalizeLines nfc lines).map Prod.snd =
      tidy id ((lines.map Prod.snd).map (cleanLine nfc)) := by
  rw [normalizeLines, map_tidy, List.map_map, List.map_map]
  rfl

/-- Normalised lines are the lines of the normalised text. -/
theorem join_normalizeLines (nfc : NormalForm) {lines : List (Option Nat × Text)}
    (hlines : ∀ line ∈ lines.map Prod.snd, Unbroken line) :
    join ['\n'] ((normalizeLines nfc lines).map Prod.snd) =
      normalizeText nfc (join ['\n'] (lines.map Prod.snd)) := by
  rw [map_normalizeLines]
  by_cases hnil : lines.map Prod.snd = []
  · rw [hnil, join_nil, normalizeText_nil]
    rfl
  · rw [normalizeText_join nfc hlines hnil]

theorem unbroken_normalizeLines (nfc : NormalForm) {lines : List (Option Nat × Text)}
    (hlines : ∀ line ∈ lines.map Prod.snd, Unbroken line) :
    ∀ line ∈ (normalizeLines nfc lines).map Prod.snd, Unbroken line := by
  intro line hline
  rw [map_normalizeLines] at hline
  obtain ⟨before, hbefore, rfl⟩ := List.mem_map.mp (tidy_subset id _ hline)
  exact (hlines before hbefore).cleanLine nfc

/-- The traced lines are those of the text that is searched. -/
theorem join_searchedLines (nfc : NormalForm) (text : Text) :
    join ['\n'] ((searchedLines nfc text).map Prod.snd) = normalizeText nfc (merged text) := by
  rw [searchedLines, join_normalizeLines nfc, map_owned, PySplit.join_splitOn (by decide)]
  intro line hline
  rw [map_owned] at hline
  exact unbroken_merged hline

/-- The traced lines are those of the document. -/
theorem text_parse (nfc : NormalForm) (sha1 : Text → Text) (text reference source : Text) :
    (parse nfc sha1 text reference source).text =
      join ['\n'] ((documentLines nfc text).map Prod.snd) := by
  have hsearched : ∀ line ∈ (searchedLines nfc text).map Prod.snd, Unbroken line := by
    refine unbroken_normalizeLines nfc fun line hline => ?_
    rw [map_owned] at hline
    exact unbroken_merged hline
  rw [documentLines, join_normalizeLines nfc hsearched, join_searchedLines]
  rw [parse, normalizeWithOffsets]

/-! ## Where lines start -/

/-- A heading that has a line of its own has a text. -/
theorem exists_of_lineStart {nfc : NormalForm} {text : Text} {k start : Nat}
    (h : lineStart k (documentLines nfc text) = some start) :
    ∃ heading, (records text)[k]? = some heading ∧ heading.text ≠ [] := by
  have hmem : ∀ lines : List (Option Nat × Text), ∀ start, lineStart k lines = some start →
      some k ∈ lines.map Prod.fst := by
    intro lines
    induction lines with
    | nil => exact fun _ h => nomatch h
    | cons line rest ih =>
      intro start h
      obtain ⟨owner, line⟩ := line
      rw [lineStart] at h
      by_cases howner : owner = some k
      · exact List.mem_cons.mpr (Or.inl howner.symm)
      · rw [if_neg howner] at h
        obtain ⟨before, hbefore, -⟩ := Option.map_eq_some_iff.mp h
        exact List.mem_cons_of_mem owner (ih before hbefore)
  have howners : ∀ lines : List (Option Nat × Text),
      (normalizeLines nfc lines).map Prod.fst ⊆ lines.map Prod.fst := by
    intro lines owner howner
    obtain ⟨line, hline, rfl⟩ := List.mem_map.mp howner
    obtain ⟨before, hbefore, rfl⟩ := List.mem_map.mp (tidy_subset Prod.snd _ hline)
    exact List.mem_map.mpr ⟨before, hbefore, rfl⟩
  have howned := howners _ (howners _ (hmem _ start h))
  rw [List.map_map] at howned
  obtain ⟨part, hpart, hhead⟩ := List.mem_map.mp howned
  obtain ⟨x, hx, hnumber⟩ := Option.bind_eq_some_iff.mp hhead
  have htraced := PySplit.subset_splitOnP hpart (List.mem_of_mem_head? hx)
  obtain hsep | ⟨l, hl, hmem⟩ := mem_intercalate ((stripMarkup_sublist _).subset htraced)
  · rw [List.mem_singleton.mp hsep] at hnumber
    cases hnumber
  · obtain ⟨line, hline, rfl⟩ := List.mem_map.mp hl
    obtain ⟨c, hc, rfl⟩ := List.mem_map.mp hmem
    obtain ⟨owner, line⟩ := line
    obtain rfl : owner = some k := hnumber
    have hread : ∀ read ∈ readLines text, ∀ heading ∈ read.1, heading.text = read.2 := by
      intro read hread heading hheading
      obtain ⟨line, -, rfl⟩ := List.mem_map.mp hread
      exact (text_of_readLine hheading).1
    obtain ⟨-, heading, hget, rfl⟩ := mem_number hread hline
    exact ⟨heading, hget, List.ne_nil_of_mem hc⟩

/-- No word goes over the start of a line. -/
theorem between_of_lineStart {k start : Nat} {lines : List (Option Nat × Text)}
    (h : lineStart k lines = some start) :
    Between ((join ['\n'] (lines.map Prod.snd)).take start)
      ((join ['\n'] (lines.map Prod.snd)).drop start) := by
  have hstart : start = 0 ∨ ∃ before after,
      join ['\n'] (lines.map Prod.snd) = before ++ '\n' :: after ∧ start = before.length + 1 := by
    induction lines generalizing start with
    | nil => cases h
    | cons line rest ih =>
      obtain ⟨owner, line⟩ := line
      rw [lineStart] at h
      by_cases howner : owner = some k
      · rw [if_pos howner] at h
        exact Or.inl (Option.some.inj h).symm
      · rw [if_neg howner] at h
        obtain ⟨later, hlater, rfl⟩ := Option.map_eq_some_iff.mp h
        have hne : rest.map Prod.snd ≠ [] := by
          intro hnil
          rw [List.map_eq_nil_iff.mp hnil] at hlater
          cases hlater
        refine Or.inr ?_
        rw [List.map_cons, join_cons_of_ne_nil _ _ hne]
        obtain rfl | ⟨before, after, hjoin, rfl⟩ := ih hlater
        · exact ⟨line, _, List.append_assoc _ _ _, rfl⟩
        · refine ⟨line ++ '\n' :: before, after, ?_, ?_⟩
          · rw [hjoin]
            simp
          · rw [List.length_append, List.length_cons]
            omega
  obtain rfl | ⟨before, after, hjoin, rfl⟩ := hstart
  · exact fun c hc => nomatch hc
  · rw [hjoin]
    intro c hc d _
    left
    have hlast : (before ++ '\n' :: after).take (before.length + 1) = before ++ ['\n'] := by
      rw [List.take_length_add_append]
      rfl
    rw [hlast, List.getLast?_concat] at hc
    obtain rfl := Option.some.inj hc
    decide

/-! ## The search -/

section Search

variable {start : Nat → Option Nat} {searched : Text} {cursor k : Nat} {hs : List HeadingRecord}

/-- Offsets are found where the condition says, one after the other. -/
theorem locate_iff (hnone : ∀ heading ∈ hs, heading.offset = none)
    (htext : ∀ j heading s, hs[j]? = some heading → start (k + j) = some s → heading.text ≠ []) :
    (∀ j heading, (locate searched cursor hs)[j]? = some heading →
      ∃ s, heading.offset = some s ∧ start (k + j) = some s) ↔
        Found start searched cursor k hs := by
  induction hs generalizing cursor k with
  | nil => exact ⟨fun _ => trivial, fun _ j heading h => by cases h⟩
  | cons first rest ih =>
    have hrest : ∀ j heading s, rest[j]? = some heading → start (k + 1 + j) = some s →
        heading.text ≠ [] := by
      intro j heading s hget hs
      rw [Nat.add_right_comm] at hs
      exact htext (j + 1) heading s hget hs
    have ih : ∀ c, _ ↔ Found start searched c (k + 1) rest := fun _ =>
      ih (fun heading hmem => hnone heading (List.mem_cons_of_mem first hmem)) hrest
    have hfind : ∀ s, start k = some s →
        (findFrom first.text searched cursor = some s ↔ cursor ≤ s ∧ At first.text searched s ∧
          ∀ i, cursor ≤ i → i < s → ¬ At first.text searched i) := by
      intro s hs
      have hne := htext 0 first s rfl hs
      rw [findFrom_eq_some_iff]
      exact ⟨fun ⟨hle, _, hat, hfirst⟩ => ⟨hle, hat, hfirst⟩,
        fun ⟨hle, hat, hfirst⟩ => ⟨hle, (hat.lt_length hne).le, hat, hfirst⟩⟩
    rw [Found]
    constructor
    · intro h
      cases hindex : findFrom first.text searched cursor with
      | none =>
        rw [locate, hindex] at h
        obtain ⟨s, hs, _⟩ := h 0 first rfl
        rw [hnone first List.mem_cons_self] at hs
        cases hs
      | some index =>
        rw [locate, hindex] at h
        obtain ⟨s, hs, hstart⟩ := h 0 _ rfl
        obtain rfl := Option.some.inj hs
        obtain ⟨hle, hat, hfirst⟩ := (hfind index hstart).mp hindex
        refine ⟨index, hstart, hle, hat, hfirst, (ih _).mp fun j heading hget => ?_⟩
        rw [Nat.add_right_comm]
        exact h (j + 1) heading hget
    · intro ⟨s, hstart, hle, hat, hfirst, hlater⟩ j heading hget
      rw [locate, (hfind s hstart).mpr ⟨hle, hat, hfirst⟩] at hget
      cases j with
      | zero =>
        obtain rfl := Option.some.inj hget
        exact ⟨s, rfl, hstart⟩
      | succ j =>
        have hoffset := (ih _).mpr hlater j heading hget
        rwa [Nat.add_right_comm] at hoffset

/-- The search only goes on. -/
theorem le_of_mem_locate (hnone : ∀ heading ∈ hs, heading.offset = none) :
    ∀ heading ∈ locate searched cursor hs, ∀ i ∈ heading.offset, cursor ≤ i := by
  induction hs generalizing cursor with
  | nil => exact fun _ hmem => absurd hmem List.not_mem_nil
  | cons first rest ih =>
    have hrest := fun heading hmem => hnone heading (List.mem_cons_of_mem first hmem)
    intro heading hmem i hi
    rw [locate] at hmem
    cases hfind : findFrom first.text searched cursor with
    | none =>
      rw [hfind] at hmem
      obtain rfl | hmem := List.mem_cons.mp hmem
      · rw [hnone heading List.mem_cons_self] at hi
        cases hi
      · exact ih hrest heading hmem i hi
    | some index =>
      rw [hfind] at hmem
      have hle := (findFrom_eq_some_iff.mp hfind).1
      obtain rfl | hmem := List.mem_cons.mp hmem
      · obtain rfl := Option.some.inj hi
        exact hle
      · have hlater := ih hrest heading hmem i hi
        omega

/-- Texts that are not empty are found at increasing offsets. -/
theorem locate_increasing (hnone : ∀ heading ∈ hs, heading.offset = none)
    (htext : ∀ heading ∈ hs, heading.text ≠ []) :
    (locate searched cursor hs).Pairwise fun heading later =>
      ∀ i ∈ heading.offset, ∀ j ∈ later.offset, i < j := by
  induction hs generalizing cursor with
  | nil => exact List.Pairwise.nil
  | cons first rest ih =>
    have hrest := fun heading hmem => hnone heading (List.mem_cons_of_mem first hmem)
    have ih : ∀ c, (locate searched c rest).Pairwise _ := fun _ =>
      ih hrest fun heading hmem => htext heading (List.mem_cons_of_mem first hmem)
    rw [locate]
    cases hfind : findFrom first.text searched cursor with
    | none =>
      refine List.pairwise_cons.mpr ⟨fun later _ i hi => ?_, ih _⟩
      rw [hnone first List.mem_cons_self] at hi
      cases hi
    | some index =>
      refine List.pairwise_cons.mpr ⟨fun later hlater i hi j hj => ?_, ih _⟩
      obtain rfl := Option.some.inj hi
      have hpos := List.length_pos_iff.mpr (htext first List.mem_cons_self)
      have hle := le_of_mem_locate hrest later hlater j hj
      omega

theorem length_locate : (locate searched cursor hs).length = hs.length := by
  induction hs generalizing cursor with
  | nil => rfl
  | cons first rest ih =>
    rw [locate]
    cases findFrom first.text searched cursor with
    | none => exact congrArg (· + 1) ih
    | some index => exact congrArg (· + 1) ih

end Search

/-! ## Sections -/

/-- Sections start at the boundaries but the last. -/
theorem starts_sections {bs : List Int} (hsorted : bs.Pairwise (· < ·)) {b : Int} :
    (∃ stop, (b, stop) ∈ sections bs) ↔ b ∈ bs ∧ ∃ later ∈ bs, b < later := by
  induction bs with
  | nil => exact ⟨fun ⟨_, h⟩ => absurd h List.not_mem_nil, fun h => absurd h.1 List.not_mem_nil⟩
  | cons first rest ih =>
    obtain ⟨hfirst, hrest⟩ := List.pairwise_cons.mp hsorted
    cases rest with
    | nil =>
      refine ⟨fun ⟨_, h⟩ => absurd h List.not_mem_nil, fun ⟨hmem, later, hlater, hlt⟩ => ?_⟩
      rw [List.mem_singleton.mp hmem, List.mem_singleton.mp hlater] at hlt
      exact absurd hlt (lt_irrefl first)
    | cons second rest =>
      have ih := ih hrest
      have hsplit : (∃ stop, (b, stop) ∈ sections (first :: second :: rest)) ↔
          b = first ∨ ∃ stop, (b, stop) ∈ sections (second :: rest) := by
        constructor
        · intro ⟨stop, h⟩
          obtain heq | h := List.mem_cons.mp h
          · exact Or.inl (Prod.mk.inj heq).1
          · exact Or.inr ⟨stop, h⟩
        · rintro (rfl | ⟨stop, h⟩)
          · exact ⟨second, List.mem_cons_self⟩
          · exact ⟨stop, List.mem_cons_of_mem _ h⟩
      rw [hsplit, ih]
      constructor
      · rintro (rfl | ⟨hmem, later, hlater, hlt⟩)
        · exact ⟨List.mem_cons_self, second, List.mem_cons_of_mem _ List.mem_cons_self,
            hfirst second List.mem_cons_self⟩
        · exact ⟨List.mem_cons_of_mem _ hmem, later, List.mem_cons_of_mem _ hlater, hlt⟩
      · intro ⟨hmem, later, hlater, hlt⟩
        obtain rfl | hmem := List.mem_cons.mp hmem
        · exact Or.inl rfl
        · refine Or.inr ⟨hmem, later, (List.mem_cons.mp hlater).resolve_left ?_, hlt⟩
          intro heq
          have hbefore := hfirst b hmem
          omega

/-- The last line that is kept is not blank. -/
theorem last_normalizeLines (nfc : NormalForm) (lines : List (Option Nat × Text)) :
    ∀ line ∈ (normalizeLines nfc lines).getLast?, line.2 ≠ [] := by
  intro line hline hnil
  rw [normalizeLines, tidy] at hline
  have hne := List.ne_nil_of_mem (List.mem_of_getLast? hline)
  rw [List.getLast?_eq_some_getLast hne] at hline
  have hlast := List.rdropWhile_last_not _ _ hne
  rw [Option.some.inj hline] at hlast
  exact hlast (decide_eq_true hnil)

/-- A line starts before the end of the text. -/
theorem lineStart_lt {k start : Nat} {lines : List (Option Nat × Text)}
    (hlast : ∀ line ∈ lines.getLast?, line.2 ≠ []) (h : lineStart k lines = some start) :
    start < (join ['\n'] (lines.map Prod.snd)).length := by
  induction lines generalizing start with
  | nil => cases h
  | cons line rest ih =>
    obtain ⟨owner, line⟩ := line
    rw [lineStart] at h
    by_cases hrest : rest = []
    · subst hrest
      have hpos := List.length_pos_iff.mpr (hlast (owner, line) rfl)
      rw [List.map_cons, List.map_nil, join_singleton]
      split at h
      · obtain rfl := Option.some.inj h
        exact hpos
      · cases h
    · have hmap : rest.map Prod.snd ≠ [] := fun hnil => hrest (List.map_eq_nil_iff.mp hnil)
      obtain ⟨second, others, rfl⟩ := List.exists_cons_of_ne_nil hrest
      rw [List.map_cons, join_cons_of_ne_nil _ _ hmap, List.length_append, List.length_append,
        List.length_singleton]
      split at h
      · obtain rfl := Option.some.inj h
        omega
      · obtain ⟨later, hlater, rfl⟩ := Option.map_eq_some_iff.mp h
        rw [List.getLast?_cons_cons] at hlast
        have hlt := ih hlast hlater
        dsimp only
        omega

/-! ## When headings are located -/

section Located

variable {nfc : NormalForm} {text : Text} {document : KnowledgeDocument}

/-- What the offsets have to be. -/
def Offsets (nfc : NormalForm) (text : Text) (document : KnowledgeDocument) : Prop :=
  ∀ k heading, document.headings[k]? = some heading →
    ∃ start, heading.offset = some start ∧ lineStart k (documentLines nfc text) = some start

theorem Offsets.exists_start (h : Offsets nfc text document) {item : Heading}
    (hitem : item ∈ document.headings.map entry) :
    ∃ k < document.headings.length, ∃ start,
      lineStart k (documentLines nfc text) = some start ∧ item.start = (start : Int) := by
  obtain ⟨heading, hmem, rfl⟩ := List.mem_map.mp hitem
  obtain ⟨k, hk, hget⟩ := List.mem_iff_getElem.mp hmem
  obtain ⟨start, hoffset, hstart⟩ := h k heading (List.getElem?_eq_some_iff.mpr ⟨hk, hget⟩)
  refine ⟨k, hk, start, hstart, ?_⟩
  rw [Heading.start, entry, hoffset]
  rfl

theorem Offsets.exists_item (h : Offsets nfc text document) {k start : Nat}
    (hk : k < document.headings.length)
    (hstart : lineStart k (documentLines nfc text) = some start) :
    ∃ item ∈ document.headings.map entry, item.start = (start : Int) := by
  obtain ⟨own, hoffset, hown⟩ := h k _ (List.getElem?_eq_getElem hk)
  obtain rfl := Option.some.inj (hown.symm.trans hstart)
  refine ⟨_, List.mem_map.mpr ⟨_, List.getElem_mem hk, rfl⟩, ?_⟩
  rw [Heading.start, entry, hoffset]
  rfl

/-- Sections start at the own lines of headings. -/
theorem Offsets.starts (h : Offsets nfc text document)
    (htext : document.text = join ['\n'] ((documentLines nfc text).map Prod.snd))
    (hne : document.headings ≠ []) (b : Int) :
    (∃ stop, (b, stop) ∈ sections (boundaries document.text (document.headings.map entry))) ↔
      b = 0 ∨ ∃ k < document.headings.length, ∃ start : Nat,
        lineStart k (documentLines nfc text) = some start ∧ b = start := by
  have hlt : ∀ k start, lineStart k (documentLines nfc text) = some start →
      start < document.text.length := by
    intro k start hstart
    rw [htext]
    exact lineStart_lt (last_normalizeLines nfc _) hstart
  rw [starts_sections (KnowledgeChunking.boundaries_sorted _ _)]
  simp only [KnowledgeChunking.mem_boundaries]
  constructor
  · rintro ⟨rfl | ⟨item, hitem, rfl⟩ | rfl, later, hlater, hless⟩
    · exact Or.inl rfl
    · exact Or.inr (h.exists_start hitem)
    · obtain rfl | ⟨item, hitem, rfl⟩ | rfl := hlater
      · omega
      · obtain ⟨k, hk, start, hstart, heq⟩ := h.exists_start hitem
        have hend := hlt k start hstart
        omega
      · exact absurd hless (lt_irrefl _)
  · rintro (rfl | ⟨k, hk, start, hstart, rfl⟩)
    · obtain ⟨heading, rest, hcons⟩ := List.exists_cons_of_ne_nil hne
      have hitem : entry heading ∈ document.headings.map entry :=
        List.mem_map_of_mem (hcons ▸ List.mem_cons_self)
      obtain ⟨k, hk, start, hstart, -⟩ := h.exists_start hitem
      have hend := hlt k start hstart
      exact ⟨Or.inl rfl, _, Or.inr (Or.inr rfl), by omega⟩
    · have hend := hlt k start hstart
      exact ⟨Or.inr (Or.inl (h.exists_item hk hstart)), _, Or.inr (Or.inr rfl), by omega⟩

theorem Offsets.whole (h : Offsets nfc text document)
    (htext : document.text = join ['\n'] ((documentLines nfc text).map Prod.snd)) :
    WholeWords document.text (document.headings.map entry) := by
  intro item hitem
  obtain ⟨k, hk, start, hstart, heq⟩ := h.exists_start hitem
  rw [heq, Int.toNat_natCast, htext]
  exact between_of_lineStart hstart

end Located

/-- The search finds each heading's own line exactly if the condition holds. -/
theorem offsets_iff (nfc : NormalForm) (sha1 : Text → Text) (text reference source : Text) :
    Offsets nfc text (parse nfc sha1 text reference source) ↔
      Found (fun k => lineStart k (documentLines nfc text)) (normalizeText nfc (merged text)) 0 0
        (records text) := by
  rw [Offsets, headings_parse, ← locate_iff fun heading hmem => offset_of_mem_records hmem]
  · simp only [Nat.zero_add]
  · intro k heading start hget hstart
    rw [Nat.zero_add] at hstart
    obtain ⟨own, hown, hne⟩ := exists_of_lineStart hstart
    obtain rfl := Option.some.inj (hget.symm.trans hown)
    exact hne

/-- **The offsets are those of the headings' own lines, in increasing order, and sections start
there and split no word, exactly if each heading has a line of its own, its text stands there as
it is written, and it does not stand between the heading before it and that line.** -/
theorem located_iff (nfc : NormalForm) (sha1 : Text → Text) (text reference source : Text) :
    Located nfc text (parse nfc sha1 text reference source) ↔
      Found (fun k => lineStart k (documentLines nfc text)) (normalizeText nfc (merged text)) 0 0
        (records text) := by
  rw [← offsets_iff nfc sha1 text reference source]
  refine ⟨fun h => h.offsets, fun h => ⟨h, ?_, ?_, ?_⟩⟩
  · rw [Offsets, headings_parse] at h
    rw [headings_parse]
    refine locate_increasing (fun heading hmem => offset_of_mem_records hmem) fun heading hmem => ?_
    obtain ⟨k, hk, hget⟩ := List.mem_iff_getElem.mp hmem
    have hlocated := hk
    rw [← length_locate] at hlocated
    obtain ⟨start, -, hstart⟩ := h k _ (List.getElem?_eq_getElem hlocated)
    obtain ⟨own, hown, hne⟩ := exists_of_lineStart hstart
    rw [List.getElem?_eq_getElem hk, hget] at hown
    obtain rfl := Option.some.inj hown
    exact hne
  · exact h.starts (text_parse nfc sha1 text reference source)
  · exact h.whole (text_parse nfc sha1 text reference source)

/-- Every line is in the normal form. -/
def asIs : NormalForm where
  line t := t
  unbroken _ h := h
  line_nil := rfl

/-- The words of a heading stand in a line before it. -/
theorem earlier_words :
    ¬ ∀ (nfc : NormalForm) (sha1 : Text → Text) (text reference source : Text),
      Located nfc text (parse nfc sha1 text reference source) := by
  intro h
  have hlocated := h asIs id "the Setup guide\n\n# Setup\n".toList [] []
  have hheadings : (parse asIs id "the Setup guide\n\n# Setup\n".toList [] []).headings[0]? =
      some { text := "Setup".toList, level := 1, offset := some 4 } := by
    rfl
  have hline : lineStart 0 (documentLines asIs "the Setup guide\n\n# Setup\n".toList) = some 17 := by
    rfl
  obtain ⟨start, hoffset, hstart⟩ := hlocated.offsets 0 _ hheadings
  rw [hline, ← hoffset] at hstart
  exact absurd hstart (by decide)

end OpenWrtCopilot.Ports.MarkdownOffsets
