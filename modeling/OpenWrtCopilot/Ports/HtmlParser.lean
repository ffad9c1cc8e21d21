import OpenWrtCopilot.Ports.MarkdownParser

/-!
# The HTML parser

Ports `HtmlParser`, over the start tags, end tags and text that the `HTMLParser` of the standard
library hands over.  The text is flattened, with a line of hashes for each heading; afterwards the
lines are searched for those that begin with one hash.

## Main results

* `skipDepth_le_iff`, `inTitle_iff` — the state of the extractor, said about the events before.
* `title_run` — the title is the last run of text in a title that is not skipped.
-/

namespace OpenWrtCopilot.Ports.HtmlParser

open Verified
open Verified.PyDict (Dict get?)
open Verified.PySub (find)
open Verified.PyText
open Ports.KnowledgeText (NormalForm normalizeText)
open Ports.MarkdownParser (MetaValue titleOf)

/-! ## Tags -/

abbrev Tag := Text

/-- `_BLOCK_TAGS`. -/
def blockTags : List Tag :=
  ["p".toList, "div".toList, "li".toList, "ul".toList, "ol".toList, "section".toList,
    "article".toList, "header".toList, "footer".toList, "blockquote".toList, "pre".toList,
    "table".toList, "tr".toList, "h1".toList, "h2".toList, "h3".toList, "h4".toList, "h5".toList,
    "h6".toList, "br".toList]

/-- `_HEADING_TAGS`. -/
def headingTags : List (Tag × Nat) :=
  [("h1".toList, 1), ("h2".toList, 2), ("h3".toList, 3), ("h4".toList, 4), ("h5".toList, 5),
    ("h6".toList, 6)]

/-- `_SKIP_TAGS`. -/
def skipTags : List Tag :=
  ["script".toList, "style".toList, "noscript".toList, "template".toList, "head".toList]

def titleTag : Tag := "title".toList

/-- `_HEADING_TAGS.get(tag)`. -/
def headingLevel (tag : Tag) : Option Nat := get? tag headingTags

/-! ## The extractor -/

/-- What `HTMLParser` hands over; attributes are not read. -/
inductive Event
  | starttag (tag : Tag)
  | endtag (tag : Tag)
  | data (text : Text)
  deriving DecidableEq

/-- `_TextExtractor`. -/
structure Extractor where
  parts : List Text := []
  title : Text := []
  skipDepth : Nat := 0
  inTitle : Bool := false

/-- What `handle_starttag` appends for a tag that is not skipped. -/
def startParts (tag : Tag) : List Text :=
  (if tag = "p".toList then ["\n\n".toList] else if tag ∈ blockTags then [['\n']] else []) ++
    match headingLevel tag with
    | some level => ['\n' :: List.replicate level '#' ++ [' ']]
    | none => []

/-- What `handle_endtag` appends. -/
def endParts (tag : Tag) : List Text := if tag = "p".toList then ["\n\n".toList] else []

/-- `handle_starttag`, `handle_endtag` and `handle_data`. -/
def handle (s : Extractor) : Event → Extractor
  | .starttag tag =>
      if tag ∈ skipTags then { s with skipDepth := s.skipDepth + 1 }
      else
        { s with
          inTitle := if tag = titleTag then true else s.inTitle
          parts := s.parts ++ startParts tag }
  | .endtag tag =>
      if tag ∈ skipTags then { s with skipDepth := s.skipDepth - 1 }
      else
        { s with
          inTitle := if tag = titleTag then false else s.inTitle
          parts := s.parts ++ endParts tag }
  | .data text =>
      if s.skipDepth ≠ 0 then s
      else if s.inTitle = true then { s with title := strip text }
      else { s with parts := s.parts ++ [text] }

/-- `extractor.feed(text)` and `extractor.close()`. -/
def run (events : List Event) : Extractor := events.foldl handle {}

/-! ## Documents -/

/-- A heading record; no offset stands for `-1`. -/
structure HeadingRecord where
  text : Text
  offset : Option Nat
  deriving DecidableEq

/-- The line is taken for a heading: it begins with one hash and has more than hashes. -/
def headingOf (line : Text) : Option Text :=
  let stripped := strip line
  if startsWith "#".toList stripped = true ∧ startsWith "##".toList stripped = false then
    let heading := strip (stripped.dropWhile (· = '#'))
    if heading ≠ [] then some heading else none
  else none

/-- `_normalize_and_scan`. -/
def normalizeAndScan (nfc : NormalForm) (text : Text) : Text × List HeadingRecord :=
  let normalized := normalizeText nfc text
  (normalized, (splitlines normalized).filterMap fun line =>
    (headingOf line).map fun heading =>
      { text := heading, offset := find (strip line) normalized })

/-- `KnowledgeDocument`, without its times. -/
structure KnowledgeDocument where
  id : Text
  source : Text
  reference : Text
  format : Text
  title : Text
  text : Text
  metadata : Dict Text (MetaValue HeadingRecord)

/-- `HtmlParser.parse`, of a document that is split into its events, with `_document`. -/
def parse (nfc : NormalForm) (sha1 : Text → Text) (events : List Event) (reference source : Text) :
    KnowledgeDocument :=
  let extractor := run events
  let (normalized, headings) := normalizeAndScan nfc extractor.parts.flatten
  let metadata : Dict Text (MetaValue HeadingRecord) :=
    PyDict.set "headings".toList (.headings headings) []
  { id := (sha1 ("html:".toList ++ source ++ ":".toList ++ reference)).take 16
    source := source
    reference := reference
    format := "html".toList
    title := if extractor.title ≠ [] then extractor.title else titleOf normalized
    text := normalizeText nfc normalized
    metadata := PyDict.set "format".toList (.text "html".toList) metadata }

/-- `document.metadata["headings"]`. -/
def KnowledgeDocument.headings (document : KnowledgeDocument) : List HeadingRecord :=
  match get? "headings".toList document.metadata with
  | some (.headings records) => records
  | _ => []

theorem parse_text (nfc : NormalForm) (sha1 : Text → Text) (events : List Event)
    (reference source : Text) :
    (parse nfc sha1 events reference source).text =
      normalizeText nfc (normalizeText nfc (run events).parts.flatten) := by
  rw [parse, normalizeAndScan]

theorem parse_title (nfc : NormalForm) (sha1 : Text → Text) (events : List Event)
    (reference source : Text) :
    (parse nfc sha1 events reference source).title =
      if (run events).title ≠ [] then (run events).title
      else titleOf (normalizeText nfc (run events).parts.flatten) := by
  rw [parse, normalizeAndScan]

theorem parse_headings (nfc : NormalForm) (sha1 : Text → Text) (events : List Event)
    (reference source : Text) :
    (parse nfc sha1 events reference source).headings =
      (splitlines (normalizeText nfc (run events).parts.flatten)).filterMap fun line =>
        (headingOf line).map fun heading =>
          { text := heading
            offset := find (strip line) (normalizeText nfc (run events).parts.flatten) } := by
  rw [KnowledgeDocument.headings, parse, normalizeAndScan, PyDict.get?_set_of_ne (by decide),
    PyDict.get?_set_self]

/-! ## The state of the extractor -/

theorem run_concat (before : List Event) (event : Event) :
    run (before ++ [event]) = handle (run before) event := by
  rw [run, run, List.foldl_append]
  rfl

/-- The event begins a skipped element. -/
def isSkipStart : Event → Bool
  | .starttag tag => tag ∈ skipTags
  | _ => false

/-- The event ends a skipped element. -/
def isSkipEnd : Event → Bool
  | .endtag tag => tag ∈ skipTags
  | _ => false

/-- At each point as many skipped elements are ended afterwards as are begun. -/
def Unskipped (before : List Event) : Prop :=
  ∀ later, later <:+ before → later.countP isSkipStart ≤ later.countP isSkipEnd

theorem skipDepth_handle (s : Extractor) (event : Event) :
    (isSkipStart event = true ∧ isSkipEnd event = false ∧
      (handle s event).skipDepth = s.skipDepth + 1) ∨
    (isSkipStart event = false ∧ isSkipEnd event = true ∧
      (handle s event).skipDepth = s.skipDepth - 1) ∨
    isSkipStart event = false ∧ isSkipEnd event = false ∧
      (handle s event).skipDepth = s.skipDepth := by
  cases event with
  | starttag tag =>
    rw [handle]
    by_cases h : tag ∈ skipTags
    · rw [if_pos h]
      exact Or.inl ⟨decide_eq_true h, rfl, rfl⟩
    · rw [if_neg h]
      exact Or.inr (Or.inr ⟨decide_eq_false h, rfl, rfl⟩)
  | endtag tag =>
    rw [handle]
    by_cases h : tag ∈ skipTags
    · rw [if_pos h]
      exact Or.inr (Or.inl ⟨rfl, decide_eq_true h, rfl⟩)
    · rw [if_neg h]
      exact Or.inr (Or.inr ⟨rfl, decide_eq_false h, rfl⟩)
  | data text =>
    refine Or.inr (Or.inr ⟨rfl, rfl, ?_⟩)
    rw [handle]
    split
    · rfl
    · split
      · rfl
      · rfl

/-- The depth is the largest excess of begun elements over ended ones in the last events. -/
theorem skipDepth_le_iff (before : List Event) (n : Nat) :
    (run before).skipDepth ≤ n ↔
      ∀ later, later <:+ before → later.countP isSkipStart ≤ later.countP isSkipEnd + n := by
  induction before using List.reverseRecOn generalizing n with
  | nil =>
    refine iff_of_true (Nat.zero_le n) fun later hlater => ?_
    rw [List.suffix_nil.mp hlater]
    exact Nat.zero_le _
  | append_singleton before event ih =>
    have hlater : (∀ later, later <:+ before ++ [event] →
        later.countP isSkipStart ≤ later.countP isSkipEnd + n) ↔
        ∀ later, later <:+ before →
          later.countP isSkipStart + [event].countP isSkipStart ≤
            later.countP isSkipEnd + [event].countP isSkipEnd + n := by
      simp only [List.suffix_concat_iff]
      constructor
      · intro h later hlater
        have hboth := h (later ++ [event]) (Or.inr ⟨later, rfl, hlater⟩)
        rwa [List.countP_append, List.countP_append] at hboth
      · rintro h _ (rfl | ⟨later, rfl, hlater⟩)
        · exact Nat.zero_le _
        · rw [List.countP_append, List.countP_append]
          exact h later hlater
    rw [run_concat, hlater]
    obtain ⟨hstart, hend, hdepth⟩ | ⟨hstart, hend, hdepth⟩ | ⟨hstart, hend, hdepth⟩ :=
      skipDepth_handle (run before) event
    · rw [hdepth, List.countP_singleton, List.countP_singleton, hstart, hend]
      cases n with
      | zero =>
        refine iff_of_false (Nat.not_succ_le_zero _) fun h => ?_
        have hnil := h [] List.nil_suffix
        exact absurd hnil (by decide)
      | succ n =>
        rw [Nat.succ_le_succ_iff, ih]
        refine forall₂_congr fun _ _ => ?_
        simp only [Bool.false_eq_true, if_true, if_false]
        omega
    · rw [hdepth, List.countP_singleton, List.countP_singleton, hstart, hend, Nat.sub_le_iff_le_add,
        ih]
      refine forall₂_congr fun _ _ => ?_
      simp only [Bool.false_eq_true, if_true, if_false]
      omega
    · rw [hdepth, List.countP_singleton, List.countP_singleton, hstart, hend, ih]
      exact Iff.rfl

theorem unskipped_iff (before : List Event) : Unskipped before ↔ (run before).skipDepth = 0 := by
  rw [← Nat.le_zero, skipDepth_le_iff]
  exact Iff.rfl

/-- A title was begun, and none was ended since. -/
def Titled (before : List Event) : Prop :=
  ∃ first later, before = first ++ .starttag titleTag :: later ∧ .endtag titleTag ∉ later

theorem titled_concat (before : List Event) (event : Event) :
    Titled (before ++ [event]) ↔
      event = .starttag titleTag ∨ event ≠ .endtag titleTag ∧ Titled before := by
  constructor
  · intro ⟨first, later, hsplit, hlater⟩
    induction later using List.reverseRecOn with
    | nil =>
      have hlast := List.append_inj_right' hsplit rfl
      exact Or.inl (List.cons.inj hlast).1
    | append_singleton later last _ =>
      rw [← List.cons_append, ← List.append_assoc] at hsplit
      obtain ⟨hbefore, hlast⟩ := List.append_inj' hsplit rfl
      obtain rfl := (List.cons.inj hlast).1
      refine Or.inr ⟨fun heq => hlater ?_, first, later, hbefore, fun hmem => hlater ?_⟩
      · rw [heq]
        exact List.mem_append_right later (List.mem_singleton_self _)
      · exact List.mem_append_left _ hmem
  · rintro (rfl | ⟨hne, first, later, rfl, hlater⟩)
    · exact ⟨before, [], rfl, List.not_mem_nil⟩
    · refine ⟨first, later ++ [event], by simp, fun hmem => ?_⟩
      obtain hmem | hmem := List.mem_append.mp hmem
      · exact hlater hmem
      · exact hne (List.mem_singleton.mp hmem).symm

theorem inTitle_iff (before : List Event) : (run before).inTitle = true ↔ Titled before := by
  induction before using List.reverseRecOn with
  | nil => exact iff_of_false Bool.false_ne_true fun ⟨first, later, h, _⟩ => by simp at h
  | append_singleton before event ih =>
    have htitle : titleTag ∉ skipTags := by decide
    rw [run_concat, titled_concat, ← ih]
    cases event with
    | starttag tag =>
      rw [handle]
      by_cases htag : tag = titleTag
      · rw [htag, if_neg htitle]
        simp
      · split
        · simp [htag]
        · simp [htag]
    | endtag tag =>
      rw [handle]
      by_cases htag : tag = titleTag
      · rw [htag, if_neg htitle]
        simp
      · split
        · simp [htag]
        · simp [htag]
    | data text =>
      rw [handle]
      split
      · simp
      · split
        · simp
        · simp

/-- A run of text in a title that is not skipped. -/
structure TitleRun (events : List Event) (i : Nat) (text : Text) : Prop where
  text : events[i]? = some (.data text)
  unskipped : Unskipped (events.take i)
  titled : Titled (events.take i)

theorem titleRun_concat {events : List Event} {event : Event} {i : Nat} {text : Text} :
    TitleRun (events ++ [event]) i text ↔
      TitleRun events i text ∨
        i = events.length ∧ event = .data text ∧ Unskipped events ∧ Titled events := by
  constructor
  · intro ⟨htext, hunskipped, htitled⟩
    obtain hlt | rfl | hgt := Nat.lt_trichotomy i events.length
    · rw [List.getElem?_append_left hlt] at htext
      rw [List.take_append_of_le_length hlt.le] at hunskipped htitled
      exact Or.inl ⟨htext, hunskipped, htitled⟩
    · rw [List.getElem?_concat_length] at htext
      rw [List.take_left] at hunskipped htitled
      exact Or.inr ⟨rfl, Option.some.inj htext, hunskipped, htitled⟩
    · rw [List.getElem?_eq_none (by rw [List.length_append, List.length_singleton]; omega)] at htext
      cases htext
  · rintro (⟨htext, hunskipped, htitled⟩ | ⟨rfl, rfl, hunskipped, htitled⟩)
    · obtain ⟨hlt, -⟩ := List.getElem?_eq_some_iff.mp htext
      refine ⟨?_, ?_, ?_⟩
      · rw [List.getElem?_append_left hlt]
        exact htext
      · rw [List.take_append_of_le_length hlt.le]
        exact hunskipped
      · rw [List.take_append_of_le_length hlt.le]
        exact htitled
    · refine ⟨List.getElem?_concat_length, ?_, ?_⟩
      · rw [List.take_left]
        exact hunskipped
      · rw [List.take_left]
        exact htitled

/-- An event changes the title exactly if it is text in a title that is not skipped. -/
theorem title_handle (before : List Event) (event : Event) :
    (∃ text, event = .data text ∧ Unskipped before ∧ Titled before ∧
      (handle (run before) event).title = strip text) ∨
    (∀ text, ¬(event = .data text ∧ Unskipped before ∧ Titled before)) ∧
      (handle (run before) event).title = (run before).title := by
  cases event with
  | starttag tag =>
    refine Or.inr ⟨fun text h => (nomatch h.1), ?_⟩
    rw [handle]
    split
    · rfl
    · rfl
  | endtag tag =>
    refine Or.inr ⟨fun text h => (nomatch h.1), ?_⟩
    rw [handle]
    split
    · rfl
    · rfl
  | data text =>
    rw [unskipped_iff, ← inTitle_iff, handle]
    split
    · next hskip => exact Or.inr ⟨fun _ h => hskip h.2.1, rfl⟩
    · next hskip =>
        split
        · next htitle => exact Or.inl ⟨text, rfl, Classical.not_not.mp hskip, htitle, rfl⟩
        · next htitle => exact Or.inr ⟨fun _ h => htitle h.2.2, rfl⟩

/-- The title is the last of these runs. -/
theorem title_run (events : List Event) :
    (∃ i text, TitleRun events i text ∧ (∀ j later, TitleRun events j later → j ≤ i) ∧
      (run events).title = strip text) ∨
    (∀ i text, ¬ TitleRun events i text) ∧ (run events).title = [] := by
  induction events using List.reverseRecOn with
  | nil => exact Or.inr ⟨fun i text h => (nomatch h.text), rfl⟩
  | append_singleton events event ih =>
    rw [run_concat]
    obtain ⟨text, hevent, hunskipped, htitled, htitle⟩ | ⟨hno, htitle⟩ :=
      title_handle events event
    · refine Or.inl ⟨events.length, text, titleRun_concat.mpr ?_, fun j later hlater => ?_, htitle⟩
      · exact Or.inr ⟨rfl, hevent, hunskipped, htitled⟩
      · obtain ⟨hlt, -⟩ := List.getElem?_eq_some_iff.mp hlater.text
        rw [List.length_append, List.length_singleton] at hlt
        omega
    · have hsame : ∀ i text, TitleRun (events ++ [event]) i text ↔ TitleRun events i text := by
        intro i text
        rw [titleRun_concat]
        exact or_iff_left fun h => hno text h.2
      simp only [hsame, htitle]
      exact ih

end OpenWrtCopilot.Ports.HtmlParser
