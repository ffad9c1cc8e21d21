import OpenWrtCopilot.Ports.HtmlParser
import OpenWrtCopilot.Ports.MarkdownOffsets
import OpenWrtCopilot.Verified.PyLines

/-!
# What is extracted from HTML

The extractor counts skipped elements and keeps a flag for titles.  Here the elements that are
open at each point are read from the same events as HTML has it: an end tag closes what is open
inside, a head ends before what belongs to no head, and a heading ends before another one.  What
they say about titles, headings and visible text is compared with what the extractor makes.

## Main results

* `text_parse` — the lines with the numbers of headings are the lines of the document.
* `extracted_iff` — when title, headings and text are those of the elements.
* `heading_lost` — a heading of the second level that is not in the list.
-/

namespace OpenWrtCopilot.Ports.HtmlExtraction

open Verified
open Verified.PySplit (splitOn)
open Verified.PySub (At find)
open Verified.PyText
open Ports.HtmlParser
open Ports.KnowledgeText
open Ports.MarkdownOffsets (asIs lineStart normalizeLines)
open Ports.MarkdownParser (titleOf)

/-! ## Open elements -/

/-- An element, with the number of the event that begins it. -/
abbrev Element := Tag × Nat

def isHeading (tag : Tag) : Bool := (headingLevel tag).isSome

/-- The elements of a head. -/
def headContents : List Tag :=
  ["head".toList, "title".toList, "meta".toList, "link".toList, "base".toList, "style".toList,
    "script".toList, "noscript".toList, "template".toList]

/-- What is in these elements is no content of the elements around them. -/
def enclosing : List Tag :=
  [titleTag, "style".toList, "script".toList, "noscript".toList, "template".toList]

/-- The first element with the property is closed, with all that is open inside. -/
def close (p : Element → Bool) (opened : List Element) : List Element :=
  if opened.any p = true then (opened.dropWhile (!p ·)).tail else opened

/-- The head is left, unless something is open in it that has contents of its own. -/
def leaveHead (opened : List Element) : List Element :=
  if (opened.takeWhile (·.1 ≠ "head".toList)).all (·.1 ∉ enclosing) = true then
    close (·.1 = "head".toList) opened
  else opened

/-- The elements that are open after one more event, the innermost first. -/
def openedAfter (opened : List Element) (i : Nat) : Event → List Element
  | .starttag tag =>
      let opened := if tag ∈ headContents then opened else leaveHead opened
      let opened := if isHeading tag = true then close (isHeading ·.1) opened else opened
      (tag, i) :: opened
  | .endtag tag => close (fun x => x.1 = tag || (isHeading tag && isHeading x.1)) opened
  | .data text => if strip text ≠ [] then leaveHead opened else opened

/-- The elements that are open after these events. -/
def opened (events : List Event) : List Element :=
  events.zipIdx.foldl (fun opened event => openedAfter opened event.2 event.1) []

/-- What is in these elements is visible. -/
def isVisible (opened : List Element) : Bool := opened.all (·.1 ∉ titleTag :: skipTags)

/-- The runs of text in an element, as far as a condition on the open elements is met. -/
def runsIn (events : List Event) (i : Nat) (p : List Element → Bool) : List Text :=
  (List.range events.length).filterMap fun j =>
    match (events[j]? : Option Event) with
    | some (.data text) =>
        if (opened (events.take (j + 1))).any (·.2 = i) && p (opened (events.take (j + 1))) then
          some text
        else none
    | _ => none

/-- The text of the title element: the first one that is in no template or the like. -/
def titleText (events : List Event) : Text :=
  ((List.range events.length).find? fun i =>
    events[i]? = some (.starttag titleTag) ∧
      (opened (events.take i)).all (·.1 ∉ enclosing) = true).elim []
    fun i => strip (runsIn events i fun _ => true).flatten

/-- The text of a heading, on one line. -/
def headingText (nfc : NormalForm) (events : List Event) (i : Nat) : Text :=
  cleanLine nfc ((runsIn events i isVisible).flatten.map fun c =>
    if c = '\n' ∨ c = '\r' then ' ' else c)

/-- The visible headings that are not empty, with the numbers of their events. -/
def headings (nfc : NormalForm) (events : List Event) : List (Nat × Text) :=
  ((List.range events.length).filter fun i =>
    match (events[i]? : Option Event) with
    | some (.starttag tag) =>
        isHeading tag && isVisible (opened (events.take (i + 1))) && headingText nfc events i ≠ []
    | _ => false).map fun i => (i, headingText nfc events i)

/-! ## What the extractor appends -/

/-- A part of the flattened text; `marker` says that it begins the line of a heading. -/
structure Part where
  event : Nat
  marker : Bool
  text : Text
  deriving DecidableEq

/-- What an event appends. -/
def added (s : Extractor) (i : Nat) : Event → List Part
  | .starttag tag =>
      if tag ∈ skipTags then []
      else (startParts tag).map fun text => { event := i, marker := text.contains '#', text := text }
  | .endtag tag =>
      if tag ∈ skipTags then []
      else (endParts tag).map fun text => { event := i, marker := false, text := text }
  | .data text =>
      if s.skipDepth ≠ 0 ∨ s.inTitle = true then []
      else [{ event := i, marker := false, text := text }]

def addedFrom (s : Extractor) (i : Nat) : List Event → List Part
  | [] => []
  | event :: rest => added s i event ++ addedFrom (handle s event) (i + 1) rest

/-- The parts of the flattened text. -/
def parts (events : List Event) : List Part := addedFrom {} 0 events

/-! ## Lines of headings -/

/-- The flattened text is cut before the lines of headings. -/
def segmentsFrom (current : Option Nat × Text) : List Part → List (Option Nat × Text)
  | [] => [current]
  | part :: rest =>
      if part.marker = true then current :: segmentsFrom (some part.event, part.text.drop 1) rest
      else segmentsFrom (current.1, current.2 ++ part.text) rest

def segments (events : List Event) : List (Option Nat × Text) :=
  segmentsFrom (none, []) (parts events)

/-- The lines of a text as `normalize_text` leaves them, blank ones included. -/
def rawLines (nfc : NormalForm) (t : Text) : List Text :=
  (splitOn ['\n'] (unifyBreaks ((nfc.normalize t).filter fun c => !isControl c))).map fun raw =>
    collapseBlanks (strip raw)

/-- The first line of a segment is that of its heading. -/
def ownLines (nfc : NormalForm) (segment : Option Nat × Text) : List (Option Nat × Text) :=
  match rawLines nfc segment.2 with
  | [] => []
  | first :: rest => (segment.1, first) :: rest.map fun line => (none, line)

/-- The lines of the text that is searched. -/
def searchedLines (nfc : NormalForm) (events : List Event) : List (Option Nat × Text) :=
  tidy Prod.snd ((segments events).flatMap (ownLines nfc))

/-- The lines of the document; its text is normalised once more. -/
def documentLines (nfc : NormalForm) (events : List Event) : List (Option Nat × Text) :=
  normalizeLines nfc (searchedLines nfc events)

/-! ## The property and the condition -/

/-- A run of text that is not blank and stands in the page. -/
structure VisibleRun (events : List Event) (i : Nat) (text : Text) : Prop where
  data : events[i]? = some (.data text)
  nonblank : strip text ≠ []
  visible : isVisible (opened (events.take (i + 1))) = true

/-- The title is that of the title element; the visible runs are among the parts that the text is
made of, in the order of the events; there is a record for each heading, with its text and the
position of its line. -/
structure Extracted (nfc : NormalForm) (events : List Event) (document : KnowledgeDocument) :
    Prop where
  title : titleText events ≠ [] → document.title = titleText events
  text : document.text =
    normalizeText nfc (normalizeText nfc ((parts events).map Part.text).flatten)
  lines : document.text = join ['\n'] ((documentLines nfc events).map Prod.snd)
  order : (parts events).Pairwise (·.event ≤ ·.event)
  runs : ∀ i text, VisibleRun events i text → { event := i, marker := false, text := text } ∈
    parts events
  headings : List.Forall₂ (fun record heading => record.text = heading.2 ∧
    ∃ start, record.offset = some start ∧ lineStart heading.1 (documentLines nfc events) = some start)
    document.headings (headings nfc events)

/-- The flattened text. -/
def searched (nfc : NormalForm) (events : List Event) : Text :=
  normalizeText nfc ((parts events).map Part.text).flatten

/-- The last run of text in a title that is not skipped. -/
structure LastTitleRun (events : List Event) (i : Nat) (text : Text) : Prop where
  run : TitleRun events i text
  last : ∀ j later, TitleRun events j later → j ≤ i

/-- The lines that begin with one hash and have more are those of the headings, one for one: after
the hash stands the heading's text, and the line is not found before the heading's line. -/
structure Clear (nfc : NormalForm) (events : List Event) : Prop where
  title : titleText events ≠ [] →
    (∃ i text, LastTitleRun events i text ∧ strip text = titleText events) ∨
    (∀ i text, LastTitleRun events i text → strip text = []) ∧
      titleOf (searched nfc events) = titleText events
  runs : ∀ i text, VisibleRun events i text →
    Unskipped (events.take i) ∧ ¬ Titled (events.take i)
  headings : List.Forall₂ (fun line heading => headingOf line = some heading.2 ∧
    ∃ start, lineStart heading.1 (documentLines nfc events) = some start ∧
      At (strip line) (searched nfc events) start ∧
      ∀ i < start, ¬ At (strip line) (searched nfc events) i)
    ((splitlines (searched nfc events)).filter fun line => (headingOf line).isSome)
    (headings nfc events)

/-! ## The parts -/

theorem addedFrom_append (s : Extractor) (i : Nat) (before rest : List Event) :
    addedFrom s i (before ++ rest) =
      addedFrom s i before ++ addedFrom (before.foldl handle s) (i + before.length) rest := by
  induction before generalizing s i with
  | nil => rfl
  | cons event before ih =>
    rw [List.cons_append, addedFrom, addedFrom, ih, List.append_assoc, List.foldl_cons,
      List.length_cons, Nat.add_right_comm, Nat.add_assoc i]

theorem parts_concat (before : List Event) (event : Event) :
    parts (before ++ [event]) = parts before ++ added (run before) before.length event := by
  rw [parts, addedFrom_append, addedFrom, addedFrom, List.append_nil, Nat.zero_add]
  rfl

theorem parts_handle (s : Extractor) (i : Nat) (event : Event) :
    (handle s event).parts = s.parts ++ (added s i event).map Part.text := by
  cases event with
  | starttag tag =>
    rw [handle, added]
    split
    · exact (List.append_nil _).symm
    · rw [List.map_map]
      exact congrArg _ (List.map_id _).symm
  | endtag tag =>
    rw [handle, added]
    split
    · exact (List.append_nil _).symm
    · rw [List.map_map]
      exact congrArg _ (List.map_id _).symm
  | data text =>
    rw [handle, added]
    split
    · next hskip =>
        rw [if_pos (Or.inl hskip)]
        exact (List.append_nil _).symm
    · next hskip =>
        split
        · next htitle =>
            rw [if_pos (Or.inr htitle)]
            exact (List.append_nil _).symm
        · next htitle => rw [if_neg (not_or.mpr ⟨hskip, htitle⟩)]; rfl

/-- The parts are those of the extractor. -/
theorem map_parts (events : List Event) : (parts events).map Part.text = (run events).parts := by
  induction events using List.reverseRecOn with
  | nil => rfl
  | append_singleton before event ih =>
    rw [parts_concat, List.map_append, ih, run_concat, parts_handle _ before.length]

theorem event_of_mem_added {s : Extractor} {i : Nat} {event : Event} {part : Part}
    (h : part ∈ added s i event) : part.event = i := by
  cases event with
  | starttag tag =>
    rw [added] at h
    split at h
    · cases h
    · obtain ⟨text, -, rfl⟩ := List.mem_map.mp h
      rfl
  | endtag tag =>
    rw [added] at h
    split at h
    · cases h
    · obtain ⟨text, -, rfl⟩ := List.mem_map.mp h
      rfl
  | data text =>
    rw [added] at h
    split at h
    · cases h
    · rw [List.mem_singleton.mp h]

theorem event_lt_of_mem_parts {events : List Event} {part : Part} (h : part ∈ parts events) :
    part.event < events.length := by
  induction events using List.reverseRecOn with
  | nil => cases h
  | append_singleton before event ih =>
    rw [parts_concat] at h
    rw [List.length_append, List.length_singleton]
    obtain h | h := List.mem_append.mp h
    · exact Nat.lt_succ_of_lt (ih h)
    · rw [event_of_mem_added h]
      exact Nat.lt_succ_self _

/-- The parts are in the order of the events. -/
theorem parts_ordered (events : List Event) : (parts events).Pairwise (·.event ≤ ·.event) := by
  induction events using List.reverseRecOn with
  | nil => exact List.Pairwise.nil
  | append_singleton before event ih =>
    rw [parts_concat]
    refine List.pairwise_append.mpr ⟨ih, ?_, fun part hpart later hlater => ?_⟩
    · exact List.pairwise_of_forall_mem_list fun part hpart later hlater => by
        rw [event_of_mem_added hpart, event_of_mem_added hlater]
    · rw [event_of_mem_added hlater]
      exact (event_lt_of_mem_parts hpart).le

/-- A run is appended exactly if nothing skipped and no title is open for the extractor. -/
theorem mem_parts_iff {events : List Event} {i : Nat} {text : Text}
    (h : events[i]? = some (.data text)) :
    { event := i, marker := false, text := text } ∈ parts events ↔
      Unskipped (events.take i) ∧ ¬ Titled (events.take i) := by
  induction events using List.reverseRecOn with
  | nil => cases h
  | append_singleton before event ih =>
    rw [parts_concat, List.mem_append]
    obtain hlt | rfl | hgt := Nat.lt_trichotomy i before.length
    · rw [List.getElem?_append_left hlt] at h
      rw [List.take_append_of_le_length hlt.le, ← ih h]
      refine or_iff_left fun hadded => ?_
      exact absurd (event_of_mem_added hadded) hlt.ne
    · rw [List.getElem?_concat_length] at h
      obtain rfl := Option.some.inj h
      rw [List.take_left, unskipped_iff, ← inTitle_iff, added]
      refine (or_iff_right fun hbefore => ?_).trans ?_
      · exact absurd (event_lt_of_mem_parts hbefore) (lt_irrefl _)
      · split
        · next hskip =>
            refine iff_of_false List.not_mem_nil fun hkept => ?_
            exact hskip.elim (fun hdepth => hdepth hkept.1) hkept.2
        · next hskip =>
            refine iff_of_true (List.mem_singleton_self _) ?_
            exact ⟨Classical.not_not.mp fun hdepth => hskip (Or.inl hdepth),
              fun htitle => hskip (Or.inr htitle)⟩
    · rw [List.getElem?_eq_none (by rw [List.length_append, List.length_singleton]; omega)] at h
      cases h

/-! ## The segments -/

/-- A start tag appends no hashes, or a line break and the beginning of the line of a heading. -/
theorem startParts_cases (tag : Tag) :
    (∀ t ∈ startParts tag, t.contains '#' = false) ∨
      ∃ hashes, startParts tag = [['\n'], '\n' :: hashes] ∧ hashes.contains '#' = true := by
  cases hlevel : headingLevel tag with
  | none =>
    refine Or.inl fun t ht => ?_
    rw [startParts, hlevel, List.append_nil] at ht
    split at ht
    · rw [List.mem_singleton.mp ht]
      decide
    · split at ht
      · rw [List.mem_singleton.mp ht]
        decide
      · cases ht
  | some level =>
    have hmem := PyDict.mem_of_get? hlevel
    simp only [headingTags, List.mem_cons, List.not_mem_nil, or_false, Prod.mk.injEq] at hmem
    right
    obtain ⟨rfl, rfl⟩ | ⟨rfl, rfl⟩ | ⟨rfl, rfl⟩ | ⟨rfl, rfl⟩ | ⟨rfl, rfl⟩ | ⟨rfl, rfl⟩ := hmem
    · exact ⟨"# ".toList, by decide, by decide⟩
    · exact ⟨"## ".toList, by decide, by decide⟩
    · exact ⟨"### ".toList, by decide, by decide⟩
    · exact ⟨"#### ".toList, by decide, by decide⟩
    · exact ⟨"##### ".toList, by decide, by decide⟩
    · exact ⟨"###### ".toList, by decide, by decide⟩

theorem added_cases (s : Extractor) (i : Nat) (event : Event) :
    (∀ part ∈ added s i event, part.marker = false) ∨
      ∃ hashes, added s i event =
        [{ event := i, marker := false, text := ['\n'] },
          { event := i, marker := true, text := '\n' :: hashes }] := by
  cases event with
  | starttag tag =>
    rw [added]
    split
    · exact Or.inl (List.forall_mem_nil _)
    · obtain hplain | ⟨hashes, hparts, hhash⟩ := startParts_cases tag
      · refine Or.inl fun part hpart => ?_
        obtain ⟨t, ht, rfl⟩ := List.mem_map.mp hpart
        exact hplain t ht
      · refine Or.inr ⟨hashes, ?_⟩
        have hmarker : ('\n' :: hashes).contains '#' = true := by
          rw [List.contains_cons, hhash, Bool.or_true]
        rw [hparts, List.map_cons, List.map_singleton, hmarker]
        rfl
  | endtag tag =>
    refine Or.inl fun part hpart => ?_
    rw [added] at hpart
    split at hpart
    · cases hpart
    · obtain ⟨t, -, rfl⟩ := List.mem_map.mp hpart
      rfl
  | data text =>
    refine Or.inl fun part hpart => ?_
    rw [added] at hpart
    split at hpart
    · cases hpart
    · rw [List.mem_singleton.mp hpart]

theorem segmentsFrom_append {unmarked : List Part}
    (h : ∀ part ∈ unmarked, part.marker = false) (current : Option Nat × Text)
    (rest : List Part) :
    segmentsFrom current (unmarked ++ rest) =
      segmentsFrom (current.1, current.2 ++ (unmarked.map Part.text).flatten) rest := by
  induction unmarked generalizing current with
  | nil => rw [List.map_nil, List.flatten_nil, List.append_nil, List.nil_append]
  | cons part unmarked ih =>
    obtain ⟨hpart, h⟩ := List.forall_mem_cons.mp h
    rw [List.cons_append, segmentsFrom, if_neg (by rw [hpart]; decide), ih h, List.map_cons,
      List.flatten_cons, List.append_assoc]

theorem splitOn_newline (a b : Text) :
    splitOn ['\n'] (a ++ '\n' :: b) = splitOn ['\n'] a ++ splitOn ['\n'] b := by
  simp only [PySplit.splitOn_eq_splitOnP]
  exact List.splitOnP_append_cons a b (beq_self_eq_true '\n')

section Lines

variable (nfc : NormalForm)

theorem normalize_append (a b : Text) :
    nfc.normalize (a ++ '\n' :: b) = nfc.normalize a ++ '\n' :: nfc.normalize b := by
  have hne : ∀ t : Text, (splitOn ['\n'] t).map nfc.line ≠ [] := by
    intro t hnil
    rw [PySplit.splitOn_eq_splitOnP] at hnil
    exact List.splitOnP_ne_nil _ t (List.map_eq_nil_iff.mp hnil)
  rw [NormalForm.normalize, splitOn_newline, List.map_append, join_append _ (hne a) (hne b),
    List.append_assoc]
  rfl

theorem normalize_nil : nfc.normalize [] = [] := by
  rw [NormalForm.normalize]
  show join ['\n'] [nfc.line []] = []
  rw [nfc.line_nil, join_singleton]

theorem unifyBreaks_cons {c : Char} {rest : Text} (h : c = '\r' → rest.head? ≠ some '\n') :
    unifyBreaks (c :: rest) = (if c = '\r' then '\n' else c) :: unifyBreaks rest := by
  rw [unifyBreaks]
  rintro later rfl rfl
  exact h rfl rfl

theorem unifyBreaks_append {a : Text} (h : a.getLast? ≠ some '\r') (b : Text) :
    unifyBreaks (a ++ '\n' :: b) = unifyBreaks a ++ '\n' :: unifyBreaks b := by
  induction a using pair_induction '\r' '\n' with
  | nil =>
    rw [List.nil_append, unifyBreaks_cons fun heq => absurd heq (by decide)]
    rfl
  | pair rest ih =>
    have hrest : rest.getLast? ≠ some '\r' := by
      intro hlast
      rw [List.getLast?_cons, List.getLast?_cons, hlast] at h
      exact h rfl
    rw [List.cons_append, List.cons_append, unifyBreaks, unifyBreaks, ih hrest]
    rfl
  | cons c rest hpair ih =>
    have hc : c = '\r' → rest ≠ [] := by
      rintro rfl rfl
      exact h rfl
    have hhead : c = '\r' → rest.head? ≠ some '\n' := by
      intro heq hnewline
      obtain ⟨later, rfl⟩ := List.head?_eq_some_iff.mp hnewline
      exact hpair later heq rfl
    have hrest : rest.getLast? ≠ some '\r' := by
      intro hlast
      rw [List.getLast?_cons, hlast] at h
      exact h rfl
    have hheadAppend : c = '\r' → (rest ++ '\n' :: b).head? ≠ some '\n' := by
      intro heq
      obtain ⟨d, later, rfl⟩ := List.exists_cons_of_ne_nil (hc heq)
      exact hhead heq
    rw [List.cons_append, unifyBreaks_cons hheadAppend, unifyBreaks_cons hhead, ih hrest]
    rfl

theorem filter_newline (t : Text) :
    ('\n' :: t).filter (fun c => !isControl c) = '\n' :: t.filter fun c => !isControl c :=
  @List.filter_cons_of_pos _ (fun c => !isControl c) '\n' t rfl

/-- Lines after two line breaks have nothing to do with those before them; one break could have a
return before it. -/
theorem rawLines_append (a b : Text) :
    rawLines nfc (a ++ ['\n'] ++ '\n' :: b) = rawLines nfc (a ++ ['\n']) ++ rawLines nfc b := by
  have hlast : ((nfc.normalize (a ++ ['\n'])).filter fun c => !isControl c).getLast? ≠
      some '\r' := by
    rw [normalize_append, normalize_nil, List.filter_append, filter_newline, List.filter_nil,
      List.getLast?_concat]
    decide
  rw [rawLines, normalize_append, List.filter_append, filter_newline, unifyBreaks_append hlast,
    splitOn_newline, List.map_append]
  rfl

theorem rawLines_segments (s : Extractor) (i : Nat) (events : List Event)
    (current : Option Nat × Text) :
    rawLines nfc (current.2 ++ ((addedFrom s i events).map Part.text).flatten) =
      (segmentsFrom current (addedFrom s i events)).flatMap fun segment =>
        rawLines nfc segment.2 := by
  induction events generalizing s i current with
  | nil => simp [addedFrom, segmentsFrom]
  | cons event rest ih =>
    rw [addedFrom, List.map_append, List.flatten_append]
    obtain hunmarked | ⟨hashes, hadded⟩ := added_cases s i event
    · rw [segmentsFrom_append hunmarked, ← ih, List.append_assoc]
    · have htext : current.2 ++ (((added s i event).map Part.text).flatten ++
          ((addedFrom (handle s event) (i + 1) rest).map Part.text).flatten) =
          current.2 ++ ['\n'] ++ '\n' ::
            (hashes ++ ((addedFrom (handle s event) (i + 1) rest).map Part.text).flatten) := by
        rw [hadded]
        simp
      rw [htext, rawLines_append, hadded]
      exact congrArg (_ ++ ·) (ih (handle s event) (i + 1) (some i, hashes))

theorem map_ownLines (segment : Option Nat × Text) :
    (ownLines nfc segment).map Prod.snd = rawLines nfc segment.2 := by
  rw [ownLines]
  split
  · next h => exact h.symm
  · next first rest h =>
      rw [h, List.map_cons, List.map_map]
      exact congrArg (first :: ·) (List.map_id rest)

theorem map_searchedLines (events : List Event) :
    (searchedLines nfc events).map Prod.snd =
      tidy id (rawLines nfc ((parts events).map Part.text).flatten) := by
  have hlines := rawLines_segments nfc {} 0 events (none, [])
  rw [List.nil_append] at hlines
  rw [searchedLines, map_tidy, List.map_flatMap, parts, hlines]
  exact congrArg (tidy id) (List.flatMap_congr fun segment _ => map_ownLines nfc segment)

/-- The lines of headings and the others are the lines of the text that is searched. -/
theorem join_searchedLines (events : List Event) :
    join ['\n'] ((searchedLines nfc events).map Prod.snd) = searched nfc events := by
  rw [map_searchedLines]
  rfl

theorem unbroken_rawLines {t line : Text} (h : line ∈ rawLines nfc t) : Unbroken line := by
  obtain ⟨raw, hraw, rfl⟩ := List.mem_map.mp h
  have hunbroken : Unbroken raw := by
    intro c hc
    refine ⟨fun heq => ?_, fun heq => ?_⟩
    · exact PySplit.notMem_splitFrom List.not_mem_nil hraw (heq ▸ hc)
    · rw [PySplit.splitOn_eq_splitOnP] at hraw
      exact notMem_unifyBreaks _ (heq ▸ PySplit.subset_splitOnP hraw hc)
  exact (hunbroken.subset fun _ => mem_of_mem_strip).collapseBlanks

end Lines

/-- The lines are those of the document. -/
theorem text_parse (nfc : NormalForm) (sha1 : Text → Text) (events : List Event)
    (reference source : Text) :
    (parse nfc sha1 events reference source).text =
      join ['\n'] ((documentLines nfc events).map Prod.snd) := by
  have hlines : ∀ line ∈ (searchedLines nfc events).map Prod.snd, Unbroken line := by
    intro line hline
    rw [map_searchedLines] at hline
    exact unbroken_rawLines nfc (tidy_subset id _ hline)
  rw [documentLines, MarkdownOffsets.join_normalizeLines nfc hlines, join_searchedLines, searched,
    map_parts, parse_text]

/-! ## When the elements are found -/

section Parse

variable (nfc : NormalForm) (sha1 : Text → Text) (events : List Event) (reference source : Text)

theorem title_iff (title : Text) (hne : title ≠ []) :
    (parse nfc sha1 events reference source).title = title ↔
      (∃ i text, LastTitleRun events i text ∧ strip text = title) ∨
      (∀ i text, LastTitleRun events i text → strip text = []) ∧
        titleOf (searched nfc events) = title := by
  rw [parse_title, searched, map_parts]
  obtain ⟨i, text, hrun, hlast, htitle⟩ | ⟨hnone, htitle⟩ := title_run events
  · have hunique : ∀ j later, LastTitleRun events j later → later = text := by
      intro j later hlater
      obtain rfl : j = i := Nat.le_antisymm (hlast j later hlater.run) (hlater.last i text hrun)
      have hsame := hlater.run.text.symm.trans hrun.text
      exact Event.data.inj (Option.some.inj hsame)
    rw [htitle]
    by_cases hblank : strip text = []
    · rw [if_neg fun h => h hblank]
      constructor
      · intro h
        exact Or.inr ⟨fun j later hlater => hunique j later hlater ▸ hblank, h⟩
      · rintro (⟨j, later, hlater, h⟩ | ⟨_, h⟩)
        · rw [hunique j later hlater, hblank] at h
          exact absurd h.symm hne
        · exact h
    · rw [if_pos hblank]
      constructor
      · intro h
        exact Or.inl ⟨i, text, ⟨hrun, hlast⟩, h⟩
      · rintro (⟨j, later, hlater, h⟩ | ⟨h, _⟩)
        · rwa [hunique j later hlater] at h
        · exact absurd (h i text ⟨hrun, hlast⟩) hblank
  · rw [htitle, if_neg fun h => h rfl]
    constructor
    · intro h
      exact Or.inr ⟨fun j later hlater => absurd hlater.run (hnone j later), h⟩
    · rintro (⟨j, later, hlater, _⟩ | ⟨_, h⟩)
      · exact absurd hlater.run (hnone j later)
      · exact h

/-- A line with one hash has a text, and the hash. -/
theorem strip_ne_nil_of_headingOf {line heading : Text} (h : headingOf line = some heading) :
    strip line ≠ [] := by
  intro hnil
  rw [headingOf, hnil] at h
  cases h

/-- The record of a line says that the line is first found there. -/
theorem find_eq_some_iff_first {needle t : Text} (hne : needle ≠ []) {start : Nat} :
    find needle t = some start ↔ At needle t start ∧ ∀ i < start, ¬ At needle t i := by
  rw [PySub.find_eq_some_iff]
  exact ⟨fun ⟨_, hat, hfirst⟩ => ⟨hat, hfirst⟩,
    fun ⟨hat, hfirst⟩ => ⟨(hat.lt_length hne).le, hat, hfirst⟩⟩

/-- The records are those of the lines with one hash. -/
theorem records_iff (expected : List (Nat × Text)) :
    List.Forall₂ (fun record heading => record.text = heading.2 ∧
      ∃ start, record.offset = some start ∧
        lineStart heading.1 (documentLines nfc events) = some start)
      (parse nfc sha1 events reference source).headings expected ↔
    List.Forall₂ (fun line heading => headingOf line = some heading.2 ∧
      ∃ start, lineStart heading.1 (documentLines nfc events) = some start ∧
        At (strip line) (searched nfc events) start ∧
        ∀ i < start, ¬ At (strip line) (searched nfc events) i)
      ((splitlines (searched nfc events)).filter fun line => (headingOf line).isSome) expected := by
  have hsearched : normalizeText nfc (run events).parts.flatten = searched nfc events := by
    rw [searched, map_parts]
  rw [parse_headings, hsearched]
  generalize searched nfc events = t
  induction splitlines t generalizing expected with
  | nil =>
    rw [List.filterMap_nil, List.filter_nil, List.forall₂_nil_left_iff,
      List.forall₂_nil_left_iff]
  | cons line rest ih =>
    cases hline : headingOf line with
    | none =>
      rw [List.filterMap_cons_none (by rw [hline]; rfl),
        List.filter_cons_of_neg (by rw [hline]; decide)]
      exact ih expected
    | some text =>
      rw [List.filterMap_cons_some (by rw [hline]; rfl),
        List.filter_cons_of_pos (by rw [hline]; rfl)]
      cases expected with
      | nil => exact iff_of_false (fun h => nomatch h) fun h => nomatch h
      | cons heading expected =>
        rw [List.forall₂_cons, List.forall₂_cons, hline, Option.some.injEq]
        refine and_congr (and_congr_right fun _ => exists_congr fun start => ?_) (ih expected)
        rw [find_eq_some_iff_first (strip_ne_nil_of_headingOf hline), and_comm]

end Parse

/-- **Title, headings and text are those of the elements exactly if the title's text is the last
run in a title that is not skipped, no visible run is skipped or in a title, and the lines with
one hash are those of the headings.** -/
theorem extracted_iff (nfc : NormalForm) (sha1 : Text → Text) (events : List Event)
    (reference source : Text) :
    Extracted nfc events (parse nfc sha1 events reference source) ↔ Clear nfc events := by
  have hrun : ∀ i text, VisibleRun events i text →
      ({ event := i, marker := false, text := text } ∈ parts events ↔
        Unskipped (events.take i) ∧ ¬ Titled (events.take i)) :=
    fun i text h => mem_parts_iff h.data
  constructor
  · intro h
    exact ⟨fun hne => (title_iff nfc sha1 events reference source _ hne).mp (h.title hne),
      fun i text hvisible => (hrun i text hvisible).mp (h.runs i text hvisible),
      (records_iff nfc sha1 events reference source _).mp h.headings⟩
  · intro h
    refine ⟨fun hne => (title_iff nfc sha1 events reference source _ hne).mpr (h.title hne), ?_,
      text_parse nfc sha1 events reference source, parts_ordered events,
      fun i text hvisible => (hrun i text hvisible).mpr (h.runs i text hvisible),
      (records_iff nfc sha1 events reference source _).mpr h.headings⟩
    rw [parse_text, map_parts]

/-- A heading of the second level is not in the list. -/
theorem heading_lost :
    ¬ ∀ (nfc : NormalForm) (sha1 : Text → Text) (events : List Event) (reference source : Text),
      Extracted nfc events (parse nfc sha1 events reference source) := by
  intro h
  have hheadings := (h asIs id [.starttag "h2".toList, .data "Setup".toList, .endtag "h2".toList]
    [] []).headings.length_eq
  exact absurd hheadings (by decide)

end OpenWrtCopilot.Ports.HtmlExtraction
