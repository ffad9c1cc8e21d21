import OpenWrtCopilot.Ports.KnowledgeText
import OpenWrtCopilot.Verified.PyDict
import OpenWrtCopilot.Verified.PySub

/-!
# The Markdown parser

Ports `MarkdownParser`.  The front matter goes; headings become lines with their texts, fences
become blank lines; images and links become their texts, and emphasis goes.  Afterwards the text
of each heading is searched in the normalised text, from where the one before it was found.

The substitutions are stated for lists whose elements have a character, and may carry more.

## Main results

* `map_stripMarkup`, `stripMarkup_sublist` — markup is found in the characters, and dropped.
* `unbroken_readLine` — what stands for a line is a line.
* `text_of_readLine` — a heading's text stands for its line.
* `headings_parse` — the records are located in the normalised text.
-/

namespace OpenWrtCopilot.Ports.MarkdownParser

open Verified
open Verified.PyDict (Dict get?)
open Verified.PySub (find findFrom sub)
open Verified.PyText
open Ports.KnowledgeText (NormalForm normalizeText)

/-! ## Front matter -/

/-- `_FRONT_MATTER_RE.match`: the block, and what follows the match.  The block begins after a
newline of the space that follows the first dashes, if possible after the last one. -/
def frontMatter (text : Text) : Option (Text × Text) :=
  if startsWith "---".toList text = true then
    let rest := text.drop 3
    let space := rest.takeWhile isSpace
    ((List.range space.length).reverse.filter fun i => space[i]? = some '\n').findSome? fun i =>
      let block := rest.drop (i + 1)
      (find "\n---".toList block).map fun j => (block.take j, (block.drop (j + 4)).dropWhile isSpace)
  else none

/-- What a document's metadata can contain. -/
inductive MetaValue (H : Type)
  | text (value : Text)
  | headings (records : List H)

/-- `_front_matter`. -/
def frontMatterValues {H : Type} (block : Text) : Dict Text (MetaValue H) :=
  (splitlines block).foldl (fun values rawLine =>
    match partition ":".toList rawLine with
    | (_, none) => values
    | (key, some value) =>
        if strip key = [] then values
        else PyDict.set (strip key) (.text (PySplit.stripOf ['\'', '"'] (strip value))) values) []

/-! ## Lines -/

/-- A heading record. -/
structure HeadingRecord where
  text : Text
  level : Nat
  offset : Option Nat := none
  deriving DecidableEq

/-- `\s*#*\s*$`. -/
def closesHeading (t : Text) : Bool :=
  ((t.dropWhile isSpace).dropWhile (· = '#')).all isSpace

/-- The shortest part that is left by what closes the heading. -/
def headingText (t : Text) : Text :=
  ((List.range t.length).find? fun i => closesHeading (t.drop (i + 1))).elim t
    fun i => t.take (i + 1)

/-- `_HEADING_RE.match`: the level and the text of a heading.  Where only space follows the
hashes, its last character is matched as the text. -/
def headingMatch (line : Text) : Option (Nat × Text) :=
  let level := (line.takeWhile (· = '#')).length
  let rest := line.dropWhile (· = '#')
  let body := rest.dropWhile isSpace
  if 1 ≤ level ∧ level ≤ 6 ∧ rest.head?.any isSpace = true then
    if body ≠ [] then some (level, strip (headingText body))
    else if 2 ≤ rest.length then some (level, [])
    else none
  else none

/-- A line of the document: the record of a heading, and the line that stands for it. -/
def readLine (line : Text) : Option HeadingRecord × Text :=
  match headingMatch line with
  | some (level, text) => (some { text := text, level := level }, text)
  | none => if startsWith "```".toList (lstrip line) = true then (none, []) else (none, line)

/-! ## Markup -/

section Markup

variable {α : Type} (char : α → Char)

/-- A text in brackets and a target in parentheses, after an opening: `_IMG_RE` and `_LINK_RE`. -/
def linkAt (opening : Text) (l : List α) : Option (List α × Nat) :=
  if startsWith opening (l.map char) = true then
    let label := (l.drop opening.length).takeWhile fun x => char x ≠ ']'
    let after := (l.drop opening.length).drop label.length
    if startsWith "](".toList (after.map char) = true then
      let target := (after.drop 2).takeWhile fun x => char x ≠ ')'
      if (after.drop 2).drop target.length ≠ [] then
        some (label, opening.length + label.length + 2 + target.length + 1)
      else none
    else none
  else none

/-- A token of `_EMPHASIS_RE`; in a run of them, each is matched. -/
def emphasisAt (l : List α) : Option (List α × Nat) :=
  if startsWith "~~".toList (l.map char) = true then some ([], 2)
  else if l.head?.any (fun x => ['*', '_', '\x60'].contains (char x)) = true then some ([], 1)
  else none

/-- `_IMG_RE.sub`, `_LINK_RE.sub` and `_EMPHASIS_RE.sub`. -/
def stripMarkup (l : List α) : List α :=
  sub (emphasisAt char) 0 (sub (linkAt char "[".toList) 0 (sub (linkAt char "![".toList) 0 l))

end Markup

/-! ## Documents -/

/-- `KnowledgeDocument`, without its times. -/
structure KnowledgeDocument where
  id : Text
  source : Text
  reference : Text
  format : Text
  title : Text
  text : Text
  metadata : Dict Text (MetaValue HeadingRecord)

/-- The offsets of headings are searched one after the other. -/
def locate (normalized : Text) : Nat → List HeadingRecord → List HeadingRecord
  | _, [] => []
  | cursor, heading :: rest =>
      match findFrom heading.text normalized cursor with
      | some index =>
          { heading with offset := some index } ::
            locate normalized (index + heading.text.length) rest
      | none => heading :: locate normalized cursor rest

/-- `_title`. -/
def titleOf (text : Text) : Text :=
  ((((splitlines text).map fun line => strip (PySplit.stripOf ['#'] (strip line))).find?
    (· ≠ [])).map (List.take 200)).getD []

/-- The text after the front matter. -/
def body (text : Text) : Text := ((frontMatter text).map Prod.snd).getD text

/-- The lines of the text, with the records of headings. -/
def readLines (text : Text) : List (Option HeadingRecord × Text) :=
  (splitlines (body text)).map readLine

/-- The records, without offsets. -/
def records (text : Text) : List HeadingRecord := (readLines text).filterMap Prod.fst

/-- The lines together, without markup. -/
def merged (text : Text) : Text :=
  stripMarkup id (join ['\n'] ((readLines text).map Prod.snd))

/-- `_normalize_with_offsets`: the text that is searched, and the records with offsets. -/
def normalizeWithOffsets (nfc : NormalForm) (text : Text) (headings : List HeadingRecord) :
    Text × List HeadingRecord :=
  let normalized := normalizeText nfc text
  (normalized, locate normalized 0 headings)

/-- `MarkdownParser.parse`, of a text that is decoded, with `_document`. -/
def parse (nfc : NormalForm) (sha1 : Text → Text) (text reference source : Text) :
    KnowledgeDocument :=
  let metadata : Dict Text (MetaValue HeadingRecord) :=
    ((frontMatter text).map fun (block, _) => frontMatterValues block).getD []
  let (normalized, headings) := normalizeWithOffsets nfc (merged text) (records text)
  let metadata := PyDict.set "headings".toList (.headings headings) metadata
  { id := (sha1 ("markdown:".toList ++ source ++ ":".toList ++ reference)).take 16
    source := source
    reference := reference
    format := "markdown".toList
    title :=
      match get? "title".toList metadata with
      | some (.text title) => if title ≠ [] then title else titleOf (merged text)
      | _ => titleOf (merged text)
    text := normalizeText nfc normalized
    metadata := PyDict.set "format".toList (.text "markdown".toList) metadata }

/-- `document.metadata["headings"]`. -/
def KnowledgeDocument.headings (document : KnowledgeDocument) : List HeadingRecord :=
  match get? "headings".toList document.metadata with
  | some (.headings records) => records
  | _ => []

/-! ## What the parser does to characters -/

section Markup

variable {α : Type} {char : α → Char}

theorem takeWhile_map_ne (l : List α) (q : Char) :
    (l.map char).takeWhile (fun c => c ≠ q) = (l.takeWhile fun x => char x ≠ q).map char := by
  rw [List.takeWhile_map]
  rfl

theorem natural_linkAt (opening : Text) :
    PySub.Natural char (linkAt char opening) (linkAt id opening) := by
  intro l
  have hlabel : ((l.map char).drop opening.length).takeWhile (fun c => id c ≠ ']') =
      ((l.drop opening.length).takeWhile fun x => char x ≠ ']').map char := by
    rw [← List.map_drop]
    exact takeWhile_map_ne _ _
  rw [linkAt, linkAt, List.map_id]
  by_cases hopening : startsWith opening (l.map char) = true
  · rw [if_pos hopening, if_pos hopening]
    dsimp only
    rw [hlabel, List.length_map]
    generalize ((l.drop opening.length).takeWhile fun x => char x ≠ ']') = label
    rw [← List.map_drop, ← List.map_drop, List.map_id]
    generalize (l.drop opening.length).drop label.length = after
    by_cases hafter : startsWith "](".toList (after.map char) = true
    · rw [if_pos hafter, if_pos hafter, ← List.map_drop]
      have htarget : ((after.drop 2).map char).takeWhile (fun c => id c ≠ ')') =
          ((after.drop 2).takeWhile fun x => char x ≠ ')').map char := takeWhile_map_ne _ _
      rw [htarget, List.length_map, ← List.map_drop]
      generalize (after.drop 2).takeWhile (fun x => char x ≠ ')') = target
      by_cases hclosed : (after.drop 2).drop target.length ≠ []
      · rw [if_pos hclosed, if_pos fun h => hclosed (List.map_eq_nil_iff.mp h)]
        rfl
      · rw [if_neg hclosed, if_neg fun h => hclosed fun hnil => h (List.map_eq_nil_iff.mpr hnil)]
        rfl
    · rw [if_neg hafter, if_neg hafter]
      rfl
  · rw [if_neg hopening, if_neg hopening]
    rfl

theorem natural_emphasisAt : PySub.Natural char (emphasisAt char) (emphasisAt id) := by
  intro l
  have hhead : (l.map char).head?.any (fun c => ['*', '_', '\x60'].contains (id c)) =
      l.head?.any fun x => ['*', '_', '\x60'].contains (char x) := by
    rw [List.head?_map, Option.any_map]
    rfl
  rw [emphasisAt, emphasisAt, List.map_id, hhead]
  split
  · rfl
  · split
    · rfl
    · rfl

/-- The markup is found in the characters. -/
theorem map_stripMarkup (l : List α) :
    (stripMarkup char l).map char = stripMarkup id (l.map char) := by
  rw [stripMarkup, PySub.map_sub natural_emphasisAt, PySub.map_sub (natural_linkAt _),
    PySub.map_sub (natural_linkAt _)]
  rfl

theorem shrinking_linkAt (opening : Text) : PySub.Shrinking (linkAt char opening) := by
  intro l m h
  rw [linkAt] at h
  split at h
  · dsimp only at h
    split at h
    · split at h
      · obtain rfl := Option.some.inj h
        generalize hlabel : (l.drop opening.length).takeWhile (fun x => char x ≠ ']') = label
        have hpre : label <+: l.drop opening.length := hlabel ▸ List.takeWhile_prefix _
        have hdrop : label = (l.take (opening.length + label.length)).drop opening.length := by
          rw [List.drop_take, Nat.add_sub_cancel_left]
          exact List.prefix_iff_eq_take.mp hpre
        dsimp only
        generalize ((l.drop opening.length).drop label.length).drop 2 = after
        have hlength : opening.length + label.length ≤
            opening.length + label.length + 2 +
              (after.takeWhile fun x => char x ≠ ')').length + 1 := by
          omega
        have htake := (List.take_prefix_take_left (l := l) hlength).sublist
        exact (hdrop ▸ List.drop_sublist _ _).trans htake
      · cases h
    · cases h
  · cases h

theorem shrinking_emphasisAt : PySub.Shrinking (emphasisAt char) := by
  intro l m h
  rw [emphasisAt] at h
  split at h
  · obtain rfl := Option.some.inj h
    exact List.nil_sublist _
  · split at h
    · obtain rfl := Option.some.inj h
      exact List.nil_sublist _
    · cases h

/-- Markup is dropped, and nothing is put in its place. -/
theorem stripMarkup_sublist (l : List α) : (stripMarkup char l).Sublist l := by
  have hlinks (opening : Text) (l : List α) : (sub (linkAt char opening) 0 l).Sublist l :=
    PySub.sub_sublist (shrinking_linkAt opening) 0 l
  have hemphasis (l : List α) : (sub (emphasisAt char) 0 l).Sublist l :=
    PySub.sub_sublist shrinking_emphasisAt 0 l
  exact ((hemphasis _).trans (hlinks _ _)).trans (hlinks _ l)

end Markup

/-! ## Headings -/

section Headings

variable {line : Text}

theorem headingText_subset (t : Text) : headingText t ⊆ t := by
  rw [headingText]
  cases (List.range t.length).find? fun i => closesHeading (t.drop (i + 1)) with
  | none => exact List.Subset.refl t
  | some i => exact List.take_subset (i + 1) t

theorem subset_of_headingMatch {level : Nat} {text : Text}
    (h : headingMatch line = some (level, text)) : text ⊆ line := by
  rw [headingMatch] at h
  split at h
  · split at h
    · obtain ⟨-, rfl⟩ := Prod.mk.inj (Option.some.inj h)
      intro c hc
      have hbody := headingText_subset _ (mem_of_mem_strip hc)
      exact (List.dropWhile_sublist _).subset ((List.dropWhile_sublist _).subset hbody)
    · split at h
      · obtain ⟨-, rfl⟩ := Prod.mk.inj (Option.some.inj h)
        exact List.nil_subset line
      · cases h
  · cases h

theorem readLine_subset (line : Text) : (readLine line).2 ⊆ line := by
  rw [readLine]
  cases hmatch : headingMatch line with
  | some found => exact subset_of_headingMatch hmatch
  | none =>
    dsimp only
    split
    · exact List.nil_subset line
    · exact List.Subset.refl line

/-- What stands for a line is a line. -/
theorem unbroken_readLine {text : Text} {read : Option HeadingRecord × Text}
    (h : read ∈ readLines text) : KnowledgeText.Unbroken read.2 := by
  obtain ⟨line, hline, rfl⟩ := List.mem_map.mp h
  have hsingle := splitlines_singleLines _ line hline
  exact (KnowledgeText.unbroken_of_singleLine hsingle).subset (readLine_subset line)

/-- A heading's text stands for its line, and its offset is not known. -/
theorem text_of_readLine {heading : HeadingRecord} (h : (readLine line).1 = some heading) :
    heading.text = (readLine line).2 ∧ heading.offset = none := by
  rw [readLine] at h ⊢
  cases hmatch : headingMatch line with
  | some found =>
    rw [hmatch] at h
    obtain rfl := Option.some.inj h
    exact ⟨rfl, rfl⟩
  | none =>
    rw [hmatch] at h
    dsimp only at h
    split at h
    · cases h
    · cases h

theorem offset_of_mem_records {text : Text} {heading : HeadingRecord}
    (h : heading ∈ records text) : heading.offset = none := by
  obtain ⟨read, hread, hheading⟩ := List.mem_filterMap.mp h
  obtain ⟨line, -, rfl⟩ := List.mem_map.mp hread
  exact (text_of_readLine hheading).2

/-- The records are located in the normalised text. -/
theorem headings_parse (nfc : NormalForm) (sha1 : Text → Text) (text reference source : Text) :
    (parse nfc sha1 text reference source).headings =
      locate (normalizeText nfc (merged text)) 0 (records text) := by
  rw [KnowledgeDocument.headings, parse, PyDict.get?_set_of_ne (by decide), PyDict.get?_set_self]
  rfl

end Headings

end OpenWrtCopilot.Ports.MarkdownParser
