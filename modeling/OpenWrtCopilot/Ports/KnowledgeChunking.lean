import Mathlib.Data.List.Dedup
import OpenWrtCopilot.Verified.Chunks
import OpenWrtCopilot.Verified.PyDict
import OpenWrtCopilot.Verified.PySplit
import OpenWrtCopilot.Verified.PyWords

/-!
# Chunks of a document

Ports the chunk strategies.  Each of them turns the text of a document into chunk texts: by a
number of words, by overlapping windows of words, at the headings that the parser found, or at
blank lines.  The constructors keep a size positive and an overlap nonnegative.

## Main results

* `covers_fixed`, `covers_sliding`, `covers_heading`, `covers_paragraph` — when every word of
  the text is in a chunk: always, but for windows that are further apart than they are long and
  for headings that begin inside a word.
-/

namespace OpenWrtCopilot.Ports.KnowledgeChunking

open Verified
open Verified.Chunks (chunks windows)
open Verified.PyDict (get?)
open Verified.PySplit (splitOn)
open Verified.PyText

/-! ## Configuration -/

/-- `SUPPORTED_CHUNK_STRATEGIES`. -/
inductive Strategy
  | fixed
  | sliding
  | heading
  | paragraph
  deriving DecidableEq

/-- `ChunkingConfig`; its validator keeps the size positive. -/
structure ChunkingConfig where
  strategy : Strategy := .fixed
  chunkSize : Nat := 500
  overlap : Option Int := none
  size_pos : 0 < chunkSize := by decide

/-- A heading record of a parser, as far as the chunks depend on it. -/
structure Heading where
  text : Text
  offset : Option Int := none

/-- `KnowledgeChunk`. -/
structure KnowledgeChunk where
  id : Text
  documentId : Text
  index : Nat
  text : Text
  heading : Text
  checksum : Text
  deriving DecidableEq

/-- `_make_chunks`, with `chunk_checksum`. -/
def makeChunks (chunkChecksum : Text → Text) (documentId : Text) (texts : List (Text × Text)) :
    List KnowledgeChunk :=
  texts.mapIdx fun index (heading, text) =>
    { id := documentId ++ "#".toList ++ natText index
      documentId := documentId
      index := index
      text := text
      heading := heading
      checksum := chunkChecksum text }

/-- The chunks carry the texts and headings they are made from, in this order. -/
theorem map_makeChunks (chunkChecksum : Text → Text) (documentId : Text)
    (texts : List (Text × Text)) :
    (makeChunks chunkChecksum documentId texts).map (fun chunk => (chunk.heading, chunk.text)) =
      texts := by
  rw [makeChunks, List.mapIdx_eq_zipIdx_map, List.map_map]
  exact List.zipIdx_map_fst 0 texts

/-! ## Strategies -/

/-- Texts of at most `size` words, under a heading. -/
def byWords (size : Nat) (heading text : Text) : List (Text × Text) :=
  (chunks size (words text)).map fun window => (heading, join " ".toList window)

/-- A text, split if it has more than `size` words. -/
def splitLarge (size : Nat) (heading text : Text) : List (Text × Text) :=
  if size < (words text).length then byWords size heading text else [(heading, text)]

structure FixedSizeChunkStrategy where
  chunkSize : Nat

def FixedSizeChunkStrategy.init (chunkSize : Int) : FixedSizeChunkStrategy where
  chunkSize := (max 1 chunkSize).toNat

/-- `FixedSizeChunkStrategy.chunk`. -/
def FixedSizeChunkStrategy.texts (s : FixedSizeChunkStrategy) (text : Text) :
    List (Text × Text) :=
  byWords s.chunkSize [] text

structure SlidingWindowChunkStrategy where
  windowSize : Nat
  overlap : Int

/-- Half the window where no overlap is given. -/
def SlidingWindowChunkStrategy.init (windowSize : Int) (overlap : Option Int) :
    SlidingWindowChunkStrategy where
  windowSize := (max 1 windowSize).toNat
  overlap := max 0 (overlap.getD (max 1 windowSize / 2))

/-- How far apart the windows begin. -/
def SlidingWindowChunkStrategy.stride (s : SlidingWindowChunkStrategy) : Nat :=
  (max 1 (s.windowSize - s.overlap)).toNat

/-- `SlidingWindowChunkStrategy.chunk`. -/
def SlidingWindowChunkStrategy.texts (s : SlidingWindowChunkStrategy) (text : Text) :
    List (Text × Text) :=
  (windows s.windowSize s.stride (words text)).map fun window =>
    ([], join " ".toList window)

/-- The slice `t[start:stop]`; a negative index counts from the end. -/
def slice (t : Text) (start stop : Int) : Text :=
  let index (i : Int) : Nat := if i < 0 then (i + t.length).toNat else i.toNat
  (t.take (index stop)).drop (index start)

/-- What lies between consecutive elements. -/
def sections {α : Type} : List α → List (α × α)
  | start :: stop :: rest => (start, stop) :: sections (stop :: rest)
  | _ => []

structure HeadingChunkStrategy where
  chunkSize : Nat

def HeadingChunkStrategy.init (chunkSize : Int) : HeadingChunkStrategy where
  chunkSize := (max 1 chunkSize).toNat

/-- `int(entry.get("offset", 0))`. -/
def Heading.start (heading : Heading) : Int := heading.offset.getD 0

/-- `sorted({0, *offsets, len(text)})`. -/
def boundaries (text : Text) (headings : List Heading) : List Int :=
  (0 :: headings.map (·.start) ++ [(text.length : Int)]).dedup.mergeSort (· ≤ ·)

/-- The text of the last heading at an offset. -/
def headingByOffset (headings : List Heading) (start : Int) : Text :=
  (get? start (headings.foldl (fun d h => PyDict.set h.start h.text d) [])).getD []

/-- `HeadingChunkStrategy.chunk`. -/
def HeadingChunkStrategy.texts (s : HeadingChunkStrategy) (text : Text)
    (headings : List Heading) : List (Text × Text) :=
  if headings = [] then (FixedSizeChunkStrategy.init s.chunkSize).texts text
  else
    (sections (boundaries text headings)).flatMap fun (start, stop) =>
      let part := strip (slice text start stop)
      if part = [] then [] else splitLarge s.chunkSize (headingByOffset headings start) part

structure ParagraphChunkStrategy where
  chunkSize : Nat

def ParagraphChunkStrategy.init (chunkSize : Int) : ParagraphChunkStrategy where
  chunkSize := (max 1 chunkSize).toNat

/-- Paragraphs are merged as long as they have at most `size` words together; `buffer` is what
was merged last. -/
def mergeParagraphs (size : Nat) (buffer : Text) : List Text → List Text
  | [] => if buffer = [] then [] else [buffer]
  | paragraph :: paragraphs =>
      if buffer = [] then mergeParagraphs size paragraph paragraphs
      else if (words buffer).length + (words paragraph).length ≤ size then
        mergeParagraphs size (buffer ++ "\n\n".toList ++ paragraph) paragraphs
      else buffer :: mergeParagraphs size paragraph paragraphs

/-- `ParagraphChunkStrategy.chunk`. -/
def ParagraphChunkStrategy.texts (s : ParagraphChunkStrategy) (text : Text) :
    List (Text × Text) :=
  let paragraphs := ((splitOn "\n\n".toList text).map strip).filter (· ≠ [])
  (mergeParagraphs s.chunkSize [] paragraphs).flatMap (splitLarge s.chunkSize [])

/-! ## Words in chunks -/

/-- The word is in one of the texts. -/
def Occurs (word : Text) (texts : List (Text × Text)) : Prop :=
  ∃ item ∈ texts, word ∈ words item.2

/-- No heading begins inside a word. -/
def WholeWords (text : Text) (headings : List Heading) : Prop :=
  ∀ heading ∈ headings,
    Between (text.take heading.start.toNat) (text.drop heading.start.toNat)

/-- Every word of a text is in a chunk. -/
def Covers (chunks : List KnowledgeChunk) (text : Text) : Prop :=
  ∀ word ∈ words text, ∃ chunk ∈ chunks, word ∈ words chunk.text

section Cover

variable {size : Nat} {text word : Text}

theorem occurs_map_join {groups : List (List Text)} {heading : Text} {group : List Text}
    (hgroup : group ∈ groups) (hwords : ∀ w ∈ group, Word w) (hword : word ∈ group) :
    Occurs word (groups.map fun window => (heading, join " ".toList window)) := by
  refine ⟨_, List.mem_map.mpr ⟨group, hgroup, rfl⟩, ?_⟩
  show word ∈ words (join " ".toList group)
  rwa [words_join_space hwords]

theorem occurs_byWords (hsize : 0 < size) (heading : Text) (hword : word ∈ words text) :
    Occurs word (byWords size heading text) := by
  rw [← Chunks.flatten_chunks hsize (words text)] at hword
  obtain ⟨group, hgroup, hmem⟩ := List.mem_flatten.mp hword
  have hinner := List.infix_of_mem_flatten hgroup
  rw [Chunks.flatten_chunks hsize] at hinner
  exact occurs_map_join hgroup (fun w hw => word_of_mem_words (hinner.subset hw)) hmem

theorem occurs_splitLarge (hsize : 0 < size) (heading : Text) (hword : word ∈ words text) :
    Occurs word (splitLarge size heading text) := by
  rw [splitLarge]
  by_cases hlarge : size < (words text).length
  · rw [if_pos hlarge]
    exact occurs_byWords hsize heading hword
  · rw [if_neg hlarge]
    exact ⟨_, List.mem_cons_self, hword⟩

theorem Occurs.flatMap {α : Type} {f : α → List (Text × Text)} {l : List α} {x : α} (hx : x ∈ l)
    (h : Occurs word (f x)) : Occurs word (l.flatMap f) := by
  obtain ⟨item, hitem, hmem⟩ := h
  exact ⟨item, List.mem_flatMap.mpr ⟨x, hx, hitem⟩, hmem⟩

theorem covers_fixed {s : FixedSizeChunkStrategy} (hsize : 0 < s.chunkSize)
    (hword : word ∈ words text) : Occurs word (s.texts text) :=
  occurs_byWords hsize [] hword

theorem SlidingWindowChunkStrategy.stride_pos (s : SlidingWindowChunkStrategy) :
    0 < s.stride := by
  rw [stride]
  omega

theorem covers_sliding {s : SlidingWindowChunkStrategy} (hsize : 0 < s.windowSize)
    (hoverlap : 0 ≤ s.overlap) (hword : word ∈ words text) : Occurs word (s.texts text) := by
  have hle : s.stride ≤ s.windowSize := by
    rw [SlidingWindowChunkStrategy.stride]
    omega
  obtain ⟨window, hwindow, hmem⟩ := Chunks.exists_mem_windows s.stride_pos hle hword
  exact occurs_map_join hwindow
    (fun w hw => word_of_mem_words
      ((Chunks.infix_of_mem_windows s.stride_pos hwindow).subset hw)) hmem

theorem slice_of_le {t : Text} {start stop : Nat} :
    slice t start stop = (t.take stop).drop start := by
  have hstart : ¬ (start : Int) < 0 := by omega
  have hstop : ¬ (stop : Int) < 0 := by omega
  rw [slice]
  dsimp only
  rw [if_neg hstart, if_neg hstop]
  rfl

/-- What follows a cut is the next section and what follows that. -/
theorem drop_section {start stop : Nat} (hlt : start < stop) (hstop : stop ≤ text.length) :
    text.drop start = (text.take stop).drop start ++ text.drop stop := by
  conv_lhs => rw [← List.take_append_drop stop text]
  rw [List.drop_append_of_le_length]
  rw [List.length_take]
  omega

theorem between_section {start stop : Nat} (hlt : start < stop) (hstop : stop ≤ text.length)
    (hcut : Between (text.take stop) (text.drop stop)) :
    Between ((text.take stop).drop start) (text.drop stop) := by
  intro c hc
  rw [List.getLast?_drop, if_neg] at hc
  · exact hcut c hc
  · rw [List.length_take]
    omega

theorem words_drop {start stop : Nat} (hlt : start < stop) (hstop : stop ≤ text.length)
    (hcut : Between (text.take stop) (text.drop stop)) :
    words (text.drop start) =
      words ((text.take stop).drop start) ++ words (text.drop stop) := by
  rw [drop_section hlt hstop, words_append (between_section hlt hstop hcut)]

/-- A word after a boundary is in a section after it. -/
theorem exists_section {bs : List Int} {b : Int} (hsorted : (b :: bs).Pairwise (· < ·))
    (hb : 0 ≤ b) (hend : (text.length : Int) ∈ b :: bs)
    (hcuts : ∀ c ∈ bs, Between (text.take c.toNat) (text.drop c.toNat))
    (hword : word ∈ words (text.drop b.toNat)) :
    ∃ item ∈ sections (b :: bs), word ∈ words (slice text item.1 item.2) := by
  induction bs generalizing b with
  | nil =>
    obtain rfl := List.mem_singleton.mp hend
    simp [words] at hword
  | cons e bs ih =>
    obtain ⟨hfirst, hlater⟩ := List.pairwise_cons.mp hsorted
    have hbe : b < e := hfirst e List.mem_cons_self
    obtain hhere | hmore := List.mem_cons.mp hend
    · simp [← hhere, words] at hword
    · have he : e ≤ text.length := by
        obtain heq | hmem := List.mem_cons.mp hmore
        · exact heq.ge
        · exact ((List.pairwise_cons.mp hlater).1 _ hmem).le
      obtain ⟨start, rfl⟩ := Int.eq_ofNat_of_zero_le hb
      obtain ⟨stop, rfl⟩ := Int.eq_ofNat_of_zero_le (hb.trans hbe.le)
      rw [Int.toNat_natCast, words_drop (by omega) (by omega)
        (hcuts stop List.mem_cons_self), List.mem_append] at hword
      obtain hhere | hthere := hword
      · refine ⟨_, List.mem_cons_self, ?_⟩
        rwa [slice_of_le]
      · obtain ⟨item, hitem, hmem⟩ := ih hlater (by omega) hmore
          (fun c hc => hcuts c (List.mem_cons_of_mem _ hc)) hthere
        exact ⟨item, List.mem_cons_of_mem _ hitem, hmem⟩

theorem sections_append {α : Type} (before : List α) (b : α) (after : List α) :
    sections (b :: after) <:+ sections (before ++ b :: after) := by
  induction before with
  | nil => exact List.suffix_rfl
  | cons x before ih =>
    cases before with
    | nil => exact List.suffix_cons _ _
    | cons y before => exact ih.trans (List.suffix_cons _ _)

theorem boundaries_sorted (text : Text) (headings : List Heading) :
    (boundaries text headings).Pairwise (· < ·) := by
  have hle : (boundaries text headings).Pairwise fun a b => decide (a ≤ b) = true :=
    List.pairwise_mergeSort (by intro a b c; simpa using le_trans)
      (by intro a b; simpa using le_total a b) _
  have hne : (boundaries text headings).Nodup :=
    (List.mergeSort_perm _ _).nodup_iff.mpr (List.nodup_dedup _)
  refine hle.imp₂ ?_ hne
  intro a b hab hne
  exact lt_of_le_of_ne (of_decide_eq_true hab) hne

theorem mem_boundaries {headings : List Heading} {b : Int} :
    b ∈ boundaries text headings ↔
      b = 0 ∨ (∃ h ∈ headings, h.start = b) ∨ b = text.length := by
  rw [boundaries, List.mem_mergeSort, List.mem_dedup]
  simp

theorem between_of_length_le {n : Nat} (h : text.length ≤ n) :
    Between (text.take n) (text.drop n) := by
  rw [List.drop_of_length_le h]
  exact fun _ _ _ => nofun

theorem covers_heading {s : HeadingChunkStrategy} {headings : List Heading}
    (hsize : 0 < s.chunkSize) (hwhole : WholeWords text headings) (hword : word ∈ words text) :
    Occurs word (s.texts text headings) := by
  rw [HeadingChunkStrategy.texts]
  by_cases hnil : headings = []
  · rw [if_pos hnil]
    refine covers_fixed ?_ hword
    rw [FixedSizeChunkStrategy.init]
    show 0 < (max 1 (s.chunkSize : Int)).toNat
    omega
  · rw [if_neg hnil]
    obtain ⟨before, after, hsplit⟩ :=
      List.append_of_mem (mem_boundaries.mpr (Or.inl rfl) : 0 ∈ boundaries text headings)
    have hsorted := boundaries_sorted text headings
    rw [hsplit] at hsorted
    have hend : (text.length : Int) ∈ boundaries text headings :=
      mem_boundaries.mpr (Or.inr (Or.inr rfl))
    rw [hsplit, List.mem_append] at hend
    have hlater := (List.pairwise_append.mp hsorted).2.1
    have hafter : (text.length : Int) ∈ 0 :: after := by
      refine hend.resolve_left fun hbefore => ?_
      have hneg := (List.pairwise_append.mp hsorted).2.2 _ hbefore 0 List.mem_cons_self
      omega
    have hcuts : ∀ c ∈ after, Between (text.take c.toNat) (text.drop c.toNat) := by
      intro c hc
      have hmem : c ∈ boundaries text headings := by
        rw [hsplit]
        exact List.mem_append_right _ (List.mem_cons_of_mem _ hc)
      obtain rfl | ⟨heading, hheading, rfl⟩ | rfl := mem_boundaries.mp hmem
      · exact fun _ => nofun
      · exact hwhole heading hheading
      · exact between_of_length_le (by simp)
    obtain ⟨item, hitem, hmem⟩ := exists_section hlater (le_refl 0) hafter hcuts hword
    have hall : item ∈ sections (boundaries text headings) := by
      rw [hsplit]
      exact (sections_append before 0 after).subset hitem
    refine Occurs.flatMap hall ?_
    have hstrip : word ∈ words (strip (slice text item.1 item.2)) := by
      rwa [words_strip]
    have hne : strip (slice text item.1 item.2) ≠ [] := by
      intro hnil
      rw [hnil] at hstrip
      exact absurd hstrip List.not_mem_nil
    dsimp only
    rw [if_neg hne]
    exact occurs_splitLarge hsize _ hstrip

/-- Merging keeps the words. -/
theorem flatMap_mergeParagraphs (size : Nat) (buffer : Text) (paragraphs : List Text) :
    (mergeParagraphs size buffer paragraphs).flatMap words =
      words buffer ++ paragraphs.flatMap words := by
  induction paragraphs generalizing buffer with
  | nil =>
    rw [mergeParagraphs]
    by_cases hnil : buffer = []
    · rw [if_pos hnil, hnil]
      rfl
    · rw [if_neg hnil]
      rfl
  | cons paragraph paragraphs ih =>
    rw [mergeParagraphs, List.flatMap_cons]
    by_cases hnil : buffer = []
    · rw [if_pos hnil, ih, hnil]
      rfl
    · rw [if_neg hnil]
      by_cases hsize : (words buffer).length + (words paragraph).length ≤ size
      · have hjoin := words_join (by decide : "\n\n".toList ≠ []) (by decide)
          [buffer, paragraph]
        rw [join_cons_of_ne_nil _ _ (List.cons_ne_nil _ _), join_singleton] at hjoin
        rw [if_pos hsize, ih, hjoin]
        simp
      · rw [if_neg hsize, List.flatMap_cons, ih]

theorem covers_paragraph {s : ParagraphChunkStrategy} (hsize : 0 < s.chunkSize)
    (hword : word ∈ words text) : Occurs word (s.texts text) := by
  have hparts : (splitOn "\n\n".toList text).flatMap words = words text := by
    rw [← words_join (by decide : "\n\n".toList ≠ []) (by decide),
      PySplit.join_splitOn (by decide)]
  rw [← hparts] at hword
  obtain ⟨part, hpart, hword⟩ := List.mem_flatMap.mp hword
  have hstrip : word ∈ words (strip part) := by
    rwa [words_strip]
  set paragraphs := ((splitOn "\n\n".toList text).map strip).filter (· ≠ []) with hdef
  have hmem : strip part ∈ paragraphs := by
    refine List.mem_filter.mpr ⟨List.mem_map_of_mem hpart, decide_eq_true ?_⟩
    intro hnil
    rw [hnil] at hstrip
    exact absurd hstrip List.not_mem_nil
  have hmerged : word ∈ (mergeParagraphs s.chunkSize [] paragraphs).flatMap words := by
    rw [flatMap_mergeParagraphs]
    exact List.mem_flatMap.mpr ⟨strip part, hmem, hstrip⟩
  obtain ⟨merged, hmerged, hword⟩ := List.mem_flatMap.mp hmerged
  exact Occurs.flatMap hmerged (occurs_splitLarge hsize [] hword)

theorem Occurs.makeChunks (chunkChecksum : Text → Text) (documentId : Text)
    {texts : List (Text × Text)} (h : Occurs word texts) :
    ∃ chunk ∈ makeChunks chunkChecksum documentId texts, word ∈ words chunk.text := by
  obtain ⟨item, hitem, hmem⟩ := h
  obtain ⟨index, hindex, rfl⟩ := List.mem_iff_getElem.mp hitem
  exact ⟨_, List.mem_mapIdx.mpr ⟨index, hindex, rfl⟩, hmem⟩

end Cover

end OpenWrtCopilot.Ports.KnowledgeChunking
