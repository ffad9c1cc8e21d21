import OpenWrtCopilot.Ports.KnowledgeChunking
import OpenWrtCopilot.Verified.PyWordPositions

/-!
# Chunks that partition a document

The strategies without overlap lose no word, repeat none and keep their order, and the chunks
of the heading strategy carry the headings their words stand under.

## Main results

* `strategies_partition` — what each strategy makes of a document partitions it.
-/

namespace OpenWrtCopilot.Ports.KnowledgeSections

open Verified
open Verified.Chunks (chunks)
open Verified.PySplit (splitOn)
open Verified.PyText
open Ports.KnowledgeChunking

/-! ## What a partition is -/

/-- The chunks of a document: no word is lost or repeated, none of them is empty or too large,
and they are numbered. -/
structure Partition (documentId text : Text) (size : Nat) (chunks : List KnowledgeChunk) :
    Prop where
  words : chunks.flatMap (fun chunk => words chunk.text) = words text
  sized : ∀ chunk ∈ chunks, 1 ≤ (PyText.words chunk.text).length ∧
    (PyText.words chunk.text).length ≤ size
  numbered : ∀ index chunk, chunks[index]? = some chunk →
    chunk.id = documentId ++ "#".toList ++ natText index ∧ chunk.index = index ∧
      chunk.documentId = documentId

/-- The offset is at the beginning of a line. -/
def LineStart (text : Text) (offset : Int) : Prop :=
  ∃ n : Nat, offset = n ∧ n ≤ text.length ∧ (n = 0 ∨ text[n - 1]? = some '\n')

/-- The last heading at the last offset that is not behind the position; none before the
first heading. -/
def headingAt (headings : List Heading) (position : Nat) : Text :=
  match ((headings.map (·.start)).filter (· ≤ (position : Int))).max? with
  | none => []
  | some offset => ((headings.filter (·.start = offset)).getLast?.map (·.text)).getD []

/-- The words of a document under their headings. -/
def headedWords (text : Text) (headings : List Heading) : List (Text × Text) :=
  (wordsAt 0 text).map fun (position, word) => (headingAt headings position, word)

/-- The words of some texts under theirs. -/
def chunkWords (texts : List (Text × Text)) : List (Text × Text) :=
  texts.flatMap fun (heading, text) => (words text).map (heading, ·)

/-- Texts of one to `size` words. -/
def Sized (size : Nat) (texts : List (Text × Text)) : Prop :=
  ∀ item ∈ texts, 1 ≤ (words item.2).length ∧ (words item.2).length ≤ size

theorem partition_makeChunks {documentId text : Text} {size : Nat} {texts : List (Text × Text)}
    (chunkChecksum : Text → Text) (hwords : texts.flatMap (fun item => words item.2) = words text)
    (hsized : Sized size texts) :
    Partition documentId text size (makeChunks chunkChecksum documentId texts) where
  words := by
    rw [← hwords]
    conv_rhs => rw [← map_makeChunks chunkChecksum documentId texts, List.flatMap_map]
  sized := by
    intro chunk hchunk
    refine hsized (chunk.heading, chunk.text) ?_
    rw [← map_makeChunks chunkChecksum documentId texts]
    exact List.mem_map.mpr ⟨chunk, hchunk, rfl⟩
  numbered := by
    intro index chunk hchunk
    rw [makeChunks, List.getElem?_mapIdx] at hchunk
    obtain ⟨item, _, rfl⟩ := Option.map_eq_some_iff.mp hchunk
    exact ⟨rfl, rfl, rfl⟩

/-! ## Splitting by words -/

section Words

variable {size : Nat}

theorem chunkWords_byWords (hsize : 0 < size) (heading text : Text) :
    chunkWords (byWords size heading text) = (words text).map (heading, ·) := by
  have hgroups : ∀ group ∈ chunks size (words text), words (join " ".toList group) = group := by
    intro group hgroup
    have hinner := List.infix_of_mem_flatten hgroup
    rw [Chunks.flatten_chunks hsize] at hinner
    exact words_join_space fun w hw => word_of_mem_words (hinner.subset hw)
  have hjoined : chunkWords (byWords size heading text) =
      (chunks size (words text)).flatMap fun group => group.map (heading, ·) := by
    rw [chunkWords, byWords, List.flatMap_map]
    exact List.flatMap_congr fun group hgroup => congrArg _ (hgroups group hgroup)
  rw [hjoined, ← List.map_flatMap, List.flatMap_id', Chunks.flatten_chunks hsize]

theorem sized_byWords (hsize : 0 < size) (heading text : Text) :
    Sized size (byWords size heading text) := by
  intro item hitem
  obtain ⟨group, hgroup, rfl⟩ := List.mem_map.mp hitem
  have hinner := List.infix_of_mem_flatten hgroup
  rw [Chunks.flatten_chunks hsize] at hinner
  rw [words_join_space fun w hw => word_of_mem_words (hinner.subset hw)]
  exact Chunks.length_of_mem_chunks hsize (words text) group hgroup

theorem chunkWords_splitLarge (hsize : 0 < size) (heading text : Text) :
    chunkWords (splitLarge size heading text) = (words text).map (heading, ·) := by
  rw [splitLarge]
  by_cases hlarge : size < (words text).length
  · rw [if_pos hlarge]
    exact chunkWords_byWords hsize heading text
  · rw [if_neg hlarge]
    exact List.append_nil _

theorem sized_splitLarge (hsize : 0 < size) (heading : Text) {text : Text}
    (hne : words text ≠ []) : Sized size (splitLarge size heading text) := by
  rw [splitLarge]
  by_cases hlarge : size < (words text).length
  · rw [if_pos hlarge]
    exact sized_byWords hsize heading text
  · rw [if_neg hlarge]
    intro item hitem
    rw [List.mem_singleton.mp hitem]
    exact ⟨List.length_pos_iff.mpr hne, Nat.le_of_not_lt hlarge⟩

theorem Sized.flatMap {α : Type} {f : α → List (Text × Text)} {l : List α}
    (h : ∀ x ∈ l, Sized size (f x)) : Sized size (l.flatMap f) := by
  intro item hitem
  obtain ⟨x, hx, hmem⟩ := List.mem_flatMap.mp hitem
  exact h x hx item hmem

theorem chunkWords_flatMap {α : Type} (f : α → List (Text × Text)) (l : List α) :
    chunkWords (l.flatMap f) = l.flatMap fun x => chunkWords (f x) := List.flatMap_assoc

/-- The words without their headings. -/
theorem flatMap_words_eq (texts : List (Text × Text)) :
    texts.flatMap (fun item => words item.2) = (chunkWords texts).map Prod.snd := by
  rw [chunkWords, List.map_flatMap]
  refine List.flatMap_congr fun item _ => ?_
  rw [List.map_map]
  exact (List.map_id _).symm

/-- A text that begins and ends with no space has words. -/
theorem words_strip_ne_nil {t : Text} (h : strip t ≠ []) : words (strip t) ≠ [] := by
  obtain ⟨c, rest, hcons⟩ := List.exists_cons_of_ne_nil h
  obtain ⟨first, others, hwords⟩ := head?_words (t := rest) (isSpace_of_strip_eq_cons hcons)
  rw [hcons, hwords]
  exact List.cons_ne_nil _ _

end Words

/-! ## The strategies -/

section Strategies

variable {size : Nat} {text : Text}

theorem chunkWords_fixed {s : FixedSizeChunkStrategy} (hsize : 0 < s.chunkSize) :
    chunkWords (s.texts text) = (words text).map ([], ·) := chunkWords_byWords hsize [] text

/-- What is merged has words. -/
theorem words_mergeParagraphs {buffer : Text} {paragraphs : List Text}
    (hbuffer : buffer ≠ [] → words buffer ≠ []) (hall : ∀ p ∈ paragraphs, words p ≠ []) :
    ∀ p ∈ mergeParagraphs size buffer paragraphs, words p ≠ [] := by
  induction paragraphs generalizing buffer with
  | nil =>
    rw [mergeParagraphs]
    by_cases hnil : buffer = []
    · rw [if_pos hnil]
      simp
    · rw [if_neg hnil]
      intro p hp
      rw [List.mem_singleton.mp hp]
      exact hbuffer hnil
  | cons paragraph paragraphs ih =>
    obtain ⟨hfirst, hrest⟩ := List.forall_mem_cons.mp hall
    rw [mergeParagraphs]
    by_cases hnil : buffer = []
    · rw [if_pos hnil]
      exact ih (fun _ => hfirst) hrest
    · rw [if_neg hnil]
      by_cases hsmall : (words buffer).length + (words paragraph).length ≤ size
      · rw [if_pos hsmall]
        refine ih (fun _ => ?_) hrest
        have hjoin := words_join (by decide : "\n\n".toList ≠ []) (by decide)
          [buffer, paragraph]
        rw [join_cons_of_ne_nil _ _ (List.cons_ne_nil _ _), join_singleton] at hjoin
        rw [hjoin, List.flatMap_cons]
        exact List.append_ne_nil_of_left_ne_nil (hbuffer hnil) _
      · rw [if_neg hsmall]
        intro p hp
        obtain rfl | hp := List.mem_cons.mp hp
        · exact hbuffer hnil
        · exact ih (fun _ => hfirst) hrest p hp

/-- The paragraphs of a text. -/
def paragraphsOf (text : Text) : List Text :=
  ((splitOn "\n\n".toList text).map strip).filter (· ≠ [])

theorem flatMap_words_paragraphsOf (text : Text) :
    (paragraphsOf text).flatMap words = words text := by
  have hparts : (splitOn "\n\n".toList text).flatMap words = words text := by
    rw [← words_join (by decide : "\n\n".toList ≠ []) (by decide),
      PySplit.join_splitOn (by decide)]
  rw [← hparts, paragraphsOf]
  induction splitOn "\n\n".toList text with
  | nil => rfl
  | cons part parts ih =>
    rw [List.map_cons, List.flatMap_cons]
    by_cases hnil : strip part = []
    · have hnone : words part = [] := by rw [← words_strip, hnil, words]
      rw [List.filter_cons_of_neg (by simpa using hnil), ih, hnone, List.nil_append]
    · rw [List.filter_cons_of_pos (by simpa using hnil), List.flatMap_cons, ih, words_strip]

theorem chunkWords_paragraph {s : ParagraphChunkStrategy} (hsize : 0 < s.chunkSize) :
    chunkWords (s.texts text) = (words text).map ([], ·) := by
  have hmerged := flatMap_mergeParagraphs s.chunkSize [] (paragraphsOf text)
  rw [flatMap_words_paragraphsOf, words, List.nil_append] at hmerged
  rw [ParagraphChunkStrategy.texts, chunkWords_flatMap, ← hmerged, List.map_flatMap]
  exact List.flatMap_congr fun paragraph _ => chunkWords_splitLarge hsize [] paragraph

theorem sized_paragraph {s : ParagraphChunkStrategy} (hsize : 0 < s.chunkSize) :
    Sized s.chunkSize (s.texts text) := by
  refine Sized.flatMap fun paragraph hparagraph => sized_splitLarge hsize [] ?_
  refine words_mergeParagraphs (fun hne => absurd rfl hne) ?_ paragraph hparagraph
  intro p hp
  obtain ⟨hmem, hne⟩ := List.mem_filter.mp hp
  obtain ⟨part, _, rfl⟩ := List.mem_map.mp hmem
  exact words_strip_ne_nil (of_decide_eq_true hne)

/-! ### Sections -/

/-- No line start is inside a word. -/
theorem between_of_lineStart {offset : Int} (h : LineStart text offset) :
    Between (text.take offset.toNat) (text.drop offset.toNat) := by
  obtain ⟨n, rfl, hle, hstart⟩ := h
  rw [Int.toNat_natCast]
  obtain rfl | hnewline := hstart
  · exact fun _ => nofun
  · intro c hc d _
    have hpos : 0 < n := by
      by_contra hzero
      obtain rfl : n = 0 := by omega
      cases hc
    have hlast : (text.take n).getLast? = text[n - 1]? := by
      rw [List.getLast?_take, if_neg (Nat.ne_of_gt hpos), hnewline, Option.some_or]
    rw [hlast, hnewline] at hc
    cases hc
    exact .inl (by decide)

/-- The sections from a boundary on hold the words from there on, with their positions. -/
theorem flatMap_sections {bs : List Int} {b : Int} (hsorted : (b :: bs).Pairwise (· < ·))
    (hb : 0 ≤ b) (hend : (b :: bs).getLast? = some (text.length : Int))
    (hcuts : ∀ c ∈ bs, Between (text.take c.toNat) (text.drop c.toNat)) :
    ((sections (b :: bs)).flatMap fun item => wordsAt item.1.toNat (slice text item.1 item.2)) =
      wordsAt b.toNat (text.drop b.toNat) := by
  induction bs generalizing b with
  | nil =>
    obtain rfl : b = (text.length : Int) := Option.some.inj hend
    rw [Int.toNat_natCast, List.drop_length]
    rfl
  | cons e bs ih =>
    obtain ⟨hfirst, hlater⟩ := List.pairwise_cons.mp hsorted
    have hbe : b < e := hfirst e List.mem_cons_self
    rw [List.getLast?_cons_cons] at hend
    have he : e ≤ text.length := by
      have hmem := List.mem_of_getLast? hend
      obtain heq | hmem := List.mem_cons.mp hmem
      · exact heq.ge
      · exact ((List.pairwise_cons.mp hlater).1 _ hmem).le
    obtain ⟨start, rfl⟩ := Int.eq_ofNat_of_zero_le hb
    obtain ⟨stop, rfl⟩ := Int.eq_ofNat_of_zero_le (hb.trans hbe.le)
    have hparts : text.drop start = (text.take stop).drop start ++ text.drop stop :=
      drop_section (by omega) (by omega)
    have hrest := ih hlater (by omega) hend fun c hc => hcuts c (List.mem_cons_of_mem _ hc)
    have hcut := hcuts stop List.mem_cons_self
    rw [Int.toNat_natCast] at hcut
    rw [sections, List.flatMap_cons, hrest, slice_of_le, Int.toNat_natCast, Int.toNat_natCast]
    have hlength : start + ((text.take stop).drop start).length = stop := by
      rw [List.length_drop, List.length_take]
      omega
    rw [hparts,
      wordsAt_append (between_section (by omega) (by omega) hcut), hlength]

/-- No boundary lies within a section. -/
theorem mem_sections {bs : List Int} (hsorted : bs.Pairwise (· < ·)) {item : Int × Int}
    (h : item ∈ sections bs) :
    item.1 ∈ bs ∧ item.2 ∈ bs ∧ item.1 < item.2 ∧ ∀ c ∈ bs, c ≤ item.1 ∨ item.2 ≤ c := by
  induction bs with
  | nil => cases h
  | cons b bs ih =>
    cases bs with
    | nil => cases h
    | cons e bs =>
      obtain ⟨hfirst, hlater⟩ := List.pairwise_cons.mp hsorted
      obtain rfl | hmem := List.mem_cons.mp h
      · refine ⟨List.mem_cons_self, List.mem_cons_of_mem _ List.mem_cons_self,
          hfirst e List.mem_cons_self, ?_⟩
        intro c hc
        obtain rfl | hc := List.mem_cons.mp hc
        · exact .inl (le_refl c)
        · obtain rfl | hc := List.mem_cons.mp hc
          · exact .inr (le_refl c)
          · exact .inr ((List.pairwise_cons.mp hlater).1 c hc).le
      · obtain ⟨hstart, hstop, hlt, hnone⟩ := ih hlater hmem
        refine ⟨List.mem_cons_of_mem _ hstart, List.mem_cons_of_mem _ hstop, hlt, ?_⟩
        intro c hc
        obtain rfl | hc := List.mem_cons.mp hc
        · exact .inl (hfirst _ hstart).le
        · exact hnone c hc

theorem headingByOffset_eq (headings : List Heading) (start : Int) :
    headingByOffset headings start =
      ((headings.filter (·.start = start)).getLast?.map (·.text)).getD [] := by
  rw [headingByOffset, PyDict.get?_foldl_set_last, PyDict.get?_nil, Option.or_none]

section Headings

variable {headings : List Heading} (hstarts : ∀ h ∈ headings, LineStart text h.start)
include hstarts

theorem range_of_mem_boundaries {b : Int} (hb : b ∈ boundaries text headings) :
    0 ≤ b ∧ b ≤ text.length := by
  obtain rfl | ⟨heading, hheading, rfl⟩ | rfl := mem_boundaries.mp hb
  · omega
  · obtain ⟨n, hn, hle, _⟩ := hstarts heading hheading
    omega
  · omega

/-- The boundaries go from the beginning of the text to its end. -/
theorem boundaries_ends : ∃ bs, boundaries text headings = 0 :: bs ∧
    (0 :: bs).getLast? = some (text.length : Int) := by
  have hsorted := boundaries_sorted text headings
  obtain ⟨before, after, hsplit⟩ :=
    List.append_of_mem (mem_boundaries.mpr (.inl rfl) : 0 ∈ boundaries text headings)
  have hnone : before = [] := by
    refine List.eq_nil_iff_forall_not_mem.mpr fun b hb => ?_
    have hmem : b ∈ boundaries text headings := by
      rw [hsplit]
      exact List.mem_append_left _ hb
    rw [hsplit] at hsorted
    have hneg := (List.pairwise_append.mp hsorted).2.2 b hb 0 List.mem_cons_self
    have hrange := range_of_mem_boundaries hstarts hmem
    omega
  rw [hnone, List.nil_append] at hsplit
  refine ⟨after, hsplit, ?_⟩
  obtain ⟨front, rest, hlast⟩ := List.append_of_mem
    (mem_boundaries.mpr (.inr (.inr rfl)) : (text.length : Int) ∈ boundaries text headings)
  have hend : rest = [] := by
    refine List.eq_nil_iff_forall_not_mem.mpr fun b hb => ?_
    have hmem : b ∈ boundaries text headings := by
      rw [hlast]
      exact List.mem_append_right _ (List.mem_cons_of_mem _ hb)
    rw [hlast] at hsorted
    have hmore := (List.pairwise_cons.mp (List.pairwise_append.mp hsorted).2.1).1 b hb
    have hrange := range_of_mem_boundaries hstarts hmem
    omega
  rw [← hsplit, hlast, hend, List.getLast?_concat]

/-- The heading of a section is that of every position in it. -/
theorem headingAt_of_section {item : Int × Int} (hitem : item ∈ sections (boundaries text headings))
    {position : Nat} (hstart : item.1 ≤ position) (hstop : (position : Int) < item.2) :
    headingAt headings position = headingByOffset headings item.1 := by
  obtain ⟨hfirst, hlast, hlt, hnone⟩ := mem_sections (boundaries_sorted text headings) hitem
  have hbefore : ∀ h ∈ headings, h.start ≤ position → h.start ≤ item.1 := by
    intro h hh hle
    obtain hle | hge := hnone h.start (mem_boundaries.mpr (.inr (.inl ⟨h, hh, rfl⟩)))
    · exact hle
    · omega
  rw [headingByOffset_eq, headingAt]
  by_cases hhere : ∃ h ∈ headings, h.start = item.1
  · obtain ⟨heading, hheading, heq⟩ := hhere
    have hmax : ((headings.map (·.start)).filter (· ≤ (position : Int))).max? = some item.1 := by
      refine List.max?_eq_some_iff.mpr ⟨?_, ?_⟩
      · refine List.mem_filter.mpr ⟨List.mem_map.mpr ⟨heading, hheading, heq⟩, ?_⟩
        exact decide_eq_true hstart
      · intro b hb
        obtain ⟨hmem, hle⟩ := List.mem_filter.mp hb
        obtain ⟨h, hh, rfl⟩ := List.mem_map.mp hmem
        exact hbefore h hh (of_decide_eq_true hle)
    rw [hmax]
  · have hzero : item.1 = 0 := by
      obtain hzero | hheading | hend := mem_boundaries.mp hfirst
      · exact hzero
      · exact absurd hheading hhere
      · have hrange := range_of_mem_boundaries hstarts hlast
        omega
    have hempty : (headings.map (·.start)).filter (· ≤ (position : Int)) = [] := by
      refine List.filter_eq_nil_iff.mpr fun b hb hle => hhere ?_
      obtain ⟨h, hh, rfl⟩ := List.mem_map.mp hb
      have hle := hbefore h hh (of_decide_eq_true hle)
      obtain ⟨n, hn, _⟩ := hstarts h hh
      exact ⟨h, hh, by omega⟩
    have hnothing : headings.filter (·.start = item.1) = [] :=
      List.filter_eq_nil_iff.mpr fun h hh heq => hhere ⟨h, hh, of_decide_eq_true heq⟩
    rw [hempty, hnothing]
    rfl

/-- The words of one section, under its heading. -/
theorem chunkWords_section {s : HeadingChunkStrategy} (hsize : 0 < s.chunkSize) {item : Int × Int}
    (hitem : item ∈ sections (boundaries text headings)) :
    chunkWords (let part := strip (slice text item.1 item.2)
      if part = [] then [] else splitLarge s.chunkSize (headingByOffset headings item.1) part) =
    (wordsAt item.1.toNat (slice text item.1 item.2)).map fun (position, word) =>
      (headingAt headings position, word) := by
  obtain ⟨hfirst, hlast, hlt, _⟩ := mem_sections (boundaries_sorted text headings) hitem
  have hfirst := range_of_mem_boundaries hstarts hfirst
  have hlast := range_of_mem_boundaries hstarts hlast
  have hheading : (wordsAt item.1.toNat (slice text item.1 item.2)).map (fun (position, word) =>
      (headingAt headings position, word)) =
      (words (slice text item.1 item.2)).map (headingByOffset headings item.1, ·) := by
    rw [← map_snd_wordsAt item.1.toNat, List.map_map]
    refine List.map_congr_left fun word hword => ?_
    obtain ⟨hge, hless⟩ := range_of_mem_wordsAt hword
    have hlength : (slice text item.1 item.2).length = item.2.toNat - item.1.toNat := by
      obtain ⟨start, hstart⟩ := Int.eq_ofNat_of_zero_le hfirst.1
      obtain ⟨stop, hstop⟩ := Int.eq_ofNat_of_zero_le hlast.1
      rw [hstart, hstop, slice_of_le, List.length_drop, List.length_take]
      omega
    refine Prod.ext (headingAt_of_section hstarts hitem ?_ ?_) rfl
    · omega
    · omega
  rw [hheading, ← words_strip]
  dsimp only
  by_cases hnil : strip (slice text item.1 item.2) = []
  · rw [if_pos hnil, hnil]
    rfl
  · rw [if_neg hnil]
    exact chunkWords_splitLarge hsize _ _

theorem chunkWords_heading {s : HeadingChunkStrategy} (hsize : 0 < s.chunkSize) :
    chunkWords (s.texts text headings) = headedWords text headings := by
  rw [HeadingChunkStrategy.texts]
  by_cases hnil : headings = []
  · have hfixed : 0 < (FixedSizeChunkStrategy.init s.chunkSize).chunkSize := by
      show 0 < (max 1 (s.chunkSize : Int)).toNat
      omega
    rw [if_pos hnil, chunkWords_fixed hfixed, headedWords, hnil, ← map_snd_wordsAt 0, List.map_map]
    rfl
  · obtain ⟨bs, hbs, hend⟩ := boundaries_ends hstarts
    have hsorted := boundaries_sorted text headings
    rw [hbs] at hsorted
    have hcuts : ∀ c ∈ bs, Between (text.take c.toNat) (text.drop c.toNat) := by
      intro c hc
      have hmem : c ∈ boundaries text headings := by
        rw [hbs]
        exact List.mem_cons_of_mem _ hc
      obtain rfl | ⟨heading, hheading, rfl⟩ | rfl := mem_boundaries.mp hmem
      · rintro _ ⟨⟩
      · exact between_of_lineStart (hstarts heading hheading)
      · exact between_of_length_le (by simp)
    have hsections := flatMap_sections hsorted (le_refl 0) hend hcuts
    rw [← hbs] at hsections
    rw [if_neg hnil, chunkWords_flatMap, headedWords]
    have hwhole : wordsAt 0 text = wordsAt (0 : Int).toNat (text.drop (0 : Int).toNat) := rfl
    rw [hwhole, ← hsections, List.map_flatMap]
    exact List.flatMap_congr fun item hitem => chunkWords_section hstarts hsize hitem

end Headings

theorem sized_heading {s : HeadingChunkStrategy} (hsize : 0 < s.chunkSize)
    (headings : List Heading) : Sized s.chunkSize (s.texts text headings) := by
  rw [HeadingChunkStrategy.texts]
  by_cases hnil : headings = []
  · have hfixed : (FixedSizeChunkStrategy.init s.chunkSize).chunkSize = s.chunkSize := by
      show (max 1 (s.chunkSize : Int)).toNat = s.chunkSize
      omega
    rw [if_pos hnil, FixedSizeChunkStrategy.texts, hfixed]
    exact sized_byWords hsize [] text
  · rw [if_neg hnil]
    refine Sized.flatMap fun item _ => ?_
    dsimp only
    by_cases hpart : strip (slice text item.1 item.2) = []
    · rw [if_pos hpart]
      exact List.forall_mem_nil _
    · rw [if_neg hpart]
      exact sized_splitLarge hsize _ (words_strip_ne_nil hpart)

end Strategies

theorem map_snd_headed (heading : Text) (ws : List Text) :
    (ws.map (heading, ·)).map Prod.snd = ws := by
  rw [List.map_map]
  exact List.map_id ws

theorem map_snd_headedWords (text : Text) (headings : List Heading) :
    (headedWords text headings).map Prod.snd = words text := by
  rw [headedWords, List.map_map]
  exact map_snd_wordsAt 0 text

/-- The words of the chunks under their headings. -/
theorem flatMap_makeChunks (chunkChecksum : Text → Text) (documentId : Text)
    (texts : List (Text × Text)) :
    ((makeChunks chunkChecksum documentId texts).flatMap fun chunk =>
      (words chunk.text).map (chunk.heading, ·)) = chunkWords texts := by
  conv_rhs => rw [← map_makeChunks chunkChecksum documentId texts, chunkWords, List.flatMap_map]

/--
**The chunks of the fixed-size, the paragraph and, for headings at line starts, the heading
strategy partition the document, and those of the latter carry the headings their words
stand under.**
-/
theorem strategies_partition (chunkChecksum : Text → Text) (documentId text : Text)
    (chunkSize : Int) (headings : List Heading) :
    let size := (max 1 chunkSize).toNat
    let made := makeChunks chunkChecksum documentId
    Partition documentId text size (made ((FixedSizeChunkStrategy.init chunkSize).texts text)) ∧
    Partition documentId text size (made ((ParagraphChunkStrategy.init chunkSize).texts text)) ∧
    ((∀ h ∈ headings, LineStart text h.start) →
      let chunks := made ((HeadingChunkStrategy.init chunkSize).texts text headings)
      Partition documentId text size chunks ∧
      (chunks.flatMap fun chunk => (words chunk.text).map (chunk.heading, ·)) =
        headedWords text headings) := by
  intro size made
  have hsize : 0 < size := by
    show 0 < (max 1 chunkSize).toNat
    omega
  have hfixed : chunkWords ((FixedSizeChunkStrategy.init chunkSize).texts text) =
      (words text).map ([], ·) := chunkWords_fixed hsize
  have hparagraph : chunkWords ((ParagraphChunkStrategy.init chunkSize).texts text) =
      (words text).map ([], ·) := chunkWords_paragraph hsize
  refine ⟨partition_makeChunks chunkChecksum ?_ (sized_byWords hsize [] text),
    partition_makeChunks chunkChecksum ?_ (sized_paragraph hsize), fun hstarts => ?_⟩
  · rw [flatMap_words_eq, hfixed, map_snd_headed]
  · rw [flatMap_words_eq, hparagraph, map_snd_headed]
  · have hheading : chunkWords ((HeadingChunkStrategy.init chunkSize).texts text headings) =
        headedWords text headings := chunkWords_heading hstarts hsize
    refine ⟨partition_makeChunks chunkChecksum ?_ (sized_heading hsize headings), ?_⟩
    · rw [flatMap_words_eq, hheading, map_snd_headedWords]
    · exact (flatMap_makeChunks ..).trans hheading

/-- A note with a heading on its second line, in chunks of at most two words. -/
theorem note_partitioned :
    let text := "intro\n# A\nsome more words".toList
    let headings : List Heading := [{ text := "A".toList, offset := some 6 }]
    let chunks := makeChunks id "note".toList ((HeadingChunkStrategy.init 2).texts text headings)
    Partition "note".toList text 2 chunks ∧
    (chunks.flatMap fun chunk => (words chunk.text).map (chunk.heading, ·)) =
      headedWords text headings := by
  refine (strategies_partition id "note".toList _ 2 _).2.2 fun h hh => ?_
  obtain rfl := List.mem_singleton.mp hh
  exact ⟨6, rfl, by decide, .inr (by decide)⟩

end OpenWrtCopilot.Ports.KnowledgeSections
