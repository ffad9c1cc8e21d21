import OpenWrtCopilot.Ports.KnowledgeChunking
import OpenWrtCopilot.Ports.KnowledgeIndex

/-!
# Chunkers that collections share

Ports `KnowledgeManager._chunk_document` with the chunkers of the registry.  The registry has
one chunker for each strategy.  A pass over a collection writes the configuration of the
collection into the chunker it uses, past the constructor: a negative overlap is kept, and where
the configuration has no overlap, the one that was there before stays.

## Main results

* `indexCollection_eq` — within a pass the chunker does not change after the first document.
* `own_of_fitting` — the condition under which all chunks are those of the collection's own
  configuration, and have all words of their documents, over whole runs.
* `earlier_overlap_kept` — windows with the overlap of another collection.
-/

namespace OpenWrtCopilot.Ports.KnowledgeChunkers

open Verified
open Verified.PyDict (get?)
open Verified.PyText
open Ports.KnowledgeChunking
open Ports.KnowledgeIndex (Entry Indexer IndexResult Item KnowledgeDocument Pass
  checksumOf ingest orText reconcile)
open Ports.KnowledgeIndex.Indexer (documents)

variable {M C : Type}

/-! ## The registry -/

/-- The chunkers of a `KnowledgeRegistry`. -/
structure Chunkers where
  fixed : FixedSizeChunkStrategy
  sliding : SlidingWindowChunkStrategy
  heading : HeadingChunkStrategy
  paragraph : ParagraphChunkStrategy

/-- `register_builtins`. -/
def Chunkers.builtin : Chunkers where
  fixed := .init 300
  sliding := .init 300 none
  heading := .init 300
  paragraph := .init 500

/-- Chunkers that are constructed with a configuration. -/
def Chunkers.ofConfig (chunking : ChunkingConfig) : Chunkers where
  fixed := .init chunking.chunkSize
  sliding := .init chunking.chunkSize chunking.overlap
  heading := .init chunking.chunkSize
  paragraph := .init chunking.chunkSize

/-- The attributes that `_chunk_document` sets. -/
def Chunkers.configure (chunking : ChunkingConfig) (chunkers : Chunkers) : Chunkers :=
  match chunking.strategy with
  | .fixed => { chunkers with fixed := { chunkSize := chunking.chunkSize } }
  | .sliding =>
      { chunkers with sliding :=
          { windowSize := chunking.chunkSize
            overlap := chunking.overlap.getD chunkers.sliding.overlap } }
  | .heading => { chunkers with heading := { chunkSize := chunking.chunkSize } }
  | .paragraph => { chunkers with paragraph := { chunkSize := chunking.chunkSize } }

section Chunk

-- `chunk_checksum`, and `metadata["headings"]`
variable (chunkChecksum : Text → Text) (headings : M → List Heading)

/-- `strategy.chunk`. -/
def Chunkers.chunk (chunkers : Chunkers) (strategy : Strategy)
    (document : KnowledgeDocument M) : List KnowledgeChunk :=
  makeChunks chunkChecksum document.id
    (match strategy with
    | .fixed => chunkers.fixed.texts document.text
    | .sliding => chunkers.sliding.texts document.text
    | .heading => chunkers.heading.texts document.text (headings document.metadata)
    | .paragraph => chunkers.paragraph.texts document.text)

/-- `_chunk_document`. -/
def chunkDocument (chunking : ChunkingConfig) (document : KnowledgeDocument M)
    (chunkers : Chunkers) : List KnowledgeChunk × Chunkers :=
  let chunkers := chunkers.configure chunking
  (chunkers.chunk chunkChecksum headings chunking.strategy document, chunkers)

/-- The chunks of a document by a configuration alone. -/
def ownChunks (chunking : ChunkingConfig) (document : KnowledgeDocument M) :
    List KnowledgeChunk :=
  (Chunkers.ofConfig chunking).chunk chunkChecksum headings chunking.strategy document

end Chunk

/-! ## Passes -/

/-- What a pass over a collection works on, but for the chunkers. -/
structure Source (M : Type) where
  collection : Text
  formats : List Text := []
  references : Except Text (List Text)
  read : Text → Except Text (KnowledgeDocument M)
  extract : KnowledgeDocument M → Except Text M
  language : M → Text

/-- The pass with a function for the chunks. -/
def Source.pass (source : Source M) (chunk : KnowledgeDocument M → List KnowledgeChunk) :
    Pass M KnowledgeChunk where
  collection := source.collection
  formats := source.formats
  references := source.references
  read := source.read
  chunk document := .ok (chunk document)
  extract := source.extract
  language := source.language

/-- A document of another format is skipped. -/
def Source.Skips (source : Source M) (document : KnowledgeDocument M) : Prop :=
  source.formats ≠ [] ∧ document.format ∉ source.formats

instance (source : Source M) (document : KnowledgeDocument M) :
    Decidable (source.Skips document) := by
  unfold Source.Skips
  infer_instance

section Index

variable (documentChecksum chunkChecksum : Text → Text) (headings : M → List Heading)

/-- The steps before the indexer. -/
def prepare (source : Source M) (chunking : ChunkingConfig) (reference : Text)
    (chunkers : Chunkers) : Except Text (Option (Item M KnowledgeChunk)) × Chunkers :=
  match source.read reference with
  | .error e => (.error e, chunkers)
  | .ok document =>
      if source.Skips document then (.ok none, chunkers)
      else
        let (chunks, chunkers) :=
          chunkDocument chunkChecksum headings chunking document chunkers
        match source.extract document with
        | .error e => (.error e, chunkers)
        | .ok metadata =>
            (.ok (some
              { document := { document with
                  metadata := metadata
                  language := orText document.language (source.language metadata)
                  checksum := checksumOf documentChecksum document }
                chunks := chunks }),
              chunkers)

/-- The loop of `index_collection`. -/
def indexReferences (source : Source M) (chunking : ChunkingConfig) :
    List Text → IndexResult → List Text → Indexer M KnowledgeChunk → Chunkers →
      (Except Text (IndexResult × List Text) × Indexer M KnowledgeChunk) × Chunkers
  | [], result, seen, ix, chunkers => ((.ok (result, seen), ix), chunkers)
  | reference :: references, result, seen, ix, chunkers =>
      match prepare documentChecksum chunkChecksum headings source chunking reference chunkers with
      | (.error e, chunkers) => ((.error e, ix), chunkers)
      | (.ok none, chunkers) => indexReferences source chunking references result seen ix chunkers
      | (.ok (some item), chunkers) =>
          let (version, ix) :=
            ingest documentChecksum source.collection item.document item.chunks ix
          indexReferences source chunking references (result.tally version)
            (seen ++ [item.document.id]) ix chunkers

/-- `index_collection`. -/
def indexCollection (source : Source M) (chunking : ChunkingConfig)
    (ix : Indexer M KnowledgeChunk) (chunkers : Chunkers) :
    (Except Text IndexResult × Indexer M KnowledgeChunk) × Chunkers :=
  match source.references with
  | .error e => ((.error e, ix), chunkers)
  | .ok references =>
      match indexReferences documentChecksum chunkChecksum headings source chunking references
          { documentsSeen := references.length } [] ix chunkers with
      | ((.error e, ix), chunkers) => ((.error e, ix), chunkers)
      | ((.ok (result, seen), ix), chunkers) =>
          let (removed, ix) := reconcile seen source.collection ix
          ((.ok { result with
              removed := removed.length
              versions := result.versions ++ removed
              chunksTotal := ((documents source.collection ix).map fun document =>
                (Indexer.chunks document.id ix).length).sum },
            ix), chunkers)

/-- What a `KnowledgeManager` keeps. -/
structure Manager (M : Type) where
  index : Indexer M KnowledgeChunk := []
  chunkers : Chunkers := .builtin

/-- One pass, with the configuration of its collection; an exception leaves what was done. -/
def step (configs : Text → ChunkingConfig) (source : Source M) (s : Manager M) :
    Option (Manager M) :=
  let ((_, ix), chunkers) := indexCollection documentChecksum chunkChecksum headings source
    (configs source.collection) s.index s.chunkers
  some { index := ix, chunkers := chunkers }

/-! ## The property and the condition -/

/-- The document was read for the collection, and the chunks are its own: those of the
collection's configuration, with all its words. -/
def Own (configs : Text → ChunkingConfig) (sources : List (Source M)) (collectionId : Text)
    (stored : KnowledgeDocument M) (chunks : List KnowledgeChunk) : Prop :=
  ∃ source ∈ sources, source.collection = collectionId ∧
    ∃ reference document, source.read reference = .ok document ∧
      document.id = stored.id ∧ document.text = stored.text ∧
      chunks = ownChunks chunkChecksum headings (configs collectionId) document ∧
      Covers chunks document.text

/-- All chunks of an indexer belong to documents they are related to. -/
def FromDocuments (P : Text → KnowledgeDocument M → List C → Prop) (ix : Indexer M C) : Prop :=
  ∀ c entry, get? c ix = some entry → ∀ id chunks, get? id entry.chunks = some chunks →
    ∃ document, get? id entry.documents = some document ∧ P c document chunks

/-- The document is cut as its collection's configuration alone says, without losing a word:
windows that are needed at all begin as far apart as the configuration says, and no heading
begins inside a word. -/
def Fits (chunking : ChunkingConfig) (chunkers : Chunkers) (document : KnowledgeDocument M) :
    Prop :=
  match chunking.strategy with
  | .sliding =>
      (words document.text).length ≤ chunking.chunkSize ∨
        (chunkers.configure chunking).sliding.stride =
          (Chunkers.ofConfig chunking).sliding.stride
  | .heading => WholeWords document.text (headings document.metadata)
  | _ => True

/-- So are all documents of a pass. -/
def Fitting (configs : Text → ChunkingConfig) (s : Manager M) (source : Source M) : Prop :=
  ∀ reference document, source.read reference = .ok document → ¬ source.Skips document →
    Fits headings (configs source.collection) s.chunkers document

end Index

/-! ## One pass -/

section Equal

variable {documentChecksum chunkChecksum : Text → Text} {headings : M → List Heading}

@[simp] theorem configure_configure (chunking : ChunkingConfig) (chunkers : Chunkers) :
    (chunkers.configure chunking).configure chunking = chunkers.configure chunking := by
  obtain ⟨strategy, chunkSize, overlap, hpos⟩ := chunking
  cases strategy with
  | fixed => rfl
  | sliding =>
    cases overlap with
    | none => rfl
    | some overlap => rfl
  | heading => rfl
  | paragraph => rfl

/-- The steps before the indexer, with the chunker as the configuration leaves it. -/
theorem prepare_eq (source : Source M) (chunking : ChunkingConfig) (reference : Text)
    (chunkers : Chunkers) :
    (prepare documentChecksum chunkChecksum headings source chunking reference chunkers).1 =
        KnowledgeIndex.prepare documentChecksum
          (source.pass ((chunkers.configure chunking).chunk chunkChecksum headings
            chunking.strategy)) reference ∧
      (prepare documentChecksum chunkChecksum headings source chunking reference
        chunkers).2.configure chunking = chunkers.configure chunking := by
  rw [prepare, KnowledgeIndex.prepare]
  show _ = (source.read reference >>= _) ∧ _
  cases source.read reference with
  | error e => exact ⟨rfl, rfl⟩
  | ok document =>
    dsimp only
    by_cases hskip : source.Skips document
    · rw [if_pos hskip]
      refine ⟨?_, rfl⟩
      show _ = if source.Skips document then _ else _
      rw [if_pos hskip]
      rfl
    · rw [if_neg hskip]
      show _ = (if source.Skips document then _ else _) ∧ _
      rw [if_neg hskip]
      show _ = (source.extract document >>= _) ∧ _
      rw [chunkDocument]
      cases source.extract document with
      | error e => exact ⟨rfl, configure_configure chunking chunkers⟩
      | ok metadata => exact ⟨rfl, configure_configure chunking chunkers⟩

/-- The chunker of a pass stays as the first document leaves it. -/
theorem indexReferences_eq (source : Source M) (chunking : ChunkingConfig)
    {configured : Chunkers} (references : List Text) (result : IndexResult) (seen : List Text)
    (ix : Indexer M KnowledgeChunk) {chunkers : Chunkers}
    (hchunkers : chunkers.configure chunking = configured) :
    (indexReferences documentChecksum chunkChecksum headings source chunking references result
        seen ix chunkers).1 =
      KnowledgeIndex.indexReferences documentChecksum
        (source.pass (configured.chunk chunkChecksum headings chunking.strategy)) references
        result seen ix := by
  induction references generalizing result seen ix chunkers with
  | nil => rfl
  | cons reference references ih =>
    obtain ⟨hfst, hsnd⟩ := @prepare_eq M documentChecksum chunkChecksum headings source
      chunking reference chunkers
    rw [hchunkers] at hfst hsnd
    rw [indexReferences, KnowledgeIndex.indexReferences, ← hfst]
    cases hprepare : prepare documentChecksum chunkChecksum headings source chunking reference
        chunkers with
    | mk prepared chunkers' =>
      rw [hprepare] at hsnd
      cases prepared with
      | error e => rfl
      | ok prepared =>
        cases prepared with
        | none => exact ih result seen ix hsnd
        | some item => exact ih _ _ _ hsnd

/-- A pass is a pass with the chunker that its configuration leaves. -/
theorem indexCollection_eq (source : Source M) (chunking : ChunkingConfig)
    (ix : Indexer M KnowledgeChunk) (chunkers : Chunkers) :
    (indexCollection documentChecksum chunkChecksum headings source chunking ix chunkers).1 =
      KnowledgeIndex.indexCollection documentChecksum
        (source.pass ((chunkers.configure chunking).chunk chunkChecksum headings
          chunking.strategy)) ix := by
  rw [indexCollection, KnowledgeIndex.indexCollection]
  show _ = match source.references with
    | .error e => _
    | .ok references => _
  cases source.references with
  | error e => rfl
  | ok references =>
    dsimp only
    rw [← indexReferences_eq source chunking references _ _ ix rfl]
    cases hindex : indexReferences documentChecksum chunkChecksum headings source chunking
        references { documentsSeen := references.length } [] ix chunkers with
    | mk outcome chunkers' =>
      obtain ⟨ended, ix'⟩ := outcome
      cases ended with
      | error e => rfl
      | ok ended => rfl

end Equal

/-! ## Chunks of a document's own -/

section Own

variable {chunkChecksum : Text → Text} {headings : M → List Heading}
  {chunking : ChunkingConfig} {chunkers : Chunkers} {document : KnowledgeDocument M}

/-- Windows that no text needs do not differ. -/
theorem sliding_texts_eq {s s' : SlidingWindowChunkStrategy} (hsize : s.windowSize = s'.windowSize)
    {text : Text} (h : (words text).length ≤ s.windowSize ∨ s.stride = s'.stride) :
    s.texts text = s'.texts text := by
  rw [SlidingWindowChunkStrategy.texts, SlidingWindowChunkStrategy.texts, ← hsize]
  obtain hshort | hstride := h
  · by_cases hnil : words text = []
    · rw [hnil, Chunks.windows_nil, Chunks.windows_nil]
    · rw [Chunks.windows_of_length_le s.stride_pos hnil hshort,
        Chunks.windows_of_length_le s'.stride_pos hnil hshort]
  · rw [hstride]

/-- A document that fits is cut as if the chunker were new. -/
theorem chunk_eq_ownChunks (h : Fits headings chunking chunkers document) :
    (chunkers.configure chunking).chunk chunkChecksum headings chunking.strategy document =
      ownChunks chunkChecksum headings chunking document := by
  obtain ⟨strategy, chunkSize, overlap, hpos⟩ := chunking
  have hsize : (max 1 (chunkSize : Int)).toNat = chunkSize := by omega
  unfold ownChunks Chunkers.chunk
  refine congrArg _ ?_
  cases strategy with
  | fixed =>
    show FixedSizeChunkStrategy.texts ⟨chunkSize⟩ _ = FixedSizeChunkStrategy.texts ⟨_⟩ _
    rw [hsize]
  | sliding => exact sliding_texts_eq hsize.symm h
  | heading =>
    show HeadingChunkStrategy.texts ⟨chunkSize⟩ _ _ = HeadingChunkStrategy.texts ⟨_⟩ _ _
    rw [hsize]
  | paragraph =>
    show ParagraphChunkStrategy.texts ⟨chunkSize⟩ _ = ParagraphChunkStrategy.texts ⟨_⟩ _
    rw [hsize]

/-- It loses no word. -/
theorem covers_ownChunks (h : Fits headings chunking chunkers document) :
    Covers (ownChunks chunkChecksum headings chunking document) document.text := by
  obtain ⟨strategy, chunkSize, overlap, hpos⟩ := chunking
  have hsize : 0 < (max 1 (chunkSize : Int)).toNat := by omega
  intro word hword
  refine Occurs.makeChunks chunkChecksum document.id ?_
  cases strategy with
  | fixed => exact covers_fixed hsize hword
  | sliding => exact covers_sliding hsize (le_max_left 0 _) hword
  | heading => exact covers_heading hsize h hword
  | paragraph => exact covers_paragraph hsize hword

end Own

/-! ## Chunks in an indexer -/

section Stored

variable {P : Text → KnowledgeDocument M → List C → Prop} {ix : Indexer M C}
  {documentChecksum : Text → Text}

theorem fromDocuments_empty : FromDocuments P ([] : Indexer M C) := nofun

/-- Only one collection changes. -/
theorem FromDocuments.set (h : FromDocuments P ix) {c : Text} {entry : Entry M C}
    (hentry : ∀ id chunks, get? id entry.chunks = some chunks →
      ∃ document, get? id entry.documents = some document ∧ P c document chunks) :
    FromDocuments P (PyDict.set c entry ix) := by
  intro c' entry' hget
  by_cases hc : c' = c
  · subst hc
    rw [PyDict.get?_set_self] at hget
    obtain rfl := Option.some.inj hget
    exact hentry
  · rw [PyDict.get?_set_of_ne hc] at hget
    exact h c' entry' hget

theorem FromDocuments.entry (h : FromDocuments P ix) (c id : Text) (chunks : List C)
    (hchunks : get? id ((get? c ix).getD {}).chunks = some chunks) :
    ∃ document, get? id ((get? c ix).getD {}).documents = some document ∧
      P c document chunks := by
  cases hget : get? c ix with
  | none =>
    rw [hget] at hchunks
    cases hchunks
  | some entry =>
    rw [hget] at hchunks
    exact h c entry hget id chunks hchunks

theorem FromDocuments.recordVersion (h : FromDocuments P ix) (c : Text)
    (version : KnowledgeIndex.KnowledgeVersion) :
    FromDocuments P (Indexer.recordVersion c version ix) :=
  h.set (h.entry c)

theorem FromDocuments.store (h : FromDocuments P ix) {c : Text}
    {document : KnowledgeDocument M} {chunks : List C} (hP : P c document chunks) :
    FromDocuments P (Indexer.store c document chunks ix) := by
  refine h.set ?_
  intro id stored hstored
  by_cases hid : id = document.id
  · subst hid
    rw [PyDict.get?_set_self] at hstored
    obtain rfl := Option.some.inj hstored
    exact ⟨document, PyDict.get?_set_self _ _ _, hP⟩
  · rw [PyDict.get?_set_of_ne hid] at hstored
    obtain ⟨other, hother, hrelated⟩ := h.entry c id stored hstored
    exact ⟨other, (PyDict.get?_set_of_ne hid _ _).trans hother, hrelated⟩

theorem FromDocuments.ingest (h : FromDocuments P ix) {c : Text}
    {document : KnowledgeDocument M} {chunks : List C}
    (hP : ∀ checksum version,
      P c { document with checksum := checksum, version := version } chunks) :
    FromDocuments P (ingest documentChecksum c document chunks ix).2 := by
  rw [KnowledgeIndex.ingest]
  dsimp only
  split
  · exact h
  · exact (h.store (hP _ _)).recordVersion c _

theorem FromDocuments.remove (h : FromDocuments P ix) (documentId c : Text) :
    FromDocuments P (Indexer.remove documentId c ix) := by
  rw [Indexer.remove]
  cases hget : get? c ix with
  | none => exact h
  | some entry =>
    refine h.set ?_
    intro id chunks hchunks
    rw [PyDict.get?_erase] at hchunks
    split_ifs at hchunks with hid
    obtain ⟨document, hdocument, hrelated⟩ := h c entry hget id chunks hchunks
    exact ⟨document, by rw [PyDict.get?_erase, if_neg hid, hdocument], hrelated⟩

theorem FromDocuments.reconcile (h : FromDocuments P ix) (seen : List Text) (c : Text) :
    FromDocuments P (reconcile seen c ix).2 := by
  rw [KnowledgeIndex.reconcile]
  generalize documents c ix = stored
  induction stored generalizing ix with
  | nil => exact h
  | cons document stored ih =>
    rw [KnowledgeIndex.reconcileFrom]
    by_cases hseen : document.id ∈ seen
    · rw [if_pos hseen]
      exact ih h
    · rw [if_neg hseen]
      exact ih (h.remove document.id c)

/-- What a pass stores comes from the documents it prepares. -/
theorem FromDocuments.indexCollection (h : FromDocuments P ix) {pass : Pass M C}
    (hP : ∀ reference item, KnowledgeIndex.prepare documentChecksum pass reference =
        .ok (some item) → ∀ checksum version,
      P pass.collection { item.document with checksum := checksum, version := version }
        item.chunks) :
    FromDocuments P (KnowledgeIndex.indexCollection documentChecksum pass ix).2 := by
  have hloop (references : List Text) (result : IndexResult) (seen : List Text) :
      FromDocuments P (KnowledgeIndex.indexReferences documentChecksum pass references result
        seen ix).2 := by
    induction references generalizing result seen ix with
    | nil => exact h
    | cons reference references ih =>
      rw [KnowledgeIndex.indexReferences]
      cases hprepare : KnowledgeIndex.prepare documentChecksum pass reference with
      | error e => exact h
      | ok prepared =>
        cases prepared with
        | none => exact ih h result seen
        | some item => exact ih (h.ingest (hP reference item hprepare)) _ _
  rw [KnowledgeIndex.indexCollection]
  cases pass.references with
  | error e => exact h
  | ok references =>
    have hindexed := hloop references { documentsSeen := references.length } []
    dsimp only
    cases hindex : KnowledgeIndex.indexReferences documentChecksum pass references
        { documentsSeen := references.length } [] ix with
    | mk outcome after =>
      rw [hindex] at hindexed
      cases outcome with
      | error e => exact hindexed
      | ok ended => exact hindexed.reconcile ended.2 pass.collection

end Stored

/-! ## Runs -/

section Run

variable {documentChecksum chunkChecksum : Text → Text} {headings : M → List Heading}

/-- A document that a pass prepares, with its chunks. -/
theorem prepare_eq_some {source : Source M} {chunk : KnowledgeDocument M → List KnowledgeChunk}
    {reference : Text} {item : Item M KnowledgeChunk}
    (h : KnowledgeIndex.prepare documentChecksum (source.pass chunk) reference =
      .ok (some item)) :
    ∃ document, source.read reference = .ok document ∧ ¬ source.Skips document ∧
      item.document.id = document.id ∧ item.document.text = document.text ∧
      item.chunks = chunk document := by
  rw [KnowledgeIndex.prepare] at h
  change (source.read reference >>= _) = _ at h
  cases hread : source.read reference with
  | error e =>
    rw [hread] at h
    cases h
  | ok document =>
    rw [hread] at h
    change (if source.Skips document then _ else _) = _ at h
    by_cases hskip : source.Skips document
    · rw [if_pos hskip] at h
      cases h
    · rw [if_neg hskip] at h
      change (source.extract document >>= _) = _ at h
      cases hextract : source.extract document with
      | error e =>
        rw [hextract] at h
        cases h
      | ok metadata =>
        rw [hextract] at h
        obtain rfl := Option.some.inj (Except.ok.inj h)
        exact ⟨document, rfl, hskip, rfl, rfl, rfl⟩

/-- A pass over documents that fit stores chunks that are their own. -/
theorem own_step {configs : Text → ChunkingConfig} {sources : List (Source M)}
    {source : Source M} (hsource : source ∈ sources) {s s' : Manager M}
    (h : FromDocuments (Own chunkChecksum headings configs sources) s.index)
    (hfitting : Fitting headings configs s source)
    (hstep : step documentChecksum chunkChecksum headings configs source s = some s') :
    FromDocuments (Own chunkChecksum headings configs sources) s'.index := by
  obtain rfl := Option.some.inj hstep
  show FromDocuments _ (indexCollection documentChecksum chunkChecksum headings source
    (configs source.collection) s.index s.chunkers).1.2
  rw [indexCollection_eq]
  refine h.indexCollection ?_
  intro reference item hprepare checksum version
  obtain ⟨document, hread, hskip, hid, htext, hchunks⟩ := prepare_eq_some hprepare
  have hfits := hfitting reference document hread hskip
  rw [chunk_eq_ownChunks hfits] at hchunks
  refine ⟨source, hsource, rfl, reference, document, hread, hid.symm, htext.symm, hchunks, ?_⟩
  rw [hchunks]
  exact covers_ownChunks hfits

/-- **Over every run of passes whose documents fit, the chunks of every stored document are
those of the document and its own collection's configuration, and have every word of it.** -/
theorem own_of_fitting (documentChecksum chunkChecksum : Text → Text)
    (headings : M → List Heading) (configs : Text → ChunkingConfig) (sources : List (Source M))
    (s : Manager M)
    (hmeets : Runs.Meets (step documentChecksum chunkChecksum headings configs)
      (Fitting headings configs) sources {})
    (hrun : Runs.run (step documentChecksum chunkChecksum headings configs) sources {} =
      some s) :
    FromDocuments (Own chunkChecksum headings configs sources) s.index := by
  have hstart : FromDocuments (Own chunkChecksum headings configs sources)
      ({} : Manager M).index := fromDocuments_empty
  refine Runs.run_invariant
    (I := fun s => FromDocuments (Own chunkChecksum headings configs sources) s.index)
    (fun s source s' h hfitting hstep => ?_) hstart
    (Runs.meets_and hmeets fun source hsource => hsource) hrun
  exact own_step hfitting.2 h hfitting.1 hstep

end Run

/-! ## An overlap of another collection -/

/-- A collection with one document. -/
def noteSource (collection text : Text) : Source Unit where
  collection := collection
  references := .ok ["a.txt".toList]
  read _ := .ok { id := collection, text := text, metadata := () }
  extract _ := .ok ()
  language _ := []

/-- Windows of four words; the first collection has no overlap, the second the usual one. -/
def noteConfigs (collection : Text) : ChunkingConfig where
  strategy := .sliding
  chunkSize := 4
  overlap := if collection = "notes".toList then some 0 else none

/-- The windows of the second collection do not overlap either. -/
theorem earlier_overlap_kept :
    ¬ ∀ (configs : Text → ChunkingConfig) (sources : List (Source Unit)) (s : Manager Unit),
      Runs.run (step id id (fun _ => []) configs) sources {} = some s →
        FromDocuments (Own id (fun _ => []) configs sources) s.index := by
  intro h
  obtain ⟨document, -, source, hsource, hcollection, reference, read, hread, -, -, hchunks, -⟩ :=
    h noteConfigs [noteSource "notes".toList [], noteSource "wiki".toList "a b c d e f".toList]
      _ rfl "wiki".toList _ rfl "wiki".toList _ rfl
  obtain rfl | hsource := List.mem_cons.mp hsource
  · exact absurd hcollection (by decide)
  · obtain rfl := List.mem_singleton.mp hsource
    obtain rfl := Except.ok.inj hread
    exact absurd hchunks (by decide)

/-- The overlap is given, and all words are there. -/
theorem given_overlap_kept :
    ∃ s, Runs.run (step id id (fun _ => []) noteConfigs)
        [noteSource "wiki".toList "a b c d".toList, noteSource "notes".toList "a b c d e f".toList]
        ({} : Manager Unit) = some s ∧
      FromDocuments (Own id (fun _ => []) noteConfigs [noteSource "wiki".toList "a b c d".toList,
        noteSource "notes".toList "a b c d e f".toList]) s.index := by
  refine ⟨_, rfl, own_of_fitting id id (fun _ => []) noteConfigs _ _ ⟨?_, ?_⟩ rfl⟩
  · intro reference document hread _
    obtain rfl := Except.ok.inj hread
    exact Or.inl (by decide)
  · intro s hs
    obtain rfl := Option.some.inj hs
    refine ⟨?_, fun _ _ => trivial⟩
    intro reference document hread _
    obtain rfl := Except.ok.inj hread
    exact Or.inr (by decide)

end OpenWrtCopilot.Ports.KnowledgeChunkers
