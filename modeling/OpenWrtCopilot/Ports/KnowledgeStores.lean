import OpenWrtCopilot.Ports.KnowledgeIndex
import OpenWrtCopilot.Verified.Fallible
import OpenWrtCopilot.Verified.PySplit

/-!
# The two knowledge indexers

Ports `InMemoryKnowledgeIndexer` and `FileSystemKnowledgeIndexer`.  What they share,
`_BaseIndexer`, decides what happens to a document; they differ in how they keep the
collections: the one in memory has a dictionary for each kind of thing, the one on disk has an
entry for each collection, which it writes to a file of its own, named by the collection's id,
after each change.

Both are related to the indexers of `Ports.KnowledgeIndex`: their reads are its reads, and what
they do to a collection is what it does.

## Main results

* `memory_refines`, `files_refines` — the two indexers do what the plain one does.
* `Refines.ingest_quiet`, `Refines.reconcileFrom_quiet` — where nothing raises, so does an
  indexer that refines it.
-/

namespace OpenWrtCopilot.Ports.KnowledgeStores

open Verified
open Verified.PyDict (Dict get? keys mapValues)
open Verified.PyText
open Verified.PySplit (splitOn)
open Ports.KnowledgeIndex (KnowledgeDocument KnowledgeVersion KnowledgeChange
  KnowledgeCollection Entry Indexer checksumOf)

variable {M C σ : Type}

/-- The information on a collection, `KnowledgeCollection`, without times and metadata. -/
structure CollectionInfo where
  id : Text
  name : Text := []
  description : Text := []
  documentIds : List Text := []
  chunkCount : Nat := 0
  version : Int := 1
  deriving DecidableEq

/-! ## The base class -/

/-- `KnowledgeIndexer`, with what a subclass of `_BaseIndexer` implements. -/
structure KnowledgeIndexer (σ M C : Type) where
  documents : Text → σ → List (KnowledgeDocument M)
  getDocument : Text → σ → Option (KnowledgeDocument M)
  chunks : Text → σ → List C
  collection : Text → σ → Option CollectionInfo
  versions : Text → σ → List KnowledgeVersion
  store : Text → KnowledgeDocument M → List C → Fallible Text σ Unit
  recordVersion : Text → KnowledgeVersion → Fallible Text σ Unit
  remove : Text → Text → Fallible Text σ Unit

namespace KnowledgeIndexer

variable (ix : KnowledgeIndexer σ M C)

/-- `_checksum_owner`. -/
def checksumOwner (collectionId checksum : Text) (s : σ) : Option Text :=
  ((ix.documents collectionId s).find? fun document => document.checksum = checksum).map (·.id)

section Ingest

variable (documentChecksum : Text → Text)

/-- `_decide`. -/
def decide (collectionId : Text) (document : KnowledgeDocument M)
    (existing : Option (KnowledgeDocument M)) (s : σ) : KnowledgeVersion :=
  let checksum := checksumOf documentChecksum document
  let decided (version : Int) (change : KnowledgeChange) : KnowledgeVersion :=
    { documentId := document.id, version := version, checksum := checksum, change := change
      source := document.source }
  match existing with
  | none =>
      match ix.checksumOwner collectionId checksum s with
      | some owner =>
          if owner ≠ document.id then decided 1 .duplicate
          else decided (max 1 document.version) .added
      | none => decided (max 1 document.version) .added
  | some existing =>
      if existing.checksum = checksum then decided existing.version .unchanged
      else decided (existing.version + 1) .updated

/-- `ingest`. -/
def ingest (collectionId : Text) (document : KnowledgeDocument M) (chunks : List C) :
    Fallible Text σ KnowledgeVersion := do
  let s ← Fallible.read
  let existing := ix.getDocument document.id s
  let version := ix.decide documentChecksum collectionId document existing s
  if version.change = .unchanged ∨ version.change = .duplicate then return version
  else
    let stored := { document with checksum := version.checksum, version := version.version }
    ix.store collectionId stored chunks
    ix.recordVersion collectionId version
    return version

end Ingest

/-- `reconcile`, over the documents of the collection. -/
def reconcileFrom (seen : List Text) (collectionId : Text) :
    List (KnowledgeDocument M) → Fallible Text σ (List KnowledgeVersion)
  | [] => return []
  | document :: documents => do
      if document.id ∈ seen then reconcileFrom seen collectionId documents
      else
        ix.remove document.id collectionId
        let removed ← reconcileFrom seen collectionId documents
        return { documentId := document.id, version := document.version
                 checksum := document.checksum, change := .removed
                 source := document.source } :: removed

/-- `reconcile`. -/
def reconcile (seen : List Text) (collectionId : Text) :
    Fallible Text σ (List KnowledgeVersion) := do
  let s ← Fallible.read
  ix.reconcileFrom seen collectionId (ix.documents collectionId s)

end KnowledgeIndexer

/-! ## In memory -/

/-- `InMemoryKnowledgeIndexer`. -/
structure InMemory (M C : Type) where
  collections : Dict Text CollectionInfo := []
  documents : Dict Text (Dict Text (KnowledgeDocument M)) := []
  chunks : Dict Text (Dict Text (List C)) := []
  versions : Dict Text (List KnowledgeVersion) := []

namespace InMemory

/-- `_store`. -/
def store (collectionId : Text) (document : KnowledgeDocument M) (chunks : List C)
    (s : InMemory M C) : InMemory M C :=
  let documents := (get? collectionId s.documents).getD []
  let ownChunks := PyDict.set document.id chunks ((get? collectionId s.chunks).getD [])
  let collection := (get? collectionId s.collections).getD
    { id := collectionId, name := collectionId }
  let ids := collection.documentIds
  { s with
    documents := PyDict.set collectionId (PyDict.set document.id document documents) s.documents
    chunks := PyDict.set collectionId ownChunks s.chunks
    collections := PyDict.set collectionId
      { collection with
        documentIds := if document.id ∈ ids then ids else ids ++ [document.id]
        chunkCount := (ownChunks.map fun item => item.2.length).sum }
      s.collections }

/-- `_record_version`. -/
def recordVersion (collectionId : Text) (version : KnowledgeVersion) (s : InMemory M C) :
    InMemory M C :=
  { s with
    versions := PyDict.set collectionId
      ((get? collectionId s.versions).getD [] ++ [version]) s.versions }

/-- A change to the value of a key, where it has one. -/
def adjust {α : Type} (key : Text) (f : α → α) (d : Dict Text α) : Dict Text α :=
  match get? key d with
  | none => d
  | some value => PyDict.set key (f value) d

/-- `_remove`. -/
def remove (documentId collectionId : Text) (s : InMemory M C) : InMemory M C :=
  { s with
    documents := adjust collectionId (PyDict.erase documentId) s.documents
    chunks := adjust collectionId (PyDict.erase documentId) s.chunks
    collections := adjust collectionId
      (fun collection => { collection with
        documentIds := collection.documentIds.erase documentId }) s.collections }

end InMemory

/-- `InMemoryKnowledgeIndexer` as an indexer; it raises nothing. -/
def memory : KnowledgeIndexer (InMemory M C) M C where
  documents collectionId s := ((get? collectionId s.documents).getD []).map Prod.snd
  getDocument documentId s := s.documents.findSome? fun item => get? documentId item.2
  chunks documentId s := (s.chunks.findSome? fun item => get? documentId item.2).getD []
  collection collectionId s := get? collectionId s.collections
  versions collectionId s := (get? collectionId s.versions).getD []
  store collectionId document chunks :=
    Fallible.modify (InMemory.store collectionId document chunks)
  recordVersion collectionId version :=
    Fallible.modify (InMemory.recordVersion collectionId version)
  remove documentId collectionId := Fallible.modify (InMemory.remove documentId collectionId)

/-! ## On disk -/

/-- The state of a collection as JSON data. -/
structure FileEntry (J : Type) where
  collection : CollectionInfo
  documents : Dict Text J := []
  chunks : Dict Text (List J) := []
  versions : List J := []

/-- `model_dump` and `model_validate` of the models, and `json.dumps` and `json.loads` of an
entry: what was dumped is read back. -/
structure Json (M C J F : Type) where
  dumpDocument : KnowledgeDocument M → J
  validateDocument : J → KnowledgeDocument M
  dumpChunk : C → J
  validateChunk : J → C
  dumpVersion : KnowledgeVersion → J
  validateVersion : J → KnowledgeVersion
  dumps : FileEntry J → F
  loads : F → Except Text (FileEntry J)
  document_inverse : ∀ document, validateDocument (dumpDocument document) = document
  chunk_inverse : ∀ chunk, validateChunk (dumpChunk chunk) = chunk
  version_inverse : ∀ version, validateVersion (dumpVersion version) = version
  entry_inverse : ∀ entry, loads (dumps entry) = .ok entry

/-- `FileSystemKnowledgeIndexer`, with the files of the directory `root`; an empty `root`
stands for none. -/
structure FileSystem (J F : Type) where
  root : Text
  state : Dict Text (FileEntry J) := []
  files : Dict Text F := []

/-- The suffix of a state file. -/
def suffix : Text := ".json".toList

/-- The file of the directory that a relative path leads to, if it leads to one: empty parts
and `.` do not count. -/
def fileName (path : Text) : Option Text :=
  if path.head? = some '/' then none
  else
    match (splitOn ['/'] path).filter fun part => part ≠ [] ∧ part ≠ ['.'] with
    | [name] => some name
    | _ => none

/-- `path.stem`: the name without what follows its last dot, unless that is the first or the
last character. -/
def stem (name : Text) : Text :=
  let tail := name.reverse.takeWhile (· ≠ '.')
  let rest := (name.reverse.dropWhile (· ≠ '.')).tail
  if tail = [] ∨ rest = [] then name else rest.reverse

namespace FileSystem

variable {J F : Type}

section Files

variable (json : Json M C J F)

-- what the system answers to a write under a path, where it refuses
variable (writeError : Text → Option Text)

/-- The loop of `flush`; a file that is not in the directory itself is not seen again. -/
def writeAll : Dict Text (FileEntry J) → Dict Text F → Except Text Unit × Dict Text F
  | [], files => (.ok (), files)
  | (collectionId, entry) :: rest, files =>
      let path := collectionId ++ suffix
      match writeError path with
      | some e => (.error ("Could not flush index state: ".toList ++ e), files)
      | none =>
          match fileName path with
          | some name => writeAll rest (PyDict.set name (json.dumps entry) files)
          | none => writeAll rest files

/-- `flush`. -/
def flush : Fallible Text (FileSystem J F) Unit := fun s =>
  if s.root = [] then (.ok (), s)
  else
    let (outcome, files) := writeAll json writeError s.state s.files
    (outcome, { s with files := files })

/-- `_load_state`, over the files of the directory. -/
def loadAll (root : Text) : Dict Text F → Dict Text (FileEntry J) →
    Except Text (Dict Text (FileEntry J))
  | [], state => .ok state
  | (name, content) :: rest, state =>
      match json.loads content with
      | .error e =>
          .error ("Could not load index state ".toList ++ root ++ ['/'] ++ name ++
            ": ".toList ++ e)
      | .ok entry => loadAll root rest (PyDict.set (stem name) entry state)

/-- A new indexer over the directory: what the old one had in memory is gone. -/
def reopen : Fallible Text (FileSystem J F) Unit := fun s =>
  if s.root = [] then (.ok (), { s with state := [] })
  else
    match loadAll json s.root s.files [] with
    | .error e => (.error e, { s with state := [] })
    | .ok state => (.ok (), { s with state := state })

/-- `_ensure`, without the change to the state. -/
def ensured (collectionId : Text) (s : FileSystem J F) : FileEntry J :=
  (get? collectionId s.state).getD { collection := { id := collectionId, name := collectionId } }

/-- An entry is put in place. -/
def put (collectionId : Text) (entry : FileEntry J) (s : FileSystem J F) : FileSystem J F :=
  { s with state := PyDict.set collectionId entry s.state }

/-- `_store`. -/
def store (collectionId : Text) (document : KnowledgeDocument M) (chunks : List C) :
    Fallible Text (FileSystem J F) Unit := do
  Fallible.modify fun s =>
    let entry := s.ensured collectionId
    let ids := entry.collection.documentIds
    let chunks := PyDict.set document.id (chunks.map json.dumpChunk) entry.chunks
    s.put collectionId
      { entry with
        documents := PyDict.set document.id (json.dumpDocument document) entry.documents
        chunks := chunks
        collection := { entry.collection with
          documentIds := if document.id ∈ ids then ids else ids ++ [document.id]
          chunkCount := (chunks.map fun item => item.2.length).sum } }
  flush json writeError

/-- `_record_version`. -/
def recordVersion (collectionId : Text) (version : KnowledgeVersion) :
    Fallible Text (FileSystem J F) Unit := do
  Fallible.modify fun s =>
    let entry := s.ensured collectionId
    s.put collectionId { entry with versions := entry.versions ++ [json.dumpVersion version] }
  flush json writeError

/-- `_remove`. -/
def remove (documentId collectionId : Text) : Fallible Text (FileSystem J F) Unit := do
  let s ← Fallible.read
  match get? collectionId s.state with
  | none => return ()
  | some entry =>
      Fallible.modify fun s => s.put collectionId
        { entry with
          documents := PyDict.erase documentId entry.documents
          chunks := PyDict.erase documentId entry.chunks
          collection := { entry.collection with
            documentIds := entry.collection.documentIds.erase documentId } }
      flush json writeError

end Files

end FileSystem

/-- `FileSystemKnowledgeIndexer` as an indexer. -/
def files {J F : Type} (json : Json M C J F) (writeError : Text → Option Text) :
    KnowledgeIndexer (FileSystem J F) M C where
  documents collectionId s :=
    match get? collectionId s.state with
    | none => []
    | some entry => entry.documents.map fun item => json.validateDocument item.2
  getDocument documentId s := s.state.findSome? fun item =>
    (get? documentId item.2.documents).map json.validateDocument
  chunks documentId s := (s.state.findSome? fun item =>
    (get? documentId item.2.chunks).map fun data => data.map json.validateChunk).getD []
  collection collectionId s := (get? collectionId s.state).map (·.collection)
  versions collectionId s :=
    match get? collectionId s.state with
    | none => []
    | some entry => entry.versions.map json.validateVersion
  store := FileSystem.store json writeError
  recordVersion := FileSystem.recordVersion json writeError
  remove := FileSystem.remove json writeError

/-! ## The plain indexer -/

/-- The information on a collection, from its entry. -/
def infoOf (collectionId : Text) (entry : Entry M C) : CollectionInfo :=
  { id := collectionId, name := collectionId, documentIds := entry.collection.documentIds
    chunkCount := entry.collection.chunkCount }

/-- The indexer with an entry for each collection. -/
def plain : KnowledgeIndexer (Indexer M C) M C where
  documents := Indexer.documents
  getDocument := Indexer.getDocument
  chunks := Indexer.chunks
  collection collectionId a := (get? collectionId a).map (infoOf collectionId)
  versions collectionId a := ((get? collectionId a).map (·.versions)).getD []
  store collectionId document chunks :=
    Fallible.modify (Indexer.store collectionId document chunks)
  recordVersion collectionId version :=
    Fallible.modify (Indexer.recordVersion collectionId version)
  remove documentId collectionId := Fallible.modify (Indexer.remove documentId collectionId)

theorem plain_ingest (documentChecksum : Text → Text) (collectionId : Text)
    (document : KnowledgeDocument M) (chunks : List C) (a : Indexer M C) :
    plain.ingest documentChecksum collectionId document chunks a =
      (.ok (KnowledgeIndex.ingest documentChecksum collectionId document chunks a).1,
        (KnowledgeIndex.ingest documentChecksum collectionId document chunks a).2) := by
  have hdecide : plain.decide documentChecksum collectionId document
      (Indexer.getDocument document.id a) a = KnowledgeIndex.decide documentChecksum
        collectionId document (Indexer.getDocument document.id a) a := rfl
  have hfound : plain.getDocument document.id a = Indexer.getDocument document.id a := rfl
  rw [KnowledgeIndexer.ingest, Fallible.read_bind_apply, KnowledgeIndex.ingest]
  simp only [hfound, hdecide]
  split_ifs
  · rfl
  · rfl

/-! ## Refinement -/

/-- An indexer whose states stand for states of the plain one: it reads the same, and each
change leads, whether it raises or not, to what the plain change leads to. -/
structure Refines (ix : KnowledgeIndexer σ M C) (index : σ → Indexer M C) (I : σ → Prop) :
    Prop where
  documents : ∀ {s}, I s → ∀ c, ix.documents c s = plain.documents c (index s)
  getDocument : ∀ {s}, I s → ∀ id, ix.getDocument id s = plain.getDocument id (index s)
  chunks : ∀ {s}, I s → ∀ id, ix.chunks id s = plain.chunks id (index s)
  collection : ∀ {s}, I s → ∀ c, ix.collection c s = plain.collection c (index s)
  versions : ∀ {s}, I s → ∀ c, ix.versions c s = plain.versions c (index s)
  store : ∀ {s}, I s → ∀ c document chunks, I (ix.store c document chunks s).2 ∧
    index (ix.store c document chunks s).2 = Indexer.store c document chunks (index s)
  recordVersion : ∀ {s}, I s → ∀ c version, c ∈ keys (index s) →
    I (ix.recordVersion c version s).2 ∧
      index (ix.recordVersion c version s).2 = Indexer.recordVersion c version (index s)
  remove : ∀ {s}, I s → ∀ id c, I (ix.remove id c s).2 ∧
    index (ix.remove id c s).2 = Indexer.remove id c (index s)

/-- No change raises. -/
structure Quiet (ix : KnowledgeIndexer σ M C) (J : σ → Prop) (c : Text) : Prop where
  store : ∀ {s}, J s → ∀ document chunks, (ix.store c document chunks s).1 = .ok () ∧
    J (ix.store c document chunks s).2
  recordVersion : ∀ {s}, J s → ∀ version, (ix.recordVersion c version s).1 = .ok () ∧
    J (ix.recordVersion c version s).2
  remove : ∀ {s}, J s → ∀ id, (ix.remove id c s).1 = .ok () ∧ J (ix.remove id c s).2

theorem mem_keys_store (c : Text) (document : KnowledgeDocument M) (chunks : List C)
    (a : Indexer M C) : c ∈ keys (Indexer.store c document chunks a) := by
  rw [Indexer.store, PyDict.keys_set]
  split_ifs with hmem
  · exact hmem
  · exact List.mem_append_right _ List.mem_cons_self

section Refines

variable {ix : KnowledgeIndexer σ M C} {index : σ → Indexer M C} {I J : σ → Prop}
  {documentChecksum : Text → Text} {c : Text} {s : σ}

theorem Refines.decide (h : Refines ix index I) (hs : I s) (document : KnowledgeDocument M)
    (existing : Option (KnowledgeDocument M)) :
    ix.decide documentChecksum c document existing s =
      plain.decide documentChecksum c document existing (index s) := by
  have howner (checksum : Text) : ix.checksumOwner c checksum s =
      plain.checksumOwner c checksum (index s) := by
    rw [KnowledgeIndexer.checksumOwner, h.documents hs c]
    rfl
  simp only [KnowledgeIndexer.decide, howner]

/-- What `ingest` does to a state that stands for one of the plain indexer: nothing, or the
document is stored and then, unless the indexer raised, its version recorded. -/
theorem Refines.ingest (h : Refines ix index I) (hs : I s) (document : KnowledgeDocument M)
    (chunks : List C) :
    I (ix.ingest documentChecksum c document chunks s).2 ∧
      ∀ P : Indexer M C → Prop, P (index s) →
        (∀ stored, stored.id = document.id → P (Indexer.store c stored chunks (index s))) →
        (∀ a version, P a → P (Indexer.recordVersion c version a)) →
        P (index (ix.ingest documentChecksum c document chunks s).2) := by
  rw [KnowledgeIndexer.ingest, Fallible.read_bind_apply]
  dsimp only
  split_ifs with hskip
  · exact ⟨hs, fun P hP _ _ => hP⟩
  · rw [Fallible.bind_apply]
    set version := ix.decide documentChecksum c document (ix.getDocument document.id s) s
    have hstore := h.store hs c
      { document with checksum := version.checksum, version := version.version } chunks
    cases hfirst : ix.store c
        { document with checksum := version.checksum, version := version.version } chunks s with
    | mk outcome s' =>
      rw [hfirst] at hstore
      obtain ⟨hs', hindex⟩ := hstore
      cases outcome with
      | error e =>
        refine ⟨hs', fun P _ hstored _ => ?_⟩
        rw [hindex]
        exact hstored _ rfl
      | ok _ =>
        have hmem : c ∈ keys (index s') := by
          rw [hindex]
          exact mem_keys_store c _ chunks (index s)
        have hrecord := h.recordVersion hs' c version hmem
        have hlast (P : Indexer M C → Prop) (hstored : ∀ stored, stored.id = document.id →
            P (Indexer.store c stored chunks (index s)))
            (hrecorded : ∀ a version, P a → P (Indexer.recordVersion c version a)) :
            P (index (ix.recordVersion c version s').2) := by
          rw [hrecord.2, hindex]
          exact hrecorded _ _ (hstored _ rfl)
        dsimp only
        rw [Fallible.bind_apply]
        cases hsecond : ix.recordVersion c version s' with
        | mk outcome s'' =>
          rw [hsecond] at hrecord hlast
          cases outcome with
          | error e => exact ⟨hrecord.1, fun P _ => hlast P⟩
          | ok _ => exact ⟨hrecord.1, fun P _ => hlast P⟩

/-- What `reconcile` does to such a state, as far as it comes: documents that were not seen
are removed. -/
theorem Refines.reconcileFrom (h : Refines ix index I) (seen : List Text)
    {documents : List (KnowledgeDocument M)} {P : Indexer M C → Prop}
    (hremove : ∀ document ∈ documents, document.id ∉ seen → ∀ a, P a →
      P (Indexer.remove document.id c a)) (hs : I s) (hP : P (index s)) :
    I (ix.reconcileFrom seen c documents s).2 ∧
      P (index (ix.reconcileFrom seen c documents s).2) := by
  induction documents generalizing s with
  | nil => exact ⟨hs, hP⟩
  | cons document documents ih =>
    have hlater := fun other hother => hremove other (List.mem_cons_of_mem document hother)
    rw [KnowledgeIndexer.reconcileFrom]
    by_cases hseen : document.id ∈ seen
    · rw [if_pos hseen]
      exact ih hlater hs hP
    · rw [if_neg hseen, Fallible.bind_apply]
      have hfirst := h.remove hs document.id c
      cases hrun : ix.remove document.id c s with
      | mk outcome s' =>
        rw [hrun] at hfirst
        obtain ⟨hs', hindex⟩ := hfirst
        have hP' : P (index s') := by
          rw [hindex]
          exact hremove document List.mem_cons_self hseen (index s) hP
        cases outcome with
        | error e => exact ⟨hs', hP'⟩
        | ok _ =>
          have hrest := ih hlater hs' hP'
          dsimp only
          rw [Fallible.bind_apply]
          cases hrun' : ix.reconcileFrom seen c documents s' with
          | mk outcome s'' =>
            rw [hrun'] at hrest
            cases outcome with
            | error e => exact hrest
            | ok removed => exact hrest

/-- Without exceptions, `ingest` is that of the plain indexer. -/
theorem Refines.ingest_quiet (h : Refines ix index I) (hquiet : Quiet ix J c) (hs : I s)
    (hJ : J s) (document : KnowledgeDocument M) (chunks : List C) :
    ∃ s', ix.ingest documentChecksum c document chunks s =
        (.ok (KnowledgeIndex.ingest documentChecksum c document chunks (index s)).1, s') ∧
      index s' = (KnowledgeIndex.ingest documentChecksum c document chunks (index s)).2 ∧
      I s' ∧ J s' := by
  have hplain := plain_ingest documentChecksum c document chunks (index s)
  rw [KnowledgeIndexer.ingest, Fallible.read_bind_apply] at hplain ⊢
  rw [h.getDocument hs, h.decide hs]
  dsimp only at hplain ⊢
  set version := plain.decide documentChecksum c document
    (plain.getDocument document.id (index s)) (index s)
  by_cases hskip : version.change = .unchanged ∨ version.change = .duplicate
  · rw [if_pos hskip] at hplain ⊢
    obtain ⟨hversion, hindex⟩ := Prod.mk.inj hplain
    exact ⟨s, Prod.ext hversion rfl, hindex, hs, hJ⟩
  · rw [if_neg hskip] at hplain ⊢
    set stored := { document with checksum := version.checksum, version := version.version }
    have hstore := h.store hs c stored chunks
    obtain ⟨hstored, hJ'⟩ := hquiet.store hJ stored chunks
    have hmem : c ∈ keys (index (ix.store c stored chunks s).2) := by
      rw [hstore.2]
      exact mem_keys_store c stored chunks (index s)
    have hrecord := h.recordVersion hstore.1 c version hmem
    obtain ⟨hrecorded, hJ''⟩ := hquiet.recordVersion hJ' version
    rw [Fallible.bind_of_ok (Prod.ext hstored rfl), Fallible.bind_of_ok (Prod.ext hrecorded rfl)]
    obtain ⟨hversion, hindex⟩ := Prod.mk.inj hplain
    refine ⟨_, Prod.ext hversion rfl, ?_, hrecord.1, hJ''⟩
    rw [Fallible.pure_apply, hrecord.2, hstore.2]
    exact hindex

/-- Without exceptions, `reconcile` is that of the plain indexer. -/
theorem Refines.reconcileFrom_quiet (h : Refines ix index I) (hquiet : Quiet ix J c) (hs : I s)
    (hJ : J s) (seen : List Text) (documents : List (KnowledgeDocument M)) :
    ∃ s', ix.reconcileFrom seen c documents s =
        (.ok (KnowledgeIndex.reconcileFrom seen c documents (index s)).1, s') ∧
      index s' = (KnowledgeIndex.reconcileFrom seen c documents (index s)).2 ∧ I s' ∧ J s' := by
  induction documents generalizing s with
  | nil => exact ⟨s, rfl, rfl, hs, hJ⟩
  | cons document documents ih =>
    rw [KnowledgeIndexer.reconcileFrom, KnowledgeIndex.reconcileFrom]
    by_cases hseen : document.id ∈ seen
    · rw [if_pos hseen, if_pos hseen]
      exact ih hs hJ
    · rw [if_neg hseen, if_neg hseen]
      obtain ⟨hs', hindex⟩ := h.remove hs document.id c
      obtain ⟨hremoved, hJ'⟩ := hquiet.remove hJ document.id
      obtain ⟨s'', hrest, hindex', hs'', hJ''⟩ := ih hs' hJ'
      rw [hindex] at hrest hindex'
      rw [Fallible.bind_of_ok (Prod.ext hremoved rfl), Fallible.bind_of_ok hrest]
      exact ⟨s'', rfl, hindex', hs'', hJ''⟩

end Refines

/-! ## The one in memory refines the plain one -/

namespace InMemory

/-- The plain indexer a state stands for. -/
def index (s : InMemory M C) : Indexer M C :=
  mapValues (fun collectionId info =>
    { collection := { documentIds := info.documentIds, chunkCount := info.chunkCount }
      documents := (get? collectionId s.documents).getD []
      chunks := (get? collectionId s.chunks).getD []
      versions := (get? collectionId s.versions).getD [] }) s.collections

/-- The four dictionaries have the same collections, in one order. -/
structure Aligned (s : InMemory M C) : Prop where
  nodup : (keys s.collections).Nodup
  documents : keys s.documents = keys s.collections
  chunks : keys s.chunks = keys s.collections
  versions : ∀ c ∈ keys s.versions, c ∈ keys s.collections
  named : ∀ c info, get? c s.collections = some info → info =
    { id := c, name := c, documentIds := info.documentIds, chunkCount := info.chunkCount }

variable {s : InMemory M C}

theorem keys_index (s : InMemory M C) : keys s.index = keys s.collections :=
  PyDict.keys_mapValues _ _

theorem get?_index (s : InMemory M C) (c : Text) : get? c s.index =
    (get? c s.collections).map fun info =>
      { collection := { documentIds := info.documentIds, chunkCount := info.chunkCount }
        documents := (get? c s.documents).getD []
        chunks := (get? c s.chunks).getD []
        versions := (get? c s.versions).getD [] } :=
  PyDict.get?_mapValues _ _ _

theorem findSome?_index {γ : Type} (p : Entry M C → Option γ) (s : InMemory M C) :
    (s.index.findSome? fun item => p item.2) = s.collections.findSome? fun item =>
      p { collection := { documentIds := item.2.documentIds, chunkCount := item.2.chunkCount }
          documents := (get? item.1 s.documents).getD []
          chunks := (get? item.1 s.chunks).getD []
          versions := (get? item.1 s.versions).getD [] } :=
  PyDict.findSome?_mapValues _ p s.collections

theorem getD_nil_of_notMem {α : Type} {d : Dict Text (List α)} {c : Text} (h : c ∉ keys d) :
    (get? c d).getD [] = [] := by
  rw [PyDict.get?_eq_none_iff.mpr h]
  rfl

/-- The entry of a collection, if it has one, and an empty one otherwise. -/
theorem getD_index (h : s.Aligned) (c : Text) : (get? c s.index).getD {} =
    { collection :=
        { documentIds := ((get? c s.collections).map (·.documentIds)).getD []
          chunkCount := ((get? c s.collections).map (·.chunkCount)).getD 0 }
      documents := (get? c s.documents).getD []
      chunks := (get? c s.chunks).getD []
      versions := (get? c s.versions).getD [] } := by
  rw [get?_index]
  cases hinfo : get? c s.collections with
  | some info => rfl
  | none =>
    have hmem := PyDict.get?_eq_none_iff.mp hinfo
    rw [getD_nil_of_notMem (h.documents ▸ hmem), getD_nil_of_notMem (h.chunks ▸ hmem),
      getD_nil_of_notMem (fun hversion => hmem (h.versions c hversion))]
    rfl

/-- A look into all collections, in one of the dictionaries. -/
theorem findSome?_aligned {α β γ : Type} {d : Dict Text α} {e : Dict Text (List β)}
    (hnodup : (keys d).Nodup) (hkeys : keys e = keys d) (f : List β → Option γ) :
    (e.findSome? fun item => f item.2) =
      d.findSome? fun item => f ((get? item.1 e).getD []) := by
  have heq : e = mapValues (fun key _ => (get? key e).getD []) d := by
    refine PyDict.ext_of_nodup ?_ (hkeys ▸ hnodup) ?_
    · rw [PyDict.keys_mapValues, hkeys]
    · intro key
      rw [PyDict.get?_mapValues]
      cases hkey : get? key d with
      | none =>
        have hmem := PyDict.get?_eq_none_iff.mp hkey
        exact PyDict.get?_eq_none_iff.mpr (hkeys ▸ hmem)
      | some value =>
        cases hvalue : get? key e with
        | some value => rfl
        | none =>
          have hmem := PyDict.get?_eq_none_iff.mp hvalue
          rw [hkeys, ← PyDict.get?_eq_none_iff, hkey] at hmem
          cases hmem
  have hmap := congrArg (List.findSome? fun item => f item.2) heq
  rwa [PyDict.findSome?_mapValues] at hmap

theorem keys_adjust {α : Type} (c : Text) (f : α → α) (d : Dict Text α) :
    keys (adjust c f d) = keys d := by
  rw [adjust]
  cases hvalue : get? c d with
  | none => rfl
  | some value =>
    have hmem : c ∈ keys d := by
      by_contra hmem
      rw [PyDict.get?_eq_none_iff.mpr hmem] at hvalue
      cases hvalue
    rw [PyDict.keys_set, if_pos hmem]

theorem get?_adjust {α : Type} (c : Text) (f : α → α) (d : Dict Text α) (key : Text) :
    get? key (adjust c f d) =
      if key = c then (get? key d).map f else get? key d := by
  rw [adjust]
  by_cases hkey : key = c
  · rw [if_pos hkey, hkey]
    cases hvalue : get? c d with
    | none => exact hvalue
    | some value => exact PyDict.get?_set_self c (f value) d
  · rw [if_neg hkey]
    cases get? c d with
    | none => rfl
    | some value => exact PyDict.get?_set_of_ne hkey (f value) d

end InMemory

namespace InMemory

variable {s : InMemory M C}

theorem index_store (h : s.Aligned) (c : Text) (document : KnowledgeDocument M)
    (chunks : List C) :
    (s.store c document chunks).index = Indexer.store c document chunks s.index := by
  have hentry := getD_index h c
  refine PyDict.ext_of_nodup ?_ ?_ ?_
  · rw [keys_index, store, Indexer.store, PyDict.keys_set, PyDict.keys_set, keys_index]
  · rw [keys_index, store]
    exact PyDict.nodup_keys_set h.nodup _ _
  · intro key
    rw [get?_index, store, Indexer.store, hentry]
    by_cases hkey : key = c
    · rw [hkey, PyDict.get?_set_self, PyDict.get?_set_self, PyDict.get?_set_self,
        PyDict.get?_set_self]
      cases get? c s.collections with
      | none => rfl
      | some info => rfl
    · rw [PyDict.get?_set_of_ne hkey, PyDict.get?_set_of_ne hkey, PyDict.get?_set_of_ne hkey,
        PyDict.get?_set_of_ne hkey, get?_index]

theorem aligned_store (h : s.Aligned) (c : Text) (document : KnowledgeDocument M)
    (chunks : List C) : (s.store c document chunks).Aligned := by
  constructor
  · exact PyDict.nodup_keys_set h.nodup _ _
  · rw [store, PyDict.keys_set, PyDict.keys_set, h.documents]
  · rw [store, PyDict.keys_set, PyDict.keys_set, h.chunks]
  · intro other hother
    rw [store, PyDict.keys_set]
    have hmem := h.versions other hother
    split_ifs
    · exact hmem
    · exact List.mem_append_left _ hmem
  · intro other info hinfo
    rw [store] at hinfo
    by_cases hsame : other = c
    · rw [hsame, PyDict.get?_set_self] at hinfo
      rw [hsame, ← Option.some.inj hinfo]
      cases hold : get? c s.collections with
      | none => rfl
      | some old =>
        have hnamed := h.named c old hold
        rw [hnamed]
        rfl
    · rw [PyDict.get?_set_of_ne hsame] at hinfo
      exact h.named other info hinfo

theorem index_recordVersion (h : s.Aligned) (version : KnowledgeVersion) {c : Text}
    (hc : c ∈ keys s.index) :
    (s.recordVersion c version).index = Indexer.recordVersion c version s.index := by
  have hentry := getD_index h c
  refine PyDict.ext_of_nodup ?_ ?_ ?_
  · rw [Indexer.recordVersion, PyDict.keys_set, if_pos hc, keys_index, keys_index]
    rfl
  · rw [keys_index]
    exact h.nodup
  · intro key
    rw [get?_index, recordVersion, Indexer.recordVersion, hentry]
    by_cases hkey : key = c
    · rw [hkey, PyDict.get?_set_self, PyDict.get?_set_self]
      cases hinfo : get? c s.collections with
      | none =>
        rw [keys_index] at hc
        exact absurd hc (PyDict.get?_eq_none_iff.mp hinfo)
      | some info => rfl
    · rw [PyDict.get?_set_of_ne hkey, PyDict.get?_set_of_ne hkey, get?_index]

theorem aligned_recordVersion (h : s.Aligned) (version : KnowledgeVersion) {c : Text}
    (hc : c ∈ keys s.index) : (s.recordVersion c version).Aligned := by
  refine ⟨h.nodup, h.documents, h.chunks, ?_, h.named⟩
  intro other hother
  rw [recordVersion, PyDict.keys_set] at hother
  rw [keys_index] at hc
  split_ifs at hother
  · exact h.versions other hother
  · obtain hother | hother := List.mem_append.mp hother
    · exact h.versions other hother
    · obtain rfl := List.mem_singleton.mp hother
      exact hc

theorem index_remove (h : s.Aligned) (id c : Text) :
    (s.remove id c).index = Indexer.remove id c s.index := by
  refine PyDict.ext_of_nodup ?_ ?_ ?_
  · rw [keys_index, remove, keys_adjust, Indexer.remove, get?_index]
    cases hinfo : get? c s.collections with
    | none => exact (keys_index s).symm
    | some info =>
      have hmem : c ∈ keys s.index := by
        by_contra hmem
        rw [keys_index, ← PyDict.get?_eq_none_iff, hinfo] at hmem
        cases hmem
      rw [Option.map_some]
      dsimp only
      rw [PyDict.keys_set, if_pos hmem, keys_index]
  · rw [keys_index, remove, keys_adjust]
    exact h.nodup
  · intro key
    rw [get?_index, remove, get?_adjust, get?_adjust, get?_adjust, Indexer.remove, get?_index]
    by_cases hkey : key = c
    · rw [if_pos hkey, if_pos hkey, if_pos hkey, hkey]
      cases hinfo : get? c s.collections with
      | none =>
        show none = get? c s.index
        rw [get?_index, hinfo]
        rfl
      | some info =>
        simp only [Option.map_some, PyDict.get?_set_self]
        cases get? c s.documents with
        | none =>
          cases get? c s.chunks with
          | none => rfl
          | some chunks => rfl
        | some documents =>
          cases get? c s.chunks with
          | none => rfl
          | some chunks => rfl
    · rw [if_neg hkey, if_neg hkey, if_neg hkey]
      cases get? c s.collections with
      | none => exact (get?_index s key).symm
      | some info =>
        simp only [Option.map_some, PyDict.get?_set_of_ne hkey, get?_index]

theorem aligned_remove (h : s.Aligned) (id c : Text) : (s.remove id c).Aligned := by
  constructor
  · rw [remove, keys_adjust]
    exact h.nodup
  · rw [remove, keys_adjust, keys_adjust, h.documents]
  · rw [remove, keys_adjust, keys_adjust, h.chunks]
  · intro other hother
    rw [remove, keys_adjust]
    exact h.versions other hother
  · intro other info hinfo
    rw [remove, get?_adjust] at hinfo
    split_ifs at hinfo
    · obtain ⟨old, hold, rfl⟩ := Option.map_eq_some_iff.mp hinfo
      have hnamed := h.named other old hold
      rw [hnamed]
    · exact h.named other info hinfo

end InMemory

/-- **What the indexer in memory reads and does is what the plain one does.** -/
theorem memory_refines :
    Refines (memory : KnowledgeIndexer (InMemory M C) M C) InMemory.index InMemory.Aligned where
  documents := by
    intro s h c
    have hentry := congrArg Entry.documents (InMemory.getD_index h c)
    rw [KnowledgeIndex.documents_getD] at hentry
    exact congrArg (List.map Prod.snd) hentry.symm
  getDocument := by
    intro s h id
    have hfound := InMemory.findSome?_aligned h.nodup h.documents (get? id)
    exact hfound.trans (InMemory.findSome?_index (fun entry => get? id entry.documents) s).symm
  chunks := by
    intro s h id
    have hfound := InMemory.findSome?_aligned h.nodup h.chunks (get? id)
    exact congrArg (Option.getD · [])
      (hfound.trans (InMemory.findSome?_index (fun entry => get? id entry.chunks) s).symm)
  collection := by
    intro s h c
    show get? c s.collections = (get? c s.index).map (infoOf c)
    rw [InMemory.get?_index]
    cases hinfo : get? c s.collections with
    | none => rfl
    | some info => exact congrArg some (h.named c info hinfo)
  versions := by
    intro s h c
    show (get? c s.versions).getD [] = ((get? c s.index).map (·.versions)).getD []
    have hentry := congrArg Entry.versions (InMemory.getD_index h c)
    cases hentry' : get? c s.index with
    | none =>
      rw [hentry'] at hentry
      exact hentry.symm
    | some entry =>
      rw [hentry'] at hentry
      exact hentry.symm
  store := fun h c document chunks =>
    ⟨InMemory.aligned_store h c document chunks, InMemory.index_store h c document chunks⟩
  recordVersion := fun h c version hc =>
    ⟨InMemory.aligned_recordVersion h version hc, InMemory.index_recordVersion h version hc⟩
  remove := fun h id c => ⟨InMemory.aligned_remove h id c, InMemory.index_remove h id c⟩

theorem memory_quiet (c : Text) :
    Quiet (memory : KnowledgeIndexer (InMemory M C) M C) (fun _ => True) c where
  store _ _ _ := ⟨rfl, trivial⟩
  recordVersion _ _ := ⟨rfl, trivial⟩
  remove _ _ := ⟨rfl, trivial⟩

/-! ## The one on disk refines the plain one -/

section Files

variable {J F : Type}

/-- The entry that JSON data stands for. -/
def Json.entry (json : Json M C J F) (data : FileEntry J) : Entry M C :=
  { collection :=
      { documentIds := data.collection.documentIds, chunkCount := data.collection.chunkCount }
    documents := mapValues (fun _ => json.validateDocument) data.documents
    chunks := mapValues (fun _ chunks => chunks.map json.validateChunk) data.chunks
    versions := data.versions.map json.validateVersion }

namespace FileSystem

/-- The plain indexer a state stands for. -/
def index (json : Json M C J F) (s : FileSystem J F) : Indexer M C :=
  mapValues (fun _ => json.entry) s.state

/-- Collections have the names under which they are kept. -/
def Named (s : FileSystem J F) : Prop :=
  ∀ c data, get? c s.state = some data → data.collection =
    { id := c, name := c, documentIds := data.collection.documentIds
      chunkCount := data.collection.chunkCount }

variable {json : Json M C J F} {writeError : Text → Option Text} {s : FileSystem J F}

theorem state_flush (s : FileSystem J F) : (flush json writeError s).2.state = s.state := by
  rw [flush]
  split_ifs
  · rfl
  · rfl

theorem index_flush (s : FileSystem J F) :
    index json (flush json writeError s).2 = index json s := by
  rw [index, index, state_flush]

theorem Named.flush (h : s.Named) : (flush json writeError s).2.Named := by
  intro c data hdata
  rw [state_flush] at hdata
  exact h c data hdata

theorem index_put (c : Text) (data : FileEntry J) (s : FileSystem J F) :
    index json (s.put c data) = PyDict.set c (json.entry data) (index json s) :=
  PyDict.mapValues_set _ c data s.state

theorem Named.put (h : s.Named) {c : Text} {data : FileEntry J}
    (hdata : data.collection = { id := c, name := c, documentIds := data.collection.documentIds
                                 chunkCount := data.collection.chunkCount }) :
    (s.put c data).Named := by
  intro other data' hdata'
  by_cases hother : other = c
  · rw [hother, FileSystem.put, PyDict.get?_set_self] at hdata'
    rw [hother, ← Option.some.inj hdata']
    exact hdata
  · rw [FileSystem.put, PyDict.get?_set_of_ne hother] at hdata'
    exact h other data' hdata'

theorem get?_index (s : FileSystem J F) (c : Text) :
    get? c (index json s) = (get? c s.state).map json.entry :=
  PyDict.get?_mapValues _ s.state c

theorem entry_ensured (s : FileSystem J F) (c : Text) :
    json.entry (s.ensured c) = (get? c (index json s)).getD {} := by
  rw [get?_index, ensured]
  cases get? c s.state with
  | none => rfl
  | some data => rfl

theorem Named.ensured (h : s.Named) (c : Text) : (s.ensured c).collection =
    { id := c, name := c, documentIds := (s.ensured c).collection.documentIds
      chunkCount := (s.ensured c).collection.chunkCount } := by
  rw [FileSystem.ensured]
  cases hdata : get? c s.state with
  | none => rfl
  | some data => exact h c data hdata

theorem chunkCount_mapValues (f : List J → List C) (hf : ∀ l, (f l).length = l.length)
    (d : Dict Text (List J)) : ((mapValues (fun _ => f) d).map fun item => item.2.length).sum =
      (d.map fun item => item.2.length).sum := by
  simp [mapValues, Function.comp_def, hf]

theorem index_store (c : Text) (document : KnowledgeDocument M) (chunks : List C)
    (s : FileSystem J F) :
    index json (store json writeError c document chunks s).2 =
      Indexer.store c document chunks (index json s) := by
  rw [store, Fallible.modify_bind_apply, index_flush, index_put, Indexer.store, ← entry_ensured]
  congr 1
  have hchunks : mapValues (fun _ chunks => chunks.map json.validateChunk)
      (PyDict.set document.id (chunks.map json.dumpChunk) (s.ensured c).chunks) =
      PyDict.set document.id chunks
        (mapValues (fun _ chunks => chunks.map json.validateChunk) (s.ensured c).chunks) := by
    rw [PyDict.mapValues_set, List.map_map]
    congr 1
    refine (List.map_congr_left fun chunk _ => ?_).trans (List.map_id chunks)
    exact json.chunk_inverse chunk
  have hcount := chunkCount_mapValues (fun chunks => chunks.map json.validateChunk)
    (fun chunks => List.length_map json.validateChunk)
    (PyDict.set document.id (chunks.map json.dumpChunk) (s.ensured c).chunks)
  rw [hchunks] at hcount
  simp only [Json.entry, hchunks, hcount, PyDict.mapValues_set, json.document_inverse]
  rfl

theorem index_recordVersion (c : Text) (version : KnowledgeVersion) (s : FileSystem J F) :
    index json (recordVersion json writeError c version s).2 =
      Indexer.recordVersion c version (index json s) := by
  rw [recordVersion, Fallible.modify_bind_apply, index_flush, index_put, Indexer.recordVersion,
    ← entry_ensured]
  simp only [Json.entry, List.map_append, List.map_cons, List.map_nil, json.version_inverse]

theorem index_remove (id c : Text) (s : FileSystem J F) :
    index json (remove json writeError id c s).2 = Indexer.remove id c (index json s) := by
  rw [remove, Fallible.read_bind_apply, Indexer.remove, get?_index]
  cases get? c s.state with
  | none => rfl
  | some data =>
    dsimp only [Option.map_some]
    rw [Fallible.modify_bind_apply, index_flush, index_put]
    simp only [Json.entry, PyDict.mapValues_erase]

theorem named_remove (h : s.Named) (id c : Text) : (remove json writeError id c s).2.Named := by
  rw [remove, Fallible.read_bind_apply]
  cases hdata : get? c s.state with
  | none => exact h
  | some data =>
    refine Named.flush (h.put ?_)
    have hnamed := h c data hdata
    rw [hnamed]

end FileSystem

/-- **What the indexer on disk reads is what the plain one reads, and its changes, whether
they reach the disk or not, are those of the plain one.** -/
theorem files_refines (json : Json M C J F) (writeError : Text → Option Text) :
    Refines (files json writeError) (FileSystem.index json) FileSystem.Named where
  documents := by
    intro s _ c
    show (match get? c s.state with
      | none => []
      | some data => data.documents.map fun item => json.validateDocument item.2) =
        (((get? c (FileSystem.index json s)).map (·.documents)).getD []).map Prod.snd
    rw [FileSystem.get?_index]
    cases get? c s.state with
    | none => rfl
    | some data => simp [Json.entry, mapValues]
  getDocument := by
    intro s _ id
    have hfound := PyDict.findSome?_mapValues (fun _ => json.entry)
      (fun entry => get? id entry.documents) s.state
    refine Eq.trans ?_ hfound.symm
    simp only [files, Json.entry, PyDict.get?_mapValues]
  chunks := by
    intro s _ id
    have hfound := PyDict.findSome?_mapValues (fun _ => json.entry)
      (fun entry => get? id entry.chunks) s.state
    refine congrArg (Option.getD · []) (Eq.trans ?_ hfound.symm)
    simp only [Json.entry, PyDict.get?_mapValues]
  collection := by
    intro s h c
    show (get? c s.state).map (·.collection) =
      (get? c (FileSystem.index json s)).map (infoOf c)
    rw [FileSystem.get?_index]
    cases hdata : get? c s.state with
    | none => rfl
    | some data => exact congrArg some (h c data hdata)
  versions := by
    intro s _ c
    show (match get? c s.state with
      | none => []
      | some data => data.versions.map json.validateVersion) =
        ((get? c (FileSystem.index json s)).map (·.versions)).getD []
    rw [FileSystem.get?_index]
    cases get? c s.state with
    | none => rfl
    | some data => rfl
  store := by
    intro s h c document chunks
    refine ⟨?_, FileSystem.index_store c document chunks s⟩
    refine FileSystem.Named.flush (h.put ?_)
    have hnamed := h.ensured c
    rw [hnamed]
  recordVersion := by
    intro s h c version _
    refine ⟨?_, FileSystem.index_recordVersion c version s⟩
    exact FileSystem.Named.flush (h.put (h.ensured c))
  remove := fun h id c => ⟨FileSystem.named_remove h id c, FileSystem.index_remove id c _⟩

end Files

end OpenWrtCopilot.Ports.KnowledgeStores
