import OpenWrtCopilot.Verified.Passes
import OpenWrtCopilot.Verified.PyDict
import OpenWrtCopilot.Verified.PyText
import OpenWrtCopilot.Verified.Runs

/-!
# Indexing a collection of documents

Ports `KnowledgeManager.index_collection` with `_decide`, `ingest` and `reconcile` of the
indexers.  A pass over a collection offers its documents to the indexer one by one and then
removes the documents that were not offered.  A document whose content, by its checksum, is
indexed under another id is skipped as a duplicate; nothing looks whether the document it
duplicates is still there at the end of the pass.

## Main results

* `complete_iff` — when the content of each document of a pass is in the collection after it.
* `complete_of_keeping` — in a run whose passes all meet the condition, it is after each pass.
* `renamed_content_lost` — a document that is renamed disappears with its content.
-/

namespace OpenWrtCopilot.Ports.KnowledgeIndex

open Verified
open Verified.PyDict (Dict get? keys)
open Verified.PyText

variable {M C : Type}

/-! ## Documents -/

/-- `KnowledgeDocument`. -/
structure KnowledgeDocument (M : Type) where
  id : Text
  source : Text := []
  format : Text := []
  text : Text := []
  language : Text := []
  metadata : M
  checksum : Text := []
  version : Int := 1

inductive KnowledgeChange
  | added
  | updated
  | unchanged
  | removed
  | duplicate
  deriving DecidableEq

/-- `KnowledgeVersion`. -/
structure KnowledgeVersion where
  documentId : Text
  version : Int := 1
  checksum : Text := []
  change : KnowledgeChange := .added
  source : Text := []

/-- `KnowledgeCollection`. -/
structure KnowledgeCollection where
  documentIds : List Text := []
  chunkCount : Nat := 0

/-- What an indexer keeps for one collection. -/
structure Entry (M C : Type) where
  collection : KnowledgeCollection := {}
  documents : Dict Text (KnowledgeDocument M) := []
  chunks : Dict Text (List C) := []
  versions : List KnowledgeVersion := []

/-- The state of an indexer, by collection.  The filesystem indexer keeps it like this, the
one in memory in a dictionary for each field of an entry. -/
abbrev Indexer (M C : Type) := Dict Text (Entry M C)

/-! ## The indexer -/

namespace Indexer

/-- The documents of a collection by their ids. -/
def documentsOf (collectionId : Text) (ix : Indexer M C) : Dict Text (KnowledgeDocument M) :=
  ((get? collectionId ix).map (·.documents)).getD []

/-- `documents`. -/
def documents (collectionId : Text) (ix : Indexer M C) : List (KnowledgeDocument M) :=
  (documentsOf collectionId ix).map Prod.snd

/-- `get_document`, which looks into every collection. -/
def getDocument (documentId : Text) (ix : Indexer M C) : Option (KnowledgeDocument M) :=
  ix.findSome? fun item => get? documentId item.2.documents

/-- `chunks`. -/
def chunks (documentId : Text) (ix : Indexer M C) : List C :=
  (ix.findSome? fun item => get? documentId item.2.chunks).getD []

/-- `_store`. -/
def store (collectionId : Text) (document : KnowledgeDocument M) (chunks : List C)
    (ix : Indexer M C) : Indexer M C :=
  let entry := (get? collectionId ix).getD {}
  let chunks := PyDict.set document.id chunks entry.chunks
  let ids := entry.collection.documentIds
  PyDict.set collectionId
    { entry with
      documents := PyDict.set document.id document entry.documents
      chunks := chunks
      collection :=
        { documentIds := if document.id ∈ ids then ids else ids ++ [document.id]
          chunkCount := (chunks.map fun item => item.2.length).sum } }
    ix

/-- `_record_version`. -/
def recordVersion (collectionId : Text) (version : KnowledgeVersion) (ix : Indexer M C) :
    Indexer M C :=
  let entry := (get? collectionId ix).getD {}
  PyDict.set collectionId { entry with versions := entry.versions ++ [version] } ix

/-- `_remove`. -/
def remove (documentId collectionId : Text) (ix : Indexer M C) : Indexer M C :=
  match get? collectionId ix with
  | none => ix
  | some entry =>
      PyDict.set collectionId
        { entry with
          documents := PyDict.erase documentId entry.documents
          chunks := PyDict.erase documentId entry.chunks
          collection := { entry.collection with
            documentIds := entry.collection.documentIds.erase documentId } }
        ix

/-- `_checksum_owner`. -/
def checksumOwner (collectionId checksum : Text) (ix : Indexer M C) : Option Text :=
  ((documents collectionId ix).find? fun document => document.checksum = checksum).map (·.id)

end Indexer

open Indexer

/-- `a or b`. -/
def orText (a b : Text) : Text := if a ≠ [] then a else b

section Ingest

-- `document_checksum`, a digest of the normalized text
variable (documentChecksum : Text → Text)

/-- The checksum of a document, computed where it has none. -/
def checksumOf (document : KnowledgeDocument M) : Text :=
  orText document.checksum (documentChecksum document.text)

/-- `_decide`. -/
def decide (collectionId : Text) (document : KnowledgeDocument M)
    (existing : Option (KnowledgeDocument M)) (ix : Indexer M C) : KnowledgeVersion :=
  let checksum := checksumOf documentChecksum document
  let decided (version : Int) (change : KnowledgeChange) : KnowledgeVersion :=
    { documentId := document.id, version := version, checksum := checksum, change := change
      source := document.source }
  match existing with
  | none =>
      match checksumOwner collectionId checksum ix with
      | some owner =>
          if owner ≠ document.id then decided 1 .duplicate
          else decided (max 1 document.version) .added
      | none => decided (max 1 document.version) .added
  | some existing =>
      if existing.checksum = checksum then decided existing.version .unchanged
      else decided (existing.version + 1) .updated

/-- `ingest`. -/
def ingest (collectionId : Text) (document : KnowledgeDocument M) (chunks : List C)
    (ix : Indexer M C) : KnowledgeVersion × Indexer M C :=
  let existing := getDocument document.id ix
  let version := decide documentChecksum collectionId document existing ix
  if version.change = .unchanged ∨ version.change = .duplicate then (version, ix)
  else
    let stored := { document with checksum := version.checksum, version := version.version }
    (version, recordVersion collectionId version (store collectionId stored chunks ix))

end Ingest

/-- `reconcile`, over the documents of the collection. -/
def reconcileFrom (seen : List Text) (collectionId : Text) :
    List (KnowledgeDocument M) → Indexer M C → List KnowledgeVersion × Indexer M C
  | [], ix => ([], ix)
  | document :: documents, ix =>
      if document.id ∈ seen then reconcileFrom seen collectionId documents ix
      else
        let (removed, ix) := reconcileFrom seen collectionId documents
          (remove document.id collectionId ix)
        ({ documentId := document.id, version := document.version, checksum := document.checksum
           change := .removed, source := document.source } :: removed, ix)

/-- `reconcile`. -/
def reconcile (seen : List Text) (collectionId : Text) (ix : Indexer M C) :
    List KnowledgeVersion × Indexer M C :=
  reconcileFrom seen collectionId (documents collectionId ix) ix

/-! ## A pass -/

/-- What a pass over a collection works on: its configuration, what the source lists and
loads at that time, and the steps of the pipeline. -/
structure Pass (M C : Type) where
  collection : Text
  /-- No formats stand for any. -/
  formats : List Text := []
  /-- `_list_references`. -/
  references : Except Text (List Text)
  /-- `_load_reference` and `_parse_document`. -/
  read : Text → Except Text (KnowledgeDocument M)
  /-- `_chunk_document`. -/
  chunk : KnowledgeDocument M → Except Text (List C)
  extract : KnowledgeDocument M → Except Text M
  /-- `str(metadata.get("language", ""))`. -/
  language : M → Text

/-- A document that is ready for the indexer. -/
structure Item (M C : Type) where
  document : KnowledgeDocument M
  chunks : List C

/-- `IndexResult`. -/
structure IndexResult where
  documentsSeen : Nat := 0
  added : Nat := 0
  updated : Nat := 0
  unchanged : Nat := 0
  removed : Nat := 0
  duplicates : Nat := 0
  chunksTotal : Nat := 0
  versions : List KnowledgeVersion := []

/-- `_tally`, and the version is appended. -/
def IndexResult.tally (result : IndexResult) (version : KnowledgeVersion) : IndexResult :=
  let result := { result with versions := result.versions ++ [version] }
  match version.change with
  | .added => { result with added := result.added + 1 }
  | .updated => { result with updated := result.updated + 1 }
  | .unchanged => { result with unchanged := result.unchanged + 1 }
  | .duplicate => { result with duplicates := result.duplicates + 1 }
  | .removed => result

section Index

variable (documentChecksum : Text → Text)

/-- The steps before the indexer; a document of another format is skipped. -/
def prepare (pass : Pass M C) (reference : Text) : Except Text (Option (Item M C)) := do
  let document ← pass.read reference
  if pass.formats ≠ [] ∧ document.format ∉ pass.formats then return none
  let chunks ← pass.chunk document
  let metadata ← pass.extract document
  return some
    { document := { document with
        metadata := metadata
        language := orText document.language (pass.language metadata)
        checksum := checksumOf documentChecksum document }
      chunks := chunks }

/-- The loop of `index_collection`, with the ids that were seen. -/
def indexReferences (pass : Pass M C) : List Text → IndexResult → List Text → Indexer M C →
    Except Text (IndexResult × List Text) × Indexer M C
  | [], result, seen, ix => (.ok (result, seen), ix)
  | reference :: references, result, seen, ix =>
      match prepare documentChecksum pass reference with
      | .error e => (.error e, ix)
      | .ok none => indexReferences pass references result seen ix
      | .ok (some item) =>
          let (version, ix) :=
            ingest documentChecksum pass.collection item.document item.chunks ix
          indexReferences pass references (result.tally version) (seen ++ [item.document.id]) ix

/-- `index_collection`. -/
def indexCollection (pass : Pass M C) (ix : Indexer M C) :
    Except Text IndexResult × Indexer M C :=
  match pass.references with
  | .error e => (.error e, ix)
  | .ok references =>
      match indexReferences documentChecksum pass references
          { documentsSeen := references.length } [] ix with
      | (.error e, ix) => (.error e, ix)
      | (.ok (result, seen), ix) =>
          let (removed, ix) := reconcile seen pass.collection ix
          (.ok { result with
              removed := removed.length
              versions := result.versions ++ removed
              chunksTotal := ((documents pass.collection ix).map fun document =>
                (chunks document.id ix).length).sum },
            ix)

/-! ## The property and the condition -/

/-- The documents that are prepared from a list of references. -/
def prepareAll (pass : Pass M C) : List Text → Except Text (List (Item M C))
  | [] => .ok []
  | reference :: references => do
      let item ← prepare documentChecksum pass reference
      let items ← prepareAll pass references
      return item.toList ++ items

/-- The documents a pass sees. -/
def Pass.items (pass : Pass M C) : Except Text (List (Item M C)) :=
  pass.references >>= prepareAll documentChecksum pass

/-- The content of a document, by its checksum. -/
def Item.content (item : Item M C) : Text := checksumOf documentChecksum item.document

/-- The indexer after some passes, with the latest pass if it ended. -/
structure Indexed (M C : Type) where
  index : Indexer M C := []
  latest : Option (Pass M C) := none

/-- One pass; an exception ends it where it is. -/
def step (pass : Pass M C) (s : Indexed M C) : Option (Indexed M C) :=
  match indexCollection documentChecksum pass s.index with
  | (.ok _, ix) => some { index := ix, latest := some pass }
  | (.error _, ix) => some { index := ix, latest := none }

/-- The collection has the content. -/
def Holds (ix : Indexer M C) (collectionId content : Text) : Prop :=
  ∃ document ∈ documents collectionId ix, document.checksum = content

/-- Each document the latest pass saw has its content in the collection. -/
def Indexed.Complete (s : Indexed M C) : Prop :=
  ∀ pass, s.latest = some pass → ∀ items, pass.items documentChecksum = .ok items →
    ∀ item ∈ items, Holds s.index pass.collection (item.content documentChecksum)

/-- An item that comes after the given ones accounts for a content: its document is indexed
with another content than it has now, and has this one; or it is indexed as it is now, and
the collection has this content under its id; or it is not indexed, has this content, and
what has this content in the collection comes before it in the pass. -/
def Accounts (ix : Indexer M C) (collectionId : Text) (before : List (Item M C))
    (item : Item M C) (content : Text) : Prop :=
  match getDocument item.document.id ix with
  | some existing =>
      if existing.checksum = item.content documentChecksum then
        ∃ document, get? item.document.id (documentsOf collectionId ix) = some document ∧
          document.checksum = content
      else item.content documentChecksum = content
  | none =>
      item.content documentChecksum = content ∧
        ∀ document ∈ documents collectionId ix, document.checksum = content →
          document.id ∈ before.map (·.document.id)

/-- Each content of the pass has a document that accounts for it. -/
def AllAccounted (ix : Indexer M C) (collectionId : Text) (items : List (Item M C)) : Prop :=
  ∀ item ∈ items, ∃ before other after, items = before ++ other :: after ∧
    Accounts documentChecksum ix collectionId before other (item.content documentChecksum)

/-- No two documents of the pass have one id and different contents. -/
def Consistent (items : List (Item M C)) : Prop :=
  ∀ item ∈ items, ∀ other ∈ items, item.document.id = other.document.id →
    item.content documentChecksum = other.content documentChecksum

/-- The pass keeps the content of each document it sees, if it ends. -/
def Keeping (s : Indexed M C) (pass : Pass M C) : Prop :=
  ∀ items, pass.items documentChecksum = .ok items →
    Consistent documentChecksum items ∧
      AllAccounted documentChecksum s.index pass.collection items

end Index

/-! ## One collection among others -/

/-- What a collection holds, as the store of a pass. -/
def own (collectionId : Text) (ix : Indexer M C) (id : Text) : Option Text :=
  (get? id (documentsOf collectionId ix)).map (·.checksum)

/-- What the collections before it hold. -/
def ownBefore (collectionId : Text) : Indexer M C → Text → Option Text
  | [], _ => none
  | (name, entry) :: rest, id =>
      if name = collectionId then none
      else ((get? id entry.documents).map (·.checksum)).or (ownBefore collectionId rest id)

/-- What the collections after it hold. -/
def ownAfter (collectionId : Text) : Indexer M C → Text → Option Text
  | [], _ => none
  | (name, _) :: rest, id =>
      if name = collectionId then (getDocument id rest).map (·.checksum)
      else ownAfter collectionId rest id

def neighbours (collectionId : Text) (ix : Indexer M C) : Passes.Neighbours Text Text where
  before := ownBefore collectionId ix
  after := ownAfter collectionId ix

theorem getDocument_cons (id name : Text) (entry : Entry M C) (rest : Indexer M C) :
    getDocument id ((name, entry) :: rest) =
      (get? id entry.documents).or (getDocument id rest) := by
  rw [getDocument, List.findSome?_cons]
  cases get? id entry.documents with
  | none => rfl
  | some document => rfl

/-- A document is looked up in all collections, in their order. -/
theorem found_eq (collectionId : Text) (ix : Indexer M C) (id : Text) :
    Passes.found (neighbours collectionId ix) (own collectionId ix) id =
      (getDocument id ix).map (·.checksum) := by
  show (ownBefore collectionId ix id).or
    ((own collectionId ix id).or (ownAfter collectionId ix id)) = _
  induction ix with
  | nil => rfl
  | cons item rest ih =>
    obtain ⟨name, entry⟩ := item
    rw [getDocument_cons, Option.map_or, ownBefore, ownAfter]
    by_cases hname : name = collectionId
    · have hown : own collectionId ((name, entry) :: rest) id =
          (get? id entry.documents).map (·.checksum) := by
        rw [own, documentsOf, get?, if_pos hname]
        rfl
      rw [if_pos hname, if_pos hname, hown, Option.none_or]
    · have hown : own collectionId ((name, entry) :: rest) id = own collectionId rest id := by
        rw [own, documentsOf, get?, if_neg hname]
        rfl
      rw [if_neg hname, if_neg hname, hown, Option.or_assoc, ih]

theorem ownBefore_set (collectionId : Text) (entry : Entry M C) (ix : Indexer M C) (id : Text) :
    ownBefore collectionId (PyDict.set collectionId entry ix) id =
      ownBefore collectionId ix id := by
  induction ix with
  | nil => exact if_pos rfl
  | cons item rest ih =>
    obtain ⟨name, old⟩ := item
    by_cases hname : name = collectionId
    · rw [PyDict.set, if_pos hname, ownBefore, ownBefore, if_pos hname, if_pos hname]
    · rw [PyDict.set, if_neg hname, ownBefore, ownBefore, if_neg hname, if_neg hname, ih]

theorem ownAfter_set (collectionId : Text) (entry : Entry M C) (ix : Indexer M C) (id : Text) :
    ownAfter collectionId (PyDict.set collectionId entry ix) id =
      ownAfter collectionId ix id := by
  induction ix with
  | nil => exact if_pos rfl
  | cons item rest ih =>
    obtain ⟨name, old⟩ := item
    by_cases hname : name = collectionId
    · simp only [PyDict.set, ownAfter, if_pos hname]
    · simp only [PyDict.set, ownAfter, if_neg hname, ih]

theorem neighbours_set (collectionId : Text) (entry : Entry M C) (ix : Indexer M C) :
    neighbours collectionId (PyDict.set collectionId entry ix) = neighbours collectionId ix := by
  have hbefore := funext (ownBefore_set collectionId entry ix)
  have hafter := funext (ownAfter_set collectionId entry ix)
  rw [neighbours, hbefore, hafter, neighbours]

/-- The documents of one collection are replaced; the others stay as they are. -/
structure Replaced (collectionId : Text) (ix : Indexer M C)
    (documents : Dict Text (KnowledgeDocument M)) (ix' : Indexer M C) : Prop where
  here : documentsOf collectionId ix' = documents
  elsewhere : ∀ other, other ≠ collectionId → documentsOf other ix' = documentsOf other ix
  neighbours : neighbours collectionId ix' = neighbours collectionId ix

section Replaced

variable {collectionId : Text} {ix ix' ix'' : Indexer M C}
  {d d' : Dict Text (KnowledgeDocument M)}

theorem Replaced.refl (collectionId : Text) (ix : Indexer M C) :
    Replaced collectionId ix (documentsOf collectionId ix) ix :=
  ⟨rfl, fun _ _ => rfl, rfl⟩

theorem Replaced.trans (h : Replaced collectionId ix d ix')
    (h' : Replaced collectionId ix' d' ix'') : Replaced collectionId ix d' ix'' :=
  ⟨h'.here, fun other hother => (h'.elsewhere other hother).trans (h.elsewhere other hother),
    h'.neighbours.trans h.neighbours⟩

theorem replaced_set {entry : Entry M C} (hd : entry.documents = d) (ix : Indexer M C) :
    Replaced collectionId ix d (PyDict.set collectionId entry ix) where
  here := by
    rw [documentsOf, PyDict.get?_set_self]
    exact hd
  elsewhere := by
    intro other hother
    rw [documentsOf, PyDict.get?_set_of_ne hother, documentsOf]
  neighbours := neighbours_set collectionId entry ix

theorem documents_getD (collectionId : Text) (ix : Indexer M C) :
    ((get? collectionId ix).getD {}).documents = documentsOf collectionId ix := by
  rw [documentsOf]
  cases get? collectionId ix with
  | none => rfl
  | some entry => rfl

theorem replaced_store (collectionId : Text) (document : KnowledgeDocument M)
    (chunks : List C) (ix : Indexer M C) :
    Replaced collectionId ix (PyDict.set document.id document (documentsOf collectionId ix))
      (store collectionId document chunks ix) := by
  refine replaced_set ?_ ix
  rw [← documents_getD]

theorem replaced_recordVersion (collectionId : Text) (version : KnowledgeVersion)
    (ix : Indexer M C) :
    Replaced collectionId ix (documentsOf collectionId ix)
      (recordVersion collectionId version ix) := by
  refine replaced_set ?_ ix
  rw [← documents_getD]

theorem replaced_remove (documentId collectionId : Text) (ix : Indexer M C) :
    Replaced collectionId ix (PyDict.erase documentId (documentsOf collectionId ix))
      (remove documentId collectionId ix) := by
  rw [remove]
  cases hentry : get? collectionId ix with
  | none =>
    have hempty : documentsOf collectionId ix = [] := by
      rw [documentsOf, hentry]
      rfl
    have hrefl := Replaced.refl collectionId ix
    rw [hempty] at hrefl ⊢
    exact hrefl
  | some entry =>
    have hdocuments : documentsOf collectionId ix = entry.documents := by
      rw [documentsOf, hentry]
      rfl
    rw [hdocuments]
    refine replaced_set ?_ ix
    rfl

end Replaced

/-! ## Documents under their ids -/

/-- Documents are kept under their ids, each once. -/
structure Keyed (ix : Indexer M C) : Prop where
  nodup : ∀ collectionId, (keys (documentsOf collectionId ix)).Nodup
  id : ∀ collectionId id document,
    get? id (documentsOf collectionId ix) = some document → document.id = id

theorem keyed_empty : Keyed ([] : Indexer M C) := ⟨fun _ => List.nodup_nil, nofun⟩

theorem Keyed.replaced {collectionId : Text} {ix ix' : Indexer M C}
    {d : Dict Text (KnowledgeDocument M)} (h : Keyed ix) (hd : Replaced collectionId ix d ix')
    (hnodup : (keys d).Nodup)
    (hid : ∀ id document, get? id d = some document → document.id = id) : Keyed ix' := by
  constructor
  · intro other
    by_cases hother : other = collectionId
    · rw [hother, hd.here]
      exact hnodup
    · rw [hd.elsewhere other hother]
      exact h.nodup other
  · intro other
    by_cases hother : other = collectionId
    · rw [hother, hd.here]
      exact hid
    · rw [hd.elsewhere other hother]
      exact h.id other

section Keyed

variable {collectionId : Text} {ix : Indexer M C}

theorem mem_documents_iff (h : Keyed ix) {document : KnowledgeDocument M} :
    document ∈ documents collectionId ix ↔
      get? document.id (documentsOf collectionId ix) = some document := by
  rw [documents, PyDict.get?_eq_some_iff (h.nodup collectionId), List.mem_map]
  constructor
  · intro ⟨item, hitem, hdocument⟩
    obtain ⟨key, value⟩ := item
    obtain rfl := hdocument
    have hkey := h.id collectionId key value
      ((PyDict.get?_eq_some_iff (h.nodup collectionId)).mpr hitem)
    rwa [hkey]
  · intro hmem
    exact ⟨_, hmem, rfl⟩

theorem own_eq_some_iff {id content : Text} :
    own collectionId ix id = some content ↔
      ∃ document, get? id (documentsOf collectionId ix) = some document ∧
        document.checksum = content := by
  rw [own, Option.map_eq_some_iff]

/-- What a collection holds, it holds under some id. -/
theorem holds_iff (h : Keyed ix) (content : Text) :
    Holds ix collectionId content ↔ ∃ id, own collectionId ix id = some content := by
  constructor
  · intro ⟨document, hmem, hcontent⟩
    exact ⟨document.id, own_eq_some_iff.mpr
      ⟨document, (mem_documents_iff h).mp hmem, hcontent⟩⟩
  · intro ⟨id, hown⟩
    obtain ⟨document, hdocument, hcontent⟩ := own_eq_some_iff.mp hown
    have hid := h.id collectionId id document hdocument
    exact ⟨document, (mem_documents_iff h).mpr (by rwa [hid]), hcontent⟩

theorem checksumOwner_none_iff (content : Text) :
    checksumOwner collectionId content ix = none ↔ ¬ Holds ix collectionId content := by
  rw [checksumOwner, Option.map_eq_none_iff, List.find?_eq_none]
  simp [Holds]

theorem checksumOwner_some (h : Keyed ix) {content owner : Text}
    (howner : checksumOwner collectionId content ix = some owner) :
    own collectionId ix owner = some content := by
  obtain ⟨document, hfind, rfl⟩ := Option.map_eq_some_iff.mp howner
  have hmem := List.mem_of_find?_eq_some hfind
  have hcontent : document.checksum = content := by
    simpa using List.find?_some hfind
  exact own_eq_some_iff.mpr ⟨document, (mem_documents_iff h).mp hmem, hcontent⟩

end Keyed

/-! ## One document -/

section Ingest

variable {documentChecksum : Text → Text} {collectionId : Text} {ix ix' : Indexer M C}

/-- What `ingest` is to the collection: ids were offered to it. -/
structure Offered (collectionId : Text) (content : Text → Text) (ids : List Text)
    (ix ix' : Indexer M C) : Prop where
  keyed : Keyed ix'
  around : neighbours collectionId ix' = neighbours collectionId ix
  held : own collectionId ix' =
    Passes.pass (neighbours collectionId ix) content (own collectionId ix) ids

theorem own_replaced {d : Dict Text (KnowledgeDocument M)} (h : Replaced collectionId ix d ix') :
    own collectionId ix' = fun id => (get? id d).map (·.checksum) := by
  funext id
  rw [own, h.here]

/-- A document is stored under its id. -/
theorem own_store {document : KnowledgeDocument M}
    (h : Replaced collectionId ix
      (PyDict.set document.id document (documentsOf collectionId ix)) ix') :
    own collectionId ix' =
      Passes.put (own collectionId ix) document.id document.checksum := by
  rw [own_replaced h]
  funext id
  by_cases hid : id = document.id
  · rw [hid, PyDict.get?_set_self, Passes.put_self]
    rfl
  · rw [PyDict.get?_set_of_ne hid, Passes.put_of_ne hid, own]

theorem keyed_store {document : KnowledgeDocument M} (hkeyed : Keyed ix)
    (h : Replaced collectionId ix
      (PyDict.set document.id document (documentsOf collectionId ix)) ix') : Keyed ix' := by
  refine hkeyed.replaced h (PyDict.nodup_keys_set (hkeyed.nodup collectionId) _ _) ?_
  intro id stored hstored
  by_cases hid : id = document.id
  · rw [hid, PyDict.get?_set_self] at hstored
    rw [hid, ← Option.some.inj hstored]
  · rw [PyDict.get?_set_of_ne hid] at hstored
    exact hkeyed.id collectionId id stored hstored

/-- A document is skipped: the collection is as it was. -/
theorem offered_skip {content : Text → Text} {id : Text} (hkeyed : Keyed ix)
    (h : Passes.offer (neighbours collectionId ix) content (own collectionId ix) id =
      own collectionId ix) : Offered collectionId content [id] ix ix :=
  ⟨hkeyed, rfl, h.symm⟩

/-- A document is stored, with its checksum. -/
theorem offered_store {content : Text → Text} {document : KnowledgeDocument M}
    (hkeyed : Keyed ix)
    (h : Passes.offer (neighbours collectionId ix) content (own collectionId ix) document.id =
      Passes.put (own collectionId ix) document.id document.checksum)
    (chunks : List C) (version : KnowledgeVersion) :
    Offered collectionId content [document.id] ix
      (recordVersion collectionId version (store collectionId document chunks ix)) := by
  have hstore := replaced_store collectionId document chunks ix
  have hrecord := replaced_recordVersion collectionId version
    (store collectionId document chunks ix)
  rw [hstore.here] at hrecord
  have hboth := hstore.trans hrecord
  exact ⟨keyed_store hkeyed hboth, hboth.neighbours, (own_store hboth).trans h.symm⟩

/-- A document whose id is found somewhere. -/
theorem ingest_found (hkeyed : Keyed ix) {content : Text → Text}
    {document existing : KnowledgeDocument M} (chunks : List C)
    (hcontent : content document.id = checksumOf documentChecksum document)
    (hexisting : getDocument document.id ix = some existing) :
    Offered collectionId content [document.id] ix
      (ingest documentChecksum collectionId document chunks ix).2 := by
  have hfound := found_eq collectionId ix document.id
  rw [hexisting] at hfound
  by_cases hsame : existing.checksum = checksumOf documentChecksum document
  · have hunchanged : (ingest documentChecksum collectionId document chunks ix).2 = ix := by
      simp [ingest, decide, hexisting, hsame]
    rw [hunchanged]
    refine offered_skip hkeyed ?_
    simp only [Passes.offer, hfound, Option.map_some, hcontent, if_pos hsame]
  · have hupdated : ∃ version : KnowledgeVersion,
        (ingest documentChecksum collectionId document chunks ix).2 =
          recordVersion collectionId version (store collectionId
            { document with
              checksum := checksumOf documentChecksum document
              version := version.version } chunks ix) := by
      simp only [ingest, decide, hexisting, if_neg hsame, reduceCtorEq, or_self, if_false]
      exact ⟨_, rfl⟩
    obtain ⟨version, hupdated⟩ := hupdated
    rw [hupdated]
    refine @offered_store M C collectionId ix content { document with
      checksum := checksumOf documentChecksum document
      version := version.version } hkeyed ?_ chunks version
    simp only [Passes.offer, hfound, Option.map_some, hcontent, if_neg hsame]

/-- A document whose id is found nowhere. -/
theorem ingest_new (hkeyed : Keyed ix) {content : Text → Text}
    {document : KnowledgeDocument M} (chunks : List C)
    (hcontent : content document.id = checksumOf documentChecksum document)
    (hexisting : getDocument document.id ix = none) :
    Offered collectionId content [document.id] ix
      (ingest documentChecksum collectionId document chunks ix).2 := by
  have hfound := found_eq collectionId ix document.id
  rw [hexisting] at hfound
  cases howner : checksumOwner collectionId (checksumOf documentChecksum document) ix with
  | some owner =>
    have hown := checksumOwner_some hkeyed howner
    have hother : owner ≠ document.id := by
      rintro rfl
      rw [Passes.own_of_found_none hfound] at hown
      cases hown
    have hduplicate : (ingest documentChecksum collectionId document chunks ix).2 = ix := by
      simp [ingest, decide, hexisting, howner, hother]
    rw [hduplicate]
    refine offered_skip hkeyed (Passes.offer_duplicate hfound ⟨owner, ?_⟩)
    rw [hown, hcontent]
  | none =>
    have hnew : ¬ ∃ id, own collectionId ix id = some (content document.id) := by
      rw [hcontent, ← holds_iff hkeyed]
      exact (checksumOwner_none_iff _).mp howner
    have hadded : ∃ version : KnowledgeVersion,
        (ingest documentChecksum collectionId document chunks ix).2 =
          recordVersion collectionId version (store collectionId
            { document with
              checksum := checksumOf documentChecksum document
              version := version.version } chunks ix) := by
      simp only [ingest, decide, hexisting, howner, reduceCtorEq, or_self, if_false]
      exact ⟨_, rfl⟩
    obtain ⟨version, hadded⟩ := hadded
    rw [hadded]
    refine @offered_store M C collectionId ix content { document with
      checksum := checksumOf documentChecksum document
      version := version.version } hkeyed ?_ chunks version
    simp only [Passes.offer, hfound, Option.map_none, if_neg hnew, hcontent]

/-- The id of the document is offered with its content. -/
theorem ingest_offered (hkeyed : Keyed ix) {content : Text → Text}
    (document : KnowledgeDocument M) (chunks : List C)
    (hcontent : content document.id = checksumOf documentChecksum document) :
    Offered collectionId content [document.id] ix
      (ingest documentChecksum collectionId document chunks ix).2 := by
  cases hexisting : getDocument document.id ix with
  | some existing => exact ingest_found hkeyed chunks hcontent hexisting
  | none => exact ingest_new hkeyed chunks hcontent hexisting

theorem Offered.trans {content : Text → Text} {ids more : List Text} {ix'' : Indexer M C}
    (h : Offered collectionId content ids ix ix')
    (h' : Offered collectionId content more ix' ix'') :
    Offered collectionId content (ids ++ more) ix ix'' where
  keyed := h'.keyed
  around := h'.around.trans h.around
  held := by rw [h'.held, h.around, h.held, Passes.pass_append]

end Ingest

/-! ## The whole pass -/

section Index

variable {documentChecksum : Text → Text} {pass : Pass M C}

/-- The loop offers the documents of the pass, if all can be prepared. -/
theorem indexReferences_offered {content : Text → Text} (references : List Text)
    {items : List (Item M C)} (hitems : prepareAll documentChecksum pass references = .ok items)
    (hcontent : ∀ item ∈ items, content item.document.id = item.content documentChecksum)
    (result : IndexResult) (seen : List Text) {ix : Indexer M C} (hkeyed : Keyed ix) :
    ∃ result' ix', indexReferences documentChecksum pass references result seen ix =
        (.ok (result', seen ++ items.map (·.document.id)), ix') ∧
      Offered pass.collection content (items.map (·.document.id)) ix ix' := by
  induction references generalizing items result seen ix with
  | nil =>
    obtain rfl := Except.ok.inj hitems
    exact ⟨result, ix, by simp [indexReferences], hkeyed, rfl, rfl⟩
  | cons reference references ih =>
    rw [prepareAll] at hitems
    cases hprepare : prepare documentChecksum pass reference with
    | error e =>
      rw [hprepare] at hitems
      cases hitems
    | ok prepared =>
      rw [hprepare] at hitems
      cases hrest : prepareAll documentChecksum pass references with
      | error e =>
        rw [hrest] at hitems
        cases hitems
      | ok rest =>
        rw [hrest] at hitems
        obtain rfl := Except.ok.inj hitems
        cases prepared with
        | none =>
          simp only [indexReferences, hprepare]
          exact ih hrest hcontent result seen hkeyed
        | some item =>
          have hitem := hcontent item List.mem_cons_self
          have hoffered := @ingest_offered _ _ _ pass.collection _ hkeyed content
            item.document item.chunks hitem
          simp only [indexReferences, hprepare]
          obtain ⟨result', ix', hindex, hlater⟩ := ih hrest
            (fun other hother => hcontent other (List.mem_cons_of_mem item hother))
            (result.tally (ingest documentChecksum pass.collection item.document
              item.chunks ix).1) (seen ++ [item.document.id]) hoffered.keyed
          refine ⟨result', ix', ?_, hoffered.trans hlater⟩
          rw [hindex, List.append_assoc]
          rfl

/-- Documents that were not seen are removed. -/
theorem replaced_reconcileFrom (seen : List Text) (collectionId : Text)
    (documents : List (KnowledgeDocument M)) (ix : Indexer M C) :
    Replaced collectionId ix
      (((documents.map (·.id)).filter (· ∉ seen)).foldl (fun d id => PyDict.erase id d)
        (documentsOf collectionId ix))
      (reconcileFrom seen collectionId documents ix).2 := by
  induction documents generalizing ix with
  | nil => exact Replaced.refl collectionId ix
  | cons document documents ih =>
    rw [reconcileFrom, List.map_cons]
    by_cases hseen : document.id ∈ seen
    · rw [if_pos hseen, List.filter_cons_of_neg (by simpa using hseen)]
      exact ih ix
    · rw [if_neg hseen, List.filter_cons_of_pos (by simpa using hseen), List.foldl_cons]
      have hremove := replaced_remove document.id collectionId ix
      have hlater := ih (remove document.id collectionId ix)
      rw [hremove.here] at hlater
      exact hremove.trans hlater

/-- What was seen stays, the rest goes. -/
theorem own_reconcile {collectionId : Text} {ix : Indexer M C} (hkeyed : Keyed ix)
    (seen : List Text) (id : Text) :
    own collectionId (reconcile seen collectionId ix).2 id =
      if id ∈ seen then own collectionId ix id else none := by
  have hreplaced :=
    replaced_reconcileFrom seen collectionId (documents collectionId ix) ix
  rw [reconcile, own, hreplaced.here, PyDict.get?_foldl_erase]
  by_cases hseen : id ∈ seen
  · have hkept : id ∉ ((documents collectionId ix).map (·.id)).filter (· ∉ seen) := by
      simp [hseen]
    rw [if_neg hkept, if_pos hseen, own]
  · rw [if_neg hseen]
    cases hdocument : get? id (documentsOf collectionId ix) with
    | none => split_ifs <;> rfl
    | some document =>
      have hid := hkeyed.id collectionId id document hdocument
      have hmem : document ∈ documents collectionId ix :=
        (mem_documents_iff hkeyed).mpr (by rwa [hid])
      have hremoved : id ∈ ((documents collectionId ix).map (·.id)).filter (· ∉ seen) := by
        refine List.mem_filter.mpr ⟨?_, by simpa using hseen⟩
        exact List.mem_map.mpr ⟨document, hmem, hid⟩
      rw [if_pos hremoved]
      rfl

theorem keyed_reconcile {ix : Indexer M C} (hkeyed : Keyed ix) (seen : List Text)
    (collectionId : Text) : Keyed (reconcile seen collectionId ix).2 := by
  refine hkeyed.replaced
    (replaced_reconcileFrom seen collectionId (documents collectionId ix) ix) ?_ ?_
  · exact PyDict.nodup_keys_foldl_erase (hkeyed.nodup collectionId) _
  · intro id document hdocument
    rw [PyDict.get?_foldl_erase] at hdocument
    split_ifs at hdocument
    exact hkeyed.id collectionId id document hdocument

/-! ## What a pass keeps -/

theorem keyed_indexReferences (documentChecksum : Text → Text) (pass : Pass M C)
    (references : List Text) (result : IndexResult) (seen : List Text) {ix : Indexer M C}
    (hkeyed : Keyed ix) :
    Keyed (indexReferences documentChecksum pass references result seen ix).2 := by
  induction references generalizing result seen ix with
  | nil => exact hkeyed
  | cons reference references ih =>
    rw [indexReferences]
    cases prepare documentChecksum pass reference with
    | error e => exact hkeyed
    | ok prepared =>
      cases prepared with
      | none => exact ih result seen hkeyed
      | some item =>
        refine ih _ _ ?_
        exact (@ingest_offered _ _ _ pass.collection _ hkeyed
          (fun _ => item.content documentChecksum) item.document item.chunks rfl).keyed

theorem keyed_indexCollection (documentChecksum : Text → Text) (pass : Pass M C)
    {ix : Indexer M C} (hkeyed : Keyed ix) :
    Keyed (indexCollection documentChecksum pass ix).2 := by
  rw [indexCollection]
  cases pass.references with
  | error e => exact hkeyed
  | ok references =>
    have hindexed := keyed_indexReferences documentChecksum pass references
      { documentsSeen := references.length } [] hkeyed
    dsimp only
    cases hindex : indexReferences documentChecksum pass references
        { documentsSeen := references.length } [] ix with
    | mk outcome after =>
      rw [hindex] at hindexed
      cases outcome with
      | error e => exact hindexed
      | ok ended => exact keyed_reconcile hindexed ended.2 pass.collection

/-- The contents of the documents of a pass, by their ids. -/
def contentOf (documentChecksum : Text → Text) (items : List (Item M C)) (id : Text) : Text :=
  ((items.find? fun item => item.document.id = id).map
    (·.content documentChecksum)).getD []

theorem contentOf_eq {items : List (Item M C)} (h : Consistent documentChecksum items)
    {item : Item M C} (hitem : item ∈ items) :
    contentOf documentChecksum items item.document.id = item.content documentChecksum := by
  rw [contentOf]
  cases hfind : items.find? fun other => other.document.id = item.document.id with
  | none => exact absurd (List.find?_eq_none.mp hfind item hitem) (by simp)
  | some other =>
    have hid : other.document.id = item.document.id := by
      simpa using List.find?_some hfind
    exact h other (List.mem_of_find?_eq_some hfind) item hitem hid

/-- A pass that ends: the documents were offered, and what was not seen is gone. -/
theorem own_indexCollection {ix : Indexer M C} (hkeyed : Keyed ix) {items : List (Item M C)}
    (hitems : pass.items documentChecksum = .ok items) {content : Text → Text}
    (hcontent : ∀ item ∈ items, content item.document.id = item.content documentChecksum)
    (id : Text) :
    own pass.collection (indexCollection documentChecksum pass ix).2 id =
      if id ∈ items.map (·.document.id) then
        Passes.pass (neighbours pass.collection ix) content (own pass.collection ix)
          (items.map (·.document.id)) id
      else none := by
  cases hreferences : pass.references with
  | error e =>
    rw [Pass.items, hreferences] at hitems
    cases hitems
  | ok references =>
    rw [Pass.items, hreferences] at hitems
    obtain ⟨result, ix', hindex, hoffered⟩ := indexReferences_offered references hitems
      hcontent { documentsSeen := references.length } [] hkeyed
    have hresult : (indexCollection documentChecksum pass ix).2 =
        (reconcile (items.map (·.document.id)) pass.collection ix').2 := by
      rw [indexCollection, hreferences]
      simp only [hindex, List.nil_append]
    rw [hresult, own_reconcile hoffered.keyed, hoffered.held]

/-- The contents that a collection has after a pass, by what was offered. -/
theorem indexCollection_holds {ix : Indexer M C} (hkeyed : Keyed ix)
    {items : List (Item M C)} (hitems : pass.items documentChecksum = .ok items)
    (hconsistent : Consistent documentChecksum items) (content : Text) :
    Holds (indexCollection documentChecksum pass ix).2 pass.collection content ↔
      ∃ id ∈ items.map (·.document.id),
        Passes.pass (neighbours pass.collection ix) (contentOf documentChecksum items)
          (own pass.collection ix) (items.map (·.document.id)) id = some content := by
  rw [holds_iff (keyed_indexCollection documentChecksum pass hkeyed)]
  refine exists_congr fun id => ?_
  rw [own_indexCollection hkeyed hitems fun item hitem => contentOf_eq hconsistent hitem]
  by_cases hid : id ∈ items.map (·.document.id)
  · rw [if_pos hid, and_iff_right hid]
  · rw [if_neg hid]
    exact iff_of_false nofun fun h => hid h.1

/-- Whether a document accounts for a content, said of the collection as a store. -/
theorem accounts_iff {ix : Indexer M C} (hkeyed : Keyed ix) {collectionId : Text}
    {items : List (Item M C)} (hconsistent : Consistent documentChecksum items)
    (before : List (Item M C)) {item : Item M C} (hitem : item ∈ items) (content : Text) :
    Passes.Accounts (neighbours collectionId ix) (contentOf documentChecksum items)
        (own collectionId ix) (before.map (·.document.id)) item.document.id content ↔
      Accounts documentChecksum ix collectionId before item content := by
  have hcontent := contentOf_eq hconsistent hitem
  have hfound := found_eq collectionId ix item.document.id
  rw [Passes.Accounts, Accounts, hfound, hcontent]
  cases getDocument item.document.id ix with
  | some existing =>
    simp only [Option.map_some, own_eq_some_iff]
  | none =>
    simp only [Option.map_none]
    refine and_congr_right fun _ => ?_
    constructor
    · intro howners document hdocument hchecksum
      exact howners document.id (own_eq_some_iff.mpr
        ⟨document, (mem_documents_iff hkeyed).mp hdocument, hchecksum⟩)
    · intro howners id hown
      obtain ⟨document, hdocument, hchecksum⟩ := own_eq_some_iff.mp hown
      have hid := hkeyed.id collectionId id document hdocument
      rw [← hid]
      exact howners document ((mem_documents_iff hkeyed).mpr (by rwa [hid])) hchecksum

/-- **Each document a pass sees has its content in the collection after the pass exactly if
each of these contents has a document of the pass that accounts for it.** -/
theorem complete_iff {ix : Indexer M C} (hkeyed : Keyed ix) {items : List (Item M C)}
    (hitems : pass.items documentChecksum = .ok items)
    (hconsistent : Consistent documentChecksum items) :
    (∀ item ∈ items, Holds (indexCollection documentChecksum pass ix).2 pass.collection
        (item.content documentChecksum)) ↔
      AllAccounted documentChecksum ix pass.collection items := by
  refine forall₂_congr fun item _ => ?_
  rw [indexCollection_holds hkeyed hitems hconsistent, Passes.present_iff]
  constructor
  · intro ⟨before, id, after, hsplit, haccounts⟩
    obtain ⟨first, rest, hitems', rfl, hrest⟩ := List.map_eq_append_iff.mp hsplit
    obtain ⟨other, last, rfl, rfl, rfl⟩ := List.map_eq_cons_iff.mp hrest
    have hother : other ∈ items := by
      rw [hitems']
      exact List.mem_append_right first List.mem_cons_self
    exact ⟨first, other, last, hitems',
      (accounts_iff hkeyed hconsistent first hother _).mp haccounts⟩
  · intro ⟨before, other, after, hsplit, haccounts⟩
    have hother : other ∈ items := by
      rw [hsplit]
      exact List.mem_append_right before List.mem_cons_self
    refine ⟨before.map (·.document.id), other.document.id, after.map (·.document.id), ?_,
      (accounts_iff hkeyed hconsistent before hother _).mpr haccounts⟩
    rw [hsplit, List.map_append, List.map_cons]

end Index

/-! ## Runs -/

section Run

variable {documentChecksum : Text → Text}

/-- One pass that meets the condition. -/
theorem step_complete {pass : Pass M C} {s s' : Indexed M C} (hkeyed : Keyed s.index)
    (hkeeping : Keeping documentChecksum s pass)
    (hstep : step documentChecksum pass s = some s') :
    Keyed s'.index ∧ s'.Complete documentChecksum := by
  have hkeyed' := keyed_indexCollection documentChecksum pass hkeyed
  rw [step] at hstep
  cases hindex : indexCollection documentChecksum pass s.index with
  | mk outcome ix =>
    rw [hindex] at hstep hkeyed'
    cases outcome with
    | error e =>
      obtain rfl := Option.some.inj hstep
      exact ⟨hkeyed', nofun⟩
    | ok result =>
      obtain rfl := Option.some.inj hstep
      refine ⟨hkeyed', ?_⟩
      intro other hother items hitems
      obtain rfl := Option.some.inj hother
      obtain ⟨hconsistent, haccounted⟩ := hkeeping items hitems
      have hcomplete := (complete_iff hkeyed hitems hconsistent).mpr haccounted
      rw [hindex] at hcomplete
      exact hcomplete

/-- **After each pass that ends, each document the pass saw has its content in the
collection, in every run whose passes keep the contents of their documents.** -/
theorem complete_of_keeping (passes : List (Pass M C)) (s : Indexed M C)
    (hmeets : Runs.Meets (step documentChecksum) (Keeping documentChecksum) passes {})
    (hrun : Runs.run (step documentChecksum) passes {} = some s) :
    s.Complete documentChecksum := by
  have hstart : Keyed ({} : Indexed M C).index ∧
      ({} : Indexed M C).Complete documentChecksum := ⟨keyed_empty, nofun⟩
  have hend := Runs.run_invariant
    (fun s pass s' (h : Keyed s.index ∧ s.Complete documentChecksum) hkeeping hstep =>
      step_complete h.1 hkeeping hstep) hstart hmeets hrun
  exact hend.2

end Run

/-! ## A document that is renamed -/

/-- A pass over a directory in which every file has the same text; the ids are the format,
the source and the reference. -/
def copiesPass (references : List Text) : Pass Unit Text where
  collection := "notes".toList
  references := .ok references
  read reference := .ok
    { id := "txt:filesystem:notes:".toList ++ reference
      source := "filesystem:notes".toList
      format := "txt".toList
      text := "wifi down && wifi up".toList
      metadata := () }
  chunk document := .ok [document.text]
  extract _ := .ok ()
  language _ := []

/-- The file is there under another name, and the collection has nothing of it. -/
theorem renamed_content_lost :
    ¬ ∀ (documentChecksum : Text → Text) (passes : List (Pass Unit Text))
        (s : Indexed Unit Text), Runs.run (step documentChecksum) passes {} = some s →
      s.Complete documentChecksum := by
  intro h
  have hcomplete := h id [copiesPass ["a.txt".toList], copiesPass ["b.txt".toList]] _ rfl
  obtain ⟨document, hmem, -⟩ := hcomplete _ rfl _ rfl _ List.mem_cons_self
  cases hmem

/-- A copy is made, and the file it was made of stays. -/
theorem copied_content_kept :
    ∃ s, Runs.run (step id)
        [copiesPass ["a.txt".toList], copiesPass ["a.txt".toList, "b.txt".toList]] {} =
          some s ∧ s.Complete id := by
  have hmeets : Runs.Meets (step id) (Keeping id)
      [copiesPass ["a.txt".toList], copiesPass ["a.txt".toList, "b.txt".toList]] {} := by
    refine ⟨?_, fun s' hs' => ⟨?_, fun _ _ => trivial⟩⟩
    · intro items hitems
      obtain rfl := Except.ok.inj (Eq.symm hitems)
      refine ⟨by unfold Consistent; decide, fun item hitem => ?_⟩
      obtain rfl := List.mem_singleton.mp hitem
      exact ⟨[], _, [], rfl, rfl, nofun⟩
    · obtain rfl := Option.some.inj (Eq.symm hs')
      intro items hitems
      obtain rfl := Except.ok.inj (Eq.symm hitems)
      refine ⟨by unfold Consistent; decide, fun item hitem => ?_⟩
      have hcontent : item.content id = "wifi down && wifi up".toList := by
        obtain rfl | hitem := List.mem_cons.mp hitem
        · rfl
        · obtain rfl := List.mem_singleton.mp hitem
          rfl
      rw [hcontent]
      exact ⟨[], _, _, rfl, _, rfl, rfl⟩
  exact ⟨_, rfl, complete_of_keeping _ _ hmeets rfl⟩

end OpenWrtCopilot.Ports.KnowledgeIndex
