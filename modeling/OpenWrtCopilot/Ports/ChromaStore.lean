import OpenWrtCopilot.Ports.VectorModels
import OpenWrtCopilot.Verified.Compartments
import OpenWrtCopilot.Verified.Fallible

/-!
# The Chroma backend

Ports the operations of `ChromaVectorStore` with the server that the repository's tests describe:
collections by name, and in each a list of records.  A request that names a collection by the id
the server gave it finds the collection it was got with.  How a text reads as a number and the
search of the server are parameters.

The metadata of a collection is that of its marker, updated by what the caller gave: a key of the
caller can hide the marker.

## Main results

* `tells` — the answers tell which collections were created and deleted.
-/

namespace OpenWrtCopilot.Ports.ChromaStore

open Verified
open Verified.Fallible (modify ofExcept raise read)
open Verified.PyDict (Dict get? keys)
open Verified.PyText
open Ports.VectorStore

variable {K : Type}

/-- A record of the server, with its decoded metadata. -/
structure Record (K : Type) where
  id : Text
  vector : List K
  text : Text
  metadata : VectorMetadata
  version : Int

/-- A collection of the server. -/
structure Entry (K : Type) where
  metadata : VectorMetadata
  records : List (Record K) := []

/-- `POST /collections/{id}/query`: the nearest records, with their distances. -/
abbrev ServerQuery (K : Type) := List (Record K) → List K → Int → List (K × Record K)

/-! ## Markers -/

/-- `_MARKER`. -/
def marker : Text := "__vectorstore".toList

/-- `_collection_metadata`. -/
def collectionMetadata (namespaceName name : Text) (dimension : Int) : VectorMetadata :=
  [("hnsw:space".toList, .text "cosine".toList), (marker, .bool true),
    ("namespace".toList, .text namespaceName), ("name".toList, .text name),
    ("dimension".toList, .integer dimension)]

/-- `marker.update(metadata)`. -/
def updated (base metadata : VectorMetadata) : VectorMetadata :=
  metadata.foldl (fun d item => PyDict.set item.1 item.2 d) base

/-- `bool(value)`. -/
def truthy : Value → Bool
  | .null => false
  | .bool b => b
  | .integer n => n ≠ 0
  | .number n => n ≠ 0
  | .text t => t ≠ []
  | .list items => !items.isEmpty
  | .object entries => !entries.isEmpty

/-- The marker is there. -/
def marked (metadata : VectorMetadata) : Bool := ((get? marker metadata).map truthy).getD false

/-- `int(value)` of a value that counts as true, or zero. -/
def intOr (parseInt : Text → Option Int) (value : Value) : Except VectorStoreError Int :=
  if truthy value = true then
    match value with
    | .null => .error .typeError
    | .bool _ => .ok 1
    | .integer n => .ok n
    | .number n => .ok (if 0 ≤ n then n.floor else n.ceil)
    | .text t => (parseInt t).elim (.error .valueError) .ok
    | .list _ => .error .typeError
    | .object _ => .error .typeError
  else .ok 0

/-- `_marker_dimension`. -/
def markerDimension (parseInt : Text → Option Int) (metadata : VectorMetadata) :
    Except VectorStoreError Int :=
  intOr parseInt ((get? "dimension".toList metadata).getD .null)

/-- The metadata without the keys of the marker. -/
def userMetadata (metadata : VectorMetadata) : VectorMetadata :=
  metadata.filter fun item =>
    item.1 ∉ [marker, "namespace".toList, "name".toList, "dimension".toList, "hnsw:space".toList]

/-- The metadata of a collection shows the marker and a dimension. -/
def Harmless (parseInt : Text → Option Int) (metadata : VectorMetadata) : Prop :=
  marked metadata = true ∧ ∃ dimension, markerDimension parseInt metadata = .ok dimension

/-- The information of a collection under a name. -/
def entryInfo (parseInt : Text → Option Int) (namespaceName name : Text) (entry : Entry K) :
    Except VectorStoreError CollectionInfo := do
  let dimension ← markerDimension parseInt entry.metadata
  return {
    name := name
    namespaceName := namespaceName
    dimension := dimension
    metadata := userMetadata entry.metadata
    documentCount := entry.records.length }

/-! ## Records of the server -/

/-- `POST /collections/{id}/get`. -/
def getRecords (ids : List Text) (entry : Entry K) : List (Record K) :=
  ids.filterMap fun id => entry.records.find? (·.id = id)

/-- The first record with the id is replaced. -/
def replaceFirst (record : Record K) : List (Record K) → List (Record K)
  | [] => []
  | first :: rest =>
      if first.id = record.id then record :: rest else first :: replaceFirst record rest

/-- A record is replaced if it is there, and is appended otherwise. -/
def upsertRecord (records : List (Record K)) (record : Record K) : List (Record K) :=
  if records.any (·.id = record.id) = true then replaceFirst record records
  else records ++ [record]

/-- The first record with the id is removed. -/
def removeFirst (id : Text) : List (Record K) → List (Record K)
  | [] => []
  | first :: rest => if first.id = id then rest else first :: removeFirst id rest

/-- The record of a document with a version. -/
def recordOf (doc : VectorDocument K) (version : Int) : Record K where
  id := doc.id
  vector := doc.vector
  text := doc.text
  metadata := doc.metadata
  version := version

/-- A document of `_records_to_documents`. -/
def recordToDocument (record : Record K) : VectorDocument K where
  id := record.id
  vector := record.vector
  text := record.text
  metadata := record.metadata
  version := orOne record.version

/-! ## Documents -/

section Documents

variable (parseInt : Text → Option Int) (namespaceName name : Text)

/-- `add_documents`. -/
def addDocuments (documents : List (VectorDocument K)) :
    Fallible VectorStoreError (Entry K) (List Text) := do
  let entry ← read
  let dimension ← ofExcept (markerDimension parseInt entry.metadata)
  ofExcept (validateDimension name dimension documents)
  if documents = [] then pure []
  else if getRecords (documents.map (·.id)) entry ≠ [] then raise (.alreadyExists name)
  else
    modify fun entry =>
      { entry with
        records := entry.records ++ documents.map fun doc => recordOf doc (max 1 doc.version) }
    pure (documents.map (·.id))

/-- `versions`. -/
def versions (records : List (Record K)) : Dict Text Int :=
  records.foldl (fun d record => PyDict.set record.id (orOne record.version) d) []

/-- `update_documents`. -/
def updateDocuments (documents : List (VectorDocument K)) :
    Fallible VectorStoreError (Entry K) Nat := do
  let entry ← read
  let dimension ← ofExcept (markerDimension parseInt entry.metadata)
  ofExcept (validateDimension name dimension documents)
  if documents = [] then pure 0
  else
    let existing := versions (getRecords (documents.map (·.id)) entry)
    let records := documents.map fun doc => recordOf doc (nextVersion (get? doc.id existing) doc)
    modify fun entry => { entry with records := records.foldl upsertRecord entry.records }
    pure documents.length

/-- `delete_documents`. -/
def deleteDocuments (ids : List Text) : Fallible VectorStoreError (Entry K) Nat := do
  let entry ← read
  let existing := (getRecords ids entry).map (·.id)
  if ids = [] ∨ existing = [] then pure 0
  else
    modify fun entry =>
      { entry with
        records := existing.foldl (fun records id => removeFirst id records) entry.records }
    pure existing.length

/-- `set_metadata`. -/
def setMetadata (id : Text) (metadata : VectorMetadata) :
    Fallible VectorStoreError (Entry K) Unit := do
  let entry ← read
  match getRecords [id] entry with
  | [] => raise (.documentMissing id name)
  | record :: _ =>
      modify fun entry =>
        { entry with
          records := replaceFirst
            { record with metadata := metadata, version := orOne record.version }
            entry.records }

/-- A call that changes the documents of a collection. -/
def change : Change K → Fallible VectorStoreError (Entry K) (Answer K)
  | .addDocuments documents => .ids <$> addDocuments parseInt name documents
  | .updateDocuments documents => .count <$> updateDocuments parseInt name documents
  | .deleteDocuments ids => .count <$> deleteDocuments ids
  | .setMetadata id metadata => (fun _ => .nothing) <$> setMetadata name id metadata

/-! ## Reads -/

/-- `collection_info`; a collection whose marker is hidden has none. -/
def collectionInfo (entry : Entry K) : Except VectorStoreError (Option CollectionInfo) :=
  if marked entry.metadata = true then (entryInfo parseInt namespaceName name entry).map some
  else .ok none

/-- The information that a read needs. -/
def requireInfo (entry : Entry K) : Except VectorStoreError CollectionInfo := do
  let some info ← collectionInfo parseInt namespaceName name entry |
    .error (.collectionNotFound namespaceName name)
  return info

/-- `stats`. -/
def stats (entry : Entry K) : Except VectorStoreError (Answer K) := do
  let info ← requireInfo parseInt namespaceName name entry
  let maxVersion := entry.records.foldl (fun version record =>
    max version (orOne record.version)) 0
  return .stats info.documentCount info.dimension maxVersion

/-- `get_documents`. -/
def getDocuments (ids : List Text) (entry : Entry K) : List (VectorDocument K) :=
  let byId := (getRecords ids entry).foldl
    (fun d record => PyDict.set record.id (recordToDocument record) d) []
  ids.filterMap fun id => get? id byId

/-- `get_metadata`. -/
def getMetadata (id : Text) (entry : Entry K) : Except VectorStoreError VectorMetadata :=
  match getRecords [id] entry with
  | [] => .error (.documentMissing id name)
  | record :: _ => .ok record.metadata

/-- The result of a record, unless it does not match. -/
def searchResult [Field K] [LinearOrder K] (request : SearchRequest K) (item : K × Record K) :
    Except VectorStoreError (Option (SearchResult K)) := do
  let keep ← keepMatching item.2.metadata request.filters
  return if keep = true then
    some {
      id := item.2.id
      score := clamp (1 - item.1)
      text := item.2.text
      metadata := item.2.metadata
      vector := if request.includeVectors = true then item.2.vector else []
      version := orOne item.2.version }
  else none

/-- `search`. -/
def search [Field K] [LinearOrder K] (nearest : ServerQuery K) (request : SearchRequest K)
    (entry : Entry K) : Except VectorStoreError (List (SearchResult K)) := do
  let dimension ← markerDimension parseInt entry.metadata
  if request.queryVector.length ≠ dimension then .error (.dimensionMismatch name)
  else
    let poolSize := max 1 (max request.topK (request.offset + request.limit.getD 0))
    let results ← (nearest entry.records request.queryVector poolSize).filterMapM
      (searchResult request)
    return page request.offset request.limit (sortResults results)

/-- `filter_documents`. -/
def filterDocuments (filters : List MetadataFilter) (offset : Int) (limit : Option Int)
    (entry : Entry K) : Except VectorStoreError (List (VectorDocument K)) := do
  let _ ← requireInfo parseInt namespaceName name entry
  let matched ← entry.records.filterMapM fun record => do
    let keep ← keepMatching record.metadata filters
    return if keep = true then some (recordToDocument record) else none
  return page offset limit matched

/-! ## Operations -/

/-- An operation on a collection of the server, if there is one. -/
def operate [Field K] [LinearOrder K] (nearest : ServerQuery K) :
    Operation K → Option (Entry K) → Except VectorStoreError (Answer K) × Option (Entry K)
  | .createCollection _ _, some entry =>
      (.error (.collectionExists namespaceName name), some entry)
  | .createCollection dimension metadata, none =>
      let info : CollectionInfo :=
        { name := name, namespaceName := namespaceName, dimension := dimension,
          metadata := metadata, documentCount := 0 }
      (.ok (.info (some info)),
        some { metadata := updated (collectionMetadata namespaceName name dimension) metadata })
  | .collectionInfo, none => (.ok (.info none), none)
  | _, none => (.error (.collectionNotFound namespaceName name), none)
  | .collectionInfo, some entry =>
      ((collectionInfo parseInt namespaceName name entry).map .info, some entry)
  | .deleteCollection, some _ => (.ok .nothing, none)
  | .stats, some entry => (stats parseInt namespaceName name entry, some entry)
  | .change op, some entry =>
      let result := change parseInt name op entry
      (result.1, some result.2)
  | .getDocuments ids, some entry => (.ok (.documents (getDocuments ids entry)), some entry)
  | .search request, some entry =>
      ((search parseInt name nearest request entry).map .results, some entry)
  | .filterDocuments filters offset limit, some entry =>
      ((filterDocuments parseInt namespaceName name filters offset limit entry).map .documents,
        some entry)
  | .getMetadata id, some entry => ((getMetadata name id entry).map .metadata, some entry)

end Documents

/-- The operations of pairs on the collections of the server. -/
def act [Field K] [LinearOrder K] (parseInt : Text → Option Int) (nearest : ServerQuery K)
    (defaultNamespace : Text) :
    Compartments.Act Pair (Operation K) (Entry K) (Except VectorStoreError (Answer K)) :=
  fun pair => operate parseInt (effective defaultNamespace pair.1) pair.2 nearest

/-- The information that a listing has of a collection. -/
def listedInfo (parseInt : Text → Option Int) (namespaceName : Option Text)
    (item : Text × Entry K) : Except VectorStoreError (Option CollectionInfo) :=
  match rsplit item.1 with
  | none => .ok none
  | some (ns, name) =>
      if marked item.2.metadata = true ∧ namespaceName.all (· = ns) = true then
        (entryInfo parseInt ns name item.2).map some
      else .ok none

theorem entryInfo_of_harmless {parseInt : Text → Option Int} {entry : Entry K}
    (h : Harmless parseInt entry.metadata) (namespaceName name : Text) :
    ∃ info, entryInfo parseInt namespaceName name entry = .ok info ∧
      info.namespaceName = namespaceName ∧ info.name = name := by
  obtain ⟨dimension, hdimension⟩ := h.2
  refine ⟨_, by rw [entryInfo, hdimension]; rfl, rfl, rfl⟩

theorem harmless_of_listedInfo {parseInt : Text → Option Int} {ns : Text}
    {item : Text × Entry K} {info : CollectionInfo}
    (h : listedInfo parseInt (some ns) item = .ok (some info)) :
    Harmless parseInt item.2.metadata := by
  rw [listedInfo] at h
  split at h
  · cases h
  · split at h
    · next hmarked =>
        refine ⟨hmarked.1, ?_⟩
        cases hdimension : markerDimension parseInt item.2.metadata with
        | ok dimension => exact ⟨dimension, rfl⟩
        | error e =>
          rw [entryInfo, hdimension] at h
          cases h
    · cases h

theorem listedInfo_of_rsplit (parseInt : Text → Option Int) {item : Text × Entry K}
    {parsed : Pair} (h : rsplit item.1 = some parsed) (ns : Text) :
    listedInfo parseInt (some ns) item =
      if marked item.2.metadata = true ∧ ns = parsed.1 then
        (entryInfo parseInt parsed.1 parsed.2 item.2).map some
      else .ok none := by
  rw [listedInfo, h]
  have hall : (some ns).all (· = parsed.1) = true ↔ ns = parsed.1 := decide_eq_true_iff
  show (if _ ∧ (some ns).all (· = parsed.1) = true then _ else _) = _
  simp only [hall]

/-- `list_collections`. -/
def listCollections (parseInt : Text → Option Int) (namespaceName : Option Text) (offset : Int)
    (limit : Option Int) (collections : Dict Text (Entry K)) :
    Except VectorStoreError (List CollectionInfo) := do
  let infos ← collections.filterMapM (listedInfo parseInt namespaceName)
  return page offset limit (sortInfos infos)

/-! ## What operations keep -/

/-- A collection keeps its metadata. -/
def SameMetadata (entry entry' : Entry K) : Prop := entry'.metadata = entry.metadata

instance : Std.Refl (SameMetadata (K := K)) := ⟨fun _ => rfl⟩

instance : IsTrans (Entry K) SameMetadata := ⟨fun _ _ _ h h' => h'.trans h⟩

/-- A change of the records keeps the metadata of the collection. -/
theorem change_sameMetadata (parseInt : Text → Option Int) (name : Text) (op : Change K) :
    Fallible.Respects SameMetadata (change parseInt name op) := by
  cases op with
  | addDocuments documents =>
    refine Fallible.Respects.map (.bind .read fun entry => .bind (.ofExcept _) fun _ =>
      .bind (.ofExcept _) fun _ => ?_) _
    exact .ite (fun _ => .pure _) fun _ => .ite (fun _ => .raise _) fun _ =>
      .bind (.modify fun _ => rfl) fun _ => .pure _
  | updateDocuments documents =>
    refine Fallible.Respects.map (.bind .read fun entry => .bind (.ofExcept _) fun _ =>
      .bind (.ofExcept _) fun _ => ?_) _
    exact .ite (fun _ => .pure _) fun _ => .bind (.modify fun _ => rfl) fun _ => .pure _
  | deleteDocuments ids =>
    refine Fallible.Respects.map (.bind .read fun entry => ?_) _
    exact .ite (fun _ => .pure _) fun _ => .bind (.modify fun _ => rfl) fun _ => .pure _
  | setMetadata id metadata =>
    refine Fallible.Respects.map (.bind .read fun entry => ?_) _
    cases getRecords [id] entry with
    | nil => exact .raise _
    | cons record rest => exact .modify fun _ => rfl

/-- What is created with nothing of the caller is harmless. -/
theorem harmless_updated_nil (parseInt : Text → Option Int) (namespaceName name : Text)
    (dimension : Nat) :
    Harmless parseInt (updated (collectionMetadata namespaceName name dimension) []) := by
  have hdimension : get? "dimension".toList
      (updated (collectionMetadata namespaceName name dimension) []) =
        some (.integer dimension) := rfl
  refine ⟨rfl, ?_⟩
  rw [markerDimension, hdimension, Option.getD_some, intOr]
  by_cases htruthy : truthy (.integer dimension) = true
  · exact ⟨_, if_pos htruthy⟩
  · exact ⟨_, if_neg htruthy⟩

/-- The answers tell which collections were created and deleted. -/
theorem tells [Field K] [LinearOrder K] {parseInt : Text → Option Int} {nearest : ServerQuery K}
    {defaultNamespace : Text} :
    Compartments.Tells (act parseInt nearest defaultNamespace) effect := by
  intro pair op stored
  cases op <;> cases stored <;> rfl

/-- Collections are harmless if they are created so. -/
theorem operate_harmless [Field K] [LinearOrder K] {parseInt : Text → Option Int}
    {nearest : ServerQuery K} {configured : Text} {pair : Pair} {op : Operation K}
    (hcreation : ∀ dimension metadata, op = .createCollection dimension metadata →
      Harmless parseInt (updated (collectionMetadata
        (effective (defaultNamespace configured) pair.1) pair.2 dimension) metadata))
    (stored : Option (Entry K)) (entry : Entry K)
    (hstored : ∀ e, stored = some e → Harmless parseInt e.metadata)
    (h : (act parseInt nearest (defaultNamespace configured) pair op stored).2 = some entry) :
    Harmless parseInt entry.metadata := by
  cases stored with
  | none =>
    cases op with
    | createCollection dimension metadata =>
      rw [← Option.some.inj h]
      exact hcreation dimension metadata rfl
    | _ => cases h
  | some old =>
    have hold := hstored old rfl
    cases op with
    | deleteCollection => cases h
    | change op =>
      have hsame := change_sameMetadata parseInt pair.2 op old
      rw [← Option.some.inj h]
      exact hsame ▸ hold
    | _ =>
      rw [← Option.some.inj h]
      exact hold

end OpenWrtCopilot.Ports.ChromaStore
