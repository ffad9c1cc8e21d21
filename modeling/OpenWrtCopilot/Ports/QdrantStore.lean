import OpenWrtCopilot.Ports.VectorModels
import OpenWrtCopilot.Verified.Compartments
import OpenWrtCopilot.Verified.Fallible

/-!
# The Qdrant backend

Ports the operations of `QdrantVectorStore` with the server that the repository's tests describe:
collections by name, and in each the points by their id, which writing replaces one by one.  The
ids of points are hashes of the names of the documents; the hash and the search of the server are
parameters.

## Main results

* `tells` — the answers tell which collections were created and deleted.
-/

namespace OpenWrtCopilot.Ports.QdrantStore

open Verified
open Verified.Fallible (modify ofExcept raise read)
open Verified.PyDict (Dict erase get?)
open Verified.PyText
open Ports.VectorStore

variable {K : Type}

/-- The payload of a point. -/
structure Payload where
  documentId : Text
  text : Text
  metadata : VectorMetadata
  version : Int

/-- A point of the server. -/
structure Point (K : Type) where
  id : Text
  vector : List K
  payload : Payload

/-- A collection of the server, with the metadata of its marker. -/
structure Entry (K : Type) where
  size : Nat
  metadata : VectorMetadata
  points : Dict Text (Point K) := []

/-- `uuid.uuid5(uuid.NAMESPACE_URL, name)`. -/
abbrev Uuid5 := Text → Text

/-- `POST /collections/{qn}/points/search`: the points nearest to a query, with their scores. -/
abbrev ServerSearch (K : Type) := Dict Text (Point K) → List K → Int → List (K × Point K)

/-- `_point_id`. -/
def pointId (uuid5 : Uuid5) (namespaceName collection docId : Text) : Text :=
  uuid5 ("openwrt-ai/".toList ++ qname namespaceName collection ++ '/' :: docId)

/-- `_payload`. -/
def payload (doc : VectorDocument K) (version : Int) : Payload where
  documentId := doc.id
  text := doc.text
  metadata := doc.metadata
  version := version

/-- `_point_to_document`. -/
def pointToDocument (point : Point K) : VectorDocument K where
  id := point.payload.documentId
  vector := point.vector
  text := point.payload.text
  metadata := point.payload.metadata
  version := orOne point.payload.version

/-- `_raw_to_info`. -/
def rawToInfo (namespaceName name : Text) (raw : Entry K) : CollectionInfo where
  name := name
  namespaceName := namespaceName
  dimension := raw.size
  metadata := raw.metadata
  documentCount := raw.points.length

/-! ## Documents -/

section Documents

variable (uuid5 : Uuid5) (namespaceName name : Text)

/-- `_retrieve_points`. -/
def retrievePoints (ids : List Text) (entry : Entry K) : List (Point K) :=
  ids.filterMap fun id => get? (pointId uuid5 namespaceName name id) entry.points

/-- `PUT /collections/{qn}/points`. -/
def putPoints (points : List (Point K)) (entry : Entry K) : Entry K :=
  { entry with points := points.foldl (fun d point => PyDict.set point.id point d) entry.points }

/-- `POST /collections/{qn}/points/delete`. -/
def deletePoints (ids : List Text) (entry : Entry K) : Entry K :=
  { entry with points := ids.foldl (fun d id => erase id d) entry.points }

/-- The point of a document with a version. -/
def pointOf (doc : VectorDocument K) (version : Int) : Point K where
  id := pointId uuid5 namespaceName name doc.id
  vector := doc.vector
  payload := payload doc version

/-- `add_documents`. -/
def addDocuments (documents : List (VectorDocument K)) :
    Fallible VectorStoreError (Entry K) (List Text) := do
  let entry ← read
  ofExcept (validateDimension name entry.size documents)
  if documents = [] then pure []
  else if retrievePoints uuid5 namespaceName name (documents.map (·.id)) entry ≠ [] then
    raise (.alreadyExists name)
  else
    modify (putPoints (documents.map fun doc =>
      pointOf uuid5 namespaceName name doc (max 1 doc.version)))
    pure (documents.map (·.id))

/-- `existing_versions`. -/
def existingVersions (points : List (Point K)) : Dict Text Int :=
  points.foldl (fun versions point =>
    PyDict.set point.payload.documentId point.payload.version versions) []

/-- `update_documents`. -/
def updateDocuments (documents : List (VectorDocument K)) :
    Fallible VectorStoreError (Entry K) Nat := do
  let entry ← read
  ofExcept (validateDimension name entry.size documents)
  if documents = [] then pure 0
  else
    let versions := existingVersions
      (retrievePoints uuid5 namespaceName name (documents.map (·.id)) entry)
    modify (putPoints (documents.map fun doc =>
      pointOf uuid5 namespaceName name doc (nextVersion (get? doc.id versions) doc)))
    pure documents.length

/-- `delete_documents`. -/
def deleteDocuments (ids : List Text) : Fallible VectorStoreError (Entry K) Nat := do
  let entry ← read
  let existing := retrievePoints uuid5 namespaceName name ids entry
  if ids = [] ∨ existing = [] then pure 0
  else
    modify (deletePoints (existing.map (·.id)))
    pure existing.length

/-- `set_metadata`. -/
def setMetadata (id : Text) (metadata : VectorMetadata) :
    Fallible VectorStoreError (Entry K) Unit := do
  let entry ← read
  match retrievePoints uuid5 namespaceName name [id] entry with
  | [] => raise (.documentMissing id name)
  | point :: _ =>
      modify (putPoints [{ point with payload := { point.payload with metadata := metadata } }])

/-- A call that changes the documents of a collection. -/
def change : Change K → Fallible VectorStoreError (Entry K) (Answer K)
  | .addDocuments documents => .ids <$> addDocuments uuid5 namespaceName name documents
  | .updateDocuments documents => .count <$> updateDocuments uuid5 namespaceName name documents
  | .deleteDocuments ids => .count <$> deleteDocuments uuid5 namespaceName name ids
  | .setMetadata id metadata =>
      (fun _ => .nothing) <$> setMetadata uuid5 namespaceName name id metadata

/-! ## Reads -/

/-- `get_documents`. -/
def getDocuments (ids : List Text) (entry : Entry K) : List (VectorDocument K) :=
  let byId := (retrievePoints uuid5 namespaceName name ids entry).foldl
    (fun d point => PyDict.set point.payload.documentId (pointToDocument point) d) []
  ids.filterMap fun id => get? id byId

/-- `get_metadata`. -/
def getMetadata (id : Text) (entry : Entry K) : Except VectorStoreError VectorMetadata :=
  match retrievePoints uuid5 namespaceName name [id] entry with
  | [] => .error (.documentMissing id name)
  | point :: _ => .ok point.payload.metadata

/-- `_max_version`. -/
def maxVersion (entry : Entry K) : Int :=
  entry.points.foldl (fun version item => max version item.2.payload.version) 0

/-- The result of a point, unless it does not match. -/
def searchResult (request : SearchRequest K) (item : K × Point K) :
    Except VectorStoreError (Option (SearchResult K)) := do
  let keep ← keepMatching item.2.payload.metadata request.filters
  return if keep = true then
    some {
      id := item.2.payload.documentId
      score := item.1
      text := item.2.payload.text
      metadata := item.2.payload.metadata
      vector := if request.includeVectors = true then item.2.vector else []
      version := orOne item.2.payload.version }
  else none

/-- `search`. -/
def search [LinearOrder K] (nearest : ServerSearch K) (request : SearchRequest K)
    (entry : Entry K) : Except VectorStoreError (List (SearchResult K)) := do
  if request.queryVector.length ≠ entry.size then .error (.dimensionMismatch name)
  else
    let poolSize := max request.topK (request.offset + request.limit.getD 0)
    let results ← (nearest entry.points request.queryVector poolSize).filterMapM
      (searchResult request)
    return page request.offset request.limit (sortResults results)

/-- `filter_documents`. -/
def filterDocuments (filters : List MetadataFilter) (offset : Int) (limit : Option Int)
    (entry : Entry K) : Except VectorStoreError (List (VectorDocument K)) := do
  let matched ← entry.points.filterMapM fun item => do
    let keep ← keepMatching item.2.payload.metadata filters
    return if keep = true then some (pointToDocument item.2) else none
  return page offset limit matched

/-! ## Operations -/

/-- An operation on a collection of the server, if there is one. -/
def operate [LinearOrder K] (nearest : ServerSearch K) :
    Operation K → Option (Entry K) → Except VectorStoreError (Answer K) × Option (Entry K)
  | .createCollection _ _, some entry =>
      (.error (.collectionExists namespaceName name), some entry)
  | .createCollection dimension metadata, none =>
      let entry : Entry K := { size := dimension, metadata := metadata }
      (.ok (.info (some (rawToInfo namespaceName name entry))), some entry)
  | .collectionInfo, stored => (.ok (.info (stored.map (rawToInfo namespaceName name))), stored)
  | _, none => (.error (.collectionNotFound namespaceName name), none)
  | .deleteCollection, some _ => (.ok .nothing, none)
  | .stats, some entry =>
      (.ok (.stats entry.points.length entry.size (maxVersion entry)), some entry)
  | .change op, some entry =>
      let result := change uuid5 namespaceName name op entry
      (result.1, some result.2)
  | .getDocuments ids, some entry =>
      (.ok (.documents (getDocuments uuid5 namespaceName name ids entry)), some entry)
  | .search request, some entry => ((search name nearest request entry).map .results, some entry)
  | .filterDocuments filters offset limit, some entry =>
      ((filterDocuments filters offset limit entry).map .documents, some entry)
  | .getMetadata id, some entry =>
      ((getMetadata uuid5 namespaceName name id entry).map .metadata, some entry)

end Documents

/-- The operations of pairs on the collections of the server. -/
def act [LinearOrder K] (uuid5 : Uuid5) (nearest : ServerSearch K) (defaultNamespace : Text) :
    Compartments.Act Pair (Operation K) (Entry K) (Except VectorStoreError (Answer K)) :=
  fun pair => operate uuid5 (effective defaultNamespace pair.1) pair.2 nearest

/-- The information that a listing has of a collection. -/
def listedInfo (namespaceName : Option Text) (item : Text × Entry K) : Option CollectionInfo :=
  match rsplit item.1 with
  | none => none
  | some (ns, name) =>
      if namespaceName.all (· = ns) = true then some (rawToInfo ns name item.2) else none

theorem listedInfo_of_rsplit {item : Text × Entry K} {parsed : Pair}
    (h : rsplit item.1 = some parsed) (ns : Text) :
    listedInfo (some ns) item =
      if ns = parsed.1 then some (rawToInfo parsed.1 parsed.2 item.2) else none := by
  rw [listedInfo, h]
  by_cases hns : ns = parsed.1
  · exact (if_pos (decide_eq_true hns)).trans (if_pos hns).symm
  · exact (if_neg (by simpa using hns)).trans (if_neg hns).symm

/-- `list_collections`. -/
def listCollections (namespaceName : Option Text) (offset : Int) (limit : Option Int)
    (collections : Dict Text (Entry K)) : List CollectionInfo :=
  page offset limit (sortInfos (collections.filterMap (listedInfo namespaceName)))

/-- The answers tell which collections were created and deleted. -/
theorem tells [LinearOrder K] {uuid5 : Uuid5} {nearest : ServerSearch K}
    {defaultNamespace : Text} :
    Compartments.Tells (act uuid5 nearest defaultNamespace) effect := by
  intro pair op stored
  cases op <;> cases stored <;> rfl

end OpenWrtCopilot.Ports.QdrantStore
