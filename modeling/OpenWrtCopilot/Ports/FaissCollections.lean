import OpenWrtCopilot.Ports.FaissStore
import OpenWrtCopilot.Verified.Compartments

/-!
# The FAISS backend

Ports the operations of `FAISSVectorStore` over its collections, which are stored in files that
are named by `_qname`.  The files can be written; the search of the index is a parameter.

## Main results

* `tells` — the answers tell which collections were created and deleted.
* `operate_holds` — a file has the namespace and the name it was created with.
-/

namespace OpenWrtCopilot.Ports.FaissStore

open Verified
open Verified.PyDict (Dict get?)
open Verified.PyText
open Ports.VectorStore

variable {K : Type} [Field K] [LinearOrder K]

/-- `index.search(query, k)` over the vectors of an index: positions with their inner products,
best first.  A position of minus one stands for none. -/
abbrev IndexSearch (K : Type) := List (List K) → List K → Nat → List (K × Int)

/-! ## Reads -/

omit [Field K] [LinearOrder K] in
/-- `_data_to_info`. -/
def dataToInfo (data : CollectionData K) : CollectionInfo where
  name := data.name
  namespaceName := data.namespaceName
  dimension := data.dimension
  metadata := data.metadata
  documentCount := data.idMap.length

omit [Field K] [LinearOrder K] in
/-- `max_version` of `stats`. -/
def maxVersion (data : CollectionData K) : Int :=
  data.docs.foldl (fun version item => max version (orOne item.2.version)) 0

/-- The number of vectors that a search takes from the index. -/
def poolSize (request : SearchRequest K) : Int :=
  max 1 (max request.topK (request.offset + request.limit.getD 0))

/-- The scores of a search with the ids at their positions. -/
def scored (nearest : IndexSearch K) (R : SquareRoot K) (data : CollectionData K)
    (request : SearchRequest K) : List (K × Text) :=
  let count := data.idMap.length
  let k := if count = 0 then 0 else min (poolSize request).toNat (max 1 count)
  if k = 0 then []
  else
    (nearest data.index (normalize R request.queryVector) k).filterMap fun item =>
      if item.2 < 0 then none else (data.idMap[item.2.toNat]?).map fun id => (item.1, id)

/-- The result of a score, unless its document does not match. -/
def searchResult (data : CollectionData K) (request : SearchRequest K) (item : K × Text) :
    Except VectorStoreError (Option (SearchResult K)) := do
  let some record := get? item.2 data.docs | .error .keyError
  let keep ← keepMatching record.metadata request.filters
  return if keep = true then
    some {
      id := item.2
      score := clamp item.1
      text := record.text
      metadata := record.metadata
      vector := if request.includeVectors = true then record.vector else []
      version := orOne record.version }
  else none

/-- `search`. -/
def search (nearest : IndexSearch K) (R : SquareRoot K) (name : Text)
    (request : SearchRequest K) (data : CollectionData K) :
    Except VectorStoreError (List (SearchResult K)) := do
  if request.queryVector.length ≠ data.dimension then .error (.dimensionMismatch name)
  else
    let sorted := (scored nearest R data request).mergeSort fun a b => b.1 ≤ a.1
    let results ← sorted.filterMapM (searchResult data request)
    return page request.offset request.limit results

omit [Field K] [LinearOrder K] in
/-- `filter_documents`. -/
def filterDocuments (filters : List MetadataFilter) (offset : Int) (limit : Option Int)
    (data : CollectionData K) : Except VectorStoreError (List (VectorDocument K)) := do
  let matched ← data.idMap.filterMapM fun id => do
    let some record := get? id data.docs | .error .keyError
    let keep ← keepMatching record.metadata filters
    return if keep = true then some (documentFromRecord id record) else none
  return page offset limit matched

omit [Field K] [LinearOrder K] in
/-- `get_metadata`. -/
def getMetadata (name id : Text) (data : CollectionData K) :
    Except VectorStoreError VectorMetadata :=
  match get? id data.docs with
  | some record => .ok record.metadata
  | none => .error (.documentNotFound id name)

/-! ## Operations -/

/-- An operation on the file of a collection, if there is one. -/
def operate (nearest : IndexSearch K) (R : SquareRoot K) (namespaceName name : Text) :
    Operation K → Option (CollectionData K) →
      Except VectorStoreError (Answer K) × Option (CollectionData K)
  | .createCollection _ _, some data => (.error (.collectionExists namespaceName name), some data)
  | .createCollection dimension metadata, none =>
      let data := created namespaceName name dimension metadata
      (.ok (.info (some (dataToInfo data))), some data)
  | .collectionInfo, stored => (.ok (.info (stored.map dataToInfo)), stored)
  | _, none => (.error (.collectionNotFound namespaceName name), none)
  | .deleteCollection, some _ => (.ok .nothing, none)
  | .stats, some data =>
      (.ok (.stats data.idMap.length data.dimension (maxVersion data)), some data)
  | .change op, some data =>
      let result := change R true name op data
      (result.1, some result.2)
  | .getDocuments ids, some data => (.ok (.documents (getDocuments data ids)), some data)
  | .search request, some data =>
      ((search nearest R name request data).map .results, some data)
  | .filterDocuments filters offset limit, some data =>
      ((filterDocuments filters offset limit data).map .documents, some data)
  | .getMetadata id, some data => ((getMetadata name id data).map .metadata, some data)

/-- The operations of pairs on their files. -/
def act (nearest : IndexSearch K) (R : SquareRoot K) (defaultNamespace : Text) :
    Compartments.Act Pair (Operation K) (CollectionData K) (Except VectorStoreError (Answer K)) :=
  fun pair => operate nearest R (effective defaultNamespace pair.1) pair.2

/-- The file of a pair. -/
def fileOf (defaultNamespace : Text) (pair : Pair) : Text :=
  qname (effective defaultNamespace pair.1) pair.2

omit [Field K] [LinearOrder K] in
/-- The information that a listing has of a file. -/
def listedInfo (namespaceName : Option Text) (file : Text × CollectionData K) :
    Option CollectionInfo :=
  match rsplit file.1 with
  | none => none
  | some (ns, _) => if namespaceName.all (· = ns) = true then some (dataToInfo file.2) else none

omit [Field K] [LinearOrder K] in
theorem listedInfo_of_rsplit {file : Text × CollectionData K} {parsed : Pair}
    (h : rsplit file.1 = some parsed) (ns : Text) :
    listedInfo (some ns) file = if ns = parsed.1 then some (dataToInfo file.2) else none := by
  rw [listedInfo, h]
  by_cases hns : ns = parsed.1
  · exact (if_pos (decide_eq_true hns)).trans (if_pos hns).symm
  · exact (if_neg (by simpa using hns)).trans (if_neg hns).symm

omit [Field K] [LinearOrder K] in
/-- `list_collections`. -/
def listCollections (namespaceName : Option Text) (offset : Int) (limit : Option Int)
    (files : Dict Text (CollectionData K)) : List CollectionInfo :=
  page offset limit (sortInfos (files.filterMap (listedInfo namespaceName)))

/-! ## What operations keep -/

section Kept

variable {nearest : IndexSearch K} {R : SquareRoot K} {defaultNamespace : Text}

/-- The answers tell which collections were created and deleted. -/
theorem tells : Compartments.Tells (act nearest R defaultNamespace) effect := by
  intro pair op stored
  cases op <;> cases stored <;> rfl

/-- A collection keeps its namespace and its name. -/
def SameName (data data' : CollectionData K) : Prop :=
  data'.namespaceName = data.namespaceName ∧ data'.name = data.name

instance : Std.Refl (SameName (K := K)) := ⟨fun _ => ⟨rfl, rfl⟩⟩

instance : IsTrans (CollectionData K) SameName :=
  ⟨fun _ _ _ h h' => ⟨h'.1.trans h.1, h'.2.trans h.2⟩⟩

omit [Field K] [LinearOrder K] in
theorem sameName_foldl {f : CollectionData K → VectorDocument K → CollectionData K}
    (hf : ∀ data doc, SameName data (f data doc)) (documents : List (VectorDocument K))
    (data : CollectionData K) : SameName data (documents.foldl f data) := by
  induction documents generalizing data with
  | nil => exact ⟨rfl, rfl⟩
  | cons doc rest ih => exact trans_of SameName (hf data doc) (ih (f data doc))

omit [Field K] [LinearOrder K] in
theorem persist_sameName (saved : Bool) :
    Fallible.Respects (SameName (K := K)) (persist saved) :=
  Fallible.Respects.ite (fun _ => .pure ()) fun _ => .raise _

theorem rebuildAndPersist_sameName (saved : Bool) :
    Fallible.Respects SameName (rebuildAndPersist R saved) := by
  intro data
  rw [rebuildAndPersist, Fallible.read_bind_apply]
  cases hrebuilt : rebuildIndex R data with
  | error e => exact ⟨rfl, rfl⟩
  | ok rebuilt =>
    have hsame : SameName data rebuilt := by
      rw [rebuildIndex] at hrebuilt
      cases hindex : data.idMap.mapM (indexed R data.docs) with
      | error e =>
        rw [hindex] at hrebuilt
        cases hrebuilt
      | ok index =>
        rw [hindex] at hrebuilt
        rw [← Except.ok.inj hrebuilt]
        exact ⟨rfl, rfl⟩
    exact trans_of SameName hsame (persist_sameName saved rebuilt)

/-- A change of the documents keeps the namespace and the name. -/
theorem change_sameName (saved : Bool) (name : Text) (op : Change K) :
    Fallible.Respects SameName (change R saved name op) := by
  cases op with
  | addDocuments documents =>
    refine Fallible.Respects.map (.bind .read fun data => .bind (.ofExcept _) fun _ => ?_) _
    refine .ite (fun _ => .raise _) fun _ => .bind (.modify fun data => ?_) fun _ =>
      .bind (persist_sameName saved) fun _ => .pure _
    exact sameName_foldl (f := addDocument R) (fun _ _ => ⟨rfl, rfl⟩) documents data
  | updateDocuments documents =>
    refine Fallible.Respects.map (.bind .read fun data => .bind (.ofExcept _) fun _ => ?_) _
    refine .bind (.modify fun data => ?_) fun _ =>
      .bind (rebuildAndPersist_sameName saved) fun _ => .pure _
    exact sameName_foldl (f := updateDocument) (fun _ _ => ⟨rfl, rfl⟩) documents data
  | deleteDocuments ids =>
    refine Fallible.Respects.map (.bind .read fun data => ?_) _
    refine .ite (fun _ => .pure _) fun _ => .bind (.modify fun data => ⟨rfl, rfl⟩) fun _ =>
      .bind (rebuildAndPersist_sameName saved) fun _ => .pure _
  | setMetadata id metadata =>
    refine Fallible.Respects.map (.bind .read fun data => ?_) _
    cases get? id data.docs with
    | none => exact .raise _
    | some record => exact .bind (.modify fun data => ⟨rfl, rfl⟩) fun _ => persist_sameName saved

/-- A file has the namespace and the name that it was created with. -/
def Holds (defaultNamespace : Text) (pair : Pair) (data : CollectionData K) : Prop :=
  data.namespaceName = effective defaultNamespace pair.1 ∧ data.name = pair.2

theorem operate_holds (pair : Pair) (op : Operation K) (stored : Option (CollectionData K))
    (data : CollectionData K) (hstored : ∀ d, stored = some d → Holds defaultNamespace pair d)
    (h : (act nearest R defaultNamespace pair op stored).2 = some data) :
    Holds defaultNamespace pair data := by
  cases stored with
  | none =>
    cases op with
    | createCollection dimension metadata =>
      rw [← Option.some.inj h]
      exact ⟨rfl, rfl⟩
    | _ => cases h
  | some old =>
    have hold := hstored old rfl
    cases op with
    | deleteCollection => cases h
    | change op =>
      have hsame := change_sameName (R := R) true pair.2 op old
      rw [← Option.some.inj h]
      exact ⟨hsame.1.trans hold.1, hsame.2.trans hold.2⟩
    | _ =>
      rw [← Option.some.inj h]
      exact hold

end Kept

end OpenWrtCopilot.Ports.FaissStore
