import Mathlib.Analysis.Real.Sqrt
import OpenWrtCopilot.Ports.VectorModels
import OpenWrtCopilot.Verified.Fallible
import OpenWrtCopilot.Verified.Runs

/-!
# Collections of the FAISS backend

Ports the data of a collection of `FAISSVectorStore`: the documents by id, the ids by position and
the index, which has a normalised vector at each position.  Documents are appended when they are
added; an update or a deletion rebuilds the index from the ids.  The data is changed before it is
written to disk, and a failed write leaves it changed.

## Main results

* `Consistent.addDocuments`, `Consistent.updateDocuments`, `Consistent.deleteDocuments`,
  `Consistent.setMetadata` — what each operation keeps.
* `repeated_id_added` — a batch that has an id twice.
-/

namespace OpenWrtCopilot.Ports.FaissStore

open Verified
open Verified.Fallible (modify ofExcept raise read)
open Verified.PyDict (Dict erase get? keys)
open Verified.PyText
open Ports.VectorStore

variable {K : Type}

/-! ## Data -/

/-- The record of a document. -/
structure Record (K : Type) where
  text : Text
  vector : List K
  metadata : VectorMetadata
  version : Int

/-- `_record`. -/
def record (doc : VectorDocument K) (version : Int) : Record K where
  text := doc.text
  vector := doc.vector
  metadata := doc.metadata
  version := version

/-- `_document_from_record`; a version of zero reads as one. -/
def documentFromRecord (id : Text) (record : Record K) : VectorDocument K where
  id := id
  vector := record.vector
  text := record.text
  metadata := record.metadata
  version := orOne record.version

/-- The data of a collection. -/
structure CollectionData (K : Type) where
  namespaceName : Text
  name : Text
  dimension : Nat
  metadata : VectorMetadata
  idMap : List Text := []
  docs : Dict Text (Record K) := []
  index : List (List K) := []

/-! ## Operations -/

section Operations

variable [Field K] [LinearOrder K] (R : SquareRoot K)

/-- The vector of a document in the index. -/
def indexed (docs : Dict Text (Record K)) (id : Text) : Except VectorStoreError (List K) :=
  match get? id docs with
  | some record => .ok (normalize R record.vector)
  | none => .error .keyError

/-- `_rebuild_index`. -/
def rebuildIndex (data : CollectionData K) : Except VectorStoreError (CollectionData K) := do
  let index ← data.idMap.mapM (indexed R data.docs)
  return { data with index := index }

/-- `_persist`; `saved` says whether the files can be written. -/
def persist (saved : Bool) : Fallible VectorStoreError (CollectionData K) Unit :=
  if saved = true then pure () else raise .writeError

/-- A document of `add_documents`. -/
def addDocument (data : CollectionData K) (doc : VectorDocument K) : CollectionData K :=
  { data with
    docs := PyDict.set doc.id (record doc (max 1 doc.version)) data.docs
    idMap := data.idMap ++ [doc.id]
    index := data.index ++ [normalize R doc.vector] }

/-- `add_documents`. -/
def addDocuments (saved : Bool) (name : Text) (documents : List (VectorDocument K)) :
    Fallible VectorStoreError (CollectionData K) (List Text) := do
  let data ← read
  ofExcept (validateDimension data.name data.dimension documents)
  if documents.any (fun doc => (get? doc.id data.docs).isSome) = true then
    raise (.alreadyExists name)
  else
    modify (documents.foldl (addDocument R))
    persist saved
    pure (documents.map (·.id))

/-- A document of `update_documents`. -/
def updateDocument (data : CollectionData K) (doc : VectorDocument K) : CollectionData K :=
  let existing := get? doc.id data.docs
  { data with
    idMap := if existing.isNone = true then data.idMap ++ [doc.id] else data.idMap
    docs := PyDict.set doc.id (record doc (nextVersion (existing.map (·.version)) doc))
      data.docs }

/-- The index is rebuilt, and the files are written. -/
def rebuildAndPersist (saved : Bool) : Fallible VectorStoreError (CollectionData K) Unit := do
  let data ← read
  let rebuilt ← ofExcept (rebuildIndex R data)
  modify fun _ => rebuilt
  persist saved

/-- `update_documents`. -/
def updateDocuments (saved : Bool) (documents : List (VectorDocument K)) :
    Fallible VectorStoreError (CollectionData K) Nat := do
  let data ← read
  ofExcept (validateDimension data.name data.dimension documents)
  modify (documents.foldl updateDocument)
  rebuildAndPersist R saved
  pure documents.length

omit [Field K] [LinearOrder K] in
/-- `to_delete`. -/
def toDelete (data : CollectionData K) (ids : List Text) : List Text :=
  (ids.filter fun id => (get? id data.docs).isSome).dedup

/-- `delete_documents`. -/
def deleteDocuments (saved : Bool) (ids : List Text) :
    Fallible VectorStoreError (CollectionData K) Nat := do
  let data ← read
  let ids := toDelete data ids
  if ids = [] then pure 0
  else
    modify fun data =>
      { data with
        docs := ids.foldl (fun docs id => erase id docs) data.docs
        idMap := data.idMap.filter fun id => id ∉ ids }
    rebuildAndPersist R saved
    pure ids.length

omit [Field K] [LinearOrder K] in
/-- `get_documents`. -/
def getDocuments (data : CollectionData K) (ids : List Text) : List (VectorDocument K) :=
  ids.filterMap fun id => (get? id data.docs).map (documentFromRecord id)

omit [Field K] [LinearOrder K] in
/-- `set_metadata`. -/
def setMetadata (saved : Bool) (name id : Text) (metadata : VectorMetadata) :
    Fallible VectorStoreError (CollectionData K) Unit := do
  let data ← read
  match get? id data.docs with
  | none => raise (.documentNotFound id name)
  | some record =>
      modify fun data =>
        { data with docs := PyDict.set id { record with metadata := metadata } data.docs }
      persist saved

end Operations

/-- A call that changes the documents of a collection. -/
def change [Field K] [LinearOrder K] (R : SquareRoot K) (saved : Bool) (name : Text) :
    Change K → Fallible VectorStoreError (CollectionData K) (Answer K)
  | .addDocuments documents => .ids <$> addDocuments R saved name documents
  | .updateDocuments documents => .count <$> updateDocuments R saved documents
  | .deleteDocuments ids => .count <$> deleteDocuments R saved ids
  | .setMetadata id metadata => (fun _ => .nothing) <$> setMetadata saved name id metadata

/-! ## The invariant -/

/-- The positions name the documents, each once. -/
structure Keyed (data : CollectionData K) : Prop where
  nodup : data.idMap.Nodup
  mem_iff : ∀ id, id ∈ data.idMap ↔ id ∈ keys data.docs

/-- Each position of the index has the normalised vector of its document. -/
structure Consistent [Field K] [LinearOrder K] (R : SquareRoot K) (data : CollectionData K) : Prop
    extends Keyed data where
  positions : List.Forall₂ (fun id vector => indexed R data.docs id = .ok vector) data.idMap
    data.index

theorem mem_toDelete {data : CollectionData K} {ids : List Text} {id : Text} :
    id ∈ toDelete data ids ↔ id ∈ ids ∧ id ∈ keys data.docs := by
  rw [toDelete, List.mem_dedup, List.mem_filter, PyDict.isSome_get?_iff]

section Keyed

variable {data : CollectionData K}

/-- A document is written, and has a position from then on. -/
theorem Keyed.updateDocument (h : Keyed data) (doc : VectorDocument K) :
    Keyed (updateDocument data doc) := by
  have hmem : (get? doc.id data.docs).isNone = true ↔ doc.id ∉ data.idMap := by
    rw [h.mem_iff, Option.isNone_iff_eq_none, PyDict.get?_eq_none_iff]
  rw [FaissStore.updateDocument]
  by_cases hnew : doc.id ∈ data.idMap
  · rw [if_neg fun hnone => hmem.mp hnone hnew]
    refine ⟨h.nodup, fun id => ?_⟩
    show id ∈ data.idMap ↔ id ∈ keys (PyDict.set _ _ _)
    rw [PyDict.mem_keys_set, ← h.mem_iff]
    refine ⟨Or.inr, ?_⟩
    rintro (rfl | hid)
    · exact hnew
    · exact hid
  · rw [if_pos (hmem.mpr hnew)]
    refine ⟨List.nodup_append.mpr ⟨h.nodup, List.nodup_singleton _, ?_⟩, fun id => ?_⟩
    · rintro id hid _ hdoc rfl
      exact hnew (List.mem_singleton.mp hdoc ▸ hid)
    · show id ∈ data.idMap ++ [doc.id] ↔ id ∈ keys (PyDict.set _ _ _)
      rw [PyDict.mem_keys_set, ← h.mem_iff, List.mem_append, List.mem_singleton, or_comm]

theorem Keyed.foldl_updateDocument (h : Keyed data) (documents : List (VectorDocument K)) :
    Keyed (documents.foldl FaissStore.updateDocument data) := by
  induction documents generalizing data with
  | nil => exact h
  | cons doc rest ih => exact ih (h.updateDocument doc)

/-- Documents lose their positions when they are deleted. -/
theorem Keyed.delete (h : Keyed data) (ids : List Text) :
    Keyed { data with
      docs := ids.foldl (fun docs id => erase id docs) data.docs
      idMap := data.idMap.filter fun id => id ∉ ids } := by
  refine ⟨h.nodup.filter _, fun id => ?_⟩
  show id ∈ data.idMap.filter _ ↔ id ∈ keys (ids.foldl _ _)
  rw [PyDict.mem_keys_foldl_erase, List.mem_filter, h.mem_iff, and_comm, decide_eq_true_iff]

theorem Keyed.setMetadata (h : Keyed data) {id : Text} {old : Record K}
    (hold : get? id data.docs = some old) (new : Record K) :
    Keyed { data with docs := PyDict.set id new data.docs } := by
  refine ⟨h.nodup, fun other => ?_⟩
  show other ∈ data.idMap ↔ other ∈ keys (PyDict.set _ _ _)
  rw [PyDict.mem_keys_set, ← h.mem_iff]
  refine ⟨Or.inr, ?_⟩
  rintro (rfl | hother)
  · rw [h.mem_iff, ← PyDict.isSome_get?_iff, hold]
    rfl
  · exact hother

end Keyed

section Consistent

variable [Field K] [LinearOrder K] {R : SquareRoot K} {data : CollectionData K}

/-- Every document has a vector. -/
theorem exists_indexed {docs : Dict Text (Record K)} {id : Text} (h : id ∈ keys docs) :
    ∃ vector, indexed R docs id = .ok vector := by
  obtain ⟨record, hrecord⟩ := Option.isSome_iff_exists.mp (PyDict.isSome_get?_iff.mpr h)
  exact ⟨normalize R record.vector, by rw [indexed, hrecord]⟩

/-- The index is rebuilt from what is there. -/
theorem Keyed.rebuildIndex (h : Keyed data) :
    ∃ index, FaissStore.rebuildIndex R data = .ok { data with index := index } ∧
      Consistent R { data with index := index } := by
  have hids : ∀ ids : List Text, (∀ id ∈ ids, id ∈ keys data.docs) →
      ∃ index, ids.mapM (indexed R data.docs) = .ok index ∧
        List.Forall₂ (fun id vector => indexed R data.docs id = .ok vector) ids index := by
    intro ids hmem
    induction ids with
    | nil => exact ⟨[], rfl, List.Forall₂.nil⟩
    | cons id ids ih =>
      obtain ⟨vector, hvector⟩ := exists_indexed (R := R) (hmem id List.mem_cons_self)
      obtain ⟨index, hindex, hall⟩ := ih fun other hother =>
        hmem other (List.mem_cons_of_mem id hother)
      refine ⟨vector :: index, ?_, List.Forall₂.cons hvector hall⟩
      rw [List.mapM_cons, hvector, hindex]
      rfl
  obtain ⟨index, hindex, hall⟩ := hids data.idMap fun id hid => (h.mem_iff id).mp hid
  refine ⟨index, ?_, { nodup := h.nodup, mem_iff := h.mem_iff, positions := hall }⟩
  rw [FaissStore.rebuildIndex, hindex]
  rfl

/-- The vectors of the other documents are as before. -/
theorem indexed_set_of_ne {docs : Dict Text (Record K)} {id other : Text} (h : other ≠ id)
    (record : Record K) : indexed R (PyDict.set id record docs) other = indexed R docs other := by
  rw [indexed, indexed, PyDict.get?_set_of_ne h]

/-- The vectors of other documents stay at their positions. -/
theorem positions_set {docs : Dict Text (Record K)} {ids : List Text} {index : List (List K)}
    (h : List.Forall₂ (fun id vector => indexed R docs id = .ok vector) ids index) {other : Text}
    (hnew : other ∉ ids) (record : Record K) :
    List.Forall₂ (fun id vector => indexed R (PyDict.set other record docs) id = .ok vector) ids
      index := by
  induction h with
  | nil => exact List.Forall₂.nil
  | cons hfirst _ ih =>
    obtain ⟨hne, hrest⟩ := List.mem_cons.not.trans not_or |>.mp hnew
    refine List.Forall₂.cons ?_ (ih hrest)
    rw [indexed_set_of_ne (Ne.symm hne)]
    exact hfirst

/-- A new document is appended. -/
theorem Consistent.addDocument (h : Consistent R data) {doc : VectorDocument K}
    (hnew : doc.id ∉ data.idMap) : Consistent R (addDocument R data doc) := by
  have hkeyed := h.toKeyed.updateDocument doc
  have hnone : get? doc.id data.docs = none := by
    rw [PyDict.get?_eq_none_iff, ← h.mem_iff]
    exact hnew
  rw [updateDocument, hnone] at hkeyed
  refine { nodup := hkeyed.nodup, mem_iff := hkeyed.mem_iff, positions := ?_ }
  have hold := positions_set h.positions hnew (record doc (max 1 doc.version))
  refine List.rel_append hold (List.Forall₂.cons ?_ List.Forall₂.nil)
  show indexed R (PyDict.set _ _ _) doc.id = _
  rw [indexed, PyDict.get?_set_self]
  rfl

/-- A batch of new documents is appended if no two of them have one id. -/
theorem Consistent.foldl_addDocument (h : Consistent R data) {documents : List (VectorDocument K)}
    (hnodup : (documents.map (·.id)).Nodup) (hnew : ∀ doc ∈ documents, doc.id ∉ data.idMap) :
    Consistent R (documents.foldl (FaissStore.addDocument R) data) := by
  induction documents generalizing data with
  | nil => exact h
  | cons doc rest ih =>
    obtain ⟨hfirst, hrest⟩ := List.nodup_cons.mp hnodup
    refine ih (h.addDocument (hnew doc List.mem_cons_self)) hrest ?_
    intro other hother hmem
    obtain hold | hdoc := List.mem_append.mp hmem
    · exact hnew other (List.mem_cons_of_mem doc hother) hold
    · have hid : other.id = doc.id := List.mem_singleton.mp hdoc
      exact hfirst (List.mem_map.mpr ⟨other, hother, hid⟩)

/-- The metadata of a document is not part of its vector. -/
theorem Consistent.setMetadata (h : Consistent R data) {id : Text} {old : Record K}
    (hold : get? id data.docs = some old) (metadata : VectorMetadata) :
    Consistent R
      { data with docs := PyDict.set id { old with metadata := metadata } data.docs } := by
  have hkeyed := h.toKeyed.setMetadata hold { old with metadata := metadata }
  refine { nodup := hkeyed.nodup, mem_iff := hkeyed.mem_iff, positions := ?_ }
  refine h.positions.imp fun other vector hvector => ?_
  show indexed R (PyDict.set _ _ _) other = _
  by_cases hother : other = id
  · rw [hother, indexed, hold] at hvector
    rw [hother, indexed, PyDict.get?_set_self]
    exact hvector
  · rw [indexed_set_of_ne hother]
    exact hvector

end Consistent

/-! ## Calls -/

/-- The checks before a change reject it, or it has nothing to change. -/
def Refused (data : CollectionData K) : Change K → Prop
  | .addDocuments documents =>
      validateDimension data.name data.dimension documents ≠ .ok () ∨
        documents.any (fun doc => (get? doc.id data.docs).isSome) = true
  | .updateDocuments documents => validateDimension data.name data.dimension documents ≠ .ok ()
  | .deleteDocuments ids => ∀ id ∈ ids, id ∉ keys data.docs
  | .setMetadata id _ => id ∉ keys data.docs

/-- A call with whether the files can be written. -/
structure Write (K : Type) where
  saved : Bool
  name : Text
  change : Change K

/-- A change is refused, or it is written and adds no id twice. -/
def Kept (data : CollectionData K) (write : Write K) : Prop :=
  Refused data write.change ∨
    (write.saved = true ∧
      ∀ documents, write.change = .addDocuments documents → (documents.map (·.id)).Nodup)

section Calls

variable [Field K] [LinearOrder K] (R : SquareRoot K) {data : CollectionData K}

/-- What a call returns or raises, with the data after it. -/
def Write.perform (write : Write K) (data : CollectionData K) :
    Except VectorStoreError (Answer K) × CollectionData K :=
  FaissStore.change R write.saved write.name write.change data

/-- One call. -/
def step (write : Write K) (data : CollectionData K) : Option (CollectionData K) :=
  some (write.perform R data).2

/-- A call that raises leaves the data as it was. -/
def Unchanged (data : CollectionData K) (write : Write K) : Prop :=
  ∀ error, (write.perform R data).1 = .error error → (write.perform R data).2 = data

variable {R}

/-- A call that is refused leaves the data alone. -/
theorem change_of_refused {op : Change K} (h : Refused data op) (saved : Bool) (name : Text) :
    (change R saved name op data).2 = data := by
  have hraised {documents : List (VectorDocument K)}
      (hinvalid : validateDimension data.name data.dimension documents ≠ .ok ()) :
      ∃ e, validateDimension data.name data.dimension documents = .error e := by
    cases hcheck : validateDimension data.name data.dimension documents with
    | ok _ => exact absurd hcheck hinvalid
    | error e => exact ⟨e, rfl⟩
  cases op with
  | addDocuments documents =>
    by_cases hinvalid : validateDimension data.name data.dimension documents ≠ .ok ()
    · obtain ⟨e, he⟩ := hraised hinvalid
      have hrun : addDocuments R saved name documents data = (.error e, data) := by
        rw [addDocuments, Fallible.read_bind_apply, Fallible.ofExcept_bind_of_error he]
      rw [change, Fallible.map_of_error _ hrun]
    · have hpresent := h.resolve_left hinvalid
      have hrun : addDocuments R saved name documents data =
          (.error (.alreadyExists name), data) := by
        rw [addDocuments, Fallible.read_bind_apply,
          Fallible.ofExcept_bind_of_ok (not_not.mp hinvalid), if_pos hpresent]
        rfl
      rw [change, Fallible.map_of_error _ hrun]
  | updateDocuments documents =>
    obtain ⟨e, he⟩ := hraised h
    have hrun : updateDocuments R saved documents data = (.error e, data) := by
      rw [updateDocuments, Fallible.read_bind_apply, Fallible.ofExcept_bind_of_error he]
    rw [change, Fallible.map_of_error _ hrun]
  | deleteDocuments ids =>
    have hnone : toDelete data ids = [] := by
      refine List.eq_nil_iff_forall_not_mem.mpr fun id hid => ?_
      obtain ⟨hid, hmem⟩ := mem_toDelete.mp hid
      exact h id hid hmem
    have hrun : deleteDocuments R saved ids data = (.ok 0, data) := by
      rw [deleteDocuments, Fallible.read_bind_apply, if_pos hnone]
      rfl
    rw [change, Fallible.map_of_ok _ hrun]
  | setMetadata id metadata =>
    have hrun : setMetadata saved name id metadata data =
        (.error (.documentNotFound id name), data) := by
      rw [setMetadata, Fallible.read_bind_apply, PyDict.get?_eq_none_iff.mpr h]
      rfl
    rw [change, Fallible.map_of_error _ hrun]

/-- An index that is rebuilt and written. -/
theorem rebuildAndPersist_eq (h : Keyed data) :
    ∃ data', rebuildAndPersist R true data = (.ok (), data') ∧ Consistent R data' := by
  obtain ⟨index, hindex, hconsistent⟩ := h.rebuildIndex (R := R)
  refine ⟨_, ?_, hconsistent⟩
  rw [rebuildAndPersist, Fallible.read_bind_apply, Fallible.ofExcept_bind_of_ok hindex]
  rfl

/-- A change that is written returns, and keeps the structures consistent. -/
theorem change_of_written {op : Change K} (hc : Consistent R data) (h : ¬ Refused data op)
    (hnodup : ∀ documents, op = .addDocuments documents → (documents.map (·.id)).Nodup)
    (name : Text) :
    ∃ answer data', change R true name op data = (.ok answer, data') ∧ Consistent R data' := by
  cases op with
  | addDocuments documents =>
    obtain ⟨hvalid, hnew⟩ := not_or.mp h
    have hrun : addDocuments R true name documents data =
        (.ok (documents.map (·.id)), documents.foldl (addDocument R) data) := by
      rw [addDocuments, Fallible.read_bind_apply,
        Fallible.ofExcept_bind_of_ok (not_not.mp hvalid), if_neg hnew]
      rfl
    refine ⟨_, _, Fallible.map_of_ok _ hrun, hc.foldl_addDocument (hnodup documents rfl) ?_⟩
    intro doc hdoc hmem
    refine hnew (List.any_eq_true.mpr ⟨doc, hdoc, ?_⟩)
    rw [PyDict.isSome_get?_iff, ← hc.mem_iff]
    exact hmem
  | updateDocuments documents =>
    obtain ⟨data', hrun, hdata'⟩ :=
      rebuildAndPersist_eq (R := R) (hc.toKeyed.foldl_updateDocument documents)
    have hupdate : updateDocuments R true documents data = (.ok documents.length, data') := by
      rw [updateDocuments, Fallible.read_bind_apply,
        Fallible.ofExcept_bind_of_ok (not_not.mp h), Fallible.modify_bind_apply,
        Fallible.bind_of_ok hrun]
      rfl
    exact ⟨_, data', Fallible.map_of_ok _ hupdate, hdata'⟩
  | deleteDocuments ids =>
    have hsome : toDelete data ids ≠ [] := by
      intro hnil
      refine h fun id hid hmem => ?_
      have hid := mem_toDelete.mpr ⟨hid, hmem⟩
      rw [hnil] at hid
      cases hid
    obtain ⟨data', hrun, hdata'⟩ :=
      rebuildAndPersist_eq (R := R) (hc.toKeyed.delete (toDelete data ids))
    have hdelete : deleteDocuments R true ids data =
        (.ok (toDelete data ids).length, data') := by
      rw [deleteDocuments, Fallible.read_bind_apply, if_neg hsome, Fallible.modify_bind_apply,
        Fallible.bind_of_ok hrun]
      rfl
    exact ⟨_, data', Fallible.map_of_ok _ hdelete, hdata'⟩
  | setMetadata id metadata =>
    obtain ⟨old, hold⟩ := Option.isSome_iff_exists.mp
      (PyDict.isSome_get?_iff.mpr (not_not.mp h))
    have hset : setMetadata true name id metadata data = (.ok (),
        { data with docs := PyDict.set id { old with metadata := metadata } data.docs }) := by
      rw [setMetadata, Fallible.read_bind_apply, hold]
      rfl
    exact ⟨_, _, Fallible.map_of_ok _ hset, hc.setMetadata hold metadata⟩

/-- **What a call keeps.**  It leaves consistent structures consistent, and as they were if it
raises. -/
theorem perform_consistent {write : Write K} (hc : Consistent R data) (h : Kept data write) :
    Consistent R (write.perform R data).2 ∧ Unchanged R data write := by
  rw [Unchanged, Write.perform]
  obtain hrefused | ⟨hsaved, hnodup⟩ := h
  · have hsame := change_of_refused (R := R) hrefused write.saved write.name
    rw [hsame]
    exact ⟨hc, fun _ _ => rfl⟩
  · by_cases hrefused : Refused data write.change
    · rw [change_of_refused hrefused]
      exact ⟨hc, fun _ _ => rfl⟩
    · obtain ⟨answer, data', hrun, hdata'⟩ := change_of_written hc hrefused hnodup write.name
      rw [hsaved, hrun]
      exact ⟨hdata', fun error herror => (by cases herror)⟩

/-- A collection as it is created. -/
def created (namespaceName name : Text) (dimension : Nat) (metadata : VectorMetadata) :
    CollectionData K where
  namespaceName := namespaceName
  name := name
  dimension := dimension
  metadata := metadata

theorem consistent_created (namespaceName name : Text) (dimension : Nat)
    (metadata : VectorMetadata) : Consistent R (created namespaceName name dimension metadata) where
  nodup := List.nodup_nil
  mem_iff _ := Iff.rfl
  positions := List.Forall₂.nil

variable (R) in
/-- **Runs.**  If every change is refused, or is written and adds no id twice, the structures are
consistent all along, and a call that raises leaves them as they were. -/
theorem consistent_of_kept {writes : List (Write K)} (hc : Consistent R data)
    (h : Runs.Meets (step R) Kept writes data) :
    Runs.Always (step R) (Consistent R) writes data ∧
      Runs.Meets (step R) (Unchanged R) writes data := by
  have hkeep : ∀ data write data', Consistent R data → Kept data write →
      step R write data = some data' → Consistent R data' := by
    intro data write data' hc hkept hstep
    rw [← Option.some.inj hstep]
    exact (perform_consistent hc hkept).1
  exact ⟨Runs.always_of_meets (fun _ => id) hkeep hc h,
    h.imp hkeep (fun _ _ hc hkept => (perform_consistent hc hkept).2) hc⟩

end Calls

/-! ### A batch with an id twice -/

/-- The square root of the reals. -/
noncomputable def realRoot : SquareRoot ℝ where
  root := Real.sqrt
  nonneg x _ := Real.sqrt_nonneg x
  mul_self _ := Real.mul_self_sqrt

/-- A document of one coordinate. -/
def single {K : Type} (id : Text) (coordinate : K) : VectorDocument K where
  id := id
  vector := [coordinate]

/-- The runs apply to calls of every kind. -/
theorem consistent_example :
    Runs.Always (step realRoot) (Consistent realRoot)
      [⟨true, "docs".toList, .addDocuments [single "a".toList 1, single "b".toList 2]⟩,
        ⟨true, "docs".toList, .updateDocuments [single "a".toList 3, single "a".toList 4]⟩,
        ⟨true, "docs".toList, .setMetadata "b".toList []⟩,
        ⟨true, "docs".toList, .deleteDocuments ["a".toList, "a".toList]⟩]
      (created "default".toList "docs".toList 1 []) := by
  have hwritten {data : CollectionData ℝ} {change : Change ℝ}
      (hnodup : ∀ documents, change = .addDocuments documents →
        (documents.map (·.id)).Nodup) : Kept data ⟨true, "docs".toList, change⟩ :=
    Or.inr ⟨rfl, hnodup⟩
  refine (consistent_of_kept realRoot (consistent_created _ _ 1 []) ?_).1
  refine ⟨hwritten ?_, fun _ _ => ⟨hwritten ?_, fun _ _ => ⟨hwritten ?_, fun _ _ =>
    ⟨hwritten ?_, fun _ _ => trivial⟩⟩⟩⟩
  · rintro documents ⟨⟩
    decide
  · rintro documents ⟨⟩
  · rintro documents ⟨⟩
  · rintro documents ⟨⟩

/-- The ids of a batch are checked against the documents from before it: one that is in the
batch twice has two positions. -/
theorem repeated_id_added :
    ¬ ∀ (namespaceName name : Text) (dimension : Nat) (writes : List (Write ℝ)),
      Runs.Always (step realRoot) (Consistent realRoot) writes
          (created namespaceName name dimension []) ∧
        Runs.Meets (step realRoot) (Unchanged realRoot) writes
          (created namespaceName name dimension []) := by
  intro h
  obtain ⟨hlast, -⟩ := h "default".toList "docs".toList 1 [⟨true, "docs".toList,
    .addDocuments [single "a".toList 1, single "a".toList 2]⟩]
  have hnodup := (hlast.2 _ rfl).nodup
  exact absurd (List.nodup_cons.mp hnodup).1 (not_not.mpr (List.mem_singleton.mpr rfl))

end OpenWrtCopilot.Ports.FaissStore
