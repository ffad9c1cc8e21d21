import OpenWrtCopilot.Ports.VectorModels
import OpenWrtCopilot.Verified.Fallible

/-!
# The SQLite backend

Ports the operations of `SQLiteVectorStore` on its two tables.  Each operation is a transaction:
one that raises leaves the tables as they were.  Numbers that do not fit in 64 bits and lists of
more ids than a statement has variables are refused by SQLite.

## Main results

* `get?_rows`, `get?_deleteRows` — the documents of a collection, and what is left of them.
-/

namespace OpenWrtCopilot.Ports.SqliteStore

open Verified
open Verified.Fallible (modify ofExcept raise read)
open Verified.PyDict (Dict erase get? keys)
open Verified.PyText
open Ports.VectorStore

variable {K : Type}

/-! ## Tables -/

/-- A row of `collections`. -/
structure CollectionRow where
  dimension : Nat
  metadata : VectorMetadata

/-- A row of `documents`. -/
structure DocumentRow (K : Type) where
  vector : List K
  text : Text
  metadata : VectorMetadata
  version : Int

/-- The tables, by their primary keys. -/
structure Database (K : Type) where
  collections : Dict Pair CollectionRow := []
  documents : Dict (Pair × Text) (DocumentRow K) := []

/-- The documents of a collection by id. -/
def rows (pair : Pair) (documents : Dict (Pair × Text) (DocumentRow K)) :
    Dict Text (DocumentRow K) :=
  documents.filterMap fun row => if row.1.1 = pair then some (row.1.2, row.2) else none

/-- The largest number that SQLite stores. -/
def maxInt : Int := 2 ^ 63 - 1

/-- `SQLITE_MAX_VARIABLE_NUMBER`. -/
def maxVariables : Nat := 32766

/-- `with self._connect() as connection`: an exception rolls the changes back. -/
def transaction {α : Type} (m : Fallible VectorStoreError (Database K) α) :
    Fallible VectorStoreError (Database K) α := fun db =>
  match m db with
  | (.ok a, db') => (.ok a, db')
  | (.error e, _) => (.error e, db)

/-- The row of a document with a version. -/
def rowOf (doc : VectorDocument K) (version : Int) : DocumentRow K where
  vector := doc.vector
  text := doc.text
  metadata := doc.metadata
  version := version

/-- `_row_to_document`. -/
def rowToDocument (id : Text) (row : DocumentRow K) : VectorDocument K where
  id := id
  vector := row.vector
  text := row.text
  metadata := row.metadata
  version := row.version

/-- A row of `documents` is written. -/
def setRow (pair : Pair) (id : Text) (row : DocumentRow K) (db : Database K) : Database K :=
  { db with documents := PyDict.set (pair, id) row db.documents }

/-- The rows of a collection with a property are deleted. -/
def deleteRows (pair : Pair) (p : Text → Bool) (db : Database K) : Database K :=
  { db with
    documents := db.documents.filter fun row => ¬ (row.1.1 = pair ∧ p row.1.2 = true) }

/-! ## Collections -/

section Operations

variable (pair : Pair)

/-- The row of the collection, which most operations read first. -/
def requireRow : Fallible VectorStoreError (Database K) CollectionRow := do
  let db ← read
  match get? pair db.collections with
  | some row => pure row
  | none => raise (.collectionNotFound pair.1 pair.2)

/-! ## Documents -/

/-- `INSERT INTO documents`, which a row with the key refuses. -/
def insertDocument (doc : VectorDocument K) : Fallible VectorStoreError (Database K) Unit := do
  let db ← read
  if maxInt < max 1 doc.version then raise .overflowError
  else if (get? (pair, doc.id) db.documents).isSome = true then raise (.alreadyExists pair.2)
  else modify (setRow pair doc.id (rowOf doc (max 1 doc.version)))

/-- `executemany`, and the loops over documents. -/
def forDocuments (f : VectorDocument K → Fallible VectorStoreError (Database K) Unit) :
    List (VectorDocument K) → Fallible VectorStoreError (Database K) Unit
  | [] => pure ()
  | doc :: rest => do
      f doc
      forDocuments f rest

/-- `add_documents`. -/
def addDocuments (documents : List (VectorDocument K)) :
    Fallible VectorStoreError (Database K) (List Text) :=
  transaction do
    let row ← requireRow pair
    ofExcept (validateDimension pair.2 row.dimension documents)
    forDocuments (insertDocument pair) documents
    pure (documents.map (·.id))

/-- A document of `update_documents`. -/
def upsertDocument (doc : VectorDocument K) : Fallible VectorStoreError (Database K) Unit := do
  let db ← read
  let version := nextVersion ((get? (pair, doc.id) db.documents).map (·.version)) doc
  if maxInt < version then raise .overflowError
  else modify (setRow pair doc.id (rowOf doc version))

/-- `update_documents`. -/
def updateDocuments (documents : List (VectorDocument K)) :
    Fallible VectorStoreError (Database K) Nat :=
  transaction do
    let row ← requireRow pair
    ofExcept (validateDimension pair.2 row.dimension documents)
    forDocuments (upsertDocument pair) documents
    pure documents.length

/-- `delete_documents`. -/
def deleteDocuments (ids : List Text) : Fallible VectorStoreError (Database K) Nat :=
  transaction do
    let _ ← requireRow pair
    let before ← read
    if ids = [] then pure 0
    else if maxVariables < ids.length + 2 then raise .connectionError
    else
      modify (deleteRows pair fun id => id ∈ ids)
      pure ((rows pair before.documents).filter (·.1 ∈ ids)).length

/-- `set_metadata`. -/
def setMetadata (id : Text) (metadata : VectorMetadata) :
    Fallible VectorStoreError (Database K) Unit :=
  transaction do
    let db ← read
    match get? (pair, id) db.documents with
    | none => raise (.documentNotFound id pair.2)
    | some row => modify (setRow pair id { row with metadata := metadata })

/-- A call that changes the documents of a collection. -/
def change : Change K → Fallible VectorStoreError (Database K) (Answer K)
  | .addDocuments documents => .ids <$> addDocuments pair documents
  | .updateDocuments documents => .count <$> updateDocuments pair documents
  | .deleteDocuments ids => .count <$> deleteDocuments pair ids
  | .setMetadata id metadata => (fun _ => .nothing) <$> setMetadata pair id metadata

/-! ## Reads -/

/-- The result of a row, unless it does not match. -/
def searchResult [Field K] [LinearOrder K] (R : SquareRoot K) (request : SearchRequest K)
    (item : Text × DocumentRow K) : Except VectorStoreError (Option (SearchResult K)) := do
  let keep ← keepMatching item.2.metadata request.filters
  return if keep = true then
    some {
      id := item.1
      score := cosineSimilarity R request.queryVector item.2.vector
      text := item.2.text
      metadata := item.2.metadata
      vector := if request.includeVectors = true then item.2.vector else []
      version := item.2.version }
  else none

end Operations

end OpenWrtCopilot.Ports.SqliteStore
