import Mathlib.Logic.Function.Basic
import OpenWrtCopilot.Ports.ChromaStore
import OpenWrtCopilot.Ports.FaissCollections
import OpenWrtCopilot.Ports.QdrantStore
import OpenWrtCopilot.Ports.SqliteStore

/-!
# Versions of documents

Batches of documents are added to a collection or update it.  What they should do to the versions
is said once, as a function on the versions by id; each backend is compared with it.

## Main results

* `versions_agree` — runs in which the four backends store the same versions.
* `repeated_id_updated` — a batch that updates a document twice.
-/

namespace OpenWrtCopilot.Ports.VectorVersions

open Verified
open Verified.PyDict (Dict get? keys)
open Verified.PyText
open Ports.VectorStore

variable {K : Type}

/-! ## Versions by id -/

/-- A batch. -/
inductive Batch (K : Type)
  | add (documents : List (VectorDocument K))
  | update (documents : List (VectorDocument K))

def Batch.documents : Batch K → List (VectorDocument K)
  | .add documents => documents
  | .update documents => documents

/-- The call of a batch. -/
def Batch.change : Batch K → Change K
  | .add documents => .addDocuments documents
  | .update documents => .updateDocuments documents

/-- The versions of the documents that are stored. -/
abbrev Versions := Text → Option Int

/-- A document is added with its own version, if that is positive, and each later occurrence
increases the version by one. -/
def written (versions : Versions) (doc : VectorDocument K) : Versions :=
  Function.update versions doc.id (some (nextVersion (versions doc.id) doc))

/-- A batch is rejected if a document has another dimension, or is added and is there. -/
def Rejected (dimension : Nat) (versions : Versions) : Batch K → Prop
  | .add documents =>
      (∃ doc ∈ documents, doc.vector.length ≠ dimension) ∨
        ∃ doc ∈ documents, (versions doc.id).isSome = true
  | .update documents => ∃ doc ∈ documents, doc.vector.length ≠ dimension

instance (dimension : Nat) (versions : Versions) (batch : Batch K) :
    Decidable (Rejected dimension versions batch) := by
  cases batch with
  | add documents => exact inferInstanceAs (Decidable (_ ∨ _))
  | update documents => exact inferInstanceAs (Decidable (∃ doc ∈ documents, _))

/-- What a batch does to the versions. -/
def applied (dimension : Nat) (batch : Batch K) (versions : Versions) : Versions :=
  if Rejected dimension versions batch then versions else batch.documents.foldl written versions

/-- A batch is rejected, or it names no document twice and its versions fit in 64 bits. -/
def Fine (dimension : Nat) (versions : Versions) (batch : Batch K) : Prop :=
  Rejected dimension versions batch ∨
    ((batch.documents.map (·.id)).Nodup ∧
      ∀ doc ∈ batch.documents, nextVersion (versions doc.id) doc ≤ SqliteStore.maxInt)

instance (dimension : Nat) (versions : Versions) (batch : Batch K) :
    Decidable (Fine dimension versions batch) :=
  inferInstanceAs (Decidable (_ ∨ _))

/-- Versions are positive. -/
def Positive (versions : Versions) : Prop := ∀ id version, versions id = some version → 1 ≤ version

theorem one_le_nextVersion {existing : Option Int} (h : ∀ v, existing = some v → 1 ≤ v)
    (doc : VectorDocument K) : 1 ≤ nextVersion existing doc := by
  cases existing with
  | none => exact le_max_left 1 doc.version
  | some v => exact (h v rfl).trans (Int.le_add_one (le_refl v))

theorem Positive.foldl_written {versions : Versions} (h : Positive versions)
    (documents : List (VectorDocument K)) : Positive (documents.foldl written versions) := by
  induction documents generalizing versions with
  | nil => exact h
  | cons doc rest ih =>
    refine ih fun id version hversion => ?_
    rw [written, Function.update_apply] at hversion
    split at hversion
    · rw [← Option.some.inj hversion]
      exact one_le_nextVersion (fun v hv => h doc.id v hv) doc
    · exact h id version hversion

theorem Positive.applied {dimension : Nat} {versions : Versions} (h : Positive versions)
    (batch : Batch K) : Positive (applied dimension batch versions) := by
  rw [VectorVersions.applied]
  split
  · exact h
  · exact h.foldl_written _

/-- A batch that names no document twice writes each from the versions before it. -/
theorem foldl_written_apply {documents : List (VectorDocument K)}
    (hnodup : (documents.map (·.id)).Nodup) (versions : Versions) (id : Text) :
    documents.foldl written versions id =
      ((documents.find? (·.id = id)).map fun doc => nextVersion (versions id) doc).or
        (versions id) := by
  induction documents generalizing versions with
  | nil => rfl
  | cons doc rest ih =>
    obtain ⟨hnew, hrest⟩ := List.nodup_cons.mp hnodup
    rw [List.foldl_cons, ih hrest]
    by_cases hid : doc.id = id
    · have hnone : rest.find? (·.id = id) = none := by
        refine List.find?_eq_none.mpr fun other hother hsame => hnew ?_
        exact List.mem_map.mpr ⟨other, hother, (of_decide_eq_true hsame).trans hid.symm⟩
      rw [hnone, List.find?_cons_of_pos (by simpa using hid), written, ← hid,
        Function.update_self]
      rfl
    · rw [List.find?_cons_of_neg (by simpa using hid), written,
        Function.update_of_ne (Ne.symm hid)]

/-- Dimensions are validated alike. -/
theorem validateDimension_eq {name : Text} {dimension : Nat}
    {documents : List (VectorDocument K)} :
    validateDimension name dimension documents =
      if ∃ doc ∈ documents, doc.vector.length ≠ dimension then
        .error (.dimensionMismatch name)
      else .ok () := by
  rw [validateDimension]
  by_cases hall : documents.all (·.vector.length = (dimension : Int)) = true
  · rw [if_pos hall, if_neg]
    rintro ⟨doc, hdoc, hne⟩
    have hlength := of_decide_eq_true (List.all_eq_true.mp hall doc hdoc)
    exact hne (Int.ofNat_inj.mp hlength)
  · rw [if_neg hall, if_pos]
    obtain ⟨doc, hdoc, hne⟩ := List.all_eq_false.mp (Bool.not_eq_true _ ▸ hall)
    exact ⟨doc, hdoc, fun hlength => hne (decide_eq_true (by rw [hlength]))⟩

/-! ## SQLite -/

section Sqlite

open SqliteStore (Database forDocuments insertDocument upsertDocument setRow)

/-- The versions that the database has of a collection. -/
def sqliteVersions (pair : Pair) (db : Database K) : Versions := fun id =>
  (get? (pair, id) db.documents).map (·.version)

/-- A batch as a transaction. -/
def sqliteStep (pair : Pair) (db : Database K) (batch : Batch K) : Database K :=
  (SqliteStore.change pair batch.change db).2

variable {pair : Pair} {db : Database K}

theorem sqliteVersions_setRow (id : Text) (row : SqliteStore.DocumentRow K) :
    sqliteVersions pair (setRow pair id row db) =
      Function.update (sqliteVersions pair db) id (some row.version) := by
  funext other
  rw [sqliteVersions, setRow]
  by_cases hother : other = id
  · rw [hother, PyDict.get?_set_self, Function.update_self, Option.map_some]
  · rw [PyDict.get?_set_of_ne fun h => hother (Prod.mk.inj h).2, Function.update_of_ne hother,
      sqliteVersions]

theorem insertDocument_eq {doc : VectorDocument K} (hnew : sqliteVersions pair db doc.id = none)
    (hfits : nextVersion none doc ≤ SqliteStore.maxInt) :
    insertDocument pair doc db =
      (.ok (), setRow pair doc.id (SqliteStore.rowOf doc (nextVersion none doc)) db) := by
  have hlarge : ¬ SqliteStore.maxInt < max 1 doc.version := not_lt.mpr hfits
  have hthere : ¬ (get? (pair, doc.id) db.documents).isSome = true := by
    rw [Option.not_isSome_iff_eq_none]
    exact Option.map_eq_none_iff.mp hnew
  rw [insertDocument, Fallible.read_bind_apply, if_neg hlarge, if_neg hthere]
  rfl

theorem upsertDocument_eq {doc : VectorDocument K}
    (hfits : nextVersion (sqliteVersions pair db doc.id) doc ≤ SqliteStore.maxInt) :
    upsertDocument pair doc db = (.ok (), setRow pair doc.id
      (SqliteStore.rowOf doc (nextVersion (sqliteVersions pair db doc.id) doc)) db) := by
  have hlarge : ¬ SqliteStore.maxInt <
      nextVersion ((get? (pair, doc.id) db.documents).map (·.version)) doc := not_lt.mpr hfits
  rw [upsertDocument, Fallible.read_bind_apply, if_neg hlarge]
  rfl

variable (db) in
/-- A loop over documents that fit writes them one by one. -/
theorem forDocuments_eq {f : VectorDocument K → Fallible VectorStoreError (Database K) Unit}
    {P : Option Int → Prop} {documents : List (VectorDocument K)}
    (hf : ∀ doc ∈ documents, ∀ db : Database K, P (sqliteVersions pair db doc.id) →
      nextVersion (sqliteVersions pair db doc.id) doc ≤ SqliteStore.maxInt →
      f doc db = (.ok (), setRow pair doc.id
        (SqliteStore.rowOf doc (nextVersion (sqliteVersions pair db doc.id) doc)) db))
    (hnodup : (documents.map (·.id)).Nodup)
    (hP : ∀ doc ∈ documents, P (sqliteVersions pair db doc.id))
    (hfits : ∀ doc ∈ documents,
      nextVersion (sqliteVersions pair db doc.id) doc ≤ SqliteStore.maxInt) :
    ∃ db', forDocuments f documents db = (.ok (), db') ∧ db'.collections = db.collections ∧
      sqliteVersions pair db' = documents.foldl written (sqliteVersions pair db) := by
  induction documents generalizing db with
  | nil => exact ⟨db, rfl, rfl, rfl⟩
  | cons doc rest ih =>
    obtain ⟨hnew, hrest⟩ := List.nodup_cons.mp hnodup
    have hfirst := hf doc List.mem_cons_self db (hP doc List.mem_cons_self)
      (hfits doc List.mem_cons_self)
    -- the other documents of the batch are as before
    have hsame : ∀ other ∈ rest, sqliteVersions pair (setRow pair doc.id
        (SqliteStore.rowOf doc (nextVersion (sqliteVersions pair db doc.id) doc)) db) other.id =
          sqliteVersions pair db other.id := by
      intro other hother
      rw [sqliteVersions_setRow, Function.update_of_ne]
      exact fun hid => hnew (List.mem_map.mpr ⟨other, hother, hid⟩)
    obtain ⟨db', hrun, hcollections, hversions⟩ := ih
      (setRow pair doc.id
        (SqliteStore.rowOf doc (nextVersion (sqliteVersions pair db doc.id) doc)) db)
      (fun other hother => hf other (List.mem_cons_of_mem doc hother)) hrest
      (fun other hother => by
        rw [hsame other hother]
        exact hP other (List.mem_cons_of_mem doc hother))
      (fun other hother => by
        rw [hsame other hother]
        exact hfits other (List.mem_cons_of_mem doc hother))
    refine ⟨db', ?_, hcollections, ?_⟩
    · rw [forDocuments, Fallible.bind_of_ok hfirst, hrun]
    · rw [hversions, sqliteVersions_setRow]
      rfl

variable (db) in
/-- An insertion of documents of which one is there is refused. -/
theorem forDocuments_insert_error {documents : List (VectorDocument K)}
    (h : ∃ doc ∈ documents, (sqliteVersions pair db doc.id).isSome = true) :
    ∃ e db', forDocuments (insertDocument pair) documents db = (.error e, db') := by
  induction documents generalizing db with
  | nil =>
    obtain ⟨doc, hdoc, -⟩ := h
    cases hdoc
  | cons doc rest ih =>
    by_cases hlarge : SqliteStore.maxInt < max 1 doc.version
    · refine ⟨.overflowError, db, ?_⟩
      have hfirst : insertDocument pair doc db = (.error .overflowError, db) := by
        rw [insertDocument, Fallible.read_bind_apply, if_pos hlarge]
        rfl
      rw [forDocuments, Fallible.bind_of_error hfirst]
    · by_cases hthere : (get? (pair, doc.id) db.documents).isSome = true
      · refine ⟨.alreadyExists pair.2, db, ?_⟩
        have hfirst : insertDocument pair doc db = (.error (.alreadyExists pair.2), db) := by
          rw [insertDocument, Fallible.read_bind_apply, if_neg hlarge, if_pos hthere]
          rfl
        rw [forDocuments, Fallible.bind_of_error hfirst]
      · have hfirst : insertDocument pair doc db = (.ok (), setRow pair doc.id
            (SqliteStore.rowOf doc (max 1 doc.version)) db) := by
          rw [insertDocument, Fallible.read_bind_apply, if_neg hlarge, if_neg hthere]
          rfl
        obtain ⟨other, hother, hsome⟩ := h
        obtain rfl | hother := List.mem_cons.mp hother
        · rw [sqliteVersions, Option.isSome_map] at hsome
          exact absurd hsome hthere
        · obtain ⟨e, db', hrun⟩ := ih (setRow pair doc.id
            (SqliteStore.rowOf doc (max 1 doc.version)) db) ⟨other, hother, by
              rw [sqliteVersions_setRow, Function.update_apply]
              split
              · rfl
              · exact hsome⟩
          exact ⟨e, db', by rw [forDocuments, Fallible.bind_of_ok hfirst, hrun]⟩

/-- A collection that the database has, with its dimension. -/
def SqliteAt (pair : Pair) (dimension : Nat) (db : Database K) (versions : Versions) : Prop :=
  (∃ row, get? pair db.collections = some row ∧ row.dimension = dimension) ∧
    sqliteVersions pair db = versions

/-- A batch does to the database what it does to the versions. -/
theorem sqliteStep_at {dimension : Nat} {versions : Versions} {batch : Batch K}
    (h : SqliteAt pair dimension db versions) (hfine : Fine dimension versions batch) :
    SqliteAt pair dimension (sqliteStep pair db batch) (applied dimension batch versions) := by
  obtain ⟨⟨row, hrow, rfl⟩, rfl⟩ := h
  have hrequire : SqliteStore.requireRow pair db = (.ok row, db) := by
    rw [SqliteStore.requireRow, Fallible.read_bind_apply, hrow]
    rfl
  -- what a batch does that raises
  have hraises {α : Type} {m : Fallible VectorStoreError (Database K) α} (f : α → Answer K)
      (h : ∃ e db', m db = (.error e, db')) :
      ((f <$> SqliteStore.transaction m) db).2 = db := by
    obtain ⟨e, db', hrun⟩ := h
    have htransaction : SqliteStore.transaction m db = (.error e, db) := by
      rw [SqliteStore.transaction, hrun]
    rw [Fallible.map_of_error f htransaction]
  have hreturns {α : Type} {m : Fallible VectorStoreError (Database K) α} (f : α → Answer K)
      {a : α} {db' : Database K} (hrun : m db = (.ok a, db')) :
      ((f <$> SqliteStore.transaction m) db).2 = db' := by
    have htransaction : SqliteStore.transaction m db = (.ok a, db') := by
      rw [SqliteStore.transaction, hrun]
    rw [Fallible.map_of_ok f htransaction]
  cases batch with
  | add documents =>
    by_cases hrejected : Rejected row.dimension (sqliteVersions pair db) (.add documents)
    · have hsame : sqliteStep pair db (.add documents) = db := by
        refine hraises _ ?_
        rw [Fallible.bind_of_ok hrequire, validateDimension_eq]
        by_cases hlength : ∃ doc ∈ documents, doc.vector.length ≠ row.dimension
        · exact ⟨_, db, by rw [if_pos hlength, Fallible.ofExcept_bind_of_error rfl]⟩
        · obtain ⟨e, db', hrun⟩ := forDocuments_insert_error db (hrejected.resolve_left hlength)
          exact ⟨e, db', by
            rw [if_neg hlength, Fallible.ofExcept_bind_of_ok rfl, Fallible.bind_of_error hrun]⟩
      rw [hsame, applied, if_pos hrejected]
      exact ⟨⟨row, hrow, rfl⟩, rfl⟩
    · obtain ⟨hnodup, hfits⟩ : (documents.map (·.id)).Nodup ∧ _ :=
        hfine.resolve_left hrejected
      obtain ⟨hlength, hnone⟩ := not_or.mp hrejected
      have hnone : ∀ doc ∈ documents, sqliteVersions pair db doc.id = none := by
        intro doc hdoc
        exact Option.not_isSome_iff_eq_none.mp fun hsome => hnone ⟨doc, hdoc, hsome⟩
      obtain ⟨db', hrun, hcollections, hversions⟩ := forDocuments_eq db
        (f := insertDocument pair) (P := (· = none))
        (fun doc _ db hnone hfits => by
          rw [hnone] at hfits ⊢
          exact insertDocument_eq hnone hfits) hnodup hnone hfits
      have hstep : sqliteStep pair db (.add documents) = db' := by
        refine hreturns _ (a := documents.map (·.id)) ?_
        rw [Fallible.bind_of_ok hrequire, validateDimension_eq, if_neg hlength,
          Fallible.ofExcept_bind_of_ok rfl, Fallible.bind_of_ok hrun]
        rfl
      rw [hstep, applied, if_neg hrejected]
      exact ⟨⟨row, hcollections ▸ hrow, rfl⟩, hversions⟩
  | update documents =>
    by_cases hrejected : Rejected row.dimension (sqliteVersions pair db) (.update documents)
    · have hlength : ∃ doc ∈ documents, doc.vector.length ≠ row.dimension := hrejected
      have hsame : sqliteStep pair db (.update documents) = db := by
        refine hraises _ ⟨.dimensionMismatch pair.2, db, ?_⟩
        rw [Fallible.bind_of_ok hrequire, validateDimension_eq, if_pos hlength,
          Fallible.ofExcept_bind_of_error rfl]
      rw [hsame, applied, if_pos hrejected]
      exact ⟨⟨row, hrow, rfl⟩, rfl⟩
    · have hlength : ¬ ∃ doc ∈ documents, doc.vector.length ≠ row.dimension := hrejected
      obtain ⟨hnodup, hfits⟩ : (documents.map (·.id)).Nodup ∧ _ :=
        hfine.resolve_left hrejected
      obtain ⟨db', hrun, hcollections, hversions⟩ := forDocuments_eq db
        (f := upsertDocument pair) (P := fun _ => True)
        (fun doc _ db _ hfits => upsertDocument_eq hfits) hnodup (fun _ _ => trivial) hfits
      have hstep : sqliteStep pair db (.update documents) = db' := by
        refine hreturns _ (a := documents.length) ?_
        rw [Fallible.bind_of_ok hrequire, validateDimension_eq, if_neg hlength,
          Fallible.ofExcept_bind_of_ok rfl, Fallible.bind_of_ok hrun]
        rfl
      rw [hstep, applied, if_neg hrejected]
      exact ⟨⟨row, hcollections ▸ hrow, rfl⟩, hversions⟩

end Sqlite

/-! ## FAISS -/

section Faiss

open FaissStore (CollectionData)

/-- The versions of the documents of a collection. -/
def faissVersions (data : CollectionData K) : Versions := fun id =>
  (get? id data.docs).map (·.version)

/-- A batch, with files that can be written. -/
def faissStep [Field K] [LinearOrder K] (R : SquareRoot K) (name : Text)
    (data : CollectionData K) (batch : Batch K) : CollectionData K :=
  (FaissStore.change R true name batch.change data).2

variable {data : CollectionData K}

theorem faissVersions_set (id : Text) (record : FaissStore.Record K) :
    (fun other => (get? other (PyDict.set id record data.docs)).map (·.version)) =
      Function.update (faissVersions data) id (some record.version) := by
  funext other
  by_cases hother : other = id
  · rw [hother, PyDict.get?_set_self, Function.update_self, Option.map_some]
  · rw [PyDict.get?_set_of_ne hother, Function.update_of_ne hother, faissVersions]

theorem faissVersions_foldl_update (documents : List (VectorDocument K)) :
    faissVersions (documents.foldl FaissStore.updateDocument data) =
      documents.foldl written (faissVersions data) := by
  induction documents generalizing data with
  | nil => rfl
  | cons doc rest ih =>
    rw [List.foldl_cons, List.foldl_cons, ih]
    congr 1
    exact faissVersions_set doc.id _

theorem faissVersions_foldl_add [Field K] [LinearOrder K] {R : SquareRoot K}
    {documents : List (VectorDocument K)} (hnodup : (documents.map (·.id)).Nodup)
    (hnone : ∀ doc ∈ documents, faissVersions data doc.id = none) :
    faissVersions (documents.foldl (FaissStore.addDocument R) data) =
      documents.foldl written (faissVersions data) := by
  induction documents generalizing data with
  | nil => rfl
  | cons doc rest ih =>
    obtain ⟨hnew, hrest⟩ := List.nodup_cons.mp hnodup
    have hfirst : faissVersions (FaissStore.addDocument R data doc) =
        written (faissVersions data) doc := by
      rw [written, hnone doc List.mem_cons_self]
      exact faissVersions_set doc.id _
    rw [List.foldl_cons, List.foldl_cons, ih hrest, hfirst]
    intro other hother
    rw [hfirst, written, Function.update_of_ne]
    · exact hnone other (List.mem_cons_of_mem doc hother)
    · exact fun hid => hnew (List.mem_map.mpr ⟨other, hother, hid⟩)

/-- A rebuilt index does not change the documents. -/
theorem rebuildAndPersist_versions [Field K] [LinearOrder K] (R : SquareRoot K)
    (data : CollectionData K) :
    faissVersions (FaissStore.rebuildAndPersist R true data).2 = faissVersions data ∧
      (FaissStore.rebuildAndPersist R true data).2.dimension = data.dimension := by
  rw [FaissStore.rebuildAndPersist, Fallible.read_bind_apply, FaissStore.rebuildIndex]
  cases data.idMap.mapM (FaissStore.indexed R data.docs) with
  | error e => exact ⟨rfl, rfl⟩
  | ok index => exact ⟨rfl, rfl⟩

theorem dimension_foldl {f : CollectionData K → VectorDocument K → CollectionData K}
    (hf : ∀ data doc, (f data doc).dimension = data.dimension)
    (documents : List (VectorDocument K)) (data : CollectionData K) :
    (documents.foldl f data).dimension = data.dimension := by
  induction documents generalizing data with
  | nil => rfl
  | cons doc rest ih => rw [List.foldl_cons, ih, hf]

/-- The data has a dimension and versions. -/
def FaissAt (dimension : Nat) (data : CollectionData K) (versions : Versions) : Prop :=
  data.dimension = dimension ∧ faissVersions data = versions

/-- A batch does to the data what it does to the versions. -/
theorem faissStep_at [Field K] [LinearOrder K] {R : SquareRoot K} {name : Text}
    {dimension : Nat} {versions : Versions} {batch : Batch K} (h : FaissAt dimension data versions)
    (hfine : Fine dimension versions batch) :
    FaissAt dimension (faissStep R name data batch) (applied dimension batch versions) := by
  obtain ⟨rfl, rfl⟩ := h
  cases batch with
  | add documents =>
    have hany : documents.any (fun doc => (get? doc.id data.docs).isSome) = true ↔
        ∃ doc ∈ documents, (faissVersions data doc.id).isSome = true := by
      simp only [List.any_eq_true, faissVersions, Option.isSome_map]
    by_cases hrejected : Rejected data.dimension (faissVersions data) (.add documents)
    · have hrefused : FaissStore.Refused data (.addDocuments documents) := by
        obtain hlength | hthere := hrejected
        · refine Or.inl fun hok => ?_
          rw [validateDimension_eq, if_pos hlength] at hok
          cases hok
        · exact Or.inr (hany.mpr hthere)
      have hsame : faissStep R name data (.add documents) = data :=
        FaissStore.change_of_refused hrefused true name
      rw [hsame, applied, if_pos hrejected]
      exact ⟨rfl, rfl⟩
    · obtain ⟨hlength, hnone⟩ := not_or.mp hrejected
      have hrun : FaissStore.addDocuments R true name documents data =
          (.ok (documents.map (·.id)), documents.foldl (FaissStore.addDocument R) data) := by
        rw [FaissStore.addDocuments, Fallible.read_bind_apply, validateDimension_eq,
          if_neg hlength, Fallible.ofExcept_bind_of_ok rfl, if_neg (mt hany.mp hnone)]
        rfl
      have hstep : faissStep R name data (.add documents) =
          documents.foldl (FaissStore.addDocument R) data := by
        rw [faissStep, Batch.change, FaissStore.change, Fallible.map_of_ok _ hrun]
      rw [hstep, applied, if_neg hrejected]
      refine ⟨dimension_foldl (f := FaissStore.addDocument R) (fun _ _ => rfl) documents data,
        faissVersions_foldl_add (hfine.resolve_left hrejected).1 ?_⟩
      intro doc hdoc
      exact Option.not_isSome_iff_eq_none.mp fun hsome => hnone ⟨doc, hdoc, hsome⟩
  | update documents =>
    by_cases hrejected : Rejected data.dimension (faissVersions data) (.update documents)
    · have hrefused : FaissStore.Refused data (.updateDocuments documents) := by
        have hlength : ∃ doc ∈ documents, doc.vector.length ≠ data.dimension := hrejected
        intro hok
        rw [validateDimension_eq, if_pos hlength] at hok
        cases hok
      have hsame : faissStep R name data (.update documents) = data :=
        FaissStore.change_of_refused hrefused true name
      rw [hsame, applied, if_pos hrejected]
      exact ⟨rfl, rfl⟩
    · have hlength : ¬ ∃ doc ∈ documents, doc.vector.length ≠ data.dimension := hrejected
      have hrebuild := rebuildAndPersist_versions R
        (documents.foldl FaissStore.updateDocument data)
      have hstep : faissStep R name data (.update documents) =
          (FaissStore.rebuildAndPersist R true
            (documents.foldl FaissStore.updateDocument data)).2 := by
        rw [faissStep, Batch.change, FaissStore.change]
        cases hrun : FaissStore.rebuildAndPersist R true
            (documents.foldl FaissStore.updateDocument data) with
        | mk result data' =>
          cases result with
          | ok _ =>
            have hupdate : FaissStore.updateDocuments R true documents data =
                (.ok documents.length, data') := by
              rw [FaissStore.updateDocuments, Fallible.read_bind_apply,
                validateDimension_eq, if_neg hlength, Fallible.ofExcept_bind_of_ok rfl,
                Fallible.modify_bind_apply, Fallible.bind_of_ok hrun]
              rfl
            rw [Fallible.map_of_ok _ hupdate]
          | error e =>
            have hupdate : FaissStore.updateDocuments R true documents data =
                (.error e, data') := by
              rw [FaissStore.updateDocuments, Fallible.read_bind_apply,
                validateDimension_eq, if_neg hlength, Fallible.ofExcept_bind_of_ok rfl,
                Fallible.modify_bind_apply, Fallible.bind_of_error hrun]
            rw [Fallible.map_of_error _ hupdate]
      rw [hstep, applied, if_neg hrejected]
      refine ⟨hrebuild.2.trans ?_, hrebuild.1.trans (faissVersions_foldl_update documents)⟩
      exact dimension_foldl (f := FaissStore.updateDocument) (fun _ _ => rfl) documents data

end Faiss

/-! ## Qdrant -/

section Qdrant

open QdrantStore (Entry Point pointId pointOf putPoints retrievePoints existingVersions)

/-- A batch. -/
def qdrantStep (uuid5 : QdrantStore.Uuid5) (pair : Pair) (entry : Entry K) (batch : Batch K) :
    Entry K :=
  (QdrantStore.change uuid5 pair.1 pair.2 batch.change entry).2

/-- The versions of the documents of a collection. -/
def qdrantVersions (uuid5 : QdrantStore.Uuid5) (pair : Pair) (entry : Entry K) : Versions := fun id =>
  (get? (pointId uuid5 pair.1 pair.2 id) entry.points).map (·.payload.version)

/-- The documents that are used have points of their own, which name them. -/
structure QdrantAt (uuid5 : QdrantStore.Uuid5) (pair : Pair) (U : Text → Prop) (dimension : Nat)
    (entry : Entry K) (versions : Versions) : Prop where
  size : entry.size = dimension
  named : ∀ key point, get? key entry.points = some point →
    U point.payload.documentId ∧ key = pointId uuid5 pair.1 pair.2 point.payload.documentId
  versions : ∀ id, U id → qdrantVersions uuid5 pair entry id = versions id

/-- The ids of points are hashes without a collision. -/
def Collisionless (uuid5 : QdrantStore.Uuid5) (pair : Pair) (U : Text → Prop) : Prop :=
  ∀ i j, U i → U j →
    pointId uuid5 pair.1 pair.2 i = pointId uuid5 pair.1 pair.2 j → i = j

variable {uuid5 : QdrantStore.Uuid5} {pair : Pair} {U : Text → Prop} {dimension : Nat}
  {entry : Entry K} {versions : Versions}

theorem QdrantAt.mem_retrieve (h : QdrantAt uuid5 pair U dimension entry versions)
    (hinj : Collisionless uuid5 pair U) {ids : List Text} (hids : ∀ id ∈ ids, U id)
    {point : Point K} (hpoint : point ∈ retrievePoints uuid5 pair.1 pair.2 ids entry) :
    point.payload.documentId ∈ ids ∧
      get? (pointId uuid5 pair.1 pair.2 point.payload.documentId) entry.points = some point := by
  obtain ⟨id, hid, hget⟩ := List.mem_filterMap.mp hpoint
  obtain ⟨hU, hkey⟩ := h.named _ point hget
  obtain rfl := hinj id point.payload.documentId (hids id hid) hU hkey
  exact ⟨hid, hget⟩

/-- The versions that are read before an update. -/
theorem QdrantAt.existingVersions (h : QdrantAt uuid5 pair U dimension entry versions)
    (hinj : Collisionless uuid5 pair U) {ids : List Text} (hids : ∀ id ∈ ids, U id) {key : Text}
    (hkey : key ∈ ids) :
    get? key (existingVersions (retrievePoints uuid5 pair.1 pair.2 ids entry)) =
      versions key := by
  have hversion := h.versions key (hids key hkey)
  rw [qdrantVersions] at hversion
  cases hget : get? (pointId uuid5 pair.1 pair.2 key) entry.points with
  | none =>
    have hnone : ∀ point ∈ retrievePoints uuid5 pair.1 pair.2 ids entry,
        point.payload.documentId ≠ key := by
      rintro point hpoint rfl
      rw [(h.mem_retrieve hinj hids hpoint).2] at hget
      cases hget
    rw [← hversion, hget, QdrantStore.existingVersions,
      PyDict.get?_foldl_set (fun point : Point K => point.payload.documentId)
        (fun point => point.payload.version) _ _ key 0
        fun point hpoint hsame => absurd hsame (hnone point hpoint)]
    exact if_neg fun ⟨point, hpoint, hsame⟩ => hnone point hpoint hsame
  | some point =>
    have hid : point.payload.documentId = key :=
      (hinj key _ (hids key hkey) (h.named _ point hget).1 (h.named _ point hget).2).symm
    have hmem : point ∈ retrievePoints uuid5 pair.1 pair.2 ids entry :=
      List.mem_filterMap.mpr ⟨key, hkey, hget⟩
    have honly : ∀ other ∈ retrievePoints uuid5 pair.1 pair.2 ids entry,
        other.payload.documentId = key → other.payload.version = point.payload.version := by
      intro other hother hsame
      have hget' := (h.mem_retrieve hinj hids hother).2
      rw [hsame, hget] at hget'
      rw [Option.some.inj hget']
    rw [← hversion, hget, QdrantStore.existingVersions,
      PyDict.get?_foldl_set (fun point : Point K => point.payload.documentId)
        (fun point => point.payload.version) _ _ key _ honly]
    exact if_pos ⟨point, hmem, hid⟩

/-- Points of different documents are written. -/
theorem QdrantAt.putPoints (h : QdrantAt uuid5 pair U dimension entry versions)
    (hinj : Collisionless uuid5 pair U) {documents : List (VectorDocument K)}
    (hids : ∀ doc ∈ documents, U doc.id) (hnodup : (documents.map (·.id)).Nodup)
    {version : VectorDocument K → Int}
    (hversion : ∀ doc ∈ documents, version doc = nextVersion (versions doc.id) doc) :
    QdrantAt uuid5 pair U dimension
      (putPoints (documents.map fun doc => pointOf uuid5 pair.1 pair.2 doc (version doc)) entry)
      (documents.foldl written versions) := by
  refine ⟨h.size, fun key point hget => ?_, fun id hid => ?_⟩
  · refine PyDict.forall_foldl_set (fun point : Point K => point.id) (fun point => point) _ ?_
      h.named hget
    intro point hpoint
    obtain ⟨doc, hdoc, rfl⟩ := List.mem_map.mp hpoint
    exact ⟨hids doc hdoc, rfl⟩
  · rw [foldl_written_apply hnodup, qdrantVersions, QdrantStore.putPoints]
    cases hfind : documents.find? (·.id = id) with
    | none =>
      have hnone := List.find?_eq_none.mp hfind
      have hother : ¬ ∃ point ∈ documents.map fun doc =>
          pointOf uuid5 pair.1 pair.2 doc (version doc),
          point.id = pointId uuid5 pair.1 pair.2 id := by
        rintro ⟨point, hpoint, hsame⟩
        obtain ⟨doc, hdoc, rfl⟩ := List.mem_map.mp hpoint
        exact hnone doc hdoc (decide_eq_true (hinj doc.id id (hids doc hdoc) hid hsame))
      have hget := PyDict.get?_foldl_set (fun point : Point K => point.id) (fun point => point)
        (documents.map fun doc => pointOf uuid5 pair.1 pair.2 doc (version doc)) entry.points
        (pointId uuid5 pair.1 pair.2 id) (pointOf uuid5 pair.1 pair.2 ⟨id, [], [], [], 1⟩ 1)
        (fun point hpoint hsame => absurd ⟨point, hpoint, hsame⟩ hother)
      rw [if_neg hother] at hget
      rw [hget]
      exact h.versions id hid
    | some doc =>
      have hdoc : doc ∈ documents := List.mem_of_find?_eq_some hfind
      have hdocId : doc.id = id := by simpa using List.find?_some hfind
      have hget := PyDict.get?_foldl_set (fun point : Point K => point.id) (fun point => point)
        (documents.map fun doc => pointOf uuid5 pair.1 pair.2 doc (version doc)) entry.points
        (pointId uuid5 pair.1 pair.2 id) (pointOf uuid5 pair.1 pair.2 doc (version doc)) (by
          intro point hpoint hsame
          obtain ⟨other, hother, rfl⟩ := List.mem_map.mp hpoint
          have hid := hinj other.id id (hids other hother) hid hsame
          rw [List.inj_on_of_nodup_map hnodup hother hdoc (hid.trans hdocId.symm)])
      rw [if_pos ⟨_, List.mem_map_of_mem hdoc, by rw [← hdocId]; rfl⟩] at hget
      rw [hget, ← hdocId, Option.map_some, Option.map_some, Option.some_or,
        ← hversion doc hdoc]
      rfl

/-- A batch does to the points what it does to the versions. -/
theorem qdrantStep_at {batch : Batch K} (h : QdrantAt uuid5 pair U dimension entry versions)
    (hinj : Collisionless uuid5 pair U) (hids : ∀ doc ∈ batch.documents, U doc.id)
    (hfine : Fine dimension versions batch) :
    QdrantAt uuid5 pair U dimension (qdrantStep uuid5 pair entry batch)
      (applied dimension batch versions) := by
  obtain rfl := h.size
  have hmapped (documents : List (VectorDocument K)) (hids : ∀ doc ∈ documents, U doc.id) :
      ∀ id ∈ documents.map (·.id), U id := by
    intro id hid
    obtain ⟨doc, hdoc, rfl⟩ := List.mem_map.mp hid
    exact hids doc hdoc
  cases batch with
  | add documents =>
    have hids : ∀ doc ∈ documents, U doc.id := hids
    have hthere : retrievePoints uuid5 pair.1 pair.2 (documents.map (·.id)) entry ≠ [] ↔
        ∃ doc ∈ documents, (versions doc.id).isSome = true := by
      constructor
      · intro hne
        obtain ⟨point, hpoint⟩ := List.exists_mem_of_ne_nil _ hne
        obtain ⟨hmem, hget⟩ := h.mem_retrieve hinj (hmapped documents hids) hpoint
        obtain ⟨doc, hdoc, hid⟩ := List.mem_map.mp hmem
        refine ⟨doc, hdoc, ?_⟩
        rw [← h.versions doc.id (hids doc hdoc), qdrantVersions, hid, hget]
        rfl
      · rintro ⟨doc, hdoc, hsome⟩ hnil
        rw [← h.versions doc.id (hids doc hdoc), qdrantVersions, Option.isSome_map] at hsome
        obtain ⟨point, hpoint⟩ := Option.isSome_iff_exists.mp hsome
        have hmem : point ∈ retrievePoints uuid5 pair.1 pair.2 (documents.map (·.id)) entry :=
          List.mem_filterMap.mpr ⟨doc.id, List.mem_map_of_mem hdoc, hpoint⟩
        rw [hnil] at hmem
        cases hmem
    by_cases hrejected : Rejected entry.size versions (.add documents)
    · have hsame : qdrantStep uuid5 pair entry (.add documents) = entry := by
        by_cases hlength : ∃ doc ∈ documents, doc.vector.length ≠ entry.size
        · have hrun : QdrantStore.addDocuments uuid5 pair.1 pair.2 documents entry =
              (.error (.dimensionMismatch pair.2), entry) := by
            rw [QdrantStore.addDocuments, Fallible.read_bind_apply, validateDimension_eq,
              if_pos hlength, Fallible.ofExcept_bind_of_error rfl]
          rw [qdrantStep, Batch.change, QdrantStore.change, Fallible.map_of_error _ hrun]
        · have hsome := hthere.mpr (hrejected.resolve_left hlength)
          have hne : documents ≠ [] := by
            rintro rfl
            exact hsome rfl
          have hrun : QdrantStore.addDocuments uuid5 pair.1 pair.2 documents entry =
              (.error (.alreadyExists pair.2), entry) := by
            rw [QdrantStore.addDocuments, Fallible.read_bind_apply, validateDimension_eq,
              if_neg hlength, Fallible.ofExcept_bind_of_ok rfl, if_neg hne, if_pos hsome]
            rfl
          rw [qdrantStep, Batch.change, QdrantStore.change, Fallible.map_of_error _ hrun]
      rw [hsame, applied, if_pos hrejected]
      exact h
    · obtain ⟨hlength, hnone⟩ := not_or.mp hrejected
      obtain ⟨hnodup, -⟩ : (documents.map (·.id)).Nodup ∧ _ := hfine.resolve_left hrejected
      have hversion : ∀ doc ∈ documents, max 1 doc.version =
          nextVersion (versions doc.id) doc := by
        intro doc hdoc
        rw [Option.not_isSome_iff_eq_none.mp fun hsome => hnone ⟨doc, hdoc, hsome⟩]
        rfl
      rw [applied, if_neg hrejected]
      by_cases hnil : documents = []
      · have hrun : QdrantStore.addDocuments uuid5 pair.1 pair.2 documents entry =
            (.ok [], entry) := by
          rw [QdrantStore.addDocuments, Fallible.read_bind_apply, validateDimension_eq,
            if_neg hlength, Fallible.ofExcept_bind_of_ok rfl, if_pos hnil]
          rfl
        rw [qdrantStep, Batch.change, QdrantStore.change, Fallible.map_of_ok _ hrun, hnil]
        exact h
      · have hrun : QdrantStore.addDocuments uuid5 pair.1 pair.2 documents entry =
            (.ok (documents.map (·.id)), putPoints (documents.map fun doc =>
              pointOf uuid5 pair.1 pair.2 doc (max 1 doc.version)) entry) := by
          rw [QdrantStore.addDocuments, Fallible.read_bind_apply, validateDimension_eq,
            if_neg hlength, Fallible.ofExcept_bind_of_ok rfl, if_neg hnil,
            if_neg (mt hthere.mp hnone)]
          rfl
        rw [qdrantStep, Batch.change, QdrantStore.change, Fallible.map_of_ok _ hrun]
        exact h.putPoints hinj hids hnodup hversion
  | update documents =>
    have hids : ∀ doc ∈ documents, U doc.id := hids
    by_cases hrejected : Rejected entry.size versions (.update documents)
    · have hlength : ∃ doc ∈ documents, doc.vector.length ≠ entry.size := hrejected
      have hrun : QdrantStore.updateDocuments uuid5 pair.1 pair.2 documents entry =
          (.error (.dimensionMismatch pair.2), entry) := by
        rw [QdrantStore.updateDocuments, Fallible.read_bind_apply, validateDimension_eq,
          if_pos hlength, Fallible.ofExcept_bind_of_error rfl]
      rw [applied, if_pos hrejected, qdrantStep, Batch.change, QdrantStore.change,
        Fallible.map_of_error _ hrun]
      exact h
    · have hlength : ¬ ∃ doc ∈ documents, doc.vector.length ≠ entry.size := hrejected
      obtain ⟨hnodup, -⟩ : (documents.map (·.id)).Nodup ∧ _ := hfine.resolve_left hrejected
      rw [applied, if_neg hrejected]
      by_cases hnil : documents = []
      · have hrun : QdrantStore.updateDocuments uuid5 pair.1 pair.2 documents entry =
            (.ok 0, entry) := by
          rw [QdrantStore.updateDocuments, Fallible.read_bind_apply, validateDimension_eq,
            if_neg hlength, Fallible.ofExcept_bind_of_ok rfl, if_pos hnil]
          rfl
        rw [qdrantStep, Batch.change, QdrantStore.change, Fallible.map_of_ok _ hrun, hnil]
        exact h
      · have hrun : QdrantStore.updateDocuments uuid5 pair.1 pair.2 documents entry =
            (.ok documents.length, putPoints (documents.map fun doc =>
              pointOf uuid5 pair.1 pair.2 doc (nextVersion (get? doc.id (existingVersions
                (retrievePoints uuid5 pair.1 pair.2 (documents.map (·.id)) entry))) doc))
              entry) := by
          rw [QdrantStore.updateDocuments, Fallible.read_bind_apply, validateDimension_eq,
            if_neg hlength, Fallible.ofExcept_bind_of_ok rfl, if_neg hnil]
          rfl
        rw [qdrantStep, Batch.change, QdrantStore.change, Fallible.map_of_ok _ hrun]
        refine h.putPoints hinj hids hnodup fun doc hdoc => ?_
        rw [h.existingVersions hinj (hmapped documents hids) (List.mem_map_of_mem hdoc)]

end Qdrant

/-! ## Chroma -/

section Chroma

open ChromaStore (Entry Record getRecords recordOf replaceFirst upsertRecord)

/-- A batch. -/
def chromaStep (parseInt : Text → Option Int) (name : Text) (entry : Entry K) (batch : Batch K) :
    Entry K :=
  (ChromaStore.change parseInt name batch.change entry).2

/-- The versions of the documents of a collection. -/
def chromaVersions (entry : Entry K) : Versions := fun id =>
  (entry.records.find? (·.id = id)).map (·.version)

/-- The collection has a dimension and versions. -/
structure ChromaAt (parseInt : Text → Option Int) (dimension : Nat) (entry : Entry K)
    (versions : Versions) : Prop where
  marked : ChromaStore.markerDimension parseInt entry.metadata = .ok (dimension : Int)
  positive : Positive versions
  versions : chromaVersions entry = versions

theorem find?_replaceFirst (record : Record K) (records : List (Record K)) (id : Text) :
    (replaceFirst record records).find? (·.id = id) =
      if record.id = id then (records.find? (·.id = id)).map fun _ => record
      else records.find? (·.id = id) := by
  induction records with
  | nil => by_cases hid : record.id = id <;> simp [replaceFirst, hid]
  | cons first rest ih =>
    by_cases hfirst : first.id = record.id
    · by_cases hid : record.id = id <;> simp [replaceFirst, hfirst, hid]
    · rw [replaceFirst, if_neg hfirst]
      by_cases hid : record.id = id
      · have hne : first.id ≠ id := fun h => hfirst (h.trans hid.symm)
        rw [if_pos hid] at ih
        simp [hid, hne, ih]
      · rw [if_neg hid] at ih
        by_cases hne : first.id = id <;> simp [hid, hne, ih]

/-- The record is found from then on. -/
theorem find?_upsertRecord (records : List (Record K)) (record : Record K) (id : Text) :
    (upsertRecord records record).find? (·.id = id) =
      if record.id = id then some record else records.find? (·.id = id) := by
  rw [upsertRecord]
  by_cases hany : records.any (·.id = record.id) = true
  · rw [if_pos hany, find?_replaceFirst]
    by_cases hid : record.id = id
    · rw [if_pos hid, if_pos hid, ← hid]
      obtain ⟨found, hfound, hsame⟩ := List.any_eq_true.mp hany
      cases hfind : records.find? (·.id = record.id) with
      | none => exact absurd hsame (by simpa using List.find?_eq_none.mp hfind found hfound)
      | some _ => rfl
    · rw [if_neg hid, if_neg hid]
  · rw [if_neg hany, List.find?_append]
    by_cases hid : record.id = id
    · have hnone : records.find? (·.id = id) = none := by
        refine List.find?_eq_none.mpr fun found hfound hsame => hany ?_
        refine List.any_eq_true.mpr ⟨found, hfound, ?_⟩
        simpa [hid] using hsame
      simp [hnone, hid]
    · simp [hid]

/-- Records of different documents are written. -/
theorem find?_foldl_upsertRecord {records : List (Record K)}
    {new : List (Record K)} (hnodup : (new.map (·.id)).Nodup) (id : Text) :
    (new.foldl upsertRecord records).find? (·.id = id) =
      (new.find? (·.id = id)).or (records.find? (·.id = id)) := by
  induction new generalizing records with
  | nil => rfl
  | cons record rest ih =>
    obtain ⟨hnew, hrest⟩ := List.nodup_cons.mp hnodup
    rw [List.foldl_cons, ih hrest, find?_upsertRecord]
    by_cases hid : record.id = id
    · have hnone : rest.find? (·.id = id) = none := by
        refine List.find?_eq_none.mpr fun other hother hsame => hnew ?_
        exact List.mem_map.mpr ⟨other, hother, (of_decide_eq_true hsame).trans hid.symm⟩
      simp [hnone, hid]
    · simp [hid]

theorem find?_map_recordOf (documents : List (VectorDocument K)) (version : VectorDocument K → Int)
    (id : Text) :
    ((documents.map fun doc => recordOf doc (version doc)).find? (·.id = id)).map (·.version) =
      (documents.find? (·.id = id)).map version := by
  rw [List.find?_map, Option.map_map]
  rfl

variable {parseInt : Text → Option Int} {name : Text} {dimension : Nat} {entry : Entry K}
  {versions : Versions}

/-- A document is among the records that are got exactly if it has a version. -/
theorem getRecords_ne_nil_iff {documents : List (VectorDocument K)} :
    getRecords (documents.map (·.id)) entry ≠ [] ↔
      ∃ doc ∈ documents, (chromaVersions entry doc.id).isSome = true := by
  constructor
  · intro hne
    obtain ⟨record, hrecord⟩ := List.exists_mem_of_ne_nil _ hne
    obtain ⟨id, hid, hfind⟩ := List.mem_filterMap.mp hrecord
    obtain ⟨doc, hdoc, rfl⟩ := List.mem_map.mp hid
    refine ⟨doc, hdoc, ?_⟩
    rw [chromaVersions, hfind]
    rfl
  · rintro ⟨doc, hdoc, hsome⟩ hnil
    rw [chromaVersions, Option.isSome_map] at hsome
    obtain ⟨record, hrecord⟩ := Option.isSome_iff_exists.mp hsome
    have hmem : record ∈ getRecords (documents.map (·.id)) entry :=
      List.mem_filterMap.mpr ⟨doc.id, List.mem_map_of_mem hdoc, hrecord⟩
    rw [hnil] at hmem
    cases hmem

/-- The versions that are read before an update. -/
theorem ChromaAt.readVersions (h : ChromaAt parseInt dimension entry versions)
    {ids : List Text} {key : Text} (hkey : key ∈ ids) :
    get? key (ChromaStore.versions (getRecords ids entry)) = versions key := by
  have hversion : chromaVersions entry key = versions key := congrFun h.versions key
  rw [chromaVersions] at hversion
  have hfound : ∀ record ∈ getRecords ids entry, record.id = key →
      entry.records.find? (·.id = key) = some record := by
    intro record hrecord hid
    obtain ⟨id, -, hfind⟩ := List.mem_filterMap.mp hrecord
    have hsame : record.id = id := by simpa using List.find?_some hfind
    rwa [← hid, hsame]
  cases hfind : entry.records.find? (·.id = key) with
  | none =>
    have hnone : ∀ record ∈ getRecords ids entry, record.id ≠ key := by
      intro record hrecord hid
      rw [hfound record hrecord hid] at hfind
      cases hfind
    rw [← hversion, hfind, ChromaStore.versions,
      PyDict.get?_foldl_set (fun record : Record K => record.id)
        (fun record => orOne record.version) _ _ key 0
        fun record hrecord hid => absurd hid (hnone record hrecord)]
    exact if_neg fun ⟨record, hrecord, hid⟩ => hnone record hrecord hid
  | some record =>
    have hid : record.id = key := by simpa using List.find?_some hfind
    have hmem : record ∈ getRecords ids entry := List.mem_filterMap.mpr ⟨key, hkey, hfind⟩
    have hpositive : orOne record.version = record.version := by
      refine if_neg fun hzero => ?_
      have hone := h.positive key record.version (by rw [← hversion, hfind]; rfl)
      rw [hzero] at hone
      exact absurd hone (by decide)
    have honly : ∀ other ∈ getRecords ids entry, other.id = key →
        orOne other.version = record.version := by
      intro other hother hid
      have hsame := hfound other hother hid
      rw [hfind] at hsame
      rw [← Option.some.inj hsame, hpositive]
    rw [← hversion, hfind, ChromaStore.versions,
      PyDict.get?_foldl_set (fun record : Record K => record.id)
        (fun record => orOne record.version) _ _ key _ honly]
    exact if_pos ⟨record, hmem, hid⟩

/-- A batch does to the records what it does to the versions. -/
theorem chromaStep_at {batch : Batch K} (h : ChromaAt parseInt dimension entry versions)
    (hfine : Fine dimension versions batch) :
    ChromaAt parseInt dimension (chromaStep parseInt name entry batch)
      (applied dimension batch versions) := by
  have hpositive : Positive (applied dimension batch versions) := h.positive.applied batch
  cases batch with
  | add documents =>
    have hthere : getRecords (documents.map (·.id)) entry ≠ [] ↔
        ∃ doc ∈ documents, (versions doc.id).isSome = true := by
      rw [getRecords_ne_nil_iff, h.versions]
    by_cases hrejected : Rejected dimension versions (.add documents)
    · have hsame : chromaStep parseInt name entry (.add documents) = entry := by
        by_cases hlength : ∃ doc ∈ documents, doc.vector.length ≠ dimension
        · have hrun : ChromaStore.addDocuments parseInt name documents entry =
              (.error (.dimensionMismatch name), entry) := by
            rw [ChromaStore.addDocuments, Fallible.read_bind_apply, h.marked,
              Fallible.ofExcept_bind_of_ok rfl, validateDimension_eq, if_pos hlength,
              Fallible.ofExcept_bind_of_error rfl]
          rw [chromaStep, Batch.change, ChromaStore.change, Fallible.map_of_error _ hrun]
        · have hsome := hthere.mpr (hrejected.resolve_left hlength)
          have hne : documents ≠ [] := by
            rintro rfl
            exact hsome rfl
          have hrun : ChromaStore.addDocuments parseInt name documents entry =
              (.error (.alreadyExists name), entry) := by
            rw [ChromaStore.addDocuments, Fallible.read_bind_apply, h.marked,
              Fallible.ofExcept_bind_of_ok rfl, validateDimension_eq, if_neg hlength,
              Fallible.ofExcept_bind_of_ok rfl, if_neg hne, if_pos hsome]
            rfl
          rw [chromaStep, Batch.change, ChromaStore.change, Fallible.map_of_error _ hrun]
      rw [hsame, applied, if_pos hrejected]
      exact h
    · obtain ⟨hlength, hnone⟩ := not_or.mp hrejected
      obtain ⟨hnodup, -⟩ : (documents.map (·.id)).Nodup ∧ _ := hfine.resolve_left hrejected
      have hnew : ∀ doc ∈ documents, versions doc.id = none := fun doc hdoc =>
        Option.not_isSome_iff_eq_none.mp fun hsome => hnone ⟨doc, hdoc, hsome⟩
      have hstep : (chromaStep parseInt name entry (.add documents)).metadata = entry.metadata ∧
          (chromaStep parseInt name entry (.add documents)).records =
            entry.records ++ documents.map fun doc => recordOf doc (max 1 doc.version) := by
        by_cases hnil : documents = []
        · have hrun : ChromaStore.addDocuments parseInt name documents entry =
              (.ok [], entry) := by
            rw [ChromaStore.addDocuments, Fallible.read_bind_apply, h.marked,
              Fallible.ofExcept_bind_of_ok rfl, validateDimension_eq, if_neg hlength,
              Fallible.ofExcept_bind_of_ok rfl, if_pos hnil]
            rfl
          rw [chromaStep, Batch.change, ChromaStore.change, Fallible.map_of_ok _ hrun, hnil,
            List.map_nil, List.append_nil]
          exact ⟨rfl, rfl⟩
        · have hrun : ChromaStore.addDocuments parseInt name documents entry =
              (.ok (documents.map (·.id)), { entry with
                records := entry.records ++ documents.map fun doc =>
                  recordOf doc (max 1 doc.version) }) := by
            rw [ChromaStore.addDocuments, Fallible.read_bind_apply, h.marked,
              Fallible.ofExcept_bind_of_ok rfl, validateDimension_eq, if_neg hlength,
              Fallible.ofExcept_bind_of_ok rfl, if_neg hnil, if_neg (mt hthere.mp hnone)]
            rfl
          rw [chromaStep, Batch.change, ChromaStore.change, Fallible.map_of_ok _ hrun]
          exact ⟨rfl, rfl⟩
      refine ⟨by rw [hstep.1]; exact h.marked, hpositive, ?_⟩
      funext id
      have hold : (entry.records.find? (·.id = id)).map (·.version) = versions id :=
        congrFun h.versions id
      rw [applied, if_neg hrejected, Batch.documents, foldl_written_apply hnodup,
        chromaVersions, hstep.2, List.find?_append, Option.map_or, hold,
        find?_map_recordOf documents fun doc => max 1 doc.version]
      cases hfind : documents.find? (·.id = id) with
      | none => rw [Option.map_none, Option.map_none, Option.or_none, Option.none_or]
      | some doc =>
        have hid : doc.id = id := by simpa using List.find?_some hfind
        rw [← hid, hnew doc (List.mem_of_find?_eq_some hfind)]
        rfl
  | update documents =>
    by_cases hrejected : Rejected dimension versions (.update documents)
    · have hlength : ∃ doc ∈ documents, doc.vector.length ≠ dimension := hrejected
      have hrun : ChromaStore.updateDocuments parseInt name documents entry =
          (.error (.dimensionMismatch name), entry) := by
        rw [ChromaStore.updateDocuments, Fallible.read_bind_apply, h.marked,
          Fallible.ofExcept_bind_of_ok rfl, validateDimension_eq, if_pos hlength,
          Fallible.ofExcept_bind_of_error rfl]
      rw [applied, if_pos hrejected, chromaStep, Batch.change, ChromaStore.change,
        Fallible.map_of_error _ hrun]
      exact h
    · have hlength : ¬ ∃ doc ∈ documents, doc.vector.length ≠ dimension := hrejected
      obtain ⟨hnodup, -⟩ : (documents.map (·.id)).Nodup ∧ _ := hfine.resolve_left hrejected
      let version := fun doc : VectorDocument K => nextVersion (get? doc.id
        (ChromaStore.versions (getRecords (documents.map (·.id)) entry))) doc
      have hstep : (chromaStep parseInt name entry (.update documents)).metadata =
            entry.metadata ∧
          (chromaStep parseInt name entry (.update documents)).records =
            (documents.map fun doc => recordOf doc (version doc)).foldl upsertRecord
              entry.records := by
        by_cases hnil : documents = []
        · have hrun : ChromaStore.updateDocuments parseInt name documents entry =
              (.ok 0, entry) := by
            rw [ChromaStore.updateDocuments, Fallible.read_bind_apply, h.marked,
              Fallible.ofExcept_bind_of_ok rfl, validateDimension_eq, if_neg hlength,
              Fallible.ofExcept_bind_of_ok rfl, if_pos hnil]
            rfl
          rw [chromaStep, Batch.change, ChromaStore.change, Fallible.map_of_ok _ hrun, hnil]
          exact ⟨rfl, rfl⟩
        · have hrun : ChromaStore.updateDocuments parseInt name documents entry =
              (.ok documents.length, { entry with
                records := (documents.map fun doc => recordOf doc (version doc)).foldl
                  upsertRecord entry.records }) := by
            rw [ChromaStore.updateDocuments, Fallible.read_bind_apply, h.marked,
              Fallible.ofExcept_bind_of_ok rfl, validateDimension_eq, if_neg hlength,
              Fallible.ofExcept_bind_of_ok rfl, if_neg hnil]
            rfl
          rw [chromaStep, Batch.change, ChromaStore.change, Fallible.map_of_ok _ hrun]
          exact ⟨rfl, rfl⟩
      refine ⟨by rw [hstep.1]; exact h.marked, hpositive, ?_⟩
      funext id
      have hold : (entry.records.find? (·.id = id)).map (·.version) = versions id :=
        congrFun h.versions id
      have hids : ((documents.map fun doc => recordOf doc (version doc)).map (·.id)).Nodup := by
        rw [List.map_map]
        exact hnodup
      rw [applied, if_neg hrejected, Batch.documents, foldl_written_apply hnodup,
        chromaVersions, hstep.2, find?_foldl_upsertRecord hids, Option.map_or, hold,
        find?_map_recordOf]
      cases hfind : documents.find? (·.id = id) with
      | none => rfl
      | some doc =>
        have hid : doc.id = id := by simpa using List.find?_some hfind
        have hmem := List.mem_map_of_mem (f := fun doc : VectorDocument K => doc.id)
          (List.mem_of_find?_eq_some hfind)
        show some (nextVersion _ doc) = some (nextVersion _ doc)
        rw [h.readVersions hmem, ← hid]

end Chroma

/-! ## Runs -/

section Runs

/-- The versions after batches. -/
def expected (dimension : Nat) (batches : List (Batch K)) (versions : Versions) : Versions :=
  batches.foldl (fun versions batch => applied dimension batch versions) versions

/-- A batch as a step of the versions. -/
def versionStep (dimension : Nat) (batch : Batch K) (versions : Versions) : Option Versions :=
  some (applied dimension batch versions)

/-- A backend that follows the versions in each fine batch follows them in fine runs. -/
theorem at_foldl {σ : Type} {At : σ → Versions → Prop} {step : σ → Batch K → σ} {dimension : Nat}
    {batches : List (Batch K)} (hstep : ∀ s versions, ∀ batch ∈ batches, At s versions →
      Fine dimension versions batch → At (step s batch) (applied dimension batch versions))
    {s : σ} {versions : Versions} (hs : At s versions)
    (h : Runs.Meets (versionStep dimension) (Fine dimension) batches versions) :
    At (batches.foldl step s) (expected dimension batches versions) := by
  induction batches generalizing s versions with
  | nil => exact hs
  | cons batch rest ih =>
    obtain ⟨hfirst, hlater⟩ := h
    refine ih (fun s versions b hb => hstep s versions b (List.mem_cons_of_mem batch hb)) ?_
      (hlater _ rfl)
    exact hstep s versions batch List.mem_cons_self hs hfirst

/-- The database with a collection that was created. -/
def sqliteCreated (pair : Pair) (dimension : Nat) : SqliteStore.Database K where
  collections := [(pair, { dimension := dimension, metadata := [] })]

/-- A collection of Qdrant that was created. -/
def qdrantCreated (dimension : Nat) : QdrantStore.Entry K where
  size := dimension
  metadata := []

/-- A collection of Chroma that was created. -/
def chromaCreated (pair : Pair) (dimension : Nat) : ChromaStore.Entry K where
  metadata := ChromaStore.updated (ChromaStore.collectionMetadata pair.1 pair.2 dimension) []

theorem markerDimension_created (parseInt : Text → Option Int) (pair : Pair) (dimension : Nat) :
    ChromaStore.markerDimension parseInt (chromaCreated (K := K) pair dimension).metadata =
      .ok (dimension : Int) := by
  have hdimension : get? "dimension".toList (chromaCreated (K := K) pair dimension).metadata =
      some (.integer dimension) := rfl
  rw [ChromaStore.markerDimension, hdimension, Option.getD_some, ChromaStore.intOr]
  by_cases hzero : dimension = 0
  · rw [if_neg (by simp [ChromaStore.truthy, hzero]), hzero]
    rfl
  · rw [if_pos (by simpa [ChromaStore.truthy] using hzero)]

/-- The ids of the documents of batches. -/
def Used (batches : List (Batch K)) (id : Text) : Prop :=
  ∃ batch ∈ batches, ∃ doc ∈ batch.documents, doc.id = id

instance (batches : List (Batch K)) (id : Text) : Decidable (Used batches id) :=
  inferInstanceAs (Decidable (∃ batch ∈ batches, _))

/-- **Versions agree.**  If every batch is rejected, or names no document twice and stays within
64 bits, and the hashes of the ids that are used do not collide, the four backends have the
versions that the batches give. -/
theorem versions_agree [Field K] [LinearOrder K] (R : SquareRoot K) (uuid5 : QdrantStore.Uuid5)
    (parseInt : Text → Option Int) (pair : Pair) (dimension : Nat) {batches : List (Batch K)}
    (hinj : Collisionless uuid5 pair (Used batches))
    (h : Runs.Meets (versionStep dimension) (Fine dimension) batches fun _ => none)
    {id : Text} (hid : Used batches id) :
    let versions := expected dimension batches fun _ => none
    sqliteVersions pair (batches.foldl (sqliteStep pair) (sqliteCreated pair dimension)) id =
        versions id ∧
      faissVersions (batches.foldl (faissStep R pair.2)
        (FaissStore.created pair.1 pair.2 dimension [])) id = versions id ∧
      qdrantVersions uuid5 pair (batches.foldl (qdrantStep uuid5 pair)
        (qdrantCreated dimension)) id = versions id ∧
      chromaVersions (batches.foldl (chromaStep parseInt pair.2)
        (chromaCreated pair dimension)) id = versions id := by
  have hsqlite : SqliteAt pair dimension
      (batches.foldl (sqliteStep pair) (sqliteCreated pair dimension)) _ :=
    at_foldl (fun _ _ _ _ => sqliteStep_at)
      ⟨⟨{ dimension := dimension, metadata := [] }, if_pos rfl, rfl⟩, rfl⟩ h
  have hfaiss : FaissAt dimension (batches.foldl (faissStep R pair.2)
      (FaissStore.created pair.1 pair.2 dimension [])) _ :=
    at_foldl (fun _ _ _ _ => faissStep_at) ⟨rfl, rfl⟩ h
  have hqdrant : QdrantAt uuid5 pair (Used batches) dimension
      (batches.foldl (qdrantStep uuid5 pair) (qdrantCreated dimension)) _ :=
    at_foldl (fun _ _ batch hbatch hat => qdrantStep_at hat hinj fun doc hdoc =>
        ⟨batch, hbatch, doc, hdoc, rfl⟩)
      { size := rfl, named := fun _ _ hget => (by cases hget), versions := fun _ _ => rfl } h
  have hchroma : ChromaAt parseInt dimension
      (batches.foldl (chromaStep parseInt pair.2) (chromaCreated pair dimension)) _ :=
    at_foldl (fun _ _ _ _ => chromaStep_at)
      { marked := markerDimension_created parseInt pair dimension
        positive := fun _ _ hversion => (by cases hversion)
        versions := rfl } h
  exact ⟨congrFun hsqlite.2 id, congrFun hfaiss.2 id, hqdrant.versions id hid,
    congrFun hchroma.versions id⟩

end Runs

/-! ### Batches that name a document twice -/

/-- A document of one coordinate with a version. -/
def numbered (id : String) (version : Int) : VectorDocument ℝ where
  id := id.toList
  vector := [1]
  version := version

/-- Ids that are hashed to themselves do not collide. -/
theorem collisionless_id (pair : Pair) (U : Text → Prop) : Collisionless id pair U := by
  intro i j _ _ h
  have htail := List.append_cancel_left h
  exact (List.cons_eq_cons.mp htail).2

/-- Versions agree over several batches. -/
theorem versions_example :
    let batches := [Batch.add [numbered "a" 0, numbered "b" 5], .update [numbered "b" 1],
      .add [numbered "a" 9], .update [numbered "b" 1, numbered "c" 2]]
    sqliteVersions ("ns".toList, "docs".toList)
        (batches.foldl (sqliteStep ("ns".toList, "docs".toList))
          (sqliteCreated ("ns".toList, "docs".toList) 1)) "b".toList = some 7 ∧
      qdrantVersions id ("ns".toList, "docs".toList)
        (batches.foldl (qdrantStep id ("ns".toList, "docs".toList)) (qdrantCreated 1))
          "b".toList = some 7 := by
  intro batches
  have hfine : Runs.Meets (versionStep 1) (Fine 1) batches fun _ => none := by decide
  have hused : Used batches "b".toList := by decide
  have hexpected : expected 1 batches (fun _ => none) "b".toList = some 7 := by rfl
  obtain ⟨hsqlite, -, hqdrant, -⟩ := versions_agree FaissStore.realRoot id (fun _ => none)
    ("ns".toList, "docs".toList) 1 (collisionless_id _ _) hfine hused
  exact ⟨hsqlite.trans hexpected, hqdrant.trans hexpected⟩

/-- Qdrant reads all versions before it writes: two occurrences in one batch count once. -/
theorem repeated_id_updated :
    ¬ ∀ (batches : List (Batch ℝ)) (id : Text), Used batches id →
      sqliteVersions ([], []) (batches.foldl (sqliteStep ([], [])) (sqliteCreated ([], []) 1)) id =
        qdrantVersions (fun name => name) ([], [])
          (batches.foldl (qdrantStep (fun name => name) ([], [])) (qdrantCreated 1)) id := by
  intro h
  have hsame := h [.add [numbered "a" 1], .update [numbered "a" 1, numbered "a" 1]] "a".toList
    (by decide)
  revert hsame
  decide

end OpenWrtCopilot.Ports.VectorVersions
