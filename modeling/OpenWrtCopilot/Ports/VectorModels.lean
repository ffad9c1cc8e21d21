import Mathlib.Algebra.Order.BigOperators.Ring.Finset
import Mathlib.Algebra.Order.Field.Basic
import Mathlib.Tactic.Linarith
import Mathlib.Tactic.Ring
import OpenWrtCopilot.Verified.PyDict
import OpenWrtCopilot.Verified.PySub

/-!
# Documents, filters and scores of vector stores

Ports the data model that the vector store backends share, with the metadata filters and the
cosine similarity.  Coordinates are elements of an ordered field, whose square root is given by
its law: what holds here holds of floating point numbers up to rounding.
-/

namespace OpenWrtCopilot.Ports.VectorStore

open Verified
open Verified.PyDict (Dict get?)
open Verified.PyText

/-! ## Metadata -/

/-- A value in metadata or in a filter; a number that is no integer is a float. -/
inductive Value
  | null
  | bool (b : Bool)
  | integer (n : Int)
  | number (n : ℚ)
  | text (t : Text)
  | list (items : List Value)
  | object (entries : List (Text × Value))

/-- The number that a value is compared as. -/
def Value.number? : Value → Option ℚ
  | .bool b => some (if b then 1 else 0)
  | .integer n => some n
  | .number n => some n
  | _ => none

mutual

/-- `a == b`. -/
def Value.same : Value → Value → Bool
  | .null, .null => true
  | .text s, .text t => s = t
  | .list xs, .list ys => sameItems xs ys
  | .object xs, .object ys => xs.length = ys.length && sameEntries xs ys
  | .bool a, b => b.number? = some (if a then 1 else 0)
  | .integer m, b => b.number? = some (m : ℚ)
  | .number m, b => b.number? = some m
  | _, _ => false

def sameItems : List Value → List Value → Bool
  | [], [] => true
  | x :: xs, y :: ys => x.same y && sameItems xs ys
  | _, _ => false

/-- Every entry is one of the others, whatever their order. -/
def sameEntries : List (Text × Value) → List (Text × Value) → Bool
  | [], _ => true
  | (key, x) :: xs, ys =>
      (match get? key ys with
        | some y => x.same y
        | none => false) && sameEntries xs ys

end

/-- `VectorMetadata`. -/
abbrev VectorMetadata := Dict Text Value

/-- `FilterOperator`. -/
inductive FilterOperator
  | eq
  | ne
  | gt
  | gte
  | lt
  | lte
  | isIn
  | notIn
  | contains
  deriving DecidableEq

structure MetadataFilter where
  field : Text
  op : FilterOperator := .eq
  value : Value := .null

/-- A comparison, which raises if a number is compared with something else. -/
def compared (value expected : Value) (compare : ℚ → ℚ → Bool) : Option Bool :=
  match value.number? with
  | none => some false
  | some n => expected.number?.map (compare n)

/-- `_matches_clause`; `none` is a `TypeError`. -/
def matchesClause (metadata : VectorMetadata) (clause : MetadataFilter) : Option Bool :=
  let value := (get? clause.field metadata).getD .null
  match clause.op, clause.value with
  | .eq, expected => some (value.same expected)
  | .ne, expected => some !(value.same expected)
  | .gt, expected => compared value expected fun m n => n < m
  | .gte, expected => compared value expected fun m n => n ≤ m
  | .lt, expected => compared value expected fun m n => m < n
  | .lte, expected => compared value expected fun m n => m ≤ n
  | .isIn, .list items => some (items.any value.same)
  | .isIn, _ => some false
  | .notIn, .list items => some !(items.any value.same)
  | .notIn, _ => some false
  | .contains, expected =>
      match value, expected with
      | .text t, .text part => some (PySub.find part t).isSome
      | _, _ => some false

/-- `matches`: clauses after one that fails are not read. -/
def matchesFilters (metadata : VectorMetadata) : List MetadataFilter → Option Bool
  | [] => some true
  | clause :: rest =>
      match matchesClause metadata clause with
      | none => none
      | some false => some false
      | some true => matchesFilters metadata rest

/-! ## Documents and requests -/

/-- `VectorDocument`. -/
structure VectorDocument (K : Type) where
  id : Text
  vector : List K
  text : Text := []
  metadata : VectorMetadata := []
  version : Int := 1

/-- `SearchRequest`. -/
structure SearchRequest (K : Type) where
  queryVector : List K
  topK : Int := 10
  filters : List MetadataFilter := []
  offset : Int := 0
  limit : Option Int := none
  includeVectors : Bool := false

/-- `SearchResult`. -/
structure SearchResult (K : Type) where
  id : Text
  score : K
  text : Text
  metadata : VectorMetadata
  vector : List K
  version : Int

/-- `CollectionInfo`, as far as the backends store it. -/
structure CollectionInfo where
  name : Text
  namespaceName : Text
  dimension : Int
  metadata : VectorMetadata
  documentCount : Nat

/-- A call that changes the documents of a collection. -/
inductive Change (K : Type)
  | addDocuments (documents : List (VectorDocument K))
  | updateDocuments (documents : List (VectorDocument K))
  | deleteDocuments (ids : List Text)
  | setMetadata (id : Text) (metadata : VectorMetadata)

/-- An operation on a collection. -/
inductive Operation (K : Type)
  | createCollection (dimension : Nat) (metadata : VectorMetadata)
  | deleteCollection
  | collectionInfo
  | stats
  | change (change : Change K)
  | getDocuments (ids : List Text)
  | search (request : SearchRequest K)
  | filterDocuments (filters : List MetadataFilter) (offset : Int) (limit : Option Int)
  | getMetadata (id : Text)

/-- What an operation returns. -/
inductive Answer (K : Type)
  | nothing
  | info (info : Option CollectionInfo)
  | stats (documentCount : Nat) (dimension maxVersion : Int)
  | ids (ids : List Text)
  | count (n : Nat)
  | documents (documents : List (VectorDocument K))
  | results (results : List (SearchResult K))
  | metadata (metadata : VectorMetadata)

/-- Whether an operation created or deleted its collection, by its answer. -/
def effect {K ε : Type} : Operation K → Except ε (Answer K) → Option Bool
  | .createCollection _ _, .ok _ => some true
  | .deleteCollection, .ok _ => some false
  | _, _ => none

/-- The namespace and the name that a collection is called by. -/
abbrev Pair := Text × Text

/-- `config.default_namespace or DEFAULT_NAMESPACE`. -/
def defaultNamespace (configured : Text) : Text :=
  if configured = [] then "default".toList else configured

/-- `namespace or self.default_namespace`. -/
def effective (defaultNamespace namespaceName : Text) : Text :=
  if namespaceName = [] then defaultNamespace else namespaceName

/-- The errors of `vectorstore.errors`, with what their messages name, and those of Python and of
its libraries that the backends let through. -/
inductive VectorStoreError
  | collectionExists (namespaceName name : Text)
  | collectionNotFound (namespaceName name : Text)
  | dimensionMismatch (name : Text)
  | documentNotFound (id name : Text)
  | documentMissing (id name : Text)
  | alreadyExists (name : Text)
  | connectionError
  | overflowError
  | typeError
  | valueError
  | keyError
  | writeError
  deriving DecidableEq

/-- `results[start : start + max(0, limit)]`, or the results from the start. -/
def page {α : Type} (offset : Int) (limit : Option Int) (results : List α) : List α :=
  let start := (max 0 offset).toNat
  match limit with
  | some limit => (results.take (start + (max 0 limit).toNat)).drop start
  | none => results.drop start

/-- `infos.sort(key=lambda entry: (entry.namespace, entry.name))`. -/
def sortInfos (infos : List CollectionInfo) : List CollectionInfo :=
  infos.mergeSort fun a b =>
    a.namespaceName < b.namespaceName ∨ (a.namespaceName = b.namespaceName ∧ a.name ≤ b.name)

/-- `version or 1`. -/
def orOne (version : Int) : Int := if version = 0 then 1 else version

/-- The version of a document that is written, where the stored one has the version given. -/
def nextVersion {K : Type} (existing : Option Int) (doc : VectorDocument K) : Int :=
  existing.elim (max 1 doc.version) (· + 1)

/-- Results with the best score first. -/
def sortResults {K : Type} [LinearOrder K] (results : List (SearchResult K)) :
    List (SearchResult K) :=
  results.mergeSort fun a b => b.score ≤ a.score

/-- A clause that raises ends the loop over the documents. -/
def keepMatching (metadata : VectorMetadata) (filters : List MetadataFilter) :
    Except VectorStoreError Bool :=
  match matchesFilters metadata filters with
  | some keep => .ok keep
  | none => .error .typeError

/-- A loop that never raises. -/
theorem filterMapM_ok {α β ε : Type} {f : α → Except ε (Option β)} {items : List α}
    (h : ∀ item ∈ items, ∃ result, f item = .ok result) :
    items.filterMapM f = .ok (items.filterMap fun item => (f item).toOption.join) := by
  induction items with
  | nil => rfl
  | cons item items ih =>
    have hrest := ih fun other hother => h other (List.mem_cons_of_mem item hother)
    obtain ⟨result, hresult⟩ := h item List.mem_cons_self
    rw [List.filterMapM_cons, hresult, hrest]
    cases result with
    | none => rw [List.filterMap_cons_none (by rw [hresult]; rfl)]; rfl
    | some b => rw [List.filterMap_cons_some (by rw [hresult]; rfl)]; rfl

/-- `_validate_dimension`. -/
def validateDimension {K : Type} (name : Text) (dimension : Int)
    (documents : List (VectorDocument K)) : Except VectorStoreError Unit :=
  if documents.all (·.vector.length = dimension) = true then .ok ()
  else .error (.dimensionMismatch name)

/-! ## Physical names -/

/-- The characters that `_SAFE` does not replace. -/
def isSafe (c : Char) : Bool :=
  ('a' ≤ c ∧ c ≤ 'z') ∨ ('A' ≤ c ∧ c ≤ 'Z') ∨ ('0' ≤ c ∧ c ≤ '9') ∨ c = '.' ∨ c = '_' ∨ c = '-'

/-- `_SAFE.sub("_", t)`. -/
def sanitize (t : Text) : Text := t.map fun c => if isSafe c = true then c else '_'

/-- `_qname`, which the backends define alike. -/
def qname (namespaceName name : Text) : Text :=
  sanitize namespaceName ++ "__".toList ++ sanitize name

/-- `qn.rsplit("__", 1)`, if the separator is in the name. -/
def rsplit (qn : Text) : Option (Text × Text) :=
  (PySub.find "__".toList qn.reverse).map fun i =>
    ((qn.reverse.drop (i + 2)).reverse, (qn.reverse.take i).reverse)

/-! ## Scores -/

/-- A square root. -/
structure SquareRoot (K : Type) [Field K] [LinearOrder K] where
  root : K → K
  nonneg : ∀ x, 0 ≤ x → 0 ≤ root x
  mul_self : ∀ x, 0 ≤ x → root x * root x = x

section Score

variable {K : Type} [Field K] [LinearOrder K]

/-- The inner product. -/
def inner (left right : List K) : K := (List.zipWith (· * ·) left right).sum

/-- `cosine_similarity`. -/
def cosineSimilarity (R : SquareRoot K) (left right : List K) : K :=
  if left = [] ∨ right = [] ∨ left.length ≠ right.length then 0
  else if inner left left = 0 ∨ inner right right = 0 then 0
  else inner left right / R.root (inner left left * inner right right)

/-- `_normalize`. -/
def normalize (R : SquareRoot K) (vector : List K) : List K :=
  let norm := R.root (inner vector vector)
  if norm = 0 then vector else vector.map (· / norm)

/-- `max(-1.0, min(1.0, score))`. -/
def clamp (score : K) : K := max (-1) (min 1 score)

/-! ### Inner products -/

variable [IsStrictOrderedRing K]

end Score

end OpenWrtCopilot.Ports.VectorStore
