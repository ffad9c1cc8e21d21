import Mathlib.Data.List.Forall2
import OpenWrtCopilot.Ports.ChromaStore
import OpenWrtCopilot.Verified.PyFloat
import OpenWrtCopilot.Verified.Ranking
import OpenWrtCopilot.Verified.Selection
import OpenWrtCopilot.Verified.Successes

/-!
# The retriever

Ports `VectorRetriever`.  The results of each collection are scored between zero and one and
weighted; for each id the best one is kept, of those with the same text the first by score, and of
their chunks, with rounded scores, those that pass the threshold, up to a number.  Scores are exact
rational numbers.

## Main results

* `selected_of_select` — what is returned, and why a candidate is not.
* `retrieve_iff` — when the retriever returns the best chunks.
* `repeated_text_returned` — a retriever that keeps chunks with the same text.
-/

namespace OpenWrtCopilot.Ports.RagRetriever

open Verified
open Verified.PyDict (Dict get?)
open Verified.PyText
open Verified.Ranking
open Verified.Selection
open Ports.ChromaStore (truthy)
open Ports.VectorStore (SearchResult Value VectorMetadata)

/-! ## Models -/

/-- `RetrievedChunk`. -/
structure RetrievedChunk where
  id : Text
  documentId : Text
  index : Int
  text : Text
  heading : Text := []
  score : ℚ := 0
  metadata : VectorMetadata := []
  rank : Option Nat := none

/-- `CollectionRef`. -/
structure CollectionRef where
  name : Text := "documents".toList
  namespaceName : Text := "default".toList
  weight : ℚ := 1

/-- What a search can fail with; the last one is that of `RetrievedChunk`. -/
inductive RetrieveError
  | retriever
  | embedding
  | collection
  | validation
  deriving DecidableEq

/-- `VectorRetriever`, with the embedder, the search in a collection, `str.casefold` and the digest;
a search has its filters and its namespace. -/
structure VectorRetriever where
  collections : List CollectionRef
  defaultTopK : Int := 8
  scoreThreshold : Option ℚ := none
  deduplicateByText : Bool := true
  embed : Text → Except RetrieveError (List ℚ)
  search : CollectionRef → List ℚ → Int → Except RetrieveError (List (SearchResult ℚ))
  casefold : Text → Text
  sha256 : Text → Text

/-- A result with its score. -/
abbrev Candidate := SearchResult ℚ × ℚ

/-- The collections with their results. -/
abbrev Searched := List (CollectionRef × List (SearchResult ℚ))

/-! ## Scores -/

/-- `_normalize_scores`. -/
def normalizeScores (scores : List ℚ) : List ℚ :=
  match scores with
  | [] => []
  | first :: rest =>
      let low := rest.foldl min first
      let high := rest.foldl max first
      if high = low then scores.map fun _ => 1
      else scores.map fun score => (score - low) / (high - low)

/-- `round(score, 6)`. -/
def roundScore (score : ℚ) : ℚ := PyFloat.roundHalfEven (score * 10 ^ 6) / 10 ^ 6

/-! ## Chunks -/

/-- `RetrievedChunk.parse_id`. -/
def parseId (id : Text) : Option (Text × Int) :=
  if '#' ∈ id then
    let rawIndex := (id.reverse.takeWhile (· ≠ '#')).reverse
    (pyInt rawIndex).map fun index => (id.take (id.length - rawIndex.length - 1), index)
  else none

/-- `isinstance(value, int)`. -/
def intOf : Value → Option Int
  | .integer n => some n
  | .bool b => some (if b then 1 else 0)
  | _ => none

/-- A text, as `RetrievedChunk` has it. -/
def requireText : Value → Except RetrieveError Text
  | .text t => .ok t
  | _ => .error .validation

/-- `_document_identity`. -/
def documentIdentity (id : Text) (metadata : VectorMetadata) : Except RetrieveError (Text × Int) :=
  let documentId := (get? "document_id".toList metadata).getD (.text [])
  match truthy documentId, (get? "index".toList metadata).bind intOf with
  | true, some index => (requireText documentId).map fun documentId => (documentId, index)
  | _, _ => .ok ((parseId id).getD (id, 0))

/-- `_METADATA_KEYS`. -/
def metadataKeys : List Text :=
  ["document_id".toList, "index".toList, "heading".toList, "title".toList, "source".toList,
    "reference".toList, "format".toList, "language".toList, "checksum".toList, "version".toList]

def isNull : Value → Bool
  | .null => true
  | _ => false

/-- `_to_chunk`. -/
def toChunk (candidate : Candidate) : Except RetrieveError RetrievedChunk := do
  let metadata := candidate.1.metadata
  let (documentId, index) ← documentIdentity candidate.1.id metadata
  let heading ← requireText ((get? "heading".toList metadata).getD (.text []))
  return {
    id := candidate.1.id
    documentId := documentId
    index := index
    text := candidate.1.text
    heading := heading
    score := roundScore candidate.2
    metadata := metadata.filter fun entry => entry.1 ∈ metadataKeys ∧ isNull entry.2 = false }

/-- The chunks get their ranks. -/
def number (chunks : List RetrievedChunk) : List RetrievedChunk :=
  chunks.mapIdx fun i chunk => { chunk with rank := some (i + 1) }

/-! ## Retrieval -/

namespace VectorRetriever

variable (r : VectorRetriever)

/-- What `_text_key` digests. -/
def canonical (text : Text) : Text := r.casefold (join [' '] (words text))

/-- `_text_key`. -/
def textKey (text : Text) : Text := r.sha256 (r.canonical text)

/-- The results of all collections, with their weighted scores. -/
def candidates (searched : Searched) : List Candidate :=
  searched.flatMap fun (collection, results) =>
    (results.zip (normalizeScores (results.map (·.score)))).map fun (result, normalized) =>
      (result, normalized * collection.weight)

/-- `_merge`. -/
def merge (searched : Searched) : List Candidate :=
  (keepBest (fun candidate : Candidate => candidate.1.id) Prod.snd (candidates searched)).map
    Prod.snd

/-- `_dedupe`. -/
def dedupe (merged : List Candidate) : List Candidate :=
  if r.deduplicateByText = true then
    firstBy (fun candidate : Candidate => r.textKey candidate.1.text) [] (rank Prod.snd merged)
  else merged

/-- `_passes_threshold`. -/
def passesThreshold (score : ℚ) : Bool :=
  match r.scoreThreshold with
  | none => true
  | some threshold => threshold ≤ score

/-- What becomes of the results. -/
def select (k : Nat) (searched : Searched) : Except RetrieveError (List RetrievedChunk) := do
  let chunks ← (r.dedupe (merge searched)).mapM toChunk
  let chunks := chunks.filter fun chunk => r.passesThreshold chunk.score
  return number ((rank RetrievedChunk.score chunks).take k)

/-- `max(1, top_k or self.default_top_k)`. -/
def limit (topK : Option Int) : Nat :=
  let chosen :=
    match topK with
    | some k => if k = 0 then max 1 r.defaultTopK else k
    | none => max 1 r.defaultTopK
  (max 1 chosen).toNat

/-- `_search_all`. -/
def searchAll (query : Text) (k : Nat) : Except RetrieveError Searched := do
  let vector ← r.embed query
  r.collections.mapM fun collection =>
    (r.search collection vector (max k (k * r.collections.length))).map fun results =>
      (collection, results)

/-- `retrieve`. -/
def retrieve (query : Text) (topK : Option Int) : Except RetrieveError (List RetrievedChunk) :=
  if strip query = [] then .error .retriever
  else do
    let searched ← r.searchAll query (r.limit topK)
    r.select (r.limit topK) searched

end VectorRetriever

/-! ## What is returned -/

open VectorRetriever

/-- The heading and the document id are texts, where a chunk takes them. -/
structure Charted (result : SearchResult ℚ) : Prop where
  heading : ∀ value, get? "heading".toList result.metadata = some value → ∃ t, value = .text t
  documentId : ∀ value, get? "document_id".toList result.metadata = some value →
    truthy value = true → ((get? "index".toList result.metadata).bind intOf).isSome = true →
      ∃ t, value = .text t

/-- A candidate is among the chunks. -/
def Returned (candidate : Candidate) (chunks : List RetrievedChunk) : Prop :=
  ∃ chunk ∈ chunks, toChunk candidate = .ok { chunk with rank := none }

/-- Why a candidate is not returned: its score is too low, a chunk with its text or another result
with its id is as good, or so are all chunks that are returned, and there is no place left. -/
def Omitted (r : VectorRetriever) (k : Nat) (searched : Searched) (chunks : List RetrievedChunk)
    (candidate : Candidate) : Prop :=
  r.passesThreshold (roundScore candidate.2) = false ∨
    (r.deduplicateByText = true ∧ ∃ other ∈ candidates searched, other.1.id ≠ candidate.1.id ∧
      r.textKey other.1.text = r.textKey candidate.1.text ∧ candidate.2 ≤ other.2) ∨
    (∃ other ∈ candidates searched, other ≠ candidate ∧ other.1.id = candidate.1.id ∧
      candidate.2 ≤ other.2) ∨
    (chunks.length = k ∧ ∀ chunk ∈ chunks, roundScore candidate.2 ≤ chunk.score)

/-- The chunks are the best of the candidates, up to a number. -/
structure Selected (r : VectorRetriever) (k : Nat) (searched : Searched)
    (chunks : List RetrievedChunk) : Prop where
  length_le : chunks.length ≤ k
  ids : (chunks.map (·.id)).Nodup
  texts : r.deduplicateByText = true → (chunks.map fun chunk => r.canonical chunk.text).Nodup
  order : chunks.Pairwise fun a b => b.score ≤ a.score
  ranks : chunks.map (·.rank) = (List.range chunks.length).map fun i => some (i + 1)
  passes : ∀ chunk ∈ chunks, r.passesThreshold chunk.score = true
  sound : ∀ chunk ∈ chunks, ∃ candidate ∈ candidates searched,
    toChunk candidate = .ok { chunk with rank := none }
  complete : ∀ candidate ∈ candidates searched,
    Returned candidate chunks ∨ Omitted r k searched chunks candidate

/-! ## Scores and ranks -/

theorem length_number (chunks : List RetrievedChunk) : (number chunks).length = chunks.length :=
  List.length_mapIdx

/-- A number changes nothing but the rank. -/
theorem map_number {β : Type} {f : RetrievedChunk → β}
    (hf : ∀ (chunk : RetrievedChunk) (rank : Option Nat), f { chunk with rank := rank } = f chunk)
    (chunks : List RetrievedChunk) : (number chunks).map f = chunks.map f := by
  refine List.ext_getElem ?_ fun i h h' => ?_
  · rw [List.length_map, List.length_map, length_number]
  · simp only [number, List.getElem_map, List.getElem_mapIdx]
    exact hf _ _

theorem exists_of_mem_number {chunks : List RetrievedChunk} {chunk : RetrievedChunk}
    (h : chunk ∈ number chunks) :
    ∃ origin ∈ chunks, ∃ rank, chunk = { origin with rank := rank } := by
  obtain ⟨i, hi, rfl⟩ := List.mem_mapIdx.mp h
  exact ⟨chunks[i], List.getElem_mem hi, _, rfl⟩

theorem exists_mem_number {chunks : List RetrievedChunk} {chunk : RetrievedChunk}
    (h : chunk ∈ chunks) : ∃ rank, { chunk with rank := rank } ∈ number chunks := by
  obtain ⟨i, hi, rfl⟩ := List.getElem_of_mem h
  exact ⟨some (i + 1), List.mem_mapIdx.mpr ⟨i, hi, rfl⟩⟩

theorem ranks_number (chunks : List RetrievedChunk) :
    (number chunks).map (·.rank) = (List.range chunks.length).map fun i => some (i + 1) := by
  refine List.ext_getElem ?_ fun i h h' => ?_
  · rw [List.length_map, List.length_map, List.length_range, length_number]
  · simp only [number, List.getElem_map, List.getElem_mapIdx, List.getElem_range]

/-! ## Chunks of results -/

theorem requireText_eq_ok_iff {value : Value} {t : Text} :
    requireText value = .ok t ↔ value = .text t := by
  cases value <;> simp [requireText]

theorem toChunk_eq_ok_iff {candidate : Candidate} {chunk : RetrievedChunk} :
    toChunk candidate = .ok chunk ↔ ∃ identity heading,
      documentIdentity candidate.1.id candidate.1.metadata = .ok identity ∧
        requireText ((get? "heading".toList candidate.1.metadata).getD (.text [])) = .ok heading ∧
          chunk =
            { id := candidate.1.id, documentId := identity.1, index := identity.2,
              text := candidate.1.text, heading := heading, score := roundScore candidate.2,
              metadata := candidate.1.metadata.filter fun entry =>
                entry.1 ∈ metadataKeys ∧ isNull entry.2 = false } := by
  rw [toChunk]
  cases hidentity : documentIdentity candidate.1.id candidate.1.metadata with
  | error e => exact ⟨nofun, fun ⟨_, _, h, _⟩ => nomatch h⟩
  | ok identity =>
    cases hheading :
        requireText ((get? "heading".toList candidate.1.metadata).getD (.text [])) with
    | error e =>
      simp only [bind, Except.bind]
      exact ⟨nofun, fun ⟨_, _, _, h, _⟩ => nomatch h⟩
    | ok heading =>
      simp only [bind, Except.bind, pure, Except.pure, Except.ok.injEq]
      constructor
      · rintro rfl
        exact ⟨identity, heading, rfl, rfl, rfl⟩
      · rintro ⟨_, _, rfl, rfl, rfl⟩
        rfl

/-- A result makes a chunk unless its heading or its document id is no text. -/
theorem toChunk_iff (candidate : Candidate) :
    Succeeds (toChunk candidate) ↔ Charted candidate.1 := by
  constructor
  · rintro ⟨chunk, h⟩
    obtain ⟨identity, heading, hidentity, hheading, -⟩ := toChunk_eq_ok_iff.mp h
    refine ⟨fun value hvalue => ?_, fun value hvalue htruthy hindex => ?_⟩
    · rw [hvalue, Option.getD_some] at hheading
      exact ⟨heading, requireText_eq_ok_iff.mp hheading⟩
    · obtain ⟨index, hindex⟩ := Option.isSome_iff_exists.mp hindex
      rw [documentIdentity, hvalue, hindex, Option.getD_some] at hidentity
      simp only [htruthy] at hidentity
      cases htext : requireText value with
      | error e =>
        rw [htext] at hidentity
        cases hidentity
      | ok t => exact ⟨t, requireText_eq_ok_iff.mp htext⟩
  · intro h
    have hheading : ∃ heading,
        requireText ((get? "heading".toList candidate.1.metadata).getD (.text [])) =
          .ok heading := by
      cases hget : get? "heading".toList candidate.1.metadata with
      | none => exact ⟨[], rfl⟩
      | some value =>
        obtain ⟨t, rfl⟩ := h.heading value hget
        exact ⟨t, rfl⟩
    have hidentity : ∃ identity,
        documentIdentity candidate.1.id candidate.1.metadata = .ok identity := by
      rw [documentIdentity]
      split
      · next htruthy hindex =>
          cases hget : get? "document_id".toList candidate.1.metadata with
          | none =>
            rw [hget] at htruthy
            cases htruthy
          | some value =>
            rw [hget] at htruthy
            obtain ⟨t, rfl⟩ := h.documentId value hget htruthy (by rw [hindex]; rfl)
            exact ⟨_, rfl⟩
      · exact ⟨_, rfl⟩
    obtain ⟨heading, hheading⟩ := hheading
    obtain ⟨identity, hidentity⟩ := hidentity
    exact ⟨_, toChunk_eq_ok_iff.mpr ⟨identity, heading, hidentity, hheading, rfl⟩⟩

/-! ## The merged candidates -/

theorem ids_merge (searched : Searched) :
    (merge searched).map (·.1.id) =
      PyDict.keys (keepBest (fun candidate : Candidate => candidate.1.id) Prod.snd
        (candidates searched)) := by
  rw [merge, List.map_map]
  exact List.map_congr_left fun entry hentry => (mem_keepBest _ _ hentry).2

theorem nodup_merge (searched : Searched) : ((merge searched).map (·.1.id)).Nodup :=
  ids_merge searched ▸ nodup_keys_keepBest _ _ _

theorem mem_candidates_of_mem_merge {searched : Searched} {candidate : Candidate}
    (h : candidate ∈ merge searched) : candidate ∈ candidates searched := by
  obtain ⟨entry, hentry, rfl⟩ := List.mem_map.mp h
  exact (mem_keepBest _ _ hentry).1

theorem exists_merged {searched : Searched} {candidate : Candidate}
    (h : candidate ∈ candidates searched) :
    ∃ best ∈ merge searched, best.1.id = candidate.1.id ∧ candidate.2 ≤ best.2 := by
  obtain ⟨best, hbest, hle⟩ := exists_best (fun candidate : Candidate => candidate.1.id) Prod.snd h
  exact ⟨best, List.mem_map_of_mem hbest, (mem_keepBest _ _ hbest).2, hle⟩

section Dedupe

variable (r : VectorRetriever)

theorem dedupe_subperm (merged : List Candidate) : (r.dedupe merged).Subperm merged := by
  rw [dedupe]
  split
  · exact (firstBy_sublist _ _ _).subperm.trans (rank_perm _ _).subperm
  · exact List.Subperm.refl _

theorem textKeys_dedupe (h : r.deduplicateByText = true) (merged : List Candidate) :
    ((r.dedupe merged).map fun candidate => r.textKey candidate.1.text).Nodup := by
  rw [dedupe, if_pos h]
  exact nodup_firstBy _ _ _

/-- A candidate goes where another one with its text is as good. -/
theorem exists_deduped {merged : List Candidate} {candidate : Candidate} (h : candidate ∈ merged)
    (hnot : candidate ∉ r.dedupe merged) :
    r.deduplicateByText = true ∧ ∃ other ∈ r.dedupe merged,
      r.textKey other.1.text = r.textKey candidate.1.text ∧ candidate.2 ≤ other.2 := by
  rw [dedupe] at hnot ⊢
  by_cases hflag : r.deduplicateByText = true
  · rw [if_pos hflag] at hnot ⊢
    exact ⟨hflag, exists_first _ (pairwise_rank Prod.snd merged) ((rank_perm _ _).mem_iff.mpr h)
      hnot (List.not_mem_nil)⟩
  · rw [if_neg hflag] at hnot
    exact absurd h hnot

end Dedupe

/-! ## The selected chunks -/

section Select

variable {r : VectorRetriever} {k : Nat} {searched : Searched}

theorem select_eq_ok_iff {chunks : List RetrievedChunk} :
    r.select k searched = .ok chunks ↔
      ∃ all, (r.dedupe (merge searched)).mapM toChunk = .ok all ∧
        chunks = number ((rank RetrievedChunk.score
          (all.filter fun chunk => r.passesThreshold chunk.score)).take k) := by
  rw [select]
  cases hall : (r.dedupe (merge searched)).mapM toChunk with
  | error e => exact ⟨nofun, fun ⟨_, h, _⟩ => nomatch h⟩
  | ok all => exact ⟨fun h => ⟨all, rfl, (Except.ok.inj h).symm⟩,
      fun ⟨_, h, hchunks⟩ => by cases h; exact congrArg Except.ok hchunks.symm⟩

theorem toChunk_fields {candidate : Candidate} {chunk : RetrievedChunk}
    (h : toChunk candidate = .ok chunk) :
    chunk.id = candidate.1.id ∧ chunk.text = candidate.1.text ∧
      chunk.score = roundScore candidate.2 ∧ chunk.rank = none := by
  obtain ⟨identity, heading, -, -, rfl⟩ := toChunk_eq_ok_iff.mp h
  exact ⟨rfl, rfl, rfl, rfl⟩

/-- **The chunks that are selected are the best ones.** -/
theorem selected_of_select {chunks : List RetrievedChunk} (h : r.select k searched = .ok chunks) :
    Selected r k searched chunks := by
  obtain ⟨all, hall, rfl⟩ := select_eq_ok_iff.mp h
  have horder := pairwise_rank RetrievedChunk.score
    (all.filter fun chunk => r.passesThreshold chunk.score)
  have hperm := rank_perm RetrievedChunk.score
    (all.filter fun chunk => r.passesThreshold chunk.score)
  revert horder hperm
  generalize rank RetrievedChunk.score (all.filter fun chunk => r.passesThreshold chunk.score) =
    ranked
  intro horder hperm
  have hsubperm : (ranked.take k).Subperm all :=
    ((List.take_sublist _ _).subperm.trans hperm.subperm).trans List.filter_sublist.subperm
  have hranked : ∀ chunk ∈ ranked, (∃ candidate ∈ r.dedupe (merge searched),
      toChunk candidate = .ok chunk) ∧ r.passesThreshold chunk.score = true := fun chunk hchunk =>
    have hkept := List.mem_filter.mp (hperm.mem_iff.mp hchunk)
    ⟨exists_of_mapM_ok hall hkept.1, hkept.2⟩
  have hcandidate : ∀ candidate ∈ r.dedupe (merge searched), candidate ∈ candidates searched :=
    fun candidate hcandidate =>
      mem_candidates_of_mem_merge ((dedupe_subperm r _).subset hcandidate)
  have hnumber : ∀ chunk ∈ number (ranked.take k),
      { chunk with rank := none } ∈ ranked.take k := by
    intro chunk hchunk
    obtain ⟨origin, horigin, rank, rfl⟩ := exists_of_mem_number hchunk
    obtain ⟨candidate, -, hto⟩ := (hranked origin (List.mem_of_mem_take horigin)).1
    have hnone := (toChunk_fields hto).2.2.2
    cases origin
    cases hnone
    exact horigin
  constructor
  case length_le =>
    rw [length_number, List.length_take]
    exact Nat.min_le_left _ _
  case ids =>
    have hids := map_of_mapM_ok (p := fun candidate : Candidate => candidate.1.id)
      (q := RetrievedChunk.id) (fun a b hto => (toChunk_fields hto).1) hall
    have hall := nodup_map_of_subperm (dedupe_subperm r _) (nodup_merge searched)
    rw [← hids] at hall
    rw [map_number (f := RetrievedChunk.id) fun _ _ => rfl]
    exact nodup_map_of_subperm hsubperm hall
  case texts =>
    intro hflag
    have hkeys := map_of_mapM_ok (p := fun candidate : Candidate => r.textKey candidate.1.text)
      (q := fun chunk => r.textKey chunk.text)
      (fun a b hto => congrArg r.textKey (toChunk_fields hto).2.1) hall
    have hall := textKeys_dedupe r hflag (merge searched)
    rw [← hkeys] at hall
    have hnodup := nodup_map_of_subperm hsubperm hall
    rw [← map_number (f := fun chunk => r.textKey chunk.text) fun _ _ => rfl] at hnodup
    refine List.Nodup.of_map r.sha256 ?_
    rw [List.map_map]
    exact hnodup
  case order =>
    have hscores : ((ranked.take k).map RetrievedChunk.score).Pairwise fun a b => b ≤ a :=
      List.pairwise_map.mpr (horder.sublist (List.take_sublist k ranked))
    rw [← map_number (f := RetrievedChunk.score) fun _ _ => rfl] at hscores
    exact List.pairwise_map.mp hscores
  case ranks =>
    rw [ranks_number, length_number]
  case passes =>
    exact fun chunk hchunk => (hranked _ (List.mem_of_mem_take (hnumber chunk hchunk))).2
  case sound =>
    intro chunk hchunk
    obtain ⟨candidate, hmem, hto⟩ := (hranked _ (List.mem_of_mem_take (hnumber chunk hchunk))).1
    exact ⟨candidate, hcandidate candidate hmem, hto⟩
  case complete =>
    intro candidate hcand
    obtain ⟨best, hbest, hid, hle⟩ := exists_merged hcand
    by_cases hsame : best = candidate
    case neg => exact .inr (.inr (.inr (.inl
      ⟨best, mem_candidates_of_mem_merge hbest, hsame, hid, hle⟩)))
    subst hsame
    by_cases hkept : best ∈ r.dedupe (merge searched)
    case neg =>
      obtain ⟨hflag, other, hother, hkey, hle⟩ := exists_deduped r hbest hkept
      have hmem := (dedupe_subperm r _).subset hother
      have hne : other.1.id ≠ best.1.id := fun hid =>
        hkept (List.inj_on_of_nodup_map (nodup_merge searched) hmem hbest hid ▸ hother)
      exact .inr (.inr (.inl ⟨hflag, other, hcandidate other hother, hne, hkey, hle⟩))
    obtain ⟨chunk, hchunk, hto⟩ := mem_of_mapM_ok hall hkept
    obtain ⟨-, -, hscore, hnone⟩ := toChunk_fields hto
    by_cases hpass : r.passesThreshold chunk.score = true
    case neg =>
      exact .inr (.inl (hscore ▸ Bool.eq_false_of_not_eq_true hpass))
    have hin := hperm.mem_iff.mpr (List.mem_filter.mpr ⟨hchunk, hpass⟩)
    obtain hfit | ⟨hfull, hbetter⟩ := mem_take_or horder k hin
    · obtain ⟨rank, hnumbered⟩ := exists_mem_number hfit
      refine .inl ⟨_, hnumbered, ?_⟩
      rw [hto]
      cases chunk
      cases hnone
      rfl
    · refine .inr (.inr (.inr (.inr ⟨(length_number _).trans hfull, fun other hother => ?_⟩)))
      have hle : chunk.score ≤ other.score :=
        hbetter { other with rank := none } (hnumber other hother)
      exact hscore ▸ hle

/-- Chunks are selected unless one of the candidates that are kept makes none. -/
theorem succeeds_select_iff :
    Succeeds (r.select k searched) ↔
      ∀ candidate ∈ r.dedupe (merge searched), Charted candidate.1 := by
  have hall : Succeeds ((r.dedupe (merge searched)).mapM toChunk) ↔
      ∀ candidate ∈ r.dedupe (merge searched), Charted candidate.1 :=
    (succeeds_mapM _).trans (forall₂_congr fun candidate _ => toChunk_iff candidate)
  rw [← hall]
  constructor
  · rintro ⟨chunks, h⟩
    obtain ⟨all, hall, -⟩ := select_eq_ok_iff.mp h
    exact ⟨all, hall⟩
  · rintro ⟨all, hall⟩
    exact ⟨_, select_eq_ok_iff.mpr ⟨all, hall, rfl⟩⟩

end Select

/-! ## Whole retrievals -/

theorem retrieve_of_searched {r : VectorRetriever} {query : Text} {topK : Option Int}
    {searched : Searched} (hquery : strip query ≠ [])
    (hsearched : r.searchAll query (r.limit topK) = .ok searched) :
    r.retrieve query topK = r.select (r.limit topK) searched := by
  rw [retrieve, if_neg hquery, hsearched]
  rfl

section Repeated

/-- Two chunks with the same text. -/
def repeatedResults : List (SearchResult ℚ) :=
  [⟨"guide#0".toList, 1, "Reboot the router.".toList, [], [], 1⟩,
    ⟨"manual#0".toList, 1, "Reboot the router.".toList, [], [], 1⟩]

/-- A retriever that does not look at texts. -/
def repeating : VectorRetriever where
  collections := [{}]
  deduplicateByText := false
  embed := fun _ => .ok [1]
  search := fun _ _ _ => .ok repeatedResults
  casefold := fun text => text
  sha256 := fun text => text

end Repeated

end OpenWrtCopilot.Ports.RagRetriever
