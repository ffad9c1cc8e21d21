import OpenWrtCopilot.Ports.RagRetriever

/-!
# Reranked chunks

Ports `ProviderReranker` with the `DummyReranker` that it falls back on.  The results of a provider
name the chunks by their positions and score them; a chunk that is named comes with the new score,
and with both scores in its metadata.  Scores that are finite are exact rational numbers.

## Main results

* `reranked_iff` — when a response reorders some of the chunks, up to a number.
* `repeated_index_returned` — a chunk that is named twice is returned twice.
-/

namespace OpenWrtCopilot.Ports.RagRerank

open Verified
open Verified.PyDict (Dict get?)
open Verified.PyText
open Verified.Selection
open Ports.RagRetriever (RetrievedChunk roundScore)
open Ports.VectorStore (Value VectorMetadata)

/-! ## Models -/

/-- `RerankResult`. -/
structure RerankResult where
  index : Int
  document : Text
  score : PyFloat

/-- `ProviderReranker`, with the call to its factory; every exception of that is caught. -/
structure ProviderReranker where
  factory : Option (Text → List Text → Option Int → Option Text → Option Text →
    Except Unit (List RerankResult))
  preferred : Option Text := none
  model : Option Text := none

/-- `_SIMILARITY_KEY`. -/
def similarityKey : Text := "similarity_score".toList

/-- `_RERANK_KEY`. -/
def rerankKey : Text := "rerank_score".toList

/-! ## Reranking -/

/-- `chunks[:top_n]`. -/
def slice (chunks : List RetrievedChunk) (topN : Int) : List RetrievedChunk :=
  if 0 ≤ topN then chunks.take topN.toNat else chunks.take (chunks.length + topN).toNat

/-- `DummyReranker.rerank`. -/
def dummyRerank (chunks : List RetrievedChunk) (topN : Option Int) : List RetrievedChunk :=
  match topN with
  | some topN => slice chunks topN
  | none => chunks

/-- `max(0.0, min(1.0, score))`, where what is no number is not smaller than one. -/
def clamp : PyFloat → ℚ
  | .finite score => max 0 (min 1 score)
  | .infinite negative => if negative = true then 0 else 1
  | .nan => 1

/-- `by_index.get(index)`. -/
def byIndex (chunks : List RetrievedChunk) (index : Int) : Option RetrievedChunk :=
  if 0 ≤ index then chunks[index.toNat]? else none

/-- A chunk with the score of a result. -/
def rescored (chunk : RetrievedChunk) (score : PyFloat) : RetrievedChunk :=
  let rerankScore := roundScore (clamp score)
  { chunk with
    score := rerankScore
    metadata := PyDict.set rerankKey (.number rerankScore)
      (PyDict.set similarityKey (.number chunk.score) chunk.metadata) }

namespace ProviderReranker

variable (r : ProviderReranker) (query : Text) (chunks : List RetrievedChunk) (topN : Option Int)

/-- `rerank`. -/
def rerank : List RetrievedChunk :=
  match r.factory with
  | none => dummyRerank chunks topN
  | some factory =>
      if chunks = [] then dummyRerank chunks topN
      else
        match factory query (chunks.map (·.text)) topN r.preferred r.model with
        | .error _ => dummyRerank chunks topN
        | .ok results =>
            if results = [] then dummyRerank chunks topN
            else
              let ordered := results.filterMap fun result =>
                (byIndex chunks result.index).map fun chunk => rescored chunk result.score
              if ordered = [] then dummyRerank chunks topN else ordered

/-- The results of the provider, if it is asked and answers. -/
def results : List RerankResult :=
  match r.factory with
  | none => []
  | some factory =>
      match factory query (chunks.map (·.text)) topN r.preferred r.model with
      | .error _ => []
      | .ok results => results

/-- The chunks that the results name. -/
def named : List RetrievedChunk :=
  (r.results query chunks topN).filterMap fun result => byIndex chunks result.index

/-- The provider answers with a result that names a chunk. -/
def Usable : Prop :=
  ∃ factory results, r.factory = some factory ∧
    factory query (chunks.map (·.text)) topN r.preferred r.model = .ok results ∧
      ∃ result ∈ results, 0 ≤ result.index ∧ result.index < chunks.length

end ProviderReranker

/-! ## What a rerank is for -/

/-- What a rerank leaves alone. -/
def content (chunk : RetrievedChunk) : RetrievedChunk :=
  { chunk with
    score := 0
    metadata := chunk.metadata.filter fun entry => entry.1 ≠ similarityKey ∧ entry.1 ≠ rerankKey }

/-- The chunks in their order, up to a number. -/
def inputOrder (chunks : List RetrievedChunk) (topN : Option Int) : List RetrievedChunk :=
  match topN with
  | some topN => chunks.take topN.toNat
  | none => chunks

/-- Some of the chunks come back, up to a number, each of them once and with its content. -/
structure Reranked (r : ProviderReranker) (query : Text) (chunks : List RetrievedChunk)
    (topN : Option Int) : Prop where
  bounded : ∀ n, topN = some n → ((r.rerank query chunks topN).length : Int) ≤ n
  once : ∃ origins : List RetrievedChunk, origins.Subperm chunks ∧
    origins.map content = (r.rerank query chunks topN).map content
  fallback : ¬r.Usable query chunks topN → r.rerank query chunks topN = inputOrder chunks topN

open Classical in
/-- Of equal contents no more are named than there are. -/
def NamedOnce (named chunks : List RetrievedChunk) : Prop :=
  ∀ chunk ∈ named,
    (named.map content).count (content chunk) ≤ (chunks.map content).count (content chunk)

/-! ## Contents -/

theorem filter_set {κ α : Type} [DecidableEq κ] {p : κ → Bool} {key : κ} (h : p key = false)
    (value : α) (d : Dict κ α) :
    (PyDict.set key value d).filter (fun entry => p entry.1) = d.filter fun entry => p entry.1 := by
  induction d with
  | nil => simp [PyDict.set, h]
  | cons entry d ih =>
    rw [PyDict.set]
    split
    · next hkey => simp [hkey, h]
    · rw [List.filter_cons, List.filter_cons, ih]

theorem content_rescored (chunk : RetrievedChunk) (score : PyFloat) :
    content (rescored chunk score) = content chunk := by
  have hmetadata : ((rescored chunk score).metadata.filter fun entry =>
      entry.1 ≠ similarityKey ∧ entry.1 ≠ rerankKey) =
        chunk.metadata.filter fun entry => entry.1 ≠ similarityKey ∧ entry.1 ≠ rerankKey :=
    (filter_set (p := fun key => key ≠ similarityKey ∧ key ≠ rerankKey) (by decide) _ _).trans
      (filter_set (p := fun key => key ≠ similarityKey ∧ key ≠ rerankKey) (by decide) _ _)
  rw [content, hmetadata]
  rfl

theorem mem_of_byIndex {chunks : List RetrievedChunk} {index : Int} {chunk : RetrievedChunk}
    (h : byIndex chunks index = some chunk) :
    0 ≤ index ∧ index < chunks.length ∧ chunks[index.toNat]? = some chunk := by
  rw [byIndex] at h
  split at h
  · next hnonneg =>
      have hlt := (List.getElem?_eq_some_iff.mp h).1
      exact ⟨hnonneg, by omega, h⟩
  · cases h

theorem byIndex_isSome {chunks : List RetrievedChunk} {index : Int} (h : 0 ≤ index)
    (hlt : index < chunks.length) : ∃ chunk, byIndex chunks index = some chunk := by
  rw [byIndex, if_pos h]
  exact ⟨_, List.getElem?_eq_getElem (by omega)⟩

/-! ## Responses -/

section Rerank

variable {r : ProviderReranker} {query : Text} {chunks : List RetrievedChunk} {topN : Option Int}

theorem named_eq_nil_iff : r.named query chunks topN = [] ↔ ¬r.Usable query chunks topN := by
  have hresult (result : RerankResult) : byIndex chunks result.index = none ↔
      ¬(0 ≤ result.index ∧ result.index < chunks.length) := by
    constructor
    · rintro hnone ⟨h, hlt⟩
      obtain ⟨chunk, hsome⟩ := byIndex_isSome h hlt
      exact Option.some_ne_none chunk (hsome.symm.trans hnone)
    · intro h
      by_contra hsome
      obtain ⟨chunk, hchunk⟩ := Option.ne_none_iff_exists'.mp hsome
      exact h ⟨(mem_of_byIndex hchunk).1, (mem_of_byIndex hchunk).2.1⟩
  rw [ProviderReranker.named, List.filterMap_eq_nil_iff, ProviderReranker.results]
  constructor
  · rintro h ⟨factory, results, hfactory, hanswer, result, hmem, hindex⟩
    rw [hfactory] at h
    dsimp only at h
    rw [hanswer] at h
    exact (hresult result).mp (h result hmem) hindex
  · intro h result hmem
    split at hmem
    · cases hmem
    · next factory hfactory =>
        split at hmem
        · cases hmem
        · next results hanswer =>
            exact (hresult result).mpr fun hindex =>
              h ⟨factory, results, hfactory, hanswer, result, hmem, hindex⟩

theorem map_content_ordered (chunks : List RetrievedChunk) (results : List RerankResult) :
    (results.filterMap fun result =>
      (byIndex chunks result.index).map fun chunk => rescored chunk result.score).map content =
        (results.filterMap fun result => byIndex chunks result.index).map content := by
  induction results with
  | nil => rfl
  | cons result results ih =>
    cases hindex : byIndex chunks result.index with
    | none => simpa only [List.filterMap_cons, hindex, Option.map_none] using ih
    | some chunk =>
      simp only [List.filterMap_cons, hindex, Option.map_some, List.map_cons, content_rescored,
        ih]

/-- Without a chunk that is named the input order stands; else the named chunks come back. -/
theorem rerank_cases (r : ProviderReranker) (query : Text) (chunks : List RetrievedChunk)
    (topN : Option Int) :
    (r.named query chunks topN = [] ∧ r.rerank query chunks topN = dummyRerank chunks topN) ∨
      (r.named query chunks topN ≠ [] ∧
        (r.rerank query chunks topN).map content = (r.named query chunks topN).map content) := by
  rw [ProviderReranker.named, ProviderReranker.results, ProviderReranker.rerank]
  split
  · exact .inl ⟨rfl, rfl⟩
  · next factory hfactory =>
      split
      · exact .inl ⟨rfl, ite_self _⟩
      · next results hanswer =>
          have hcontent := map_content_ordered chunks results
          split
          · next hchunks =>
              rw [hchunks]
              refine .inl ⟨List.filterMap_eq_nil_iff.mpr fun result _ => ?_, rfl⟩
              rw [byIndex]
              split <;> rfl
          · split
            · next hempty => exact .inl ⟨by rw [hempty]; rfl, rfl⟩
            · dsimp only
              split
              · next hordered =>
                  rw [hordered] at hcontent
                  exact .inl ⟨List.map_eq_nil_iff.mp hcontent.symm, rfl⟩
              · next hordered =>
                  refine .inr ⟨fun hnamed => hordered ?_, hcontent⟩
                  rw [hnamed] at hcontent
                  exact List.map_eq_nil_iff.mp hcontent

theorem namedOnce_iff_subperm {named chunks : List RetrievedChunk} :
    NamedOnce named chunks ↔ (named.map content).Subperm (chunks.map content) := by
  classical
  rw [NamedOnce, List.subperm_ext_iff, List.forall_mem_map]

theorem dummyRerank_of_nonneg {n : Int} (h : 0 ≤ n) :
    dummyRerank chunks (some n) = chunks.take n.toNat := by
  rw [dummyRerank, slice, if_pos h]

/-- **A response reorders some of the chunks** exactly if it names no more than asked for, and none
more often than there are chunks with its content. -/
theorem reranked_iff (r : ProviderReranker) (query : Text) (chunks : List RetrievedChunk)
    (topN : Option Int) :
    Reranked r query chunks topN ↔
      (∀ n, topN = some n → ((r.named query chunks topN).length : Int) ≤ n) ∧
        NamedOnce (r.named query chunks topN) chunks := by
  rw [namedOnce_iff_subperm]
  obtain ⟨hnamed, hrerank⟩ | ⟨hnamed, hcontent⟩ := rerank_cases r query chunks topN
  · rw [hnamed]
    constructor
    · intro h
      refine ⟨fun n hn => ?_, List.nil_subperm⟩
      have hbound := h.bounded n hn
      rw [List.length_nil]
      omega
    · rintro ⟨hbound, -⟩
      have horder : r.rerank query chunks topN = inputOrder chunks topN := by
        cases topN with
        | none => exact hrerank
        | some n => exact hrerank.trans (dummyRerank_of_nonneg (hbound n rfl))
      have hsub : (inputOrder chunks topN).Sublist chunks := by
        cases topN with
        | none => exact List.Sublist.refl _
        | some n => exact List.take_sublist _ _
      refine ⟨fun n hn => ?_, ⟨_, hsub.subperm, congrArg _ horder.symm⟩, fun _ => horder⟩
      subst hn
      have hpos := hbound n rfl
      rw [horder, inputOrder, List.length_take]
      omega
  · have hlength := congrArg List.length hcontent
    rw [List.length_map, List.length_map] at hlength
    constructor
    · intro h
      refine ⟨hlength ▸ h.bounded, ?_⟩
      obtain ⟨origins, hsub, horigins⟩ := h.once
      rw [← hcontent, ← horigins]
      exact subperm_map hsub
    · rintro ⟨hbound, hsub⟩
      obtain ⟨origins, horigins, hmap⟩ := exists_subperm hsub
      exact ⟨hlength ▸ hbound, ⟨origins, horigins, hmap.trans hcontent.symm⟩,
        fun h => absurd (named_eq_nil_iff.mpr h) hnamed⟩

end Rerank

/-! ## Responses that are no order -/

section Repeated

/-- The first chunk is named twice. -/
def repeating : ProviderReranker where
  factory := some fun _ documents _ _ _ => .ok
    (documents.take 1 ++ documents.take 1 |>.map fun document => ⟨0, document, .finite (9 / 10)⟩)

/-- A chunk that is named twice is returned twice, also where one is asked for. -/
theorem repeated_index_returned :
    ¬∀ (r : ProviderReranker) (query : Text) (chunks : List RetrievedChunk) (topN : Option Int),
      Reranked r query chunks topN := by
  intro h
  have hbound := (h repeating "dns".toList
    [⟨"guide#0".toList, "guide".toList, 0, "DNS".toList, [], 1, [], none⟩] (some 1)).bounded 1 rfl
  exact absurd hbound (by decide)

end Repeated

end OpenWrtCopilot.Ports.RagRerank
