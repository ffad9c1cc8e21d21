import OpenWrtCopilot.Ports.RagCache
import OpenWrtCopilot.Ports.RagTurns
import OpenWrtCopilot.Verified.Groups

/-!
# The citations of an answer

The documents of a context are cited and numbered when the context is built.  If the prompt is
too long, chunks are taken away from its end, and the citations stay; only if the whole context
goes, they go with it.

## Main results

* `marker_eq` — the marker of a chunk is always the number of its document's citation.
* `consistent_iff` — when every citation has a chunk in the prompt.
* `uncited_document` — a document without a chunk in the prompt is cited.
-/

namespace OpenWrtCopilot.Ports.RagCitations

open Verified
open Verified.PyText
open Verified.Suffixes (longestPrefix)
open Ports.RagAnswers
open Ports.RagCache (mem_of_getPrompt)
open Ports.RagEngine
open Ports.RagMemory (Message)
open Ports.RagPrompt (Citation Fits PromptContext RagError RetrievedChunk bare
  buildCitations citationOf groupByDocument leftChunks marker numbers reduce renderMessages)
open Ports.RagTurns (Taken Turn step)

variable {F : Type}

/-! ## Citations -/

section Citations

variable {snippet : Text → Text} {chunks p : List RetrievedChunk} {citation : Citation}

/-- A citation stands for the chunks of its document, and there are some. -/
theorem citation_chunks (h : citation ∈ buildCitations snippet chunks) :
    citation.chunkIds = (chunks.filter (·.documentId = citation.documentId)).map (·.id) ∧
      chunks.filter (·.documentId = citation.documentId) ≠ [] := by
  obtain ⟨i, hi, rfl⟩ := List.mem_mapIdx.mp h
  have hmem : (groupByDocument chunks)[i] ∈ Groups.group (·.documentId) chunks :=
    List.getElem_mem hi
  have hgroup := Groups.mem_group _ hmem
  refine ⟨congrArg (List.map RetrievedChunk.id) hgroup, ?_⟩
  have hsome := Groups.ne_nil_of_mem_group _ hmem
  rw [hgroup] at hsome
  exact hsome

/-- Every chunk's document is cited. -/
theorem exists_citation {chunk : RetrievedChunk} (h : chunk ∈ chunks) :
    ∃ citation ∈ buildCitations snippet chunks, citation.documentId = chunk.documentId := by
  obtain ⟨group, hgroup⟩ := Groups.exists_mem_group (fun c : RetrievedChunk => c.documentId) h
  obtain ⟨i, hi, hget⟩ := List.mem_iff_getElem.mp hgroup
  refine ⟨citationOf snippet (i + 1) (groupByDocument chunks)[i], ?_, ?_⟩
  · exact List.mem_mapIdx.mpr ⟨i, hi, rfl⟩
  · exact congrArg Prod.fst hget

theorem nodup_documentIds (snippet : Text → Text) (chunks : List RetrievedChunk) :
    ((buildCitations snippet chunks).map (·.documentId)).Nodup := by
  have hkeys : (buildCitations snippet chunks).map (·.documentId) =
      PyDict.keys (groupByDocument chunks) := by
    have hlength : ((buildCitations snippet chunks).map (·.documentId)).length =
        (PyDict.keys (groupByDocument chunks)).length := by
      rw [List.length_map, buildCitations, List.length_mapIdx, PyDict.keys, List.length_map]
    refine List.ext_getElem hlength fun i hi hi' => ?_
    simp only [buildCitations, PyDict.keys, List.getElem_map, List.getElem_mapIdx]
    rfl
  rw [hkeys]
  exact Groups.nodup_keys_group _ chunks

/-- The number of a citation is found by its document. -/
theorem get?_numbers (h : citation ∈ buildCitations snippet chunks) :
    PyDict.get? citation.documentId (numbers (buildCitations snippet chunks)) =
      some citation.number :=
  Groups.get?_index (nodup_documentIds snippet chunks) h

/-- **The marker of a chunk is the number of its document's citation.** -/
theorem marker_eq {chunk : RetrievedChunk} (h : chunk ∈ chunks) :
    ∃ citation ∈ buildCitations snippet chunks, citation.documentId = chunk.documentId ∧
      marker (buildCitations snippet chunks) chunk = citation.number := by
  obtain ⟨citation, hcitation, hdocument⟩ := exists_citation  h
  refine ⟨citation, hcitation, hdocument, ?_⟩
  rw [marker, ← hdocument, get?_numbers hcitation, Option.getD_some]

/-! ## Chunks that are left -/

/-- Every document has a chunk among those that are left. -/
def Covers (left chunks : List RetrievedChunk) : Prop :=
  ∀ chunk ∈ chunks, ∃ other ∈ left, other.documentId = chunk.documentId

/-- The primary chunk of a document is its first one. -/
theorem chunkId_ragCitation (h : citation ∈ buildCitations snippet chunks) {first : RetrievedChunk}
    (hfirst : (chunks.filter (·.documentId = citation.documentId)).head? = some first)
    (left : List RetrievedChunk) : (ragCitation left citation).chunkId = first.id := by
  show citation.chunkIds.head?.getD [] = first.id
  rw [(citation_chunks h).1, List.head?_map, hfirst]
  rfl

/-- The citations stand for chunks that are left exactly if every document has one. -/
theorem cited_iff {left : List RetrievedChunk} (hleft : left <+: chunks) :
    (∀ citation ∈ buildCitations snippet chunks, ∃ chunk ∈ left,
        chunk.documentId = citation.documentId ∧
          (ragCitation left citation).chunkId = chunk.id) ↔
      Covers left chunks := by
  constructor
  · intro hcited chunk hchunk
    obtain ⟨citation, hcitation, hdocument⟩ := exists_citation  hchunk
    obtain ⟨other, hother, hsame, -⟩ := hcited citation hcitation
    exact ⟨other, hother, hsame.trans hdocument⟩
  · intro hcovers citation hcitation
    obtain ⟨-, hsome⟩ := citation_chunks hcitation
    obtain ⟨chunk, hchunk⟩ := List.exists_mem_of_ne_nil _ hsome
    obtain ⟨hchunk, hdocument⟩ := List.mem_filter.mp hchunk
    obtain ⟨other, hother, hsame⟩ := hcovers chunk hchunk
    -- the first chunk of the document comes before the one that is left
    have hmem : other ∈ left.filter (·.documentId = citation.documentId) := by
      refine List.mem_filter.mpr ⟨hother, ?_⟩
      rw [hsame]
      exact hdocument
    obtain ⟨first, rest, hfilter⟩ := List.exists_cons_of_ne_nil (List.ne_nil_of_mem hmem)
    have hpre := hleft.filter (fun c => decide (c.documentId = citation.documentId))
    rw [hfilter] at hpre
    obtain ⟨later, hlater⟩ := hpre
    obtain ⟨hfirst, hfirstDocument⟩ : first ∈ left ∧ first.documentId = citation.documentId := by
      have hfirst : first ∈ left.filter (·.documentId = citation.documentId) := by
        rw [hfilter]
        exact List.mem_cons_self
      obtain ⟨hmem, hdocument⟩ := List.mem_filter.mp hfirst
      exact ⟨hmem, of_decide_eq_true hdocument⟩
    refine ⟨first, hfirst, hfirstDocument, chunkId_ragCitation hcitation ?_ left⟩
    rw [← hlater]
    rfl

end Citations

/-! ## Prompts -/

/-- What a response returns is consistent: each citation has its primary chunk in the prompt,
and each marker is the number of a citation. -/
structure Consistent (p : PromptResponse) : Prop where
  cited : ∀ citation ∈ p.prompt.context.citations, ∃ chunk ∈ p.prompt.context.chunks,
    chunk.documentId = citation.documentId ∧
      (ragCitation p.prompt.context.chunks citation).chunkId = chunk.id
  marked : ∀ chunk ∈ p.prompt.context.chunks, ∃ citation ∈ p.prompt.context.citations,
    citation.documentId = chunk.documentId ∧
      marker p.prompt.context.citations chunk = citation.number

/-- What a prompt is built from. -/
structure Built (F : Type) where
  engine : RetrievalEngine F
  query : Text
  chunks : List RetrievedChunk
  history : List Message

namespace Built

variable (b : Built F)

/-- The context before it is reduced. -/
def context : PromptContext := b.engine.buildContext b.query b.chunks b.history

/-- A response has the prompt that is built, with citations. -/
def Gives (p : PromptResponse) : Prop :=
  b.engine.config.includeCitations = true ∧
    ∃ key fresh, b.engine.respond b.query b.chunks b.history key = .ok fresh ∧
      fresh.prompt = p.prompt

/-- There is room for the first chunks of every document and for the whole history, or there is
no room for anything but the question. -/
def Covered : Prop :=
  (∃ kept, kept <+: b.context.chunks ∧
    (kept = [] ∨ Fits true b.engine.config.budget.maxPromptTokens
      { b.context with chunks := kept }) ∧
    Covers kept b.context.chunks) ∨
  ¬ Fits true b.engine.config.budget.maxPromptTokens (bare b.context [])

variable {b}

theorem citations_context (hinclude : b.engine.config.includeCitations = true) :
    b.context.citations = buildCitations b.engine.snippet b.context.chunks :=
  if_pos hinclude

/-- The chunks that are left cover the documents exactly if some do for which there is room. -/
theorem covers_left_iff {maxPromptTokens : Int} :
    Covers (leftChunks true maxPromptTokens b.context) b.context.chunks ↔
      ∃ kept, kept <+: b.context.chunks ∧
        (kept = [] ∨ Fits true maxPromptTokens { b.context with chunks := kept }) ∧
        Covers kept b.context.chunks := by
  have hleft : leftChunks true maxPromptTokens b.context <+: b.context.chunks :=
    Suffixes.longestPrefix_prefix _ _
  constructor
  · intro hcovers
    refine ⟨_, hleft, ?_, hcovers⟩
    by_cases hnone : leftChunks true maxPromptTokens b.context = []
    · exact Or.inl hnone
    · exact Or.inr (Suffixes.longestPrefix_holds hnone)
  · intro ⟨kept, hkept, hfits, hcovers⟩
    have hpre : kept <+: leftChunks true maxPromptTokens b.context := by
      obtain rfl | hfits := hfits
      · exact List.nil_prefix
      · exact List.prefix_of_prefix_length_le hkept hleft
          (Suffixes.length_le_longestPrefix hkept hfits)
    intro chunk hchunk
    obtain ⟨other, hother, hsame⟩ := hcovers chunk hchunk
    exact ⟨other, hpre.subset hother, hsame⟩

/-- **A response is consistent exactly if there is room for a chunk of every document, or for
none.** -/
theorem consistent_iff_covered {p : PromptResponse} (h : b.Gives p) :
    Consistent p ↔ b.Covered := by
  obtain ⟨hinclude, key, fresh, hrespond, hprompt⟩ := h
  have hreduced := RetrievalEngine.respond_spec hrespond
  rw [hprompt, hinclude] at hreduced
  change RagPrompt.Reduced true _ b.context p.prompt at hreduced
  rw [Covered, ← covers_left_iff]
  by_cases hbare : Fits true b.engine.config.budget.maxPromptTokens (bare b.context [])
  · obtain ⟨hchunks, hcitations⟩ := RagPrompt.chunks_reduce hbare
    have hleft : leftChunks true b.engine.config.budget.maxPromptTokens b.context <+:
        b.context.chunks := Suffixes.longestPrefix_prefix _ _
    rw [← hreduced.chunks] at hchunks
    rw [← hreduced.citations, citations_context hinclude] at hcitations
    rw [or_iff_left (not_not.mpr hbare), ← cited_iff  hleft]
    constructor
    · intro hconsistent
      have hcited := hconsistent.cited
      rw [hchunks, hcitations] at hcited
      exact hcited
    · intro hcited
      constructor
      · rw [hchunks, hcitations]
        exact hcited
      · rw [hchunks, hcitations]
        exact fun chunk hchunk => marker_eq (hleft.subset hchunk)
  · obtain ⟨hchunks, hcitations⟩ := RagPrompt.chunks_reduce_of_not hbare
    rw [← hreduced.chunks] at hchunks
    rw [← hreduced.citations] at hcitations
    refine iff_of_true ⟨?_, ?_⟩ (Or.inr hbare)
    · rw [hcitations]
      exact fun citation hcitation => absurd hcitation List.not_mem_nil
    · rw [hchunks]
      exact fun chunk hchunk => absurd hchunk List.not_mem_nil

end Built

/-! ## Cached prompts -/

/-- Every cached prompt was built, with citations. -/
def Sound (F : Type) (s : Session) : Prop :=
  ∀ entry ∈ s.cache.prompt, ∃ b : Built F, b.Gives entry.2.2

section Turn

variable {s s' : Session} {now : Int}

theorem prompt_retrieve (engine : RetrievalEngine F) (call : Call F) (now : Int)
    (cache : InMemoryContextCache) : (engine.retrieve call now cache).2.prompt = cache.prompt := by
  have hget : (cache.getRetrieval (engine.retrievalKey call) now).2.prompt = cache.prompt := by
    rw [InMemoryContextCache.getRetrieval]
    split
    · rfl
    · rfl
  obtain ⟨-, heq⟩ | ⟨-, ⟨chunks, -, heq⟩ | ⟨e, -, heq⟩ | ⟨chunks, -, heq⟩⟩ :=
    RetrievalEngine.retrieve_cases engine call now cache
  · rw [heq]
  · rw [heq, hget]
  · rw [heq, hget]
  · rw [heq, ← hget, InMemoryContextCache.setRetrieval]
    split
    · rfl
    · rfl

theorem rememberTurn_cache {engine : RetrievalEngine F} {call : Call F}
    (h : engine.rememberTurn call s = some s') : s'.cache = s.cache := by
  rw [RetrievalEngine.rememberTurn] at h
  split at h
  · split at h
    · obtain ⟨added, -, rfl⟩ := Option.map_eq_some_iff.mp h
      rfl
    · rw [Option.some.inj h]
  · rw [Option.some.inj h]

theorem answerFresh_sound {engine : RetrievalEngine F} {call : Call F} {history : List Message}
    {key : Text} {result : Except RagError PromptResponse}
    (hinclude : engine.config.includeCitations = true) (hs : Sound F s)
    (h : engine.answerFresh call now history key s = some (result, s')) :
    Sound F s' ∧ ∀ p, result = .ok p → ∃ b : Built F, b.Gives p := by
  obtain ⟨e, rfl, rfl⟩ | ⟨chunks, response, remembered, -, hrespond, rfl, hremember, rfl⟩ :=
    RetrievalEngine.answerFresh_cases h
  · refine ⟨?_, nofun⟩
    rw [Sound, prompt_retrieve]
    exact hs
  · have hgives : ∃ b : Built F, b.Gives response :=
      ⟨⟨engine, call.query, chunks, history⟩, hinclude, key, response, hrespond, rfl⟩
    have hremembered : Sound F remembered := by
      rw [Sound, rememberTurn_cache hremember, prompt_retrieve]
      exact hs
    refine ⟨?_, fun p hp => Except.ok.inj hp ▸ hgives⟩
    split
    · intro entry hentry
      rw [InMemoryContextCache.setPrompt] at hentry
      split at hentry
      · obtain rfl | hold := PyDict.mem_set (List.mem_of_mem_drop hentry)
        · exact hgives
        · exact hremembered entry hold
      · exact hremembered entry hentry
    · exact hremembered

theorem answer_sound {engine : RetrievalEngine F} {call : Call F}
    {result : Except RagError PromptResponse}
    (hinclude : engine.config.includeCitations = true) (hs : Sound F s)
    (h : engine.answer call now s = some (result, s')) :
    Sound F s' ∧ ∀ p, result = .ok p → ∃ b : Built F, b.Gives p := by
  rw [RetrievalEngine.answer] at h
  split at h
  · obtain ⟨rfl, rfl⟩ := Prod.mk.inj (Option.some.inj h)
    exact ⟨hs, fun _ hresult => by cases hresult⟩
  · dsimp only at h
    split at h
    · have hpruned : Sound F
          { s with cache := (s.cache.getPrompt (engine.promptKey call) now).2 } := by
        intro entry hentry
        dsimp only at hentry
        rw [InMemoryContextCache.getPrompt] at hentry
        split at hentry
        · exact hs entry (List.mem_of_mem_filter hentry)
        · exact hs entry hentry
      have hmem := @mem_of_getPrompt s.cache (engine.promptKey call) now
      cases hget : s.cache.getPrompt (engine.promptKey call) now with
      | mk found pruned =>
        rw [hget] at h hpruned hmem
        cases found with
        | some response =>
          obtain ⟨rfl, rfl⟩ := Prod.mk.inj (Option.some.inj h)
          obtain ⟨expires, hentry⟩ := hmem rfl
          refine ⟨hpruned, fun p hp => ?_⟩
          obtain rfl := Except.ok.inj hp
          exact hs _ hentry
        | none => exact answerFresh_sound hinclude hpruned h
    · exact answerFresh_sound hinclude hs h

theorem complete_cache {engine : RAGEngine F} {question : Question} {text : Text}
    (h : engine.complete question text s = some s') : s'.cache = s.cache := by
  rw [RAGEngine.complete] at h
  split at h
  · rw [Option.some.inj h]
  · rw [RetrievalEngine.completeTurn] at h
    split at h
    · rw [Option.some.inj h]
    · obtain ⟨added, -, rfl⟩ := Option.map_eq_some_iff.mp h
      rfl

end Turn

/-! ## Runs -/

/-- The engine of a turn cites, as `build_retrieval_config` has it. -/
def Cites (turn : Turn F) : Prop := turn.engine.retrieval.config.includeCitations = true

theorem step_sound {turn : Turn F} {s s' : Taken F} (hs : Sound F s.session) (hcites : Cites turn)
    (h : step turn s = some s') : Sound F s'.session := by
  obtain ⟨⟨outcome, session⟩, hrun, rfl⟩ := Option.map_eq_some_iff.mp h
  obtain heq | ⟨result, prompted, hanswer, hafter⟩ := RagTurns.run_leaves hrun
  · exact heq ▸ hs
  · have hprompted := (answer_sound hcites hs hanswer).1
    obtain heq | ⟨text, hcomplete⟩ := hafter
    · exact heq ▸ hprompted
    · show Sound F session
      rw [Sound, complete_cache hcomplete]
      exact hprompted

/-- **In every run, the citations that are returned with a prompt are consistent with it exactly
if there was room for a chunk of every document, or for none, when the prompt was built.** -/
theorem consistent_iff {turns : List (Turn F)} {start s : Taken F}
    (hstart : start.session.cache.prompt = []) (hcites : ∀ turn ∈ turns, Cites turn)
    (hrun : Runs.run step turns start = some s) {engine : RAGEngine F}
    (hinclude : engine.retrieval.config.includeCitations = true) {question : Question} {now : Int}
    {s' : Session} {p : PromptResponse}
    (hanswer : engine.retrieval.answer question.call now s.session = some (.ok p, s')) :
    (chatRequest p question.model).messages = renderMessages true p.prompt.context ∧
      (∃ b : Built F, b.Gives p) ∧ ∀ b : Built F, b.Gives p → (Consistent p ↔ b.Covered) := by
  have hempty : Sound F start.session := by
    rw [Sound, hstart]
    exact fun entry hentry => absurd hentry List.not_mem_nil
  have hsound : Sound F s.session :=
    Runs.run_invariant (I := fun s => Sound F s.session) (C := fun _ turn => Cites turn)
      (fun _ _ _ hs hturn hstep => step_sound hs hturn hstep) hempty
      (Runs.meets_of_forall hcites _) hrun
  obtain ⟨b, hb⟩ := (answer_sound hinclude hsound hanswer).2 p rfl
  refine ⟨?_, ⟨b, hb⟩, fun b hb => Built.consistent_iff_covered hb⟩
  obtain ⟨hb, key, fresh, hrespond, hprompt⟩ := hb
  have hreduced := RetrievalEngine.respond_spec hrespond
  rw [hprompt, hb] at hreduced
  exact hreduced.messages

/-! ## A budget with and without room -/

def short : RetrievedChunk where
  id := "zones#0".toList
  documentId := "zones".toList
  text := "Zones have rules.".toList

def long : RetrievedChunk where
  id := "rules#0".toList
  documentId := "rules".toList
  text := List.replicate 200 'r'

/-- An engine over two documents, with a budget. -/
def tightEngine (maxPromptTokens : Int) : RAGEngine Unit where
  retrieval :=
    { retriever :=
        { collections := [{}], defaultTopK := 8, search := fun _ _ _ _ => .ok [short, long] }
      config := { budget := { maxPromptTokens := maxPromptTokens } }
      sha256 := id
      snippet := id
      repr := fun _ => [] }
  chat := some fun _ => .ok { model := "m".toList, content := .text "so".toList }

def ask : Question where
  query := "rules?".toList

/-- The documents that are cited, and those that have a chunk in the prompt. -/
def documents (p : PromptResponse) : List Text × List Text :=
  (p.prompt.context.citations.map (·.documentId), p.prompt.context.chunks.map (·.documentId))

/-- A question that is asked again, with room for both documents. -/
theorem roomy_prompt_consistent :
    ∃ s s' p, Runs.run step [.answer (tightEngine 4000) ask 0] {} = some s ∧
      (tightEngine 4000).retrieval.answer ask.call 1 s.session = some (.ok p, s') ∧
      (chatRequest p ask.model).messages = renderMessages true p.prompt.context ∧
      (∃ b : Built Unit, b.Gives p) ∧ ∀ b : Built Unit, b.Gives p → (Consistent p ↔ b.Covered) := by
  have hdocuments : (Runs.run step [.answer (tightEngine 4000) ask 0] {}).bind (fun s =>
      ((tightEngine 4000).retrieval.answer ask.call 1 s.session).map fun result =>
        result.1.toOption.map documents) =
          some (some (["zones".toList, "rules".toList], ["zones".toList, "rules".toList])) := by
    decide +kernel
  obtain ⟨s, hrun, hanswer⟩ := Option.bind_eq_some_iff.mp hdocuments
  obtain ⟨⟨result, s'⟩, hanswer, hresult⟩ := Option.map_eq_some_iff.mp hanswer
  cases result with
  | error e => cases hresult
  | ok p =>
    have hcites : ∀ turn ∈ [Turn.answer (tightEngine 4000) ask 0], Cites turn := by
      intro turn hturn
      obtain rfl := List.mem_singleton.mp hturn
      rfl
    exact ⟨s, s', p, hrun, hanswer, consistent_iff rfl hcites hrun rfl hanswer⟩

/-- A document whose chunk was too long for the prompt is cited. -/
theorem uncited_document :
    ¬ ∀ (engine : RAGEngine Unit) (question : Question) (now : Int) (s' : Session)
        (p : PromptResponse), engine.retrieval.config.includeCitations = true →
      engine.retrieval.answer question.call now {} = some (.ok p, s') → Consistent p := by
  intro h
  have hdocuments : ((tightEngine 80).retrieval.answer ask.call 0 {}).map
      (fun result => result.1.toOption.map documents) =
        some (some (["zones".toList, "rules".toList], ["zones".toList])) := by
    decide +kernel
  obtain ⟨⟨result, s'⟩, hanswer, hresult⟩ := Option.map_eq_some_iff.mp hdocuments
  cases result with
  | error e => cases hresult
  | ok p =>
    have hpair := Option.some.inj hresult
    have hconsistent := h (tightEngine 80) ask 0 s' p rfl hanswer
    have hrules : "rules".toList ∈ p.prompt.context.citations.map (·.documentId) := by
      have hcited : p.prompt.context.citations.map (·.documentId) = _ := congrArg Prod.fst hpair
      rw [hcited]
      exact List.mem_cons_of_mem _ List.mem_cons_self
    obtain ⟨citation, hcitation, hdocument⟩ := List.mem_map.mp hrules
    obtain ⟨chunk, hchunk, hsame, -⟩ := hconsistent.cited citation hcitation
    have hleft : p.prompt.context.chunks.map (·.documentId) = ["zones".toList] :=
      congrArg Prod.snd hpair
    have hmem := List.mem_map_of_mem (f := RetrievedChunk.documentId) hchunk
    rw [hleft, hsame, hdocument] at hmem
    exact absurd hmem (by decide)

end OpenWrtCopilot.Ports.RagCitations
