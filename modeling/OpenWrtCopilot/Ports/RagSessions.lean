import OpenWrtCopilot.Ports.RagCitations

/-!
# Sessions of a conversation

Ports `RAGSession`.  A session remembers the primary chunk of each citation that it gave out, and
expands the context by the documents whose primary chunk it does not remember.  A prompt, however,
contains the other chunks of its documents too, and these are not remembered.

## Main results

* `surfaces_iff` — the runs whose expansions give what is fresh, and nothing else.
* `repeated_document` — an expansion that gives a document again.
-/

namespace OpenWrtCopilot.Ports.RagSessions

open Verified
open Verified.PyText
open Ports.RagAnswers
open Ports.RagEngine
open Ports.RagPrompt (Citation RagError RetrievedChunk buildCitations)

variable {F : Type}

/-! ## Engines with a configuration -/

/-- `RAGConfiguration`, as far as a session reads it. -/
structure RAGConfiguration where
  topK : Int := 8
  contextExpansion : Bool := true

structure ConfiguredEngine (F : Type) extends RAGEngine F where
  config : RAGConfiguration := {}

namespace ConfiguredEngine

variable (engine : ConfiguredEngine F)

/-- The breadth of an expansion. -/
def expanded (topK : Option Int) : Int :=
  orDefault topK (max (engine.config.topK * 2) (engine.config.topK + 2))

/-- The chunks of an expansion, and the cache after it. -/
def retrieve (query : Text) (topK : Option Int) (now : Int) (s : Session) :
    Except RagError (List RetrievedChunk) × InMemoryContextCache :=
  engine.retrieval.retrieve { query := query, topK := some (engine.expanded topK) } now s.cache

/-- `citations_for`. -/
def citationsFor (chunks : List RetrievedChunk) : List RAGCitation :=
  citationsFromContext (buildCitations engine.retrieval.snippet chunks) chunks

end ConfiguredEngine

/-! ## Sessions -/

/-- `RAGSession`; the ids are a set. -/
structure RAGSession where
  conversationId : Text
  citedChunkIds : List Text := []

namespace RAGSession

variable (session : RAGSession)

/-- `_record`. -/
def record (citations : List RAGCitation) : RAGSession :=
  { session with
    citedChunkIds := session.citedChunkIds ++ (citations.map (·.chunkId)).filter (· ≠ []) }

/-- A question in the conversation of the session. -/
def ask (question : Question) : Question :=
  { question with conversationId := some session.conversationId }

/-- `answer`; `none` if the memory does not return. -/
def answer (engine : ConfiguredEngine F) (question : Question) (now : Int) (s : Session) :
    Option (Except AnswerError RAGResponse × RAGSession × Session) :=
  (engine.answer (session.ask question) now s).map fun (result, s) =>
    match result with
    | .ok response => (.ok response, session.record response.citations, s)
    | .error e => (.error e, session, s)

/-- `stream`, with a consumer that stops after a number of events. -/
def stream (engine : ConfiguredEngine F) (question : Question) (now : Int) (taken : Nat)
    (s : Session) : Option (List RAGStreamEvent × RAGSession × Session) :=
  let r := engine.streamed (session.ask question) now s
  let events := (r.events.take taken).map Prod.fst
  (r.after s taken).map fun s => (events, session.record (events.flatMap (·.citations)), s)

/-- `expand_context`. -/
def expandContext (engine : ConfiguredEngine F) (query : Text) (topK : Option Int) (now : Int)
    (s : Session) : Except RagError (List RAGCitation) × RAGSession × Session :=
  if engine.config.contextExpansion = false then (.ok [], session, s)
  else
    match engine.retrieve query topK now s with
    | (.error e, cache) => (.error e, session, { s with cache := cache })
    | (.ok chunks, cache) =>
        let novel := (engine.citationsFor chunks).filter fun citation =>
          !session.citedChunkIds.contains citation.chunkId
        (.ok novel, session.record novel, { s with cache := cache })

end RAGSession

/-! ## Runs -/

/-- A call; each has the engine as it is at that time. -/
inductive Operation (F : Type)
  | answer (engine : ConfiguredEngine F) (question : Question) (now : Int)
  | stream (engine : ConfiguredEngine F) (question : Question) (now : Int) (taken : Nat)
  | expandContext (engine : ConfiguredEngine F) (query : Text) (topK : Option Int) (now : Int)

/-- A session, with the prompts that were built for it and the citations that it gave out. -/
structure Taken where
  session : RAGSession
  store : Session := {}
  prompts : List PromptResponse := []
  returned : List RAGCitation := []

/-- The prompt of a question, if it has one. -/
def promptOf (engine : ConfiguredEngine F) (question : Question) (now : Int) (s : Session) :
    List PromptResponse :=
  match engine.retrieval.answer question.call now s with
  | some (.ok p, _) => [p]
  | _ => []

/-- The citations of a response. -/
def citationsOf : Except AnswerError RAGResponse → List RAGCitation
  | .ok response => response.citations
  | .error _ => []

/-- A call is made.  A stream has its prompt from its second event on. -/
def step : Operation F → Taken → Option Taken
  | .answer engine question now, t =>
      (t.session.answer engine question now t.store).map fun (result, session, store) =>
        { session := session
          store := store
          prompts := t.prompts ++
            if engine.chat.isSome then promptOf engine (t.session.ask question) now t.store else []
          returned := t.returned ++ citationsOf result }
  | .stream engine question now taken, t =>
      (t.session.stream engine question now taken t.store).map fun (events, session, store) =>
        { session := session
          store := store
          prompts := t.prompts ++
            if engine.stream.isSome ∧ 2 ≤ taken then
              promptOf engine (t.session.ask question) now t.store
            else []
          returned := t.returned ++ events.flatMap (·.citations) }
  | .expandContext engine query topK now, t =>
      let (result, session, store) := t.session.expandContext engine query topK now t.store
      some
        { t with
          session := session
          store := store
          returned := t.returned ++ result.toOption.getD [] }

/-! ## What is remembered -/

theorem record_nil (session : RAGSession) : session.record [] = session := by
  cases session with
  | mk conversationId cited =>
    rw [RAGSession.record, List.map_nil, List.filter_nil, List.append_nil]

theorem mem_record {session : RAGSession} {citations : List RAGCitation} {id : Text} :
    id ∈ (session.record citations).citedChunkIds ↔
      id ∈ session.citedChunkIds ∨ id ≠ [] ∧ ∃ citation ∈ citations, citation.chunkId = id := by
  rw [RAGSession.record, List.mem_append, List.mem_filter, List.mem_map, decide_eq_true_iff,
    and_comm (b := id ≠ [])]

theorem expandContext_record (session : RAGSession) (engine : ConfiguredEngine F) (query : Text)
    (topK : Option Int) (now : Int) (s : Session) :
    (session.expandContext engine query topK now s).2.1 =
      session.record ((session.expandContext engine query topK now s).1.toOption.getD []) := by
  unfold RAGSession.expandContext
  split
  · exact (record_nil _).symm
  · split
    · exact (record_nil _).symm
    · rfl

/-- What a call gives out is what it remembers. -/
theorem step_record {op : Operation F} {t t' : Taken} (h : step op t = some t') :
    ∃ citations, t'.session = t.session.record citations ∧
      t'.returned = t.returned ++ citations := by
  cases op with
  | answer engine question now =>
    obtain ⟨⟨result, session, store⟩, hanswer, rfl⟩ := Option.map_eq_some_iff.mp h
    obtain ⟨⟨outcome, s⟩, _, hpair⟩ := Option.map_eq_some_iff.mp hanswer
    refine ⟨citationsOf result, ?_, rfl⟩
    cases outcome with
    | ok response =>
      cases hpair
      rfl
    | error e =>
      cases hpair
      exact (record_nil _).symm
  | stream engine question now taken =>
    obtain ⟨⟨events, session, store⟩, hstream, rfl⟩ := Option.map_eq_some_iff.mp h
    obtain ⟨s, _, hpair⟩ := Option.map_eq_some_iff.mp hstream
    cases hpair
    exact ⟨_, rfl, rfl⟩
  | expandContext engine query topK now =>
    have hrecord := expandContext_record t.session engine query topK now t.store
    rw [step] at h
    cases hexpand : t.session.expandContext engine query topK now t.store with
    | mk result after =>
      rw [hexpand] at h hrecord
      obtain rfl := Option.some.inj h
      exact ⟨_, hrecord, rfl⟩

/-- The session remembers the primary chunks of the citations that it gave out. -/
def Recorded (t : Taken) : Prop :=
  ∀ id, id ∈ t.session.citedChunkIds ↔
    id ≠ [] ∧ ∃ citation ∈ t.returned, citation.chunkId = id

theorem step_recorded {op : Operation F} {t t' : Taken} (ht : Recorded t)
    (h : step op t = some t') : Recorded t' := by
  obtain ⟨citations, hsession, hreturned⟩ := step_record h
  intro id
  rw [hsession, mem_record, ht id, ← and_or_left, hreturned]
  refine and_congr_right fun _ => ?_
  simp only [List.mem_append, or_and_right, exists_or]

/-- A session that starts. -/
def Taken.new (conversationId : Text) (store : Session) : Taken where
  session := { conversationId := conversationId }
  store := store

theorem recorded_new (conversationId : Text) (store : Session) :
    Recorded (Taken.new conversationId store) := by
  intro id
  refine iff_of_false List.not_mem_nil ?_
  rintro ⟨_, citation, hcitation, _⟩
  cases hcitation

/-! ## What is fresh -/

/-- A chunk was part of a prompt. -/
def Injected (t : Taken) (id : Text) : Prop :=
  ∃ p ∈ t.prompts, ∃ chunk ∈ p.prompt.context.chunks, chunk.id = id

/-- An expansion gives a retrieved document exactly if one of its chunks was in no prompt. -/
def Surfaces (t : Taken) : Operation F → Prop
  | .expandContext engine query topK now =>
      ∀ chunks, engine.config.contextExpansion = true →
        (engine.retrieve query topK now t.store).1 = .ok chunks →
          ∃ novel, (t.session.expandContext engine query topK now t.store).1 = .ok novel ∧
            ∀ citation ∈ buildCitations engine.retrieval.snippet chunks,
              ragCitation chunks citation ∈ novel ↔
                ∃ id ∈ citation.chunkIds, ¬Injected t id
  | _ => True

/-- The chunk that a citation shows. -/
def primary (citation : Citation) : Text := citation.chunkIds.head?.getD []

/-- The best retrieved chunk of each document was the primary chunk of a citation given out
before, exactly if all its retrieved chunks were in prompts. -/
def Tracked (t : Taken) : Operation F → Prop
  | .expandContext engine query topK now =>
      ∀ chunks, engine.config.contextExpansion = true →
        (engine.retrieve query topK now t.store).1 = .ok chunks →
          ∀ citation ∈ buildCitations engine.retrieval.snippet chunks,
            (primary citation ≠ [] ∧ ∃ earlier ∈ t.returned, earlier.chunkId = primary citation) ↔
              ∀ id ∈ citation.chunkIds, Injected t id
  | _ => True

theorem expandContext_of_ok (session : RAGSession) {engine : ConfiguredEngine F} {query : Text}
    {topK : Option Int} {now : Int} {s : Session} {chunks : List RetrievedChunk}
    (hexpansion : engine.config.contextExpansion = true)
    (h : (engine.retrieve query topK now s).1 = .ok chunks) :
    (session.expandContext engine query topK now s).1 =
      .ok ((engine.citationsFor chunks).filter fun citation =>
        !session.citedChunkIds.contains citation.chunkId) := by
  unfold RAGSession.expandContext
  rw [if_neg (by rw [hexpansion]; exact Bool.false_ne_true.symm)]
  cases hretrieve : engine.retrieve query topK now s with
  | mk result cache =>
    rw [hretrieve] at h
    dsimp only at h
    subst h
    rfl

theorem surfaces_iff_tracked {t : Taken} (ht : Recorded t) (op : Operation F) :
    Surfaces t op ↔ Tracked t op := by
  cases op with
  | expandContext engine query topK now =>
    refine forall_congr' fun chunks => forall_congr' fun hexpansion =>
      forall_congr' fun hretrieve => ?_
    have hnovel := expandContext_of_ok t.session hexpansion hretrieve
    have hkept : ∀ citation ∈ buildCitations engine.retrieval.snippet chunks,
        (ragCitation chunks citation ∈ (engine.citationsFor chunks).filter (fun citation =>
          !t.session.citedChunkIds.contains citation.chunkId) ↔
            ¬(primary citation ≠ [] ∧
              ∃ earlier ∈ t.returned, earlier.chunkId = primary citation)) := by
      intro citation hcitation
      have hmem : ragCitation chunks citation ∈ engine.citationsFor chunks :=
        List.mem_map_of_mem hcitation
      rw [List.mem_filter, and_iff_right hmem, Bool.not_eq_true', ← Bool.not_eq_true,
        List.contains_iff_mem, ← ht]
      rfl
    rw [hnovel]
    constructor
    · rintro ⟨novel, heq, hsurfaces⟩ citation hcitation
      obtain rfl := Except.ok.inj heq
      have h := hsurfaces citation hcitation
      rw [hkept citation hcitation] at h
      rw [← not_iff_not, h]
      simp only [not_forall, exists_prop]
    · intro htracked
      refine ⟨_, rfl, fun citation hcitation => ?_⟩
      rw [hkept citation hcitation, htracked citation hcitation]
      simp only [not_forall, exists_prop]
  | _ => exact Iff.rfl

/-- **In every run, the expansions give the documents with a chunk that was in no prompt, and no
others, exactly if the primary chunks that were given out keep track of the prompts.** -/
theorem surfaces_iff (ops : List (Operation F)) (conversationId : Text) (store : Session) :
    Runs.Meets step Surfaces ops (Taken.new conversationId store) ↔
      Runs.Meets step Tracked ops (Taken.new conversationId store) :=
  Runs.meets_iff (fun _ _ _ ht _ h => step_recorded ht h)
    (fun _ op ht => surfaces_iff_tracked ht op) (recorded_new conversationId store)

/-! ## A document that is given again -/

def channels : RetrievedChunk where
  id := "wifi#0".toList
  documentId := "wifi".toList
  text := "Channels overlap.".toList

def power : RetrievedChunk where
  id := "wifi#1".toList
  documentId := "wifi".toList
  text := "Power is limited.".toList

/-- An engine over two chunks of one document, of which a question about power finds the second
one first. -/
def wifiEngine : ConfiguredEngine Unit where
  retrieval :=
    { retriever :=
        { collections := [{}]
          defaultTopK := 8
          search := fun query _ _ _ =>
            .ok (if query = "power?".toList then [power, channels] else [channels, power]) }
      sha256 := id
      snippet := id
      repr := fun _ => [] }
  chat := some fun _ => .ok { model := "m".toList, content := .text "so".toList }

/-- Both chunks were in the prompt of the answer, and the expansion gives their document again. -/
theorem repeated_document :
    ¬Runs.Meets step Surfaces
      [.answer wifiEngine { query := "channels?".toList } 0,
        .expandContext wifiEngine "power?".toList none 1]
      (Taken.new "c".toList {}) := by
  rintro ⟨_, hlater⟩
  have hanswer : (step (.answer wifiEngine { query := "channels?".toList } 0)
      (Taken.new "c".toList {})).map (fun t =>
        (t.prompts.flatMap fun p => p.prompt.context.chunks.map (·.id),
          t.returned.map (·.chunkId),
          (wifiEngine.retrieve "power?".toList none 1 t.store).1.toOption)) =
      some (["wifi#0".toList, "wifi#1".toList], ["wifi#0".toList], some [power, channels]) := by
    decide +kernel
  obtain ⟨t, hstep, heq⟩ := Option.map_eq_some_iff.mp hanswer
  obtain ⟨hprompts, heq⟩ := Prod.mk.inj heq
  obtain ⟨hreturned, hchunks⟩ := Prod.mk.inj heq
  have hretrieve : (wifiEngine.retrieve "power?".toList none 1 t.store).1 =
      .ok [power, channels] := by
    cases hresult : (wifiEngine.retrieve "power?".toList none 1 t.store).1 with
    | error e =>
      rw [hresult] at hchunks
      cases hchunks
    | ok chunks =>
      rw [hresult] at hchunks
      rw [Option.some.inj hchunks]
  have htracked := (surfaces_iff_tracked (step_recorded (recorded_new _ _) hstep) _).mp
    (hlater t hstep).1 [power, channels] rfl hretrieve
  have hinjected : ∀ id ∈ ["wifi#1".toList, "wifi#0".toList], Injected t id := by
    intro id hid
    have hmem : id ∈ t.prompts.flatMap fun p => p.prompt.context.chunks.map (·.id) := by
      rw [hprompts]
      exact (List.Perm.swap _ _ []).subset hid
    obtain ⟨p, hp, hchunk⟩ := List.mem_flatMap.mp hmem
    obtain ⟨chunk, hchunk, hid⟩ := List.mem_map.mp hchunk
    exact ⟨p, hp, chunk, hchunk, hid⟩
  obtain ⟨_, earlier, hearlier, hprimary⟩ :=
    (htracked _ List.mem_cons_self).mpr hinjected
  have hmem : "wifi#1".toList ∈ t.returned.map (·.chunkId) :=
    List.mem_map.mpr ⟨earlier, hearlier, hprimary⟩
  rw [hreturned] at hmem
  exact absurd hmem (by decide)

end OpenWrtCopilot.Ports.RagSessions
