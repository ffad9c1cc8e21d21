import OpenWrtCopilot.Ports.RagPrompt

/-!
# The retrieval engine

Ports `RetrievalEngine` with `InMemoryContextCache`.  A question is answered with a prompt that
is built from the retrieved chunks and the history of the conversation; without a conversation,
prompts are cached, and the chunks are cached always.  The search in the vector store is a
function of the question, the number of results, the filters and the namespace.

## Main results

* `buildPrompt_spec` — the history and the chunks of a prompt, whether it was reduced or not.
* `answer_conversation` — an answer in a conversation.
-/

namespace OpenWrtCopilot.Ports.RagEngine

open Verified
open Verified.PyDict (Dict get?)
open Verified.PyText
open Verified.Suffixes (latest longest longestPrefix)
open Ports.RagMemory (ConversationState Message RollingConversationMemory)
open Ports.RagPrompt

variable {F : Type}

/-! ## Configuration -/

/-- `CollectionRef`; a weight is a number as it is printed. -/
structure CollectionRef where
  name : Text := "documents".toList
  nameSpace : Text := "default".toList
  weight : Text := "1.0".toList
  deriving DecidableEq

/-- `RetrievalConfig` with its parts. -/
structure RetrievalConfig where
  defaultTopK : Int := 8
  budget : TokenBudgetConfig := {}
  systemPrompt : Text := []
  includeCitations : Bool := true

/-- `TokenCounts`. -/
structure TokenCounts where
  promptTokens : Nat
  contextTokens : Nat
  historyTokens : Nat
  maxTokens : Int

/-- `PromptResponse`. -/
structure PromptResponse where
  query : Text
  prompt : PromptRequest
  tokens : TokenCounts
  cached : Bool := false
  cacheKey : Text := []

/-- `VectorRetriever`, with the search in the store. -/
structure VectorRetriever (F : Type) where
  collections : List CollectionRef
  defaultTopK : Int
  search : Text → Int → List F → Text → Except RagError (List RetrievedChunk)

/-- `RetrievalEngine`, with the digest, the snippets of citations and the printed filters. -/
structure RetrievalEngine (F : Type) where
  retriever : VectorRetriever F
  /-- `reranker.rerank`, with the number of results. -/
  rerank : Option (Text → List RetrievedChunk → Int → Except RagError (List RetrievedChunk)) := none
  config : RetrievalConfig := {}
  memory : Option RollingConversationMemory := none
  /-- Whether there is a cache. -/
  caching : Bool := true
  sha256 : Text → Text
  snippet : Text → Text
  repr : List F → Text

/-- The arguments of a call. -/
structure Call (F : Type) where
  query : Text
  conversationId : Option Text := none
  topK : Option Int := none
  filters : Option (List F) := none
  nameSpace : Option Text := none
  useCache : Bool := true
  remember : Bool := true

/-! ## The cache -/

/-- `InMemoryContextCache`: its configuration, and entries with the times at which they expire. -/
structure InMemoryContextCache where
  enabled : Bool := true
  retrievalTtlSeconds : Int := 300
  promptTtlSeconds : Int := 60
  maxEntries : Nat := 512
  retrieval : Dict Text (Int × List RetrievedChunk) := []
  prompt : Dict Text (Int × PromptResponse) := []

/-- `_prune`. -/
def prune {α : Type} (now : Int) (bucket : Dict Text (Int × α)) : Dict Text (Int × α) :=
  bucket.filter fun entry => now < entry.2.1

/-- `_evict`: the oldest entries go. -/
def evict {α : Type} (maxEntries : Nat) (bucket : Dict Text (Int × α)) : Dict Text (Int × α) :=
  bucket.drop (bucket.length - maxEntries)

namespace InMemoryContextCache

variable (cache : InMemoryContextCache)

/-- `get_retrieval`. -/
def getRetrieval (key : Text) (now : Int) : Option (List RetrievedChunk) × InMemoryContextCache :=
  if cache.enabled = true then
    let retrieval := prune now cache.retrieval
    ((get? key retrieval).map Prod.snd, { cache with retrieval := retrieval })
  else (none, cache)

/-- `set_retrieval`. -/
def setRetrieval (key : Text) (chunks : List RetrievedChunk) (now : Int) :
    InMemoryContextCache :=
  if cache.enabled = true then
    { cache with
      retrieval := evict cache.maxEntries
        (PyDict.set key (now + cache.retrievalTtlSeconds, chunks) cache.retrieval) }
  else cache

/-- `get_prompt`. -/
def getPrompt (key : Text) (now : Int) : Option PromptResponse × InMemoryContextCache :=
  if cache.enabled = true then
    let prompt := prune now cache.prompt
    ((get? key prompt).map Prod.snd, { cache with prompt := prompt })
  else (none, cache)

/-- `set_prompt`. -/
def setPrompt (key : Text) (response : PromptResponse) (now : Int) : InMemoryContextCache :=
  if cache.enabled = true then
    { cache with
      prompt := evict cache.maxEntries
        (PyDict.set key (now + cache.promptTtlSeconds, response) cache.prompt) }
  else cache

end InMemoryContextCache

/-! ## Retrieval -/

/-- `top_k or default`. -/
def orDefault (topK : Option Int) (default : Int) : Int :=
  match topK with
  | some k => if k = 0 then default else k
  | none => default

/-- `VectorRetriever.retrieve`; empty filters and an empty namespace are as good as none. -/
def VectorRetriever.retrieve (r : VectorRetriever F) (call : Call F) :
    Except RagError (List RetrievedChunk) :=
  if strip call.query = [] then .error (.retriever "query must be a non-empty string".toList)
  else r.search call.query (max 1 (orDefault call.topK r.defaultTopK)) (call.filters.getD [])
    (call.nameSpace.getD [])

namespace RetrievalEngine

variable (engine : RetrievalEngine F)

/-- `_collection_signature`. -/
def collectionSignature : Text :=
  join ";".toList (engine.retriever.collections.map fun ref =>
    ref.name ++ ":".toList ++ ref.nameSpace ++ ":".toList ++ ref.weight)

/-- `str(top_k or default_top_k)`. -/
def topKText (call : Call F) : Text :=
  intText (orDefault call.topK engine.config.defaultTopK)

/-- `_retrieval_key`. -/
def retrievalKey (call : Call F) : Text :=
  checksumKey engine.sha256
    ["retrieval".toList, engine.collectionSignature, engine.topKText call,
      call.nameSpace.getD [], engine.repr (call.filters.getD []), call.query]

/-- `_prompt_key`, without a history. -/
def promptKey (call : Call F) : Text :=
  checksumKey engine.sha256
    ["prompt".toList, call.query, engine.topKText call, call.nameSpace.getD [], []]

/-- The chunks as the retriever and the reranker give them. -/
def search (call : Call F) : Except RagError (List RetrievedChunk) := do
  let chunks ← engine.retriever.retrieve call
  match engine.rerank with
  | none => return chunks
  | some rerank => rerank call.query chunks (orDefault call.topK engine.config.defaultTopK)

/-- `retrieve`. -/
def retrieve (call : Call F) (now : Int) (cache : InMemoryContextCache) :
    Except RagError (List RetrievedChunk) × InMemoryContextCache :=
  if call.useCache = true ∧ engine.caching = true then
    let key := engine.retrievalKey call
    match cache.getRetrieval key now with
    | (some chunks, cache) => (.ok chunks, cache)
    | (none, cache) =>
        match engine.search call with
        | .error e => (.error e, cache)
        | .ok chunks => (.ok chunks, cache.setRetrieval key chunks now)
  else (engine.search call, cache)

/-! ## Prompts -/

/-- The context builder of the constructor; it is not given the budget. -/
def contextBuilder : DefaultContextBuilder where
  maxDocuments := engine.config.budget.maxDocuments
  maxChunksPerDocument := engine.config.budget.maxChunksPerDocument
  includeCitations := engine.config.includeCitations
  snippet := engine.snippet

def promptBuilder : DefaultPromptBuilder where
  systemPrompt := engine.config.systemPrompt
  includeCitations := engine.config.includeCitations
  reservedOutputTokens := engine.config.budget.reservedOutputTokens
  sha256 := engine.sha256

/-- `_build_context`. -/
def buildContext (query : Text) (chunks : List RetrievedChunk) (history : List Message) :
    PromptContext :=
  engine.contextBuilder.build query chunks history engine.config.systemPrompt

/-- The prompt of an answer, reduced if it is too long. -/
def buildPrompt (context : PromptContext) : Except RagError PromptRequest := do
  let budget := engine.config.budget.maxPromptTokens
  let prompt := engine.promptBuilder.build context
  let prompt ← if budget < prompt.tokenEstimate then
      optimize engine.sha256 engine.config.includeCitations prompt budget
    else pure prompt
  if budget < prompt.tokenEstimate then
    throw (.contextLimit ("prompt is ".toList ++ natText prompt.tokenEstimate ++
      " tokens; budget is ".toList ++ intText budget))
  return prompt

/-- The response with a prompt. -/
def respond (query : Text) (chunks : List RetrievedChunk) (history : List Message)
    (cacheKey : Text) : Except RagError PromptResponse := do
  let context := engine.buildContext query chunks history
  let prompt ← engine.buildPrompt context
  return {
    query := query
    prompt := prompt
    tokens :=
      { promptTokens := prompt.tokenEstimate
        contextTokens := context.tokenEstimate
        historyTokens := estimateMessages context.history
        maxTokens := engine.config.budget.reservedOutputTokens }
    cacheKey := cacheKey }

/-! ## Answers -/

/-- `_history_for`. -/
def historyFor (conversationId : Option Text) (conversations : Dict Text ConversationState) :
    List Message :=
  match conversationId, engine.memory with
  | some conversationId, some memory =>
      memory.history conversationId
        (some (engine.config.budget.historyBudget engine.config.budget.reservedOutputTokens))
        conversations
  | _, _ => []

end RetrievalEngine

/-- What engines work on: the conversations, and the cache. -/
structure Session where
  conversations : Dict Text ConversationState := []
  cache : InMemoryContextCache := {}

namespace RetrievalEngine

variable (engine : RetrievalEngine F)

/-- The user's turn is remembered; `none` if the memory does not return. -/
def rememberTurn (call : Call F) (s : Session) : Option Session :=
  match call.conversationId, engine.memory with
  | some conversationId, some memory =>
      if call.remember = true then
        (memory.add conversationId { role := "user".toList, content := call.query }
          s.conversations).map fun (conversations, _) => { s with conversations := conversations }
      else some s
  | _, _ => some s

/-- The part of `answer` after the cache was asked for a prompt. -/
def answerFresh (call : Call F) (now : Int) (history : List Message) (promptKey : Text)
    (s : Session) : Option (Except RagError PromptResponse × Session) :=
  let (retrieved, cache) := engine.retrieve call now s.cache
  let s := { s with cache := cache }
  match retrieved >>= fun chunks => engine.respond call.query chunks history promptKey with
  | .error e => some (.error e, s)
  | .ok response =>
      (engine.rememberTurn call s).map fun s =>
        (.ok response, if promptKey ≠ [] then
          { s with cache := s.cache.setPrompt promptKey response now } else s)

/-- `answer`; `none` if the memory does not return. -/
def answer (call : Call F) (now : Int) (s : Session) :
    Option (Except RagError PromptResponse × Session) :=
  if strip call.query = [] then
    some (.error (.value "query must be a non-empty string".toList), s)
  else
    let history := engine.historyFor call.conversationId s.conversations
    if call.useCache = true ∧ engine.caching = true ∧ call.conversationId = none then
      let key := engine.promptKey call
      match s.cache.getPrompt key now with
      | (some response, cache) =>
          some (.ok { response with cached := true }, { s with cache := cache })
      | (none, cache) => engine.answerFresh call now history key { s with cache := cache }
    else engine.answerFresh call now history [] s

/-- `complete_turn`. -/
def completeTurn (conversationId : Text) (assistantText : Text) (s : Session) :
    Option Session :=
  match engine.memory with
  | none => some s
  | some memory =>
      (memory.add conversationId { role := "assistant".toList, content := assistantText }
        s.conversations).map fun (conversations, _) => { s with conversations := conversations }

/-! ## What an answer contains -/

section Spec

variable {engine}

theorem build_context {context : PromptContext}
    (hsystem : context.systemPrompt = engine.config.systemPrompt) :
    (engine.promptBuilder.build context).context = context := by
  have hbuilder : engine.promptBuilder.systemPrompt = context.systemPrompt := hsystem.symm
  rw [DefaultPromptBuilder.build]
  dsimp only
  split
  · rw [hbuilder]
  · rfl

/-- A prompt renders what the reductions leave of its context. -/
theorem buildPrompt_spec {context : PromptContext} {prompt : PromptRequest}
    (hsystem : context.systemPrompt = engine.config.systemPrompt)
    (h : engine.buildPrompt context = .ok prompt) :
    Reduced engine.config.includeCitations engine.config.budget.maxPromptTokens context
      prompt := by
  have hcontext := build_context hsystem
  have hmessages : (engine.promptBuilder.build context).messages =
      renderMessages engine.config.includeCitations
        (engine.promptBuilder.build context).context := rfl
  have htokens : (engine.promptBuilder.build context).tokenEstimate =
      promptTokens engine.config.includeCitations
        (engine.promptBuilder.build context).context := rfl
  rw [hcontext] at hmessages htokens
  rw [buildPrompt] at h
  dsimp only at h
  by_cases hlong : engine.config.budget.maxPromptTokens <
      (engine.promptBuilder.build context).tokenEstimate
  · rw [if_pos hlong] at h
    cases hoptimize : optimize engine.sha256 engine.config.includeCitations
        (engine.promptBuilder.build context) engine.config.budget.maxPromptTokens with
    | error e =>
      rw [hoptimize] at h
      cases h
    | ok reduced =>
      rw [hoptimize] at h
      have hspec := optimize_spec hcontext (by omega) hoptimize
      change (if engine.config.budget.maxPromptTokens < reduced.tokenEstimate then _ else _) = _
        at h
      split at h
      · cases h
      · obtain rfl := Except.ok.inj h
        exact hspec
  · rw [if_neg hlong] at h
    change (if engine.config.budget.maxPromptTokens <
      (engine.promptBuilder.build context).tokenEstimate then _ else _) = _ at h
    rw [if_neg hlong] at h
    obtain rfl := Except.ok.inj h
    have hfits : Fits engine.config.includeCitations engine.config.budget.maxPromptTokens
        context := by
      rw [Fits, ← htokens]
      omega
    obtain ⟨hchunks, hcitations, hhistory⟩ := reduce_of_fits hfits
    refine ⟨?_, ?_, ?_, ?_, ?_, ?_⟩
    · rw [hmessages, hcontext]
    · rw [hcontext]
    · rw [hcontext]
    · rw [hcontext, hchunks]
    · rw [hcontext, hcitations]
    · rw [hcontext, hhistory]

/-- So does the prompt of a response. -/
theorem respond_spec {query : Text} {chunks : List RetrievedChunk} {history : List Message}
    {cacheKey : Text} {response : PromptResponse}
    (h : engine.respond query chunks history cacheKey = .ok response) :
    Reduced engine.config.includeCitations engine.config.budget.maxPromptTokens
      (engine.buildContext query chunks history) response.prompt := by
  rw [respond] at h
  cases hprompt : engine.buildPrompt (engine.buildContext query chunks history) with
  | error e =>
    rw [hprompt] at h
    cases h
  | ok prompt =>
    rw [hprompt] at h
    obtain rfl := Except.ok.inj h
    exact buildPrompt_spec rfl hprompt

/-- The four ways in which chunks are retrieved. -/
theorem retrieve_cases (engine : RetrievalEngine F) (call : Call F) (now : Int)
    (cache : InMemoryContextCache) :
    (¬ (call.useCache = true ∧ engine.caching = true) ∧
      engine.retrieve call now cache = (engine.search call, cache)) ∨
    (call.useCache = true ∧ engine.caching = true) ∧
      ((∃ chunks, (cache.getRetrieval (engine.retrievalKey call) now).1 = some chunks ∧
        engine.retrieve call now cache =
          (.ok chunks, (cache.getRetrieval (engine.retrievalKey call) now).2)) ∨
      (∃ e, engine.search call = .error e ∧ engine.retrieve call now cache =
        (.error e, (cache.getRetrieval (engine.retrievalKey call) now).2)) ∨
      ∃ chunks, engine.search call = .ok chunks ∧ engine.retrieve call now cache =
        (.ok chunks, (cache.getRetrieval (engine.retrievalKey call) now).2.setRetrieval
          (engine.retrievalKey call) chunks now)) := by
  rw [retrieve]
  by_cases hcached : call.useCache = true ∧ engine.caching = true
  · rw [if_pos hcached]
    refine Or.inr ⟨hcached, ?_⟩
    dsimp only
    cases cache.getRetrieval (engine.retrievalKey call) now with
    | mk found pruned =>
      cases found with
      | some chunks => exact Or.inl ⟨chunks, rfl, rfl⟩
      | none =>
        cases engine.search call with
        | error e => exact Or.inr (Or.inl ⟨e, rfl, rfl⟩)
        | ok chunks => exact Or.inr (Or.inr ⟨chunks, rfl, rfl⟩)
  · rw [if_neg hcached]
    exact Or.inl ⟨hcached, rfl⟩

/-- The two ways in which the part after the cache ends. -/
theorem answerFresh_cases {call : Call F} {now : Int} {history : List Message} {key : Text}
    {s s' : Session} {result : Except RagError PromptResponse}
    (h : engine.answerFresh call now history key s = some (result, s')) :
    (∃ e, result = .error e ∧
      s' = { s with cache := (engine.retrieve call now s.cache).2 }) ∨
    ∃ chunks response remembered, (engine.retrieve call now s.cache).1 = .ok chunks ∧
      engine.respond call.query chunks history key = .ok response ∧ result = .ok response ∧
      engine.rememberTurn call { s with cache := (engine.retrieve call now s.cache).2 } =
        some remembered ∧
      s' = if key ≠ [] then
        { remembered with cache := remembered.cache.setPrompt key response now } else remembered := by
  rw [answerFresh] at h
  cases hretrieve : engine.retrieve call now s.cache with
  | mk retrieved cache =>
    rw [hretrieve] at h
    dsimp only at h
    cases retrieved with
    | error e =>
      obtain ⟨rfl, rfl⟩ := Prod.mk.inj (Option.some.inj h)
      exact Or.inl ⟨e, rfl, rfl⟩
    | ok chunks =>
      change (match engine.respond call.query chunks history key with
        | .error e => _
        | .ok response => _) = _ at h
      cases hrespond : engine.respond call.query chunks history key with
      | error e =>
        rw [hrespond] at h
        obtain ⟨rfl, rfl⟩ := Prod.mk.inj (Option.some.inj h)
        exact Or.inl ⟨e, rfl, rfl⟩
      | ok response =>
        rw [hrespond] at h
        obtain ⟨remembered, hremember, hpair⟩ := Option.map_eq_some_iff.mp h
        obtain ⟨rfl, rfl⟩ := Prod.mk.inj hpair
        exact Or.inr ⟨chunks, response, remembered, rfl, hrespond, rfl, hremember, rfl⟩

/-- In a conversation no prompt comes from the cache. -/
theorem answer_eq {call : Call F} {now : Int} {s : Session} {conversationId : Text}
    (hconversation : call.conversationId = some conversationId)
    (hquery : strip call.query ≠ []) :
    engine.answer call now s =
      engine.answerFresh call now (engine.historyFor (some conversationId) s.conversations) []
        s := by
  rw [answer, if_neg hquery, hconversation]
  dsimp only
  rw [if_neg fun h => absurd h.2.2 (Option.some_ne_none conversationId)]

/-- An answer in a conversation has a prompt that was built from the history and some chunks. -/
theorem answer_conversation {call : Call F} {now : Int} {s s' : Session}
    {conversationId : Text} {response : PromptResponse}
    (hconversation : call.conversationId = some conversationId)
    (h : engine.answer call now s = some (.ok response, s')) :
    ∃ chunks, (engine.retrieve call now s.cache).1 = .ok chunks ∧
      engine.respond call.query chunks
        (engine.historyFor (some conversationId) s.conversations) [] = .ok response := by
  by_cases hquery : strip call.query = []
  · rw [answer, if_pos hquery] at h
    cases h
  · rw [answer_eq hconversation hquery] at h
    obtain ⟨e, herror, -⟩ | ⟨chunks, other, -, hretrieve, hrespond, hresult, -, -⟩ :=
      answerFresh_cases h
    · cases herror
    · obtain rfl := Except.ok.inj hresult
      exact ⟨chunks, hretrieve, hrespond⟩

end Spec

end RetrievalEngine

end OpenWrtCopilot.Ports.RagEngine
