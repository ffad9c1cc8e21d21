import OpenWrtCopilot.Ports.RagEngine

/-!
# Engines that share a cache

Requests without a conversation are served by engines over one cache.  The key of the retrieved
chunks is made of everything they depend on but the engine; the key of a prompt leaves out the
filters and the collections.

## Main results

* `Stems.serve` — every entry of the cache is what an earlier request with its key gives.
* `transparent_of_apart` — as long as requests with one key ask for the same, the cache changes
  no reply.
* `filters_ignored` — a question with filters is answered with a prompt without them.
-/

namespace OpenWrtCopilot.Ports.RagCache

open Verified
open Verified.PyText
open Ports.RagEngine
open Ports.RagPrompt (RagError RetrievedChunk)

variable {F : Type}

/-! ## Requests -/

/-- A call of `retrieve` or `answer`, at a time. -/
inductive Request (F : Type)
  | retrieve (engine : RetrievalEngine F) (call : Call F) (now : Int)
  | answer (engine : RetrievalEngine F) (call : Call F) (now : Int)

/-- What a request returns. -/
inductive Reply
  | chunks (result : Except RagError (List RetrievedChunk))
  | prompt (result : Except RagError PromptResponse)

/-- A response, whether it comes from the cache or not. -/
def plainResponse (response : PromptResponse) : PromptResponse :=
  { response with cached := false, cacheKey := [] }

def Reply.plain : Reply → Reply
  | .chunks result => .chunks result
  | .prompt result => .prompt (result.map plainResponse)

namespace Request

def engine : Request F → RetrievalEngine F
  | .retrieve engine _ _ => engine
  | .answer engine _ _ => engine

def call : Request F → Call F
  | .retrieve _ call _ => call
  | .answer _ call _ => call

def IsAnswer : Request F → Prop
  | .retrieve _ _ _ => False
  | .answer _ _ _ => True

/-- The request to an engine without a cache. -/
def disabled : Request F → Request F
  | .retrieve engine call now => .retrieve { engine with caching := false } call now
  | .answer engine call now => .answer { engine with caching := false } call now

/-- Whether the cache is asked. -/
def Cached (r : Request F) : Prop := r.call.useCache = true ∧ r.engine.caching = true

def retrievalKey (r : Request F) : Text := r.engine.retrievalKey r.call

def promptKey (r : Request F) : Text := r.engine.promptKey r.call

/-- What is retrieved without a cache. -/
def search (r : Request F) : Except RagError (List RetrievedChunk) := r.engine.search r.call

/-- The response with some chunks. -/
def respond (r : Request F) (chunks : List RetrievedChunk) : Except RagError PromptResponse :=
  r.engine.respond r.call.query chunks [] []

end Request

/-- A request is served; `none` if the memory does not return. -/
def serve : Request F → Session → Option (Reply × Session)
  | .retrieve engine call now, s =>
      let (result, cache) := engine.retrieve call now s.cache
      some (.chunks result, { s with cache := cache })
  | .answer engine call now, s =>
      (engine.answer call now s).map fun (result, s) => (.prompt result, s)

/-- The requests that were served, with their replies. -/
structure Served (F : Type) where
  session : Session
  replies : List (Request F × Reply) := []

def step (r : Request F) (s : Served F) : Option (Served F) :=
  (serve r s.session).map fun (reply, session) =>
    { session := session, replies := s.replies ++ [(r, reply)] }

/-- Every reply is the one that a fresh engine without a cache gives. -/
def Transparent (s : Served F) : Prop :=
  ∀ served ∈ s.replies,
    (serve served.1.disabled {}).map (fun result => result.1.plain) = some served.2.plain

/-! ## What requests ask for -/

/-- Two requests search for the same. -/
structure SameSearch (a b : Request F) : Prop where
  store : a.engine.retriever.search = b.engine.retriever.search
  rerank : a.engine.rerank = b.engine.rerank
  query : a.call.query = b.call.query
  topK : max 1 (orDefault a.call.topK a.engine.retriever.defaultTopK) =
    max 1 (orDefault b.call.topK b.engine.retriever.defaultTopK)
  topN : a.engine.rerank = none ∨ orDefault a.call.topK a.engine.config.defaultTopK =
    orDefault b.call.topK b.engine.config.defaultTopK
  filters : a.call.filters.getD [] = b.call.filters.getD []
  nameSpace : a.call.nameSpace.getD [] = b.call.nameSpace.getD []

/-- Two requests ask for the same prompt. -/
structure SamePrompt (a b : Request F) : Prop extends SameSearch a b where
  budget : a.engine.config.budget = b.engine.config.budget
  systemPrompt : a.engine.config.systemPrompt = b.engine.config.systemPrompt
  includeCitations : a.engine.config.includeCitations = b.engine.config.includeCitations
  sha256 : a.engine.sha256 = b.engine.sha256
  snippet : a.engine.snippet = b.engine.snippet

/-- Requests that share a key ask for the same. -/
structure Apart (a b : Request F) : Prop where
  retrieval : a.Cached → b.Cached → a.retrievalKey = b.retrievalKey → SameSearch a b
  prompt : a.Cached → b.Cached → a.IsAnswer → b.IsAnswer → a.promptKey = b.promptKey →
    SamePrompt a b

theorem SameSearch.search_eq {a b : Request F} (h : SameSearch a b) : a.search = b.search := by
  have hretrieve : a.engine.retriever.retrieve a.call = b.engine.retriever.retrieve b.call := by
    rw [VectorRetriever.retrieve, VectorRetriever.retrieve, h.store, h.query, h.topK, h.filters,
      h.nameSpace]
  rw [Request.search, Request.search, RetrievalEngine.search, RetrievalEngine.search, hretrieve,
    ← h.rerank, ← h.query]
  cases hrerank : a.engine.rerank with
  | none => rfl
  | some rerank =>
    obtain hnone | htop := h.topN
    · rw [hrerank] at hnone
      cases hnone
    · dsimp only
      rw [htop]

theorem SamePrompt.respond_eq {a b : Request F} (h : SamePrompt a b)
    (chunks : List RetrievedChunk) : a.respond chunks = b.respond chunks := by
  have hbuilder : a.engine.promptBuilder = b.engine.promptBuilder := by
    rw [RetrievalEngine.promptBuilder, RetrievalEngine.promptBuilder, h.systemPrompt,
      h.includeCitations, h.budget, h.sha256]
  have hcontext : a.engine.buildContext = b.engine.buildContext := by
    funext query chunks history
    rw [RetrievalEngine.buildContext, RetrievalEngine.buildContext, RetrievalEngine.contextBuilder,
      RetrievalEngine.contextBuilder, h.systemPrompt, h.includeCitations, h.budget, h.snippet]
  have hprompt : a.engine.buildPrompt = b.engine.buildPrompt := by
    funext context
    rw [RetrievalEngine.buildPrompt, RetrievalEngine.buildPrompt, hbuilder, h.budget,
      h.includeCitations, h.sha256]
  rw [Request.respond, Request.respond, RetrievalEngine.respond, RetrievalEngine.respond,
    hcontext, hprompt, h.query, h.budget]

/-! ## Where entries stem from -/

/-- The response without a cache. -/
def Request.fresh (r : Request F) : Except RagError PromptResponse := r.search >>= r.respond

/-- The entries of a cache are what earlier requests with their keys give. -/
structure Stems (served : List (Request F)) (cache : InMemoryContextCache) : Prop where
  retrieval : ∀ entry ∈ cache.retrieval, ∃ r ∈ served,
    r.Cached ∧ r.retrievalKey = entry.1 ∧ r.search = .ok entry.2.2
  prompt : ∀ entry ∈ cache.prompt, ∃ r ∈ served,
    r.Cached ∧ r.IsAnswer ∧ r.promptKey = entry.1 ∧ r.fresh = .ok (plainResponse entry.2.2)

section Cache

variable {served : List (Request F)} {cache : InMemoryContextCache}

theorem Stems.of_empty (hretrieval : cache.retrieval = []) (hprompt : cache.prompt = []) :
    Stems served cache := by
  constructor
  · intro entry hentry
    rw [hretrieval] at hentry
    cases hentry
  · intro entry hentry
    rw [hprompt] at hentry
    cases hentry

theorem Stems.snoc (h : Stems served cache) (r : Request F) : Stems (served ++ [r]) cache := by
  constructor
  · intro entry hentry
    obtain ⟨a, ha, horigin⟩ := h.retrieval entry hentry
    exact ⟨a, List.mem_append_left _ ha, horigin⟩
  · intro entry hentry
    obtain ⟨a, ha, horigin⟩ := h.prompt entry hentry
    exact ⟨a, List.mem_append_left _ ha, horigin⟩

/-- What the cache gives for a key is an entry under that key. -/
theorem mem_of_getRetrieval {key : Text} {now : Int} {chunks : List RetrievedChunk}
    (h : (cache.getRetrieval key now).1 = some chunks) :
    ∃ expires, (key, expires, chunks) ∈ cache.retrieval := by
  rw [InMemoryContextCache.getRetrieval] at h
  split at h
  · obtain ⟨⟨expires, chunks'⟩, hget, rfl⟩ := Option.map_eq_some_iff.mp h
    exact ⟨expires, List.mem_of_mem_filter (PyDict.mem_of_get? hget)⟩
  · cases h

theorem mem_of_getPrompt {key : Text} {now : Int} {response : PromptResponse}
    (h : (cache.getPrompt key now).1 = some response) :
    ∃ expires, (key, expires, response) ∈ cache.prompt := by
  rw [InMemoryContextCache.getPrompt] at h
  split at h
  · obtain ⟨⟨expires, response'⟩, hget, rfl⟩ := Option.map_eq_some_iff.mp h
    exact ⟨expires, List.mem_of_mem_filter (PyDict.mem_of_get? hget)⟩
  · cases h

/-- Entries that expire do no harm. -/
theorem Stems.getRetrieval (h : Stems served cache) (key : Text) (now : Int) :
    Stems served (cache.getRetrieval key now).2 := by
  rw [InMemoryContextCache.getRetrieval]
  split
  · exact ⟨fun entry hentry => h.retrieval entry (List.mem_of_mem_filter hentry), h.prompt⟩
  · exact h

theorem Stems.getPrompt (h : Stems served cache) (key : Text) (now : Int) :
    Stems served (cache.getPrompt key now).2 := by
  rw [InMemoryContextCache.getPrompt]
  split
  · exact ⟨h.retrieval, fun entry hentry => h.prompt entry (List.mem_of_mem_filter hentry)⟩
  · exact h

/-- Neither do entries that make room for others. -/
theorem Stems.setRetrieval (h : Stems served cache) {r : Request F} (hr : r ∈ served)
    (hcached : r.Cached) {chunks : List RetrievedChunk} (hsearch : r.search = .ok chunks)
    (now : Int) : Stems served (cache.setRetrieval r.retrievalKey chunks now) := by
  rw [InMemoryContextCache.setRetrieval]
  split
  · refine ⟨fun entry hentry => ?_, h.prompt⟩
    obtain rfl | hold := PyDict.mem_set (List.mem_of_mem_drop hentry)
    · exact ⟨r, hr, hcached, rfl, hsearch⟩
    · exact h.retrieval entry hold
  · exact h

theorem Stems.setPrompt (h : Stems served cache) {r : Request F} (hr : r ∈ served)
    (hcached : r.Cached) (hanswer : r.IsAnswer) {response : PromptResponse}
    (hfresh : r.fresh = .ok (plainResponse response)) (now : Int) :
    Stems served (cache.setPrompt r.promptKey response now) := by
  rw [InMemoryContextCache.setPrompt]
  split
  · refine ⟨h.retrieval, fun entry hentry => ?_⟩
    obtain rfl | hold := PyDict.mem_set (List.mem_of_mem_drop hentry)
    · exact ⟨r, hr, hcached, hanswer, rfl, hfresh⟩
    · exact h.prompt entry hold
  · exact h

/-! ## One request -/

variable {r : Request F}

/-- Retrieval with the cache gives what the search gives. -/
theorem Stems.retrieve (h : Stems served cache) (hapart : ∀ a ∈ served, Apart a r) (now : Int) :
    (r.engine.retrieve r.call now cache).1 = r.search ∧
      Stems (served ++ [r]) (r.engine.retrieve r.call now cache).2 := by
  have hkey : r.engine.retrievalKey r.call = r.retrievalKey := rfl
  have hsearches : r.engine.search r.call = r.search := rfl
  obtain ⟨-, heq⟩ | ⟨hcached, hcases⟩ := RetrievalEngine.retrieve_cases r.engine r.call now cache
  · rw [heq]
    exact ⟨rfl, h.snoc r⟩
  · have hpruned := (h.getRetrieval r.retrievalKey now).snoc r
    rw [hkey, hsearches] at hcases
    obtain ⟨chunks, hfound, heq⟩ | ⟨e, hsearch, heq⟩ | ⟨chunks, hsearch, heq⟩ := hcases
    · obtain ⟨expires, hentry⟩ := mem_of_getRetrieval hfound
      obtain ⟨a, ha, hacached, hakey, hasearch⟩ := h.retrieval _ hentry
      have hsame := (hapart a ha).retrieval hacached hcached hakey
      rw [heq, ← hsame.search_eq, hasearch]
      exact ⟨rfl, hpruned⟩
    · rw [heq, hsearch]
      exact ⟨rfl, hpruned⟩
    · rw [heq, hsearch]
      refine ⟨rfl, ?_⟩
      exact hpruned.setRetrieval (List.mem_append_right _ List.mem_cons_self) hcached hsearch now

/-- A response is the same under every key. -/
theorem map_respond (engine : RetrievalEngine F) (query : Text) (chunks : List RetrievedChunk)
    (key : Text) :
    (engine.respond query chunks [] key).map plainResponse = engine.respond query chunks [] [] := by
  rw [RetrievalEngine.respond, RetrievalEngine.respond]
  cases engine.buildPrompt (engine.buildContext query chunks []) with
  | error e => rfl
  | ok prompt => rfl

variable {engine : RetrievalEngine F} {call : Call F} {now : Int}

/-- The cache after an answer. -/
def keep (key : Text) (now : Int) (cache : InMemoryContextCache) :
    Except RagError PromptResponse → InMemoryContextCache
  | .error _ => cache
  | .ok response => if key ≠ [] then cache.setPrompt key response now else cache

/-- Without a conversation nothing is remembered. -/
theorem answerFresh_stateless {engine : RetrievalEngine F} {call : Call F} {now : Int}
    (hconversation : call.conversationId = none) (history : List RagMemory.Message) (key : Text)
    (s : Session) :
    engine.answerFresh call now history key s =
      some ((engine.retrieve call now s.cache).1 >>= fun chunks =>
          engine.respond call.query chunks history key,
        { s with
          cache := keep key now (engine.retrieve call now s.cache).2
            ((engine.retrieve call now s.cache).1 >>= fun chunks =>
              engine.respond call.query chunks history key) }) := by
  rw [RetrievalEngine.answerFresh]
  dsimp only
  cases (engine.retrieve call now s.cache).1 >>= fun chunks =>
      engine.respond call.query chunks history key with
  | error e => rfl
  | ok response =>
    dsimp only
    rw [RetrievalEngine.rememberTurn, hconversation, Option.map_some, keep]
    split
    · rfl
    · rfl

variable {engine : RetrievalEngine F} {call : Call F} {now : Int}

/-- The part after the cache gives what the search and the prompt give. -/
theorem Stems.answerFresh (h : Stems served cache)
    (hapart : ∀ a ∈ served, Apart a (.answer engine call now))
    (hconversation : call.conversationId = none) {key : Text}
    (hkey : key = [] ∨ (Request.answer engine call now).Cached ∧ key = engine.promptKey call)
    (s : Session) (hcache : s.cache = cache) :
    ∃ result s', engine.answerFresh call now [] key s = some (result, s') ∧
      result.map plainResponse = (Request.answer engine call now).fresh ∧
      Stems (served ++ [.answer engine call now]) s'.cache := by
  obtain ⟨hretrieve, hstems⟩ := h.retrieve hapart now
  change (engine.retrieve call now cache).1 = _ at hretrieve
  change Stems _ (engine.retrieve call now cache).2 at hstems
  refine ⟨_, _, answerFresh_stateless hconversation [] key s, ?_⟩
  rw [hcache, hretrieve]
  have hmap : ((Request.answer engine call now).search >>= fun chunks =>
      engine.respond call.query chunks [] key).map plainResponse =
        (Request.answer engine call now).fresh := by
    rw [Request.fresh]
    cases (Request.answer engine call now).search with
    | error e => rfl
    | ok chunks => exact map_respond engine call.query chunks key
  refine ⟨hmap, ?_⟩
  show Stems _ (keep key now _ _)
  cases hresult : (Request.answer engine call now).search >>= fun chunks =>
      engine.respond call.query chunks [] key with
  | error e => exact hstems
  | ok response =>
    rw [hresult] at hmap
    rw [keep]
    split
    · obtain hnone | ⟨hcached, rfl⟩ := hkey
      · exact absurd hnone ‹key ≠ []›
      · exact hstems.setPrompt (List.mem_append_right _ List.mem_cons_self) hcached trivial
          hmap.symm now
    · exact hstems

/-- What an engine without a cache answers. -/
def Request.expected (r : Request F) : Except RagError PromptResponse :=
  if strip r.call.query = [] then .error (.value "query must be a non-empty string".toList)
  else r.fresh

/-- So does one with a cache. -/
theorem Stems.answer (h : Stems served cache)
    (hapart : ∀ a ∈ served, Apart a (.answer engine call now))
    (hconversation : call.conversationId = none) (s : Session) (hcache : s.cache = cache) :
    ∃ result s', engine.answer call now s = some (result, s') ∧
      result.map plainResponse = (Request.answer engine call now).expected ∧
      Stems (served ++ [.answer engine call now]) s'.cache := by
  rw [RetrievalEngine.answer, Request.expected, Request.call]
  by_cases hquery : strip call.query = []
  · rw [if_pos hquery, if_pos hquery]
    exact ⟨_, _, rfl, rfl, hcache ▸ h.snoc _⟩
  · have hhistory : engine.historyFor none s.conversations = [] := rfl
    rw [if_neg hquery, if_neg hquery, hconversation, hhistory]
    dsimp only
    by_cases hcached : (Request.answer engine call now).Cached
    · rw [if_pos ⟨hcached.1, hcached.2, rfl⟩, hcache]
      have hpruned := h.getPrompt (engine.promptKey call) now
      have hmem := @mem_of_getPrompt cache (engine.promptKey call) now
      cases hget : cache.getPrompt (engine.promptKey call) now with
      | mk found pruned =>
        rw [hget] at hpruned hmem
        cases found with
        | some response =>
          obtain ⟨expires, hentry⟩ := hmem rfl
          obtain ⟨a, ha, hacached, haanswer, hakey, hafresh⟩ := h.prompt _ hentry
          have hsame := (hapart a ha).prompt hacached hcached haanswer trivial hakey
          refine ⟨_, _, rfl, ?_, hpruned.snoc _⟩
          have hfresh : a.fresh = (Request.answer engine call now).fresh := by
            rw [Request.fresh, Request.fresh, hsame.search_eq, funext hsame.respond_eq]
          rw [← hfresh, hafresh]
          rfl
        | none =>
          exact hpruned.answerFresh hapart hconversation (Or.inr ⟨hcached, rfl⟩)
            { s with cache := pruned } rfl
    · rw [if_neg fun hon => hcached ⟨hon.1, hon.2.1⟩]
      exact h.answerFresh hapart hconversation (Or.inl rfl) s hcache

/-- What a request returns without a cache. -/
def Request.expectedReply (r : Request F) : Reply :=
  match r with
  | .retrieve _ _ _ => .chunks r.search
  | .answer _ _ _ => .prompt r.expected

/-- A request is served as without a cache. -/
theorem Stems.serve {s : Session} (h : Stems served s.cache) (hapart : ∀ a ∈ served, Apart a r)
    (hconversation : r.call.conversationId = none) :
    ∃ reply s', serve r s = some (reply, s') ∧ reply.plain = r.expectedReply ∧
      Stems (served ++ [r]) s'.cache := by
  cases r with
  | retrieve engine call now =>
    obtain ⟨hretrieve, hstems⟩ := h.retrieve hapart now
    exact ⟨_, _, rfl, congrArg Reply.chunks hretrieve, hstems⟩
  | answer engine call now =>
    obtain ⟨result, s', hanswer, hresult, hstems⟩ := h.answer hapart hconversation s rfl
    refine ⟨.prompt result, s', ?_, congrArg Reply.prompt hresult, hstems⟩
    rw [RagCache.serve, hanswer, Option.map_some]

theorem serve_disabled (hconversation : r.call.conversationId = none) :
    (serve r.disabled {}).map (fun result => result.1.plain) = some r.expectedReply := by
  have hempty : Stems ([] : List (Request F)) ({} : Session).cache := .of_empty rfl rfl
  have hconversation' : r.disabled.call.conversationId = none := by
    cases r with
    | retrieve engine call now => exact hconversation
    | answer engine call now => exact hconversation
  have hsame : r.disabled.expectedReply = r.expectedReply := by
    cases r with
    | retrieve engine call now => rfl
    | answer engine call now => rfl
  obtain ⟨reply, s', hserve, hreply, -⟩ := hempty.serve (r := r.disabled) (fun a ha => absurd ha List.not_mem_nil)
      hconversation'
  rw [hserve, Option.map_some, hreply, hsame]

end Cache

/-! ## Runs -/

/-- The requests so far. -/
def Served.requests (s : Served F) : List (Request F) := s.replies.map Prod.fst

theorem transparent_run {requests : List (Request F)} {s : Served F}
    (hstems : Stems s.requests s.session.cache) (htransparent : Transparent s)
    (hapart : (s.requests ++ requests).Pairwise Apart)
    (hconversation : ∀ r ∈ requests, r.call.conversationId = none) :
    ∃ t, Runs.run step requests s = some t ∧ t.requests = s.requests ++ requests ∧
      Transparent t := by
  induction requests generalizing s with
  | nil => exact ⟨s, rfl, (List.append_nil _).symm, htransparent⟩
  | cons r requests ih =>
    have hr := hconversation r List.mem_cons_self
    obtain ⟨reply, session, hserve, hreply, hnext⟩ := hstems.serve
      (fun a ha => (List.pairwise_append.mp hapart).2.2 a ha r List.mem_cons_self) hr
    have hstep : step r s =
        some { session := session, replies := s.replies ++ [(r, reply)] } := by
      rw [step, hserve, Option.map_some]
    have hserved : Served.requests
        { session := session, replies := s.replies ++ [(r, reply)] } = s.requests ++ [r] :=
      List.map_append
    have hsplit : s.requests ++ r :: requests = (s.requests ++ [r]) ++ requests :=
      List.append_cons _ _ _
    rw [hsplit] at hapart ⊢
    rw [Runs.run, hstep, Option.bind_some, ← hserved]
    refine ih ?_ ?_ ?_ fun b hb => hconversation b (List.mem_cons_of_mem r hb)
    · rw [hserved]
      exact hnext
    · intro served hserved
      obtain hold | hnew := List.mem_append.mp hserved
      · exact htransparent served hold
      · obtain rfl := List.mem_singleton.mp hnew
        rw [serve_disabled hr, ← hreply]
    · rw [hserved]
      exact hapart

/-- **As long as requests that share a key ask for the same, engines that share a cache reply to
every request what they would reply without it.** -/
theorem transparent_of_apart {requests : List (Request F)} {s : Session}
    (hretrieval : s.cache.retrieval = []) (hprompt : s.cache.prompt = [])
    (hconversation : ∀ r ∈ requests, r.call.conversationId = none)
    (hapart : requests.Pairwise Apart) :
    ∃ t, Runs.run step requests { session := s } = some t ∧ t.requests = requests ∧
      Transparent t :=
  transparent_run (s := { session := s }) (.of_empty hretrieval hprompt)
    (fun _ hserved => absurd hserved List.not_mem_nil) hapart hconversation

/-! ## Filters -/

/-- The chunks that a reply shows. -/
def Reply.shown : Reply → List RetrievedChunk
  | .chunks result => result.toOption.getD []
  | .prompt result => (result.toOption.map fun response => response.prompt.context.chunks).getD []

theorem Reply.shown_plain (reply : Reply) : reply.plain.shown = reply.shown := by
  cases reply with
  | chunks result => rfl
  | prompt result =>
    cases result with
    | error e => rfl
    | ok response => rfl

/-- What a request should show and what it shows. -/
def shows (served : Request F × Reply) : Option (List RetrievedChunk) × List RetrievedChunk :=
  ((serve served.1.disabled {}).map fun result => result.1.shown, served.2.shown)

theorem Transparent.shows {s : Served F} (h : Transparent s) {served : Request F × Reply}
    (hserved : served ∈ s.replies) : (shows served).1 = some (shows served).2 := by
  have hsame := congrArg (Option.map Reply.shown) (h served hserved)
  rw [Option.map_map, Option.map_some, Reply.shown_plain] at hsame
  rw [RagCache.shows, ← hsame]
  exact congrArg (fun f => Option.map f _) (funext fun result => (Reply.shown_plain result.1).symm)

def zones : RetrievedChunk where
  id := "a".toList
  documentId := "zones".toList
  text := "Zones have rules.".toList

def rules : RetrievedChunk where
  id := "b".toList
  documentId := "rules".toList
  text := "Rules are ordered.".toList

/-- An engine over two documents; a filter names a document. -/
def library : RetrievalEngine Text where
  retriever :=
    { collections := [{}]
      defaultTopK := 8
      search := fun _ _ filters _ =>
        .ok ([zones, rules].filter fun chunk => filters.all (· = chunk.documentId)) }
  sha256 := id
  snippet := id
  repr := join ", ".toList

/-- A question, about all documents or some. -/
def ask (query : String) (filters : Option (List Text)) (now : Int) : Request Text :=
  .answer library { query := query.toList, filters := filters } now

def Request.now : Request F → Int
  | .retrieve _ _ now => now
  | .answer _ _ now => now

/-- A question that is asked again with a filter gets the prompt without the filter. -/
theorem filters_ignored :
    ¬ ∀ (requests : List (Request Text)) (t : Served Text),
      (∀ r ∈ requests, r.Cached ∧ r.call.conversationId = none ∧ r.now = 0) →
        Runs.run step requests { session := {} } = some t → Transparent t := by
  intro h
  have hrun : (Runs.run step [ask "rules?" none 0, ask "rules?" (some ["rules".toList]) 0]
      { session := {} }).map (fun t => t.replies.map shows) =
        some [(some [zones, rules], [zones, rules]), (some [rules], [zones, rules])] := by
    decide +kernel
  obtain ⟨t, ht, hshows⟩ := Option.map_eq_some_iff.mp hrun
  have htransparent := h _ t (by simp [ask, Request.Cached, Request.call, Request.engine,
    Request.now, library]) ht
  have hsecond : (some [rules], [zones, rules]) ∈ t.replies.map shows := by
    rw [hshows]
    exact List.mem_cons_of_mem _ List.mem_cons_self
  obtain ⟨served, hserved, heq⟩ := List.mem_map.mp hsecond
  have hsame := htransparent.shows hserved
  rw [heq] at hsame
  exact absurd hsame (by decide)

/-- The same question twice, and another one. -/
theorem repeated_question :
    ∃ t, Runs.run step [ask "rules?" none 0, ask "rules?" (some []) 1, ask "zones?" none 2]
        { session := {} } = some t ∧
      t.requests = [ask "rules?" none 0, ask "rules?" (some []) 1, ask "zones?" none 2] ∧
      Transparent t := by
  have hsame : Apart (ask "rules?" none 0) (ask "rules?" (some []) 1) :=
    ⟨fun _ _ _ => ⟨rfl, rfl, rfl, rfl, Or.inl rfl, rfl, rfl⟩,
      fun _ _ _ _ _ => ⟨⟨rfl, rfl, rfl, rfl, Or.inl rfl, rfl, rfl⟩, rfl, rfl, rfl, rfl, rfl⟩⟩
  have hother : ∀ filters ∈ [none, some []], ∀ now,
      Apart (ask "rules?" filters now) (ask "zones?" none 2) := by
    intro filters hfilters now
    have hkeys : (library.retrievalKey { query := "rules?".toList, filters := filters } ≠
          library.retrievalKey { query := "zones?".toList }) ∧
        library.promptKey { query := "rules?".toList, filters := filters } ≠
          library.promptKey { query := "zones?".toList } := by
      revert filters
      decide
    exact ⟨fun _ _ hkey => absurd hkey hkeys.1, fun _ _ _ _ hkey => absurd hkey hkeys.2⟩
  refine transparent_of_apart rfl rfl ?_ ?_
  · simp [ask, Request.call]
  · refine .cons ?_ (.cons ?_ (.cons (fun _ hlater => absurd hlater List.not_mem_nil) .nil))
    · intro later hlater
      obtain rfl | hlater := List.mem_cons.mp hlater
      · exact hsame
      · obtain rfl := List.mem_singleton.mp hlater
        exact hother none List.mem_cons_self 0
    · intro later hlater
      obtain rfl := List.mem_singleton.mp hlater
      exact hother (some []) (List.mem_cons_of_mem _ List.mem_cons_self) 1

end OpenWrtCopilot.Ports.RagCache
