import OpenWrtCopilot.Ports.RagEngine

/-!
# The history in a prompt

The history of a prompt is cut three times: by the memory, to the configured budget; by the
context builder, to the default budget; and by the optimizer, to what the prompt has room for.
The memory takes a budget of zero for no limit.  This module derives the budget that takes
effect.

## Main results

* `history_effective` — the history of a prompt, for every configuration.
* `isLatest_history_iff` — when it is what the configured budget allows.
* `unlimited_zero_budget` — a budget of zero does not keep the history out.
-/

namespace OpenWrtCopilot.Ports.RagHistory

open Verified
open Verified.PyText
open Verified.Suffixes (IsLatest latest longest totalCost)
open Ports.RagEngine
open Ports.RagMemory (Conversations Message RollingConversationMemory Turn)
open Ports.RagPrompt (PromptRequest RagError RetrievedChunk TokenBudgetConfig bare
  cost cost_nonneg estimate overhead renderMessages)

variable {F : Type}

/-! ## Budgets -/

/-- The memory that an engine is given, with the default estimator. -/
def memoryOf (windowSize maxSnapshots compressThreshold : Int)
    (summarize : List Message → Text × List Text) (sha256 : Text → Text) :
    RollingConversationMemory :=
  .init windowSize maxSnapshots compressThreshold (fun text => estimate text) summarize sha256

/-- What stands between the system message and the user message. -/
def historyOf (prompt : PromptRequest) : List Message := prompt.messages.tail.dropLast

/-- The configured history budget. -/
def configured (engine : RetrievalEngine F) : Int :=
  engine.config.budget.historyBudget engine.config.budget.reservedOutputTokens

/-- What the context builder and the prompt, without its chunks, leave for the history. -/
def room (engine : RetrievalEngine F) (query : Text) (chunks : List RetrievedChunk) : Int :=
  max 0 (min (({} : TokenBudgetConfig).historyBudget 0)
    (engine.config.budget.maxPromptTokens -
      overhead engine.config.includeCitations (bare (engine.buildContext query chunks []) [])))

/-- The budget that takes effect. -/
def effective (engine : RetrievalEngine F) (query : Text) (chunks : List RetrievedChunk) : Int :=
  if 0 < configured engine then min (configured engine) (room engine query chunks)
  else room engine query chunks

theorem room_nonneg (engine : RetrievalEngine F) (query : Text) (chunks : List RetrievedChunk) :
    0 ≤ room engine query chunks := le_max_left 0 _

theorem configured_nonneg (engine : RetrievalEngine F) : 0 ≤ configured engine :=
  le_max_left 0 _

/-! ## The history that takes effect -/

section Effective

variable {engine : RetrievalEngine F} {query : Text} {chunks : List RetrievedChunk}
  {history : List Message}

/-- A nonempty history costs something. -/
theorem totalCost_pos {messages : List Message} (hne : messages ≠ [])
    (hcontent : ∀ message ∈ messages, message.content ≠ []) : 0 < totalCost cost messages := by
  obtain ⟨message, rest, rfl⟩ := List.exists_cons_of_ne_nil hne
  have hfirst : 0 < cost message :=
    Int.natCast_pos.mpr (RagPrompt.estimate_pos (hcontent message List.mem_cons_self))
  have hrest := Suffixes.totalCost_nonneg cost_nonneg rest
  rw [Suffixes.totalCost_cons]
  omega

/-- What the builder and the optimizer make of a history. -/
theorem history_room (hcontent : ∀ message ∈ history, message.content ≠ [])
    {prompt : PromptRequest}
    (h : RagPrompt.Reduced engine.config.includeCitations engine.config.budget.maxPromptTokens
      (engine.buildContext query chunks history) prompt) :
    historyOf prompt = latest cost (room engine query chunks) history := by
  have hmessages : historyOf prompt = prompt.context.history := by
    rw [historyOf, h.messages, renderMessages, List.cons_append, List.tail_cons,
      List.dropLast_concat]
  have hbuilt : (engine.buildContext query chunks history).history =
      latest cost (({} : TokenBudgetConfig).historyBudget 0) history := rfl
  rw [hmessages, h.history, RagPrompt.history_reduce, hbuilt, Suffixes.latest_eq_longest cost_nonneg,
    Suffixes.longest_longest (Suffixes.closed_within cost_nonneg _),
    Suffixes.latest_eq_longest cost_nonneg]
  refine Suffixes.longest_congr fun s hs hne => ?_
  have hpos := totalCost_pos hne fun message hmessage => hcontent message (hs.subset hmessage)
  rw [RagPrompt.Fits, RagPrompt.promptTokens_eq, room]
  show overhead _ (bare (engine.buildContext query chunks []) []) + totalCost cost s ≤ _ ∧ _ ↔ _
  omega

/-- What the memory recalls, for a configured budget. -/
theorem historyFor_eq (engine : RetrievalEngine F) (memory : RollingConversationMemory)
    (hmemory : engine.memory = some memory)
    (hestimate : memory.estimate = fun text => (estimate text : Int)) (s : Conversations)
    (c : Text) :
    engine.historyFor (some c) s.store =
      if 0 < configured engine then latest cost (configured engine) (s.live c)
      else s.live c := by
  have hrecall : engine.historyFor (some c) s.store =
      memory.history c (some (configured engine)) s.store := by
    unfold RetrievalEngine.historyFor
    rw [hmemory]
    rfl
  rw [hrecall]
  rw [RollingConversationMemory.history, Conversations.live, Conversations.stateOf]
  cases PyDict.get? c s.store with
  | none =>
    by_cases hpos : 0 < configured engine
    · rw [if_pos hpos]
      rfl
    · rw [if_neg hpos]
      rfl
  | some state =>
    dsimp only
    rw [RollingConversationMemory.fitHistory, hestimate, Option.getD_some]
    dsimp only
    by_cases hpos : 0 < configured engine
    · rw [if_neg (not_le.mpr hpos), if_pos hpos]
      rfl
    · rw [if_pos (not_lt.mp hpos), if_neg hpos]

end Effective

section Answer

variable (engine : RetrievalEngine F) (windowSize maxSnapshots compressThreshold : Int)
  (summarize : List Message → Text × List Text)

/-- The engine with a memory. -/
def withMemory : RetrievalEngine F :=
  { engine with memory := some (memoryOf windowSize maxSnapshots compressThreshold summarize
      engine.sha256) }

variable {engine windowSize maxSnapshots compressThreshold summarize}
  {turns : List Turn} {s : Conversations} {call : Call F} {c : Text} {now : Int}
  {cache : InMemoryContextCache} {chunks : List RetrievedChunk} {response : PromptResponse}
  {session : Session}

/-- The history of an answer is what the effective budget allows of the remembered messages. -/
theorem history_effective
    (hrun : Runs.run (RagMemory.step (memoryOf windowSize maxSnapshots compressThreshold summarize
      engine.sha256)) turns {} = some s)
    (hconversation : call.conversationId = some c)
    (hretrieve : (engine.retrieve call now cache).1 = .ok chunks)
    (hanswer : (withMemory engine windowSize maxSnapshots compressThreshold summarize).answer call
      now { conversations := s.store, cache := cache } = some (.ok response, session)) :
    historyOf response.prompt =
      latest cost (effective engine call.query chunks) (s.live c) := by
  obtain ⟨chunks', hretrieve', hrespond⟩ :=
    RetrievalEngine.answer_conversation hconversation hanswer
  obtain rfl := Except.ok.inj (hretrieve.symm.trans hretrieve')
  have hcontent := RagMemory.content_of_run hrun c
  have hhistory := historyFor_eq
    (withMemory engine windowSize maxSnapshots compressThreshold summarize) _ rfl rfl s c
  change _ = if 0 < configured engine then latest cost (configured engine) (s.live c)
    else s.live c at hhistory
  have hreduced := RetrievalEngine.respond_spec hrespond
  rw [hhistory] at hreduced
  rw [effective]
  by_cases hpos : 0 < configured engine
  · rw [if_pos hpos] at hreduced ⊢
    rw [← Suffixes.latest_latest cost_nonneg]
    refine @history_room F engine _ _ _ (fun message hmessage => hcontent message ?_) _ hreduced
    exact (Suffixes.latest_isLatest cost_nonneg (configured_nonneg engine) _).suffix.subset hmessage
  · rw [if_neg hpos] at hreduced ⊢
    exact @history_room F engine _ _ _ hcontent _ hreduced

/-- **The history of an answer is the longest end of the remembered messages that fits the
configured budget exactly if this budget is positive and there is room for that end, or it is
zero and there is no room for the last message.** -/
theorem isLatest_history_iff
    (hrun : Runs.run (RagMemory.step (memoryOf windowSize maxSnapshots compressThreshold summarize
      engine.sha256)) turns {} = some s)
    (hconversation : call.conversationId = some c)
    (hretrieve : (engine.retrieve call now cache).1 = .ok chunks)
    (hanswer : (withMemory engine windowSize maxSnapshots compressThreshold summarize).answer call
      now { conversations := s.store, cache := cache } = some (.ok response, session)) :
    IsLatest cost (configured engine) (s.live c) (historyOf response.prompt) ↔
      (0 < configured engine ∧
        totalCost cost (latest cost (configured engine) (s.live c)) ≤
          room engine call.query chunks) ∨
      (configured engine = 0 ∧
        ∀ message ∈ (s.live c).getLast?, room engine call.query chunks < cost message) := by
  have hroom := room_nonneg engine call.query chunks
  have hconfigured := configured_nonneg engine
  rw [Suffixes.isLatest_iff cost_nonneg hconfigured,
    history_effective hrun hconversation hretrieve hanswer, effective]
  by_cases hpos : 0 < configured engine
  · rw [if_pos hpos, Suffixes.latest_min_eq_iff cost_nonneg hconfigured hroom, and_iff_right hpos,
      or_iff_left fun h => hpos.ne' h.1]
  · have hzero : configured engine = 0 := le_antisymm (not_lt.mp hpos) hconfigured
    have hnone : latest cost (configured engine) (s.live c) = [] := by
      rw [Suffixes.latest_eq_nil_iff, hzero]
      intro message hmessage
      have hne := RagMemory.content_of_run hrun c message (List.mem_of_mem_getLast? hmessage)
      exact Int.natCast_pos.mpr (RagPrompt.estimate_pos hne)
    rw [if_neg hpos, hnone, Suffixes.latest_eq_nil_iff, or_iff_right fun h => hpos h.1,
      and_iff_right hzero]

end Answer

/-! ## A budget of zero -/

/-- An engine over an empty store. -/
def plainEngine (budget : TokenBudgetConfig) : RetrievalEngine Unit where
  retriever := { collections := [{}], defaultTopK := 8, search := fun _ _ _ _ => .ok [] }
  config := { budget := budget }
  sha256 := id
  snippet := id
  repr _ := []

/-- A message that was added before. -/
def hello : Turn where
  conversationId := "c1".toList
  message := { content := "hello".toList }

/-- The next question. -/
def question : Call Unit where
  query := "why?".toList
  conversationId := some "c1".toList

/-- It is in the prompt. -/
theorem unlimited_zero_budget :
    ¬ ∀ (engine : RetrievalEngine Unit) (windowSize maxSnapshots compressThreshold : Int)
        (summarize : List Message → Text × List Text) (turns : List Turn) (s : Conversations)
        (call : Call Unit) (c : Text) (now : Int) (cache : InMemoryContextCache)
        (response : PromptResponse) (session : Session),
      Runs.run (RagMemory.step (memoryOf windowSize maxSnapshots compressThreshold summarize
          engine.sha256)) turns {} = some s → call.conversationId = some c →
        (withMemory engine windowSize maxSnapshots compressThreshold summarize).answer call now
          { conversations := s.store, cache := cache } = some (.ok response, session) →
        IsLatest cost (configured engine) (s.live c) (historyOf response.prompt) := by
  intro h
  have hlatest := h (plainEngine { maxHistoryTokens := 0 }) 20 8 30 (fun _ => ([], [])) [hello] _
    question "c1".toList 0 {} _ _ rfl rfl rfl
  exact absurd hlatest.within (by decide)

/-- With the default budget. -/
theorem default_budget_kept :
    ∃ s response session,
      Runs.run (RagMemory.step (memoryOf 20 8 30 (fun _ => ([], [])) id)) [hello] {} = some s ∧
        (withMemory (plainEngine {}) 20 8 30 fun _ => ([], [])).answer question 0
          { conversations := s.store, cache := {} } = some (.ok response, session) ∧
        IsLatest cost (configured (plainEngine {})) (s.live "c1".toList)
          (historyOf response.prompt) := by
  refine ⟨_, _, _, rfl, rfl, ?_⟩
  refine (@isLatest_history_iff Unit (plainEngine {}) 20 8 30 (fun _ => ([], [])) [hello] _ question
    "c1".toList 0 {} [] _ _ rfl rfl rfl rfl).mpr (Or.inl ?_)
  decide

end OpenWrtCopilot.Ports.RagHistory
