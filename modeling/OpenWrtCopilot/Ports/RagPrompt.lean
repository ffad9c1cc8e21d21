import OpenWrtCopilot.Ports.RagMemory
import OpenWrtCopilot.Verified.PyWords

/-!
# Prompts with retrieved chunks

Ports the stages from the retrieved chunks to the prompt: `DefaultContextBuilder` with
`DefaultCitationBuilder`, the rendering, `DefaultPromptBuilder` and `DefaultPromptOptimizer`.
The chunks are grouped by document and cited, the history is cut to a budget, and a prompt that
is too long loses its last chunks, then its oldest history, and then the whole context.

## Main results

* `estimate_mono`, `estimateMessages_eq` — what a prompt is estimated at.
* `optimize_spec` — what a prompt that is too long is reduced to.
-/

namespace OpenWrtCopilot.Ports.RagPrompt

open Verified
open Verified.PyDict (Dict get?)
open Verified.PyText
open Verified.Suffixes (latest longest longestPrefix)
open Ports.RagMemory (Message)

/-! ## Models -/

/-- `RetrievedChunk`, without its scores. -/
structure RetrievedChunk where
  id : Text
  documentId : Text
  text : Text
  heading : Text := []
  metadata : Dict Text Text := []
  deriving DecidableEq

/-- `Citation`. -/
structure Citation where
  number : Nat
  documentId : Text
  chunkIds : List Text := []
  source : Text := []
  reference : Text := []
  title : Text := []
  format : Text := []
  snippet : Text := []
  deriving DecidableEq

/-- `PromptContext`; the documents by their ids. -/
structure PromptContext where
  query : Text
  chunks : List RetrievedChunk := []
  documents : Dict Text (List RetrievedChunk) := []
  citations : List Citation := []
  history : List Message := []
  systemPrompt : Text := []
  tokenEstimate : Nat := 0

/-- `PromptRequest`; the builder always sets its context. -/
structure PromptRequest where
  query : Text
  system : Text
  messages : List Message
  context : PromptContext
  maxTokens : Int
  tokenEstimate : Nat
  checksum : Text

/-- `TokenBudgetConfig`. -/
structure TokenBudgetConfig where
  maxPromptTokens : Int := 4000
  reservedOutputTokens : Int := 1000
  maxDocuments : Int := 6
  maxChunksPerDocument : Int := 3
  maxHistoryTokens : Int := 1500

/-- What a prompt can fail with. -/
inductive RagError
  | value (message : Text)
  | retriever (message : Text)
  | contextLimit (message : Text)
  deriving DecidableEq

/-! ## Tokens -/

/-- `HeuristicTokenEstimator.estimate`, with four characters per token. -/
def estimate (text : Text) : Nat :=
  if text = [] then 0 else max 1 ((text.length + 3) / 4)

def estimateMessages (messages : List Message) : Nat :=
  (messages.map fun message => estimate message.content).sum

/-- `TokenBudgetManager.history_budget`. -/
def TokenBudgetConfig.historyBudget (budget : TokenBudgetConfig) (reserved : Int) : Int :=
  max 0 (min budget.maxHistoryTokens (budget.maxPromptTokens - reserved))

/-! ## Documents and citations -/

/-- A chunk joins the chunks of its document. -/
def addChunk (documents : Dict Text (List RetrievedChunk)) (chunk : RetrievedChunk) :
    Dict Text (List RetrievedChunk) :=
  PyDict.set chunk.documentId (((get? chunk.documentId documents).getD []) ++ [chunk]) documents

/-- `group_by_document`: the documents in the order of their first chunks. -/
def groupByDocument (chunks : List RetrievedChunk) : Dict Text (List RetrievedChunk) :=
  chunks.foldl addChunk []

/-- `xs[:limit]`. -/
def upTo {α : Type} (limit : Int) (xs : List α) : List α :=
  if limit < 0 then xs.take (limit + xs.length).toNat else xs.take limit.toNat

/-- The citation of a document, by its chunks. -/
def citationOf (snippet : Text → Text) (number : Nat)
    (document : Text × List RetrievedChunk) : Citation :=
  let field (key : Text) : Text :=
    ((document.2.head?).bind fun top => get? key top.metadata).getD []
  { number := number
    documentId := document.1
    chunkIds := document.2.map (·.id)
    source := field "source".toList
    reference := field "reference".toList
    title := field "title".toList
    format := field "format".toList
    snippet := ((document.2.head?).map fun top => snippet top.text).getD [] }

/-- `DefaultCitationBuilder.build`. -/
def buildCitations (snippet : Text → Text) (chunks : List RetrievedChunk) : List Citation :=
  (groupByDocument chunks).mapIdx fun i document => citationOf snippet (i + 1) document

/-! ## The context -/

/-- `DefaultContextBuilder`; its token budget is the default one unless it is given one. -/
structure DefaultContextBuilder where
  maxDocuments : Int
  maxChunksPerDocument : Int
  includeCitations : Bool
  snippet : Text → Text
  tokenBudget : TokenBudgetConfig := {}

/-- `_trim_history`. -/
def DefaultContextBuilder.trimHistory (b : DefaultContextBuilder) (history : List Message) :
    List Message :=
  let budget := b.tokenBudget.historyBudget 0
  if budget ≤ 0 then [] else latest (fun message => estimate message.content) budget history

/-- `_estimate_context`. -/
def estimateContext (context : PromptContext) : Nat :=
  estimate (context.query ++ "\n".toList ++ context.systemPrompt ++
    join "\n".toList (context.chunks.map (·.text)) ++
    join "\n".toList (context.history.map (·.content)))

/-- `DefaultContextBuilder.build`. -/
def DefaultContextBuilder.build (b : DefaultContextBuilder) (query : Text)
    (chunks : List RetrievedChunk) (history : List Message) (systemPrompt : Text) :
    PromptContext :=
  let documents := (upTo b.maxDocuments (groupByDocument chunks)).map fun document =>
    (document.1, upTo b.maxChunksPerDocument document.2)
  let flat := documents.flatMap Prod.snd
  let context : PromptContext :=
    { query := query
      chunks := flat
      documents := documents
      citations := if b.includeCitations then buildCitations b.snippet flat else []
      history := b.trimHistory history
      systemPrompt := systemPrompt }
  { context with tokenEstimate := estimateContext context }

/-! ## Rendering -/

def defaultSystem : Text :=
  "You are a helpful assistant grounded in the provided context.".toList

/-- `render_system`. -/
def renderSystem (includeCitations : Bool) (context : PromptContext) : Text :=
  let system := if strip context.systemPrompt ≠ [] then strip context.systemPrompt
    else defaultSystem
  if includeCitations = true ∧ context.citations ≠ [] then
    system ++ ("\n\nGround your answer strictly in the context above. " ++
      "Cite sources using [N] markers that match the numbered sources.").toList
  else system

/-- The numbers of the citations by document. -/
def numbers (citations : List Citation) : Dict Text Nat :=
  citations.foldl (fun d citation => PyDict.set citation.documentId citation.number d) []

/-- The number in front of a chunk. -/
def marker (citations : List Citation) (chunk : RetrievedChunk) : Nat :=
  (get? chunk.documentId (numbers citations)).getD 0

/-- The line of a chunk. -/
def renderChunk (citations : List Citation) (chunk : RetrievedChunk) : Text :=
  "[".toList ++ natText (marker citations chunk) ++ "]".toList ++
    (if chunk.heading ≠ [] then " (".toList ++ chunk.heading ++ ")".toList else []) ++
    " ".toList ++ chunk.text

/-- `render_user_message`. -/
def renderUserMessage (context : PromptContext) : Text :=
  let question := "Question: ".toList ++ context.query
  if context.chunks ≠ [] then
    join "\n\n".toList
      [join "\n".toList ("Context:".toList :: context.chunks.map (renderChunk context.citations)),
        question]
  else question

/-- `render_messages`. -/
def renderMessages (includeCitations : Bool) (context : PromptContext) : List Message :=
  { role := "system".toList, content := renderSystem includeCitations context } ::
    context.history ++ [{ role := "user".toList, content := renderUserMessage context }]

/-! ## The prompt -/

/-- `DefaultPromptBuilder`, with the digest. -/
structure DefaultPromptBuilder where
  systemPrompt : Text := []
  includeCitations : Bool := true
  reservedOutputTokens : Int := 1000
  sha256 : Text → Text

/-- `_checksum`. -/
def checksumKey (sha256 : Text → Text) (parts : List Text) : Text :=
  sha256 (join ['\x1f'] parts)

/-- `DefaultPromptBuilder.build`. -/
def DefaultPromptBuilder.build (b : DefaultPromptBuilder) (context : PromptContext) :
    PromptRequest :=
  let context :=
    if b.systemPrompt ≠ [] then { context with systemPrompt := b.systemPrompt } else context
  let messages := renderMessages b.includeCitations context
  { query := context.query
    system := renderSystem b.includeCitations context
    messages := messages
    context := context
    maxTokens := b.reservedOutputTokens
    tokenEstimate := estimateMessages messages
    checksum := checksumKey b.sha256
      (messages.map fun message => message.role ++ ":".toList ++ message.content) }

/-- The estimate of a context. -/
def promptTokens (includeCitations : Bool) (context : PromptContext) : Nat :=
  estimateMessages (renderMessages includeCitations context)

/-- The prompt of a context is within a number of tokens. -/
def Fits (includeCitations : Bool) (maxPromptTokens : Int) (context : PromptContext) : Prop :=
  (promptTokens includeCitations context : Int) ≤ maxPromptTokens

instance (includeCitations : Bool) (maxPromptTokens : Int) (context : PromptContext) :
    Decidable (Fits includeCitations maxPromptTokens context) := by
  unfold Fits
  infer_instance

/-- `_trim_chunks`: the last chunks go while the prompt is too long. -/
def trimChunks (includeCitations : Bool) (maxPromptTokens : Int) (context : PromptContext) :
    PromptContext :=
  let chunks := longestPrefix
    (fun chunks => Fits includeCitations maxPromptTokens { context with chunks := chunks })
    context.chunks
  { context with
    chunks := chunks
    documents := groupByDocument chunks }

/-- `_trim_history`: then the oldest messages. -/
def trimHistory (includeCitations : Bool) (maxPromptTokens : Int) (context : PromptContext) :
    PromptContext :=
  { context with
    history := longest
      (fun history => Fits includeCitations maxPromptTokens { context with history := history })
      context.history }

/-- The context block goes last. -/
def dropContext (includeCitations : Bool) (maxPromptTokens : Int) (context : PromptContext) :
    PromptContext :=
  if Fits includeCitations maxPromptTokens context then context
  else { context with chunks := [], documents := [], citations := [] }

/-- The three reductions, one after the other. -/
def reduce (includeCitations : Bool) (maxPromptTokens : Int) (context : PromptContext) :
    PromptContext :=
  dropContext includeCitations maxPromptTokens
    (trimHistory includeCitations maxPromptTokens
      (trimChunks includeCitations maxPromptTokens context))

/-- `DefaultPromptOptimizer.optimize`. -/
def optimize (sha256 : Text → Text) (includeCitations : Bool) (request : PromptRequest)
    (maxPromptTokens : Int) : Except RagError PromptRequest :=
  if (request.tokenEstimate : Int) ≤ maxPromptTokens then .ok request
  else
    let context := reduce includeCitations maxPromptTokens request.context
    if Fits includeCitations maxPromptTokens context then
      let builder : DefaultPromptBuilder :=
        { includeCitations := includeCitations, sha256 := sha256 }
      .ok (builder.build
        { context with tokenEstimate := promptTokens includeCitations context })
    else
      .error (.contextLimit ("prompt cannot fit in ".toList ++ intText maxPromptTokens ++
        " tokens even after reduction".toList))

/-! ## Estimates -/

theorem estimate_mono {a b : Text} (h : a.length ≤ b.length) : estimate a ≤ estimate b := by
  rw [estimate, estimate]
  by_cases ha : a = []
  · rw [if_pos ha]
    exact Nat.zero_le _
  · have hpos := List.length_pos_iff.mpr ha
    have hb : b ≠ [] := List.length_pos_iff.mp (by omega)
    rw [if_neg ha, if_neg hb]
    omega

/-- Every message that is not empty costs something. -/
theorem estimate_pos {text : Text} (h : text ≠ []) : 0 < estimate text := by
  rw [estimate, if_neg h]
  omega

/-- What a message costs. -/
def cost (message : Message) : Int := estimate message.content

theorem cost_nonneg (message : Message) : 0 ≤ cost message := Int.natCast_nonneg _

theorem estimateMessages_eq (messages : List Message) :
    (estimateMessages messages : Int) = Suffixes.totalCost cost messages := by
  induction messages with
  | nil => rfl
  | cons message messages ih =>
    rw [Suffixes.totalCost_cons, ← ih, cost, ← Nat.cast_add]
    rfl

/-- What a prompt costs besides its history. -/
def overhead (includeCitations : Bool) (context : PromptContext) : Int :=
  estimate (renderSystem includeCitations context) + estimate (renderUserMessage context)

theorem promptTokens_eq (includeCitations : Bool) (context : PromptContext) :
    (promptTokens includeCitations context : Int) =
      overhead includeCitations context + Suffixes.totalCost cost context.history := by
  rw [promptTokens, estimateMessages_eq, renderMessages, Suffixes.totalCost_append,
    Suffixes.totalCost_cons, Suffixes.totalCost_cons, Suffixes.totalCost_nil, overhead, cost,
    cost]
  dsimp only
  omega

theorem length_join_prefix (sep : Text) {a b : List Text} (h : a <+: b) :
    (join sep a).length ≤ (join sep b).length := by
  induction a generalizing b with
  | nil => exact Nat.zero_le _
  | cons line a ih =>
    obtain ⟨rest, rfl⟩ := h
    rw [List.cons_append]
    by_cases hall : a ++ rest = []
    · rw [hall, (List.append_eq_nil_iff.mp hall).1]
    · rw [join_cons_of_ne_nil _ _ hall]
      by_cases ha : a = []
      · rw [ha, join_singleton]
        simp only [List.length_append]
        omega
      · have hle := ih (List.prefix_append a rest)
        rw [join_cons_of_ne_nil _ _ ha]
        simp only [List.length_append]
        omega

/-- Fewer chunks make a shorter message. -/
theorem length_renderUserMessage {context : PromptContext} {chunks : List RetrievedChunk}
    (h : chunks <+: context.chunks) :
    (renderUserMessage { context with chunks := chunks }).length ≤
      (renderUserMessage context).length := by
  rw [renderUserMessage, renderUserMessage]
  dsimp only
  by_cases hall : context.chunks = []
  · rw [hall] at h
    rw [if_neg (not_not.mpr (List.prefix_nil.mp h)), if_neg (not_not.mpr hall)]
  · rw [if_pos hall]
    by_cases hnone : chunks = []
    · rw [if_neg (not_not.mpr hnone), join_cons_of_ne_nil _ _ (List.cons_ne_nil _ _),
        join_singleton]
      simp only [List.length_append]
      omega
    · have hle := length_join_prefix "\n".toList
        (List.cons_prefix_cons.mpr ⟨rfl, h.map (renderChunk context.citations)⟩ :
          "Context:".toList :: chunks.map (renderChunk context.citations) <+: _)
      rw [if_pos hnone, join_cons_of_ne_nil "\n\n".toList _ (List.cons_ne_nil _ _),
        join_cons_of_ne_nil "\n\n".toList _ (List.cons_ne_nil _ _), join_singleton]
      simp only [List.length_append]
      omega

/-- A prompt that fits, fits with fewer chunks and less history. -/
theorem Fits.mono {includeCitations : Bool} {maxPromptTokens : Int} {context : PromptContext}
    (h : Fits includeCitations maxPromptTokens context) {chunks : List RetrievedChunk}
    (hchunks : chunks <+: context.chunks) {history : List Message}
    (hhistory : history <:+ context.history) :
    Fits includeCitations maxPromptTokens
      { context with chunks := chunks, history := history } := by
  rw [Fits, promptTokens_eq, overhead] at h ⊢
  have hmessage := estimate_mono (length_renderUserMessage hchunks)
  obtain ⟨before, hsplit⟩ := hhistory
  have hbefore := Suffixes.totalCost_nonneg cost_nonneg before
  rw [← hsplit, Suffixes.totalCost_append] at h
  have hsystem : renderSystem includeCitations
      { context with chunks := chunks, history := history } =
    renderSystem includeCitations context := rfl
  have huser : renderUserMessage { context with chunks := chunks, history := history } =
    renderUserMessage { context with chunks := chunks } := rfl
  rw [hsystem, huser]
  dsimp only
  omega

/-! ## Reductions -/

section Reduce

variable {includeCitations : Bool} {maxPromptTokens : Int} {context : PromptContext}

/-- The context without its chunks, and with another history. -/
def bare (context : PromptContext) (history : List Message) : PromptContext :=
  { context with chunks := [], history := history }

/-- The chunks that are left. -/
def leftChunks (includeCitations : Bool) (maxPromptTokens : Int) (context : PromptContext) :
    List RetrievedChunk :=
  longestPrefix
    (fun chunks => Fits includeCitations maxPromptTokens { context with chunks := chunks })
    context.chunks

/-- As long as a chunk is left, the whole history is. -/
theorem history_trimmed :
    (trimHistory includeCitations maxPromptTokens
        (trimChunks includeCitations maxPromptTokens context)).history =
      longest (fun history => Fits includeCitations maxPromptTokens (bare context history))
        context.history := by
  show longest (fun history => Fits includeCitations maxPromptTokens
    { context with
      chunks := leftChunks includeCitations maxPromptTokens context
      history := history }) context.history = _
  by_cases hnone : leftChunks includeCitations maxPromptTokens context = []
  · rw [hnone]
    rfl
  · have hfits : Fits includeCitations maxPromptTokens
        { context with chunks := leftChunks includeCitations maxPromptTokens context } :=
      Suffixes.longestPrefix_holds hnone
    rw [Suffixes.longest_of_holds, Suffixes.longest_of_holds]
    · exact hfits.mono List.nil_prefix List.suffix_rfl
    · exact hfits

/-- Trimming leaves a prompt that fits unless none without chunks and history does. -/
theorem fits_trimmed_iff :
    Fits includeCitations maxPromptTokens
        (trimHistory includeCitations maxPromptTokens
          (trimChunks includeCitations maxPromptTokens context)) ↔
      Fits includeCitations maxPromptTokens (bare context []) := by
  constructor
  · intro hfits
    exact hfits.mono List.nil_prefix List.nil_suffix
  · intro hbare
    by_cases hnone : leftChunks includeCitations maxPromptTokens context = []
    · by_cases hempty : (trimHistory includeCitations maxPromptTokens
          (trimChunks includeCitations maxPromptTokens context)).history = []
      · have hsame : Fits includeCitations maxPromptTokens
            { context with
              chunks := leftChunks includeCitations maxPromptTokens context
              history := (trimHistory includeCitations maxPromptTokens
                (trimChunks includeCitations maxPromptTokens context)).history } := by
          rw [hnone, hempty]
          exact hbare
        exact hsame
      · exact Suffixes.longest_holds hempty
    · have hfits : Fits includeCitations maxPromptTokens
          { context with chunks := leftChunks includeCitations maxPromptTokens context } :=
        Suffixes.longestPrefix_holds hnone
      exact hfits.mono List.prefix_rfl (Suffixes.longest_suffix _ _)

theorem history_reduce :
    (reduce includeCitations maxPromptTokens context).history =
      longest (fun history => Fits includeCitations maxPromptTokens (bare context history))
        context.history := by
  rw [reduce, dropContext, ← history_trimmed]
  split
  · rfl
  · rfl

theorem chunks_reduce (h : Fits includeCitations maxPromptTokens (bare context [])) :
    (reduce includeCitations maxPromptTokens context).chunks =
        leftChunks includeCitations maxPromptTokens context ∧
      (reduce includeCitations maxPromptTokens context).citations = context.citations := by
  rw [reduce, dropContext, if_pos (fits_trimmed_iff.mpr h)]
  exact ⟨rfl, rfl⟩

theorem chunks_reduce_of_not (h : ¬ Fits includeCitations maxPromptTokens (bare context [])) :
    (reduce includeCitations maxPromptTokens context).chunks = [] ∧
      (reduce includeCitations maxPromptTokens context).citations = [] := by
  rw [reduce, dropContext, if_neg fun hfits => h (fits_trimmed_iff.mp hfits)]
  exact ⟨rfl, rfl⟩

/-- A prompt that fits is left as it is. -/
theorem reduce_of_fits (h : Fits includeCitations maxPromptTokens context) :
    (reduce includeCitations maxPromptTokens context).chunks = context.chunks ∧
      (reduce includeCitations maxPromptTokens context).citations = context.citations ∧
      (reduce includeCitations maxPromptTokens context).history = context.history := by
  have hbare := h.mono List.nil_prefix List.nil_suffix
  obtain ⟨hchunks, hcitations⟩ := chunks_reduce hbare
  refine ⟨hchunks.trans (Suffixes.longestPrefix_of_holds h), hcitations, ?_⟩
  rw [history_reduce]
  exact Suffixes.longest_of_holds (h.mono List.nil_prefix List.suffix_rfl)

/-- A prompt that renders what is left of a context. -/
structure Reduced (includeCitations : Bool) (maxPromptTokens : Int) (context : PromptContext)
    (prompt : PromptRequest) : Prop where
  messages : prompt.messages = renderMessages includeCitations prompt.context
  query : prompt.context.query = context.query
  systemPrompt : prompt.context.systemPrompt = context.systemPrompt
  chunks : prompt.context.chunks = (reduce includeCitations maxPromptTokens context).chunks
  citations :
    prompt.context.citations = (reduce includeCitations maxPromptTokens context).citations
  history : prompt.context.history = (reduce includeCitations maxPromptTokens context).history

theorem systemPrompt_reduce :
    (reduce includeCitations maxPromptTokens context).query = context.query ∧
      (reduce includeCitations maxPromptTokens context).systemPrompt = context.systemPrompt := by
  rw [reduce, dropContext]
  split
  · exact ⟨rfl, rfl⟩
  · exact ⟨rfl, rfl⟩

/-- What a prompt that is too long is reduced to. -/
theorem optimize_spec {sha256 : Text → Text} {request prompt : PromptRequest}
    (hrequest : request.context = context)
    (hlong : ¬ (request.tokenEstimate : Int) ≤ maxPromptTokens)
    (h : optimize sha256 includeCitations request maxPromptTokens = .ok prompt) :
    Reduced includeCitations maxPromptTokens context prompt := by
  rw [optimize, if_neg hlong, hrequest] at h
  dsimp only at h
  split at h
  · obtain rfl := Except.ok.inj h
    obtain ⟨hquery, hsystem⟩ := @systemPrompt_reduce includeCitations maxPromptTokens context
    exact ⟨rfl, hquery, hsystem, rfl, rfl, rfl⟩
  · cases h

end Reduce

end OpenWrtCopilot.Ports.RagPrompt
