import OpenWrtCopilot.Ports.RagEngine

/-!
# Grounded answers

Ports `RAGEngine`: a question becomes a prompt, the provider answers it, and the answer is
remembered and returned with its citations.  A provider is a function from requests to what it
replies; a stream is the list of the events it yields, each with the session at that time, since
its consumer can stop after any of them.
-/

namespace OpenWrtCopilot.Ports.RagAnswers

open Verified
open Verified.PyText
open Ports.RagEngine
open Ports.RagMemory (Message)
open Ports.RagPrompt (Citation RagError RetrievedChunk)

variable {F : Type}

/-! ## Providers -/

/-- `ChatRequest`, without the temperature. -/
structure ChatRequest where
  model : Text := []
  messages : List Message

/-- `ContentPart`. -/
structure ContentPart where
  type : Text
  text : Option Text := none
  imageUrl : Option Text := none

/-- What a chat message contains. -/
inductive Content
  | text (content : Text)
  | parts (parts : List ContentPart)

/-- `json.dumps`, unless the content is a string; it knows no parts. -/
def Content.dumps : Content → Except Text Text
  | .text content => .ok content
  | .parts [] => .ok "[]".toList
  | .parts (_ :: _) => .error "Object of type ContentPart is not JSON serializable".toList

/-- `ChatResponse`, without the usage. -/
structure ChatResponse where
  model : Text
  content : Content

/-- `ChatChunk`. -/
structure ChatChunk where
  model : Text := []
  delta : Text

/-- What a provider yields, and the exception that it ends with. -/
structure ChatStream where
  chunks : List ChatChunk
  failure : Option Text := none

/-! ## Answers -/

/-- `RAGCitation`, without its scores. -/
structure RAGCitation where
  source : Text
  document : Text
  section_ : Text
  chunkId : Text
  snippet : Text
  deriving DecidableEq

/-- `RAGResponse`, with the counts of its usage. -/
structure RAGResponse where
  answer : Text
  conversationId : Text
  citations : List RAGCitation
  model : Text
  chunksRetrieved : Nat
  cachedChunks : Nat
  cached : Bool

inductive RAGStreamType
  | session
  | retrieval
  | generationStarted
  | delta
  | citations
  | done
  | error
  deriving DecidableEq

/-- `RAGStreamEvent`, with the counts of its usage. -/
structure RAGStreamEvent where
  type : RAGStreamType
  conversationId : Text
  content : Text := []
  citations : List RAGCitation := []
  model : Text := []
  error : Text := []
  chunksRetrieved : Nat := 0
  cachedChunks : Nat := 0

/-- What an answer can fail with. -/
inductive AnswerError
  | noChatProvider (message : Text)
  | prompt (error : RagError)
  | provider (message : Text)
  | content (message : Text)

/-- `RAGEngine`, with a provider that may not be there. -/
structure RAGEngine (F : Type) where
  retrieval : RetrievalEngine F
  chat : Option (ChatRequest → Except Text ChatResponse) := none
  stream : Option (ChatRequest → ChatStream) := none

/-- The arguments of `answer` and `stream`. -/
structure Question where
  query : Text
  conversationId : Option Text := none
  model : Option Text := none
  topK : Option Int := none
  useCache : Bool := true

/-- The call of the retrieval engine. -/
def Question.call (q : Question) : Call F where
  query := q.query
  conversationId := q.conversationId
  topK := q.topK
  useCache := q.useCache
  remember := true

/-- `x or y`. -/
def orElse (x y : Text) : Text := if x ≠ [] then x else y

/-- The chunk with an id; the last one that has it. -/
def chunkById (chunks : List RetrievedChunk) (id : Text) : Option RetrievedChunk :=
  PyDict.get? id (chunks.foldl (fun byId chunk => PyDict.set chunk.id chunk byId) [])

/-- The citation of an answer. -/
def ragCitation (chunks : List RetrievedChunk) (citation : Citation) : RAGCitation :=
  let primary := citation.chunkIds.head?.getD []
  let chunk := chunkById chunks primary
  { source := citation.source
    document := citation.title
    section_ := (chunk.map (·.heading)).getD []
    chunkId := primary
    snippet := orElse citation.snippet ((chunk.map fun chunk => chunk.text.take 160).getD []) }

/-- `_citations_from_context`. -/
def citationsFromContext (citations : List Citation) (chunks : List RetrievedChunk) :
    List RAGCitation :=
  citations.map (ragCitation chunks)

/-- `_citations_for_response`. -/
def citationsForResponse (p : PromptResponse) : List RAGCitation :=
  citationsFromContext p.prompt.context.citations p.prompt.context.chunks

/-- `_chunk_count`. -/
def chunkCount (p : PromptResponse) : Nat := p.prompt.context.chunks.length

/-- `_cached_chunk_count`. -/
def cachedChunkCount (p : PromptResponse) : Nat := if p.cached = true then chunkCount p else 0

/-- `_chat_request`. -/
def chatRequest (p : PromptResponse) (model : Option Text) : ChatRequest where
  model := model.getD []
  messages := p.prompt.messages

/-- `_to_response`. -/
def toResponse (p : PromptResponse) (answer : Text) (q : Question) (model : Text) :
    RAGResponse where
  answer := answer
  conversationId := q.conversationId.getD []
  citations := citationsForResponse p
  model := orElse (q.model.getD []) model
  chunksRetrieved := chunkCount p
  cachedChunks := cachedChunkCount p
  cached := p.cached

namespace RAGEngine

variable (engine : RAGEngine F)

/-- The answer is remembered, if there is a conversation. -/
def complete (q : Question) (answer : Text) (s : Session) : Option Session :=
  match q.conversationId with
  | none => some s
  | some conversationId => engine.retrieval.completeTurn conversationId answer s

/-- `answer`; `none` if the memory does not return. -/
def answer (q : Question) (now : Int) (s : Session) :
    Option (Except AnswerError RAGResponse × Session) :=
  match engine.chat with
  | none =>
      some (.error (.noChatProvider ("no chat provider is configured for RAG answers; add a " ++
        "chat-capable provider to providers.yaml").toList), s)
  | some chat =>
      match engine.retrieval.answer q.call now s with
      | none => none
      | some (.error e, s) => some (.error (.prompt e), s)
      | some (.ok p, s) =>
          match chat (chatRequest p q.model) with
          | .error message => some (.error (.provider message), s)
          | .ok response =>
              match response.content.dumps with
              | .error message => some (.error (.content message), s)
              | .ok text =>
                  (engine.complete q text s).map fun s =>
                    (.ok (toResponse p text q response.model), s)

/-! ## Streams -/

/-- A stream: its events with the sessions at that time, and how it ends; `none` if the memory
does not return. -/
structure Streamed where
  events : List (RAGStreamEvent × Session)
  ends : Option (Except AnswerError Unit × Session)

/-- The events of what the provider yields. -/
def deltaEvents (conversationId : Text) (chunks : List ChatChunk) : List RAGStreamEvent :=
  (chunks.filter (·.delta ≠ [])).map fun chunk =>
    { type := .delta, conversationId := conversationId, content := chunk.delta,
      model := chunk.model }

/-- The model of the first delta that names one. -/
def streamedModel (q : Question) (chunks : List ChatChunk) : Text :=
  (chunks.filter (·.delta ≠ [])).foldl (fun model chunk => orElse model chunk.model)
    (q.model.getD [])

/-- The events up to the first delta. -/
def openingEvents (q : Question) (p : PromptResponse) : List RAGStreamEvent :=
  [{ type := .retrieval, conversationId := q.conversationId.getD [],
     citations := citationsForResponse p, chunksRetrieved := chunkCount p,
     cachedChunks := cachedChunkCount p },
   { type := .generationStarted, conversationId := q.conversationId.getD [] }]

/-- The events after the last delta. -/
def closingEvents (q : Question) (p : PromptResponse) (answer model : Text) :
    List RAGStreamEvent :=
  [{ type := .citations, conversationId := q.conversationId.getD [],
     citations := citationsForResponse p },
   { type := .done, conversationId := q.conversationId.getD [], content := answer,
     citations := citationsForResponse p, model := model, chunksRetrieved := chunkCount p,
     cachedChunks := cachedChunkCount p }]

def errorEvent (q : Question) (message : Text) : RAGStreamEvent where
  type := .error
  conversationId := q.conversationId.getD []
  error := "AI stream failed: ".toList ++ message

/-- The part of `stream` with a prompt. -/
def generate (stream : ChatRequest → ChatStream) (q : Question) (p : PromptResponse)
    (s : Session) : Streamed :=
  let reply := stream (chatRequest p q.model)
  let deltas := deltaEvents (q.conversationId.getD []) reply.chunks
  let started := (openingEvents q p ++ deltas).map fun event => (event, s)
  match reply.failure with
  | some message =>
      { events := started ++ [(errorEvent q message, s)]
        ends := some (.ok (), s) }
  | none =>
      let text := (reply.chunks.map (·.delta)).flatten
      match engine.complete q text s with
      | none => { events := started, ends := none }
      | some s =>
          { events := started ++
              (closingEvents q p text (streamedModel q reply.chunks)).map (fun event => (event, s))
            ends := some (.ok (), s) }

/-- `stream`. -/
def streamed (q : Question) (now : Int) (s : Session) : Streamed :=
  match engine.stream with
  | none =>
      { events := []
        ends := some (.error (.noChatProvider
          "no streaming chat provider is configured for RAG answers".toList), s) }
  | some stream =>
      let started : RAGStreamEvent × Session :=
        ({ type := .session, conversationId := q.conversationId.getD [] }, s)
      match engine.retrieval.answer q.call now s with
      | none => { events := [started], ends := none }
      | some (.error e, s) => { events := [started], ends := some (.error (.prompt e), s) }
      | some (.ok p, s) =>
          let rest := engine.generate stream q p s
          { rest with events := started :: rest.events }

/-- The session when the consumer stops at an event, or at the end. -/
def Streamed.at (r : Streamed) (i : Nat) : Option Session :=
  match r.events[i]? with
  | some (_, s) => some s
  | none => r.ends.map Prod.snd

/-- The session when the consumer stops after a number of events. -/
def Streamed.after (r : Streamed) (s : Session) : Nat → Option Session
  | 0 => some s
  | taken + 1 => r.at taken

end RAGEngine

end OpenWrtCopilot.Ports.RagAnswers
