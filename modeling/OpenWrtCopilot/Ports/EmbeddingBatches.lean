import OpenWrtCopilot.Verified.Batches
import OpenWrtCopilot.Verified.PyText

/-!
# Embedding many texts

Ports `EmbeddingFactory.embed_batch` with `embed_response`, `_call_provider` and
`request_embeddings`.  The texts are sent in batches, and the vectors of the responses are
put together as they come: the `index` of an item is not read, an item without an embedding
is left out, and nobody counts.

## Main results

* `embedBatch_faithful_iff` — the call raises, or returns for each text the vector the
  provider gave for it, exactly if every response lists as many vectors as its batch has
  texts, in their order.
* `reordered_response_misaligns` — a response in another order.
-/

namespace OpenWrtCopilot.Ports.EmbeddingBatches

open Verified
open Verified.Chunks
open Verified.Batches
open Verified.PyText

/-! ## Requests and responses -/

/-- `EmbeddingRequest`. -/
structure EmbeddingRequest where
  model : Text
  inputs : List Text
  inputType : Option Text
  normalize : Bool

structure Usage where
  promptTokens : Int := 0
  completionTokens : Int := 0
  deriving DecidableEq, Repr

section

variable {ν : Type}

/-- An item of `data`. -/
structure WireItem (ν : Type) where
  index : Int
  embedding : Option ν

/-- The body of a response; one that is not of this shape raises. -/
structure WireResponse (ν : Type) where
  data : List (WireItem ν)
  model : Text := []
  usage : Usage := {}

/-- `EmbeddingResponse`. -/
structure EmbeddingResponse (ν : Type) where
  model : Text
  embeddings : List ν
  usage : Usage := {}

/-- How a call of the provider fails. -/
inductive Failure where
  /-- One of `RETRYABLE_EXCEPTIONS`. -/
  | retryable (message : Text)
  | other (message : Text)

inductive EmbeddingError where
  | noEmbeddingProvider (message : Text)
  | embeddingError (message : Text)
  | propagated (message : Text)
  deriving DecidableEq, Repr

/-- A provider: what its endpoint answers to each attempt for each batch. -/
structure Provider (ν : Type) where
  name : Text
  embedBatchSize : Option Int := none
  post : (batch attempt : Nat) → EmbeddingRequest → Except Failure (WireResponse ν)

structure EmbeddingFactory (ν : Type) where
  maxRetries : Int := 3
  defaultBatchSize : Int := 64
  normalizeVector : ν → ν
  /-- `repr` of a name. -/
  repr : Text → Text

/-- `a or b` for texts. -/
def orText (a b : Text) : Text := if a = [] then b else a

variable (factory : EmbeddingFactory ν)

/-- What `request_embeddings` makes of an embedding. -/
def finish (request : EmbeddingRequest) (v : ν) : ν :=
  if request.normalize then factory.normalizeVector v else v

/-- `request_embeddings`, after the request. -/
def requestEmbeddings (request : EmbeddingRequest) (data : WireResponse ν) :
    EmbeddingResponse ν :=
  let vectors := data.data.filterMap (·.embedding)
  let vectors := if request.normalize then vectors.map factory.normalizeVector else vectors
  { model := orText data.model request.model, embeddings := vectors, usage := data.usage }

/-- The loop of `_call_provider`, with so many attempts left after this one. -/
def attemptFrom {α : Type} (provider : Provider ν) (execute : Nat → Except Failure α) :
    (left attempt : Nat) → Except EmbeddingError α
  | left, attempt =>
      match execute attempt, left with
      | .ok response, _ => .ok response
      | .error (.other message), _ => .error (.propagated message)
      | .error (.retryable message), 0 =>
          .error (.embeddingError ("Embedding failed after ".toList ++ natText (attempt + 1) ++
            " attempt(s) via ".toList ++ factory.repr provider.name ++ ": ".toList ++ message))
      | .error (.retryable _), left + 1 => attemptFrom provider execute left (attempt + 1)

/-- `_call_provider`. -/
def callProvider (provider : Provider ν) (batch : Nat) (request : EmbeddingRequest) :
    Except EmbeddingError (EmbeddingResponse ν) :=
  attemptFrom factory provider (fun attempt =>
    (provider.post batch attempt request).map (requestEmbeddings factory request))
    factory.maxRetries.toNat 0

/-- The keyword arguments of `embed_batch`. -/
structure Options where
  batchSize : Option Int := none
  model : Option Text := none
  inputType : Option Text := none
  normalize : Bool := false

/-- The request for a batch. -/
def Options.request (options : Options) (inputs : List Text) : EmbeddingRequest where
  model := options.model.getD []
  inputs := inputs
  inputType := options.inputType
  normalize := options.normalize

/-- `a or b` for sizes. -/
def orSize (a : Option Int) (b : Int) : Int :=
  match a with
  | none => b
  | some a => if a = 0 then b else a

def resolvedBatch (provider : Provider ν) (options : Options) : Int :=
  orSize options.batchSize (orSize provider.embedBatchSize (max 1 factory.defaultBatchSize))

/-- `max(1, size)`. -/
def chunkSize (size : Int) : Nat := (max 1 size).toNat

/-- `chunk_texts`. -/
def chunkTexts (texts : List Text) (size : Int) : List (List Text) :=
  chunks (chunkSize size) texts

/-- The loop of `embed_response` over the batches. -/
def embedChunks (call : Nat → List Text → Except EmbeddingError (EmbeddingResponse ν)) :
    Nat → List (List Text) → EmbeddingResponse ν → Except EmbeddingError (EmbeddingResponse ν)
  | _, [], total => .ok total
  | batch, chunk :: rest, total => do
      let response ← call batch chunk
      embedChunks call (batch + 1) rest
        { model := orText response.model total.model
          embeddings := total.embeddings ++ response.embeddings
          usage := ⟨total.usage.promptTokens + response.usage.promptTokens,
            total.usage.completionTokens + response.usage.completionTokens⟩ }

def noProviderMessage : Text :=
  ("No provider with the 'embeddings' capability is configured. " ++
    "Add an embedding-capable provider to providers.yaml and restart.").toList

/-- `embed_response`, with the provider `_get_provider` finds. -/
def embedResponse (found : Option (Provider ν)) (options : Options) (texts : List Text) :
    Except EmbeddingError (EmbeddingResponse ν) :=
  if texts = [] then .ok { model := options.model.getD [], embeddings := [] }
  else
    match found with
    | none => .error (.noEmbeddingProvider noProviderMessage)
    | some provider =>
        let call := fun batch chunk => callProvider factory provider batch (options.request chunk)
        match chunkTexts texts (resolvedBatch factory provider options) with
        | [chunk] => call 0 chunk
        | chunks => embedChunks call 0 chunks { model := options.model.getD [], embeddings := [] }

/-- `embed_batch`. -/
def embedBatch (found : Option (Provider ν)) (options : Options) (texts : List Text) :
    Except EmbeddingError (List ν) :=
  (embedResponse factory found options texts).map (·.embeddings)

/-! ## What the provider answers -/

/-- The vectors of a response, each under its index. -/
def answerOf (request : EmbeddingRequest) (data : WireResponse ν) : Answer ν :=
  data.data.filterMap fun item =>
    item.embedding.map fun v => (item.index, finish factory request v)

/-- The response that a batch ends with. -/
def accepted (provider : Provider ν) (batch : Nat) (request : EmbeddingRequest) :
    Except EmbeddingError (WireResponse ν) :=
  attemptFrom factory provider (fun attempt => provider.post batch attempt request)
    factory.maxRetries.toNat 0

/-- The answers to all batches, from the given one on. -/
def answers (provider : Provider ν) (options : Options) :
    Nat → List (List Text) → Except EmbeddingError (List (Answer ν))
  | _, [] => .ok []
  | batch, chunk :: rest => do
      let data ← accepted factory provider batch (options.request chunk)
      let later ← answers provider options (batch + 1) rest
      return answerOf factory (options.request chunk) data :: later

/-- If the call returns, it returns one vector for each text, and for each the one that the
provider gave under its index. -/
def Faithful (provider : Provider ν) (options : Options) (texts : List Text) : Prop :=
  ∀ vectors, embedBatch factory (some provider) options texts = .ok vectors →
    ∃ replies, answers factory provider options 0
        (chunkTexts texts (resolvedBatch factory provider options)) = .ok replies ∧
      Aligned (chunkSize (resolvedBatch factory provider options)) texts.length replies vectors

/-- Every response lists as many vectors as its batch has texts, in their order. -/
def InOrder (provider : Provider ν) (options : Options) (texts : List Text) : Prop :=
  let chunks := chunkTexts texts (resolvedBatch factory provider options)
  ∀ replies, answers factory provider options 0 chunks = .ok replies →
    List.Forall₂ (fun chunk reply => Ordered chunk.length reply) chunks replies

/-! ## The vectors of all responses -/

variable {factory} {provider : Provider ν} {options : Options}

theorem chunkSize_pos (size : Int) : 0 < chunkSize size := by
  unfold chunkSize
  omega

theorem attemptFrom_map {α β : Type} (f : α → β) (execute : Nat → Except Failure α)
    (left attempt : Nat) :
    attemptFrom factory provider (fun n => (execute n).map f) left attempt =
      (attemptFrom factory provider execute left attempt).map f := by
  induction left generalizing attempt with
  | zero =>
    unfold attemptFrom
    cases execute attempt with
    | ok response => rfl
    | error failure => cases failure <;> rfl
  | succ left ih =>
    unfold attemptFrom
    cases execute attempt with
    | ok response => rfl
    | error failure =>
      cases failure with
      | retryable message => exact ih (attempt + 1)
      | other message => rfl

theorem callProvider_eq (batch : Nat) (request : EmbeddingRequest) :
    callProvider factory provider batch request =
      (accepted factory provider batch request).map (requestEmbeddings factory request) :=
  attemptFrom_map _ _ _ _

theorem values_answerOf (request : EmbeddingRequest) (data : WireResponse ν) :
    values (answerOf factory request data) =
      (requestEmbeddings factory request data).embeddings := by
  obtain ⟨items, model, usage⟩ := data
  have hitems : values (answerOf factory request ⟨items, model, usage⟩) =
      (items.filterMap (·.embedding)).map (finish factory request) := by
    rw [values, answerOf, List.map_filterMap, List.map_filterMap]
    refine List.filterMap_congr fun item _ => ?_
    rw [Option.map_map]
    rfl
  rw [hitems, requestEmbeddings]
  cases hnormalize : request.normalize with
  | false =>
    have hfinish : finish factory request = id := by
      funext v
      simp [finish, hnormalize]
    rw [hfinish, List.map_id]
    rfl
  | true =>
    have hfinish : finish factory request = factory.normalizeVector := by
      funext v
      simp [finish, hnormalize]
    rw [hfinish]
    rfl

theorem embedChunks_embeddings (chunks : List (List Text)) (batch : Nat)
    (total : EmbeddingResponse ν) :
    (embedChunks (fun batch chunk =>
        callProvider factory provider batch (options.request chunk)) batch chunks total).map
      (·.embeddings) =
    (answers factory provider options batch chunks).map
      fun replies => total.embeddings ++ replies.flatMap values := by
  induction chunks generalizing batch total with
  | nil => simp [embedChunks, answers, Except.map]
  | cons chunk rest ih =>
    rw [embedChunks, answers, callProvider_eq]
    cases haccepted : accepted factory provider batch (options.request chunk) with
    | error e => rfl
    | ok data =>
      refine (ih (batch + 1) _).trans ?_
      show _ = Except.map _ (answers factory provider options (batch + 1) rest >>= _)
      cases answers factory provider options (batch + 1) rest with
      | error e => rfl
      | ok later =>
        simp only [Except.map, bind, Except.bind, pure, Except.pure, List.flatMap_cons,
          values_answerOf, List.append_assoc]

/-- The vectors of all responses, put together as they come. -/
theorem embedBatch_eq (texts : List Text) :
    embedBatch factory (some provider) options texts =
      (answers factory provider options 0
        (chunkTexts texts (resolvedBatch factory provider options))).map
          (·.flatMap values) := by
  by_cases htexts : texts = []
  · subst htexts
    rw [embedBatch, embedResponse, if_pos rfl, chunkTexts, chunks_nil]
    rfl
  · rw [embedBatch, embedResponse, if_neg htexts]
    generalize chunkTexts texts (resolvedBatch factory provider options) = chunks
    -- a single batch is not put together with anything
    match chunks with
    | [] => exact embedChunks_embeddings [] 0 _
    | [chunk] =>
      show (callProvider factory provider 0 (options.request chunk)).map _ = _
      rw [callProvider_eq, answers, answers]
      cases accepted factory provider 0 (options.request chunk) with
      | error e => rfl
      | ok data =>
        simp only [Except.map, bind, Except.bind, pure, Except.pure, List.flatMap_cons,
          List.flatMap_nil, List.append_nil, values_answerOf]
    | first :: second :: rest => exact embedChunks_embeddings (first :: second :: rest) 0 _

theorem length_answers {chunks : List (List Text)} {batch : Nat} {replies : List (Answer ν)}
    (h : answers factory provider options batch chunks = .ok replies) :
    replies.length = chunks.length := by
  induction chunks generalizing batch replies with
  | nil =>
    obtain rfl := Except.ok.inj h
    rfl
  | cons chunk rest ih =>
    rw [answers] at h
    cases haccepted : accepted factory provider batch (options.request chunk) with
    | error e =>
      rw [haccepted] at h
      cases h
    | ok data =>
      rw [haccepted] at h
      cases hlater : answers factory provider options (batch + 1) rest with
      | error e =>
        simp only [bind, Except.bind, hlater] at h
        cases h
      | ok later =>
        simp only [bind, Except.bind, hlater] at h
        obtain rfl := Except.ok.inj h
        rw [List.length_cons, List.length_cons, ih hlater]

/-- **The call raises, or returns for each text the vector that the provider gave for it,
exactly if every response lists as many vectors as its batch has texts, in their order.** -/
theorem embedBatch_faithful_iff (provider : Provider ν) (options : Options)
    (texts : List Text) :
    Faithful factory provider options texts ↔ InOrder factory provider options texts := by
  rw [Faithful, InOrder, embedBatch_eq]
  cases hreplies : answers factory provider options 0
      (chunkTexts texts (resolvedBatch factory provider options)) with
  | error e => exact iff_of_true nofun nofun
  | ok replies =>
    have haligned := aligned_iff (chunkSize_pos (resolvedBatch factory provider options)) texts
      (length_answers hreplies)
    constructor
    · rintro h _ ⟨rfl⟩
      obtain ⟨_, ⟨rfl⟩, hresult⟩ := h _ rfl
      exact haligned.mp hresult
    · rintro h _ ⟨rfl⟩
      exact ⟨replies, rfl, haligned.mpr (h replies rfl)⟩

end

/-! ## A response in another order -/

def plainFactory : EmbeddingFactory Nat where
  normalizeVector v := v
  repr name := "'".toList ++ name ++ "'".toList

/-- The embeddings of two texts, the second one first. -/
def reorderingProvider : Provider Nat where
  name := "openai".toList
  post _ _ _ := .ok { data := [⟨1, some 20⟩, ⟨0, some 10⟩] }

/-- Each text gets the vector of the other one. -/
theorem reordered_response_misaligns :
    embedBatch plainFactory (some reorderingProvider) {} ["a".toList, "b".toList] =
        .ok [20, 10] ∧
      ¬ Faithful plainFactory reorderingProvider {} ["a".toList, "b".toList] := by
  have hchunks : chunkTexts ["a".toList, "b".toList]
      (resolvedBatch plainFactory reorderingProvider {}) = [["a".toList, "b".toList]] := by
    rw [chunkTexts, chunks_of_ne_nil (chunkSize_pos _) (List.cons_ne_nil _ _)]
    exact congrArg (_ :: ·) (chunks_nil _)
  have hresult : embedBatch plainFactory (some reorderingProvider) {} ["a".toList, "b".toList] =
      .ok [20, 10] := by
    rw [embedBatch_eq, hchunks]
    rfl
  refine ⟨hresult, ?_⟩
  intro hfaithful
  obtain ⟨replies, hreplies, haligned⟩ := hfaithful _ hresult
  rw [hchunks] at hreplies
  obtain rfl := Except.ok.inj hreplies
  obtain ⟨reply, v, hreply, hvalue, hproduced⟩ := haligned.value 0 (by decide)
  obtain rfl := Option.some.inj hreply
  obtain rfl := Option.some.inj hvalue
  revert hproduced
  show ¬ ((0 : Int), 20) ∈ [((1 : Int), 20), (0, 10)]
  decide

end OpenWrtCopilot.Ports.EmbeddingBatches
