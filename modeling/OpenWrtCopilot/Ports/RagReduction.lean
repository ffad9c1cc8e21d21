import OpenWrtCopilot.Ports.RagCitations

/-!
# What a reduced prompt keeps

Says what `DefaultPromptOptimizer` keeps of a prompt that is too long.  It drops chunks from the end
of the context, where `DefaultContextBuilder` has put them document by document, so that a chunk of
a late document goes before one of an early document that ranks below it; and it rebuilds the prompt
with a builder of its own, which reserves the default number of tokens for the answer.

## Main results

* `lt_leftChunks_iff` — a chunk is left if the prompt up to it fits.
* `keepsBest_iff` — when no chunk is dropped that ranks above one that is kept.
* `better_chunk_dropped` — a request where one is.
* `optimized_iff` — when the reduced prompt is the builder's, within the budget.
* `reservation_lost` — a request whose reservation is not kept.
-/

namespace OpenWrtCopilot.Ports.RagReduction

open Verified
open Verified.PyText
open Verified.Suffixes (longest longestPrefix)
open Ports.RagMemory (Message)
open Ports.RagPrompt

/-! ## Ranks -/

/-- What a retriever returns: chunks, in the order of their ranks. -/
structure Retrieved where
  chunks : List RetrievedChunk
  rank : RetrievedChunk → Nat
  ranked : chunks.Pairwise fun a b => rank a < rank b

theorem Retrieved.nodup (retrieved : Retrieved) : retrieved.chunks.Nodup :=
  retrieved.ranked.imp fun h => ne_of_apply_ne retrieved.rank (Nat.ne_of_lt h)

/-- A prompt request of the engine. -/
def requestOf (contextBuilder : DefaultContextBuilder) (promptBuilder : DefaultPromptBuilder)
    (query : Text) (retrieved : Retrieved) (history : List Message) (systemPrompt : Text) :
    PromptRequest :=
  promptBuilder.build (contextBuilder.build query retrieved.chunks history systemPrompt)

/-- No chunk is dropped that ranks above one that is kept. -/
def KeepsBest (rank : RetrievedChunk → Nat) (request reduced : PromptRequest) : Prop :=
  ∀ kept ∈ reduced.context.chunks, ∀ dropped ∈ request.context.chunks,
    dropped ∉ reduced.context.chunks → ¬ rank dropped < rank kept

/-- Wherever a chunk stands in front of one that ranks above it, the prompt with the chunks up to
the second one fits, or that with the chunks up to the first one does not. -/
def Separate (includeCitations : Bool) (maxPromptTokens : Int) (rank : RetrievedChunk → Nat)
    (context : PromptContext) : Prop :=
  ∀ i j first second, i < j → context.chunks[i]? = some first →
    context.chunks[j]? = some second → rank second < rank first →
      Fits includeCitations maxPromptTokens
          { context with chunks := context.chunks.take (j + 1) } ∨
        ¬ Fits includeCitations maxPromptTokens
          { context with chunks := context.chunks.take (i + 1) }

/-! ## Documents -/

theorem upTo_sublist {α : Type} (limit : Int) (xs : List α) : (upTo limit xs).Sublist xs := by
  rw [upTo]
  split
  · exact List.take_sublist _ _
  · exact List.take_sublist _ _

/-- A chunk stands once in the context. -/
theorem nodup_context (contextBuilder : DefaultContextBuilder) (query : Text)
    {chunks : List RetrievedChunk} (hchunks : chunks.Nodup) (history : List Message)
    (systemPrompt : Text) :
    (contextBuilder.build query chunks history systemPrompt).chunks.Nodup := by
  have hgroup : ∀ document ∈ upTo contextBuilder.maxDocuments (groupByDocument chunks),
      document.2 = chunks.filter (·.documentId = document.1) := fun document hdocument =>
    Groups.mem_group (fun c : RetrievedChunk => c.documentId)
      ((upTo_sublist _ _).subset hdocument)
  have hkeys : (upTo contextBuilder.maxDocuments (groupByDocument chunks)).Pairwise
      fun a b => a.1 ≠ b.1 := by
    have hall := Groups.nodup_keys_group (fun c : RetrievedChunk => c.documentId) chunks
    exact (List.pairwise_map.mp hall).sublist (upTo_sublist _ _)
  rw [DefaultContextBuilder.build]
  dsimp only
  rw [List.flatMap_map, List.nodup_flatMap]
  refine ⟨fun document hdocument => ?_, hkeys.imp_of_mem fun {a b} ha hb hne => ?_⟩
  · exact ((hgroup document hdocument ▸ hchunks.filter _ : document.2.Nodup)).sublist
      (upTo_sublist _ _)
  · refine List.disjoint_left.mpr fun chunk hleft hright => hne ?_
    have hin := (upTo_sublist _ _).subset hleft
    have hin' := (upTo_sublist _ _).subset hright
    rw [hgroup a ha] at hin
    rw [hgroup b hb] at hin'
    exact (of_decide_eq_true (List.mem_filter.mp hin).2).symm.trans
      (of_decide_eq_true (List.mem_filter.mp hin').2)

/-! ## Chunks that are left -/

section Left

variable {includeCitations : Bool} {maxPromptTokens : Int} {context : PromptContext}

theorem leftChunks_eq_take :
    leftChunks includeCitations maxPromptTokens context =
      context.chunks.take (leftChunks includeCitations maxPromptTokens context).length :=
  List.prefix_iff_eq_take.mp (Suffixes.longestPrefix_prefix _ _)

/-- A chunk is left if the prompt with the chunks up to it fits. -/
theorem lt_leftChunks_iff {i : Nat} (hi : i < context.chunks.length) :
    i < (leftChunks includeCitations maxPromptTokens context).length ↔
      Fits includeCitations maxPromptTokens
        { context with chunks := context.chunks.take (i + 1) } := by
  constructor
  · intro hlt
    have hne : leftChunks includeCitations maxPromptTokens context ≠ [] :=
      List.ne_nil_of_length_pos (Nat.zero_lt_of_lt hlt)
    have hfits : Fits includeCitations maxPromptTokens
        { context with chunks := leftChunks includeCitations maxPromptTokens context } :=
      Suffixes.longestPrefix_holds hne
    refine hfits.mono ?_ List.suffix_rfl
    rw [leftChunks_eq_take]
    exact List.take_prefix_take_left hlt
  · intro hfits
    have hle : (context.chunks.take (i + 1)).length ≤
        (leftChunks includeCitations maxPromptTokens context).length :=
      @Suffixes.length_le_longestPrefix _ (fun chunks => Fits includeCitations maxPromptTokens
        { context with chunks := chunks }) _ _ _ (List.take_prefix _ _) hfits
    rw [List.length_take] at hle
    exact lt_of_lt_of_le (by omega) hle

/-- The chunks that are left rank above the others exactly if these are separated. -/
theorem left_best_iff (hnodup : context.chunks.Nodup) (rank : RetrievedChunk → Nat) :
    (∀ kept ∈ leftChunks includeCitations maxPromptTokens context,
      ∀ dropped ∈ context.chunks,
        dropped ∉ leftChunks includeCitations maxPromptTokens context →
          ¬ rank dropped < rank kept) ↔
      Separate includeCitations maxPromptTokens rank context := by
  have hkept {i : Nat} {chunk : RetrievedChunk} (hchunk : context.chunks[i]? = some chunk) :
      chunk ∈ leftChunks includeCitations maxPromptTokens context ↔
        Fits includeCitations maxPromptTokens
          { context with chunks := context.chunks.take (i + 1) } := by
    obtain ⟨hi, rfl⟩ := List.getElem?_eq_some_iff.mp hchunk
    rw [← lt_leftChunks_iff hi]
    constructor
    · intro hmem
      rw [leftChunks_eq_take] at hmem
      obtain ⟨j, hj, hsame⟩ := List.mem_take_iff_getElem.mp hmem
      have heq := (List.Nodup.getElem_inj_iff hnodup).mp hsame
      omega
    · intro hlt
      rw [leftChunks_eq_take]
      exact List.mem_take_iff_getElem.mpr ⟨i, by omega, rfl⟩
  constructor
  · intro h i j first second _ hfirst hsecond hrank
    by_contra hnot
    rw [not_or, not_not] at hnot
    exact h first ((hkept hfirst).mpr hnot.2) second (List.mem_of_getElem? hsecond)
      (fun hmem => hnot.1 ((hkept hsecond).mp hmem)) hrank
  · intro h kept hmem dropped hdropped hnot hrank
    have hin : kept ∈ context.chunks := (Suffixes.longestPrefix_prefix _ _).subset hmem
    obtain ⟨i, hi⟩ := List.mem_iff_getElem?.mp hin
    obtain ⟨j, hj⟩ := List.mem_iff_getElem?.mp hdropped
    have hfits := (hkept hi).mp hmem
    have hover : ¬ Fits includeCitations maxPromptTokens
        { context with chunks := context.chunks.take (j + 1) } :=
      fun hfits => hnot ((hkept hj).mpr hfits)
    have hlt : i < j := by
      by_contra hge
      exact hover (hfits.mono (List.take_prefix_take_left (by omega)) List.suffix_rfl)
    obtain hsecond | hfirst := h i j kept dropped hlt hi hj hrank
    · exact hover hsecond
    · exact hfirst hfits

end Left

/-- **No chunk is dropped that ranks above one that is kept exactly if the prompt is within the
budget, or the chunks that stand in front of others that rank above them are separated.** -/
theorem keepsBest_iff (contextBuilder : DefaultContextBuilder)
    (promptBuilder : DefaultPromptBuilder) (query : Text) (retrieved : Retrieved)
    (history : List Message) (systemPrompt : Text) (sha256 : Text → Text)
    (includeCitations : Bool) (maxPromptTokens : Int) :
    (∀ reduced, optimize sha256 includeCitations
        (requestOf contextBuilder promptBuilder query retrieved history systemPrompt)
        maxPromptTokens = .ok reduced →
      KeepsBest retrieved.rank
        (requestOf contextBuilder promptBuilder query retrieved history systemPrompt) reduced) ↔
      ((requestOf contextBuilder promptBuilder query retrieved history
          systemPrompt).tokenEstimate : Int) ≤ maxPromptTokens ∨
        Separate includeCitations maxPromptTokens retrieved.rank
          (requestOf contextBuilder promptBuilder query retrieved history
            systemPrompt).context := by
  have hnodup : (requestOf contextBuilder promptBuilder query retrieved history
      systemPrompt).context.chunks.Nodup := by
    have hall := nodup_context contextBuilder query retrieved.nodup history systemPrompt
    rw [requestOf, DefaultPromptBuilder.build]
    dsimp only
    split
    · exact hall
    · exact hall
  generalize requestOf contextBuilder promptBuilder query retrieved history systemPrompt = request
    at hnodup ⊢
  by_cases hshort : (request.tokenEstimate : Int) ≤ maxPromptTokens
  · refine iff_of_true (fun reduced h => ?_) (Or.inl hshort)
    rw [optimize, if_pos hshort] at h
    obtain rfl := Except.ok.inj h
    exact fun _ _ dropped hdropped hnot => absurd hdropped hnot
  rw [or_iff_right hshort]
  by_cases hbare : Fits includeCitations maxPromptTokens (bare request.context [])
  · obtain ⟨hchunks, -⟩ := chunks_reduce hbare
    rw [← left_best_iff hnodup, ← hchunks]
    have hreduce : Fits includeCitations maxPromptTokens
        (reduce includeCitations maxPromptTokens request.context) := by
      rw [reduce, dropContext, if_pos (fits_trimmed_iff.mpr hbare)]
      exact fits_trimmed_iff.mpr hbare
    rw [optimize, if_neg hshort]
    dsimp only
    rw [if_pos hreduce]
    constructor
    · exact fun h => h _ rfl
    · rintro h reduced heq
      obtain rfl := Except.ok.inj heq
      exact h
  · refine iff_of_true (fun reduced h => ?_) fun i j first second _ _ _ _ => Or.inr fun hfits => ?_
    · have hspec := optimize_spec rfl hshort h
      intro kept hkept
      rw [hspec.chunks, (chunks_reduce_of_not hbare).1] at hkept
      cases hkept
    · exact hbare (hfits.mono List.nil_prefix List.nil_suffix)

/-! ## A chunk that is dropped -/

/-- A chunk with this id, of this document. -/
def plainChunk (id documentId : String) : RetrievedChunk where
  id := id.toList
  documentId := documentId.toList
  text := "a chunk of text".toList

/-- Two chunks of one document, with one of another document in between. -/
def interleaved : Retrieved where
  chunks := [plainChunk "a#0" "a", plainChunk "b#0" "b", plainChunk "a#1" "a"]
  rank chunk := if chunk.id = "a#0".toList then 1 else if chunk.id = "b#0".toList then 2 else 3
  ranked := by decide

/-- The request with these chunks. -/
def interleavedRequest : PromptRequest :=
  requestOf
    { maxDocuments := 6, maxChunksPerDocument := 3, includeCitations := false, snippet := id }
    { includeCitations := false, sha256 := id } "how?".toList interleaved [] []

/-- The second best chunk is dropped, and the third best one is kept. -/
theorem better_chunk_dropped :
    ¬ ∀ (contextBuilder : DefaultContextBuilder) (promptBuilder : DefaultPromptBuilder)
      (query : Text) (retrieved : Retrieved) (history : List Message) (systemPrompt : Text)
      (sha256 : Text → Text) (includeCitations : Bool) (maxPromptTokens : Int) reduced,
      optimize sha256 includeCitations
          (requestOf contextBuilder promptBuilder query retrieved history systemPrompt)
          maxPromptTokens = .ok reduced →
        KeepsBest retrieved.rank
          (requestOf contextBuilder promptBuilder query retrieved history systemPrompt)
          reduced := by
  intro h
  have hok : (optimize id false interleavedRequest 35).isOk = true := by decide +kernel
  cases hreduced : optimize id false interleavedRequest 35 with
  | error e =>
    rw [hreduced] at hok
    cases hok
  | ok reduced =>
    have hspec := optimize_spec rfl (by decide +kernel) hreduced
    have hbest := h _ _ _ interleaved _ _ _ _ _ reduced hreduced
    rw [KeepsBest, hspec.chunks] at hbest
    exact hbest (plainChunk "a#1" "a") (by decide +kernel) (plainChunk "b#0" "b")
      (by decide) (by decide +kernel) (by decide)

/-! ## The reduced prompt -/

/-- The context with nothing but its system prompt and its question. -/
def minimal (context : PromptContext) : PromptContext :=
  { context with chunks := [], documents := [], citations := [], history := [] }

/-- The reduced prompt is within the budget, or there is none, since even the minimal one is not; it
is the builder's, and has the whole history unless no chunk is left. -/
structure Optimized (builder : DefaultPromptBuilder) (context : PromptContext)
    (includeCitations : Bool) (maxPromptTokens : Int) : Prop where
  within : ∀ reduced, optimize builder.sha256 includeCitations (builder.build context)
    maxPromptTokens = .ok reduced → (reduced.tokenEstimate : Int) ≤ maxPromptTokens
  raises : ∀ e, optimize builder.sha256 includeCitations (builder.build context)
    maxPromptTokens = .error e → (∃ message, e = .contextLimit message) ∧
      maxPromptTokens < promptTokens includeCitations (minimal (builder.build context).context)
  rebuilt : ∀ reduced, optimize builder.sha256 includeCitations (builder.build context)
    maxPromptTokens = .ok reduced → reduced = builder.build reduced.context
  history : ∀ reduced, optimize builder.sha256 includeCitations (builder.build context)
    maxPromptTokens = .ok reduced →
      reduced.context.history ≠ (builder.build context).context.history →
        reduced.context.chunks = []

section Optimize

variable {includeCitations : Bool} {maxPromptTokens : Int} {context : PromptContext}

/-- A request with this context. -/
def rendered (builder : DefaultPromptBuilder) (context : PromptContext) : PromptRequest where
  query := context.query
  system := renderSystem builder.includeCitations context
  messages := renderMessages builder.includeCitations context
  context := context
  maxTokens := builder.reservedOutputTokens
  tokenEstimate := promptTokens builder.includeCitations context
  checksum := checksumKey builder.sha256 ((renderMessages builder.includeCitations context).map
    fun message => message.role ++ ":".toList ++ message.content)

theorem build_of_same {builder : DefaultPromptBuilder} {context : PromptContext}
    (h : builder.systemPrompt = [] ∨ context.systemPrompt = builder.systemPrompt) :
    builder.build context = rendered builder context := by
  have hsame : (if builder.systemPrompt ≠ [] then
      { context with systemPrompt := builder.systemPrompt } else context) = context := by
    split
    · next hprompt => rw [← h.resolve_left hprompt]
    · rfl
  rw [DefaultPromptBuilder.build, hsame]
  rfl

theorem systemPrompt_build (builder : DefaultPromptBuilder) (context : PromptContext) :
    builder.systemPrompt = [] ∨
      (builder.build context).context.systemPrompt = builder.systemPrompt := by
  by_cases hprompt : builder.systemPrompt = []
  · exact Or.inl hprompt
  · refine Or.inr ?_
    rw [DefaultPromptBuilder.build]
    dsimp only
    rw [if_pos hprompt]

/-- A builder makes the same request again. -/
theorem build_again (builder : DefaultPromptBuilder) (context : PromptContext) :
    builder.build context = builder.build (builder.build context).context := by
  rw [build_of_same (systemPrompt_build builder context)]
  rfl

/-- Without citations it makes no difference whether they are asked for. -/
theorem renderSystem_plain (h : ¬ (includeCitations = true ∧ context.citations ≠ [])) :
    renderSystem includeCitations context = renderSystem false context := by
  have hfalse : ¬ (false = true ∧ context.citations ≠ []) := fun h => Bool.false_ne_true h.1
  rw [renderSystem, renderSystem, if_neg h, if_neg hfalse]

theorem renderSystem_lt (h : context.citations ≠ []) :
    (renderSystem false context).length < (renderSystem true context).length := by
  have hfalse : ¬ (false = true ∧ context.citations ≠ []) := fun h => Bool.false_ne_true h.1
  have htrue : true = true ∧ context.citations ≠ [] := ⟨rfl, h⟩
  rw [renderSystem, renderSystem, if_neg hfalse, if_pos htrue, List.length_append]
  refine Nat.lt_add_of_pos_right (List.length_pos_of_ne_nil ?_)
  rw [String.toList_append]
  refine List.append_ne_nil_of_left_ne_nil ?_ _
  rw [Ne, String.toList_eq_nil_iff]
  decide

theorem renderSystem_minimal (includeCitations : Bool) (context : PromptContext) :
    renderSystem includeCitations (minimal context) = renderSystem false context := by
  have hplain : renderSystem includeCitations (minimal context) =
      renderSystem false (minimal context) := renderSystem_plain fun h => h.2 rfl
  rw [hplain]
  rfl

theorem fits_minimal (h : Fits includeCitations maxPromptTokens (bare context [])) :
    Fits includeCitations maxPromptTokens (minimal context) := by
  have hsystem : estimate (renderSystem includeCitations (minimal context)) ≤
      estimate (renderSystem includeCitations (bare context [])) := by
    rw [renderSystem_minimal]
    by_cases hcited : includeCitations = true ∧ (bare context []).citations ≠ []
    · rw [hcited.1]
      exact estimate_mono (renderSystem_lt hcited.2).le
    · rw [renderSystem_plain hcited]
      exact le_refl _
  rw [Fits, promptTokens_eq, overhead] at h ⊢
  have huser : renderUserMessage (minimal context) = renderUserMessage (bare context []) := rfl
  have hhistory : Suffixes.totalCost cost (minimal context).history =
      Suffixes.totalCost cost (bare context []).history := rfl
  rw [huser, hhistory]
  omega

/-- What is left of a context fits exactly if the minimal one does. -/
theorem fits_reduce_iff :
    Fits includeCitations maxPromptTokens (reduce includeCitations maxPromptTokens context) ↔
      Fits includeCitations maxPromptTokens (minimal context) := by
  by_cases hbare : Fits includeCitations maxPromptTokens (bare context [])
  · refine iff_of_true ?_ (fits_minimal hbare)
    rw [reduce, dropContext, if_pos (fits_trimmed_iff.mpr hbare)]
    exact fits_trimmed_iff.mpr hbare
  · have hhistory : (trimHistory includeCitations maxPromptTokens
        (trimChunks includeCitations maxPromptTokens context)).history = [] := by
      rw [history_trimmed]
      by_contra hne
      have hfits : Fits includeCitations maxPromptTokens (bare context (longest (fun history =>
          Fits includeCitations maxPromptTokens (bare context history)) context.history)) :=
        @Suffixes.longest_holds _ (fun history =>
          Fits includeCitations maxPromptTokens (bare context history)) _ _ hne
      exact hbare (hfits.mono List.nil_prefix List.nil_suffix)
    have hreduce : reduce includeCitations maxPromptTokens context = minimal context := by
      rw [reduce, dropContext, if_neg fun hfits => hbare (fits_trimmed_iff.mp hfits), hhistory]
      rfl
    rw [hreduce]

/-- The history is the whole one unless no chunk is left. -/
theorem chunks_of_history
    (h : (reduce includeCitations maxPromptTokens context).history ≠ context.history) :
    (reduce includeCitations maxPromptTokens context).chunks = [] := by
  by_cases hbare : Fits includeCitations maxPromptTokens (bare context [])
  · rw [(chunks_reduce hbare).1]
    by_contra hne
    have hfits : Fits includeCitations maxPromptTokens
        { context with chunks := leftChunks includeCitations maxPromptTokens context } :=
      Suffixes.longestPrefix_holds hne
    refine h ?_
    rw [history_reduce]
    exact Suffixes.longest_of_holds (hfits.mono List.nil_prefix List.suffix_rfl)
  · exact (chunks_reduce_of_not hbare).1

/-- Whether citations are asked for makes a difference only where there are some. -/
theorem renderSystem_eq_iff (a b : Bool) (context : PromptContext) :
    renderSystem a context = renderSystem b context ↔ a = b ∨ context.citations = [] := by
  have hdiffer : renderSystem true context = renderSystem false context ↔
      context.citations = [] := by
    constructor
    · intro heq
      by_contra hcited
      exact (renderSystem_lt hcited).ne' (congrArg List.length heq)
    · exact fun hnone => renderSystem_plain fun h => h.2 hnone
  cases a with
  | true =>
    cases b with
    | true => exact iff_of_true rfl (Or.inl rfl)
    | false => rw [hdiffer, or_iff_right Bool.noConfusion]
  | false =>
    cases b with
    | true => rw [eq_comm, hdiffer, or_iff_right Bool.noConfusion]
    | false => exact iff_of_true rfl (Or.inl rfl)

end Optimize

/-- **The reduced prompt is the builder's, within the budget, and with the whole history while a
chunk is left, exactly if the prompt is not reduced, cannot be, or the builder has the optimizer's
settings.** -/
theorem optimized_iff (builder : DefaultPromptBuilder) (context : PromptContext)
    (includeCitations : Bool) (maxPromptTokens : Int) :
    Optimized builder context includeCitations maxPromptTokens ↔
      ((builder.build context).tokenEstimate : Int) ≤ maxPromptTokens ∨
        ¬ Fits includeCitations maxPromptTokens (minimal (builder.build context).context) ∨
        builder.reservedOutputTokens = 1000 ∧
          (includeCitations = builder.includeCitations ∨
            (builder.build context).context.citations = [] ∨
            ¬ Fits includeCitations maxPromptTokens (bare (builder.build context).context [])) := by
  by_cases hshort : ((builder.build context).tokenEstimate : Int) ≤ maxPromptTokens
  · have hsame : optimize builder.sha256 includeCitations (builder.build context)
        maxPromptTokens = .ok (builder.build context) := by
      rw [optimize, if_pos hshort]
    refine iff_of_true ⟨?_, ?_, ?_, ?_⟩ (Or.inl hshort)
    · rintro reduced h
      obtain rfl := Except.ok.inj (hsame.symm.trans h)
      exact hshort
    · rintro e h
      cases hsame.symm.trans h
    · rintro reduced h
      obtain rfl := Except.ok.inj (hsame.symm.trans h)
      exact build_again builder context
    · rintro reduced h hhistory
      obtain rfl := Except.ok.inj (hsame.symm.trans h)
      exact absurd rfl hhistory
  rw [or_iff_right hshort]
  by_cases hminimal : Fits includeCitations maxPromptTokens
      (minimal (builder.build context).context)
  · rw [or_iff_right (not_not.mpr hminimal)]
    have hfits := fits_reduce_iff.mpr hminimal
    obtain ⟨left, hleft⟩ : ∃ left : PromptContext, left =
        { reduce includeCitations maxPromptTokens (builder.build context).context with
          tokenEstimate := promptTokens includeCitations
            (reduce includeCitations maxPromptTokens (builder.build context).context) } :=
      ⟨_, rfl⟩
    have hreduced : optimize builder.sha256 includeCitations (builder.build context)
        maxPromptTokens = .ok (rendered
          { includeCitations := includeCitations, sha256 := builder.sha256 } left) := by
      rw [optimize, if_neg hshort]
      dsimp only
      rw [if_pos hfits, ← hleft, build_of_same (Or.inl rfl)]
    have hbuilder : builder.systemPrompt = [] ∨ left.systemPrompt = builder.systemPrompt := by
      refine (systemPrompt_build builder context).imp_right fun hsame => ?_
      rw [hleft]
      exact (systemPrompt_reduce.2).trans hsame
    have hcitations : left.citations = [] ↔ (builder.build context).context.citations = [] ∨
        ¬ Fits includeCitations maxPromptTokens (bare (builder.build context).context []) := by
      rw [hleft]
      by_cases hbare : Fits includeCitations maxPromptTokens
          (bare (builder.build context).context [])
      · rw [or_iff_left (not_not.mpr hbare)]
        exact (chunks_reduce hbare).2 ▸ Iff.rfl
      · exact iff_of_true (chunks_reduce_of_not hbare).2 (Or.inr hbare)
    rw [← hcitations, ← renderSystem_eq_iff]
    constructor
    · intro h
      have hsame := h.rebuilt _ hreduced
      have hbuilt : builder.build left = rendered builder left := build_of_same hbuilder
      have hsame : rendered { includeCitations := includeCitations, sha256 := builder.sha256 }
          left = rendered builder left := hsame.trans hbuilt
      exact ⟨(congrArg PromptRequest.maxTokens hsame).symm, congrArg PromptRequest.system hsame⟩
    · rintro ⟨hreserved, hsystem⟩
      refine ⟨?_, ?_, ?_, ?_⟩
      · rintro reduced h
        obtain rfl := Except.ok.inj (hreduced.symm.trans h)
        have hestimate : promptTokens includeCitations left = promptTokens includeCitations
            (reduce includeCitations maxPromptTokens (builder.build context).context) := by
          rw [hleft]
          rfl
        exact (congrArg Nat.cast hestimate).trans_le hfits
      · rintro e h
        cases hreduced.symm.trans h
      · rintro reduced h
        obtain rfl := Except.ok.inj (hreduced.symm.trans h)
        have hmessages : renderMessages includeCitations left =
            renderMessages builder.includeCitations left := by
          rw [renderMessages, hsystem, renderMessages]
        rw [show (rendered _ left).context = left from rfl, build_of_same hbuilder, rendered,
          rendered, promptTokens, promptTokens]
        dsimp only
        rw [hsystem, hmessages, hreserved]
      · rintro reduced h hhistory
        obtain rfl := Except.ok.inj (hreduced.symm.trans h)
        refine hleft ▸ chunks_of_history (?_ : _ ≠ _)
        exact fun hsame => hhistory (hleft ▸ hsame)
  · have hfails : ∃ message, optimize builder.sha256 includeCitations (builder.build context)
        maxPromptTokens = .error (.contextLimit message) := by
      rw [optimize, if_neg hshort]
      dsimp only
      rw [if_neg fun hfits => hminimal (fits_reduce_iff.mp hfits)]
      exact ⟨_, rfl⟩
    obtain ⟨message, hfails⟩ := hfails
    refine iff_of_true ⟨?_, ?_, ?_, ?_⟩ (Or.inl hminimal)
    · rintro reduced h
      cases hfails.symm.trans h
    · rintro e h
      obtain rfl := Except.error.inj (hfails.symm.trans h)
      exact ⟨⟨message, rfl⟩, not_le.mp hminimal⟩
    · rintro reduced h
      cases hfails.symm.trans h
    · rintro reduced h
      cases hfails.symm.trans h

/-- A builder that reserves 500 tokens. -/
def smallReserve : DefaultPromptBuilder where
  includeCitations := false
  reservedOutputTokens := 500
  sha256 := id

/-- A prompt that is reduced reserves 1000 of them. -/
theorem reservation_lost :
    ¬ ∀ (builder : DefaultPromptBuilder) (context : PromptContext) (includeCitations : Bool)
      (maxPromptTokens : Int), Optimized builder context includeCitations maxPromptTokens := by
  intro h
  have hrebuilt := (h smallReserve interleavedRequest.context false 35).rebuilt
  have hok : (optimize id false (smallReserve.build interleavedRequest.context) 35).isOk =
      true := by decide +kernel
  cases hreduced : optimize id false (smallReserve.build interleavedRequest.context) 35 with
  | error e =>
    rw [hreduced] at hok
    cases hok
  | ok reduced =>
    have htokens := congrArg PromptRequest.maxTokens (hrebuilt reduced hreduced)
    rw [optimize, if_neg (by decide)] at hreduced
    dsimp only at hreduced
    split at hreduced
    · obtain rfl := Except.ok.inj hreduced
      exact absurd htokens (by decide)
    · cases hreduced

end OpenWrtCopilot.Ports.RagReduction
