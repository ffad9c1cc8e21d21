import OpenWrtCopilot.Ports.RagAnswers

/-!
# Turns of a conversation

The user's message is remembered when the prompt is built, before the provider is called, and
the answer when the provider has answered.  A turn that fails in between leaves the user's
message in the memory: nothing takes it back.

## Main results

* `turn_recorded` — what a turn adds to the memory, wherever it ends.
* `turns_recorded` — the memory after any run of turns.
* `failed_turn_remembered` — a failed turn changes what the next prompt is built from.
-/

namespace OpenWrtCopilot.Ports.RagTurns

open Verified
open Verified.PyDict (Dict)
open Verified.PyText
open Ports.RagAnswers
open Ports.RagEngine
open Ports.RagMemory (ConversationState Message RollingConversationMemory)
open Ports.RagPrompt (RagError)

variable {F : Type}

/-! ## Turns -/

/-- A call of `answer`, or of `stream` with a consumer that stops after a number of events. -/
inductive Turn (F : Type)
  | answer (engine : RAGEngine F) (question : Question) (now : Int)
  | stream (engine : RAGEngine F) (question : Question) (now : Int) (taken : Nat)

/-- How far a turn gets: it has no prompt; it has a prompt and no answer, since the provider
failed or its stream was abandoned; or it has an answer. -/
inductive Outcome
  | unprompted
  | failed
  | completed (answer : Text)

namespace Turn

def engine : Turn F → RAGEngine F
  | .answer engine _ _ => engine
  | .stream engine _ _ _ => engine

def question : Turn F → Question
  | .answer _ question _ => question
  | .stream _ question _ _ => question

def now : Turn F → Int
  | .answer _ _ now => now
  | .stream _ _ now _ => now

end Turn

/-- How far an answer gets. -/
def answerOutcome : Except AnswerError RAGResponse → Outcome
  | .error (.noChatProvider _) => .unprompted
  | .error (.prompt _) => .unprompted
  | .error (.provider _) => .failed
  | .error (.content _) => .failed
  | .ok response => .completed response.answer

/-- How far a stream gets, by the events that its consumer took. -/
def streamOutcome (events : List RAGStreamEvent) : Outcome :=
  if events.any (·.type = .retrieval) then
    if events.any (·.type = .citations) then
      .completed ((events.filter (·.type = .delta)).flatMap (·.content))
    else .failed
  else .unprompted

/-- A turn is taken; `none` if the memory does not return. -/
def Turn.run : Turn F → Session → Option (Outcome × Session)
  | .answer engine question now, s =>
      (engine.answer question now s).map fun (result, s) => (answerOutcome result, s)
  | .stream engine question now taken, s =>
      let r := engine.streamed question now s
      (r.after s taken).map fun s =>
        (streamOutcome ((r.events.take taken).map Prod.fst), s)

/-! ## What is remembered -/

/-- A message is added to the conversations. -/
def remember (memory : RollingConversationMemory) (turn : RagMemory.Turn)
    (conversations : Dict Text ConversationState) : Option (Dict Text ConversationState) :=
  (memory.add turn.conversationId turn.message conversations).map Prod.fst

def userMessage (question : Question) : Message where
  role := "user".toList
  content := question.query

def assistantMessage (answer : Text) : Message where
  role := "assistant".toList
  content := answer

/-- The messages of a turn. -/
def messages (question : Question) : Outcome → List Message
  | .unprompted => []
  | .failed => [userMessage question]
  | .completed answer => [userMessage question, assistantMessage answer]

/-- What a turn adds to its conversation. -/
def added (question : Question) (outcome : Outcome) : List RagMemory.Turn :=
  match question.conversationId with
  | none => []
  | some c => (messages question outcome).map fun message => ⟨c, message⟩

section Turn

variable {engine : RAGEngine F} {memory : RollingConversationMemory} {question : Question}
  {now : Int} {s s' : Session}

theorem run_remember_one (turn : RagMemory.Turn) (conversations : Dict Text ConversationState) :
    Runs.run (remember memory) [turn] conversations = remember memory turn conversations :=
  Option.bind_fun_some _

/-- When a prompt is built, the user's message is added. -/
theorem rememberTurn_added (hmemory : engine.retrieval.memory = some memory)
    (h : engine.retrieval.rememberTurn question.call s = some s') :
    Runs.run (remember memory) (added question .failed) s.conversations =
      some s'.conversations := by
  have hcall : (question.call : Call F).conversationId = question.conversationId := rfl
  rw [RetrievalEngine.rememberTurn, hmemory, hcall] at h
  rw [added]
  cases hconversation : question.conversationId with
  | none =>
    rw [hconversation] at h
    exact congrArg (Option.map Session.conversations) h
  | some c =>
    rw [hconversation] at h
    obtain ⟨⟨conversations, created⟩, hadd, rfl⟩ := Option.map_eq_some_iff.mp h
    exact (run_remember_one _ _).trans (congrArg (Option.map Prod.fst) hadd)

/-- When the provider has answered, the answer is. -/
theorem complete_added (hmemory : engine.retrieval.memory = some memory) {answer : Text}
    {before : Session} (h : engine.complete question answer s = some s')
    (hbefore : Runs.run (remember memory) (added question .failed) before.conversations =
      some s.conversations) :
    Runs.run (remember memory) (added question (.completed answer)) before.conversations =
      some s'.conversations := by
  rw [RAGEngine.complete] at h
  rw [added] at hbefore ⊢
  cases hconversation : question.conversationId with
  | none =>
    rw [hconversation] at h hbefore
    exact hbefore.trans (congrArg (Option.map Session.conversations) h)
  | some c =>
    rw [hconversation] at h hbefore
    dsimp only at h
    rw [RetrievalEngine.completeTurn, hmemory] at h
    obtain ⟨⟨conversations, created⟩, hadd, rfl⟩ := Option.map_eq_some_iff.mp h
    have hrun := Runs.run_append hbefore [⟨c, assistantMessage answer⟩]
    rw [run_remember_one] at hrun
    exact hrun.trans (congrArg (Option.map Prod.fst) hadd)

/-- Of the part after the cache, only remembering the turn changes the conversations. -/
theorem answerFresh_remembers {r : RetrievalEngine F} {call : Call F} {history : List Message}
    {key : Text} {result : Except RagError PromptResponse}
    (h : r.answerFresh call now history key s = some (result, s')) :
    (∃ e, result = .error e ∧ s'.conversations = s.conversations) ∨
      ∃ response before remembered, result = .ok response ∧
        before.conversations = s.conversations ∧ r.rememberTurn call before = some remembered ∧
        s'.conversations = remembered.conversations := by
  obtain ⟨e, rfl, rfl⟩ | ⟨chunks, response, remembered, -, -, rfl, hremember, rfl⟩ :=
    RetrievalEngine.answerFresh_cases h
  · exact Or.inl ⟨e, rfl, rfl⟩
  · refine Or.inr ⟨response, _, remembered, rfl, ?_, hremember, ?_⟩
    · rfl
    · split
      · rfl
      · rfl

theorem answer_remembers {r : RetrievalEngine F} {call : Call F}
    {result : Except RagError PromptResponse} (h : r.answer call now s = some (result, s')) :
    (∃ e, result = .error e ∧ s'.conversations = s.conversations) ∨
      ∃ response before remembered, result = .ok response ∧
        before.conversations = s.conversations ∧ r.rememberTurn call before = some remembered ∧
        s'.conversations = remembered.conversations := by
  rw [RetrievalEngine.answer] at h
  split at h
  · obtain ⟨rfl, rfl⟩ := Prod.mk.inj (Option.some.inj h)
    exact Or.inl ⟨_, rfl, rfl⟩
  · dsimp only at h
    split at h
    · next hcached =>
        cases hget : s.cache.getPrompt (r.promptKey call) now with
        | mk found cache =>
          rw [hget] at h
          cases found with
          | some response =>
            obtain ⟨rfl, rfl⟩ := Prod.mk.inj (Option.some.inj h)
            -- without a conversation there is nothing to remember
            have hnothing : r.rememberTurn call s = some s := by
              rw [RetrievalEngine.rememberTurn, hcached.2.2]
            exact Or.inr ⟨_, s, s, rfl, rfl, hnothing, rfl⟩
          | none => exact answerFresh_remembers (s := { s with cache := cache }) h
    · exact answerFresh_remembers h

/-- A prompt comes with the user's message; without a prompt nothing is remembered. -/
theorem prompt_added (hmemory : engine.retrieval.memory = some memory)
    {result : Except RagError PromptResponse}
    (h : engine.retrieval.answer question.call now s = some (result, s')) :
    (∃ e, result = .error e ∧ s'.conversations = s.conversations) ∨
      ∃ p, result = .ok p ∧ Runs.run (remember memory) (added question .failed) s.conversations =
        some s'.conversations := by
  obtain herror | ⟨p, before, remembered, rfl, hbefore, hremember, hafter⟩ := answer_remembers h
  · exact Or.inl herror
  · refine Or.inr ⟨p, rfl, ?_⟩
    rw [← hbefore, hafter]
    exact rememberTurn_added hmemory hremember

theorem added_unprompted (conversations : Dict Text ConversationState) :
    Runs.run (remember memory) (added question .unprompted) conversations =
      some conversations := by
  rw [added]
  cases question.conversationId with
  | none => rfl
  | some c => rfl

/-- What an answer adds. -/
theorem answer_added (hmemory : engine.retrieval.memory = some memory)
    {result : Except AnswerError RAGResponse}
    (h : engine.answer question now s = some (result, s')) :
    Runs.run (remember memory) (added question (answerOutcome result)) s.conversations =
      some s'.conversations := by
  rw [RAGEngine.answer] at h
  cases hchat : engine.chat with
  | none =>
    rw [hchat] at h
    obtain ⟨rfl, rfl⟩ := Prod.mk.inj (Option.some.inj h)
    exact added_unprompted _
  | some chat =>
    rw [hchat] at h
    dsimp only at h
    cases hprompt : engine.retrieval.answer question.call now s with
    | none =>
      rw [hprompt] at h
      cases h
    | some prompted =>
      obtain ⟨prompt, between⟩ := prompted
      rw [hprompt] at h
      obtain ⟨e, rfl, hsame⟩ | ⟨p, rfl, hadded⟩ := prompt_added hmemory hprompt
      · obtain ⟨rfl, rfl⟩ := Prod.mk.inj (Option.some.inj h)
        rw [hsame]
        exact added_unprompted _
      · dsimp only at h
        cases hreply : chat (chatRequest p question.model) with
        | error message =>
          rw [hreply] at h
          obtain ⟨rfl, rfl⟩ := Prod.mk.inj (Option.some.inj h)
          exact hadded
        | ok response =>
          rw [hreply] at h
          dsimp only at h
          cases htext : response.content.dumps with
          | error message =>
            rw [htext] at h
            obtain ⟨rfl, rfl⟩ := Prod.mk.inj (Option.some.inj h)
            exact hadded
          | ok text =>
            rw [htext] at h
            obtain ⟨completed, hcomplete, hpair⟩ := Option.map_eq_some_iff.mp h
            obtain ⟨rfl, rfl⟩ := Prod.mk.inj hpair
            exact complete_added hmemory hcomplete hadded

/-! ## Streams -/

/-- The types of the events up to a delta. -/
theorem opening_types {p : PromptResponse} {chunks : List ChatChunk} {event : RAGStreamEvent}
    (h : event ∈ RAGEngine.openingEvents question p ++
      RAGEngine.deltaEvents (question.conversationId.getD []) chunks) :
    event.type ≠ .citations := by
  obtain hopening | hdelta := List.mem_append.mp h
  · obtain rfl | hopening := List.mem_cons.mp hopening
    · exact RAGStreamType.noConfusion
    · obtain rfl := List.mem_singleton.mp hopening
      exact RAGStreamType.noConfusion
  · obtain ⟨chunk, -, rfl⟩ := List.mem_map.mp hdelta
    exact RAGStreamType.noConfusion

/-- The deltas of a stream are what the provider yields. -/
theorem deltas_content (conversationId : Text) (chunks : List ChatChunk) :
    ((RAGEngine.deltaEvents conversationId chunks).filter (·.type = .delta)).flatMap (·.content) =
      (chunks.map (·.delta)).flatten := by
  induction chunks with
  | nil => rfl
  | cons chunk chunks ih =>
    rw [List.map_cons, List.flatten_cons, ← ih, RAGEngine.deltaEvents, RAGEngine.deltaEvents]
    by_cases hempty : chunk.delta = []
    · rw [List.filter_cons_of_neg (by simp [hempty]), hempty, List.nil_append]
    · rw [List.filter_cons_of_pos (by simp [hempty]), List.map_cons,
        List.filter_cons_of_pos (by rfl), List.flatMap_cons]

/-- A stream that has a prompt and stops before its citations has failed. -/
theorem streamOutcome_failed {events : List RAGStreamEvent} {event : RAGStreamEvent}
    (hmem : event ∈ events) (hevent : event.type = .retrieval)
    (h : ∀ event ∈ events, event.type ≠ .citations) : streamOutcome events = .failed := by
  rw [streamOutcome, if_pos, if_neg]
  · intro hany
    obtain ⟨other, hother, htype⟩ := List.any_eq_true.mp hany
    exact h other hother (of_decide_eq_true htype)
  · exact List.any_eq_true.mpr ⟨event, hmem, decide_eq_true hevent⟩

theorem streamOutcome_completed {events : List RAGStreamEvent} {event event' : RAGStreamEvent}
    (hmem : event ∈ events) (hevent : event.type = .retrieval) (hmem' : event' ∈ events)
    (hevent' : event'.type = .citations) :
    streamOutcome events = .completed ((events.filter (·.type = .delta)).flatMap (·.content)) := by
  rw [streamOutcome, if_pos, if_pos]
  · exact List.any_eq_true.mpr ⟨event', hmem', decide_eq_true hevent'⟩
  · exact List.any_eq_true.mpr ⟨event, hmem, decide_eq_true hevent⟩

/-- Events that all have one session. -/
theorem at_const {events : List RAGStreamEvent} {ends : Option (Except AnswerError Unit × Session)}
    (hends : ∀ x ∈ ends, x.2 = s) {i : Nat}
    (h : RAGEngine.Streamed.at ⟨events.map fun event => (event, s), ends⟩ i = some s') :
    s' = s := by
  rw [RAGEngine.Streamed.at, List.getElem?_map] at h
  cases hevent : events[i]? with
  | some event =>
    rw [hevent] at h
    exact (Option.some.inj h).symm
  | none =>
    rw [hevent] at h
    obtain ⟨x, hx, rfl⟩ := Option.map_eq_some_iff.mp h
    exact hends x hx

/-- A consumer that sees a prompt and no citations sees a turn that failed. -/
theorem streamOutcome_take {first : RAGStreamEvent} (hfirst : first.type = .session)
    {p : PromptResponse} {chunks : List ChatChunk} {more : List RAGStreamEvent}
    (hmore : ∀ event ∈ more, event.type ≠ .citations) (i : Nat) :
    streamOutcome (first :: (RAGEngine.openingEvents question p ++
      RAGEngine.deltaEvents (question.conversationId.getD []) chunks ++ more).take (i + 1)) =
      .failed := by
  refine streamOutcome_failed (List.mem_cons_of_mem _ List.mem_cons_self) rfl ?_
  intro event hevent
  obtain rfl | hevent := List.mem_cons.mp hevent
  · rw [hfirst]
    exact RAGStreamType.noConfusion
  · obtain hopening | hlater := List.mem_append.mp (List.mem_of_mem_take hevent)
    · exact opening_types hopening
    · exact hmore event hlater

/-- One that sees the citations has seen all deltas. -/
theorem streamOutcome_closing {first : RAGStreamEvent} (hfirst : first.type = .session)
    {p : PromptResponse} {chunks : List ChatChunk} {model : Text} (i : Nat) :
    streamOutcome (first :: (RAGEngine.openingEvents question p ++
        RAGEngine.deltaEvents (question.conversationId.getD []) chunks ++
        (RAGEngine.closingEvents question p (chunks.map (·.delta)).flatten model).take (i + 1))) =
      .completed (chunks.map (·.delta)).flatten := by
  generalize hevents : first :: (RAGEngine.openingEvents question p ++
    RAGEngine.deltaEvents (question.conversationId.getD []) chunks ++
    (RAGEngine.closingEvents question p (chunks.map (·.delta)).flatten model).take (i + 1)) =
      events
  obtain ⟨event, hevent, htype⟩ : ∃ event ∈ events, event.type = .retrieval := by
    rw [← hevents]
    exact ⟨_, List.mem_cons_of_mem _ List.mem_cons_self, rfl⟩
  obtain ⟨event', hevent', htype'⟩ : ∃ event ∈ events, event.type = .citations := by
    rw [← hevents]
    exact ⟨_, List.mem_cons_of_mem _ (List.mem_append_right _ List.mem_cons_self), rfl⟩
  rw [streamOutcome_completed hevent htype hevent' htype', ← hevents,
    List.filter_cons_of_neg (by simp [hfirst]), List.filter_append, List.filter_append,
    List.flatMap_append, List.flatMap_append, deltas_content]
  have hclosing : ((RAGEngine.closingEvents question p (chunks.map (·.delta)).flatten
      model).take (i + 1)).filter (·.type = .delta) = [] := by
    cases i with
    | zero => rfl
    | succ i =>
      show List.filter _ (_ :: _ :: List.take i []) = []
      rw [List.take_nil]
      rfl
  rw [hclosing, List.flatMap_nil, List.append_nil]
  rfl

/-- What the part of a stream with a prompt adds, wherever its consumer stops. -/
theorem generate_added (hmemory : engine.retrieval.memory = some memory)
    {stream : ChatRequest → ChatStream} {p : PromptResponse} {first : RAGStreamEvent}
    (hfirst : first.type = .session) {before : Session}
    (hbefore : Runs.run (remember memory) (added question .failed) before.conversations =
      some s.conversations) {i : Nat}
    (h : (engine.generate stream question p s).at i = some s') :
    Runs.run (remember memory)
        (added question (streamOutcome
          (first :: ((engine.generate stream question p s).events.take (i + 1)).map Prod.fst)))
        before.conversations =
      some s'.conversations := by
  have hsessions : ∀ (events : List RAGStreamEvent) (s : Session),
      (events.map fun event => (event, s)).map Prod.fst = events := by
    intro events s
    rw [List.map_map]
    exact List.map_id _
  rw [List.map_take]
  rw [RAGEngine.generate] at h ⊢
  dsimp only at h ⊢
  generalize (stream (chatRequest p question.model)).chunks = chunks at h ⊢
  cases hfailure : (stream (chatRequest p question.model)).failure with
  | some message =>
    rw [hfailure] at h
    dsimp only at h ⊢
    have hone : (RAGEngine.openingEvents question p ++
          RAGEngine.deltaEvents (question.conversationId.getD []) chunks).map
            (fun event => (event, s)) ++ [(RAGEngine.errorEvent question message, s)] =
        (RAGEngine.openingEvents question p ++
          RAGEngine.deltaEvents (question.conversationId.getD []) chunks ++
            [RAGEngine.errorEvent question message]).map fun event => (event, s) := by
      simp only [List.map_append, List.map_cons, List.map_nil]
    rw [hone] at h ⊢
    have hends : ∀ x ∈ some ((Except.ok () : Except AnswerError Unit), s), x.2 = s := by
      intro x hx
      rw [← Option.some.inj hx]
    rw [hsessions, streamOutcome_take hfirst, at_const hends h]
    · exact hbefore
    · intro event hevent
      obtain rfl := List.mem_singleton.mp hevent
      exact RAGStreamType.noConfusion
  | none =>
    rw [hfailure] at h
    dsimp only at h ⊢
    cases hcomplete : engine.complete question (chunks.map (·.delta)).flatten s with
    | none =>
      rw [hcomplete] at h
      dsimp only at h ⊢
      have hends : ∀ x ∈ (none : Option (Except AnswerError Unit × Session)), x.2 = s := by
        intro x hx
        cases hx
      rw [at_const hends h, hsessions]
      have hfailed := @streamOutcome_take question first hfirst p chunks []
        (fun _ hevent => absurd hevent List.not_mem_nil) i
      rw [List.append_nil] at hfailed
      rw [hfailed]
      exact hbefore
    | some completed =>
      rw [hcomplete] at h
      dsimp only at h ⊢
      rw [List.map_append, hsessions, hsessions]
      have hfailed := @streamOutcome_take question first hfirst p chunks []
        (fun _ hevent => absurd hevent List.not_mem_nil) i
      have hclosed := fun model i => @streamOutcome_closing question first hfirst p chunks model i
      rw [List.append_nil] at hfailed
      generalize RAGEngine.openingEvents question p ++
        RAGEngine.deltaEvents (question.conversationId.getD []) chunks = started at *
      by_cases hi : i < started.length
      · rw [RAGEngine.Streamed.at, List.getElem?_append_left (by rwa [List.length_map]),
          List.getElem?_map, List.getElem?_eq_getElem hi] at h
        rw [List.take_append_of_le_length hi, hfailed, ← Option.some.inj h]
        exact hbefore
      · have hsplit : i + 1 - started.length = (i - started.length) + 1 := by omega
        rw [List.take_append, List.take_of_length_le (by omega), hsplit, hclosed]
        have hends : ∀ x ∈ some ((Except.ok () : Except AnswerError Unit), completed),
            x.2 = completed := by
          intro x hx
          rw [← Option.some.inj hx]
        rw [RAGEngine.Streamed.at, List.getElem?_append_right (by rw [List.length_map]; omega),
          List.length_map] at h
        change RAGEngine.Streamed.at ⟨(RAGEngine.closingEvents question p _ _).map
          fun event => (event, completed), some (.ok (), completed)⟩
            (i - started.length) = some s' at h
        rw [at_const hends h]
        exact complete_added hmemory hcomplete hbefore

/-- What a stream adds, wherever its consumer stops. -/
theorem streamed_added (hmemory : engine.retrieval.memory = some memory) {taken : Nat}
    (h : (engine.streamed question now s).after s taken = some s') :
    Runs.run (remember memory)
        (added question (streamOutcome
          (((engine.streamed question now s).events.take taken).map Prod.fst)))
        s.conversations =
      some s'.conversations := by
  cases taken with
  | zero =>
    obtain rfl := Option.some.inj h
    exact added_unprompted _
  | succ i =>
    rw [RAGEngine.Streamed.after] at h
    rw [RAGEngine.streamed] at h ⊢
    cases hstream : engine.stream with
    | none =>
      rw [hstream] at h
      obtain rfl := Option.some.inj h
      exact added_unprompted _
    | some stream =>
      rw [hstream] at h
      dsimp only at h ⊢
      cases hprompt : engine.retrieval.answer question.call now s with
      | none =>
        rw [hprompt] at h
        cases i with
        | zero =>
          obtain rfl := Option.some.inj h
          exact added_unprompted _
        | succ i => cases h
      | some prompted =>
        obtain ⟨prompt, between⟩ := prompted
        rw [hprompt] at h
        obtain ⟨e, rfl, hsame⟩ | ⟨p, rfl, hadded⟩ := prompt_added hmemory hprompt
        · have hconversations : s'.conversations = s.conversations := by
            cases i with
            | zero => exact congrArg Session.conversations (Option.some.inj h).symm
            | succ i =>
              rw [← hsame]
              exact congrArg Session.conversations (Option.some.inj h).symm
          rw [hconversations]
          dsimp only
          rw [List.take_of_length_le (by simp)]
          exact added_unprompted _
        · dsimp only at h ⊢
          cases i with
          | zero =>
            obtain rfl := Option.some.inj h
            exact added_unprompted _
          | succ i =>
            rw [List.take_succ_cons, List.map_cons]
            exact generate_added hmemory rfl hadded h

/-! ## Sessions -/

/-- The sessions that a turn can leave: the one it found, the one with its prompt, and the one
with its answer. -/
def Leaves (engine : RAGEngine F) (question : Question) (now : Int) (s s' : Session) : Prop :=
  s' = s ∨ ∃ result prompted,
    engine.retrieval.answer question.call now s = some (result, prompted) ∧
      (s' = prompted ∨ ∃ text, engine.complete question text prompted = some s')

theorem answer_leaves {result : Except AnswerError RAGResponse}
    (h : engine.answer question now s = some (result, s')) : Leaves engine question now s s' := by
  rw [RAGEngine.answer] at h
  split at h
  · exact Or.inl (Prod.mk.inj (Option.some.inj h)).2.symm
  · split at h
    · cases h
    · next hprompt =>
        exact Or.inr ⟨_, _, hprompt, Or.inl (Prod.mk.inj (Option.some.inj h)).2.symm⟩
    · next hprompt =>
        refine Or.inr ⟨_, _, hprompt, ?_⟩
        split at h
        · exact Or.inl (Prod.mk.inj (Option.some.inj h)).2.symm
        · split at h
          · exact Or.inl (Prod.mk.inj (Option.some.inj h)).2.symm
          · obtain ⟨completed, hcomplete, hpair⟩ := Option.map_eq_some_iff.mp h
            obtain ⟨-, rfl⟩ := Prod.mk.inj hpair
            exact Or.inr ⟨_, hcomplete⟩

/-- A consumer leaves a session of the events or of the end. -/
theorem mem_of_at {r : RAGEngine.Streamed} {i : Nat} (h : r.at i = some s') :
    (∃ event, (event, s') ∈ r.events) ∨ ∃ result, r.ends = some (result, s') := by
  rw [RAGEngine.Streamed.at] at h
  cases hevent : r.events[i]? with
  | some event =>
    rw [hevent] at h
    obtain rfl := Option.some.inj h
    exact Or.inl ⟨event.1, List.mem_of_getElem? hevent⟩
  | none =>
    rw [hevent] at h
    obtain ⟨⟨result, session⟩, hends, rfl⟩ := Option.map_eq_some_iff.mp h
    exact Or.inr ⟨result, hends⟩

theorem session_of_mem {events : List RAGStreamEvent} {event : RAGStreamEvent}
    (h : (event, s') ∈ events.map fun event => (event, s)) : s' = s := by
  obtain ⟨other, -, hpair⟩ := List.mem_map.mp h
  exact (Prod.mk.inj hpair).2.symm

theorem generate_leaves {stream : ChatRequest → ChatStream} {p : PromptResponse} {i : Nat}
    (h : (engine.generate stream question p s).at i = some s') :
    s' = s ∨ ∃ text, engine.complete question text s = some s' := by
  have hmem := mem_of_at h
  rw [RAGEngine.generate] at hmem
  dsimp only at hmem
  split at hmem
  · obtain ⟨event, hevent⟩ | ⟨result, hends⟩ := hmem
    · obtain hstarted | herror := List.mem_append.mp hevent
      · exact Or.inl (session_of_mem hstarted)
      · exact Or.inl (Prod.mk.inj (List.mem_singleton.mp herror)).2
    · exact Or.inl (Prod.mk.inj (Option.some.inj hends)).2.symm
  · split at hmem
    · obtain ⟨event, hevent⟩ | ⟨result, hends⟩ := hmem
      · exact Or.inl (session_of_mem hevent)
      · cases hends
    · next hcomplete =>
        obtain ⟨event, hevent⟩ | ⟨result, hends⟩ := hmem
        · obtain hstarted | hclosing := List.mem_append.mp hevent
          · exact Or.inl (session_of_mem hstarted)
          · exact Or.inr ⟨_, session_of_mem hclosing ▸ hcomplete⟩
        · exact Or.inr ⟨_, (Prod.mk.inj (Option.some.inj hends)).2 ▸ hcomplete⟩

theorem streamed_leaves {taken : Nat}
    (h : (engine.streamed question now s).after s taken = some s') :
    Leaves engine question now s s' := by
  cases taken with
  | zero => exact Or.inl (Option.some.inj h).symm
  | succ i =>
    rw [RAGEngine.Streamed.after, RAGEngine.streamed] at h
    split at h
    · exact Or.inl (Option.some.inj h).symm
    · dsimp only at h
      split at h
      · cases i with
        | zero => exact Or.inl (Option.some.inj h).symm
        | succ i => cases h
      · next hprompt =>
          cases i with
          | zero => exact Or.inl (Option.some.inj h).symm
          | succ i => exact Or.inr ⟨_, _, hprompt, Or.inl (Option.some.inj h).symm⟩
      · next hprompt =>
          cases i with
          | zero => exact Or.inl (Option.some.inj h).symm
          | succ i => exact Or.inr ⟨_, _, hprompt, generate_leaves h⟩

theorem run_leaves {turn : Turn F} {outcome : Outcome} (h : turn.run s = some (outcome, s')) :
    Leaves turn.engine turn.question turn.now s s' := by
  cases turn with
  | answer engine question now =>
    obtain ⟨⟨result, session⟩, hanswer, hpair⟩ := Option.map_eq_some_iff.mp h
    obtain ⟨-, rfl⟩ := Prod.mk.inj hpair
    exact answer_leaves hanswer
  | stream engine question now taken =>
    obtain ⟨session, hstream, hpair⟩ := Option.map_eq_some_iff.mp h
    obtain ⟨-, rfl⟩ := Prod.mk.inj hpair
    exact streamed_leaves hstream

/-- **A turn adds the user's message if it has a prompt, and the answer if it is completed.** -/
theorem turn_recorded {turn : Turn F} (hmemory : turn.engine.retrieval.memory = some memory)
    {outcome : Outcome} (h : turn.run s = some (outcome, s')) :
    Runs.run (remember memory) (added turn.question outcome) s.conversations =
      some s'.conversations := by
  cases turn with
  | answer engine question now =>
    obtain ⟨⟨result, session⟩, hanswer, hpair⟩ := Option.map_eq_some_iff.mp h
    obtain ⟨rfl, rfl⟩ := Prod.mk.inj hpair
    exact answer_added hmemory hanswer
  | stream engine question now taken =>
    obtain ⟨session, hstream, hpair⟩ := Option.map_eq_some_iff.mp h
    obtain ⟨rfl, rfl⟩ := Prod.mk.inj hpair
    exact streamed_added hmemory hstream

end Turn

/-! ## Runs -/

/-- The session, and the turns that were taken with their outcomes. -/
structure Taken (F : Type) where
  session : Session := {}
  turns : List (Turn F × Outcome) := []

def step (turn : Turn F) (s : Taken F) : Option (Taken F) :=
  (turn.run s.session).map fun (outcome, session) =>
    { session := session, turns := s.turns ++ [(turn, outcome)] }

/-- What the turns added so far. -/
def Taken.added (s : Taken F) : List RagMemory.Turn :=
  s.turns.flatMap fun turn => RagTurns.added turn.1.question turn.2

/-- The memory has what the turns added, and nothing else. -/
def Recorded (memory : RollingConversationMemory) (s : Taken F) : Prop :=
  Runs.run (remember memory) s.added [] = some s.session.conversations

theorem step_recorded {memory : RollingConversationMemory} {turn : Turn F} {s s' : Taken F}
    (hs : Recorded memory s) (hmemory : turn.engine.retrieval.memory = some memory)
    (h : step turn s = some s') : Recorded memory s' := by
  obtain ⟨⟨outcome, session⟩, hrun, rfl⟩ := Option.map_eq_some_iff.mp h
  have hlater := Runs.run_append hs (added turn.question outcome)
  rw [Recorded, Taken.added, List.flatMap_append, List.flatMap_singleton]
  exact hlater.trans (turn_recorded hmemory hrun)

/-- **After any run of turns, completed, failed or abandoned, the memory is what the messages of
these turns make of it: for a failed turn that is the user's message.** -/
theorem turns_recorded {memory : RollingConversationMemory} {turns : List (Turn F)} {s : Taken F}
    (hmemory : ∀ turn ∈ turns, turn.engine.retrieval.memory = some memory)
    (hrun : Runs.run step turns {} = some s) : Recorded memory s :=
  Runs.run_invariant (C := fun _ turn => turn.engine.retrieval.memory = some memory)
    (fun _ _ _ hs hturn hstep => step_recorded hs hturn hstep)
    (rfl : Recorded memory ({} : Taken F)) (Runs.meets_of_forall hmemory _) hrun

/-! ## A provider that fails -/

def defaultMemory : RollingConversationMemory :=
  .init 20 8 30 (fun text => RagPrompt.estimate text) (fun _ => ([], [])) id

/-- An engine over an empty store, with a provider. -/
def chatEngine (chat : ChatRequest → Except Text ChatResponse) : RAGEngine Unit where
  retrieval :=
    { retriever := { collections := [{}], defaultTopK := 8, search := fun _ _ _ _ => .ok [] }
      memory := some defaultMemory
      sha256 := id
      snippet := id
      repr := fun _ => [] }
  chat := some chat

/-- A question to a provider that does not answer. -/
def unanswered : Turn Unit :=
  .answer (chatEngine fun _ => .error "timeout".toList)
    { query := "why?".toList, conversationId := some "c1".toList } 0

/-- The same question to one that does. -/
def answered : Turn Unit :=
  .answer (chatEngine fun _ => .ok { model := "m".toList, content := .text "so".toList })
    { query := "why?".toList, conversationId := some "c1".toList } 1

/-- The question that was not answered is in the history of the next prompt. -/
theorem failed_turn_remembered :
    ¬ ∀ (turn : Turn Unit) (s s' : Session) (c : Text), turn.run s = some (.failed, s') →
      turn.engine.retrieval.historyFor (some c) s'.conversations =
        turn.engine.retrieval.historyFor (some c) s.conversations := by
  intro h
  have hsame := h unanswered {} _ "c1".toList rfl
  exact absurd hsame (by decide)

/-- The question is asked again, and answered. -/
theorem asked_again_recorded :
    ∃ s, Runs.run step [unanswered, answered] {} = some s ∧ Recorded defaultMemory s := by
  have hmemory : ∀ turn ∈ [unanswered, answered],
      turn.engine.retrieval.memory = some defaultMemory := by
    intro turn hturn
    obtain rfl | hturn := List.mem_cons.mp hturn
    · rfl
    · obtain rfl := List.mem_singleton.mp hturn
      rfl
  exact ⟨_, rfl, turns_recorded hmemory rfl⟩

end OpenWrtCopilot.Ports.RagTurns
