import OpenWrtCopilot.Ports.ChatMessages
import OpenWrtCopilot.Verified.Runs

/-!
# Chat requests and the history they recall

Ports what the chat endpoints do with stored turns: `_history_turns`, `compose`, the
seeding of the RAG memory and `GET /chat/history`.  A chat request reads the history and
stores the user's turn before its first `await`, so this is one step; the answer is
stored in a later one, and requests interleave in between.

## Main results

* `add_messages_suffix` — the rolling memory holds an end of what was added to it.
* `seedHistory_suffix` — a seeded memory holds an end of the turns it was seeded from.
* `serves_iff` — all requests of a run are served with the most recent turns exactly if
  none of them meets a conversation of more than fifty.
* `long_conversation_forgets` — the turn before the current message is missing.
-/

namespace OpenWrtCopilot.Ports.ChatHistory

open Verified
open Verified.PyText
open Ports.ChatMessages

/-- A role and a content. -/
abbrev Turn := Text × Text

def user : Text := "user".toList

def assistant : Text := "assistant".toList

/-! ## The RAG memory -/

/-- `ConversationState`, as far as the history is read from it. -/
structure ConversationState where
  messages : List Turn
  pendingTurns : Nat
  deriving DecidableEq, Repr

def ConversationState.empty : ConversationState := { messages := [], pendingTurns := 0 }

/-- `build_memory` leaves `compress_threshold` at its default. -/
def compressThreshold : Nat := 30

/-- `_trim`: the oldest messages go while the window is exceeded. -/
def trim (windowSize : Nat) : List Turn → List Turn
  | [] => []
  | m :: rest => if windowSize < rest.length + 1 then trim windowSize rest else m :: rest

/-- `_compress_if_needed`: the oldest messages become a snapshot. -/
def compressIfNeeded (state : ConversationState) : ConversationState :=
  let chunkSize := compressThreshold / 2
  if compressThreshold ≤ state.pendingTurns ∧ chunkSize ≤ state.messages.length then
    compressIfNeeded
      { messages := state.messages.drop chunkSize
        pendingTurns := state.pendingTurns - chunkSize }
  else state
termination_by state.pendingTurns
decreasing_by
  simp only [compressThreshold] at *
  omega

/-- `RollingConversationMemory.add`. -/
def add (windowSize : Nat) (state : ConversationState) (turn : Turn) : ConversationState :=
  if turn.2 = [] then state
  else compressIfNeeded
    { messages := trim (max 1 windowSize) (state.messages ++ [turn])
      pendingTurns := state.pendingTurns + 1 }

/-- What `seed_history` replays. -/
def replayed (turn : Turn) : Bool :=
  (turn.1 = user ∨ turn.1 = assistant) ∧ turn.2 ≠ []

/-- `seed_history`, for the memory of one conversation: `none` where it has no state. -/
def seedHistory (windowSize : Nat) (turns : List Turn) :
    Option ConversationState → Option ConversationState
  | some state => some state
  | none =>
      (turns.filter replayed).foldl
        (fun state turn => some (add windowSize (state.getD .empty) turn)) none

theorem trim_suffix (windowSize : Nat) (messages : List Turn) :
    trim windowSize messages <:+ messages := by
  induction messages with
  | nil => exact List.suffix_rfl
  | cons m rest ih =>
    rw [trim]
    split
    · exact ih.trans (List.suffix_cons m rest)
    · exact List.suffix_rfl

theorem compressIfNeeded_suffix (state : ConversationState) :
    (compressIfNeeded state).messages <:+ state.messages := by
  fun_induction compressIfNeeded state with
  | case1 state chunkSize _ ih => exact ih.trans (List.drop_suffix chunkSize _)
  | case2 => exact List.suffix_rfl

theorem add_messages_suffix (windowSize : Nat) (state : ConversationState) {turn : Turn}
    (hcontent : turn.2 ≠ []) :
    (add windowSize state turn).messages <:+ state.messages ++ [turn] := by
  rw [add, if_neg hcontent]
  exact (compressIfNeeded_suffix _).trans (trim_suffix _ _)

/-- A memory that is seeded holds an end of the turns it is seeded from. -/
theorem seedHistory_suffix {windowSize : Nat} {turns : List Turn} {state : ConversationState}
    (h : seedHistory windowSize turns none = some state) :
    state.messages <:+ turns.filter replayed := by
  -- the memory at any time holds an end of what was added so far
  have hreplay : ∀ (added rest : List Turn) (memory : Option ConversationState),
      (∀ turn ∈ rest, turn.2 ≠ []) → (memory.getD .empty).messages <:+ added →
      rest.foldl (fun state turn => some (add windowSize (state.getD .empty) turn)) memory =
        some state →
      state.messages <:+ added ++ rest := by
    intro added rest
    induction rest generalizing added with
    | nil =>
      intro memory _ hmemory hfold
      rw [List.foldl_nil] at hfold
      rw [hfold] at hmemory
      rwa [List.append_nil]
    | cons turn rest ih =>
      intro memory hcontents hmemory hfold
      rw [List.append_cons]
      refine ih (added ++ [turn]) _ (fun t ht => hcontents t (List.mem_cons_of_mem _ ht)) ?_
        hfold
      refine (add_messages_suffix windowSize _ (hcontents turn List.mem_cons_self)).trans ?_
      exact List.suffix_append_self_iff.mpr hmemory
  refine hreplay [] (turns.filter replayed) none ?_ List.suffix_rfl h
  intro turn hturn
  have hreplayed := (List.mem_filter.mp hturn).2
  simp only [replayed, decide_eq_true_eq] at hreplayed
  exact hreplayed.2

/-! ## The request to the provider -/

/-- `ChatMessage`. -/
structure ChatMessage where
  role : Text
  content : Text
  deriving DecidableEq, Repr

/-- `ChatRequest`; a temperature is an opaque number. -/
structure ChatRequest (τ : Type) where
  model : Text
  messages : List ChatMessage
  temperature : Option τ

/-- The system prompt with the router context in it. -/
def systemWith (system : Text) : Option Text → Text
  | some (c :: cs) =>
      system ++ "\n\n### Router Context\n".toList ++ (c :: cs) ++
        ("\n### End Router Context\n\n" ++
          "If Router Context exists, prefer factual values from it over " ++
          "model assumptions.\n" ++
          "Never invent router values.\n" ++
          "If Router Context is empty, answer normally.").toList
  | _ => system

/-- `ChatService.compose`, from the system prompt of the router's state. -/
def compose {τ : Type} (system message : Text) (history : List Turn) (model : Option Text)
    (temperature : Option τ) (routerContext : Option Text) : ChatRequest τ where
  model := model.getD []
  messages :=
    { role := "system".toList, content := systemWith system routerContext } ::
      (history.filter fun turn => turn.1 = user ∨ turn.1 = assistant).map
        (fun turn => { role := turn.1, content := turn.2 }) ++
      [{ role := user, content := message }]
  temperature := temperature

/-! ## Requests -/

/-- `_history_turns`. -/
def historyTurns (store : ChatStore) (sessionId : Text) (owner : Option Text) : List Turn :=
  (store.getMessages sessionId owner).map fun r => (r.role, r.content)

/-- The database, and the RAG service of the process if there is one. -/
structure ChatState where
  store : ChatStore
  /-- `memory_window` of the RAG configuration; `none` without a RAG service or with its
  memory switched off. -/
  window : Option Nat
  /-- The memories' states, by owner and session. -/
  memories : Text → Text → Option ConversationState

/-- A process that has just started, over an empty database. -/
def start (window : Option Nat) : ChatState where
  store := .empty
  window := window
  memories := fun _ _ => none

def ChatState.setMemory (s : ChatState) (owner sessionId : Text)
    (state : Option ConversationState) : ChatState :=
  { s with
    memories := fun o c => if o = owner ∧ c = sessionId then state else s.memories o c }

inductive ChatEvent where
  /-- `POST /chat` and `POST /chat/stream` up to the first `await`. -/
  | chat (owner sessionId message : Text) (now : Int)
  /-- The RAG engine adds a question or an answer to its memory. -/
  | remember (owner sessionId : Text) (turn : Turn)
  /-- The answer is stored. -/
  | reply (owner sessionId content : Text) (provider model : Option Text) (now : Int)
  /-- `GET /chat/history`. -/
  | history (owner sessionId : Text)
  /-- The process starts anew, or its RAG service is loaded anew. -/
  | restart (window : Option Nat)

/-- Stores a turn of the user and seeds the memory from the turns before it. -/
def ChatState.chat (s : ChatState) (owner sessionId message : Text) (now : Int) : ChatState :=
  let history := historyTurns s.store sessionId (some owner)
  let stored := { s with
    store := s.store.addMessage
      { sessionId := sessionId, owner := some owner, role := user, content := message } now }
  match s.window with
  | none => stored
  | some windowSize =>
      stored.setMemory owner sessionId
        (seedHistory windowSize history (s.memories owner sessionId))

def step : ChatEvent → ChatState → Option ChatState
  | .chat owner sessionId message now, s => some (s.chat owner sessionId message now)
  | .remember owner sessionId turn, s =>
      match s.window with
      | none => some s
      | some windowSize =>
          some (s.setMemory owner sessionId
            (some (add windowSize ((s.memories owner sessionId).getD .empty) turn)))
  | .reply owner sessionId content provider model now, s =>
      some { s with
        store := s.store.addMessage
          { sessionId := sessionId, owner := some owner, role := assistant,
            content := content, provider := provider, model := model } now }
  | .history _ _, s => some s
  | .restart window, s => some { s with window := window, memories := fun _ _ => none }

/-! ## What requests are served with -/

/-- A chat request has the most recent turns: they are what the provider is given between
the system prompt and the message, and a memory that is seeded holds an end of them. -/
structure Recalls (s : ChatState) (owner sessionId : Text) : Prop where
  recent : MostRecent s.store sessionId (some owner)
    (s.store.getMessages sessionId (some owner))
  composed : ∀ (system message : Text) (model context : Option Text) (temperature : Option Nat),
    (compose system message (historyTurns s.store sessionId (some owner)) model temperature
        context).messages =
      { role := "system".toList, content := systemWith system context } ::
        (s.store.getMessages sessionId (some owner)).map
          (fun r => { role := r.role, content := r.content }) ++
        [{ role := user, content := message }]
  seeded : ∀ (windowSize : Nat) (state : ConversationState),
    seedHistory windowSize (historyTurns s.store sessionId (some owner)) none = some state →
      state.messages <:+ ((s.store.getMessages sessionId (some owner)).map
        fun r => (r.role, r.content)).filter replayed

/-- The request is served with the most recent turns of its conversation. -/
def Serves (s : ChatState) : ChatEvent → Prop
  | .chat owner sessionId _ _ => Recalls s owner sessionId
  | .history owner sessionId =>
      MostRecent s.store sessionId (some owner) (s.store.getMessages sessionId (some owner))
  | _ => True

/-- The conversation the request reads has no more than fifty turns. -/
def Short (s : ChatState) : ChatEvent → Prop
  | .chat owner sessionId _ _ | .history owner sessionId =>
      (s.store.turnsOf sessionId (some owner)).length ≤ defaultLimit
  | _ => True

/-- Only turns of the user and of the assistant are stored. -/
def Roles (s : ChatState) : Prop :=
  ∀ r ∈ s.store.records, r.role = user ∨ r.role = assistant

theorem roles_addMessage {s : ChatState} (h : Roles s) {turn : NewTurn}
    (hrole : turn.role = user ∨ turn.role = assistant) (now : Int) (r : ChatMessageRecord)
    (hr : r ∈ (s.store.addMessage turn now).records) : r.role = user ∨ r.role = assistant := by
  rw [ChatStore.records_addMessage, List.mem_append, List.mem_singleton] at hr
  obtain hold | rfl := hr
  · exact h r hold
  · exact hrole

theorem roles_step (s : ChatState) (event : ChatEvent) (s' : ChatState) (h : Roles s)
    (hstep : step event s = some s') : Roles s' := by
  cases event with
  | chat owner sessionId message now =>
    obtain rfl := Option.some.inj hstep
    unfold ChatState.chat
    cases s.window with
    | none => exact roles_addMessage h (Or.inl rfl) now
    | some windowSize => exact roles_addMessage h (Or.inl rfl) now
  | remember owner sessionId turn =>
    simp only [step] at hstep
    split at hstep
    · obtain rfl := Option.some.inj hstep
      exact h
    · obtain rfl := Option.some.inj hstep
      exact h
  | reply owner sessionId content provider model now =>
    obtain rfl := Option.some.inj hstep
    exact roles_addMessage h (Or.inr rfl) now
  | history owner sessionId =>
    obtain rfl := Option.some.inj hstep
    exact h
  | restart window =>
    obtain rfl := Option.some.inj hstep
    exact h

/-- With such turns the provider is given all that is read. -/
theorem compose_history {s : ChatState} (h : Roles s) (owner sessionId : Text) :
    (historyTurns s.store sessionId (some owner)).filter
        (fun turn => turn.1 = user ∨ turn.1 = assistant) =
      historyTurns s.store sessionId (some owner) := by
  refine List.filter_eq_self.mpr fun turn hturn => ?_
  obtain ⟨r, hr, rfl⟩ := List.mem_map.mp hturn
  exact decide_eq_true (h r (mem_getMessages hr).1)

theorem recalls_iff {s : ChatState} (h : Roles s) (owner sessionId : Text) :
    Recalls s owner sessionId ↔
      (s.store.turnsOf sessionId (some owner)).length ≤ defaultLimit := by
  constructor
  · intro hrecalls
    exact (getMessages_mostRecent_iff (by decide)).mp hrecalls.recent
  · intro hshort
    refine ⟨(getMessages_mostRecent_iff (by decide)).mpr hshort, ?_, ?_⟩
    · intro system message model context temperature
      simp only [compose, compose_history h]
      rw [historyTurns, List.map_map]
      rfl
    · intro windowSize state hstate
      exact seedHistory_suffix hstate

/-- **All requests of a run are served with the most recent turns of their conversations
exactly if none of them reads a conversation of more than fifty turns.** -/
theorem serves_iff (window : Option Nat) (events : List ChatEvent) :
    Runs.Meets step Serves events (start window) ↔ Runs.Meets step Short events (start window) := by
  refine Runs.meets_iff (I := Roles) (fun s event s' h _ => roles_step s event s' h) ?_ nofun
  intro s event h
  cases event with
  | chat owner sessionId message now => exact recalls_iff h owner sessionId
  | history owner sessionId => exact getMessages_mostRecent_iff (by decide)
  | remember | reply | restart => exact Iff.rfl

/-- Twenty-six questions with their answers. -/
def rounds : List ChatEvent :=
  (List.range 26).flatMap fun n =>
    [.chat "alice".toList "default".toList "And now?".toList (2 * n),
      .reply "alice".toList "default".toList "Online.".toList none none (2 * n + 1)]

/-- The next question is asked without the answer that was stored last. -/
theorem long_conversation_forgets :
    ¬ Runs.Meets step Serves
      (rounds ++ [.chat "alice".toList "default".toList "And then?".toList 60]) (start none) := by
  have hlong : (Runs.run step rounds (start none)).bind (fun s =>
      (s.store.latest "default".toList (some "alice".toList)).map fun _ =>
        decide (s.store.Timely ∧
          ¬ (s.store.turnsOf "default".toList (some "alice".toList)).length ≤ defaultLimit)) =
      some true := by decide
  obtain ⟨s, hrun, hlatest⟩ := Option.bind_eq_some_iff.mp hlong
  obtain ⟨r, hr, hfacts⟩ := Option.map_eq_some_iff.mp hlatest
  obtain ⟨htimely, hlength⟩ := of_decide_eq_true hfacts
  intro hmeets
  have hserved : Recalls s "alice".toList "default".toList := (hmeets.after hrun).1
  exact hlength ((latest_read_iff htimely hr).mp (hserved.recent.2 r hr))

end OpenWrtCopilot.Ports.ChatHistory
