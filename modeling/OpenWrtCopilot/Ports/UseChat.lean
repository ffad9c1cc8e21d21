import Mathlib.Data.List.Chain
import OpenWrtCopilot.Verified.JsText
import OpenWrtCopilot.Verified.PyDict
import OpenWrtCopilot.Verified.Runs

/-!
# The chat of the browser

Ports the state of `useChat` and the way `streamChatMessage` drives it: what the user does,
and what comes back from the server in any order.  A stream that was aborted can still
report that it was refused; a history that was fetched for one session can arrive while
another one is shown.

A turn and a stream carry here what the source does not keep: the session a turn belongs
to, the stream whose reply it is, whether a stream has been done or failed, and which turns
errors removed.

## Main results

* `Inv.step` — what every step under the condition keeps.
* `calm_of_right` — a step outside the condition does harm at once.
* `chat_right_iff` — when the state is right all along a run.
-/

namespace OpenWrtCopilot.Ports.UseChat

open Verified
open Verified.JsText
open Verified.PyDict (Dict get?)
open Verified.PyText
open Verified.Runs

/-! ## State -/

inductive ChatRole where
  | user
  | assistant
  | system
  deriving DecidableEq

structure ChatTurn where
  role : ChatRole
  content : Text
  createdAt : Option Text
  provider : Option Text
  model : Option Text
  streaming : Bool := false
  routerContext : Option Text := none
  deriving DecidableEq

/-- A turn that is shown, the session it belongs to, and the stream whose reply it is. -/
structure Shown where
  turn : ChatTurn
  session : Text
  reply : Option Nat
  deriving DecidableEq

def Shown.tag (m : Shown) : Text × Option Nat := (m.session, m.reply)

inductive ChatStatus where
  | idle
  | streaming
  | error
  deriving DecidableEq

/-- What `streamChatMessage` is called with. -/
structure ChatRequestOptions where
  sessionId : Text
  message : Text
  provider : Option Text
  model : Option Text
  deriving DecidableEq

/-- A call of `streamChatMessage` that has not returned. -/
structure Call where
  options : ChatRequestOptions
  /-- The response is there and is being read. -/
  begun : Bool := false
  aborted : Bool := false
  /-- A `done` or `error` event was handled. -/
  finished : Bool := false
  deriving DecidableEq

/-- What an error took away. -/
structure Removal where
  call : Nat
  finished : Bool
  turn : Shown
  deriving DecidableEq

structure ChatState where
  active : Option Text := none
  messages : List Shown := []
  status : ChatStatus := .idle
  error : Option Text := none
  abortRef : Option Nat := none
  /-- The session and the status the callbacks of the last rendering see. -/
  rendered : Option Text × ChatStatus := (none, .idle)
  calls : Dict Nat Call := []
  /-- The histories that are being fetched, for these sessions. -/
  fetches : Dict Nat Text := []
  next : Nat := 0
  removed : List Removal := []
  deriving DecidableEq

/-- The `done` event. -/
structure DoneEvent where
  reply : Text
  provider : Text
  model : Text
  routerContext : Option Text
  deriving DecidableEq

inductive Action where
  | render
  /-- `sendMessage`; `sentAt` and `repliedAt` are what the clock says, `fresh` is the session
  id that is made if one is needed. -/
  | sendMessage (content : Text) (provider model : Option Text) (sentAt repliedAt fresh : Text)
  | selectSession (sessionId : Text)
  | startNewSession
  | stopStreaming
  | historyLoaded (fetch : Nat) (turns : List ChatTurn)
  | historyFailed (fetch : Nat)
  | responseBegins (call : Nat)
  /-- `!res.ok || !res.body`. -/
  | refused (call : Nat) (detail : Text)
  | delta (call : Nat) (content : Text)
  | done (call : Nat) (event : DoneEvent)
  | errorEvent (call : Nat) (message : Text)
  /-- The response ends. -/
  | ended (call : Nat)
  /-- An exception other than `AbortError`, with its message if it is an `Error`. -/
  | failed (call : Nat) (message : Option Text)
  /-- `AbortError`. -/
  | rejected (call : Nat)

/-- The chat when the page is opened. -/
def ChatState.initial : ChatState := {}

/-! ## Steps -/

/-- `abortRef.current?.abort()`. -/
def ChatState.abortCurrent (s : ChatState) : ChatState :=
  { s with
    calls := PyDict.mapValues
      (fun id call => if s.abortRef = some id then { call with aborted := true } else call)
      s.calls }

/-- The call returns, with the `finally` of `sendMessage`. -/
def ChatState.close (call : Nat) (s : ChatState) : ChatState :=
  { s with
    calls := PyDict.erase call s.calls
    abortRef := if s.abortRef = some call then none else s.abortRef }

/-- A `done` or `error` event was handled. -/
def ChatState.finish (id : Nat) (call : Call) (s : ChatState) : ChatState :=
  { s with calls := PyDict.set id { call with finished := true } s.calls }

/-- An update of the last turn, if it is the assistant's. -/
def editLast (update : ChatTurn → ChatTurn) (messages : List Shown) : List Shown :=
  match messages.getLast? with
  | none => messages
  | some m =>
      if m.turn.role = .assistant then messages.dropLast ++ [{ m with turn := update m.turn }]
      else messages

/-- `setMessages((prev) => prev.slice(0, -1))` with the message, for an error of a call. -/
def ChatState.dropReply (id : Nat) (call : Call) (message : Text) (s : ChatState) : ChatState :=
  { s with
    messages := s.messages.dropLast
    error := some message
    status := .idle
    removed := s.removed ++ s.messages.getLast?.toList.map fun m =>
      { call := id, finished := call.finished, turn := m } }

/-- `sendMessage`, up to the call of `streamChatMessage`. -/
def ChatState.send (content : Text) (provider model : Option Text) (sentAt repliedAt : Text)
    (session : Text) (s : ChatState) : ChatState :=
  { s.abortCurrent with
    active := some session
    error := none
    messages := s.messages ++
      [{ turn := { role := .user, content := content, createdAt := some sentAt
                   provider := none, model := none }
         session := session, reply := none },
       { turn := { role := .assistant, content := [], createdAt := some repliedAt
                   provider := none, model := none, streaming := true }
         session := session, reply := some s.next }]
    status := .streaming
    abortRef := some s.next
    calls := PyDict.set s.next
      { options :=
          { sessionId := session, message := content, provider := provider, model := model } }
      s.abortCurrent.calls
    next := s.next + 1 }

/-- A call that is being read and was not aborted. -/
def Call.reads (call : Call) : Bool := call.begun && !call.aborted

/-- What happens next; `none` where it cannot happen. -/
def step (a : Action) (s : ChatState) : Option ChatState :=
  match a with
  | .render => some { s with rendered := (s.active, s.status) }
  | .sendMessage content provider model sentAt repliedAt fresh =>
      if trim content = [] ∨ s.rendered.2 = .streaming then some s
      else some (s.send (trim content) provider model sentAt repliedAt (s.rendered.1.getD fresh))
  | .selectSession sessionId =>
      some { s.abortCurrent with
        active := some sessionId, status := .idle, error := none
        fetches := PyDict.set s.next sessionId s.fetches, next := s.next + 1 }
  | .startNewSession =>
      some { s.abortCurrent with active := none, messages := [], status := .idle, error := none }
  | .stopStreaming => some s.abortCurrent
  | .historyLoaded fetch turns =>
      (get? fetch s.fetches).map fun sessionId =>
        { s with
          messages := turns.map fun turn => { turn := turn, session := sessionId, reply := none }
          fetches := PyDict.erase fetch s.fetches }
  | .historyFailed fetch =>
      (get? fetch s.fetches).map fun _ =>
        { s with
          error := some "Could not load chat history.".toList
          fetches := PyDict.erase fetch s.fetches }
  | .responseBegins id =>
      ((get? id s.calls).filter fun call => !call.begun && !call.aborted).map fun call =>
        { s with calls := PyDict.set id { call with begun := true } s.calls }
  | .refused id detail =>
      ((get? id s.calls).filter fun call => !call.begun).map fun call =>
        (s.dropReply id call detail).close id
  | .delta id content =>
      ((get? id s.calls).filter Call.reads).map fun _ =>
        { s with messages :=
            editLast (fun turn => { turn with content := turn.content ++ content }) s.messages }
  | .done id event =>
      ((get? id s.calls).filter Call.reads).map fun call =>
        ({ s with
            messages := editLast (fun turn => { turn with
              content := event.reply, provider := some event.provider
              model := some event.model, streaming := false
              routerContext := event.routerContext }) s.messages
            status := .idle } : ChatState).finish id call
  | .errorEvent id message =>
      ((get? id s.calls).filter Call.reads).map fun call =>
        (s.dropReply id call message).finish id call
  | .ended id => ((get? id s.calls).filter Call.reads).map fun _ => s.close id
  | .failed id message =>
      ((get? id s.calls).filter fun call => !call.aborted).map fun call =>
        (s.dropReply id call (message.getD "The AI stream ended unexpectedly.".toList)).close id
  | .rejected id =>
      ((get? id s.calls).filter fun call => call.aborted).map fun _ =>
        ({ s with
            messages := editLast (fun turn => { turn with streaming := false }) s.messages
            status := .idle } : ChatState).close id

/-! ## What should hold -/

/-- The session of a stream that is open. -/
def ChatState.sessionOf (s : ChatState) (id : Nat) : Option Text :=
  (get? id s.calls).map fun call => call.options.sessionId

/-- Only turns of the active session are shown, the status is that of an open stream, and
errors took away nothing but the reply they cut short. -/
structure Right (s : ChatState) : Prop where
  shown : ∀ m ∈ s.messages, s.active = some m.session
  status : s.status = .streaming → ∃ id session, s.sessionOf id = some session ∧
    s.active = some session
  removed : ∀ r ∈ s.removed, r.turn.reply = some r.call ∧ r.finished = false

/-- An error of a stream finds the reply it cuts short, or nothing. -/
def FindsReply (s : ChatState) (id : Nat) : Prop :=
  s.messages = [] ∨ ((get? id s.calls).any (fun call => !call.finished) ∧ s.abortRef = some id ∧
    ∃ m ∈ s.messages, m.reply = some id)

/-- The condition on a step. -/
def Calm (s : ChatState) : Action → Prop
  | .sendMessage content _ _ _ _ fresh =>
      trim content ≠ [] → s.rendered.2 ≠ .streaming →
        ∀ m ∈ s.messages, m.session = s.rendered.1.getD fresh
  | .selectSession sessionId => ∀ m ∈ s.messages, m.session = sessionId
  | .historyLoaded fetch turns =>
      ∀ sessionId ∈ get? fetch s.fetches, turns ≠ [] → s.active = some sessionId
  | .refused id _ => FindsReply s id
  | .errorEvent id _ => FindsReply s id
  | .failed id _ => FindsReply s id
  | .ended id => s.status = .streaming → ∃ other session, other ≠ id ∧
      s.sessionOf other = some session ∧ s.active = some session
  | _ => True

/-- The sessions and replies of the turns that are shown. -/
def ChatState.tags (s : ChatState) : List (Text × Option Nat) := s.messages.map Shown.tag

/-- What holds under the condition: the reply of the current stream is nowhere but at the end,
and a reply at the end whose stream is open is that of the current one. -/
structure Inv (s : ChatState) : Prop where
  shown : ∀ t ∈ s.tags, s.active = some t.1
  status : s.status = .streaming → ∃ id session, s.sessionOf id = some session ∧
    s.active = some session
  removed : ∀ r ∈ s.removed, r.turn.reply = some r.call ∧ r.finished = false
  calls_fresh : ∀ id, (s.sessionOf id).isSome → id < s.next
  replies_fresh : ∀ t ∈ s.tags, ∀ id, t.2 = some id → id < s.next
  current_last : ∀ id, s.abortRef = some id → ∀ t ∈ s.tags.dropLast, t.2 ≠ some id
  /-- A reply follows a turn that is none. -/
  answers : s.tags.IsChain fun t t' => t'.2 ≠ none → t.2 = none
  last_current : ∀ t, s.tags.getLast? = some t → ∀ id, t.2 = some id →
    (s.sessionOf id).isSome → s.abortRef = some id

/-! ## Updates that leave the outline alone -/

theorem forall_tags {s : ChatState} {P : Text × Option Nat → Prop} :
    (∀ t ∈ s.tags, P t) ↔ ∀ m ∈ s.messages, P m.tag := List.forall_mem_map

theorem Inv.right {s : ChatState} (h : Inv s) : Right s where
  shown := forall_tags.mp h.shown
  status := h.status
  removed := h.removed

/-- An edit of the last turn leaves it where it belongs. -/
theorem tags_editLast (update : ChatTurn → ChatTurn) (messages : List Shown) :
    (editLast update messages).map Shown.tag = messages.map Shown.tag := by
  rw [editLast]
  cases hlast : messages.getLast? with
  | none => rfl
  | some m =>
    by_cases hrole : m.turn.role = .assistant
    · obtain ⟨front, rfl⟩ := List.getLast?_eq_some_iff.mp hlast
      simp [hrole, Shown.tag]
    · simp only [if_neg hrole]

theorem sessionOf_abortCurrent (s : ChatState) : s.abortCurrent.sessionOf = s.sessionOf := by
  funext id
  rw [ChatState.sessionOf, ChatState.sessionOf, ChatState.abortCurrent, PyDict.get?_mapValues,
    Option.map_map]
  refine congrArg (fun f => (get? id s.calls).map f) (funext fun call => ?_)
  by_cases hcurrent : s.abortRef = some id
  · simp [hcurrent]
  · simp [hcurrent]

/-- A call that changes without changing its session. -/
theorem sessionOf_set {s : ChatState} {id : Nat} {call call' : Call}
    (hcall : get? id s.calls = some call) (hsession : call'.options = call.options) :
    ({ s with calls := PyDict.set id call' s.calls } : ChatState).sessionOf = s.sessionOf := by
  funext other
  by_cases hother : other = id
  · subst hother
    rw [ChatState.sessionOf, ChatState.sessionOf, PyDict.get?_set_self, hcall, Option.map_some,
      Option.map_some, hsession]
  · rw [ChatState.sessionOf, ChatState.sessionOf, PyDict.get?_set_of_ne hother]

/-- Where the outline stays, what is shown still has to belong to the active session. -/
theorem Inv.congr {s s' : ChatState} (h : Inv s) (htags : s'.tags = s.tags)
    (hshown : ∀ t ∈ s.tags, s'.active = some t.1)
    (hstatus : s'.status = .streaming → s.status = .streaming ∧ s'.active = s.active)
    (hsession : s'.sessionOf = s.sessionOf) (hcurrent : s'.abortRef = s.abortRef)
    (hnext : s.next ≤ s'.next) (hremoved : s'.removed = s.removed) : Inv s' where
  shown := by
    rw [htags]
    exact hshown
  status := by
    intro hstreaming
    obtain ⟨hbefore, hactive⟩ := hstatus hstreaming
    rw [hsession, hactive]
    exact h.status hbefore
  removed := by
    rw [hremoved]
    exact h.removed
  calls_fresh := by
    rw [hsession]
    exact fun id hid => Nat.lt_of_lt_of_le (h.calls_fresh id hid) hnext
  replies_fresh := by
    rw [htags]
    exact fun t ht id hreply => Nat.lt_of_lt_of_le (h.replies_fresh t ht id hreply) hnext
  current_last := by
    rw [htags, hcurrent]
    exact h.current_last
  answers := by
    rw [htags]
    exact h.answers
  last_current := by
    rw [htags, hsession, hcurrent]
    exact h.last_current

/-- Turns that are no replies of streams take the place of those that are shown. -/
theorem Inv.replace {s s' : ChatState} (h : Inv s) (hplain : ∀ t ∈ s'.tags, t.2 = none)
    (hshown : ∀ t ∈ s'.tags, s'.active = some t.1)
    (hstatus : s'.status = .streaming → s.status = .streaming ∧ s'.active = s.active)
    (hsession : s'.sessionOf = s.sessionOf) (hnext : s.next ≤ s'.next)
    (hremoved : s'.removed = s.removed) : Inv s' where
  shown := hshown
  status := by
    intro hstreaming
    obtain ⟨hbefore, hactive⟩ := hstatus hstreaming
    rw [hsession, hactive]
    exact h.status hbefore
  removed := by
    rw [hremoved]
    exact h.removed
  calls_fresh := by
    rw [hsession]
    exact fun id hid => Nat.lt_of_lt_of_le (h.calls_fresh id hid) hnext
  replies_fresh := by
    intro t ht id hreply
    rw [hplain t ht] at hreply
    cases hreply
  current_last := by
    intro id _ t ht hreply
    rw [hplain t ((List.dropLast_prefix _).subset ht)] at hreply
    cases hreply
  answers := by
    have hall : ∀ t ∈ s'.tags, ∀ t' ∈ s'.tags, t'.2 ≠ none → t.2 = none :=
      fun t ht _ _ _ => hplain t ht
    exact (List.pairwise_of_forall_mem_list hall).isChain
  last_current := by
    intro t ht id hreply
    rw [hplain t (List.mem_of_getLast? ht)] at hreply
    cases hreply

/-! ## The steps -/

theorem Inv.abortCurrent {s : ChatState} (h : Inv s) : Inv s.abortCurrent :=
  h.congr rfl h.shown (fun hstreaming => ⟨hstreaming, rfl⟩) (sessionOf_abortCurrent s) rfl
    (Nat.le_refl _) rfl

theorem sessionOf_close (s : ChatState) (id other : Nat) :
    (s.close id).sessionOf other = if other = id then none else s.sessionOf other := by
  rw [ChatState.sessionOf, ChatState.close, PyDict.get?_erase]
  by_cases hother : other = id
  · rw [if_pos hother, if_pos hother, Option.map_none]
  · rw [if_neg hother, if_neg hother, ChatState.sessionOf]

theorem Inv.close {s : ChatState} (h : Inv s) {id : Nat}
    (hother : s.status = .streaming → ∃ other session, other ≠ id ∧
      s.sessionOf other = some session ∧ s.active = some session) : Inv (s.close id) where
  shown := h.shown
  status := by
    intro hstreaming
    obtain ⟨other, session, hne, hopen, hactive⟩ := hother hstreaming
    exact ⟨other, session, by rw [sessionOf_close, if_neg hne, hopen], hactive⟩
  removed := h.removed
  calls_fresh := by
    intro other hopen
    rw [sessionOf_close] at hopen
    by_cases heq : other = id
    · rw [if_pos heq] at hopen
      cases hopen
    · rw [if_neg heq] at hopen
      exact h.calls_fresh other hopen
  replies_fresh := h.replies_fresh
  current_last := by
    intro current hcurrent
    by_cases heq : s.abortRef = some id
    · rw [ChatState.close, if_pos heq] at hcurrent
      cases hcurrent
    · rw [ChatState.close, if_neg heq] at hcurrent
      exact h.current_last current hcurrent
  answers := h.answers
  last_current := by
    intro t ht other hreply hopen
    rw [sessionOf_close] at hopen
    by_cases heq : other = id
    · rw [if_pos heq] at hopen
      cases hopen
    · rw [if_neg heq] at hopen
      have hcurrent := h.last_current t ht other hreply hopen
      rw [ChatState.close, if_neg]
      · exact hcurrent
      · rw [hcurrent]
        exact fun hsame => heq (Option.some.inj hsame)

theorem tags_of_append {s : ChatState} {front : List Shown} {last : Shown}
    (h : s.messages = front ++ [last]) : s.tags = front.map Shown.tag ++ [last.tag] := by
  rw [ChatState.tags, h, List.map_append]
  rfl

/-- The reply of the current stream, where it is shown, is the last turn. -/
theorem Inv.reply_last {s : ChatState} (h : Inv s) {id : Nat} (hcurrent : s.abortRef = some id)
    {m : Shown} (hm : m ∈ s.messages) (hreply : m.reply = some id) :
    ∃ front, s.messages = front ++ [m] := by
  obtain hnil | ⟨front, last, hsplit⟩ := List.eq_nil_or_concat' s.messages
  · rw [hnil] at hm
    cases hm
  · refine ⟨front, hsplit.trans ?_⟩
    have hnowhere := h.current_last id hcurrent
    rw [tags_of_append hsplit, List.dropLast_concat] at hnowhere
    rw [hsplit] at hm
    obtain hfront | hlast := List.mem_append.mp hm
    · exact absurd hreply (hnowhere m.tag (List.mem_map_of_mem hfront))
    · rw [List.mem_singleton.mp hlast]

/-- What an error takes away. -/
theorem removed_dropReply (s : ChatState) (id : Nat) (call : Call) (message : Text) :
    (s.dropReply id call message).removed = s.removed ++ s.messages.getLast?.toList.map fun m =>
      { call := id, finished := call.finished, turn := m } := rfl

/-- An error that finds its reply takes nothing else. -/
theorem removed_of_finds {s : ChatState} (h : Inv s) {id : Nat} {call : Call}
    (hcall : get? id s.calls = some call) (hfinds : FindsReply s id) (message : Text) :
    ∀ r ∈ (s.dropReply id call message).removed,
      r.turn.reply = some r.call ∧ r.finished = false := by
  rw [removed_dropReply]
  intro r hr
  obtain hbefore | hnow := List.mem_append.mp hr
  · exact h.removed r hbefore
  · obtain ⟨last, hlast, rfl⟩ := List.mem_map.mp hnow
    obtain hnil | ⟨hunfinished, hcurrent, m, hm, hreply⟩ := hfinds
    · rw [hnil] at hlast
      cases hlast
    · obtain ⟨front, hfront⟩ := h.reply_last hcurrent hm hreply
      rw [hfront, List.getLast?_concat] at hlast
      obtain rfl := List.mem_singleton.mp hlast
      rw [hcall, Option.any_some] at hunfinished
      exact ⟨hreply, by simpa using hunfinished⟩

theorem Inv.dropReply {s : ChatState} (h : Inv s) {id : Nat} {call : Call}
    (hcall : get? id s.calls = some call) (hfinds : FindsReply s id) (message : Text) :
    Inv (s.dropReply id call message) := by
  have htags : (s.dropReply id call message).tags = s.tags.dropLast := List.map_dropLast ..
  have hless : ∀ t ∈ s.tags.dropLast, t ∈ s.tags :=
    fun t ht => (List.dropLast_prefix _).subset ht
  refine
    { shown := ?_, status := nofun, removed := removed_of_finds h hcall hfinds message
      calls_fresh := h.calls_fresh, replies_fresh := ?_, current_last := ?_, answers := ?_
      last_current := ?_ }
  · rw [htags]
    exact fun t ht => h.shown t (hless t ht)
  · rw [htags]
    exact fun t ht => h.replies_fresh t (hless t ht)
  · rw [htags]
    intro current hcurrent t ht
    exact h.current_last current hcurrent t ((List.dropLast_prefix _).subset ht)
  · rw [htags]
    exact h.answers.dropLast
  · rw [htags]
    intro t ht other hreply
    obtain hnil | ⟨_, hcurrent, m, hm, hmreply⟩ := hfinds
    · rw [ChatState.tags, hnil] at ht
      cases ht
    · obtain ⟨front, hfront⟩ := h.reply_last hcurrent hm hmreply
      have hchain := h.answers
      rw [tags_of_append hfront] at ht hchain
      rw [List.dropLast_concat] at ht
      have hanswer := (List.isChain_append.mp hchain).2.2 t ht m.tag rfl
      rw [hanswer (by rw [Shown.tag, hmreply]; exact nofun)] at hreply
      cases hreply

theorem Inv.send {s : ChatState} (h : Inv s) {session : Text}
    (hshown : ∀ m ∈ s.messages, m.session = session) (content : Text)
    (provider model : Option Text) (sentAt repliedAt : Text) :
    Inv (s.send content provider model sentAt repliedAt session) := by
  have htags : (s.send content provider model sentAt repliedAt session).tags =
      s.tags ++ [(session, none), (session, some s.next)] := List.map_append
  have hopen : ∀ id, (s.send content provider model sentAt repliedAt session).sessionOf id =
      if id = s.next then some session else s.sessionOf id := by
    intro id
    rw [ChatState.sessionOf, ChatState.send]
    by_cases hid : id = s.next
    · rw [if_pos hid, hid, PyDict.get?_set_self]
      rfl
    · rw [if_neg hid, PyDict.get?_set_of_ne hid, ← sessionOf_abortCurrent, ChatState.sessionOf]
  have hbefore : ∀ t ∈ s.tags, t.1 = session := forall_tags.mpr hshown
  refine
    { shown := ?_, status := fun _ => ⟨s.next, session, by rw [hopen, if_pos rfl], rfl⟩
      removed := h.removed, calls_fresh := ?_, replies_fresh := ?_, current_last := ?_
      answers := ?_, last_current := ?_ }
  · rw [htags]
    intro t ht
    obtain hold | hnew := List.mem_append.mp ht
    · exact congrArg some (hbefore t hold).symm
    · simp only [List.mem_cons, List.not_mem_nil, or_false] at hnew
      obtain rfl | rfl := hnew
      · rfl
      · rfl
  · intro id hid
    rw [hopen] at hid
    by_cases hnew : id = s.next
    · rw [hnew]
      exact Nat.lt_succ_self _
    · rw [if_neg hnew] at hid
      exact Nat.lt_succ_of_lt (h.calls_fresh id hid)
  · rw [htags]
    intro t ht id hreply
    obtain hold | hnew := List.mem_append.mp ht
    · exact Nat.lt_succ_of_lt (h.replies_fresh t hold id hreply)
    · simp only [List.mem_cons, List.not_mem_nil, or_false] at hnew
      obtain rfl | rfl := hnew
      · cases hreply
      · cases hreply
        exact Nat.lt_succ_self _
  · rw [htags]
    intro id hid t ht hreply
    obtain rfl : s.next = id := Option.some.inj hid
    have hdrop : (s.tags ++ [(session, none), (session, some s.next)]).dropLast =
        s.tags ++ [(session, none)] := by
      rw [List.dropLast_append_of_ne_nil (by simp)]
      rfl
    rw [hdrop] at ht
    obtain hold | hnew := List.mem_append.mp ht
    · exact Nat.lt_irrefl _ (h.replies_fresh t hold s.next hreply)
    · rw [List.mem_singleton.mp hnew] at hreply
      cases hreply
  · rw [htags, List.isChain_append]
    exact ⟨h.answers, by simp, by simp⟩
  · rw [htags]
    intro t ht id hreply _
    rw [List.getLast?_append] at ht
    cases ht
    exact hreply

/-- A call that a step concerns. -/
theorem get?_of_filter {s : ChatState} {id : Nat} {p : Call → Bool} {f : Call → ChatState}
    {s' : ChatState} (h : ((get? id s.calls).filter p).map f = some s') :
    ∃ call, get? id s.calls = some call ∧ f call = s' := by
  obtain ⟨call, hcall, hs'⟩ := Option.map_eq_some_iff.mp h
  exact ⟨call, (Option.filter_eq_some_iff.mp hcall).1, hs'⟩

/-- A last turn that is edited, with another status. -/
theorem Inv.edit {s : ChatState} (h : Inv s) (update : ChatTurn → ChatTurn) (status : ChatStatus)
    (hstatus : status = .streaming → s.status = .streaming) :
    Inv { s with messages := editLast update s.messages, status := status } :=
  h.congr (tags_editLast update s.messages) h.shown
    (fun hstreaming => ⟨hstatus hstreaming, rfl⟩) rfl rfl (Nat.le_refl _) rfl

theorem Inv.finish {s : ChatState} (h : Inv s) {id : Nat} {call : Call}
    (hcall : get? id s.calls = some call) : Inv (s.finish id call) :=
  h.congr rfl h.shown (fun hstreaming => ⟨hstreaming, rfl⟩) (sessionOf_set hcall rfl) rfl
    (Nat.le_refl _) rfl

/-- What every step under the condition keeps. -/
theorem Inv.step {s s' : ChatState} {a : Action} (h : Inv s) (hcalm : Calm s a)
    (hstep : step a s = some s') : Inv s' := by
  cases a with
  | render =>
    cases hstep
    exact h.congr rfl h.shown (fun hstreaming => ⟨hstreaming, rfl⟩) rfl rfl (Nat.le_refl _) rfl
  | sendMessage content provider model sentAt repliedAt fresh =>
    by_cases hskip : trim content = [] ∨ s.rendered.2 = .streaming
    · rw [UseChat.step, if_pos hskip] at hstep
      cases hstep
      exact h
    · rw [UseChat.step, if_neg hskip] at hstep
      cases hstep
      exact h.send (hcalm (fun hempty => hskip (.inl hempty))
        fun hstreaming => hskip (.inr hstreaming)) _ _ _ _ _
  | selectSession sessionId =>
    cases hstep
    exact h.congr rfl (forall_tags.mpr fun m hm => congrArg some (hcalm m hm).symm) nofun
      (sessionOf_abortCurrent s) rfl (Nat.le_succ _) rfl
  | startNewSession =>
    cases hstep
    exact h.replace nofun nofun nofun (sessionOf_abortCurrent s) (Nat.le_refl _) rfl
  | stopStreaming =>
    cases hstep
    exact h.abortCurrent
  | historyLoaded fetch turns =>
    obtain ⟨sessionId, hfetch, rfl⟩ := Option.map_eq_some_iff.mp hstep
    refine h.replace (forall_tags.mpr ?_) (forall_tags.mpr ?_)
      (fun hstreaming => ⟨hstreaming, rfl⟩) rfl (Nat.le_refl _) rfl
    · intro m hm
      obtain ⟨_, _, rfl⟩ := List.mem_map.mp hm
      rfl
    · intro m hm
      obtain ⟨turn, hturn, rfl⟩ := List.mem_map.mp hm
      exact hcalm sessionId hfetch (List.ne_nil_of_mem hturn)
  | historyFailed fetch =>
    obtain ⟨_, _, rfl⟩ := Option.map_eq_some_iff.mp hstep
    exact h.congr rfl h.shown (fun hstreaming => ⟨hstreaming, rfl⟩) rfl rfl (Nat.le_refl _) rfl
  | responseBegins id =>
    obtain ⟨call, hcall, rfl⟩ := get?_of_filter hstep
    exact h.congr rfl h.shown (fun hstreaming => ⟨hstreaming, rfl⟩) (sessionOf_set hcall rfl) rfl
      (Nat.le_refl _) rfl
  | refused id detail =>
    obtain ⟨call, hcall, rfl⟩ := get?_of_filter hstep
    exact (h.dropReply hcall hcalm detail).close nofun
  | delta id content =>
    obtain ⟨call, hcall, rfl⟩ := get?_of_filter hstep
    exact h.edit _ s.status fun hstreaming => hstreaming
  | done id event =>
    obtain ⟨call, hcall, rfl⟩ := get?_of_filter hstep
    exact (h.edit _ .idle nofun).finish hcall
  | errorEvent id message =>
    obtain ⟨call, hcall, rfl⟩ := get?_of_filter hstep
    exact (h.dropReply hcall hcalm message).finish hcall
  | ended id =>
    obtain ⟨call, hcall, rfl⟩ := get?_of_filter hstep
    exact h.close hcalm
  | failed id message =>
    obtain ⟨call, hcall, rfl⟩ := get?_of_filter hstep
    exact (h.dropReply hcall hcalm _).close nofun
  | rejected id =>
    obtain ⟨call, hcall, rfl⟩ := get?_of_filter hstep
    exact (h.edit _ .idle nofun).close nofun

/-! ## Steps outside the condition -/

/-- An error that takes away nothing but its reply has found it. -/
theorem finds_of_removed {s : ChatState} (h : Inv s) {id : Nat} {call : Call} (message : Text)
    (hcall : get? id s.calls = some call)
    (hremoved : ∀ r ∈ (s.dropReply id call message).removed,
      r.turn.reply = some r.call ∧ r.finished = false) : FindsReply s id := by
  obtain hnil | ⟨front, last, hsplit⟩ := List.eq_nil_or_concat' s.messages
  · exact .inl hnil
  · have hlast : s.messages.getLast? = some last := by rw [hsplit, List.getLast?_concat]
    obtain ⟨hreply, hunfinished⟩ : last.reply = some id ∧ call.finished = false := by
      refine hremoved { call := id, finished := call.finished, turn := last } ?_
      rw [removed_dropReply, hlast]
      exact List.mem_append_right _ List.mem_cons_self
    have hopen : (s.sessionOf id).isSome := by
      rw [ChatState.sessionOf, hcall]
      rfl
    have htag : s.tags.getLast? = some last.tag := by
      rw [tags_of_append hsplit, List.getLast?_concat]
    refine .inr ⟨?_, h.last_current last.tag htag id hreply hopen, last, ?_, hreply⟩
    · rw [hcall, Option.any_some, hunfinished]
      rfl
    · rw [hsplit]
      exact List.mem_append_right _ List.mem_cons_self

theorem calm_of_right {s s' : ChatState} {a : Action} (h : Inv s) (hstep : step a s = some s')
    (hright : Right s') : Calm s a := by
  cases a with
  | sendMessage content provider model sentAt repliedAt fresh =>
    intro hcontent hidle m hm
    have hskip : ¬(trim content = [] ∨ s.rendered.2 = .streaming) := not_or.mpr ⟨hcontent, hidle⟩
    rw [UseChat.step, if_neg hskip] at hstep
    cases hstep
    exact (Option.some.inj (hright.shown m (List.mem_append_left _ hm))).symm
  | selectSession sessionId =>
    cases hstep
    exact fun m hm => (Option.some.inj (hright.shown m hm)).symm
  | historyLoaded fetch turns =>
    obtain ⟨sessionId, hfetch, rfl⟩ := Option.map_eq_some_iff.mp hstep
    intro session hsession hturns
    obtain rfl : sessionId = session := Option.some.inj (hfetch.symm.trans hsession)
    obtain ⟨turn, hturn⟩ := List.exists_mem_of_ne_nil turns hturns
    exact hright.shown _ (List.mem_map_of_mem hturn)
  | refused id detail =>
    obtain ⟨call, hcall, rfl⟩ := get?_of_filter hstep
    exact finds_of_removed h detail hcall hright.removed
  | errorEvent id message =>
    obtain ⟨call, hcall, rfl⟩ := get?_of_filter hstep
    exact finds_of_removed h message hcall hright.removed
  | failed id message =>
    obtain ⟨call, hcall, rfl⟩ := get?_of_filter hstep
    exact finds_of_removed h (message.getD "The AI stream ended unexpectedly.".toList) hcall
      hright.removed
  | ended id =>
    obtain ⟨call, hcall, rfl⟩ := get?_of_filter hstep
    intro hstreaming
    obtain ⟨other, session, hopen, hactive⟩ := hright.status hstreaming
    rw [sessionOf_close] at hopen
    by_cases hother : other = id
    · rw [if_pos hother] at hopen
      cases hopen
    · rw [if_neg hother] at hopen
      exact ⟨other, session, hother, hopen, hactive⟩
  | _ => trivial

theorem Inv.initial : Inv ChatState.initial where
  shown := nofun
  status := nofun
  removed := nofun
  calls_fresh := nofun
  replies_fresh := nofun
  current_last := nofun
  answers := .nil
  last_current := nofun

/--
**All along a run only turns of the active session are shown, the status is that of an
open stream and errors take away nothing but the reply they cut short, if and only if
every step is taken under the condition.**
-/
theorem chat_right_iff {actions : List Action} {s : ChatState}
    (hrun : run step actions .initial = some s) :
    Always step Right actions .initial ↔ Meets step Calm actions .initial :=
  always_iff_meets (I := Inv) (fun _ h => h.right) (fun _ _ _ h hcalm hstep => h.step hcalm hstep)
    (fun _ _ _ h hfails hstep hright => hfails (calm_of_right h hstep hright)) Inv.initial hrun

section Examples

def hello : ChatTurn where
  role := .assistant
  content := "hello".toList
  createdAt := none
  provider := none
  model := none

def send (content : Text) : Action :=
  .sendMessage content none none [] [] "new".toList

def answered : DoneEvent where
  reply := "hello".toList
  provider := "ollama".toList
  model := "default".toList
  routerContext := none

/-- A message and its whole reply. -/
theorem answered_right : Always step Right
    [send "hi".toList, .responseBegins 0, .delta 0 "he".toList, .done 0 answered] .initial :=
  (chat_right_iff rfl).mpr ⟨fun _ _ => nofun, fun _ _ => ⟨trivial, fun _ _ => ⟨trivial,
    fun _ _ => ⟨trivial, fun _ _ => trivial⟩⟩⟩⟩

/-- The history of `a` arrives when `b` has been selected. -/
def overtaken : List Action :=
  [.selectSession "a".toList, .selectSession "b".toList, .historyLoaded 0 [hello]]

/-- The response ends, and neither `done` nor `error` was in it. -/
def cutShort : List Action :=
  [send "hi".toList, .responseBegins 0, .delta 0 "he".toList, .ended 0]

/-- The connection breaks after `done`. -/
def reset : List Action :=
  [send "hi".toList, .responseBegins 0, .done 0 answered, .failed 0 none]

/-- **Turns of another session, a status that stays `streaming`, and a finished reply that
an error takes away.** -/
theorem chat_goes_wrong :
    (run step overtaken .initial).map (fun s => (s.active, s.messages.map Shown.session)) =
      some (some "b".toList, ["a".toList]) ∧
    (run step cutShort .initial).map (fun s => (s.status, s.calls)) = some (.streaming, []) ∧
    (run step reset .initial).map (fun s =>
        s.removed.map fun r => (r.turn.turn.content, r.finished)) =
      some [("hello".toList, true)] ∧
    ¬∀ actions s, run step actions .initial = some s → Always step Right actions .initial := by
  refine ⟨by rfl, by rfl, by rfl, fun hall => ?_⟩
  cases hrun : run step cutShort .initial with
  | none => exact absurd hrun (by decide)
  | some s =>
    have hend : (run step cutShort .initial).map (fun s => (s.status, s.calls)) =
        some (.streaming, []) := by rfl
    rw [hrun] at hend
    obtain ⟨hstatus, hcalls⟩ := Prod.mk.inj (Option.some.inj hend)
    obtain ⟨id, session, hopen, _⟩ := ((hall cutShort s hrun).last hrun).status hstatus
    rw [ChatState.sessionOf, hcalls] at hopen
    cases hopen

end Examples

end OpenWrtCopilot.Ports.UseChat
