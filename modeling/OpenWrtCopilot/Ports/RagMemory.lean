import Mathlib.Data.List.Perm.Subperm
import OpenWrtCopilot.Verified.PyDict
import OpenWrtCopilot.Verified.PyText
import OpenWrtCopilot.Verified.Runs
import OpenWrtCopilot.Verified.Suffixes

/-!
# The memory of a conversation

Ports `RollingConversationMemory`.  A conversation keeps a window of its latest messages and
snapshots of older ones.  Each added message first pushes the oldest messages out of the window;
afterwards, as long as enough turns are pending, the oldest messages of the window are folded
into a snapshot.  What was pushed out before is in no snapshot.

## Main results

* `kept_iff` — every message of every conversation is in the window or in a snapshot, all along
  a run, exactly if the window is at least the threshold or was never exceeded.
* `first_message_lost` — with the default settings the first message is lost.
-/

namespace OpenWrtCopilot.Ports.RagMemory

open Verified
open Verified.PyDict (Dict get?)
open Verified.PyText

/-! ## Conversations -/

/-- `Message`. -/
structure Message where
  role : Text := "user".toList
  content : Text := []
  deriving DecidableEq

/-- `MemorySnapshot`. -/
structure MemorySnapshot where
  conversationId : Text
  summary : Text := []
  keywords : List Text := []
  messageIds : List Text := []
  tokenCount : Int := 0
  deriving DecidableEq

/-- `ConversationState`. -/
structure ConversationState where
  conversationId : Text
  messages : List Message := []
  snapshots : List MemorySnapshot := []
  tokenCount : Int := 0
  pendingTurns : Int := 0
  deriving DecidableEq

/-- `RollingConversationMemory`, with its estimator, the summaries and the digest. -/
structure RollingConversationMemory where
  windowSize : Nat
  maxSnapshots : Nat
  compressThreshold : Nat
  estimate : Text → Int
  /-- `summarize_messages`. -/
  summarize : List Message → Text × List Text
  sha256 : Text → Text
  window_pos : 0 < windowSize
  threshold_pos : 0 < compressThreshold

/-- The constructor. -/
def RollingConversationMemory.init (windowSize maxSnapshots compressThreshold : Int)
    (estimate : Text → Int) (summarize : List Message → Text × List Text)
    (sha256 : Text → Text) : RollingConversationMemory where
  windowSize := (max 1 windowSize).toNat
  maxSnapshots := (max 1 maxSnapshots).toNat
  compressThreshold := (max 1 compressThreshold).toNat
  estimate := estimate
  summarize := summarize
  sha256 := sha256
  window_pos := by omega
  threshold_pos := by omega

namespace RollingConversationMemory

variable (memory : RollingConversationMemory)

/-- `_message_id`. -/
def messageId (message : Message) : Text :=
  memory.sha256 (message.role ++ '\x00' :: message.content)

/-- `_trim`, with the token count. -/
def trim : List Message → Int → List Message × Int
  | [], tokenCount => ([], tokenCount)
  | message :: rest, tokenCount =>
      if memory.windowSize < rest.length + 1 then
        trim rest (max 0 (tokenCount - memory.estimate message.content))
      else (message :: rest, tokenCount)

def chunkSize : Nat := memory.compressThreshold / 2

/-- A snapshot of the oldest messages. -/
def snapshotOf (state : ConversationState) : MemorySnapshot :=
  let overflow := state.messages.take memory.chunkSize
  let (summary, keywords) := memory.summarize overflow
  { conversationId := state.conversationId
    summary := summary
    keywords := keywords
    messageIds := overflow.map memory.messageId
    tokenCount := memory.estimate summary }

/-- The body of the loop of `_compress_if_needed`. -/
def compress (state : ConversationState) : ConversationState :=
  let overflow := state.messages.take memory.chunkSize
  let compressedCost := (overflow.map fun message => memory.estimate message.content).sum
  let snapshots := state.snapshots ++ [memory.snapshotOf state]
  { state with
    snapshots := snapshots.drop (snapshots.length - memory.maxSnapshots)
    messages := state.messages.drop overflow.length
    tokenCount := max 0 (state.tokenCount - compressedCost)
    pendingTurns := state.pendingTurns - overflow.length }

/-- The loop, at most `fuel` times, and the snapshots it creates. -/
def compressFrom : Nat → ConversationState → Option (ConversationState × List MemorySnapshot)
  | 0, _ => none
  | fuel + 1, state =>
      if memory.compressThreshold ≤ state.pendingTurns ∧
          memory.chunkSize ≤ state.messages.length then
        (compressFrom fuel (memory.compress state)).map fun (after, created) =>
          (after, memory.snapshotOf state :: created)
      else some (state, [])

/-- `_compress_if_needed`; `none` if the loop does not end. -/
def compressIfNeeded (state : ConversationState) :
    Option (ConversationState × List MemorySnapshot) :=
  memory.compressFrom (state.pendingTurns.toNat + 1) state

/-- A message joins its conversation. -/
def addTo (state : ConversationState) (message : Message) :
    Option (ConversationState × List MemorySnapshot) :=
  let (messages, tokenCount) := memory.trim (state.messages ++ [message])
    (state.tokenCount + memory.estimate message.content)
  memory.compressIfNeeded
    { state with
      messages := messages
      tokenCount := tokenCount
      pendingTurns := state.pendingTurns + 1 }

/-- `add`, on the store, and the snapshots that are created. -/
def add (conversationId : Text) (message : Message) (store : Dict Text ConversationState) :
    Option (Dict Text ConversationState × List MemorySnapshot) :=
  let store :=
    PyDict.setdefault conversationId { conversationId := conversationId } store
  if message.content = [] then some (store, [])
  else
    (memory.addTo ((get? conversationId store).getD { conversationId := conversationId })
      message).map fun (state, created) => (PyDict.set conversationId state store, created)

/-- `_fit_history`; no positive limit is no limit. -/
def fitHistory (messages : List Message) (maxTokens : Option Int) : List Message :=
  match maxTokens with
  | none => messages
  | some limit =>
      if limit ≤ 0 then messages
      else Suffixes.latest (fun message => memory.estimate message.content) limit messages

/-- `history`. -/
def history (conversationId : Text) (maxTokens : Option Int)
    (store : Dict Text ConversationState) : List Message :=
  match get? conversationId store with
  | none => []
  | some state => memory.fitHistory state.messages maxTokens

end RollingConversationMemory

/-! ## Runs -/

/-- A call of `add`. -/
structure Turn where
  conversationId : Text
  message : Message

/-- The store, the messages that were added and the snapshots that were created so far. -/
structure Conversations where
  store : Dict Text ConversationState := []
  added : List Turn := []
  created : List MemorySnapshot := []

def step (memory : RollingConversationMemory) (turn : Turn) (s : Conversations) :
    Option Conversations :=
  (memory.add turn.conversationId turn.message s.store).map fun (store, created) =>
    { store := store, added := s.added ++ [turn], created := s.created ++ created }

/-- The messages of a conversation; an empty one is not added. -/
def addedIn (conversationId : Text) (turns : List Turn) : List Message :=
  (turns.filter fun turn =>
    turn.conversationId = conversationId ∧ turn.message.content ≠ []).map (·.message)

namespace Conversations

variable (conversationId : Text) (s : Conversations)

def stateOf : ConversationState :=
  (get? conversationId s.store).getD { conversationId := conversationId }

/-- The live window. -/
def live : List Message := (s.stateOf conversationId).messages

def createdFor : List MemorySnapshot :=
  s.created.filter fun snapshot => snapshot.conversationId = conversationId

/-- What a conversation still has: what its snapshots name, and its window. -/
def remembered (memory : RollingConversationMemory) : List Text :=
  (s.createdFor conversationId).flatMap (·.messageIds) ++
    (s.live conversationId).map memory.messageId

/-- Each message is in the window or named in a snapshot, as often as it was added. -/
def Kept (memory : RollingConversationMemory) (s : Conversations) : Prop :=
  ∀ c, ((addedIn c s.added).map memory.messageId).Subperm (s.remembered c memory)

end Conversations

/-- The window is at least the threshold, or the message still fits into it with all that was
added before. -/
def Fits (memory : RollingConversationMemory) (s : Conversations) (turn : Turn) : Prop :=
  memory.compressThreshold ≤ memory.windowSize ∨ turn.message.content = [] ∨
    (addedIn turn.conversationId s.added).length < memory.windowSize

/-! ## One conversation -/

namespace RollingConversationMemory

variable {memory : RollingConversationMemory}

/-- Trimming leaves the latest messages. -/
theorem trim_fst (messages : List Message) (tokenCount : Int) :
    (memory.trim messages tokenCount).1 =
      messages.drop (messages.length - memory.windowSize) := by
  induction messages generalizing tokenCount with
  | nil => exact List.drop_nil.symm
  | cons message rest ih =>
    rw [trim]
    by_cases hlong : memory.windowSize < rest.length + 1
    · have hdrop : (message :: rest).length - memory.windowSize =
          (rest.length - memory.windowSize) + 1 := by
        rw [List.length_cons]
        omega
      rw [if_pos hlong, ih, hdrop, List.drop_succ_cons]
    · have hdrop : (message :: rest).length - memory.windowSize = 0 := by
        rw [List.length_cons]
        omega
      rw [if_neg hlong, hdrop, List.drop_zero]

/-- What the loop does to the messages: those it takes away are named in what it creates. -/
structure Folded (memory : RollingConversationMemory) (state after : ConversationState)
    (created : List MemorySnapshot) : Prop where
  ids : created.flatMap (·.messageIds) ++ after.messages.map memory.messageId =
    state.messages.map memory.messageId
  owner : ∀ snapshot ∈ created, snapshot.conversationId = state.conversationId
  same : after.conversationId = state.conversationId
  pending : after.pendingTurns + state.messages.length =
    state.pendingTurns + after.messages.length
  ended : after.pendingTurns < memory.compressThreshold ∨
    after.messages.length < memory.chunkSize
  idle : state.pendingTurns < memory.compressThreshold → created = []

theorem compressFrom_folded {fuel : Nat} {state after : ConversationState}
    {created : List MemorySnapshot}
    (h : memory.compressFrom fuel state = some (after, created)) :
    Folded memory state after created := by
  induction fuel generalizing state created with
  | zero => cases h
  | succ fuel ih =>
    rw [compressFrom] at h
    by_cases hfull : memory.compressThreshold ≤ state.pendingTurns ∧
        memory.chunkSize ≤ state.messages.length
    · rw [if_pos hfull] at h
      obtain ⟨⟨after', created'⟩, hrest, hpair⟩ := Option.map_eq_some_iff.mp h
      obtain ⟨rfl, rfl⟩ := Prod.mk.inj hpair
      have hlater := ih hrest
      have hlength : (state.messages.take memory.chunkSize).length = memory.chunkSize := by
        rw [List.length_take]
        omega
      have hchunk : memory.chunkSize ≤ state.pendingTurns := by
        have hhalf : memory.chunkSize ≤ memory.compressThreshold := Nat.div_le_self _ _
        omega
      have hids : created'.flatMap (·.messageIds) ++ after'.messages.map memory.messageId =
          (state.messages.drop (state.messages.take memory.chunkSize).length).map
            memory.messageId := hlater.ids
      have hpending : after'.pendingTurns +
            (state.messages.drop (state.messages.take memory.chunkSize).length).length =
          state.pendingTurns - (state.messages.take memory.chunkSize).length +
            after'.messages.length := hlater.pending
      rw [hlength] at hids hpending
      refine ⟨?_, ?_, hlater.same, ?_, hlater.ended, fun hidle => by omega⟩
      · rw [List.flatMap_cons, List.append_assoc, hids]
        show (state.messages.take memory.chunkSize).map memory.messageId ++ _ = _
        rw [← List.map_append, List.take_append_drop]
      · intro snapshot hsnapshot
        obtain rfl | hsnapshot := List.mem_cons.mp hsnapshot
        · rfl
        · exact hlater.owner snapshot hsnapshot
      · rw [List.length_drop] at hpending
        omega
    · rw [if_neg hfull] at h
      obtain ⟨rfl, rfl⟩ := Prod.mk.inj (Option.some.inj h)
      exact ⟨rfl, nofun, rfl, rfl, by omega, fun _ => rfl⟩

theorem compressFrom_suffix {fuel : Nat} {state after : ConversationState}
    {created : List MemorySnapshot}
    (h : memory.compressFrom fuel state = some (after, created)) :
    after.messages <:+ state.messages := by
  induction fuel generalizing state created with
  | zero => cases h
  | succ fuel ih =>
    rw [compressFrom] at h
    split at h
    · obtain ⟨⟨after', created'⟩, hrest, hpair⟩ := Option.map_eq_some_iff.mp h
      obtain ⟨rfl, rfl⟩ := Prod.mk.inj hpair
      exact (ih hrest).trans (List.drop_suffix _ _)
    · obtain ⟨rfl, rfl⟩ := Prod.mk.inj (Option.some.inj h)
      exact List.suffix_rfl

/-- A conversation that a message joins keeps its latest messages. -/
theorem addTo_suffix {state after : ConversationState} {message : Message}
    {created : List MemorySnapshot} (h : memory.addTo state message = some (after, created)) :
    after.messages <:+ state.messages ++ [message] := by
  refine (compressFrom_suffix h).trans ?_
  show (memory.trim _ _).1 <:+ _
  rw [trim_fst]
  exact List.drop_suffix _ _

/-- With a threshold of at least two the loop ends. -/
theorem compressFrom_ends (hthreshold : 2 ≤ memory.compressThreshold) {fuel : Nat}
    {state : ConversationState} (hfuel : state.pendingTurns.toNat < fuel) :
    ∃ result, memory.compressFrom fuel state = some result := by
  induction fuel generalizing state with
  | zero => omega
  | succ fuel ih =>
    rw [compressFrom]
    by_cases hfull : memory.compressThreshold ≤ state.pendingTurns ∧
        memory.chunkSize ≤ state.messages.length
    · have hchunk : 0 < memory.chunkSize := by
        rw [chunkSize]
        omega
      have hless : (memory.compress state).pendingTurns.toNat < fuel := by
        rw [compress]
        show (state.pendingTurns - (state.messages.take memory.chunkSize).length).toNat < fuel
        rw [List.length_take]
        omega
      obtain ⟨result, hresult⟩ := ih hless
      rw [if_pos hfull, hresult]
      exact ⟨_, rfl⟩
    · rw [if_neg hfull]
      exact ⟨_, rfl⟩

/-- With a threshold of one it does not, whatever the fuel. -/
theorem compressFrom_one (hthreshold : memory.compressThreshold = 1) (fuel : Nat)
    {state : ConversationState} (hpending : 0 < state.pendingTurns) :
    memory.compressFrom fuel state = none := by
  have hchunk : memory.chunkSize = 0 := by
    rw [chunkSize, hthreshold]
  induction fuel generalizing state with
  | zero => rfl
  | succ fuel ih =>
    have hpending' : 0 < (memory.compress state).pendingTurns := by
      rw [compress, hchunk]
      exact (Int.sub_zero state.pendingTurns).symm ▸ hpending
    rw [compressFrom, if_pos (by omega), ih hpending', Option.map_none]

end RollingConversationMemory

/-! ## One step -/

section Step

variable {memory : RollingConversationMemory} {s s' : Conversations} {turn : Turn}

theorem getD_setdefault (conversationId other : Text) (store : Dict Text ConversationState) :
    (get? other (PyDict.setdefault conversationId { conversationId := conversationId }
        store)).getD { conversationId := other } =
      (get? other store).getD { conversationId := other } := by
  rw [PyDict.get?_setdefault, get?]
  cases get? other store with
  | some state => rfl
  | none =>
    by_cases hid : conversationId = other
    · rw [if_pos hid, hid]
      rfl
    · rw [if_neg hid]
      rfl

/-- An empty message changes nothing that is kept. -/
theorem step_empty (hstep : step memory turn s = some s') (hempty : turn.message.content = []) :
    s'.created = s.created ∧ (∀ c, s'.stateOf c = s.stateOf c) ∧
      ∀ c, addedIn c s'.added = addedIn c s.added := by
  rw [step, RollingConversationMemory.add, if_pos hempty] at hstep
  obtain rfl := Option.some.inj hstep
  refine ⟨List.append_nil _, fun c => getD_setdefault _ _ _, fun c => ?_⟩
  simp [addedIn, List.filter_append, hempty]

/-- Another message joins its conversation, and the others stay as they are. -/
theorem step_nonempty (hstep : step memory turn s = some s')
    (hcontent : turn.message.content ≠ []) :
    ∃ created, memory.addTo (s.stateOf turn.conversationId) turn.message =
        some (s'.stateOf turn.conversationId, created) ∧
      s'.created = s.created ++ created ∧
      (∀ c, c ≠ turn.conversationId → s'.stateOf c = s.stateOf c) ∧
      ∀ c, addedIn c s'.added =
        addedIn c s.added ++ if turn.conversationId = c then [turn.message] else [] := by
  rw [step, RollingConversationMemory.add, if_neg hcontent] at hstep
  dsimp only at hstep
  rw [getD_setdefault] at hstep
  obtain ⟨⟨store, created⟩, hadd, hs'⟩ := Option.map_eq_some_iff.mp hstep
  obtain ⟨⟨state, created'⟩, haddTo, hpair⟩ := Option.map_eq_some_iff.mp hadd
  obtain ⟨rfl, rfl⟩ := Prod.mk.inj hpair
  obtain rfl := hs'
  refine ⟨created', ?_, rfl, ?_, ?_⟩
  · rw [Conversations.stateOf, Conversations.stateOf, haddTo]
    simp
  · intro c hc
    rw [Conversations.stateOf, PyDict.get?_set_of_ne hc, getD_setdefault]
    rfl
  · intro c
    by_cases hc : turn.conversationId = c
    · simp [addedIn, List.filter_append, hcontent, hc]
    · simp [addedIn, List.filter_append, hc]

/-- Nothing of a conversation is lost so far. -/
structure Exact (memory : RollingConversationMemory) (c : Text) (s : Conversations) : Prop where
  ids : s.remembered c memory = (addedIn c s.added).map memory.messageId
  owner : (s.stateOf c).conversationId = c
  pending : (s.stateOf c).pendingTurns = (s.live c).length
  below : (s.stateOf c).pendingTurns < memory.compressThreshold
  fresh : memory.windowSize < memory.compressThreshold → s.createdFor c = []

theorem exact_empty (c : Text) : Exact memory c {} :=
  ⟨rfl, rfl, rfl, Int.natCast_pos.mpr memory.threshold_pos, fun _ => rfl⟩

theorem Exact.of_same (h : Exact memory c s) (hstate : s'.stateOf c = s.stateOf c)
    (hcreated : s'.createdFor c = s.createdFor c)
    (hadded : addedIn c s'.added = addedIn c s.added) : Exact memory c s' := by
  obtain ⟨hids, howner, hpending, hbelow, hfresh⟩ := h
  rw [Conversations.remembered, Conversations.live] at hids
  rw [Conversations.live] at hpending
  refine ⟨?_, by rwa [hstate], ?_, by rwa [hstate], by rwa [hcreated]⟩
  · rw [Conversations.remembered, Conversations.live, hstate, hcreated, hadded, hids]
  · rw [Conversations.live, hstate, hpending]

/-- What a message that joins does to its conversation. -/
theorem addTo_folded {state after : ConversationState} {message : Message}
    {created : List MemorySnapshot} (h : memory.addTo state message = some (after, created)) :
    ∃ trimmed : ConversationState, memory.Folded trimmed after created ∧
      trimmed.conversationId = state.conversationId ∧
      trimmed.pendingTurns = state.pendingTurns + 1 ∧
      trimmed.messages = (state.messages ++ [message]).drop
        (state.messages.length + 1 - memory.windowSize) := by
  refine ⟨_, RollingConversationMemory.compressFrom_folded h, rfl, rfl, ?_⟩
  show (memory.trim _ _).1 = _
  rw [RollingConversationMemory.trim_fst, List.length_append, List.length_singleton]

theorem createdFor_append {c : Text} {created : List MemorySnapshot}
    (hcreated : s'.created = s.created ++ created)
    (howner : ∀ snapshot ∈ created, snapshot.conversationId = c) :
    s'.createdFor c = s.createdFor c ++ created := by
  rw [Conversations.createdFor, hcreated, List.filter_append, Conversations.createdFor]
  refine congrArg _ (List.filter_eq_self.mpr fun snapshot hsnapshot => ?_)
  exact decide_eq_true (howner snapshot hsnapshot)

theorem createdFor_append_of_ne {c other : Text} (hne : c ≠ other)
    {created : List MemorySnapshot} (hcreated : s'.created = s.created ++ created)
    (howner : ∀ snapshot ∈ created, snapshot.conversationId = other) :
    s'.createdFor c = s.createdFor c := by
  rw [Conversations.createdFor, hcreated, List.filter_append, Conversations.createdFor]
  have hnone : created.filter (fun snapshot => snapshot.conversationId = c) = [] := by
    refine List.filter_eq_nil_iff.mpr fun snapshot hsnapshot => ?_
    rw [howner snapshot hsnapshot, decide_eq_true_eq]
    exact Ne.symm hne
  rw [hnone, List.append_nil]

/-- How a message joins its conversation: the window is trimmed, and some of what is left is
named in new snapshots. -/
theorem remembered_step (h : Exact memory turn.conversationId s)
    (hstep : step memory turn s = some s') (hcontent : turn.message.content ≠ []) :
    ∃ trimmed created, memory.Folded trimmed (s'.stateOf turn.conversationId) created ∧
      trimmed.conversationId = turn.conversationId ∧
      trimmed.pendingTurns = (s.live turn.conversationId).length + 1 ∧
      trimmed.messages = (s.live turn.conversationId ++ [turn.message]).drop
        ((s.live turn.conversationId).length + 1 - memory.windowSize) ∧
      s'.createdFor turn.conversationId = s.createdFor turn.conversationId ++ created ∧
      s'.remembered turn.conversationId memory =
        (s.createdFor turn.conversationId).flatMap (·.messageIds) ++
          trimmed.messages.map memory.messageId := by
  obtain ⟨created, haddTo, hcreated, -, -⟩ := step_nonempty hstep hcontent
  obtain ⟨trimmed, hfolded, hsame, hpending, hmessages⟩ := addTo_folded haddTo
  have hcreatedFor := createdFor_append hcreated fun snapshot hsnapshot => by
    rw [hfolded.owner snapshot hsnapshot, hsame, h.owner]
  refine ⟨trimmed, created, hfolded, hsame.trans h.owner, ?_, hmessages, hcreatedFor, ?_⟩
  · rw [hpending, h.pending]
  · rw [Conversations.remembered, hcreatedFor, List.flatMap_append, List.append_assoc,
      Conversations.live, hfolded.ids]

/-- The window has at most what was added. -/
theorem Exact.length (h : Exact memory c s) :
    ((s.createdFor c).flatMap (·.messageIds)).length + (s.live c).length =
      (addedIn c s.added).length := by
  have hlength := congrArg List.length h.ids
  rw [Conversations.remembered, List.length_append, List.length_map, List.length_map] at hlength
  exact hlength

/-- A message that fits is kept with all the others. -/
theorem exact_step (h : ∀ c, Exact memory c s) (hfits : Fits memory s turn)
    (hstep : step memory turn s = some s') : ∀ c, Exact memory c s' := by
  intro c
  by_cases hempty : turn.message.content = []
  · obtain ⟨hcreated, hstate, hadded⟩ := step_empty hstep hempty
    refine (h c).of_same (hstate c) ?_ (hadded c)
    rw [Conversations.createdFor, hcreated, Conversations.createdFor]
  · obtain ⟨created, haddTo, hcreated, hothers, hadded⟩ := step_nonempty hstep hempty
    by_cases hc : c = turn.conversationId
    · subst hc
      have hexact := h turn.conversationId
      obtain ⟨trimmed, created, hfolded, howner, hpending, hmessages, hcreatedFor, hremembered⟩ :=
        remembered_step hexact hstep hempty
      have hroom : (s.live turn.conversationId).length + 1 ≤ memory.windowSize := by
        have hlength := hexact.length
        have hbelow := hexact.below
        rw [hexact.pending] at hbelow
        obtain hwindow | hnone | hfew := hfits
        · omega
        · exact absurd hnone hempty
        · omega
      have hall : trimmed.messages = s.live turn.conversationId ++ [turn.message] := by
        rw [hmessages, Nat.sub_eq_zero_of_le hroom, List.drop_zero]
      have hturns : (s'.stateOf turn.conversationId).pendingTurns =
          (s'.live turn.conversationId).length := by
        have hfoldedPending := hfolded.pending
        rw [hpending, hall, List.length_append, List.length_singleton] at hfoldedPending
        rw [Conversations.live]
        omega
      refine ⟨?_, hfolded.same.trans howner, hturns, ?_, ?_⟩
      · rw [hremembered, hall, hadded, if_pos rfl, List.map_append, List.map_append,
          ← List.append_assoc, ← hexact.ids]
        rfl
      · have hhalf : memory.chunkSize < memory.compressThreshold :=
          Nat.div_lt_self memory.threshold_pos Nat.one_lt_two
        obtain hbelow | hfew := hfolded.ended
        · exact hbelow
        · rw [hturns]
          exact_mod_cast hfew.trans hhalf
      · intro hsmall
        rw [hcreatedFor, hexact.fresh hsmall, hfolded.idle (by omega)]
        rfl
    · obtain ⟨trimmed, hfolded, hsame, -, -⟩ := addTo_folded haddTo
      have howner : ∀ snapshot ∈ created, snapshot.conversationId = turn.conversationId := by
        intro snapshot hsnapshot
        rw [hfolded.owner snapshot hsnapshot, hsame, (h turn.conversationId).owner]
      refine (h c).of_same (hothers c hc) (createdFor_append_of_ne hc hcreated howner) ?_
      rw [hadded, if_neg (Ne.symm hc), List.append_nil]

/-- One that does not fit pushes a message out that is in no snapshot. -/
theorem not_kept_step (h : ∀ c, Exact memory c s) (hfits : ¬ Fits memory s turn)
    (hstep : step memory turn s = some s') : ¬ s'.Kept memory := by
  rw [Fits, not_or, not_or] at hfits
  obtain ⟨hsmall, hcontent, hmany⟩ := hfits
  have hexact := h turn.conversationId
  obtain ⟨trimmed, created, hfolded, -, -, hmessages, -, hremembered⟩ :=
    remembered_step hexact hstep hcontent
  obtain ⟨-, -, -, -, hadded⟩ := step_nonempty hstep hcontent
  intro hkept
  have hle := (hkept turn.conversationId).length_le
  have hlength := hexact.length
  rw [hexact.fresh (by omega), List.flatMap_nil, List.length_nil] at hlength
  rw [hremembered, hexact.fresh (by omega), hmessages, hadded, if_pos rfl, List.flatMap_nil,
    List.nil_append, List.length_map, List.length_map, List.length_drop, List.length_append,
    List.length_append, List.length_singleton] at hle
  omega

end Step

/-! ## Runs -/

section Run

variable {memory : RollingConversationMemory}

theorem Exact.kept {s : Conversations} (h : ∀ c, Exact memory c s) : s.Kept memory := by
  intro c
  rw [(h c).ids]

theorem addedIn_append (c : Text) (a b : List Turn) :
    addedIn c (a ++ b) = addedIn c a ++ addedIn c b := by
  rw [addedIn, List.filter_append, List.map_append, addedIn, addedIn]

theorem addedIn_singleton {c : Text} {turn : Turn} (h : addedIn c [turn] ≠ []) :
    turn.conversationId = c ∧ turn.message.content ≠ [] := by
  by_contra hnot
  refine h ?_
  rw [addedIn, List.filter_cons_of_neg (by simpa using hnot)]
  rfl

theorem length_addedIn_singleton {turn : Turn} (h : turn.message.content ≠ []) :
    (addedIn turn.conversationId [turn]).length = 1 := by
  simp [addedIn, h]

theorem added_step {s s' : Conversations} {turn : Turn} (h : step memory turn s = some s') :
    s'.added = s.added ++ [turn] := by
  obtain ⟨result, -, rfl⟩ := Option.map_eq_some_iff.mp h
  rfl

/-- With a threshold of at least two every message can be added. -/
theorem step_total (hthreshold : 2 ≤ memory.compressThreshold) (turn : Turn)
    (s : Conversations) : ∃ s', step memory turn s = some s' := by
  rw [step, RollingConversationMemory.add]
  by_cases hempty : turn.message.content = []
  · rw [if_pos hempty]
    exact ⟨_, rfl⟩
  · rw [if_neg hempty]
    dsimp only
    obtain ⟨result, hresult⟩ := RollingConversationMemory.compressFrom_ends hthreshold
      (Nat.lt_succ_self _)
    rw [RollingConversationMemory.addTo]
    dsimp only
    rw [RollingConversationMemory.compressIfNeeded, hresult]
    exact ⟨_, rfl⟩

/-- Where the window is below the threshold, all messages fit exactly if they fit into it. -/
theorem meets_fits_iff (hthreshold : 2 ≤ memory.compressThreshold)
    (hsmall : memory.windowSize < memory.compressThreshold) (turns : List Turn)
    (s : Conversations) :
    Runs.Meets (step memory) (Fits memory) turns s ↔
      ∀ c, addedIn c turns ≠ [] →
        (addedIn c s.added).length + (addedIn c turns).length ≤ memory.windowSize := by
  induction turns generalizing s with
  | nil => exact ⟨fun _ c hne => absurd rfl hne, fun _ => trivial⟩
  | cons turn turns ih =>
    obtain ⟨s', hs'⟩ := step_total hthreshold turn s
    have hsplit (c : Text) : addedIn c (turn :: turns) = addedIn c [turn] ++ addedIn c turns :=
      addedIn_append c [turn] turns
    have hadded (c : Text) : addedIn c s'.added = addedIn c s.added ++ addedIn c [turn] := by
      rw [added_step hs', addedIn_append]
    constructor
    · intro ⟨hfits, hmeets⟩ c hne
      have hlater := (ih s').mp (hmeets s' hs') c
      rw [hadded, List.length_append] at hlater
      rw [hsplit, List.length_append]
      by_cases hnone : addedIn c turns = []
      · rw [hsplit, hnone, List.append_nil] at hne
        obtain ⟨rfl, hcontent⟩ := addedIn_singleton hne
        have hroom := (hfits.resolve_left (by omega)).resolve_left hcontent
        rw [hnone, length_addedIn_singleton hcontent, List.length_nil]
        omega
      · have hroom := hlater hnone
        omega
    · intro hroom
      refine ⟨?_, fun s'' hs'' => ?_⟩
      · by_cases hcontent : turn.message.content = []
        · exact Or.inr (Or.inl hcontent)
        · refine Or.inr (Or.inr ?_)
          have hone := length_addedIn_singleton hcontent
          have hle := hroom turn.conversationId (by
            rw [hsplit, ← List.length_pos_iff, List.length_append, hone]
            omega)
          rw [hsplit, List.length_append, hone] at hle
          omega
      · obtain rfl := Option.some.inj (hs'.symm.trans hs'')
        refine (ih s').mpr fun c hne => ?_
        have hle := hroom c (by
          rw [hsplit]
          exact List.append_ne_nil_of_right_ne_nil _ hne)
        rw [hsplit, List.length_append] at hle
        rw [hadded, List.length_append]
        omega

/-- **All along a run every message of every conversation is in its window or named in a
snapshot that was created for it exactly if the window is at least the threshold or no
conversation gets more messages than its window has.** -/
theorem kept_iff (memory : RollingConversationMemory) (turns : List Turn) :
    Runs.Always (step memory) (Conversations.Kept memory) turns {} ↔
      memory.compressThreshold ≤ memory.windowSize ∨
        ∀ c, (addedIn c turns).length ≤ memory.windowSize := by
  by_cases hwindow : memory.compressThreshold ≤ memory.windowSize
  · refine iff_of_true ?_ (Or.inl hwindow)
    refine Runs.always_of_meets (C := Fits memory) (I := fun s => ∀ c, Exact memory c s)
      (fun s hs => Exact.kept hs) (fun s turn s' hs hfits hstep => exact_step hs hfits hstep)
      exact_empty ?_
    exact Runs.meets_of_keeps (I := fun _ => True) (fun _ _ _ _ _ => trivial)
      (fun _ _ _ => Or.inl hwindow) turns trivial
  · have hsmall : memory.windowSize < memory.compressThreshold := not_le.mp hwindow
    have hthreshold : 2 ≤ memory.compressThreshold := by
      have hpos := memory.window_pos
      omega
    obtain ⟨t, hrun⟩ := Runs.run_total (step_total hthreshold) turns ({} : Conversations)
    rw [or_iff_right hwindow, Runs.always_iff_meets (I := fun s => ∀ c, Exact memory c s)
      (fun s hs => Exact.kept hs) (fun s turn s' hs hfits hstep => exact_step hs hfits hstep)
      (fun s turn s' hs hfits hstep => not_kept_step hs hfits hstep) exact_empty hrun,
      meets_fits_iff hthreshold hsmall]
    refine forall_congr' fun c => ?_
    constructor
    · intro h
      by_cases hnone : addedIn c turns = []
      · rw [hnone]
        exact Nat.zero_le _
      · exact (Nat.zero_add _).symm.trans_le (h hnone)
    · intro h _
      exact (Nat.zero_add _).trans_le h

end Run

/-- No message of a window is empty. -/
theorem content_of_run {turns : List Turn} {s : Conversations}
    (hrun : Runs.run (step memory) turns {} = some s) :
    ∀ c, ∀ message ∈ s.live c, message.content ≠ [] := by
  refine Runs.run_keeps (I := fun s => ∀ c, ∀ message ∈ s.live c, message.content ≠ [])
    (fun s turn s' hs hstep => ?_) (fun c => nofun) hrun
  intro c message hmessage
  by_cases hempty : turn.message.content = []
  · obtain ⟨-, hstate, -⟩ := step_empty hstep hempty
    rw [Conversations.live, hstate] at hmessage
    exact hs c message hmessage
  · obtain ⟨created, haddTo, -, hothers, -⟩ := step_nonempty hstep hempty
    by_cases hc : c = turn.conversationId
    · subst hc
      have hmem := (RollingConversationMemory.addTo_suffix haddTo).subset hmessage
      obtain hold | hnew := List.mem_append.mp hmem
      · exact hs _ message hold
      · rwa [List.mem_singleton.mp hnew]
    · rw [Conversations.live, hothers c hc] at hmessage
      exact hs c message hmessage

/-! ## The default settings -/

/-- The defaults of `MemoryConfig`, with plain digests. -/
def defaultMemory : RollingConversationMemory :=
  .init 20 8 30 (fun text => text.length) (fun _ => ([], [])) id

/-- Messages that differ. -/
def chatter (n : Nat) : List Turn :=
  (List.range n).map fun i =>
    { conversationId := "c1".toList, message := { content := natText i } }

/-- Of 21 messages the first is neither in the window nor in a snapshot. -/
theorem first_message_lost :
    ¬ ∀ (memory : RollingConversationMemory) (turns : List Turn) (s : Conversations),
      Runs.run (step memory) turns {} = some s →
        ∀ c, ∀ message ∈ addedIn c s.added,
          message ∈ s.live c ∨
            ∃ snapshot ∈ s.createdFor c, memory.messageId message ∈ snapshot.messageIds := by
  intro h
  have hfirst := h defaultMemory (chatter 21) _ rfl "c1".toList { content := "0".toList }
    (by decide)
  obtain hlive | ⟨snapshot, hsnapshot, -⟩ := hfirst
  · exact absurd hlive (by decide)
  · cases hsnapshot

end OpenWrtCopilot.Ports.RagMemory
