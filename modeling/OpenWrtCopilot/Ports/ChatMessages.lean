import Mathlib.Data.List.Sort
import OpenWrtCopilot.Verified.PyText

/-!
# The chat store

Ports `ChatStore`.  Turns are appended with the next id and the database's clock, which
may stand still or go back.  `get_messages` filters by session and owner, orders by
`(created_at, id)` ascending and then limits, so a long conversation is cut at its end.

## Main results

* `getMessages_mostRecent_iff` — the turns read are the most recent ones exactly if the
  limit covers the conversation.
* `latest_read_iff` — where the clock never went back, the turn stored last is read
  exactly under the same condition.
-/

namespace OpenWrtCopilot.Ports.ChatMessages

open Verified.PyText

/-! ## Turns -/

/-- `ChatMessageRecord`. -/
structure ChatMessageRecord where
  id : Nat
  sessionId : Text
  owner : Option Text
  role : Text
  content : Text
  provider : Option Text
  model : Option Text
  createdAt : Int
  deriving DecidableEq, Repr

/-- The columns a caller of `add_message` gives. -/
structure NewTurn where
  sessionId : Text
  owner : Option Text
  role : Text
  content : Text
  provider : Option Text := none
  model : Option Text := none
  deriving DecidableEq, Repr

/-- `ORDER BY created_at ASC, id ASC`. -/
def chronological (a b : ChatMessageRecord) : Bool :=
  a.createdAt < b.createdAt || (a.createdAt = b.createdAt && a.id ≤ b.id)

theorem chronological_iff {a b : ChatMessageRecord} :
    chronological a b = true ↔
      a.createdAt < b.createdAt ∨ a.createdAt = b.createdAt ∧ a.id ≤ b.id := by
  simp [chronological]

/-! ## The store -/

/-- The `chat_messages` table, in the order of insertion.  Turns are never deleted, so
ids increase. -/
structure ChatStore where
  records : List ChatMessageRecord
  lastId : Nat
  ids_increase : (records.map (·.id)).Pairwise (· < ·)
  ids_le : ∀ r ∈ records, r.id ≤ lastId

def ChatStore.empty : ChatStore where
  records := []
  lastId := 0
  ids_increase := List.Pairwise.nil
  ids_le := nofun

/-- The row `add_message` inserts. -/
def ChatStore.rowOf (s : ChatStore) (turn : NewTurn) (now : Int) : ChatMessageRecord where
  id := s.lastId + 1
  sessionId := turn.sessionId
  owner := turn.owner
  role := turn.role
  content := turn.content
  provider := turn.provider
  model := turn.model
  createdAt := now

/-- `add_message`, with the clock's reading as `created_at`. -/
def ChatStore.addMessage (s : ChatStore) (turn : NewTurn) (now : Int) : ChatStore where
  records := s.records ++ [s.rowOf turn now]
  lastId := s.lastId + 1
  ids_increase := by
    rw [List.map_append, List.pairwise_append]
    refine ⟨s.ids_increase, List.pairwise_singleton _ _, ?_⟩
    intro a ha b hb
    obtain ⟨r, hr, rfl⟩ := List.mem_map.mp ha
    obtain rfl : b = s.lastId + 1 := List.mem_singleton.mp hb
    have := s.ids_le r hr
    omega
  ids_le := by
    intro r hr
    obtain hold | hnew := List.mem_append.mp hr
    · have := s.ids_le r hold
      omega
    · obtain rfl := List.mem_singleton.mp hnew
      exact Nat.le_refl _

@[simp] theorem ChatStore.records_addMessage (s : ChatStore) (turn : NewTurn) (now : Int) :
    (s.addMessage turn now).records = s.records ++ [s.rowOf turn now] := rfl

theorem ChatStore.records_nodup (s : ChatStore) : s.records.Nodup := by
  refine List.Nodup.of_map (·.id) ?_
  exact s.ids_increase.imp fun h => Nat.ne_of_lt h

/-! ## Reading a conversation -/

/-- The turns of one session and owner, as they were stored. -/
def ChatStore.turnsOf (s : ChatStore) (sessionId : Text) (owner : Option Text) :
    List ChatMessageRecord :=
  s.records.filter fun r => r.sessionId = sessionId ∧ r.owner = owner

/-- They in chronological order. -/
def ChatStore.conversation (s : ChatStore) (sessionId : Text) (owner : Option Text) :
    List ChatMessageRecord :=
  (s.turnsOf sessionId owner).mergeSort chronological

/-- The default of `limit`. -/
def defaultLimit : Nat := 50

/-- `get_messages`. -/
def ChatStore.getMessages (s : ChatStore) (sessionId : Text) (owner : Option Text)
    (limit : Nat := defaultLimit) : List ChatMessageRecord :=
  ((s.records.filter fun r => r.sessionId = sessionId ∧ r.owner = owner).mergeSort
    chronological).take limit

/-- The turn of the conversation that was stored last. -/
def ChatStore.latest (s : ChatStore) (sessionId : Text) (owner : Option Text) :
    Option ChatMessageRecord :=
  (s.turnsOf sessionId owner).getLast?

/-- The turns read are the most recent ones of the conversation, in chronological order,
and the one stored last is among them. -/
def MostRecent (s : ChatStore) (sessionId : Text) (owner : Option Text)
    (read : List ChatMessageRecord) : Prop :=
  read <:+ s.conversation sessionId owner ∧ ∀ r, s.latest sessionId owner = some r → r ∈ read

section Reading

variable {s : ChatStore} {sessionId : Text} {owner : Option Text}

theorem getMessages_eq_take (limit : Nat) :
    s.getMessages sessionId owner limit = (s.conversation sessionId owner).take limit := rfl

theorem conversation_perm : (s.conversation sessionId owner).Perm (s.turnsOf sessionId owner) :=
  List.mergeSort_perm _ _

theorem conversation_nodup : (s.conversation sessionId owner).Nodup :=
  conversation_perm.nodup_iff.mpr (s.records_nodup.filter _)

theorem mem_turnsOf {r : ChatMessageRecord} :
    r ∈ s.turnsOf sessionId owner ↔
      r ∈ s.records ∧ r.sessionId = sessionId ∧ r.owner = owner := by
  rw [ChatStore.turnsOf, List.mem_filter, decide_eq_true_iff]

/-- What is read belongs to the session and the owner. -/
theorem mem_getMessages {limit : Nat} {r : ChatMessageRecord}
    (hr : r ∈ s.getMessages sessionId owner limit) :
    r ∈ s.records ∧ r.sessionId = sessionId ∧ r.owner = owner :=
  mem_turnsOf.mp (conversation_perm.mem_iff.mp (List.mem_of_mem_take hr))

theorem latest_mem {r : ChatMessageRecord} (h : s.latest sessionId owner = some r) :
    r ∈ s.conversation sessionId owner :=
  conversation_perm.mem_iff.mpr (List.mem_of_getLast? h)

end Reading

/-! ## Which end is kept -/

/-- A beginning of a list without repetitions is also its end only if it is all of it. -/
theorem take_suffix_iff {α : Type} {l : List α} {n : Nat} (hnodup : l.Nodup) (hn : 0 < n) :
    l.take n <:+ l ↔ l.length ≤ n := by
  constructor
  · intro ⟨front, hfront⟩
    cases front with
    | nil =>
      have hlength := congrArg List.length hfront
      rw [List.nil_append, List.length_take] at hlength
      omega
    | cons x front =>
      -- the first element would stand in the front and in the end
      cases l with
      | nil => exact Nat.zero_le n
      | cons y rest =>
        obtain ⟨m, rfl⟩ := Nat.exists_eq_succ_of_ne_zero (Nat.ne_of_gt hn)
        rw [List.take_succ_cons, List.cons_append, List.cons_eq_cons] at hfront
        obtain ⟨rfl, hrest⟩ := hfront
        have hagain : x ∈ rest := by
          rw [← hrest]
          exact List.mem_append_right front List.mem_cons_self
        exact absurd hagain (List.nodup_cons.mp hnodup).1
  · intro hle
    have hall : l.take n = l := List.take_of_length_le hle
    exact ⟨[], hall⟩

/-- **`get_messages` reads the most recent turns exactly of a conversation its limit
covers.** -/
theorem getMessages_mostRecent_iff {s : ChatStore} {sessionId : Text} {owner : Option Text}
    {limit : Nat} (hlimit : 0 < limit) :
    MostRecent s sessionId owner (s.getMessages sessionId owner limit) ↔
      (s.turnsOf sessionId owner).length ≤ limit := by
  rw [← conversation_perm.length_eq]
  constructor
  · intro ⟨hsuffix, _⟩
    exact (take_suffix_iff conversation_nodup hlimit).mp hsuffix
  · intro hle
    refine ⟨(take_suffix_iff conversation_nodup hlimit).mpr hle, ?_⟩
    intro r hr
    rw [getMessages_eq_take, List.take_of_length_le hle]
    exact latest_mem hr

/-! ## A clock that never goes back -/

/-- The clock's readings as the turns were stored. -/
def ChatStore.Timely (s : ChatStore) : Prop :=
  s.records.Pairwise fun a b => a.createdAt ≤ b.createdAt

instance (s : ChatStore) : Decidable s.Timely := by
  unfold ChatStore.Timely
  infer_instance

/-- Then chronological order is the order of insertion. -/
theorem conversation_of_timely {s : ChatStore} (h : s.Timely) (sessionId : Text)
    (owner : Option Text) : s.conversation sessionId owner = s.turnsOf sessionId owner := by
  refine List.mergeSort_of_pairwise (List.Pairwise.filter _ ?_)
  have hids : s.records.Pairwise fun a b => a.id < b.id := List.pairwise_map.mp s.ids_increase
  refine (h.and hids).imp ?_
  intro a b ⟨htime, hid⟩
  rw [chronological_iff]
  omega

/-- Then the turn stored last is read exactly if the limit covers the conversation. -/
theorem latest_read_iff {s : ChatStore} (h : s.Timely) {sessionId : Text} {owner : Option Text}
    {limit : Nat} {r : ChatMessageRecord} (hr : s.latest sessionId owner = some r) :
    r ∈ s.getMessages sessionId owner limit ↔ (s.turnsOf sessionId owner).length ≤ limit := by
  have hconversation := conversation_of_timely h sessionId owner
  have hnodup : (s.turnsOf sessionId owner).Nodup := s.records_nodup.filter _
  rw [getMessages_eq_take, hconversation]
  obtain ⟨front, hfront⟩ := List.getLast?_eq_some_iff.mp hr
  constructor
  · intro hread
    by_contra hlong
    rw [hfront, List.length_append, List.length_singleton] at hlong
    rw [hfront, List.take_append_of_le_length (by omega)] at hread
    rw [hfront] at hnodup
    exact (List.nodup_append.mp hnodup).2.2 r (List.mem_of_mem_take hread) r
      (List.mem_singleton_self r) rfl
  · intro hle
    rw [List.take_of_length_le hle]
    exact List.mem_of_getLast? hr

end OpenWrtCopilot.Ports.ChatMessages
