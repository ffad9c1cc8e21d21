import Mathlib.Tactic.Positivity
import OpenWrtCopilot.Ports.RagMemory

/-!
# Bounds of a conversation's memory

Says what `RollingConversationMemory` keeps within bounds.  The loop of `_compress_if_needed` takes
half of the threshold at a time, so that with a threshold of one it takes nothing and goes on for
ever; the token count is clamped at zero, and is too high from then on where an estimator counts
below it.

## Main results

* `counted_trim_iff`, `counted_compressFrom_iff` — when the token count stays that of the window.
* `bounded_step_iff` — when a message can be added and everything stays within its bounds.
* `bounded_iff` — the same for every sequence of messages.
* `add_never_ends` — a memory to which no message can be added.
-/

namespace OpenWrtCopilot.Ports.RagMemory

open Verified
open Verified.PyText

namespace RollingConversationMemory

variable (memory : RollingConversationMemory)

/-- The estimates of messages, added up. -/
def worth (messages : List Message) : Int :=
  (messages.map fun message => memory.estimate message.content).sum

/-- What the memory of a conversation keeps to. -/
structure Bounded (state : ConversationState) : Prop where
  tokens : state.tokenCount = memory.worth state.messages
  window : state.messages.length ≤ memory.windowSize
  snapshots : state.snapshots.length ≤ memory.maxSnapshots
  pending : 0 ≤ state.pendingTurns

/-- What is left whenever messages are dropped is worth something, or nothing. -/
structure Countable (state : ConversationState) (message : Message) : Prop where
  trimmed : ∀ left, left <:+ state.messages ++ [message] → memory.windowSize ≤ left.length →
    left.length ≤ state.messages.length → 0 ≤ memory.worth left
  folded : ∀ k : Nat,
    (memory.compressThreshold + k * memory.chunkSize : Int) ≤ state.pendingTurns + 1 →
    (k + 1) * memory.chunkSize ≤ min memory.windowSize (state.messages.length + 1) →
      0 ≤ memory.worth ((state.messages ++ [message]).drop
        (state.messages.length + 1 - memory.windowSize + (k + 1) * memory.chunkSize))

variable {memory}

theorem worth_cons (message : Message) (rest : List Message) :
    memory.worth (message :: rest) = memory.estimate message.content + memory.worth rest :=
  List.sum_cons

theorem worth_append (a b : List Message) :
    memory.worth (a ++ b) = memory.worth a + memory.worth b := by
  rw [worth, List.map_append, List.sum_append, worth, worth]

/-! ## The window -/

/-- What the token count is too high by is not made good by trimming. -/
theorem excess_trim (messages : List Message) (tokenCount : Int) :
    tokenCount - memory.worth messages ≤
      (memory.trim messages tokenCount).2 - memory.worth (memory.trim messages tokenCount).1 := by
  induction messages generalizing tokenCount with
  | nil => exact le_refl _
  | cons message rest ih =>
    rw [trim]
    split
    · refine le_trans ?_ (ih _)
      rw [worth_cons]
      omega
    · exact le_refl _

/-- **It stays that of the messages exactly if no messages are left that are worth less than
nothing.** -/
theorem counted_trim_iff (messages : List Message) :
    (memory.trim messages (memory.worth messages)).2 =
        memory.worth (memory.trim messages (memory.worth messages)).1 ↔
      ∀ left, left <:+ messages → memory.windowSize ≤ left.length →
        left.length < messages.length → 0 ≤ memory.worth left := by
  induction messages with
  | nil => exact iff_of_true rfl fun left _ _ hlength => absurd hlength (Nat.not_lt_zero _)
  | cons message rest ih =>
    rw [trim]
    by_cases hlong : memory.windowSize < rest.length + 1
    · rw [if_pos hlong, worth_cons, add_sub_cancel_left]
      have hsplit : (∀ left, left <:+ message :: rest → memory.windowSize ≤ left.length →
          left.length < (message :: rest).length → 0 ≤ memory.worth left) ↔
          0 ≤ memory.worth rest ∧ ∀ left, left <:+ rest → memory.windowSize ≤ left.length →
            left.length < rest.length → 0 ≤ memory.worth left := by
        constructor
        · intro h
          refine ⟨h rest (List.suffix_cons message rest) (by omega) (by simp), ?_⟩
          intro left hleft hwindow hlength
          exact h left (hleft.trans (List.suffix_cons message rest)) hwindow
            (hlength.trans (by simp))
        · rintro ⟨hrest, h⟩ left hleft hwindow hlength
          obtain rfl | hleft := List.suffix_cons_iff.mp hleft
          · exact absurd hlength (Nat.lt_irrefl _)
          · by_cases hshort : left.length < rest.length
            · exact h left hleft hwindow hshort
            · rwa [hleft.eq_of_length_le (Nat.not_lt.mp hshort)]
      rw [hsplit]
      by_cases hrest : 0 ≤ memory.worth rest
      · rw [max_eq_right hrest, ih]
        exact (and_iff_right hrest).symm
      · have hexcess := @excess_trim memory rest (max 0 (memory.worth rest))
        exact iff_of_false (by omega) fun h => hrest h.1
    · rw [if_neg hlong]
      refine iff_of_true rfl fun left hleft hwindow hlength => ?_
      rw [List.length_cons] at hlength
      omega

/-! ## The snapshots -/

section Compress

variable {state after : ConversationState} {created : List MemorySnapshot} {fuel : Nat}

theorem compress_tokenCount (state : ConversationState) :
    (memory.compress state).tokenCount =
      max 0 (state.tokenCount - memory.worth (state.messages.take memory.chunkSize)) := rfl

theorem compress_messages (h : memory.chunkSize ≤ state.messages.length) :
    (memory.compress state).messages = state.messages.drop memory.chunkSize := by
  rw [compress]
  dsimp only
  rw [List.length_take, Nat.min_eq_left h]

theorem compress_pendingTurns (h : memory.chunkSize ≤ state.messages.length) :
    (memory.compress state).pendingTurns = state.pendingTurns - memory.chunkSize := by
  rw [compress]
  dsimp only
  rw [List.length_take, Nat.min_eq_left h]

/-- What is taken away and what is left. -/
theorem worth_split (state : ConversationState) :
    memory.worth state.messages = memory.worth (state.messages.take memory.chunkSize) +
      memory.worth (state.messages.drop memory.chunkSize) := by
  rw [← worth_append, List.take_append_drop]

/-- What the token count is too high by is not made good by compressing. -/
theorem excess_compressFrom (h : memory.compressFrom fuel state = some (after, created)) :
    state.tokenCount - memory.worth state.messages ≤
      after.tokenCount - memory.worth after.messages := by
  induction fuel generalizing state created with
  | zero => cases h
  | succ fuel ih =>
    rw [compressFrom] at h
    split at h
    · next hfull =>
        obtain ⟨⟨after', created'⟩, hrest, hpair⟩ := Option.map_eq_some_iff.mp h
        obtain ⟨rfl, rfl⟩ := Prod.mk.inj hpair
        refine le_trans ?_ (ih hrest)
        rw [compress_messages hfull.2, compress_tokenCount]
        have hsplit := @worth_split memory state
        omega
    · obtain ⟨rfl, rfl⟩ := Prod.mk.inj (Option.some.inj h)
      exact le_refl _

/-- **It stays that of the messages exactly if no messages are left that are worth less than
nothing.** -/
theorem counted_compressFrom_iff (h : memory.compressFrom fuel state = some (after, created))
    (htokens : state.tokenCount = memory.worth state.messages) :
    after.tokenCount = memory.worth after.messages ↔
      ∀ k : Nat, (memory.compressThreshold + k * memory.chunkSize : Int) ≤ state.pendingTurns →
        (k + 1) * memory.chunkSize ≤ state.messages.length →
          0 ≤ memory.worth (state.messages.drop ((k + 1) * memory.chunkSize)) := by
  induction fuel generalizing state created with
  | zero => cases h
  | succ fuel ih =>
    rw [compressFrom] at h
    by_cases hfull : memory.compressThreshold ≤ state.pendingTurns ∧
        memory.chunkSize ≤ state.messages.length
    · rw [if_pos hfull] at h
      obtain ⟨⟨after', created'⟩, hrest, hpair⟩ := Option.map_eq_some_iff.mp h
      obtain ⟨rfl, rfl⟩ := Prod.mk.inj hpair
      have hsplit := @worth_split memory state
      have hindex (k : Nat) : memory.chunkSize + (k + 1) * memory.chunkSize =
          (k + 1 + 1) * memory.chunkSize := by
        rw [Nat.add_mul (k + 1) 1, Nat.one_mul, Nat.add_comm]
      by_cases hleft : 0 ≤ memory.worth (state.messages.drop memory.chunkSize)
      · have hcounted : (memory.compress state).tokenCount =
            memory.worth (memory.compress state).messages := by
          rw [compress_messages hfull.2, compress_tokenCount]
          omega
        rw [ih hrest hcounted, compress_messages hfull.2, compress_pendingTurns hfull.2]
        constructor
        · intro hlater k hpending hlength
          cases k with
          | zero => rwa [Nat.zero_add, Nat.one_mul]
          | succ k =>
            have hdrop := hlater k (by push_cast at hpending; linarith) (by
              rw [List.length_drop]
              rw [Nat.add_mul, Nat.one_mul] at hlength
              omega)
            rwa [List.drop_drop, hindex] at hdrop
        · intro hall k hpending hlength
          rw [List.length_drop] at hlength
          have hdrop := hall (k + 1) (by push_cast; linarith) (by
            rw [Nat.add_mul (k + 1), Nat.one_mul]
            omega)
          rwa [List.drop_drop, hindex]
      · have hexcess := excess_compressFrom hrest
        rw [compress_messages hfull.2, compress_tokenCount] at hexcess
        refine iff_of_false (by omega) fun hall => hleft ?_
        have hfirst := hall 0 (by simpa using hfull.1) (by simpa using hfull.2)
        rwa [Nat.zero_add, Nat.one_mul] at hfirst
    · rw [if_neg hfull] at h
      obtain ⟨rfl, rfl⟩ := Prod.mk.inj (Option.some.inj h)
      refine iff_of_true htokens fun k hpending hlength => absurd ⟨?_, ?_⟩ hfull
      · have hnonneg : (0 : Int) ≤ k * memory.chunkSize := by positivity
        omega
      · exact (Nat.le_mul_of_pos_left _ k.succ_pos).trans hlength

theorem length_snapshots_compressFrom
    (h : memory.compressFrom fuel state = some (after, created))
    (hsnapshots : state.snapshots.length ≤ memory.maxSnapshots) :
    after.snapshots.length ≤ memory.maxSnapshots := by
  induction fuel generalizing state created with
  | zero => cases h
  | succ fuel ih =>
    rw [compressFrom] at h
    split at h
    · obtain ⟨⟨after', created'⟩, hrest, hpair⟩ := Option.map_eq_some_iff.mp h
      obtain ⟨rfl, rfl⟩ := Prod.mk.inj hpair
      refine ih hrest ?_
      rw [compress]
      dsimp only
      rw [List.length_drop]
      omega
    · obtain ⟨rfl, rfl⟩ := Prod.mk.inj (Option.some.inj h)
      exact hsnapshots

theorem pendingTurns_compressFrom (h : memory.compressFrom fuel state = some (after, created))
    (hpending : 0 ≤ state.pendingTurns) : 0 ≤ after.pendingTurns := by
  induction fuel generalizing state created with
  | zero => cases h
  | succ fuel ih =>
    rw [compressFrom] at h
    split at h
    · next hfull =>
        obtain ⟨⟨after', created'⟩, hrest, hpair⟩ := Option.map_eq_some_iff.mp h
        obtain ⟨rfl, rfl⟩ := Prod.mk.inj hpair
        refine ih hrest ?_
        have hhalf : memory.chunkSize ≤ memory.compressThreshold := Nat.div_le_self _ _
        rw [compress_pendingTurns hfull.2]
        omega
    · obtain ⟨rfl, rfl⟩ := Prod.mk.inj (Option.some.inj h)
      exact hpending

end Compress

/-! ## One message -/

section Add

variable {state after : ConversationState} {message : Message} {created : List MemorySnapshot}

/-- A message that joins a conversation within its bounds leaves it so exactly if what is dropped
can be counted. -/
theorem bounded_addTo_iff (h : memory.Bounded state)
    (hadd : memory.addTo state message = some (after, created)) :
    memory.Bounded after ↔ memory.Countable state message := by
  have htotal : state.tokenCount + memory.estimate message.content =
      memory.worth (state.messages ++ [message]) := by
    rw [worth_append, h.tokens]
    simp [worth]
  rw [addTo, htotal] at hadd
  dsimp only at hadd
  rw [compressIfNeeded] at hadd
  have htrim := @counted_trim_iff memory (state.messages ++ [message])
  have hexcess := excess_compressFrom hadd
  dsimp only at hexcess
  have hmessages := @trim_fst memory (state.messages ++ [message])
    (memory.worth (state.messages ++ [message]))
  have hbounded : memory.Bounded after ↔ after.tokenCount = memory.worth after.messages := by
    refine ⟨fun h => h.tokens, fun htokens => ⟨htokens, ?_, ?_, ?_⟩⟩
    · refine (compressFrom_suffix hadd).length_le.trans ?_
      dsimp only
      rw [hmessages, List.length_drop]
      omega
    · exact length_snapshots_compressFrom hadd h.snapshots
    · exact pendingTurns_compressFrom hadd (Int.add_nonneg h.pending (by decide))
  rw [hbounded]
  by_cases htrimmed : (memory.trim (state.messages ++ [message])
      (memory.worth (state.messages ++ [message]))).2 = memory.worth (memory.trim
        (state.messages ++ [message]) (memory.worth (state.messages ++ [message]))).1
  · have hcompress := counted_compressFrom_iff hadd htrimmed
    dsimp only at hcompress
    rw [hmessages, List.length_drop] at hcompress
    rw [hcompress]
    rw [List.length_append, List.length_singleton] at hcompress htrim ⊢
    constructor
    · intro hfolded
      refine ⟨fun left hleft hwindow hlength => ?_, fun k hpending hlength => ?_⟩
      · exact htrim.mp htrimmed left hleft hwindow (Nat.lt_succ_of_le hlength)
      · rw [← List.drop_drop]
        exact hfolded k hpending (by omega)
    · intro hcountable k hpending hlength
      rw [List.drop_drop]
      exact hcountable.folded k hpending (by omega)
  · have hstrict := @excess_trim memory (state.messages ++ [message])
      (memory.worth (state.messages ++ [message]))
    refine iff_of_false (by omega) fun hcountable => htrimmed (htrim.mpr ?_)
    intro left hleft hwindow hlength
    rw [List.length_append, List.length_singleton] at hlength
    exact hcountable.trimmed left hleft hwindow (Nat.le_of_lt_succ hlength)

end Add

end RollingConversationMemory

/-! ## Runs -/

/-- Every conversation is within its bounds. -/
def Conversations.Bounded (memory : RollingConversationMemory) (s : Conversations) : Prop :=
  ∀ c, memory.Bounded (s.stateOf c)

/-- The message is empty, or half of the threshold is something and what is dropped can be
counted. -/
def Addable (memory : RollingConversationMemory) (s : Conversations) (turn : Turn) : Prop :=
  turn.message.content = [] ∨
    2 ≤ memory.compressThreshold ∧ memory.Countable (s.stateOf turn.conversationId) turn.message

/-- A message can be added, and everything stays within its bounds, exactly under this
condition. -/
theorem bounded_step_iff {memory : RollingConversationMemory} {s : Conversations} (turn : Turn)
    (h : s.Bounded memory) :
    (∃ s', step memory turn s = some s' ∧ s'.Bounded memory) ↔ Addable memory s turn := by
  by_cases hempty : turn.message.content = []
  · have hstep : ∃ s', step memory turn s = some s' := by
      rw [step, RollingConversationMemory.add, if_pos hempty]
      exact ⟨_, rfl⟩
    obtain ⟨s', hstep⟩ := hstep
    refine iff_of_true ⟨s', hstep, fun c => ?_⟩ (Or.inl hempty)
    rw [(step_empty hstep hempty).2.1 c]
    exact h c
  · rw [Addable, or_iff_right hempty]
    by_cases hthreshold : 2 ≤ memory.compressThreshold
    · rw [and_iff_right hthreshold]
      obtain ⟨s', hstep⟩ := step_total hthreshold turn s
      obtain ⟨created, hadd, -, hothers, -⟩ := step_nonempty hstep hempty
      rw [← RollingConversationMemory.bounded_addTo_iff (h turn.conversationId) hadd]
      constructor
      · rintro ⟨s'', hs'', hbounded⟩
        obtain rfl := Option.some.inj (hstep.symm.trans hs'')
        exact hbounded turn.conversationId
      · intro hbounded
        refine ⟨s', hstep, fun c => ?_⟩
        by_cases hc : c = turn.conversationId
        · exact hc ▸ hbounded
        · rw [hothers c hc]
          exact h c
    · refine iff_of_false ?_ fun hboth => hthreshold hboth.1
      rintro ⟨s', hstep, -⟩
      obtain ⟨created, hadd, -, -, -⟩ := step_nonempty hstep hempty
      have hone : memory.compressThreshold = 1 := by
        have hpos := memory.threshold_pos
        omega
      have hnone := RollingConversationMemory.compressFrom_one hone
      have hpending := (h turn.conversationId).pending
      rw [RollingConversationMemory.addTo] at hadd
      dsimp only at hadd
      rw [RollingConversationMemory.compressIfNeeded, hnone _ (by dsimp only; omega)] at hadd
      cases hadd

theorem bounded_empty (memory : RollingConversationMemory) :
    Conversations.Bounded memory {} :=
  fun _ => ⟨rfl, Nat.zero_le _, Nat.zero_le _, le_refl _⟩

/-- **All messages can be added, and every conversation stays within its bounds, exactly if for
each message that is not empty the threshold is at least two, and what is left whenever messages
are dropped is not worth less than nothing.** -/
theorem bounded_iff (windowSize maxSnapshots compressThreshold : Int) (estimate : Text → Int)
    (summarize : List Message → Text × List Text) (sha256 : Text → Text) (turns : List Turn) :
    Runs.Safely
        (step (.init windowSize maxSnapshots compressThreshold estimate summarize sha256))
        (Conversations.Bounded
          (.init windowSize maxSnapshots compressThreshold estimate summarize sha256))
        turns {} ↔
      Runs.Meets
        (step (.init windowSize maxSnapshots compressThreshold estimate summarize sha256))
        (Addable (.init windowSize maxSnapshots compressThreshold estimate summarize sha256))
        turns {} :=
  Runs.safely_iff_meets (fun _ turn h => bounded_step_iff turn h) (bounded_empty _)

/-- With a threshold of one no message can be added. -/
theorem add_never_ends :
    ¬ ∀ (windowSize maxSnapshots compressThreshold : Int) (estimate : Text → Int)
      (summarize : List Message → Text × List Text) (sha256 : Text → Text) (turns : List Turn),
      Runs.Safely
        (step (.init windowSize maxSnapshots compressThreshold estimate summarize sha256))
        (Conversations.Bounded
          (.init windowSize maxSnapshots compressThreshold estimate summarize sha256))
        turns {} := by
  intro h
  obtain ⟨s, hrun, -⟩ := h 20 8 1 (fun text => text.length) (fun _ => ([], [])) id
    [{ conversationId := "c1".toList, message := { content := "hello".toList } }] _
    (List.prefix_refl _)
  cases hrun

end OpenWrtCopilot.Ports.RagMemory
