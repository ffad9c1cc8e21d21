import Mathlib.Data.Rat.Defs
import OpenWrtCopilot.Verified.PyDict
import OpenWrtCopilot.Verified.PyText

/-!
# Token accounts of streams

Ports what `OpenAICompatibleProvider._stream` and `OllamaProvider._stream` record about a
stream of text: both count the characters of the chunks they pass on and record an estimate
when the generator is left, in whatever way.

## Main results

* `consume_spec` — what is counted is what was passed on.
* `digits_quarter_lt` — the number of digits stays far behind the number.
* `stream_tokens_iff` — when the record is that of the text.
-/

namespace OpenWrtCopilot.Ports.StreamUsage

open Verified
open Verified.PyDict (Dict get?)
open Verified.PyText

/-! ## Accounts -/

structure Usage where
  promptTokens : Nat := 0
  completionTokens : Nat := 0
  deriving DecidableEq

/-- `TokenUsage`; costs are exact here. -/
structure TokenUsage where
  promptTokens : Nat := 0
  completionTokens : Nat := 0
  calls : Nat := 0
  errors : Nat := 0
  costUsd : Rat := 0
  byCapability : Dict Text Usage := []
  deriving DecidableEq

/-- `merge`. -/
def TokenUsage.merge (capability : Text) (usage : Usage) (t : TokenUsage) : TokenUsage :=
  let bucket := (get? capability t.byCapability).getD {}
  { t with
    promptTokens := t.promptTokens + usage.promptTokens
    completionTokens := t.completionTokens + usage.completionTokens
    calls := t.calls + 1
    byCapability := PyDict.set capability
      { promptTokens := bucket.promptTokens + usage.promptTokens
        completionTokens := bucket.completionTokens + usage.completionTokens }
      t.byCapability }

/-- The prices of a provider. -/
structure Prices where
  costPer1kPrompt : Rat
  costPer1kCompletion : Rat

/-- `_cost`. -/
def Prices.cost (prices : Prices) (usage : Usage) : Rat :=
  usage.promptTokens / 1000 * prices.costPer1kPrompt +
    usage.completionTokens / 1000 * prices.costPer1kCompletion

/-- `estimate_tokens`. -/
def estimateTokens (text : Text) : Nat := max 1 (text.length / 4)

/-! ## Streams -/

/-- What a generator meets: a chunk that it passes on, an `Exception` of the transport, or the
end of its consumer's interest (`GeneratorExit` or a cancellation, which `except Exception`
does not catch). -/
inductive Event where
  | chunk (delta : Text)
  | fail
  | abandon

/-- The loop: how many characters were counted, and whether an exception was seen.  The
stream ends where the events do. -/
def consume (completionChars : Nat) : List Event → Nat × Bool
  | [] => (completionChars, false)
  | .chunk delta :: events => consume (completionChars + delta.length) events
  | .fail :: _ => (completionChars, true)
  | .abandon :: _ => (completionChars, false)

/-- The text that was passed on. -/
def delivered : List Event → Text
  | .chunk delta :: events => delta ++ delivered events
  | _ => []

def streamCapability : Text := "stream".toList

/-- The `finally` block, for an estimate made of the number of characters. -/
def record (estimate : Nat → Nat) (prices : Prices) (promptTokens : Nat) (events : List Event)
    (t : TokenUsage) : TokenUsage :=
  let (completionChars, failed) := consume 0 events
  let usage : Usage :=
    { promptTokens := promptTokens, completionTokens := estimate completionChars }
  let t := t.merge streamCapability usage
  let t := { t with costUsd := t.costUsd + prices.cost usage }
  if failed then { t with errors := t.errors + 1 } else t

/-- A generator that is never asked for a chunk does nothing. -/
def run (finish : List Event → TokenUsage → TokenUsage) (events : Option (List Event))
    (t : TokenUsage) : TokenUsage :=
  match events with
  | none => t
  | some events => finish events t

/-- `OpenAICompatibleProvider._stream`; the contents are those of the messages, where they are
texts. -/
def compatStream (prices : Prices) (contents : List (Option Text)) :
    Option (List Event) → TokenUsage → TokenUsage :=
  run (record (fun completionChars => estimateTokens (natText completionChars)) prices
    (estimateTokens (contents.map (·.getD [])).flatten))

/-- `OllamaProvider._stream`, which reads the prompt tokens from the last line. -/
def ollamaStream (prices : Prices) (promptTokens : Nat) :
    Option (List Event) → TokenUsage → TokenUsage :=
  run (record (fun completionChars => max 1 (completionChars / 4)) prices promptTokens)

/-! ## What should be recorded -/

/-- The completion tokens of a stream are those of the text that was passed on, and cost
what they cost; the other adapter records the same. -/
def MetersRight (prices : Prices) (contents : List (Option Text)) (promptTokens : Nat)
    (events : Option (List Event)) : Prop :=
  ∀ t : TokenUsage,
    let text := (events.map delivered).getD []
    let usage : Usage :=
      { promptTokens := estimateTokens (contents.map (·.getD [])).flatten
        completionTokens := estimateTokens text }
    (compatStream prices contents events t).completionTokens =
      t.completionTokens + estimateTokens text ∧
    (compatStream prices contents events t).costUsd = t.costUsd + prices.cost usage ∧
    (compatStream prices contents events t).completionTokens =
      (ollamaStream prices promptTokens events t).completionTokens

theorem consume_spec (events : List Event) (n : Nat) :
    (consume n events).1 = n + (delivered events).length := by
  induction events generalizing n with
  | nil => rfl
  | cons event events ih =>
    cases event with
    | chunk delta =>
      rw [consume, ih, delivered, List.length_append, Nat.add_assoc]
    | fail => rfl
    | abandon => rfl

theorem completionTokens_record (estimate : Nat → Nat) (prices : Prices) (promptTokens : Nat)
    (events : List Event) (t : TokenUsage) :
    (record estimate prices promptTokens events t).completionTokens =
      t.completionTokens + estimate (delivered events).length := by
  have hcount := consume_spec events 0
  rw [Nat.zero_add] at hcount
  rw [record]
  dsimp only
  rw [hcount]
  cases (consume 0 events).2 with
  | true => rfl
  | false => rfl

theorem costUsd_record (estimate : Nat → Nat) (prices : Prices) (promptTokens : Nat)
    (events : List Event) (t : TokenUsage) :
    (record estimate prices promptTokens events t).costUsd =
      t.costUsd + prices.cost
        { promptTokens := promptTokens
          completionTokens := estimate (delivered events).length } := by
  have hcount := consume_spec events 0
  rw [Nat.zero_add] at hcount
  rw [record]
  dsimp only
  rw [hcount]
  cases (consume 0 events).2 with
  | true => rfl
  | false => rfl

/-! ## Digits for characters -/

/-- The number of digits stays far behind the number. -/
theorem digits_quarter_lt {n : Nat} (h : 8 ≤ n) : (natText n).length / 4 < n / 4 := by
  have hdigits : (natText n).length ≤ 4 * (n / 4) - 1 := by
    refine (Nat.length_toDigits_le_iff (by decide) (by omega)).mpr ?_
    obtain ⟨m, hm⟩ : ∃ m, 4 * (n / 4) - 1 = m + 1 := ⟨4 * (n / 4) - 2, by omega⟩
    have hgrow : m < 10 ^ m := Nat.lt_pow_self (by decide)
    rw [hm, Nat.pow_succ]
    omega
  omega

theorem estimate_digits_iff (n : Nat) :
    estimateTokens (natText n) = max 1 (n / 4) ↔ n < 8 := by
  rw [estimateTokens]
  constructor
  · intro heq
    by_contra hlarge
    have hless := digits_quarter_lt (Nat.le_of_not_lt hlarge)
    omega
  · intro hsmall
    have hone : (natText n).length ≤ 1 :=
      (Nat.length_toDigits_le_iff (by decide) (by decide)).mpr (by omega)
    omega

/--
**The completion tokens recorded for a stream are those of the text that was passed on if
and only if the stream was begun and the text has fewer than eight characters.**
-/
theorem stream_tokens_iff (prices : Prices) (contents : List (Option Text)) (promptTokens : Nat)
    (events : Option (List Event)) :
    MetersRight prices contents promptTokens events ↔
      ∃ met, events = some met ∧ (delivered met).length < 8 := by
  constructor
  · intro hright
    obtain ⟨htokens, _, hsame⟩ := hright {}
    cases events with
    | none => cases htokens
    | some met =>
      refine ⟨met, rfl, (estimate_digits_iff _).mp ?_⟩
      have hrecord := completionTokens_record
        (fun completionChars => estimateTokens (natText completionChars)) prices
        (estimateTokens (contents.map (·.getD [])).flatten) met {}
      exact Nat.add_left_cancel (hrecord.symm.trans htokens)
  · rintro ⟨met, rfl, hshort⟩ t
    have hestimate := (estimate_digits_iff _).mpr hshort
    have hrecord := completionTokens_record
      (fun completionChars => estimateTokens (natText completionChars)) prices
      (estimateTokens (contents.map (·.getD [])).flatten) met t
    have hcost := costUsd_record
      (fun completionChars => estimateTokens (natText completionChars)) prices
      (estimateTokens (contents.map (·.getD [])).flatten) met t
    have hollama := completionTokens_record
      (fun completionChars => max 1 (completionChars / 4)) prices promptTokens met t
    rw [hestimate] at hrecord hcost
    exact ⟨hrecord, hcost, hrecord.trans hollama.symm⟩

section Examples

def hundred : List Event := [.chunk (List.replicate 100 'x')]

/-- **A reply of a hundred characters is recorded as one token, and by the other adapter as
twenty-five.** -/
theorem hundred_characters :
    (compatStream ⟨0, 0⟩ [] (some hundred) {}).completionTokens = 1 ∧
    (ollamaStream ⟨0, 0⟩ 0 (some hundred) {}).completionTokens = 25 ∧
    estimateTokens (delivered hundred) = 25 ∧
    ¬∀ prices contents promptTokens met,
      MetersRight prices contents promptTokens (some met) := by
  refine ⟨by rfl, by rfl, by rfl, fun hall => ?_⟩
  have htokens := (hall ⟨0, 0⟩ [] 0 hundred {}).1
  exact absurd htokens (by decide)

end Examples

end OpenWrtCopilot.Ports.StreamUsage
