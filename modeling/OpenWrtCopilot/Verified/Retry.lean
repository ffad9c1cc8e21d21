import OpenWrtCopilot.Verified.Fallible

/-!
# Retrying after transient failures

`retry transient cleanup attempt n` makes an attempt and, as long as it fails
transiently, cleans up and makes up to `n` more; the last failure is raised, and
so is the first failure that is not transient.

What a retried computation did to the outside is read off a log.  An attempt
adds at most one entry, and if it fails transiently the entry it added, if any,
is one whose answer was lost.  Then all entries but the last were lost.

## Main results

* `retry_log` — what a retried computation adds to the log.
-/

namespace OpenWrtCopilot.Verified.Retry

open Verified

variable {ε σ α ι : Type}

/-- Up to `n` further attempts after transient failures. -/
def retry (transient : ε → Bool) (cleanup : Fallible ε σ Unit) (attempt : Fallible ε σ α) :
    Nat → Fallible ε σ α
  | 0 => Fallible.attempt attempt fun e =>
      if transient e then do
        cleanup
        Fallible.raise e
      else Fallible.raise e
  | n + 1 => Fallible.attempt attempt fun e =>
      if transient e then do
        cleanup
        retry transient cleanup attempt n
      else Fallible.raise e

/-- A computation that leaves the log alone. -/
def Silent (log : σ → List ι) (m : Fallible ε σ α) : Prop := ∀ s, log (m s).2 = log s

/-- An attempt: at most one entry, of the kind `P`, and lost if the attempt
fails transiently. -/
def Attempts (transient : ε → Bool) (log : σ → List ι) (P lost : ι → Prop)
    (m : Fallible ε σ α) : Prop :=
  ∀ s, ∃ new, log (m s).2 = log s ++ new ∧ new.length ≤ 1 ∧ (∀ i ∈ new, P i) ∧
    ∀ e, (m s).1 = .error e → transient e = true → ∀ i ∈ new, lost i

theorem Silent.bind {β : Type} {log : σ → List ι} {m : Fallible ε σ α}
    {f : α → Fallible ε σ β} (hm : Silent log m) (hf : ∀ a, Silent log (f a)) :
    Silent log (m >>= f) := by
  intro s
  have hfirst := hm s
  cases hrun : m s with
  | mk result s' =>
    rw [hrun] at hfirst
    cases result with
    | ok a =>
      rw [Fallible.bind_of_ok hrun, hf a s']
      exact hfirst
    | error e =>
      rw [Fallible.bind_of_error hrun]
      exact hfirst

/-- A silent beginning does not count. -/
theorem Attempts.of_silent_bind {β : Type} {transient : ε → Bool} {log : σ → List ι}
    {P lost : ι → Prop} {m : Fallible ε σ α} {f : α → Fallible ε σ β} (hm : Silent log m)
    (hf : ∀ a, Attempts transient log P lost (f a)) :
    Attempts transient log P lost (m >>= f) := by
  intro s
  have hfirst := hm s
  cases hrun : m s with
  | mk result s' =>
    rw [hrun] at hfirst
    cases result with
    | ok a =>
      rw [Fallible.bind_of_ok hrun, ← hfirst]
      exact hf a s'
    | error e =>
      rw [Fallible.bind_of_error hrun]
      refine ⟨[], by rw [List.append_nil]; exact hfirst, Nat.zero_le 1, ?_, ?_⟩
      · intro i hi
        cases hi
      · intro e _ _ i hi
        cases hi

/-- A computation that passes a failure on after a silent cleanup. -/
private theorem log_handler {transient : ε → Bool} {log : σ → List ι}
    {cleanup : Fallible ε σ Unit} (hcleanup : Silent log cleanup) (e : ε) (s : σ) :
    log ((if transient e then (do cleanup; Fallible.raise e : Fallible ε σ α)
      else Fallible.raise e) s).2 = log s := by
  by_cases htransient : transient e = true
  · rw [if_pos htransient]
    exact Silent.bind (f := fun _ => (Fallible.raise e : Fallible ε σ α)) hcleanup
      (fun _ _ => rfl) s
  · rw [if_neg htransient]
    rfl

/--
**What retrying adds to the log.**

At most one entry for each of the `n + 1` attempts, and every entry before the
last one was lost.
-/
theorem retry_log {transient : ε → Bool} {log : σ → List ι} {P lost : ι → Prop}
    {cleanup : Fallible ε σ Unit} {attempt : Fallible ε σ α} (hcleanup : Silent log cleanup)
    (hattempt : Attempts transient log P lost attempt) (n : Nat) (s : σ) :
    ∃ new, log (retry transient cleanup attempt n s).2 = log s ++ new ∧
      new.length ≤ n + 1 ∧ (∀ i ∈ new, P i) ∧ ∀ i ∈ new.dropLast, lost i := by
  have hsingle : ∀ new : List ι, new.length ≤ 1 → ∀ i ∈ new.dropLast, lost i := by
    intro new hlen i hi
    have hnil : new.dropLast = [] :=
      List.length_eq_zero_iff.mp (by rw [List.length_dropLast]; omega)
    rw [hnil] at hi
    cases hi
  induction n generalizing s with
  | zero =>
    obtain ⟨new, hlog, hlen, hP, _⟩ := hattempt s
    refine ⟨new, ?_, hlen, hP, hsingle new hlen⟩
    cases hrun : attempt s with
    | mk result s' =>
      rw [hrun] at hlog
      cases result with
      | ok a =>
        rw [retry, Fallible.attempt_of_ok hrun]
        exact hlog
      | error e =>
        rw [retry, Fallible.attempt_of_error hrun, log_handler hcleanup]
        exact hlog
  | succ n ih =>
    obtain ⟨new, hlog, hlen, hP, hlost⟩ := hattempt s
    cases hrun : attempt s with
    | mk result s' =>
      rw [hrun] at hlog hlost
      cases result with
      | ok a =>
        rw [retry, Fallible.attempt_of_ok hrun]
        exact ⟨new, hlog, by omega, hP, hsingle new hlen⟩
      | error e =>
        rw [retry, Fallible.attempt_of_error hrun]
        by_cases htransient : transient e = true
        · rw [if_pos htransient]
          have hnewLost : ∀ i ∈ new, lost i := hlost e rfl htransient
          have hclean := hcleanup s'
          cases hcleanRun : cleanup s' with
          | mk cleaned s'' =>
            rw [hcleanRun] at hclean
            cases cleaned with
            | error e' =>
              rw [Fallible.bind_of_error hcleanRun]
              exact ⟨new, hclean.trans hlog, by omega, hP, hsingle new hlen⟩
            | ok u =>
              rw [Fallible.bind_of_ok hcleanRun]
              obtain ⟨more, hmore, hmoreLen, hmoreP, hmoreLost⟩ := ih s''
              refine ⟨new ++ more, ?_, ?_, ?_, ?_⟩
              · rw [hmore, hclean, hlog, List.append_assoc]
              · rw [List.length_append]
                omega
              · intro i hi
                rcases List.mem_append.mp hi with h | h
                · exact hP i h
                · exact hmoreP i h
              · intro i hi
                by_cases hempty : more = []
                · rw [hempty, List.append_nil] at hi
                  exact hnewLost i (List.dropLast_subset new hi)
                · rw [List.dropLast_append_of_ne_nil hempty] at hi
                  rcases List.mem_append.mp hi with h | h
                  · exact hnewLost i h
                  · exact hmoreLost i h
        · rw [if_neg htransient]
          exact ⟨new, hlog, by omega, hP, hsingle new hlen⟩

end OpenWrtCopilot.Verified.Retry
