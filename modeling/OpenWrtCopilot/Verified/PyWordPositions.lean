import OpenWrtCopilot.Verified.PyWords

/-!
# Words and where they begin

`wordsAt` splits a text as `words` does, and keeps the position of the first character of
each word.

## Main results

* `map_snd_wordsAt` — the words are those of `words`.
* `wordsAt_append` — positions in the second of two texts count on from the first.
* `range_of_mem_wordsAt` — the positions lie within the text.
-/

namespace OpenWrtCopilot.Verified.PyText

/-- The words of a text that begins at position `n`, each with the position of its first
character. -/
def wordsAt : Nat → Text → List (Nat × Text)
  | _, [] => []
  | n, c :: cs =>
      if isSpace c then wordsAt (n + 1) cs
      else
        match cs with
        | [] => [(n, [c])]
        | d :: _ =>
            if isSpace d then (n, [c]) :: wordsAt (n + 1) cs
            else
              match wordsAt (n + 1) cs with
              | [] => [(n, [c])]
              | (_, word) :: rest => (n, c :: word) :: rest

theorem wordsAt_cons_space {c : Char} (h : isSpace c = true) (n : Nat) (t : Text) :
    wordsAt n (c :: t) = wordsAt (n + 1) t := by
  rw [wordsAt.eq_def]
  exact if_pos h

theorem map_snd_wordsAt (n : Nat) (t : Text) : (wordsAt n t).map Prod.snd = words t := by
  induction t generalizing n with
  | nil => rfl
  | cons c t ih =>
    rw [wordsAt.eq_def, words.eq_def]
    dsimp only
    by_cases hc : isSpace c = true
    · rw [if_pos hc, if_pos hc]
      exact ih (n + 1)
    · rw [if_neg hc, if_neg hc]
      cases t with
      | nil => rfl
      | cons d t =>
        dsimp only
        by_cases hd : isSpace d = true
        · rw [if_pos hd, if_pos hd, List.map_cons, ih]
        · rw [if_neg hd, if_neg hd, ← ih (n + 1)]
          cases wordsAt (n + 1) (d :: t) with
          | nil => rfl
          | cons item rest => rfl

/-- A word that begins at the position where the text does. -/
theorem head?_wordsAt {c : Char} (hc : isSpace c = false) (n : Nat) (t : Text) :
    ∃ first rest, wordsAt n (c :: t) = (n, c :: first) :: rest := by
  rw [wordsAt.eq_def]
  dsimp only
  rw [if_neg (by rw [hc]; decide)]
  split
  · exact ⟨[], [], rfl⟩
  · split
    · exact ⟨[], _, rfl⟩
    · split
      · exact ⟨[], [], rfl⟩
      · exact ⟨_, _, rfl⟩

/-- Texts that are split separately, with the positions in the whole. -/
theorem wordsAt_append {a b : Text} (h : Between a b) (n : Nat) :
    wordsAt n (a ++ b) = wordsAt n a ++ wordsAt (n + a.length) b := by
  induction a generalizing n with
  | nil => rfl
  | cons c a ih =>
    cases a with
    | nil =>
      rw [List.singleton_append]
      cases hc : isSpace c with
      | true => rw [wordsAt_cons_space hc, wordsAt_cons_space hc, wordsAt, List.nil_append]; rfl
      | false =>
        cases b with
        | nil => exact (List.append_nil _).symm
        | cons d b =>
          have hd : isSpace d = true := (h c rfl d rfl).resolve_left (by simp [hc])
          simp [wordsAt, hc, hd]
    | cons d a =>
      have hlater := ih (fun e he => h e (by rwa [List.getLast?_cons_cons])) (n + 1)
      have hlength : n + 1 + (d :: a).length = n + (c :: d :: a).length := by
        rw [List.length_cons (a := c)]
        omega
      rw [hlength, List.cons_append] at hlater
      rw [List.cons_append, List.cons_append, wordsAt.eq_def, wordsAt.eq_def n (c :: d :: a)]
      dsimp only
      cases hc : isSpace c with
      | true => exact hlater
      | false =>
        rw [if_neg Bool.false_ne_true, if_neg Bool.false_ne_true, hlater]
        cases hd : isSpace d with
        | true => rfl
        | false =>
          obtain ⟨first, rest, hfirst⟩ := head?_wordsAt hd (n + 1) a
          simp [hfirst]

/-- The positions lie within the text. -/
theorem range_of_mem_wordsAt {n : Nat} {t : Text} {item : Nat × Text} (h : item ∈ wordsAt n t) :
    n ≤ item.1 ∧ item.1 < n + t.length := by
  induction t generalizing n with
  | nil => exact absurd h List.not_mem_nil
  | cons c t ih =>
    have hlater : item ∈ wordsAt (n + 1) t → n ≤ item.1 ∧ item.1 < n + (c :: t).length := by
      intro hmem
      have hrange := ih hmem
      rw [List.length_cons]
      omega
    have hhere : item.1 = n → n ≤ item.1 ∧ item.1 < n + (c :: t).length := by
      intro heq
      rw [List.length_cons]
      omega
    rw [wordsAt.eq_def] at h
    dsimp only at h
    split at h
    · exact hlater h
    · split at h
      · exact hhere (by rw [List.mem_singleton.mp h])
      · split at h
        · obtain rfl | hrest := List.mem_cons.mp h
          · exact hhere rfl
          · exact hlater hrest
        · split at h
          · exact hhere (by rw [List.mem_singleton.mp h])
          · next hrest =>
              obtain rfl | hmem := List.mem_cons.mp h
              · exact hhere rfl
              · exact hlater (hrest ▸ List.mem_cons_of_mem _ hmem)

end OpenWrtCopilot.Verified.PyText
