import OpenWrtCopilot.Verified.PyText

/-!
# Occurrences as whole words

Where a phrase occurs in a text such that neither end of it is in the middle of a word, whatever
the characters of words are.

## Main results

* `wholeWords_iff` — a run over the text finds these occurrences.
* `WholeWords.isInfix` — the phrase occurs in the text.
-/

namespace OpenWrtCopilot.Verified

open PyText

section

variable (isWord : Char → Bool)

/-- There is no character of a word here. -/
def Boundary (neighbour : Option Char) : Prop := ∀ c ∈ neighbour, isWord c = false

/-- The phrase occurs in the text between two boundaries. -/
def WholeWords (phrase text : Text) : Prop :=
  ∃ before after, text = before ++ phrase ++ after ∧
    Boundary isWord before.getLast? ∧ Boundary isWord after.head?

instance (neighbour : Option Char) : Decidable (Boundary isWord neighbour) := by
  unfold Boundary
  infer_instance

/-- The phrase starts the text and ends at a boundary. -/
def Starts (phrase text : Text) : Prop :=
  phrase <+: text ∧ Boundary isWord (text.drop phrase.length).head?

instance (phrase text : Text) : Decidable (Starts isWord phrase text) :=
  inferInstanceAs (Decidable (_ ∧ _))

/-- Whether the phrase occurs in the text, which follows this character. -/
def wholeWordsAfter (phrase : Text) : Option Char → Text → Bool
  | neighbour, [] => decide (Boundary isWord neighbour ∧ Starts isWord phrase [])
  | neighbour, c :: text =>
      decide (Boundary isWord neighbour ∧ Starts isWord phrase (c :: text)) ||
        wholeWordsAfter phrase (some c) text

end

variable {isWord : Char → Bool} {phrase text : Text}

theorem starts_iff :
    Starts isWord phrase text ↔ ∃ after, text = phrase ++ after ∧ Boundary isWord after.head? := by
  constructor
  · rintro ⟨⟨after, rfl⟩, hafter⟩
    rw [List.drop_left] at hafter
    exact ⟨after, rfl, hafter⟩
  · rintro ⟨after, rfl, hafter⟩
    refine ⟨List.prefix_append _ _, ?_⟩
    rw [List.drop_left]
    exact hafter

theorem wholeWordsAfter_iff (neighbour : Option Char) :
    wholeWordsAfter isWord phrase neighbour text = true ↔
      ∃ before after, text = before ++ phrase ++ after ∧
        Boundary isWord (before.getLast?.or neighbour) ∧ Boundary isWord after.head? := by
  have hhere : ∀ (neighbour : Option Char) (t : Text),
      Boundary isWord neighbour ∧ Starts isWord phrase t ↔
        ∃ after, t = [] ++ phrase ++ after ∧
          Boundary isWord (([] : Text).getLast?.or neighbour) ∧ Boundary isWord after.head? := by
    intro neighbour t
    rw [starts_iff, List.getLast?_nil, Option.none_or, List.nil_append]
    exact ⟨fun ⟨h, after, ht, hafter⟩ => ⟨after, ht, h, hafter⟩,
      fun ⟨after, ht, h, hafter⟩ => ⟨h, after, ht, hafter⟩⟩
  induction text generalizing neighbour with
  | nil =>
    rw [wholeWordsAfter, decide_eq_true_iff, hhere]
    constructor
    · exact fun h => ⟨[], h⟩
    · rintro ⟨before, after, htext, h⟩
      have hnil : before = [] := by
        rw [List.append_assoc] at htext
        exact (List.append_eq_nil_iff.mp htext.symm).1
      rw [hnil] at htext h
      exact ⟨after, htext, h⟩
  | cons c text ih =>
    rw [wholeWordsAfter, Bool.or_eq_true, decide_eq_true_iff]
    refine (or_congr (hhere _ _) (ih (some c))).trans ?_
    constructor
    · rintro (⟨after, htext, h⟩ | ⟨before, after, htext, hbefore, hafter⟩)
      · exact ⟨[], after, htext, h⟩
      · refine ⟨c :: before, after, by rw [htext]; rfl, ?_, hafter⟩
        rwa [List.getLast?_cons, Option.some_or, ← Option.or_some]
    · rintro ⟨before, after, htext, hbefore, hafter⟩
      cases before with
      | nil => exact Or.inl ⟨after, htext, hbefore, hafter⟩
      | cons first before =>
        rw [List.cons_append, List.cons_append, List.cons.injEq] at htext
        obtain ⟨rfl, htext⟩ := htext
        refine Or.inr ⟨before, after, htext, ?_, hafter⟩
        rwa [List.getLast?_cons, Option.some_or, ← Option.or_some] at hbefore

/-- **A run over the text finds the occurrences.** -/
theorem wholeWords_iff :
    wholeWordsAfter isWord phrase none text = true ↔ WholeWords isWord phrase text := by
  rw [wholeWordsAfter_iff, WholeWords]
  simp only [Option.or_none]

instance : Decidable (WholeWords isWord phrase text) := decidable_of_iff _ wholeWords_iff

theorem WholeWords.isInfix (h : WholeWords isWord phrase text) : phrase <:+: text := by
  obtain ⟨before, after, htext, _, _⟩ := h
  exact ⟨before, after, htext.symm⟩

end OpenWrtCopilot.Verified
