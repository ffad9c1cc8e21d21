import Mathlib.Data.List.Forall2
import Mathlib.Data.List.Nodup
import Mathlib.Data.List.Range
import Mathlib.Data.List.Perm.Subperm
import OpenWrtCopilot.Verified.Chunks

/-!
# Answers to a list that is sent in pieces

A list is cut into pieces of `size` elements, and each piece is answered by a list of
values, each under the index of the element it is for.  A client that puts the values of
all answers together as they come ought to have one value for each element of the list, in
its order.

## Main results

* `aligned_iff` — it has exactly if every answer holds as many values as its piece has
  elements, in the order of the piece.
-/

namespace OpenWrtCopilot.Verified.Batches

open Verified.Chunks

variable {α ν : Type}

/-- The values of an answer, each under its index. -/
abbrev Answer (ν : Type) := List (Int × ν)

/-- The answer holds a value under the index. -/
def Produced (answer : Answer ν) (i : Nat) (v : ν) : Prop := ((i : Int), v) ∈ answer

/-- The values of an answer, as they come. -/
def values (answer : Answer ν) : List ν := answer.map Prod.snd

/-- As many values as elements, and at each place the one under its index. -/
structure Ordered (count : Nat) (answer : Answer ν) : Prop where
  length : answer.length = count
  value : ∀ i, i < count → ∃ v, (values answer)[i]? = some v ∧ Produced answer i v

/-- One value for each element, and for each the one of its piece's answer. -/
structure Aligned (size count : Nat) (answers : List (Answer ν)) (result : List ν) : Prop where
  length : result.length = count
  value : ∀ p, p < count → ∃ answer v, answers[p / size]? = some answer ∧
    result[p]? = some v ∧ Produced answer (p % size) v

/-- An answer with a value under each index holds that many. -/
theorem le_length_of_produced {count : Nat} {answer : Answer ν}
    (h : ∀ i, i < count → ∃ v, Produced answer i v) : count ≤ answer.length := by
  have hsubset : (List.range count).map Int.ofNat ⊆ answer.map Prod.fst := by
    intro x hx
    obtain ⟨i, hi, rfl⟩ := List.mem_map.mp hx
    obtain ⟨v, hv⟩ := h i (List.mem_range.mp hi)
    exact List.mem_map.mpr ⟨_, hv, rfl⟩
  have hnodup : ((List.range count).map Int.ofNat).Nodup :=
    List.nodup_range.map fun _ _ => Int.ofNat.inj
  have hlength := (hnodup.subperm hsubset).length_le
  rwa [List.length_map, List.length_map, List.length_range] at hlength

@[simp] theorem length_values (answer : Answer ν) : (values answer).length = answer.length :=
  List.length_map _

/-! ## The first piece and the rest -/

theorem div_mod_later {size p : Nat} (hsize : 0 < size) (hp : size ≤ p) :
    p / size = (p - size) / size + 1 ∧ p % size = (p - size) % size := by
  obtain ⟨k, rfl⟩ := Nat.exists_eq_add_of_le hp
  rw [Nat.add_sub_cancel_left, Nat.add_div_left _ hsize, Nat.add_mod_left]
  exact ⟨rfl, rfl⟩

/-- Answers that cover every element hold as many values. -/
theorem le_length_of_covered {size : Nat} (hsize : 0 < size) (texts : List α)
    {answers : List (Answer ν)}
    (h : ∀ p, p < texts.length → ∃ answer v, answers[p / size]? = some answer ∧
      Produced answer (p % size) v) :
    texts.length ≤ (answers.flatMap values).length := by
  induction texts using chunks_induction hsize generalizing answers with
  | nil => exact Nat.zero_le _
  | step texts htexts ih =>
    have hpos : 0 < texts.length := List.length_pos_iff.mpr htexts
    cases answers with
    | nil =>
      obtain ⟨answer, v, hanswer, _⟩ := h 0 hpos
      cases hanswer
    | cons first rest =>
      have hfirst : min size texts.length ≤ first.length := by
        refine le_length_of_produced fun i hi => ?_
        obtain ⟨answer, v, hanswer, hv⟩ := h i (by omega)
        rw [Nat.div_eq_of_lt (by omega)] at hanswer
        obtain rfl := Option.some.inj hanswer
        rw [Nat.mod_eq_of_lt (by omega)] at hv
        exact ⟨v, hv⟩
      have hrest : (texts.drop size).length ≤ (rest.flatMap values).length := by
        refine ih fun p hp => ?_
        rw [List.length_drop] at hp
        obtain ⟨answer, v, hanswer, hv⟩ := h (p + size) (by omega)
        rw [Nat.add_div_right _ hsize] at hanswer
        rw [Nat.add_mod_right] at hv
        exact ⟨answer, v, hanswer, hv⟩
      rw [List.length_drop] at hrest
      rw [List.flatMap_cons, List.length_append, length_values]
      omega

theorem aligned_cons_iff {size : Nat} (hsize : 0 < size) (texts : List α)
    (first : Answer ν) (rest : List (Answer ν)) :
    Aligned size texts.length (first :: rest) ((first :: rest).flatMap values) ↔
      Ordered (texts.take size).length first ∧
        Aligned size (texts.drop size).length rest (rest.flatMap values) := by
  rw [List.flatMap_cons, List.length_take, List.length_drop]
  constructor
  · intro haligned
    have hlength := haligned.length
    rw [List.length_append, length_values] at hlength
    have hfirst : min size texts.length ≤ first.length := by
      refine le_length_of_produced fun i hi => ?_
      obtain ⟨answer, v, hanswer, _, hv⟩ := haligned.value i (by omega)
      rw [Nat.div_eq_of_lt (by omega)] at hanswer
      obtain rfl := Option.some.inj hanswer
      rw [Nat.mod_eq_of_lt (by omega)] at hv
      exact ⟨v, hv⟩
    have hrest : texts.length - size ≤ (rest.flatMap values).length := by
      rw [← List.length_drop]
      refine le_length_of_covered hsize (texts.drop size) fun p hp => ?_
      rw [List.length_drop] at hp
      obtain ⟨answer, v, hanswer, _, hv⟩ := haligned.value (p + size) (by omega)
      rw [Nat.add_div_right _ hsize] at hanswer
      rw [Nat.add_mod_right] at hv
      exact ⟨answer, v, hanswer, hv⟩
    -- neither holds more values than its elements, since together they hold no more
    have hcount : first.length = min size texts.length := by omega
    refine ⟨⟨hcount, ?_⟩, ⟨by omega, ?_⟩⟩
    · intro i hi
      obtain ⟨answer, v, hanswer, hvalue, hv⟩ := haligned.value i (by omega)
      rw [Nat.div_eq_of_lt (by omega)] at hanswer
      obtain rfl := Option.some.inj hanswer
      rw [Nat.mod_eq_of_lt (by omega)] at hv
      rw [List.getElem?_append_left (by rw [length_values]; omega)] at hvalue
      exact ⟨v, hvalue, hv⟩
    · intro p hp
      obtain ⟨answer, v, hanswer, hvalue, hv⟩ := haligned.value (p + size) (by omega)
      rw [Nat.add_div_right _ hsize] at hanswer
      rw [Nat.add_mod_right] at hv
      have hlater : (values first).length = size := by
        rw [length_values]
        omega
      rw [List.getElem?_append_right (by omega), hlater, Nat.add_sub_cancel] at hvalue
      exact ⟨answer, v, hanswer, hvalue, hv⟩
  · intro ⟨hordered, haligned⟩
    have hfirst := hordered.length
    have hrest := haligned.length
    constructor
    · rw [List.length_append, length_values]
      omega
    · intro p hp
      by_cases hearly : p < size
      · obtain ⟨v, hvalue, hv⟩ := hordered.value p (by omega)
        refine ⟨first, v, ?_, ?_, ?_⟩
        · rw [Nat.div_eq_of_lt hearly]
          rfl
        · rw [List.getElem?_append_left (by rw [length_values]; omega)]
          exact hvalue
        · rw [Nat.mod_eq_of_lt hearly]
          exact hv
      · obtain ⟨hdiv, hmod⟩ := div_mod_later hsize (show size ≤ p by omega)
        obtain ⟨answer, v, hanswer, hvalue, hv⟩ := haligned.value (p - size) (by omega)
        have hlater : (values first).length = size := by
          rw [length_values]
          omega
        refine ⟨answer, v, ?_, ?_, ?_⟩
        · rw [hdiv]
          exact hanswer
        · rw [List.getElem?_append_right (by omega), hlater]
          exact hvalue
        · rw [hmod]
          exact hv

/-! ## All pieces -/

/-- **The values put together are aligned with the elements exactly if every answer is
ordered as its piece.** -/
theorem aligned_iff {size : Nat} (hsize : 0 < size) (texts : List α) {answers : List (Answer ν)}
    (hlength : answers.length = (chunks size texts).length) :
    Aligned size texts.length answers (answers.flatMap values) ↔
      List.Forall₂ (fun piece answer => Ordered piece.length answer) (chunks size texts)
        answers := by
  induction texts using chunks_induction hsize generalizing answers with
  | nil =>
    rw [chunks_nil] at hlength ⊢
    obtain rfl := List.length_eq_zero_iff.mp hlength
    exact iff_of_true ⟨rfl, nofun⟩ .nil
  | step texts htexts ih =>
    rw [chunks_of_ne_nil hsize htexts] at hlength ⊢
    obtain ⟨first, rest, rfl⟩ := List.exists_cons_of_length_eq_add_one hlength
    rw [aligned_cons_iff hsize texts, List.forall₂_cons, ih (Nat.succ.inj hlength)]

end OpenWrtCopilot.Verified.Batches
