import Mathlib.Algebra.BigOperators.Group.List.Basic
import Mathlib.Algebra.Order.Ring.Int
import Mathlib.Data.List.Infix
import Mathlib.Tactic.Linarith

/-!
# Longest suffixes and prefixes

What is left of a list when elements are dropped from its front, or from its back, until a
condition holds; and the latest elements whose total cost is within a budget.

## Main results

* `longest_unique` — the longest suffix is the only one that meets the condition, if it is not
  empty, and is as long as any that does.
* `longest_longest` — conditions that are met by all suffixes of what meets them can be imposed
  one after the other.
* `latest_eq_longest` — collecting from the back as long as the budget allows.
* `latest_latest`, `latest_min_eq_iff` — two budgets one after the other, and when the second
  makes no difference.
-/

namespace OpenWrtCopilot.Verified.Suffixes

variable {α : Type}

/-- Elements are dropped from the front until the condition holds or none is left. -/
def longest (p : List α → Prop) [DecidablePred p] : List α → List α
  | [] => []
  | x :: rest => if p (x :: rest) then x :: rest else longest p rest

/-- Elements are dropped from the back. -/
def longestPrefix (p : List α → Prop) [DecidablePred p] (l : List α) : List α :=
  (longest (fun r => p r.reverse) l.reverse).reverse

/-- Every suffix of what meets the condition meets it. -/
def Closed (p : List α → Prop) : Prop := ∀ s l, s <:+ l → p l → p s

section Longest

variable {p q : List α → Prop} [DecidablePred p] [DecidablePred q] {l s : List α}

theorem longest_suffix (p : List α → Prop) [DecidablePred p] (l : List α) :
    longest p l <:+ l := by
  induction l with
  | nil => exact List.suffix_rfl
  | cons x rest ih =>
    rw [longest]
    split
    · exact List.suffix_rfl
    · exact ih.trans (List.suffix_cons x rest)

theorem longest_of_holds (h : p l) : longest p l = l := by
  cases l with
  | nil => rfl
  | cons x rest => rw [longest, if_pos h]

/-- What is left meets the condition, unless nothing is left. -/
theorem longest_holds (h : longest p l ≠ []) : p (longest p l) := by
  induction l with
  | nil => exact absurd rfl h
  | cons x rest ih =>
    rw [longest] at h ⊢
    split
    · assumption
    · rename_i hnot
      rw [if_neg hnot] at h
      exact ih h

theorem length_le_longest (hsuffix : s <:+ l) (h : p s) : s.length ≤ (longest p l).length := by
  induction l with
  | nil => exact hsuffix.length_le
  | cons x rest ih =>
    rw [longest]
    split
    · exact hsuffix.length_le
    · rename_i hnot
      obtain rfl | hrest := List.suffix_cons_iff.mp hsuffix
      · exact absurd h hnot
      · exact ih hrest

theorem eq_of_suffix {t : List α} (hs : s <:+ l) (ht : t <:+ l) (h : s.length = t.length) :
    s = t :=
  (List.suffix_of_suffix_length_le hs ht h.le).eq_of_length h

/-- The longest suffix that meets a condition is determined by it. -/
theorem longest_unique (hsuffix : s <:+ l) (hholds : s ≠ [] → p s)
    (hlongest : ∀ t, t <:+ l → p t → t.length ≤ s.length) : longest p l = s := by
  refine eq_of_suffix (longest_suffix p l) hsuffix (le_antisymm ?_ ?_)
  · by_cases hnil : longest p l = []
    · rw [hnil]
      exact Nat.zero_le _
    · exact hlongest _ (longest_suffix p l) (longest_holds hnil)
  · by_cases hnil : s = []
    · rw [hnil]
      exact Nat.zero_le _
    · exact length_le_longest hsuffix (hholds hnil)

theorem longest_congr (h : ∀ s, s <:+ l → s ≠ [] → (p s ↔ q s)) : longest p l = longest q l := by
  induction l with
  | nil => rfl
  | cons x rest ih =>
    have hhere := h (x :: rest) List.suffix_rfl (List.cons_ne_nil x rest)
    rw [longest, longest, ih fun s hs => h s (hs.trans (List.suffix_cons x rest))]
    by_cases hp : p (x :: rest)
    · rw [if_pos hp, if_pos (hhere.mp hp)]
    · rw [if_neg hp, if_neg fun hq => hp (hhere.mpr hq)]

/-- One condition after the other. -/
theorem longest_longest (hclosed : Closed q) :
    longest p (longest q l) = longest (fun s => p s ∧ q s) l := by
  refine (longest_unique ?_ ?_ ?_).symm
  · exact (longest_suffix p _).trans (longest_suffix q l)
  · intro hne
    have hq : longest q l ≠ [] := by
      intro hnil
      rw [hnil] at hne
      exact hne rfl
    exact ⟨longest_holds hne, hclosed _ _ (longest_suffix p _) (longest_holds hq)⟩
  · intro t ht ⟨hp, hq⟩
    have hle := length_le_longest ht hq
    exact length_le_longest (List.suffix_of_suffix_length_le ht (longest_suffix q l) hle) hp

theorem longestPrefix_prefix (p : List α → Prop) [DecidablePred p] (l : List α) :
    longestPrefix p l <+: l := by
  rw [longestPrefix, ← List.reverse_suffix, List.reverse_reverse]
  exact longest_suffix _ _

theorem longestPrefix_of_holds (h : p l) : longestPrefix p l = l := by
  rw [longestPrefix, longest_of_holds, List.reverse_reverse]
  rwa [List.reverse_reverse]

theorem longestPrefix_holds (h : longestPrefix p l ≠ []) : p (longestPrefix p l) := by
  rw [longestPrefix] at h ⊢
  exact longest_holds fun hnil => h (by rw [hnil, List.reverse_nil])

theorem length_le_longestPrefix (hpre : s <+: l) (h : p s) :
    s.length ≤ (longestPrefix p l).length := by
  have hle := length_le_longest (p := fun r => p r.reverse) (List.reverse_suffix.mpr hpre)
    (by rwa [List.reverse_reverse])
  rw [longestPrefix, List.length_reverse]
  rwa [List.length_reverse] at hle

end Longest

/-! ## Budgets -/

section Budget

variable {cost : α → Int} {budget total : Int} {l s : List α}

def totalCost (cost : α → Int) (l : List α) : Int := (l.map cost).sum

@[simp] theorem totalCost_nil (cost : α → Int) : totalCost cost [] = 0 := rfl

theorem totalCost_cons (cost : α → Int) (x : α) (l : List α) :
    totalCost cost (x :: l) = cost x + totalCost cost l := by
  rw [totalCost, List.map_cons, List.sum_cons, totalCost]

theorem totalCost_append (cost : α → Int) (l m : List α) :
    totalCost cost (l ++ m) = totalCost cost l + totalCost cost m := by
  rw [totalCost, List.map_append, List.sum_append, totalCost, totalCost]

theorem totalCost_reverse (cost : α → Int) (l : List α) :
    totalCost cost l.reverse = totalCost cost l := by
  induction l with
  | nil => rfl
  | cons x l ih =>
    rw [List.reverse_cons, totalCost_append, ih, totalCost_cons, totalCost_cons, totalCost_nil]
    omega

theorem totalCost_nonneg (hcost : ∀ x, 0 ≤ cost x) (l : List α) : 0 ≤ totalCost cost l := by
  induction l with
  | nil => exact le_refl 0
  | cons x l ih =>
    have hx := hcost x
    rw [totalCost_cons]
    omega

theorem closed_within (hcost : ∀ x, 0 ≤ cost x) (budget : Int) :
    Closed fun l => totalCost cost l ≤ budget := by
  intro s l ⟨before, hl⟩ hwithin
  have hbefore := totalCost_nonneg hcost before
  rw [← hl, totalCost_append] at hwithin
  omega

/-- Elements are collected until one does not fit. -/
def keepWhile (cost : α → Int) (budget : Int) : Int → List α → List α
  | _, [] => []
  | total, x :: rest =>
      if budget < total + cost x then []
      else x :: keepWhile cost budget (total + cost x) rest

/-- The latest elements that fit. -/
def latest (cost : α → Int) (budget : Int) (l : List α) : List α :=
  (keepWhile cost budget 0 l.reverse).reverse

theorem keepWhile_prefix (cost : α → Int) (budget total : Int) (l : List α) :
    keepWhile cost budget total l <+: l := by
  induction l generalizing total with
  | nil => exact List.prefix_rfl
  | cons x rest ih =>
    rw [keepWhile]
    split
    · exact List.nil_prefix
    · exact (List.cons_prefix_cons).mpr ⟨rfl, ih _⟩

theorem keepWhile_within (h : keepWhile cost budget total l ≠ []) :
    total + totalCost cost (keepWhile cost budget total l) ≤ budget := by
  induction l generalizing total with
  | nil => exact absurd rfl h
  | cons x rest ih =>
    rw [keepWhile] at h ⊢
    split
    · rename_i hover
      rw [if_pos hover] at h
      exact absurd rfl h
    · rename_i hfits
      rw [totalCost_cons]
      by_cases hnil : keepWhile cost budget (total + cost x) rest = []
      · rw [hnil, totalCost_nil]
        omega
      · have hrest := ih hnil
        omega

theorem prefix_keepWhile (hcost : ∀ x, 0 ≤ cost x) (hpre : s <+: l)
    (hwithin : total + totalCost cost s ≤ budget) : s <+: keepWhile cost budget total l := by
  induction l generalizing total s with
  | nil => exact hpre
  | cons x rest ih =>
    cases s with
    | nil => exact List.nil_prefix
    | cons y s =>
      obtain ⟨rfl, hrest⟩ := List.cons_prefix_cons.mp hpre
      have hs := totalCost_nonneg hcost s
      rw [totalCost_cons] at hwithin
      rw [keepWhile, if_neg (by omega)]
      exact List.cons_prefix_cons.mpr ⟨rfl, ih hrest (by omega)⟩

/-- Collecting from the back gives the longest suffix within the budget. -/
theorem latest_eq_longest (hcost : ∀ x, 0 ≤ cost x) (budget : Int) (l : List α) :
    latest cost budget l = longest (fun s => totalCost cost s ≤ budget) l := by
  refine (longest_unique ?_ ?_ ?_).symm
  · rw [latest, ← List.reverse_prefix, List.reverse_reverse]
    exact keepWhile_prefix cost budget 0 l.reverse
  · intro hne
    rw [latest, totalCost_reverse]
    have hwithin := keepWhile_within fun hnil => hne (by rw [latest, hnil, List.reverse_nil])
    rwa [Int.zero_add] at hwithin
  · intro t ht hwithin
    have hpre : t.reverse <+: keepWhile cost budget 0 l.reverse :=
      prefix_keepWhile hcost (List.reverse_prefix.mpr ht)
        (by rwa [Int.zero_add, totalCost_reverse])
    have hle := hpre.length_le
    rw [List.length_reverse] at hle
    rwa [latest, List.length_reverse]

/-- A longest suffix whose total cost is within the budget. -/
structure IsLatest (cost : α → Int) (budget : Int) (l s : List α) : Prop where
  suffix : s <:+ l
  within : totalCost cost s ≤ budget
  longest : ∀ t, t <:+ l → totalCost cost t ≤ budget → t.length ≤ s.length

theorem latest_isLatest (hcost : ∀ x, 0 ≤ cost x) (hbudget : 0 ≤ budget) (l : List α) :
    IsLatest cost budget l (latest cost budget l) := by
  rw [latest_eq_longest hcost]
  refine ⟨longest_suffix _ l, ?_, fun t ht hwithin => length_le_longest ht hwithin⟩
  by_cases hnil : longest (fun s => totalCost cost s ≤ budget) l = []
  · rw [hnil]
    exact hbudget
  · exact longest_holds hnil

/-- There is one only. -/
theorem isLatest_iff (hcost : ∀ x, 0 ≤ cost x) (hbudget : 0 ≤ budget) :
    IsLatest cost budget l s ↔ s = latest cost budget l := by
  constructor
  · intro h
    rw [latest_eq_longest hcost]
    exact (longest_unique h.suffix (fun _ => h.within) h.longest).symm
  · intro h
    rw [h]
    exact latest_isLatest hcost hbudget l

/-- Two budgets, one after the other, are the smaller one. -/
theorem latest_latest (hcost : ∀ x, 0 ≤ cost x) (b c : Int) (l : List α) :
    latest cost c (latest cost b l) = latest cost (min b c) l := by
  rw [latest_eq_longest hcost, latest_eq_longest hcost, latest_eq_longest hcost,
    longest_longest (closed_within hcost b)]
  refine longest_congr fun s _ _ => ?_
  rw [le_min_iff, and_comm]

/-- A smaller budget makes no difference exactly if it is enough. -/
theorem latest_min_eq_iff (hcost : ∀ x, 0 ≤ cost x) {b c : Int} (hb : 0 ≤ b) (hc : 0 ≤ c)
    (l : List α) :
    latest cost (min b c) l = latest cost b l ↔ totalCost cost (latest cost b l) ≤ c := by
  have hlatest := latest_isLatest hcost hb l
  constructor
  · intro heq
    have hwithin := (latest_isLatest hcost (le_min hb hc) l).within
    rw [heq] at hwithin
    exact hwithin.trans (min_le_right b c)
  · intro hwithin
    refine ((isLatest_iff hcost (le_min hb hc)).mp ⟨hlatest.suffix, ?_, ?_⟩).symm
    · exact le_min hlatest.within hwithin
    · intro t ht hle
      exact hlatest.longest t ht (hle.trans (min_le_left b c))

/-- Nothing is collected if the last element does not fit. -/
theorem latest_eq_nil_iff (cost : α → Int) (budget : Int) (l : List α) :
    latest cost budget l = [] ↔ ∀ x ∈ l.getLast?, budget < cost x := by
  rw [latest, List.reverse_eq_nil_iff, ← List.head?_reverse]
  cases l.reverse with
  | nil => exact iff_of_true rfl nofun
  | cons x rest =>
    rw [keepWhile, Int.zero_add]
    by_cases hover : budget < cost x
    · rw [if_pos hover]
      exact iff_of_true rfl fun y hy => Option.some.inj hy ▸ hover
    · rw [if_neg hover]
      exact iff_of_false (List.cons_ne_nil _ _) fun h => hover (h x rfl)

end Budget

end OpenWrtCopilot.Verified.Suffixes
