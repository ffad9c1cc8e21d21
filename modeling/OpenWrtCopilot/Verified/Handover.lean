import Mathlib.Data.List.Nodup
import Mathlib.Data.List.Perm.Basic
import Mathlib.Data.List.Range

/-!
# Resources that replace one another

A program keeps one resource of a kind in place, and replaces it by a new one from time
to time.  Whoever replaces a resource has it in hand until it closes it.  The resources
are numbered in the order they are made.

## Main results

* `Accounted.replace`, `Accounted.drop`, `Accounted.close` — what a replacement and a
  closing do to the account.
* `Accounted.count_closed`, `Accounted.notMem_closed` — with nothing in hand, every
  resource but the one in place is closed once, and that one is not closed.
-/

namespace OpenWrtCopilot.Verified.Handover

/-- Every resource made so far is in one place: closed, in somebody's hand, or in place. -/
def Accounted (made : Nat) (closed inHand : List Nat) (current : Option Nat) : Prop :=
  List.Perm (closed ++ (inHand ++ current.toList)) (List.range made)

section

variable {made : Nat} {closed inHand : List Nat} {current : Option Nat}

theorem Accounted.perm {inHand' : List Nat} (h : Accounted made closed inHand current)
    (hperm : List.Perm inHand' inHand) : Accounted made closed inHand' current :=
  ((hperm.append_right _).append_left _).trans h

/-- The resource in place comes into the hand of the one who takes it away. -/
theorem Accounted.drop (h : Accounted made closed inHand current) :
    Accounted made closed (current.toList ++ inHand) none := by
  have hswap : List.Perm (current.toList ++ inHand) (inHand ++ current.toList) :=
    List.perm_append_comm
  refine List.Perm.trans (List.Perm.append_left closed ?_) h
  rw [Option.toList_none, List.append_nil]
  exact hswap

/-- A new resource in the place of the old one. -/
theorem Accounted.replace (h : Accounted made closed inHand current) :
    Accounted (made + 1) closed (current.toList ++ inHand) (some made) := by
  have hdropped := h.drop
  rw [Accounted, Option.toList_none, List.append_nil] at hdropped
  rw [Accounted, Option.toList_some, ← List.append_assoc, List.range_succ]
  exact hdropped.append_right [made]

theorem Accounted.close {x : Nat} (h : Accounted made closed (x :: inHand) current) :
    Accounted made (closed ++ [x]) inHand current := by
  rw [Accounted, List.append_assoc]
  exact h

/-- The first resource. -/
theorem accounted_one : Accounted 1 [] [] (some 0) := List.Perm.refl _

/-- No resource yet. -/
theorem accounted_none : Accounted 0 [] [] none := List.Perm.refl _

theorem Accounted.count_closed (h : Accounted made closed [] current) {x : Nat} (hx : x < made)
    (hcurrent : current ≠ some x) : closed.count x = 1 := by
  have hcount := h.count_eq x
  have hone : (List.range made).count x = 1 :=
    List.count_eq_one_of_mem List.nodup_range (List.mem_range.mpr hx)
  have hnone : current.toList.count x = 0 := by
    refine List.count_eq_zero_of_not_mem fun hmem => hcurrent ?_
    exact Option.mem_toList.mp hmem
  rw [List.nil_append, List.count_append, hnone, hone] at hcount
  omega

theorem Accounted.notMem_closed (h : Accounted made closed inHand current) {x : Nat}
    (hcurrent : current = some x) : x ∉ closed := by
  intro hmem
  have hnodup := h.nodup_iff.mpr List.nodup_range
  refine List.disjoint_of_nodup_append hnodup hmem (List.mem_append_right _ ?_)
  exact Option.mem_toList.mpr hcurrent

end

end OpenWrtCopilot.Verified.Handover
