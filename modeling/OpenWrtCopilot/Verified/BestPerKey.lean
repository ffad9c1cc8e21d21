import Mathlib.Order.Lattice
import OpenWrtCopilot.Verified.PyDict

/-!
# The best item of each key

A loop that keeps one item for each key, the one of the largest rank: a dictionary holds the best
item so far, and a list the keys in the order in which they first appeared.  Of two items of one
rank the later one is kept.

## Main results

* `kept_bestItems` — the items that are kept are there once for each key, in the order of first
  appearance, and none has an item of its key above it.
* `Best.snoc` — what one item leaves of that.
-/

namespace OpenWrtCopilot.Verified.BestPerKey

open Verified.PyDict

variable {α κ ρ : Type} [DecidableEq κ] [LinearOrder ρ] (key : α → κ) (rank : α → ρ)

/-! ## The loop -/

/-- One item. -/
def keep (state : Dict κ α × List κ) (a : α) : Dict κ α × List κ :=
  match get? (key a) state.1 with
  | none => (set (key a) a state.1, state.2 ++ [key a])
  | some previous =>
      if rank previous ≤ rank a then (set (key a) a state.1, state.2) else state

/-- The items that are kept; `none` where a noted key has no item. -/
def bestItems (items : List α) : Option (List α) :=
  let (best, order) := items.foldl (keep key rank) ([], [])
  order.mapM fun k => get? k best

/-! ## First appearances -/

/-- The keys of the items, each once and by its first appearance. -/
structure FirstSeen (items : List α) (order : List κ) : Prop where
  mem_iff : ∀ k, k ∈ order ↔ k ∈ items.map key
  sorted : order.Pairwise fun j k => (items.map key).idxOf j < (items.map key).idxOf k

variable {key} {items : List α} {order : List κ} {a : α}

theorem FirstSeen.nil : FirstSeen key [] [] where
  mem_iff _ := Iff.rfl
  sorted := .nil

/-- The keys that are there stay where they are. -/
theorem FirstSeen.sorted_snoc (h : FirstSeen key items order) (a : α) :
    order.Pairwise fun j k =>
      ((items ++ [a]).map key).idxOf j < ((items ++ [a]).map key).idxOf k := by
  refine h.sorted.imp_of_mem fun {j k} hj hk hlt => ?_
  rw [List.map_append, List.idxOf_append_of_mem ((h.mem_iff j).mp hj),
    List.idxOf_append_of_mem ((h.mem_iff k).mp hk)]
  exact hlt

theorem FirstSeen.again (h : FirstSeen key items order) (ha : key a ∈ order) :
    FirstSeen key (items ++ [a]) order where
  mem_iff k := by
    rw [h.mem_iff, List.map_append, List.mem_append, List.map_singleton, List.mem_singleton]
    refine ⟨Or.inl, fun hk => hk.elim id fun hk => ?_⟩
    rw [hk]
    exact (h.mem_iff _).mp ha
  sorted := h.sorted_snoc a

theorem FirstSeen.new (h : FirstSeen key items order) (ha : key a ∉ order) :
    FirstSeen key (items ++ [a]) (order ++ [key a]) where
  mem_iff k := by
    rw [List.mem_append, h.mem_iff, List.map_append, List.mem_append, List.map_singleton]
  sorted := by
    have hnew : key a ∉ items.map key := fun hmem => ha ((h.mem_iff _).mpr hmem)
    refine List.pairwise_append.mpr ⟨h.sorted_snoc a, List.pairwise_singleton _ _, ?_⟩
    intro j hj k hk
    obtain rfl := List.mem_singleton.mp hk
    have hmem := (h.mem_iff j).mp hj
    rw [List.map_append, List.idxOf_append_of_mem hmem, List.idxOf_append_of_notMem hnew]
    exact Nat.lt_add_right _ (List.idxOf_lt_length_iff.mpr hmem)

/-! ## What the loop keeps -/

variable (key) in
/-- The state after some items. -/
structure Best (items : List α) (state : Dict κ α × List κ) : Prop where
  seen : FirstSeen key items state.2
  held : ∀ k, k ∈ keys state.1 ↔ k ∈ state.2
  best : ∀ k kept, get? k state.1 = some kept →
    kept ∈ items ∧ key kept = k ∧ ∀ other ∈ items, key other = k → rank other ≤ rank kept

variable {rank}

/-- The item of a key stays or is replaced. -/
theorem Best.snoc {state : Dict κ α × List κ}
    (h : Best key rank items state) (a : α) :
    Best key rank (items ++ [a]) (keep key rank state a) := by
  have hold : ∀ k kept, get? k state.1 = some kept → key a ≠ k →
      kept ∈ items ++ [a] ∧ key kept = k ∧
        ∀ other ∈ items ++ [a], key other = k → rank other ≤ rank kept := by
    intro k kept hkept hne
    obtain ⟨hmem, hkey, hbest⟩ := h.best k kept hkept
    refine ⟨List.mem_append_left _ hmem, hkey, fun other hother hsame => ?_⟩
    rcases List.mem_append.mp hother with hother | hother
    · exact hbest other hother hsame
    · obtain rfl := List.mem_singleton.mp hother
      exact absurd hsame hne
  have hset : (∀ other ∈ items, key other = key a → rank other ≤ rank a) →
      ∀ k kept, get? k (set (key a) a state.1) = some kept →
        kept ∈ items ++ [a] ∧ key kept = k ∧
          ∀ other ∈ items ++ [a], key other = k → rank other ≤ rank kept := by
    intro habove k kept hkept
    by_cases hk : k = key a
    · subst hk
      rw [get?_set_self] at hkept
      obtain rfl := Option.some.inj hkept
      refine ⟨List.mem_append_right _ (List.mem_singleton_self _), rfl, ?_⟩
      intro other hother hsame
      rcases List.mem_append.mp hother with hother | hother
      · exact habove other hother hsame
      · obtain rfl := List.mem_singleton.mp hother
        exact le_rfl
    · rw [get?_set_of_ne hk] at hkept
      exact hold k kept hkept (Ne.symm hk)
  rw [keep]
  cases hprevious : get? (key a) state.1 with
  | none =>
    have hnew : key a ∉ state.2 := fun hmem =>
      get?_eq_none_iff.mp hprevious ((h.held _).mpr hmem)
    refine ⟨h.seen.new hnew, fun k => ?_, hset fun other hother hsame => ?_⟩
    · rw [mem_keys_set, h.held, List.mem_append, List.mem_singleton, or_comm]
    · exact absurd ((h.seen.mem_iff _).mpr (hsame ▸ List.mem_map_of_mem hother)) hnew
  | some previous =>
    obtain ⟨-, -, hbest⟩ := h.best _ previous hprevious
    have hseen : key a ∈ state.2 :=
      (h.held _).mp (isSome_get?_iff.mp (hprevious ▸ rfl))
    dsimp only
    split
    · next hle =>
        refine ⟨h.seen.again hseen, fun k => ?_, hset fun other hother hsame =>
          le_trans (hbest other hother hsame) hle⟩
        rw [mem_keys_set, h.held]
        exact ⟨fun hk => hk.elim (fun heq => heq ▸ hseen) id, Or.inr⟩
    · next hlt =>
        refine ⟨h.seen.again hseen, h.held, fun k kept hkept => ?_⟩
        by_cases hk : key a = k
        · subst hk
          obtain rfl := Option.some.inj (hprevious.symm.trans hkept)
          obtain ⟨hmem, hkey, -⟩ := h.best _ previous hkept
          refine ⟨List.mem_append_left _ hmem, hkey, fun other hother hsame => ?_⟩
          rcases List.mem_append.mp hother with hother | hother
          · exact hbest other hother hsame
          · obtain rfl := List.mem_singleton.mp hother
            exact le_of_lt (not_le.mp hlt)
        · exact hold k kept hkept hk

theorem best_foldl (items : List α) :
    Best key rank items (items.foldl (keep key rank) ([], [])) := by
  induction items using List.reverseRecOn with
  | nil =>
    exact
      { seen := .nil
        held := fun _ => Iff.rfl
        best := fun _ _ h => absurd h.symm (Option.some_ne_none _) }
  | append_singleton items a ih =>
    rw [List.foldl_append]
    exact ih.snoc a

/-! ## The items that are kept -/

variable (key rank) in
/-- The items that are kept: one for each key in the order of first appearance, and no item of its
key is above it. -/
structure Kept (items kept : List α) : Prop where
  seen : FirstSeen key items (kept.map key)
  best : ∀ a ∈ kept, a ∈ items ∧ ∀ other ∈ items, key other = key a → rank other ≤ rank a

theorem mapM_get? {d : Dict κ α} {ks : List κ}
    (h : ∀ k ∈ ks, ∃ a, get? k d = some a ∧ key a = k) :
    ∃ found, ks.mapM (fun k => get? k d) = some found ∧ found.map key = ks ∧
      ∀ a ∈ found, get? (key a) d = some a := by
  induction ks with
  | nil => exact ⟨[], rfl, rfl, fun _ hb => absurd hb List.not_mem_nil⟩
  | cons k ks ih =>
    obtain ⟨found, hfound, hkeys, hget⟩ := ih fun j hj => h j (List.mem_cons_of_mem k hj)
    obtain ⟨a, ha, rfl⟩ := h k List.mem_cons_self
    refine ⟨a :: found, ?_, by rw [List.map_cons, hkeys], List.forall_mem_cons.mpr ⟨ha, hget⟩⟩
    rw [List.mapM_cons, ha, hfound]
    rfl

/-- **One item for each key, in the order of first appearance, of the largest rank.** -/
theorem kept_bestItems (key : α → κ) (rank : α → ρ) (items : List α) :
    ∃ kept, bestItems key rank items = some kept ∧ Kept key rank items kept := by
  have hbest : Best key rank items (items.foldl (keep key rank) ([], [])) := best_foldl items
  rw [bestItems]
  generalize items.foldl (keep key rank) ([], []) = state at hbest ⊢
  have hheld : ∀ k ∈ state.2, ∃ a, get? k state.1 = some a ∧ key a = k := by
    intro k hk
    obtain ⟨a, ha⟩ := Option.isSome_iff_exists.mp (isSome_get?_iff.mpr ((hbest.held k).mpr hk))
    exact ⟨a, ha, (hbest.best k a ha).2.1⟩
  obtain ⟨kept, hkept, hkeys, hget⟩ := mapM_get? hheld
  refine ⟨kept, hkept, hkeys ▸ hbest.seen, fun a ha => ?_⟩
  obtain ⟨hmem, -, habove⟩ := hbest.best _ a (hget a ha)
  exact ⟨hmem, habove⟩

end OpenWrtCopilot.Verified.BestPerKey
