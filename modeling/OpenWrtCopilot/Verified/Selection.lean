import Mathlib.Data.List.Perm.Subperm
import Mathlib.Order.Lattice
import OpenWrtCopilot.Verified.PyDict

/-!
# Keeping one item for each key

Of items with a key, the best one is kept for each key, in the place of the first; or the first one
is kept, whatever its score.

## Main results

* `exists_best` — for each item one is kept that is as good.
* `nodup_firstBy`, `exists_first` — the items that are kept have distinct keys, and stand before the
  others with their keys.
* `exists_subperm` — some of the images are the images of some of the items.
-/

namespace OpenWrtCopilot.Verified.Selection

open Verified.PyDict (Dict get? keys)

variable {α κ S : Type} [DecidableEq κ]

/-! ## The best ones -/

section Best

variable [LinearOrder S] (key : α → κ) (score : α → S)

/-- An item takes the place of a worse one. -/
def keepBetter (kept : Dict κ α) (x : α) : Dict κ α :=
  match get? (key x) kept with
  | some y => if score y < score x then PyDict.set (key x) x kept else kept
  | none => PyDict.set (key x) x kept

/-- The best item for each key. -/
def keepBest (items : List α) : Dict κ α := items.foldl (keepBetter key score) []

theorem keepBest_concat (items : List α) (x : α) :
    keepBest key score (items ++ [x]) = keepBetter key score (keepBest key score items) x := by
  rw [keepBest, List.foldl_append]
  rfl

theorem nodup_keys_keepBest (items : List α) : (keys (keepBest key score items)).Nodup := by
  induction items using List.reverseRecOn with
  | nil => exact List.nodup_nil
  | append_singleton items x ih =>
    rw [keepBest_concat, keepBetter]
    split
    · split
      · exact PyDict.nodup_keys_set ih _ _
      · exact ih
    · exact PyDict.nodup_keys_set ih _ _

/-- What is kept is one of the items, under its own key. -/
theorem mem_keepBest {items : List α} {entry : κ × α} (h : entry ∈ keepBest key score items) :
    entry.2 ∈ items ∧ key entry.2 = entry.1 := by
  induction items using List.reverseRecOn with
  | nil => cases h
  | append_singleton items x ih =>
    have hset (hmem : entry ∈ PyDict.set (key x) x (keepBest key score items)) :
        entry.2 ∈ items ++ [x] ∧ key entry.2 = entry.1 := by
      obtain rfl | hold := PyDict.mem_set hmem
      · exact ⟨List.mem_append_right _ List.mem_cons_self, rfl⟩
      · exact ⟨List.mem_append_left _ (ih hold).1, (ih hold).2⟩
    rw [keepBest_concat, keepBetter] at h
    split at h
    · split at h
      · exact hset h
      · exact ⟨List.mem_append_left _ (ih h).1, (ih h).2⟩
    · exact hset h

/-- For each item one is kept that is as good. -/
theorem exists_best {items : List α} {x : α} (h : x ∈ items) :
    ∃ y, (key x, y) ∈ keepBest key score items ∧ score x ≤ score y := by
  induction items using List.reverseRecOn with
  | nil => cases h
  | append_singleton items z ih =>
    have hself : (key z, z) ∈ PyDict.set (key z) z (keepBest key score items) :=
      PyDict.mem_of_get? (PyDict.get?_set_self _ _ _)
    rw [keepBest_concat, keepBetter]
    obtain hold | hnew := List.mem_append.mp h
    · obtain ⟨y, hy, hle⟩ := ih hold
      have hget := (PyDict.get?_eq_some_iff (nodup_keys_keepBest key score items)).mpr hy
      by_cases hkey : key x = key z
      · rw [← hkey, hget]
        dsimp only
        split
        · next hless => exact ⟨z, by rw [hkey]; exact hself, le_trans hle (le_of_lt hless)⟩
        · exact ⟨y, hy, hle⟩
      · have hkept : (key x, y) ∈ PyDict.set (key z) z (keepBest key score items) :=
          PyDict.mem_of_get? (by rw [PyDict.get?_set_of_ne hkey, hget])
        split
        · split
          · exact ⟨y, hkept, hle⟩
          · exact ⟨y, hy, hle⟩
        · exact ⟨y, hkept, hle⟩
    · obtain rfl := List.mem_singleton.mp hnew
      split
      · next y hget =>
          split
          · exact ⟨x, hself, le_refl _⟩
          · next hless => exact ⟨y, PyDict.mem_of_get? hget, not_lt.mp hless⟩
      · exact ⟨x, hself, le_refl _⟩

end Best

/-! ## The first ones -/

section First

variable (key : α → κ)

/-- The first item for each key that was not seen before. -/
def firstBy : List κ → List α → List α
  | _, [] => []
  | seen, x :: rest =>
      if key x ∈ seen then firstBy seen rest else x :: firstBy (key x :: seen) rest

theorem firstBy_sublist (seen : List κ) (items : List α) :
    (firstBy key seen items).Sublist items := by
  induction items generalizing seen with
  | nil => exact List.Sublist.refl _
  | cons x rest ih =>
    rw [firstBy]
    split
    · exact (ih seen).cons x
    · exact (ih (key x :: seen)).cons_cons x

theorem notMem_seen_of_mem_firstBy {seen : List κ} {items : List α} {x : α}
    (h : x ∈ firstBy key seen items) : key x ∉ seen := by
  induction items generalizing seen with
  | nil => cases h
  | cons y rest ih =>
    rw [firstBy] at h
    split at h
    · exact ih h
    · next hnew =>
        obtain rfl | h := List.mem_cons.mp h
        · exact hnew
        · exact fun hmem => ih h (List.mem_cons_of_mem _ hmem)

theorem nodup_firstBy (seen : List κ) (items : List α) :
    ((firstBy key seen items).map key).Nodup := by
  induction items generalizing seen with
  | nil => exact List.nodup_nil
  | cons x rest ih =>
    rw [firstBy]
    split
    · exact ih seen
    · rw [List.map_cons]
      refine List.nodup_cons.mpr ⟨fun hmem => ?_, ih _⟩
      obtain ⟨y, hy, hkey⟩ := List.mem_map.mp hmem
      exact notMem_seen_of_mem_firstBy key hy (hkey ▸ List.mem_cons_self)

/-- An item that is not kept stands behind one with its key that is. -/
theorem exists_first {R : α → α → Prop} {seen : List κ} {items : List α} (hitems : items.Pairwise R)
    {x : α} (h : x ∈ items) (hnot : x ∉ firstBy key seen items) (hseen : key x ∉ seen) :
    ∃ y ∈ firstBy key seen items, key y = key x ∧ R y x := by
  induction items generalizing seen with
  | nil => cases h
  | cons y rest ih =>
    obtain ⟨hbefore, hrest⟩ := List.pairwise_cons.mp hitems
    rw [firstBy] at hnot ⊢
    by_cases hy : key y ∈ seen
    · rw [if_pos hy] at hnot ⊢
      obtain rfl | h := List.mem_cons.mp h
      · exact absurd hy hseen
      · exact ih hrest h hnot hseen
    · rw [if_neg hy] at hnot ⊢
      have h := (List.mem_cons.mp h).resolve_left (List.ne_of_not_mem_cons hnot)
      have hnot := List.not_mem_of_not_mem_cons hnot
      by_cases hkey : key y = key x
      · exact ⟨y, List.mem_cons_self, hkey, hbefore x h⟩
      · obtain ⟨z, hz, hzkey, hzx⟩ := ih hrest h hnot
          (List.not_mem_cons_of_ne_of_not_mem (Ne.symm hkey) hseen)
        exact ⟨z, List.mem_cons_of_mem y hz, hzkey, hzx⟩

end First

/-! ## Some of the items -/

section Some

variable {β : Type} {f : α → β} {l l' : List α}

/-- What does not fit into a list in order stands behind what does. -/
theorem mem_take_or {R : α → α → Prop} (hl : l.Pairwise R) (k : Nat) {x : α}
    (h : x ∈ l) : x ∈ l.take k ∨ ((l.take k).length = k ∧ ∀ y ∈ l.take k, R y x) := by
  rw [← List.take_append_drop k l] at h hl
  obtain hfit | hrest := List.mem_append.mp h
  · exact .inl hfit
  · refine .inr ⟨?_, fun y hy => (List.pairwise_append.mp hl).2.2 y hy x hrest⟩
    have hpos := List.length_pos_of_mem hrest
    rw [List.length_drop] at hpos
    exact List.length_take_of_le (by omega)

theorem nodup_map_of_subperm (h : l.Subperm l') (hl' : (l'.map f).Nodup) : (l.map f).Nodup := by
  obtain ⟨m, hperm, hsub⟩ := h
  exact (hperm.map f).nodup_iff.mp (hl'.sublist (hsub.map f))

theorem subperm_map (h : l.Subperm l') : (l.map f).Subperm (l'.map f) := by
  obtain ⟨m, hperm, hsub⟩ := h
  exact ⟨m.map f, hperm.map f, hsub.map f⟩

/-- Some of the images are the images of some of the items. -/
theorem exists_subperm {images : List β} (h : images.Subperm (l.map f)) :
    ∃ m : List α, m.Subperm l ∧ m.map f = images := by
  obtain ⟨p, hperm, hsub⟩ := h
  obtain ⟨k, hk, rfl⟩ := List.sublist_map_iff.mp hsub
  have himages := congrFun (congrFun (List.eq_map_comp_perm f) images) k
  obtain ⟨m, rfl, hm⟩ := himages.mpr hperm.symm
  exact ⟨m, ⟨k, hm.symm, hk⟩, rfl⟩

end Some

end OpenWrtCopilot.Verified.Selection
