import OpenWrtCopilot.Verified.PyDict

/-!
# Grouping by a key

Elements of a list are collected under their keys, in a dictionary that keeps the keys in the
order of their first elements.

## Main results

* `mem_group` — a group has the elements with its key, in their order, and is not empty.
* `get?_index` — where the keys are distinct, an index by key finds every element.
-/

namespace OpenWrtCopilot.Verified.Groups

open Verified.PyDict (Dict get? keys)

variable {κ α β : Type} [DecidableEq κ]

/-- An element joins the group of its key. -/
def join (key : α → κ) (groups : Dict κ (List α)) (x : α) : Dict κ (List α) :=
  PyDict.set (key x) (((get? (key x) groups).getD []) ++ [x]) groups

def group (key : α → κ) (xs : List α) : Dict κ (List α) := xs.foldl (join key) []

section Group

variable (key : α → κ)

theorem group_concat (xs : List α) (x : α) : group key (xs ++ [x]) = join key (group key xs) x := by
  rw [group, List.foldl_append]
  rfl

theorem nodup_keys_group (xs : List α) : (keys (group key xs)).Nodup := by
  induction xs using List.reverseRecOn with
  | nil => exact List.nodup_nil
  | append_singleton xs x ih =>
    rw [group_concat]
    exact PyDict.nodup_keys_set ih _ _

theorem get?_group (xs : List α) (k : κ) :
    (get? k (group key xs)).getD [] = xs.filter (key · = k) := by
  induction xs using List.reverseRecOn with
  | nil => rfl
  | append_singleton xs x ih =>
    rw [group_concat, join, List.filter_append]
    by_cases hk : key x = k
    · rw [hk, PyDict.get?_set_self, ih, List.filter_cons_of_pos (by simp [hk])]
      rfl
    · rw [PyDict.get?_set_of_ne (Ne.symm hk), ih, List.filter_cons_of_neg (by simp [hk]),
        List.filter_nil, List.append_nil]

/-- No group is empty. -/
theorem ne_nil_of_mem_group {xs : List α} {item : κ × List α} (h : item ∈ group key xs) :
    item.2 ≠ [] := by
  induction xs using List.reverseRecOn with
  | nil => cases h
  | append_singleton xs x ih =>
    rw [group_concat] at h
    obtain rfl | hold := PyDict.mem_set h
    · exact List.append_ne_nil_of_right_ne_nil _ (List.cons_ne_nil x [])
    · exact ih hold

/-- A group has the elements with its key. -/
theorem mem_group {xs : List α} {item : κ × List α} (h : item ∈ group key xs) :
    item.2 = xs.filter (key · = item.1) := by
  rw [← get?_group, (PyDict.get?_eq_some_iff (nodup_keys_group key xs)).mpr h, Option.getD_some]

/-- Every element has a group. -/
theorem exists_mem_group {xs : List α} {x : α} (h : x ∈ xs) :
    ∃ g, (key x, g) ∈ group key xs := by
  have hgroup := get?_group key xs (key x)
  cases hget : get? (key x) (group key xs) with
  | some g => exact ⟨g, PyDict.mem_of_get? hget⟩
  | none =>
    rw [hget, Option.getD_none] at hgroup
    have hmem : x ∈ xs.filter (key · = key x) := List.mem_filter.mpr ⟨h, decide_eq_true rfl⟩
    rw [← hgroup] at hmem
    cases hmem

end Group

/-! ## Indices -/

/-- A value for the key of each element. -/
def index (key : α → κ) (value : α → β) (xs : List α) : Dict κ β :=
  xs.foldl (fun d x => PyDict.set (key x) (value x) d) []

theorem get?_index {key : α → κ} {value : α → β} {xs : List α} (hnodup : (xs.map key).Nodup)
    {x : α} (h : x ∈ xs) : get? (key x) (index key value xs) = some (value x) := by
  induction xs using List.reverseRecOn with
  | nil => cases h
  | append_singleton xs y ih =>
    rw [List.map_append, List.nodup_append] at hnodup
    obtain ⟨hold, -, hnew⟩ := hnodup
    rw [index, List.foldl_append, List.foldl_cons, List.foldl_nil]
    obtain hx | hy := List.mem_append.mp h
    · have hne : key x ≠ key y :=
        hnew _ (List.mem_map_of_mem hx) _ (List.mem_map_of_mem List.mem_cons_self)
      rw [PyDict.get?_set_of_ne hne]
      exact ih hold hx
    · obtain rfl := List.mem_singleton.mp hy
      exact PyDict.get?_set_self _ _ _

end OpenWrtCopilot.Verified.Groups
