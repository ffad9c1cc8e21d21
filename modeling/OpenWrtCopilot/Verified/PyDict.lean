import Mathlib.Data.List.Basic
import Mathlib.Data.List.Induction
import Mathlib.Data.List.Nodup

/-!
# Python dictionaries

A Python `dict` keeps its keys in insertion order; assigning to a key that is
there changes its value in place.  Here it is the list of its items.

## Main results

* `get?_set_self`, `get?_set_of_ne` — assignment changes one key.
* `set_of_notMem`, `set_append_singleton` — where an assignment lands.
* `get?_foldl_setdefault` — a dictionary that is filled up from another one.
* `get?_foldl_set`, `get?_foldl_set_last` — a dictionary that is filled in a loop.
* `get?_foldl_erase` — what is left when keys are deleted one by one.
* `get?_eq_some_iff` — in a dictionary whose keys are distinct, lookup is membership.
* `ext_of_nodup` — such dictionaries are told apart by their keys and by lookup.
* `mapValues_set`, `mapValues_erase` — changing the values and changing the dictionary commute.
-/

namespace OpenWrtCopilot.Verified.PyDict

/-- The items of a dictionary, in insertion order. -/
abbrev Dict (κ α : Type) := List (κ × α)

variable {κ α : Type} [DecidableEq κ]

/-- `d.get(key)`. -/
def get? (key : κ) : Dict κ α → Option α
  | [] => none
  | (k, v) :: rest => if k = key then some v else get? key rest

/-- `d[key] = value`. -/
def set (key : κ) (value : α) : Dict κ α → Dict κ α
  | [] => [(key, value)]
  | (k, v) :: rest => if k = key then (k, value) :: rest else (k, v) :: set key value rest

/-- `d.setdefault(key, value)`, which leaves a key that is there alone. -/
def setdefault (key : κ) (value : α) (d : Dict κ α) : Dict κ α :=
  match get? key d with
  | some _ => d
  | none => d ++ [(key, value)]

/-- The keys, in insertion order. -/
def keys (d : Dict κ α) : List κ := d.map Prod.fst

@[simp] theorem get?_nil (key : κ) : get? key ([] : Dict κ α) = none := rfl

theorem get?_eq_none_iff {key : κ} {d : Dict κ α} : get? key d = none ↔ key ∉ keys d := by
  induction d with
  | nil => simp [keys]
  | cons item rest ih =>
    obtain ⟨k, v⟩ := item
    by_cases hk : k = key
    · simp [get?, keys, hk]
    · rw [get?, if_neg hk, ih]
      simp [keys, Ne.symm hk]

@[simp] theorem get?_set_self (key : κ) (value : α) (d : Dict κ α) :
    get? key (set key value d) = some value := by
  induction d with
  | nil => simp [set, get?]
  | cons item rest ih =>
    obtain ⟨k, v⟩ := item
    by_cases hk : k = key
    · simp [set, get?, hk]
    · simp [set, get?, hk, ih]

theorem mem_of_get? {key : κ} {value : α} {d : Dict κ α} (h : get? key d = some value) :
    (key, value) ∈ d := by
  induction d with
  | nil => cases h
  | cons item rest ih =>
    obtain ⟨k, v⟩ := item
    rw [get?] at h
    split at h
    · next hk => exact List.mem_cons.mpr (Or.inl (by rw [hk, Option.some.inj h]))
    · exact List.mem_cons_of_mem _ (ih h)

theorem mem_set {key : κ} {value : α} {d : Dict κ α} {item : κ × α}
    (h : item ∈ set key value d) : item = (key, value) ∨ item ∈ d := by
  induction d with
  | nil => exact Or.inl (List.mem_singleton.mp h)
  | cons first rest ih =>
    obtain ⟨k, v⟩ := first
    rw [set] at h
    split at h
    · next hk =>
        obtain heq | hrest := List.mem_cons.mp h
        · exact Or.inl (by rw [heq, hk])
        · exact Or.inr (List.mem_cons_of_mem _ hrest)
    · obtain heq | hrest := List.mem_cons.mp h
      · exact Or.inr (List.mem_cons.mpr (Or.inl heq))
      · obtain hnew | hold := ih hrest
        · exact Or.inl hnew
        · exact Or.inr (List.mem_cons_of_mem _ hold)

theorem get?_set_of_ne {key other : κ} (h : other ≠ key) (value : α) (d : Dict κ α) :
    get? other (set key value d) = get? other d := by
  induction d with
  | nil => simp [set, get?, Ne.symm h]
  | cons item rest ih =>
    obtain ⟨k, v⟩ := item
    by_cases hk : k = key
    · rw [hk, set, if_pos rfl, get?, get?, if_neg (Ne.symm h), if_neg (Ne.symm h)]
    · rw [set, if_neg hk, get?, get?, ih]

/-- A new key is added at the end. -/
theorem set_of_notMem {key : κ} {d : Dict κ α} (h : key ∉ keys d) (value : α) :
    set key value d = d ++ [(key, value)] := by
  induction d with
  | nil => rfl
  | cons item rest ih =>
    obtain ⟨k, v⟩ := item
    have hk : k ≠ key := fun hk => h (by simp [keys, hk])
    have hrest : key ∉ keys rest := fun hmem => h (List.mem_cons_of_mem k hmem)
    rw [set, if_neg hk, ih hrest, List.cons_append]

/-- The last key is changed in place. -/
theorem set_append_singleton {key : κ} {d : Dict κ α} (h : key ∉ keys d) (old value : α) :
    set key value (d ++ [(key, old)]) = d ++ [(key, value)] := by
  induction d with
  | nil => simp [set]
  | cons item rest ih =>
    obtain ⟨k, v⟩ := item
    have hk : k ≠ key := fun hk => h (by simp [keys, hk])
    have hrest : key ∉ keys rest := fun hmem => h (List.mem_cons_of_mem k hmem)
    rw [List.cons_append, set, if_neg hk, ih hrest, List.cons_append]

theorem get?_append_singleton {key : κ} {d : Dict κ α} (h : key ∉ keys d) (value : α) :
    get? key (d ++ [(key, value)]) = some value := by
  rw [← set_of_notMem h value, get?_set_self]

theorem setdefault_of_notMem {key : κ} {d : Dict κ α} (h : key ∉ keys d) (value : α) :
    setdefault key value d = d ++ [(key, value)] := by
  rw [setdefault, get?_eq_none_iff.mpr h]

theorem get?_append (key : κ) (d e : Dict κ α) :
    get? key (d ++ e) = (get? key d).or (get? key e) := by
  induction d with
  | nil => rfl
  | cons item rest ih =>
    obtain ⟨k, v⟩ := item
    by_cases hk : k = key
    · rw [List.cons_append, get?, get?, if_pos hk, if_pos hk, Option.some_or]
    · rw [List.cons_append, get?, get?, if_neg hk, if_neg hk, ih]

/-- Only a key that is missing gets the value. -/
theorem get?_setdefault (key other : κ) (value : α) (d : Dict κ α) :
    get? other (setdefault key value d) = (get? other d).or (get? other [(key, value)]) := by
  rw [setdefault]
  cases hkey : get? key d with
  | none => exact get?_append other d [(key, value)]
  | some old =>
    by_cases hother : key = other
    · rw [← hother, hkey, Option.some_or]
    · rw [get?, if_neg hother, get?_nil, Option.or_none]

/-- A dictionary that is filled up from another one, item by item. -/
theorem get?_foldl_setdefault {β : Type} (f : β → α) (items : Dict κ β) (d : Dict κ α) (key : κ) :
    get? key (items.foldl (fun result item => setdefault item.1 (f item.2) result) d) =
      (get? key d).or ((get? key items).map f) := by
  induction items generalizing d with
  | nil => rw [get?_nil, Option.map_none, Option.or_none, List.foldl_nil]
  | cons item rest ih =>
    obtain ⟨k, v⟩ := item
    rw [List.foldl_cons, ih, get?_setdefault, Option.or_assoc]
    by_cases hk : k = key
    · have hitem : get? key [(k, f v)] = some (f v) := if_pos hk
      have hitems : get? key ((k, v) :: rest) = some v := if_pos hk
      rw [hitem, hitems, Option.some_or, Option.map_some]
    · have hitem : get? key [(k, f v)] = none := if_neg hk
      have hitems : get? key ((k, v) :: rest) = get? key rest := if_neg hk
      rw [hitem, hitems, Option.none_or]

/-! ## Deletion -/

/-- `d.pop(key, None)`, and `del d[key]` where the key is there. -/
def erase (key : κ) (d : Dict κ α) : Dict κ α := d.filter fun item => item.1 ≠ key

theorem get?_erase (key other : κ) (d : Dict κ α) :
    get? other (erase key d) = if other = key then none else get? other d := by
  induction d with
  | nil => simp [erase]
  | cons item rest ih =>
    obtain ⟨k, v⟩ := item
    have hrest : get? other (rest.filter fun item => item.1 ≠ key) =
        if other = key then none else get? other rest := ih
    by_cases hk : k = key
    · rw [erase, List.filter_cons_of_neg (by simp [hk]), hrest]
      by_cases hother : other = key
      · rw [if_pos hother, if_pos hother]
      · rw [if_neg hother, if_neg hother, get?, if_neg (hk ▸ Ne.symm hother)]
    · rw [erase, List.filter_cons_of_pos (by simp [hk]), get?, hrest]
      by_cases hother : k = other
      · rw [if_pos hother, if_neg (hother ▸ hk), get?, if_pos hother]
      · rw [if_neg hother, get?, if_neg hother]

theorem get?_filter (p : κ → Bool) (d : Dict κ α) (key : κ) :
    get? key (d.filter fun item => p item.1) = if p key = true then get? key d else none := by
  induction d with
  | nil => simp
  | cons item rest ih =>
    obtain ⟨k, v⟩ := item
    by_cases hk : p k = true
    · rw [List.filter_cons, if_pos hk, get?, get?, ih]
      by_cases hkey : k = key
      · rw [if_pos hkey, if_pos (hkey ▸ hk), if_pos hkey]
      · rw [if_neg hkey, if_neg hkey]
    · rw [List.filter_cons, if_neg hk, ih, get?]
      by_cases hkey : k = key
      · rw [if_neg (hkey ▸ hk), if_neg (hkey ▸ hk)]
      · rw [if_neg hkey]

theorem get?_foldl_erase (removed : List κ) (d : Dict κ α) (key : κ) :
    get? key (removed.foldl (fun result k => erase k result) d) =
      if key ∈ removed then none else get? key d := by
  induction removed generalizing d with
  | nil => rfl
  | cons k removed ih =>
    rw [List.foldl_cons, ih, get?_erase]
    by_cases hk : key = k
    · simp [hk]
    · simp [hk]

/-! ## Dictionaries that are filled in a loop -/

theorem forall_foldl_set {β : Type} {P : κ → α → Prop} (f : β → κ) (g : β → α) (items : List β)
    {d : Dict κ α} (hitems : ∀ x ∈ items, P (f x) (g x))
    (hd : ∀ key value, get? key d = some value → P key value) {key : κ} {value : α}
    (h : get? key (items.foldl (fun d x => set (f x) (g x) d) d) = some value) : P key value := by
  induction items generalizing d with
  | nil => exact hd key value h
  | cons x items ih =>
    refine ih (fun y hy => hitems y (List.mem_cons_of_mem x hy)) ?_ h
    intro k v hv
    by_cases hk : k = f x
    · rw [hk, get?_set_self] at hv
      rw [hk, ← Option.some.inj hv]
      exact hitems x List.mem_cons_self
    · rw [get?_set_of_ne hk] at hv
      exact hd k v hv

/-- A key gets the value that all its items give. -/
theorem get?_foldl_set {β : Type} (f : β → κ) (g : β → α) (items : List β) (d : Dict κ α)
    (key : κ) (value : α) (h : ∀ x ∈ items, f x = key → g x = value) :
    get? key (items.foldl (fun d x => set (f x) (g x) d) d) =
      if ∃ x ∈ items, f x = key then some value else get? key d := by
  induction items generalizing d with
  | nil => exact (if_neg fun ⟨_, hx, _⟩ => (by cases hx)).symm
  | cons x items ih =>
    rw [List.foldl_cons, ih _ fun y hy => h y (List.mem_cons_of_mem x hy)]
    by_cases hlater : ∃ y ∈ items, f y = key
    · obtain ⟨y, hy, hkey⟩ := hlater
      rw [if_pos ⟨y, hy, hkey⟩, if_pos ⟨y, List.mem_cons_of_mem x hy, hkey⟩]
    · rw [if_neg hlater]
      by_cases hx : f x = key
      · rw [if_pos ⟨x, List.mem_cons_self, hx⟩, ← hx, get?_set_self,
          h x List.mem_cons_self hx]
      · rw [if_neg, get?_set_of_ne (Ne.symm hx)]
        rintro ⟨y, hy, hkey⟩
        obtain rfl | hy := List.mem_cons.mp hy
        · exact hx hkey
        · exact hlater ⟨y, hy, hkey⟩

/-- The last item of a key gives its value. -/
theorem get?_foldl_set_last {β : Type} (f : β → κ) (g : β → α) (items : List β) (d : Dict κ α)
    (key : κ) :
    get? key (items.foldl (fun d x => set (f x) (g x) d) d) =
      ((items.filter fun x => f x = key).getLast?.map g).or (get? key d) := by
  induction items using List.reverseRecOn with
  | nil => rfl
  | append_singleton items x ih =>
    rw [List.foldl_append, List.foldl_cons, List.foldl_nil, List.filter_append]
    by_cases hx : f x = key
    · have hlast : [x].filter (fun x => f x = key) = [x] := by simp [hx]
      rw [hlast, List.getLast?_concat, hx, get?_set_self]
      rfl
    · have hnone : [x].filter (fun x => f x = key) = [] := by simp [hx]
      rw [hnone, List.append_nil, get?_set_of_ne (Ne.symm hx), ih]

/-! ## Distinct keys -/

theorem keys_set (key : κ) (value : α) (d : Dict κ α) :
    keys (set key value d) = if key ∈ keys d then keys d else keys d ++ [key] := by
  induction d with
  | nil => rfl
  | cons item rest ih =>
    obtain ⟨k, v⟩ := item
    by_cases hk : k = key
    · simp [set, keys, hk]
    · have hrest : (set key value rest).map Prod.fst =
          if key ∈ keys rest then keys rest else keys rest ++ [key] := ih
      rw [set, if_neg hk, keys, List.map_cons, hrest]
      by_cases hmem : key ∈ keys rest
      · simp_all [keys]
      · simp_all [keys, Ne.symm hk]

theorem mem_keys_set {key other : κ} {value : α} {d : Dict κ α} :
    other ∈ keys (set key value d) ↔ other = key ∨ other ∈ keys d := by
  rw [keys_set]
  by_cases hkey : key ∈ keys d
  · rw [if_pos hkey]
    refine ⟨Or.inr, ?_⟩
    rintro (rfl | hother)
    · exact hkey
    · exact hother
  · rw [if_neg hkey, List.mem_append, List.mem_singleton, or_comm]

theorem isSome_get?_iff {key : κ} {d : Dict κ α} : (get? key d).isSome = true ↔ key ∈ keys d := by
  rw [← Option.ne_none_iff_isSome, Ne, get?_eq_none_iff, not_not]

theorem mem_keys_foldl_erase {removed : List κ} {d : Dict κ α} {key : κ} :
    key ∈ keys (removed.foldl (fun result k => erase k result) d) ↔
      key ∉ removed ∧ key ∈ keys d := by
  rw [← isSome_get?_iff, ← isSome_get?_iff, get?_foldl_erase]
  by_cases hkey : key ∈ removed
  · rw [if_pos hkey]
    exact ⟨fun h => (by cases h), fun h => absurd hkey h.1⟩
  · rw [if_neg hkey]
    exact ⟨fun h => ⟨hkey, h⟩, fun h => h.2⟩

theorem nodup_keys_set {d : Dict κ α} (h : (keys d).Nodup) (key : κ) (value : α) :
    (keys (set key value d)).Nodup := by
  rw [keys_set]
  by_cases hmem : key ∈ keys d
  · rwa [if_pos hmem]
  · rw [if_neg hmem, List.nodup_append]
    refine ⟨h, List.nodup_singleton key, ?_⟩
    intro a ha b hb hab
    rw [List.mem_singleton] at hb
    exact hmem (hb ▸ hab ▸ ha)

theorem keys_erase [BEq κ] [LawfulBEq κ] {d : Dict κ α} (h : (keys d).Nodup) (key : κ) :
    keys (erase key d) = (keys d).erase key := by
  rw [h.erase_eq_filter, keys, keys, erase, List.filter_map]
  refine congrArg (List.map Prod.fst) (List.filter_congr fun item _ => ?_)
  by_cases hk : item.1 = key <;> simp [hk]

theorem nodup_keys_erase {d : Dict κ α} (h : (keys d).Nodup) (key : κ) :
    (keys (erase key d)).Nodup :=
  h.sublist (List.filter_sublist.map Prod.fst)

theorem nodup_keys_foldl_erase {d : Dict κ α} (h : (keys d).Nodup) (removed : List κ) :
    (keys (removed.foldl (fun result k => erase k result) d)).Nodup := by
  induction removed generalizing d with
  | nil => exact h
  | cons k removed ih => exact ih (nodup_keys_erase h k)

theorem get?_eq_some_iff {d : Dict κ α} (h : (keys d).Nodup) {key : κ} {value : α} :
    get? key d = some value ↔ (key, value) ∈ d := by
  induction d with
  | nil => simp
  | cons item rest ih =>
    obtain ⟨k, v⟩ := item
    obtain ⟨hnew, hrest⟩ := List.nodup_cons.mp h
    rw [get?, List.mem_cons]
    by_cases hk : k = key
    · rw [if_pos hk]
      constructor
      · intro hv
        exact Or.inl (by rw [Option.some.inj hv, hk])
      · intro hmem
        obtain heq | hmem := hmem
        · rw [(Prod.mk.inj heq).2]
        · exact absurd (List.mem_map_of_mem (f := Prod.fst) hmem) (hk ▸ hnew)
    · rw [if_neg hk, ih hrest]
      constructor
      · exact Or.inr
      · intro hmem
        obtain heq | hmem := hmem
        · exact absurd (Prod.mk.inj heq).1.symm hk
        · exact hmem

/-- What only the value of one key can give is given by that value. -/
theorem findSome?_only {γ : Type} {d : Dict κ α} (hnodup : (keys d).Nodup) (key : κ)
    (f : α → Option γ)
    (h : ∀ other value, other ≠ key → get? other d = some value → f value = none) :
    (d.findSome? fun item => f item.2) = (get? key d).bind f := by
  induction d with
  | nil => rfl
  | cons item rest ih =>
    obtain ⟨k, v⟩ := item
    obtain ⟨hnew, hnodup⟩ := List.nodup_cons.mp hnodup
    -- what the rest gives its keys, the whole dictionary gives them
    have hlater : ∀ other value, get? other rest = some value →
        get? other ((k, v) :: rest) = some value := by
      intro other value hvalue
      have hk : k ≠ other := by
        intro heq
        rw [← heq, get?_eq_none_iff.mpr hnew] at hvalue
        cases hvalue
      rwa [get?, if_neg hk]
    have hrest := ih hnodup fun other value hother hvalue =>
      h other value hother (hlater other value hvalue)
    rw [List.findSome?_cons]
    by_cases hk : k = key
    · rw [get?, if_pos hk, hrest, get?_eq_none_iff.mpr (hk ▸ hnew), Option.bind_some]
      cases f v with
      | none => rfl
      | some c => rfl
    · rw [get?, if_neg hk, hrest, h k v hk (if_pos rfl)]

/-- Dictionaries with the same keys, in one order, and the same values are the same. -/
theorem ext_of_nodup {d e : Dict κ α} (hkeys : keys d = keys e) (hnodup : (keys d).Nodup)
    (hget : ∀ key, get? key d = get? key e) : d = e := by
  induction d generalizing e with
  | nil =>
    cases e with
    | nil => rfl
    | cons item rest => cases hkeys
  | cons item rest ih =>
    cases e with
    | nil => cases hkeys
    | cons item' rest' =>
      obtain ⟨k, v⟩ := item
      obtain ⟨k', v'⟩ := item'
      obtain ⟨rfl, hrest⟩ := List.cons_eq_cons.mp hkeys
      obtain ⟨hnew, hnodup⟩ := List.nodup_cons.mp hnodup
      have hfirst := hget k
      rw [get?, get?, if_pos rfl, if_pos rfl] at hfirst
      have hlater : rest = rest' := by
        refine ih hrest hnodup ?_
        intro key
        by_cases hk : k = key
        · have hnew' : k ∉ keys rest' := by
            rw [keys, ← hrest]
            exact hnew
          rw [← hk, get?_eq_none_iff.mpr hnew, get?_eq_none_iff.mpr hnew']
        · have hget := hget key
          rwa [get?, get?, if_neg hk, if_neg hk] at hget
      rw [Option.some.inj hfirst, hlater]

/-! ## Values that are changed one by one -/

/-- Each value becomes another one, which may depend on its key. -/
def mapValues {β : Type} (f : κ → α → β) (d : Dict κ α) : Dict κ β :=
  d.map fun item => (item.1, f item.1 item.2)

omit [DecidableEq κ] in
@[simp] theorem keys_mapValues {β : Type} (f : κ → α → β) (d : Dict κ α) :
    keys (mapValues f d) = keys d := by
  simp [keys, mapValues]

theorem get?_mapValues {β : Type} (f : κ → α → β) (d : Dict κ α) (key : κ) :
    get? key (mapValues f d) = (get? key d).map (f key) := by
  induction d with
  | nil => rfl
  | cons item rest ih =>
    obtain ⟨k, v⟩ := item
    by_cases hk : k = key
    · simp [mapValues, get?, hk]
    · rw [mapValues] at ih
      simp [mapValues, get?, hk, ih]

omit [DecidableEq κ] in
theorem findSome?_mapValues {β γ : Type} (f : κ → α → β) (p : β → Option γ) (d : Dict κ α) :
    ((mapValues f d).findSome? fun item => p item.2) =
      d.findSome? fun item => p (f item.1 item.2) := by
  rw [mapValues, List.findSome?_map]
  rfl

theorem mapValues_set {β : Type} (f : κ → α → β) (key : κ) (value : α) (d : Dict κ α) :
    mapValues f (set key value d) = set key (f key value) (mapValues f d) := by
  induction d with
  | nil => rfl
  | cons item rest ih =>
    obtain ⟨k, v⟩ := item
    rw [mapValues] at ih
    by_cases hk : k = key
    · simp [mapValues, set, hk]
    · simpa [mapValues, set, hk] using ih

theorem mapValues_erase {β : Type} (f : κ → α → β) (key : κ) (d : Dict κ α) :
    mapValues f (erase key d) = erase key (mapValues f d) := by
  rw [mapValues, mapValues, erase, erase, List.filter_map]
  rfl

omit [DecidableEq κ] in
@[simp] theorem keys_append (d e : Dict κ α) : keys (d ++ e) = keys d ++ keys e :=
  List.map_append

end OpenWrtCopilot.Verified.PyDict
