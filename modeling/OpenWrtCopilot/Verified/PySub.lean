import OpenWrtCopilot.Verified.PyText

/-!
# Searching and substituting

`str.find`, and `re.sub` for a pattern that is given by what it matches at a position.  The
elements of the list may be more than characters: a substitution that only looks at their
characters carries the rest along, so that each character of the result can be traced.

## Main results

* `findFrom_eq_some_iff` — `find` gives the first occurrence from a position on.
* `map_sub` — a substitution commutes with forgetting what the elements carry.
* `sub_sublist` — a substitution that puts parts of its matches back only drops elements.
* `mem_sub_iff` — it leaves those that are not dropped.
* `exists_append_of_sublist` — a part whose elements are all left is left as it is.
-/

namespace OpenWrtCopilot.Verified.PySub

open Verified.PyText

/-! ## `find` -/

/-- `t.find(needle)`. -/
def find (needle : Text) : Text → Option Nat
  | [] => if needle = [] then some 0 else none
  | c :: rest => if startsWith needle (c :: rest) then some 0 else (find needle rest).map (· + 1)

/-- `t.find(needle, start)`. -/
def findFrom (needle t : Text) (start : Nat) : Option Nat :=
  if start ≤ t.length then (find needle (t.drop start)).map (start + ·) else none

/-- The needle occurs at a position. -/
def At (needle t : Text) (i : Nat) : Prop := needle <+: t.drop i

instance (needle t : Text) (i : Nat) : Decidable (At needle t i) := by
  unfold At
  infer_instance

theorem At.lt_length {needle t : Text} {i : Nat} (h : At needle t i) (hne : needle ≠ []) :
    i < t.length := by
  have hle := h.length_le
  have hpos := List.length_pos_iff.mpr hne
  rw [List.length_drop] at hle
  omega

theorem startsWith_iff {pre t : Text} : startsWith pre t = true ↔ pre <+: t :=
  List.isPrefixOf_iff_prefix

theorem find_eq_some_iff {needle t : Text} {i : Nat} :
    find needle t = some i ↔ i ≤ t.length ∧ At needle t i ∧ ∀ j < i, ¬ At needle t j := by
  induction t generalizing i with
  | nil =>
    rw [find]
    constructor
    · intro h
      split at h
      · next hempty =>
          obtain rfl := Option.some.inj h
          exact ⟨le_refl 0, hempty ▸ List.nil_prefix, fun j hj => absurd hj (Nat.not_lt_zero j)⟩
      · cases h
    · intro ⟨hle, hat, _⟩
      obtain rfl := Nat.le_zero.mp hle
      rw [if_pos (List.prefix_nil.mp hat)]
  | cons c rest ih =>
    rw [find]
    by_cases hhere : startsWith needle (c :: rest) = true
    · have hzero : At needle (c :: rest) 0 := startsWith_iff.mp hhere
      rw [if_pos hhere]
      constructor
      · intro h
        obtain rfl := Option.some.inj h
        exact ⟨Nat.zero_le _, hzero, fun j hj => absurd hj (Nat.not_lt_zero j)⟩
      · intro ⟨_, _, hfirst⟩
        cases i with
        | zero => rfl
        | succ i => exact absurd hzero (hfirst 0 (Nat.succ_pos i))
    · have hzero : ¬ At needle (c :: rest) 0 := fun h => hhere (startsWith_iff.mpr h)
      rw [if_neg hhere]
      constructor
      · intro h
        obtain ⟨k, hk, rfl⟩ := Option.map_eq_some_iff.mp h
        obtain ⟨hle, hat, hfirst⟩ := ih.mp hk
        refine ⟨Nat.succ_le_succ hle, hat, fun j hj => ?_⟩
        cases j with
        | zero => exact hzero
        | succ j => exact hfirst j (Nat.lt_of_succ_lt_succ hj)
      · intro ⟨hle, hat, hfirst⟩
        cases i with
        | zero => exact absurd hat hzero
        | succ i =>
          refine Option.map_eq_some_iff.mpr ⟨i, ih.mpr ⟨Nat.le_of_succ_le_succ hle, hat, ?_⟩, rfl⟩
          intro j hj
          exact hfirst (j + 1) (Nat.succ_lt_succ hj)

/-- The first occurrence from a position on. -/
theorem findFrom_eq_some_iff {needle t : Text} {start i : Nat} :
    findFrom needle t start = some i ↔
      start ≤ i ∧ i ≤ t.length ∧ At needle t i ∧ ∀ j, start ≤ j → j < i → ¬ At needle t j := by
  have hat : ∀ k, At needle (t.drop start) k ↔ At needle t (start + k) := by
    intro k
    rw [At, At, List.drop_drop]
  rw [findFrom]
  by_cases hstart : start ≤ t.length
  · rw [if_pos hstart]
    constructor
    · intro h
      obtain ⟨k, hk, rfl⟩ := Option.map_eq_some_iff.mp h
      obtain ⟨hle, hhere, hfirst⟩ := find_eq_some_iff.mp hk
      rw [List.length_drop] at hle
      refine ⟨Nat.le_add_right start k, by omega, (hat k).mp hhere, fun j hj hlt => ?_⟩
      have hbefore := hfirst (j - start) (by omega)
      rwa [hat, Nat.add_sub_cancel' hj] at hbefore
    · intro ⟨hle, hlength, hhere, hfirst⟩
      refine Option.map_eq_some_iff.mpr ⟨i - start, find_eq_some_iff.mpr ⟨?_, ?_, ?_⟩, ?_⟩
      · rw [List.length_drop]
        omega
      · rwa [hat, Nat.add_sub_cancel' hle]
      · intro j hj
        rw [hat]
        exact hfirst (start + j) (Nat.le_add_right start j) (by omega)
      · exact Nat.add_sub_cancel' hle
  · rw [if_neg hstart]
    constructor
    · intro h
      cases h
    · intro ⟨hle, hlength, _⟩
      omega

/-! ## `sub` -/

variable {α β : Type}

/-- `re.sub`: `matchAt` gives, for the list from a position on, what replaces the match and how
long the match is; `skip` elements belong to a match that was replaced. -/
def sub (matchAt : List α → Option (List α × Nat)) : Nat → List α → List α
  | _, [] => []
  | skip + 1, _ :: rest => sub matchAt skip rest
  | 0, x :: rest =>
      match matchAt (x :: rest) with
      | some (replacement, length) => replacement ++ sub matchAt (length - 1) rest
      | none => x :: sub matchAt 0 rest

/-- The pattern looks only at the images of the elements. -/
def Natural (f : α → β) (matchAt : List α → Option (List α × Nat))
    (matchAt' : List β → Option (List β × Nat)) : Prop :=
  ∀ l, matchAt' (l.map f) = (matchAt l).map fun m => (m.1.map f, m.2)

theorem map_sub {f : α → β} {matchAt : List α → Option (List α × Nat)}
    {matchAt' : List β → Option (List β × Nat)} (h : Natural f matchAt matchAt') (skip : Nat)
    (l : List α) : (sub matchAt skip l).map f = sub matchAt' skip (l.map f) := by
  induction l generalizing skip with
  | nil =>
    cases skip with
    | zero => rfl
    | succ skip => rfl
  | cons x rest ih =>
    cases skip with
    | succ skip => exact ih skip
    | zero =>
      have hmatch := h (x :: rest)
      rw [List.map_cons] at hmatch
      rw [sub, List.map_cons, sub, hmatch]
      cases matchAt (x :: rest) with
      | none =>
        dsimp only [Option.map_none]
        rw [List.map_cons, ih]
      | some found =>
        dsimp only [Option.map_some]
        rw [List.map_append, ih]

/-- The replacements are parts of the matches. -/
def Shrinking (matchAt : List α → Option (List α × Nat)) : Prop :=
  ∀ l m, matchAt l = some m → m.1.Sublist (l.take m.2)

theorem sub_sublist {matchAt : List α → Option (List α × Nat)} (h : Shrinking matchAt)
    (skip : Nat) (l : List α) : (sub matchAt skip l).Sublist (l.drop skip) := by
  induction l generalizing skip with
  | nil =>
    cases skip with
    | zero => exact List.Sublist.refl _
    | succ skip => exact List.Sublist.refl _
  | cons x rest ih =>
    cases skip with
    | succ skip => exact ih skip
    | zero =>
      rw [sub, List.drop_zero]
      cases hmatch : matchAt (x :: rest) with
      | none => exact (ih 0).cons_cons x
      | some found =>
        obtain ⟨replacement, length⟩ := found
        have hreplacement := h _ _ hmatch
        dsimp only at hreplacement ⊢
        cases length with
        | zero =>
          rw [List.take_zero] at hreplacement
          rw [List.sublist_nil.mp hreplacement, List.nil_append]
          exact (ih 0).cons x
        | succ length =>
          have happend := hreplacement.append (ih length)
          rwa [List.take_succ_cons, List.cons_append, List.take_append_drop] at happend

/-! ## What is dropped -/

section Dropped

variable [DecidableEq α] {matchAt : List α → Option (List α × Nat)}

/-- The elements of the matches that are not put back. -/
def dropped (matchAt : List α → Option (List α × Nat)) : Nat → List α → List α
  | _, [] => []
  | skip + 1, _ :: rest => dropped matchAt skip rest
  | 0, x :: rest =>
      match matchAt (x :: rest) with
      | some (replacement, length) =>
          ((x :: rest).take length).filter (· ∉ replacement) ++ dropped matchAt (length - 1) rest
      | none => dropped matchAt 0 rest

theorem dropped_of_none {x : α} {rest : List α} (h : matchAt (x :: rest) = none) :
    dropped matchAt 0 (x :: rest) = dropped matchAt 0 rest := by
  rw [dropped, h]

/-- A match that nothing is put in the place of. -/
theorem dropped_of_nil {x : α} {rest : List α} {length : Nat}
    (h : matchAt (x :: rest) = some ([], length + 1)) :
    dropped matchAt 0 (x :: rest) = x :: rest.take length ++ dropped matchAt length rest := by
  rw [dropped, h]
  dsimp only
  rw [List.filter_eq_self.mpr fun _ _ => decide_eq_true List.not_mem_nil]
  rfl

/-- Every match has an element. -/
def Advancing (matchAt : List α → Option (List α × Nat)) : Prop :=
  ∀ l m, matchAt l = some m → ∃ length, m.2 = length + 1

theorem dropped_subset (hadvance : Advancing matchAt) (skip : Nat) (l : List α) :
    dropped matchAt skip l ⊆ l.drop skip := by
  induction l generalizing skip with
  | nil => cases skip <;> exact List.nil_subset _
  | cons y rest ih =>
    cases skip with
    | succ skip => exact ih skip
    | zero =>
      rw [dropped, List.drop_zero]
      cases hmatch : matchAt (y :: rest) with
      | none => exact List.Subset.trans (ih 0) (List.subset_cons_self y rest)
      | some found =>
        obtain ⟨replacement, length⟩ := found
        obtain ⟨length, rfl⟩ := hadvance _ _ hmatch
        refine List.append_subset.mpr ⟨?_, ?_⟩
        · exact List.Subset.trans List.filter_sublist.subset (List.take_subset _ _)
        · exact List.Subset.trans (ih length)
            (List.Subset.trans (List.drop_subset _ _) (List.subset_cons_self y rest))

/-- What is not dropped is left. -/
theorem mem_sub_iff (h : Shrinking matchAt) (hadvance : Advancing matchAt) {skip : Nat}
    {l : List α} (hl : l.Nodup) {x : α} :
    x ∈ sub matchAt skip l ↔ x ∈ l.drop skip ∧ x ∉ dropped matchAt skip l := by
  induction l generalizing skip with
  | nil => cases skip <;> simp [sub]
  | cons y rest ih =>
    obtain ⟨hy, hrest⟩ := List.nodup_cons.mp hl
    cases skip with
    | succ skip => exact ih hrest
    | zero =>
      rw [sub, dropped, List.drop_zero]
      cases hmatch : matchAt (y :: rest) with
      | none =>
        dsimp only
        have hnot : y ∉ dropped matchAt 0 rest := fun hmem =>
          hy (dropped_subset hadvance 0 rest hmem)
        rw [List.mem_cons, List.mem_cons, ih hrest, List.drop_zero]
        constructor
        · rintro (rfl | ⟨hmem, hkept⟩)
          · exact ⟨Or.inl rfl, hnot⟩
          · exact ⟨Or.inr hmem, hkept⟩
        · rintro ⟨rfl | hmem, hkept⟩
          · exact Or.inl rfl
          · exact Or.inr ⟨hmem, hkept⟩
      | some found =>
        obtain ⟨replacement, length⟩ := found
        obtain ⟨length, rfl⟩ := hadvance _ _ hmatch
        have hreplacement : replacement ⊆ y :: rest.take length := (h _ _ hmatch).subset
        have hparts : y :: rest.take length ++ rest.drop length = y :: rest := by
          rw [List.cons_append, List.take_append_drop]
        have hdisjoint := (List.nodup_append.mp (hparts.symm ▸ hl)).2.2
        have htail := @dropped_subset α _ matchAt hadvance length rest
        dsimp only
        rw [List.mem_append, Nat.add_sub_cancel, ih hrest, List.mem_append, List.take_succ_cons,
          ← hparts, List.mem_append, List.mem_filter, not_or]
        constructor
        · rintro (hput | ⟨hmem, hkept⟩)
          · refine ⟨Or.inl (hreplacement hput), by simp [hput], fun hdrop => ?_⟩
            exact hdisjoint x (hreplacement hput) x (htail hdrop) rfl
          · exact ⟨Or.inr hmem, fun hfilter => hdisjoint x hfilter.1 x hmem rfl, hkept⟩
        · rintro ⟨hmatched | hmem, hput, hkept⟩
          · refine Or.inl (Classical.not_not.mp fun hnot => hput ⟨hmatched, ?_⟩)
            exact decide_eq_true hnot
          · exact Or.inr ⟨hmem, hkept⟩

end Dropped

/-- A part whose elements are all left is left as it is. -/
theorem exists_append_of_sublist {l before part after : List α}
    (hnodup : (before ++ part ++ after).Nodup) (hl : l.Sublist (before ++ part ++ after))
    (h : part ⊆ l) :
    ∃ b a, l = b ++ part ++ a ∧ b.Sublist before ∧ a.Sublist after := by
  obtain ⟨l', a, rfl, hl', ha⟩ := List.sublist_append_iff.mp hl
  obtain ⟨b, p, rfl, hb, hp⟩ := List.sublist_append_iff.mp hl'
  obtain ⟨hfirst, _, hlast⟩ := List.nodup_append.mp hnodup
  obtain ⟨_, hpart, hinner⟩ := List.nodup_append.mp hfirst
  have hsubset : part ⊆ p := by
    intro x hx
    obtain hmem | hmem := List.mem_append.mp (h hx)
    · obtain hmem | hmem := List.mem_append.mp hmem
      · exact absurd rfl (hinner x (hb.subset hmem) x hx)
      · exact hmem
    · exact absurd rfl (hlast x (List.mem_append_right before hx) x (ha.subset hmem))
  have heq : p = part := hp.eq_of_length_le (List.Nodup.length_le_of_subset hpart hsubset)
  exact ⟨b, a, by rw [heq], hb, ha⟩

end OpenWrtCopilot.Verified.PySub
