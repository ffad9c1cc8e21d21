import Mathlib.Data.List.Basic
import Mathlib.Algebra.Order.Group.Nat
import Mathlib.Tactic.Ring

/-!
# Consecutive pieces of a list

`chunks n l` cuts `l` into consecutive pieces of `n` elements, the last of which
may be shorter: the slices `l[i : i + n]` for `i` in `range(0, len(l), n)`.

## Main results

* `flatten_chunks` — the pieces put together are the list.
* `length_of_mem_chunks` — no piece is empty or longer than `n`.
* `length_chunks` — how many pieces there are.
* `chunks_flatMap` — cutting an encoding of fixed width at a multiple of it.
* `exists_mem_windows` — overlapping pieces leave nothing out.
-/

namespace OpenWrtCopilot.Verified.Chunks

variable {α : Type}

/-- The consecutive pieces of `n` elements of a list. -/
def chunks (n : Nat) (l : List α) : List (List α) :=
  if n = 0 ∨ l = [] then [] else l.take n :: chunks n (l.drop n)
termination_by l.length
decreasing_by
  rename_i h
  have hn : 0 < n := Nat.pos_of_ne_zero fun hzero => h (Or.inl hzero)
  have hl : 0 < l.length := List.length_pos_iff.mpr fun hnil => h (Or.inr hnil)
  rw [List.length_drop]
  omega

@[simp] theorem chunks_nil (n : Nat) : chunks n ([] : List α) = [] := by
  rw [chunks]
  simp

theorem chunks_of_ne_nil {n : Nat} (hn : 0 < n) {l : List α} (hl : l ≠ []) :
    chunks n l = l.take n :: chunks n (l.drop n) := by
  rw [chunks, if_neg]
  intro h
  rcases h with hzero | hnil
  · omega
  · exact hl hnil

/-- Induction along the pieces. -/
theorem chunks_induction {n : Nat} (hn : 0 < n) {P : List α → Prop} (nil : P [])
    (step : ∀ l, l ≠ [] → P (l.drop n) → P l) (l : List α) : P l := by
  induction hlen : l.length using Nat.strong_induction_on generalizing l with
  | _ len ih =>
    by_cases hl : l = []
    · rw [hl]
      exact nil
    · have hpos : 0 < l.length := List.length_pos_iff.mpr hl
      refine step l hl (ih (l.drop n).length ?_ (l.drop n) rfl)
      rw [List.length_drop]
      omega

theorem flatten_chunks {n : Nat} (hn : 0 < n) (l : List α) : (chunks n l).flatten = l := by
  induction l using chunks_induction hn with
  | nil => simp
  | step l hl ih =>
    rw [chunks_of_ne_nil hn hl, List.flatten_cons, ih, List.take_append_drop]

theorem length_of_mem_chunks {n : Nat} (hn : 0 < n) (l : List α) :
    ∀ piece ∈ chunks n l, 0 < piece.length ∧ piece.length ≤ n := by
  induction l using chunks_induction hn with
  | nil => simp
  | step l hl ih =>
    have hpos : 0 < l.length := List.length_pos_iff.mpr hl
    intro piece hpiece
    rw [chunks_of_ne_nil hn hl, List.mem_cons] at hpiece
    rcases hpiece with rfl | hrest
    · rw [List.length_take]
      omega
    · exact ih piece hrest

theorem length_chunks {n : Nat} (hn : 0 < n) (l : List α) :
    (chunks n l).length = (l.length + (n - 1)) / n := by
  induction l using chunks_induction hn with
  | nil =>
    rw [chunks_nil, List.length_nil, List.length_nil, Nat.zero_add]
    exact (Nat.div_eq_of_lt (by omega)).symm
  | step l hl ih =>
    have hpos : 0 < l.length := List.length_pos_iff.mpr hl
    rw [chunks_of_ne_nil hn hl, List.length_cons, ih, List.length_drop]
    by_cases hle : l.length ≤ n
    · have hrest : l.length - n + (n - 1) = n - 1 := by omega
      have hall : l.length + (n - 1) = (l.length - 1) + n := by omega
      rw [hrest, hall, Nat.add_div_right _ hn, Nat.div_eq_of_lt (show n - 1 < n by omega),
        Nat.div_eq_of_lt (show l.length - 1 < n by omega)]
    · have hall : l.length + (n - 1) = (l.length - n + (n - 1)) + n := by omega
      rw [hall, Nat.add_div_right _ hn]

/-! ## Encodings of fixed width -/

section FlatMap

variable {β : Type} {f : α → List β} {width : Nat}

theorem take_flatMap (h : ∀ x, (f x).length = width) (n : Nat) (l : List α) :
    (l.flatMap f).take (width * n) = (l.take n).flatMap f := by
  induction n generalizing l with
  | zero => simp
  | succ n ih =>
    cases l with
    | nil => simp
    | cons x l =>
      have hsplit : width * (n + 1) = (f x).length + width * n := by
        rw [h x, Nat.mul_succ, Nat.add_comm]
      rw [List.flatMap_cons, hsplit, List.take_length_add_append, ih, List.take_succ_cons,
        List.flatMap_cons]

theorem drop_flatMap (h : ∀ x, (f x).length = width) (n : Nat) (l : List α) :
    (l.flatMap f).drop (width * n) = (l.drop n).flatMap f := by
  induction n generalizing l with
  | zero => simp
  | succ n ih =>
    cases l with
    | nil => simp
    | cons x l =>
      have hsplit : width * (n + 1) = (f x).length + width * n := by
        rw [h x, Nat.mul_succ, Nat.add_comm]
      rw [List.flatMap_cons, hsplit, List.drop_length_add_append, ih, List.drop_succ_cons]

/-- Pieces of an encoded text are the encoded pieces, so no code word is cut. -/
theorem chunks_flatMap (hwidth : 0 < width) (h : ∀ x, (f x).length = width) {n : Nat}
    (hn : 0 < n) (l : List α) :
    chunks (width * n) (l.flatMap f) = (chunks n l).map (·.flatMap f) := by
  have hpos : 0 < width * n := Nat.mul_pos hwidth hn
  induction l using chunks_induction hn with
  | nil => simp
  | step l hl ih =>
    have hne : l.flatMap f ≠ [] := by
      obtain ⟨x, rest, rfl⟩ := List.exists_cons_of_ne_nil hl
      intro hnil
      have hx : f x = [] := (List.append_eq_nil_iff.mp hnil).1
      have hlen := h x
      rw [hx, List.length_nil] at hlen
      omega
    rw [chunks_of_ne_nil hpos hne, chunks_of_ne_nil hn hl, take_flatMap h, drop_flatMap h, ih,
      List.map_cons]

end FlatMap

/-! ## Overlapping pieces -/

/-- The pieces of `size` elements that begin `stride` elements apart, until one reaches the
end of the list; `skip` elements are left before the next piece. -/
def windowsFrom (size stride skip : Nat) : List α → List (List α)
  | [] => []
  | x :: rest =>
      match skip with
      | skip + 1 => windowsFrom size stride skip rest
      | 0 =>
          (x :: rest).take size ::
            if (x :: rest).length ≤ size then [] else windowsFrom size stride (stride - 1) rest

def windows (size stride : Nat) (l : List α) : List (List α) := windowsFrom size stride 0 l

@[simp] theorem windows_nil (size stride : Nat) : windows size stride ([] : List α) = [] := rfl

theorem windowsFrom_skip (size stride skip : Nat) (l : List α) :
    windowsFrom size stride skip l = windows size stride (l.drop skip) := by
  induction skip generalizing l with
  | zero => rfl
  | succ skip ih =>
    cases l with
    | nil => rfl
    | cons x rest => exact ih rest

theorem windows_of_ne_nil {size stride : Nat} (hstride : 0 < stride) {l : List α} (hl : l ≠ []) :
    windows size stride l =
      l.take size :: if l.length ≤ size then [] else windows size stride (l.drop stride) := by
  obtain ⟨x, rest, rfl⟩ := List.exists_cons_of_ne_nil hl
  obtain ⟨n, rfl⟩ : ∃ n, stride = n + 1 := ⟨stride - 1, by omega⟩
  rw [windows, windowsFrom, windowsFrom_skip]
  rfl

/-- A list that fits in one piece. -/
theorem windows_of_length_le {size stride : Nat} (hstride : 0 < stride) {l : List α}
    (hl : l ≠ []) (hsize : l.length ≤ size) : windows size stride l = [l] := by
  rw [windows_of_ne_nil hstride hl, if_pos hsize, List.take_of_length_le hsize]

theorem infix_of_mem_windows {size stride : Nat} (hstride : 0 < stride) {l piece : List α}
    (h : piece ∈ windows size stride l) : piece <:+: l := by
  induction l using chunks_induction hstride with
  | nil => exact absurd h List.not_mem_nil
  | step l hl ih =>
    rw [windows_of_ne_nil hstride hl] at h
    obtain rfl | h := List.mem_cons.mp h
    · exact (List.take_prefix size l).isInfix
    · split at h
      · exact absurd h List.not_mem_nil
      · exact (ih h).trans (List.drop_suffix stride l).isInfix

/-- Pieces that begin no further apart than they are long leave nothing out. -/
theorem exists_mem_windows {size stride : Nat} (hstride : 0 < stride) (hle : stride ≤ size)
    {l : List α} {x : α} (hx : x ∈ l) : ∃ piece ∈ windows size stride l, x ∈ piece := by
  induction l using chunks_induction hstride with
  | nil => exact absurd hx List.not_mem_nil
  | step l hl ih =>
    rw [windows_of_ne_nil hstride hl]
    by_cases hfirst : x ∈ l.take size
    · exact ⟨l.take size, List.mem_cons_self, hfirst⟩
    · have hlong : ¬ l.length ≤ size := by
        intro hshort
        rw [List.take_of_length_le hshort] at hfirst
        exact hfirst hx
      have hrest : x ∈ l.drop stride := by
        rw [← List.take_append_drop size l, List.mem_append] at hx
        refine List.mem_of_mem_drop (i := size - stride) ?_
        rw [List.drop_drop, Nat.add_sub_cancel' hle]
        exact hx.resolve_left hfirst
      obtain ⟨piece, hpiece, hmem⟩ := ih hrest
      rw [if_neg hlong]
      exact ⟨piece, List.mem_cons_of_mem _ hpiece, hmem⟩

end OpenWrtCopilot.Verified.Chunks
