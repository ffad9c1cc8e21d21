import OpenWrtCopilot.Verified.PyWords

/-!
# Pieces between separators

The pieces of a list are what stands between separators, where something stands there.
`str.split()` gives the pieces between spaces.

## Main results

* `pieces_append_left`, `pieces_append_right` — lists with a separator between them have their own
  pieces.
* `piecewise_of_separators` — a function that keeps separators works on each piece.
* `exists_mem_splitOnP` — the part between separators that some elements are in.
-/

namespace OpenWrtCopilot.Verified.PyPieces

open Verified.PyText

section Pieces

variable {α : Type} {p : α → Bool}

/-- The parts between separators that are not empty. -/
def pieces (p : α → Bool) (l : List α) : List (List α) := (l.splitOnP p).filter (!·.isEmpty)

theorem pieces_append_cons {c : α} (h : p c = true) (a b : List α) :
    pieces p (a ++ c :: b) = pieces p a ++ pieces p b := by
  rw [pieces, List.splitOnP_append_cons a b h, List.filter_append]
  rfl

theorem pieces_of_solid {a : List α} (h : ∀ c ∈ a, p c = false) :
    pieces p a = [a].filter (!·.isEmpty) := by
  rw [pieces, List.splitOnP_eq_singleton h]

theorem pieces_nil : pieces p [] = [] := rfl

theorem pieces_cons {c : α} (h : p c = true) (b : List α) : pieces p (c :: b) = pieces p b :=
  pieces_append_cons h [] b

theorem pieces_concat {c : α} (h : p c = true) (a : List α) : pieces p (a ++ [c]) = pieces p a := by
  rw [pieces_append_cons h, pieces_nil, List.append_nil]

/-- A list that ends with a separator has its own pieces. -/
theorem pieces_append_left {a : List α} (h : ∀ c ∈ a.getLast?, p c = true) (b : List α) :
    pieces p (a ++ b) = pieces p a ++ pieces p b := by
  induction a using List.reverseRecOn with
  | nil => rfl
  | append_singleton a c _ =>
    have hc : p c = true := h c (by rw [List.getLast?_concat]; rfl)
    rw [List.append_assoc, List.singleton_append, pieces_append_cons hc, pieces_concat hc]

/-- A list that begins with a separator has its own pieces. -/
theorem pieces_append_right {b : List α} (h : ∀ c ∈ b.head?, p c = true) (a : List α) :
    pieces p (a ++ b) = pieces p a ++ pieces p b := by
  cases b with
  | nil => rw [pieces_nil, List.append_nil, List.append_nil]
  | cons c b =>
    have hc : p c = true := h c rfl
    rw [pieces_append_cons hc, pieces_cons hc]

/-- A list without separators, or one up to its first separator and what follows it. -/
theorem exists_first_separator (p : α → Bool) (l : List α) :
    (∀ c ∈ l, p c = false) ∨
      ∃ a c b, l = a ++ c :: b ∧ (∀ d ∈ a, p d = false) ∧ p c = true := by
  induction l with
  | nil => exact Or.inl (List.forall_mem_nil _)
  | cons c l ih =>
    cases hc : p c with
    | true => exact Or.inr ⟨[], c, l, rfl, List.forall_mem_nil _, hc⟩
    | false =>
      obtain hall | ⟨a, d, b, rfl, ha, hd⟩ := ih
      · exact Or.inl (List.forall_mem_cons.mpr ⟨hc, hall⟩)
      · exact Or.inr ⟨c :: a, d, b, rfl, List.forall_mem_cons.mpr ⟨hc, ha⟩, hd⟩

theorem pieces_congr {q : α → Bool} {l : List α} (h : ∀ c ∈ l, p c = q c) :
    pieces p l = pieces q l := by
  have hsplit : l.splitOnP p = l.splitOnP q := by
    induction l with
    | nil => rfl
    | cons c l ih =>
      rw [List.splitOnP_cons_eq_if_modifyHead, List.splitOnP_cons_eq_if_modifyHead,
        h c List.mem_cons_self, ih fun d hd => h d (List.mem_cons_of_mem c hd)]
  rw [pieces, pieces, hsplit]

/-! ## Piece by piece -/

/-- The pieces of the result are what becomes of the pieces, where something is left. -/
def Piecewise (p : α → Bool) (f g : List α → List α) : Prop :=
  ∀ l, pieces p (f l) = ((pieces p l).map g).filter (!·.isEmpty)

/-- A function that keeps separators, and makes none of other elements, works on each piece. -/
theorem piecewise_of_separators {f : List α → List α} (hnil : f [] = [])
    (hseparator : ∀ a c b, p c = true → ∃ d, p d = true ∧ f (a ++ c :: b) = f a ++ d :: f b)
    (hsolid : ∀ a, (∀ c ∈ a, p c = false) → ∀ c ∈ f a, p c = false) : Piecewise p f f := by
  have hpart : ∀ a, (∀ c ∈ a, p c = false) →
      pieces p (f a) = ((pieces p a).map f).filter (!·.isEmpty) := by
    intro a ha
    rw [pieces_of_solid (hsolid a ha), pieces_of_solid ha]
    cases a with
    | nil =>
      rw [hnil]
      rfl
    | cons c a => rfl
  intro l
  induction hn : l.length using Nat.strong_induction_on generalizing l with
  | _ n ih =>
    obtain hall | ⟨a, c, b, rfl, ha, hc⟩ := exists_first_separator p l
    · exact hpart l hall
    · have hshorter : b.length < n := by
        rw [← hn, List.length_append, List.length_cons]
        omega
      obtain ⟨d, hd, hsplit⟩ := hseparator a c b hc
      rw [hsplit, pieces_append_cons hd, pieces_append_cons hc, hpart a ha,
        ih b.length hshorter b rfl, List.map_append, List.filter_append]

theorem Piecewise.comp {f g f' g' : List α → List α} (hg : Piecewise p g g')
    (hf : Piecewise p f f') (hnil : g' [] = []) : Piecewise p (g ∘ f) (g' ∘ f') := by
  intro l
  rw [Function.comp_apply, hg, hf]
  induction pieces p l with
  | nil => rfl
  | cons a rest ih =>
    rw [List.map_cons, List.map_cons, Function.comp_apply]
    cases hfa : f' a with
    | nil =>
      rw [hnil]
      exact ih
    | cons c t =>
      rw [List.filter_cons_of_pos rfl, List.map_cons, List.filter_cons, List.filter_cons, ih]

theorem Piecewise.append {f g : List α → List α} (h : Piecewise p f g) {a b : List α}
    (hab : pieces p (a ++ b) = pieces p a ++ pieces p b) :
    pieces p (f (a ++ b)) = pieces p (f a) ++ pieces p (f b) := by
  rw [h, h, h, hab, List.map_append, List.filter_append]

/-! ## The part that elements are in -/

/-- Elements between which there is no separator are in one part, which has more on a side only if
there is no separator next to them. -/
theorem exists_mem_splitOnP {x : List α} (hx : ∀ c ∈ x, p c = false) (u v : List α) :
    ∃ a b, a ++ x ++ b ∈ (u ++ x ++ v).splitOnP p ∧
      (∀ c ∈ a.getLast?, c ∈ u.getLast? ∧ p c = false) ∧
      ∀ c ∈ b.head?, c ∈ v.head? ∧ p c = false := by
  have hright : ∀ y : List α, (∀ c ∈ y, p c = false) →
      ∃ b, y ++ b ∈ (y ++ v).splitOnP p ∧ ∀ c ∈ b.head?, c ∈ v.head? ∧ p c = false := by
    intro y hy
    obtain hall | ⟨b, c, rest, rfl, hb, hc⟩ := exists_first_separator p v
    · refine ⟨v, ?_, fun c hhead => ⟨hhead, hall c (List.mem_of_mem_head? hhead)⟩⟩
      rw [List.splitOnP_eq_singleton (List.forall_mem_append.mpr ⟨hy, hall⟩)]
      exact List.mem_singleton_self _
    · refine ⟨b, ?_, fun d hhead => ⟨?_, hb d (List.mem_of_mem_head? hhead)⟩⟩
      · rw [← List.append_assoc, List.splitOnP_append_cons_of_forall_mem
          (List.forall_mem_append.mpr ⟨hy, hb⟩) c hc]
        exact List.mem_cons_self
      · rw [List.head?_append, hhead]
        rfl
  induction hn : u.length using Nat.strong_induction_on generalizing u with
  | _ n ih =>
    obtain hall | ⟨first, c, rest, rfl, hfirst, hc⟩ := exists_first_separator p u
    · obtain ⟨b, hmem, hb⟩ := hright (u ++ x) (List.forall_mem_append.mpr ⟨hall, hx⟩)
      exact ⟨u, b, hmem, fun c hc => ⟨hc, hall c (List.mem_of_mem_getLast? hc)⟩, hb⟩
    · have hshorter : rest.length < n := by
        rw [← hn, List.length_append, List.length_cons]
        omega
      obtain ⟨a, b, hmem, ha, hb⟩ := ih rest.length hshorter rest rfl
      refine ⟨a, b, ?_, fun d hd => ⟨?_, (ha d hd).2⟩, hb⟩
      · rw [List.append_assoc, List.append_assoc, List.cons_append, ← List.append_assoc rest,
          List.splitOnP_append_cons_of_forall_mem hfirst c hc]
        exact List.mem_cons_of_mem first hmem
      · have hlast := (ha d hd).1
        rw [List.getLast?_append, List.getLast?_cons, hlast]
        rfl

/-! ## Words -/

/-- `str.split()` gives the pieces between spaces. -/
theorem words_eq_pieces (t : Text) : words t = pieces isSpace t := by
  induction hn : t.length using Nat.strong_induction_on generalizing t with
  | _ n ih =>
    obtain hall | ⟨a, c, b, rfl, ha, hc⟩ := exists_first_separator isSpace t
    · rw [pieces_of_solid hall]
      cases t with
      | nil => rfl
      | cons c t => exact words_word ⟨List.cons_ne_nil c t, hall⟩
    · have hshorter : b.length < n := by
        rw [← hn, List.length_append, List.length_cons]
        omega
      have hbetween : Between a (c :: b) := fun _ _ d hd => Or.inr (Option.some.inj hd ▸ hc)
      rw [words_append hbetween, words_cons_space hc, pieces_append_cons hc,
        ih a.length (by rw [← hn, List.length_append, List.length_cons]; omega) a rfl,
        ih b.length hshorter b rfl]

end Pieces

end OpenWrtCopilot.Verified.PyPieces
