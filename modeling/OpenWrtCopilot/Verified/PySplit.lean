import OpenWrtCopilot.Verified.PyText

/-!
# Splitting at a separator

`str.split(sep)` for a separator of several characters, and stripping given
characters.

## Main results

* `splitFrom_of_notMem`, `splitFrom_of_length` — when there is a single field.
* `notMem_splitFrom` — no field has the separator in it.
* `join_splitOn` — the fields with the separators between them are the text.
* `head_splitOn` — the first field ends before the first separator.
* `splitOn_join`, `splitOn_join_cons` — joined lines and fields are found again.
* `parts_append`, `parts_of_notMem` — parts between single characters.
* `map_intercalate`, `map_splitOnP` — what the elements carry has no influence.
-/

namespace OpenWrtCopilot.Verified.PySplit

open Verified.PyText

/-- `t.split(sep)`: `skip` characters belong to a separator that was found, and
`field` is what was read of the current field, backwards. -/
def splitFrom (sep : Text) (skip : Nat) (field : Text) : Text → List Text
  | [] => [field.reverse]
  | c :: rest =>
      match skip with
      | skip + 1 => splitFrom sep skip field rest
      | 0 =>
          if startsWith sep (c :: rest) then
            field.reverse :: splitFrom sep (sep.length - 1) [] rest
          else splitFrom sep 0 (c :: field) rest

def splitOn (sep t : Text) : List Text := splitFrom sep 0 [] t

/-- `t.rstrip(chars)`. -/
def rstripOf (chars t : Text) : Text := t.rdropWhile chars.contains

/-- `t.strip(chars)`. -/
def stripOf (chars t : Text) : Text := rstripOf chars (t.dropWhile chars.contains)

theorem splitFrom_zero_cons (sep field : Text) (c : Char) (rest : Text) :
    splitFrom sep 0 field (c :: rest) =
      if startsWith sep (c :: rest) then
        field.reverse :: splitFrom sep (sep.length - 1) [] rest
      else splitFrom sep 0 (c :: field) rest := rfl

theorem splitFrom_ne_nil (sep : Text) (skip : Nat) (field t : Text) :
    splitFrom sep skip field t ≠ [] := by
  induction t generalizing skip field with
  | nil => exact List.cons_ne_nil _ _
  | cons c rest ih =>
    cases skip with
    | succ skip => exact ih skip field
    | zero =>
      rw [splitFrom_zero_cons]
      split
      · exact List.cons_ne_nil _ _
      · exact ih 0 _

/-- A single field is the whole text. -/
theorem splitFrom_of_length {sep field t : Text} (h : (splitFrom sep 0 field t).length = 1) :
    splitFrom sep 0 field t = [field.reverse ++ t] := by
  induction t generalizing field with
  | nil => simp [splitFrom]
  | cons c rest ih =>
    rw [splitFrom_zero_cons] at h ⊢
    split at h
    · rename_i hsep
      have hne := List.length_pos_iff.mpr (splitFrom_ne_nil sep (sep.length - 1) [] rest)
      rw [List.length_cons] at h
      omega
    · rename_i hsep
      rw [if_neg hsep, ih h]
      simp

/-- A text without the first character of the separator is not split. -/
theorem splitFrom_of_notMem {q : Char} {sep t : Text} (h : q ∉ t) (field : Text) :
    splitFrom (q :: sep) 0 field t = [field.reverse ++ t] := by
  induction t generalizing field with
  | nil => simp [splitFrom]
  | cons c rest ih =>
    have hc : q ≠ c := fun heq => h (heq ▸ List.mem_cons_self)
    have hrest : q ∉ rest := fun hmem => h (List.mem_cons_of_mem c hmem)
    have hstarts : startsWith (q :: sep) (c :: rest) = false := by
      simp [startsWith, List.isPrefixOf, hc]
    rw [splitFrom_zero_cons, hstarts, if_neg Bool.false_ne_true, ih hrest]
    simp

/-- Fields that are separated by one character are without it. -/
theorem notMem_splitFrom {q : Char} {field t part : Text} (hfield : q ∉ field)
    (h : part ∈ splitFrom [q] 0 field t) : q ∉ part := by
  induction t generalizing field with
  | nil =>
    obtain rfl := List.mem_singleton.mp h
    rwa [List.mem_reverse]
  | cons c rest ih =>
    rw [splitFrom_zero_cons] at h
    by_cases hc : q = c
    · rw [if_pos (by simp [startsWith, List.isPrefixOf, hc])] at h
      obtain rfl | h := List.mem_cons.mp h
      · rwa [List.mem_reverse]
      · exact ih List.not_mem_nil h
    · rw [if_neg (by simp [startsWith, List.isPrefixOf, hc])] at h
      refine ih ?_ h
      rw [List.mem_cons, not_or]
      exact ⟨hc, hfield⟩

theorem join_splitFrom {sep : Text} (hsep : sep ≠ []) (skip : Nat) (field t : Text) :
    join sep (splitFrom sep skip field t) = field.reverse ++ t.drop skip := by
  induction t generalizing skip field with
  | nil => rw [splitFrom, join_singleton, List.drop_nil, List.append_nil]
  | cons c rest ih =>
    cases skip with
    | succ skip => exact ih skip field
    | zero =>
      rw [splitFrom_zero_cons]
      split
      · next hstarts =>
          obtain ⟨u, hu⟩ := List.isPrefixOf_iff_prefix.mp hstarts
          have hrest : sep ++ rest.drop (sep.length - 1) = c :: rest := by
            obtain ⟨d, sep, rfl⟩ := List.exists_cons_of_ne_nil hsep
            obtain ⟨rfl, rfl⟩ := List.cons.inj hu
            simp
          rw [join_cons_of_ne_nil _ _ (splitFrom_ne_nil _ _ _ _), ih, List.reverse_nil,
            List.nil_append, List.append_assoc, hrest]
          rfl
      · rw [ih, List.reverse_cons, List.append_assoc]
        rfl

/-- The fields with the separators between them are the text. -/
theorem join_splitOn {sep : Text} (hsep : sep ≠ []) (t : Text) : join sep (splitOn sep t) = t :=
  join_splitFrom hsep 0 [] t

/-! ## One character -/

theorem splitOn_eq_splitOnP (q : Char) (t : Text) : splitOn [q] t = t.splitOnP (· == q) := by
  have hfrom : ∀ field, splitFrom [q] 0 field t = t.splitOnPPrepend (· == q) field := by
    induction t with
    | nil => exact fun field => List.splitOnPPrepend_nil.symm
    | cons c rest ih =>
      intro field
      rw [splitFrom_zero_cons, List.splitOnPPrepend_cons_eq_if]
      by_cases hc : c = q
      · rw [if_pos (by simp [startsWith, List.isPrefixOf, hc]), if_pos (by simp [hc]),
          ← List.splitOnPPrepend_nil_right]
        exact congrArg _ (ih [])
      · rw [if_neg (by simp [startsWith, List.isPrefixOf, Ne.symm hc]), if_neg (by simp [hc])]
        exact ih (c :: field)
  exact hfrom []

/-- Lines that are joined with a character that is in none of them are found again. -/
theorem splitOn_join {q : Char} {lines : List Text} (hlines : ∀ line ∈ lines, q ∉ line)
    (hne : lines ≠ []) : splitOn [q] (join [q] lines) = lines := by
  rw [splitOn_eq_splitOnP]
  exact List.splitOn_intercalate q hlines hne

/-! `t.split(q)` for one character is `List.splitOn q`. -/

theorem parts_append {q : Char} (a b : Text) :
    (a ++ q :: b).splitOn q = a.splitOn q ++ b.splitOn q := by
  rw [List.splitOn_eq_splitOnP, List.splitOn_eq_splitOnP, List.splitOn_eq_splitOnP]
  exact List.splitOnP_append_cons a b (beq_self_eq_true q)

theorem parts_of_notMem {q : Char} {t : Text} (h : q ∉ t) : t.splitOn q = [t] := by
  rw [List.splitOn_eq_splitOnP]
  refine List.splitOnP_eq_singleton fun c hc => ?_
  exact beq_eq_false_iff_ne.mpr fun heq => h (heq ▸ hc)

theorem notMem_of_mem_parts {q : Char} {t part : Text} (h : part ∈ t.splitOn q) : q ∉ part := by
  rw [List.splitOn_eq_splitOnP, ← splitOn_eq_splitOnP] at h
  exact notMem_splitFrom List.not_mem_nil h

theorem map_intercalate {α β : Type} (f : α → β) (sep : List α) (lines : List (List α)) :
    (sep.intercalate lines).map f = (sep.map f).intercalate (lines.map (List.map f)) := by
  induction lines with
  | nil => rfl
  | cons line rest ih =>
    by_cases hrest : rest = []
    · rw [hrest, List.intercalate_singleton]
      exact List.intercalate_singleton.symm
    · have hmap : rest.map (List.map f) ≠ [] := fun h => hrest (List.map_eq_nil_iff.mp h)
      rw [List.intercalate_cons_of_ne_nil hrest, List.map_cons,
        List.intercalate_cons_of_ne_nil hmap, List.map_append, List.map_append, ih]

/-- Splitting looks only at what the elements are mapped to. -/
theorem map_splitOnP {α β : Type} (f : α → β) (p : β → Bool) (l : List α) :
    (l.splitOnP fun x => p (f x)).map (List.map f) = (l.map f).splitOnP p := by
  induction l with
  | nil => rfl
  | cons x rest ih =>
    rw [List.map_cons, List.splitOnP_cons_eq_if_modifyHead, List.splitOnP_cons_eq_if_modifyHead,
      ← ih]
    by_cases hx : p (f x) = true
    · rw [if_pos hx, if_pos hx]
      rfl
    · rw [if_neg hx, if_neg hx]
      cases rest.splitOnP fun x => p (f x) with
      | nil => rfl
      | cons line lines => rfl

/-- The parts have what the list has. -/
theorem subset_splitOnP {α : Type} {p : α → Bool} {l part : List α} (h : part ∈ l.splitOnP p) :
    part ⊆ l := by
  induction l generalizing part with
  | nil =>
    obtain rfl := List.mem_singleton.mp h
    exact List.Subset.refl _
  | cons x rest ih =>
    rw [List.splitOnP_cons_eq_if_modifyHead] at h
    split at h
    · obtain rfl | h := List.mem_cons.mp h
      · exact List.nil_subset _
      · exact List.subset_cons_of_subset x (ih h)
    · obtain ⟨first, others, hsplit⟩ :=
        List.exists_cons_of_ne_nil (List.splitOnP_ne_nil p rest)
      rw [hsplit, List.modifyHead_cons] at h
      rw [hsplit] at ih
      obtain rfl | h := List.mem_cons.mp h
      · exact List.cons_subset_cons x (ih List.mem_cons_self)
      · exact List.subset_cons_of_subset x (ih (List.mem_cons_of_mem first h))

/-! ## Joined fields -/

theorem splitFrom_length (sep field u t : Text) :
    splitFrom sep u.length field (u ++ t) = splitFrom sep 0 field t := by
  induction u with
  | nil => rfl
  | cons c u ih => exact ih

/-- A field without the first character of the separator ends at the separator. -/
theorem splitFrom_append {q : Char} {sep part : Text} (h : q ∉ part) (field t : Text) :
    splitFrom (q :: sep) 0 field (part ++ (q :: sep ++ t)) =
      (field.reverse ++ part) :: splitFrom (q :: sep) 0 [] t := by
  induction part generalizing field with
  | nil =>
    rw [List.nil_append, List.cons_append, splitFrom_zero_cons, ← List.cons_append,
      startsWith_append, if_pos rfl, List.append_nil]
    exact congrArg _ (splitFrom_length (q :: sep) [] sep t)
  | cons c part ih =>
    have hc : q ≠ c := fun heq => h (heq ▸ List.mem_cons_self)
    have hpart : q ∉ part := fun hmem => h (List.mem_cons_of_mem c hmem)
    have hstarts : startsWith (q :: sep) (c :: (part ++ (q :: sep ++ t))) = false := by
      simp [startsWith, List.isPrefixOf, hc]
    rw [List.cons_append, splitFrom_zero_cons, hstarts, if_neg Bool.false_ne_true, ih hpart]
    simp

/-- Fields without the first character of the separator are found again. -/
theorem splitOn_join_cons {q : Char} {sep : Text} {parts : List Text}
    (hparts : ∀ part ∈ parts, q ∉ part) (hne : parts ≠ []) :
    splitOn (q :: sep) (join (q :: sep) parts) = parts := by
  induction parts with
  | nil => exact absurd rfl hne
  | cons part parts ih =>
    obtain ⟨hpart, hparts⟩ := List.forall_mem_cons.mp hparts
    by_cases hrest : parts = []
    · rw [hrest, join_singleton, splitOn, splitFrom_of_notMem hpart]
      rfl
    · rw [join_cons_of_ne_nil _ _ hrest, splitOn, List.append_assoc, splitFrom_append hpart]
      exact congrArg _ (ih hparts hrest)

/-! ## The first field -/

/-- The first field is what stands before a separator, or less. -/
theorem head_splitFrom {sep : Text} (hsep : sep ≠ []) (a b field : Text) :
    ∃ u, u <+: a ∧ (splitFrom sep 0 field (a ++ (sep ++ b))).head? = some (field.reverse ++ u) := by
  induction a generalizing field with
  | nil =>
    obtain ⟨c, rest, rfl⟩ := List.exists_cons_of_ne_nil hsep
    refine ⟨[], List.prefix_rfl, ?_⟩
    rw [List.nil_append, List.cons_append, splitFrom_zero_cons, ← List.cons_append,
      startsWith_append, if_pos rfl, List.append_nil]
    rfl
  | cons c a ih =>
    rw [List.cons_append, splitFrom_zero_cons]
    split
    · exact ⟨[], List.nil_prefix, by simp⟩
    · obtain ⟨u, hu, hhead⟩ := ih (c :: field)
      exact ⟨c :: u, (List.cons_prefix_cons).mpr ⟨rfl, hu⟩, by rw [hhead]; simp⟩

theorem head_splitOn {sep : Text} (hsep : sep ≠ []) (a b : Text) :
    ∃ u, u <+: a ∧ (splitOn sep (a ++ (sep ++ b))).head? = some u :=
  head_splitFrom hsep a b []

end OpenWrtCopilot.Verified.PySplit
