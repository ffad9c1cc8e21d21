import OpenWrtCopilot.Verified.PyWords
import Mathlib.Algebra.BigOperators.Group.List.Basic
import Mathlib.Data.List.Perm.Subperm

/-!
# Lists divided by markers

`divide` cuts a list at its markers: what stands before the first, and each marker with what
follows it.  Weights tell which markers were meant: where a division holds the parts that were
written, and the whole weighs no more than they do, it holds nothing else.

For texts the weight counts what is no white space, which neither `splitlines` nor `strip` changes.

## Main results

* `sum_divide` — a division has the weight of the list.
* `perm_of_parts` — a division that holds the parts that were written.
* `weight_splitlines`, `weight_strip` — lines and stripped texts have the weight of the text.
* `strip_lined_iff` — when the lines of a text are joined to the text they came from.
-/

namespace OpenWrtCopilot.Verified.DividedLines

open Verified.PyText

/-! ## Divisions -/

section

variable {α : Type} {marks : α → Bool}

/-- What stands before the first marker, and the markers with what follows them. -/
def divide (marks : α → Bool) : List α → List α × List (α × List α)
  | [] => ([], [])
  | item :: items =>
      let (front, parts) := divide marks items
      if marks item then ([], (item, front) :: parts) else (item :: front, parts)

theorem divide_cons (item : α) (items : List α) :
    divide marks (item :: items) =
      if marks item then ([], (item, (divide marks items).1) :: (divide marks items).2)
      else (item :: (divide marks items).1, (divide marks items).2) := rfl

theorem marks_of_mem_divide {items : List α} {part : α × List α}
    (h : part ∈ (divide marks items).2) : part.1 ∈ items ∧ marks part.1 = true := by
  induction items with
  | nil => exact absurd h List.not_mem_nil
  | cons item items ih =>
    rw [divide_cons] at h
    split at h
    · rename_i hitem
      obtain rfl | h := List.mem_cons.mp h
      · exact ⟨List.mem_cons_self, hitem⟩
      · exact ⟨List.mem_cons_of_mem _ (ih h).1, (ih h).2⟩
    · exact ⟨List.mem_cons_of_mem _ (ih h).1, (ih h).2⟩

/-- Items that are no markers belong to what came before. -/
theorem divide_append {before : List α} (h : ∀ item ∈ before, marks item = false)
    (items : List α) :
    divide marks (before ++ items) =
      (before ++ (divide marks items).1, (divide marks items).2) := by
  induction before with
  | nil => rfl
  | cons item before ih =>
    rw [List.cons_append, divide_cons,
      ih fun other hother => h other (List.mem_cons_of_mem _ hother),
      h item List.mem_cons_self, if_neg Bool.false_ne_true]
    rfl

/-- A marker ends what stands before the first. -/
theorem divide_front {items : List α} (h : ∃ item ∈ items, marks item = true)
    (rest : List α) : (divide marks (items ++ rest)).1 = (divide marks items).1 := by
  induction items with
  | nil => exact absurd h (by simp)
  | cons item items ih =>
    rw [List.cons_append, divide_cons, divide_cons]
    split
    · rfl
    · rename_i hitem
      obtain ⟨other, hother, hmarks⟩ := h
      have htail : ∃ item ∈ items, marks item = true := by
        obtain rfl | hother := List.mem_cons.mp hother
        · exact absurd hmarks hitem
        · exact ⟨other, hother, hmarks⟩
      rw [ih htail]

/-- The weight of a list. -/
def total (weight : α → Nat) (items : List α) : Nat := (items.map weight).sum

/-- The weight of parts, markers included. -/
def totalParts (weight : α → Nat) (parts : List (α × List α)) : Nat :=
  (parts.map fun part => weight part.1 + total weight part.2).sum

theorem total_append (weight : α → Nat) (items rest : List α) :
    total weight (items ++ rest) = total weight items + total weight rest := by
  rw [total, List.map_append, List.sum_append]
  rfl

theorem total_cons (weight : α → Nat) (item : α) (items : List α) :
    total weight (item :: items) = weight item + total weight items := List.sum_cons

/-- A division has the weight of the list. -/
theorem sum_divide (weight : α → Nat) (items : List α) :
    total weight (divide marks items).1 + totalParts weight (divide marks items).2 =
      total weight items := by
  induction items with
  | nil => rfl
  | cons item items ih =>
    rw [divide_cons, total_cons, ← ih]
    split
    · simp only [totalParts, List.map_cons, List.sum_cons, total, List.map_nil, List.sum_nil]
      omega
    · simp only [total_cons]
      omega

/-- A marker takes its weight from what stands before it. -/
theorem front_lt {weight : α → Nat} {items : List α} (h : ∃ item ∈ items, marks item = true)
    (hpos : ∀ item, marks item = true → 0 < weight item) :
    total weight (divide marks items).1 < total weight items := by
  induction items with
  | nil => exact absurd h (by simp)
  | cons item items ih =>
    rw [divide_cons, total_cons]
    split
    · rename_i hitem
      exact Nat.lt_of_lt_of_le (hpos item hitem) (Nat.le_add_right _ _)
    · rename_i hitem
      obtain ⟨other, hother, hmarks⟩ := h
      have htail : ∃ item ∈ items, marks item = true := by
        obtain rfl | hother := List.mem_cons.mp hother
        · exact absurd hmarks hitem
        · exact ⟨other, hother, hmarks⟩
      rw [total_cons]
      exact Nat.add_lt_add_left (ih htail) _

/-- **Parts that hold what was written and weigh no more hold nothing else.** -/
theorem perm_of_parts {weight : α → Nat} {written parts : List (α × List α)}
    (hnodup : written.Nodup) (hsub : written ⊆ parts)
    (hpos : ∀ part ∈ parts, 0 < weight part.1)
    (hsum : totalParts weight parts ≤ totalParts weight written) : written.Perm parts := by
  obtain ⟨held, hheld, hsublist⟩ := hnodup.subperm hsub
  obtain ⟨more, hrest⟩ := hsublist.exists_perm_append
  have hmore : parts.Perm (written ++ more) := hrest.trans (hheld.append_right more)
  have hnil : more = [] := by
    cases more with
    | nil => rfl
    | cons part more =>
      have htotal : totalParts weight parts = totalParts weight (written ++ part :: more) :=
        (hmore.map _).sum_eq
      have hpart := hpos part (hmore.mem_iff.mpr (by simp))
      simp only [totalParts, List.map_append, List.map_cons, List.sum_append,
        List.sum_cons] at htotal hsum
      omega
  rw [hnil, List.append_nil] at hmore
  exact hmore.symm

end

/-! ## The weight of a text -/

/-- What is no white space of a text. -/
def weight (t : Text) : Nat := t.countP fun c => !isSpace c

theorem weight_append (t rest : Text) : weight (t ++ rest) = weight t + weight rest :=
  List.countP_append

theorem weight_of_blank {t : Text} (h : ∀ c ∈ t, isSpace c = true) : weight t = 0 :=
  List.countP_eq_zero.mpr fun c hc => by rw [h c hc]; decide

theorem weight_cons (c : Char) (t : Text) :
    weight (c :: t) = weight t + if isSpace c then 0 else 1 := by
  rw [weight, List.countP_cons, ← weight]
  cases isSpace c <;> rfl

theorem weight_lstrip (t : Text) : weight (lstrip t) = weight t := by
  have hblank : weight (t.takeWhile isSpace) = 0 :=
    weight_of_blank fun _ hc => List.mem_takeWhile_imp hc
  rw [← List.takeWhile_append_dropWhile (p := isSpace) (l := t), weight_append, hblank,
    Nat.zero_add, List.takeWhile_append_dropWhile]
  rfl

theorem weight_reverse (t : Text) : weight t.reverse = weight t := List.countP_reverse

theorem weight_strip (t : Text) : weight (strip t) = weight t := by
  rw [strip, rstrip, List.rdropWhile, weight_reverse, ← lstrip, weight_lstrip, weight_reverse,
    weight_lstrip]

theorem weight_join (lines : List Text) : weight (join "\n" lines) = total weight lines := by
  induction lines with
  | nil => rfl
  | cons line lines ih =>
    by_cases h : lines = []
    · rw [h, join_singleton]
      rfl
    · rw [join_cons_of_ne_nil _ _ h, weight_append, weight_append, ih, total_cons]
      rfl

theorem weight_boundary {c : Char} (h : isLineBoundary c = true) (t : Text) :
    weight (c :: t) = weight t := by
  rw [weight_cons, if_pos (isSpace_of_isLineBoundary h), Nat.add_zero]

theorem weight_splitlines (t : Text) : total weight (splitlines t) = weight t := by
  induction t using splitlines_induction with
  | nil => rfl
  | pair cs ih =>
    rw [splitlines_crlf, total_cons, ih, weight_boundary isLineBoundary_return,
      weight_boundary isLineBoundary_newline]
    exact Nat.zero_add _
  | boundary c cs hpair hc ih =>
    rw [splitlines, if_pos hc, total_cons, ih, weight_boundary hc]
    · exact Nat.zero_add _
    · exact hpair
  | last c cs hpair hc hnil ih =>
    rw [splitlines, if_neg hc, hnil, weight_cons, ← ih, hnil, total_cons, weight_cons]
    · rfl
    · exact hpair
  | inner c cs hpair hc line lines hcons ih =>
    rw [splitlines, if_neg hc, hcons, weight_cons, ← ih, hcons, total_cons, weight_cons,
      total_cons]
    · omega
    · exact hpair

/-! ## Lines of texts -/

/-- A text that is empty or ends with a line break. -/
def Ended (t : Text) : Prop := ∀ c ∈ t.getLast?, isLineBoundary c = true

instance (t : Text) : Decidable (Ended t) := by
  unfold Ended
  infer_instance

/-- An ended text is split on its own. -/
theorem splitlines_append {t rest : Text} (h : Ended t) (hrest : rest.head? ≠ some '\n') :
    splitlines (t ++ rest) = splitlines t ++ splitlines rest := by
  induction t using splitlines_induction with
  | nil => rfl
  | pair cs ih =>
    rw [List.cons_append, List.cons_append, splitlines_crlf, splitlines_crlf, ih]
    · rfl
    · intro c hc
      cases cs with
      | nil => exact nomatch hc
      | cons d ds => exact h c (by simpa using hc)
  | boundary c cs hpair hc ih =>
    have hcs : Ended cs := by
      intro d hd
      cases cs with
      | nil => exact nomatch hd
      | cons e es => exact h d (by simpa using hd)
    rw [List.cons_append, splitlines, if_pos hc, ih hcs, splitlines, if_pos hc]
    · rfl
    · exact hpair
    · intro ds hr hds
      cases cs with
      | nil => exact hrest (by rw [List.nil_append] at hds; rw [hds]; rfl)
      | cons e es => exact hpair es hr (by rw [(List.cons.inj hds).1])
  | last c cs hpair hc hnil ih =>
    cases cs with
    | nil => exact absurd (h c rfl) hc
    | cons d ds => exact absurd hnil splitlines_ne_nil
  | inner c cs hpair hc line lines hcons ih =>
    have hc' : isLineBoundary c = false := Bool.eq_false_iff.mpr hc
    have hcs : Ended cs := by
      intro d hd
      cases cs with
      | nil => exact nomatch hd
      | cons e es => exact h d (by simpa using hd)
    rw [List.cons_append, splitlines_ordinary hc', ih hcs, hcons, splitlines_ordinary hc', hcons]
    rfl

/-- A final newline adds no line but an empty one. -/
theorem splitlines_concat (t : Text) :
    splitlines (t ++ ['\n']) = splitlines t ∨ splitlines (t ++ ['\n']) = splitlines t ++ [[]] := by
  induction t using splitlines_induction with
  | nil => exact .inr (splitlines_newline [])
  | pair cs ih =>
    rw [List.cons_append, List.cons_append, splitlines_crlf, splitlines_crlf]
    exact ih.imp (fun h => by rw [h]) fun h => by rw [h]; rfl
  | boundary c cs hpair hc ih =>
    by_cases hlast : c = '\r' ∧ cs = []
    · rw [hlast.1, hlast.2]
      exact .inl rfl
    · have hcs : ¬(c = '\r' ∧ (cs ++ ['\n']).head? = some '\n') := by
        rintro ⟨hr, hhead⟩
        cases cs with
        | nil => exact hlast ⟨hr, rfl⟩
        | cons d ds => exact hpair ds hr (by rw [Option.some.inj hhead])
      have hcs' : ¬(c = '\r' ∧ cs.head? = some '\n') := by
        rintro ⟨hr, hhead⟩
        obtain ⟨ds, hds⟩ := List.head?_eq_some_iff.mp hhead
        exact hpair ds hr hds
      rw [List.cons_append, splitlines_boundary hc hcs, splitlines_boundary hc hcs']
      exact ih.imp (fun h => by rw [h]) fun h => by rw [h]; rfl
  | last c cs hpair hc hnil ih =>
    cases cs with
    | nil =>
      have hline : SingleLine [c] := List.forall_mem_singleton.mpr (Bool.eq_false_iff.mpr hc)
      exact .inl ((splitlines_singleLine_newline hline).trans
        (splitlines_singleLine hline (List.cons_ne_nil _ _)).symm)
    | cons d ds => exact absurd hnil splitlines_ne_nil
  | inner c cs hpair hc line lines hcons ih =>
    have hc' : isLineBoundary c = false := Bool.eq_false_iff.mpr hc
    rw [List.cons_append, splitlines_ordinary hc', splitlines_ordinary hc', hcons]
    rw [hcons] at ih
    exact ih.imp (fun h => by rw [h]) fun h => by rw [h]; rfl

theorem ended_concat (t : Text) : Ended (t ++ ['\n']) := by
  intro c hc
  rw [List.getLast?_concat, Option.mem_some_iff] at hc
  exact hc ▸ isLineBoundary_newline

/-- A text that is not ended has a last line. -/
theorem exists_line {t : Text} (h : ¬Ended t) :
    ∃ front line, t = front ++ line ∧ Ended front ∧ line ≠ [] ∧ SingleLine line := by
  induction t using List.reverseRecOn with
  | nil => exact absurd (fun _ hc => nomatch hc) h
  | append_singleton t c ih =>
    have hc : isLineBoundary c = false := by
      rw [← Bool.not_eq_true]
      intro hboundary
      refine h fun d hd => ?_
      rw [List.getLast?_concat, Option.mem_some_iff] at hd
      exact hd ▸ hboundary
    by_cases ht : Ended t
    · exact ⟨t, [c], rfl, ht, List.cons_ne_nil _ _, List.forall_mem_singleton.mpr hc⟩
    · obtain ⟨front, line, hsplit, hfront, -, hline⟩ := ih ht
      refine ⟨front, line ++ [c], by rw [hsplit, List.append_assoc], hfront,
        List.append_ne_nil_of_right_ne_nil _ (List.cons_ne_nil _ _), ?_⟩
      exact List.forall_mem_append.mpr ⟨hline, List.forall_mem_singleton.mpr hc⟩

theorem lstrip_append {blanks t : Text} (h : ∀ c ∈ blanks, isSpace c = true) :
    lstrip (blanks ++ t) = lstrip t := by
  induction blanks with
  | nil => rfl
  | cons c blanks ih =>
    rw [List.cons_append, lstrip, List.dropWhile_cons_of_pos (h c List.mem_cons_self), ← lstrip,
      ih fun d hd => h d (List.mem_cons_of_mem c hd)]

theorem rstrip_append {blanks t : Text} (h : ∀ c ∈ blanks, isSpace c = true) :
    rstrip (t ++ blanks) = rstrip t := by
  have hreverse := lstrip_append (t := t.reverse)
    fun c (hc : c ∈ blanks.reverse) => h c (List.mem_reverse.mp hc)
  rw [lstrip, lstrip] at hreverse
  rw [rstrip, rstrip, List.rdropWhile, List.rdropWhile, List.reverse_append, hreverse]

theorem strip_concat (t : Text) : strip (t ++ ['\n']) = strip t := by
  have hnewline : ∀ c ∈ ['\n'], isSpace c = true := List.forall_mem_singleton.mpr rfl
  by_cases hblank : ∀ c ∈ t, isSpace c = true
  · have happend := lstrip_append (t := []) (List.forall_mem_append.mpr ⟨hblank, hnewline⟩)
    have hself := lstrip_append (t := []) hblank
    rw [List.append_nil] at happend hself
    rw [strip, strip, happend, hself]
  · have hstop : lstrip (t ++ ['\n']) = lstrip t ++ ['\n'] := by
      induction t with
      | nil => exact absurd (fun _ hc => absurd hc List.not_mem_nil) hblank
      | cons c t ih =>
        rw [List.cons_append, lstrip, lstrip, List.dropWhile_cons, List.dropWhile_cons]
        split
        · rename_i hc
          exact ih fun hrest => hblank (List.forall_mem_cons.mpr ⟨hc, hrest⟩)
        · rfl
    rw [strip, strip, hstop, rstrip_append hnewline]

/-- White space around a text, and the text. -/
theorem exists_strip (t : Text) :
    ∃ before after, t = before ++ strip t ++ after ∧ (∀ c ∈ before, isSpace c = true) ∧
      ∀ c ∈ after, isSpace c = true := by
  refine ⟨t.takeWhile isSpace, (lstrip t).rtakeWhile isSpace, ?_, fun _ hc =>
    List.mem_takeWhile_imp hc, fun c hc => List.mem_rtakeWhile_imp hc⟩
  rw [List.append_assoc, strip, rstrip, List.rdropWhile_append_rtakeWhile, lstrip,
    List.takeWhile_append_dropWhile]

/-- The lines of a text, joined. -/
def lined (t : Text) : Text := join "\n" (splitlines t)

theorem lined_ordinary {c : Char} (hc : isLineBoundary c = false) (t : Text) :
    lined (c :: t) = c :: lined t := by
  rw [lined, lined, splitlines_ordinary hc]
  cases splitlines t with
  | nil => rfl
  | cons line lines => 
    cases lines with
    | nil => rfl
    | cons next lines => rfl

theorem lined_crlf (t : Text) : lined ('\r' :: '\n' :: t) = lined ('\n' :: t) := by
  rw [lined, lined, splitlines_crlf, splitlines_newline]

theorem lined_boundary {c : Char} {t : Text} (hc : isLineBoundary c = true) (ht : t ≠ [])
    (hpair : ¬(c = '\r' ∧ t.head? = some '\n')) : lined (c :: t) = '\n' :: lined t := by
  obtain ⟨d, ds, rfl⟩ := List.exists_cons_of_ne_nil ht
  rw [lined, lined, splitlines_boundary hc hpair, join_cons_of_ne_nil _ _ splitlines_ne_nil]
  rfl

theorem weight_lined (t : Text) : weight (lined t) = weight t :=
  (weight_join _).trans (weight_splitlines t)

theorem weight_eq_zero_iff {t : Text} : weight t = 0 ↔ ∀ c ∈ t, isSpace c = true := by
  simp [weight, List.countP_eq_zero]

/-- White space before a text is white space before its lines. -/
theorem exists_lined_before {blanks t : Text} (h : ∀ c ∈ blanks, isSpace c = true)
    (ht : t ≠ []) :
    ∃ front, (∀ c ∈ front, isSpace c = true) ∧ lined (blanks ++ t) = front ++ lined t := by
  induction blanks with
  | nil => exact ⟨[], fun _ hc => absurd hc List.not_mem_nil, rfl⟩
  | cons c blanks ih =>
    obtain ⟨front, hfront, heq⟩ := ih fun d hd => h d (List.mem_cons_of_mem c hd)
    have hcons : ∀ {b : Char}, isSpace b = true → ∀ d ∈ b :: front, isSpace d = true :=
      fun hb => List.forall_mem_cons.mpr ⟨hb, hfront⟩
    rw [List.cons_append]
    cases hc : isLineBoundary c with
    | false =>
      exact ⟨c :: front, hcons (h c List.mem_cons_self),
        by rw [lined_ordinary hc, heq, List.cons_append]⟩
    | true =>
      by_cases hpair : c = '\r' ∧ (blanks ++ t).head? = some '\n'
      · obtain ⟨rest, hrest⟩ := List.head?_eq_some_iff.mp hpair.2
        exact ⟨front, hfront, by rw [hpair.1, hrest, lined_crlf, ← hrest, heq]⟩
      · have hne : blanks ++ t ≠ [] := List.append_ne_nil_of_right_ne_nil _ ht
        exact ⟨'\n' :: front, hcons rfl, by rw [lined_boundary hc hne hpair, heq]; rfl⟩

/-- White space after a text with no line break but the newline is white space after it. -/
theorem exists_lined_after {t blanks : Text} (ht : OnlyNewlines t)
    (hlast : ∀ c ∈ t.getLast?, isSpace c = false) (h : ∀ c ∈ blanks, isSpace c = true) :
    ∃ back, (∀ c ∈ back, isSpace c = true) ∧ lined (t ++ blanks) = t ++ back := by
  induction t with
  | nil => exact ⟨lined blanks, weight_eq_zero_iff.mp ((weight_lined blanks).trans
      (weight_of_blank h)), rfl⟩
  | cons c t ih =>
    have htail : OnlyNewlines t := fun d hd => ht d (List.mem_cons_of_mem c hd)
    have hends : ∀ d ∈ t.getLast?, isSpace d = false := by
      intro d hd
      cases t with
      | nil => exact nomatch hd
      | cons e t => exact hlast d (by simpa using hd)
    obtain ⟨back, hback, heq⟩ := ih htail hends
    refine ⟨back, hback, ?_⟩
    cases hc : isLineBoundary c with
    | false => rw [List.cons_append, lined_ordinary hc, heq, List.cons_append]
    | true =>
      have hnewline : c = '\n' := ht c List.mem_cons_self hc
      have hne : t ++ blanks ≠ [] := by
        intro hnil
        rw [(List.append_eq_nil_iff.mp hnil).1] at hlast
        exact absurd (hlast c rfl) (by rw [hnewline]; decide)
      rw [List.cons_append, lined_boundary hc hne (by rw [hnewline]; simp), heq, hnewline,
        List.cons_append]

theorem isSpace_getLast?_strip {t : Text} {c : Char} (h : c ∈ (strip t).getLast?) :
    isSpace c = false := by
  have hne : strip t ≠ [] := fun hnil => nomatch hnil ▸ h
  rw [List.getLast?_eq_getLast_of_ne_nil hne, Option.mem_some_iff] at h
  exact h ▸ Bool.eq_false_iff.mpr (List.rdropWhile_last_not isSpace (lstrip t) hne)

/-- **The lines of a text, joined and stripped, are the stripped text exactly when** its line
breaks are newlines. -/
theorem strip_lined_iff (t : Text) : strip (lined t) = strip t ↔ OnlyNewlines (strip t) := by
  constructor
  · intro h c hc hboundary
    rw [← h] at hc
    obtain hsep | ⟨line, hline, hmem⟩ := mem_join (mem_of_mem_strip hc)
    · exact List.mem_singleton.mp hsep
    · exact absurd (splitlines_singleLines _ line hline c hmem) (by rw [hboundary]; decide)
  · intro h
    obtain ⟨before, after, ht, hbefore, hafter⟩ := exists_strip t
    cases hstrip : strip t with
    | nil =>
      have hzero : weight (strip (lined t)) = 0 := by
        rw [weight_strip, weight_lined, ← weight_strip, hstrip]
        rfl
      cases hlined : strip (lined t) with
      | nil => rfl
      | cons c rest =>
        rw [hlined] at hzero
        exact absurd (weight_eq_zero_iff.mp hzero c List.mem_cons_self)
          (by rw [isSpace_of_strip_eq_cons hlined]; decide)
    | cons c rest =>
      rw [hstrip] at h ht
      obtain ⟨back, hback, hlast⟩ := exists_lined_after h
        (fun d hd => isSpace_getLast?_strip (hstrip ▸ hd)) hafter
      have hne : c :: rest ++ after ≠ [] := List.cons_ne_nil _ _
      obtain ⟨front, hfront, hfirst⟩ := exists_lined_before hbefore hne
      rw [List.append_assoc] at ht
      have hhead : lstrip (c :: rest ++ back) = c :: rest ++ back := 
        List.dropWhile_cons_of_neg (by rw [isSpace_of_strip_eq_cons hstrip]; decide)
      rw [ht, hfirst, hlast, strip, lstrip_append hfront, hhead, rstrip_append hback, ← hstrip,
        strip, rstrip, rstrip, List.rdropWhile_idempotent]

end OpenWrtCopilot.Verified.DividedLines
