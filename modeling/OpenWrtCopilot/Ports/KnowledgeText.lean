import OpenWrtCopilot.Verified.PySplit

/-!
# Normalised text

Ports `normalize_text`: the text in its Unicode normal form without control characters, whose
lines are trimmed and have single spaces, and whose paragraphs are separated by one blank line.
The operations on lines are stated for lines that may carry something besides their text.

## Main results

* `normalizeText_join` — a text is normalised line by line.
* `Unbroken.cleanLine` — a line stays a line.
-/

namespace OpenWrtCopilot.Ports.KnowledgeText

open Verified
open Verified.PySplit (splitOn)
open Verified.PyText

/-! ## Unicode -/

/-- No line break is in a text. -/
def Unbroken (t : Text) : Prop := ∀ c ∈ t, c ≠ '\n' ∧ c ≠ '\r'

/-- The normal form NFC of a line; it has no line breaks of its own, and no characters where the
line has none. -/
structure NormalForm where
  line : Text → Text
  unbroken : ∀ t, Unbroken t → Unbroken (line t)
  line_nil : line [] = []

/-- `unicodedata.normalize("NFC", t)`.  A newline combines with nothing, so that each line has its
own normal form. -/
def NormalForm.normalize (nfc : NormalForm) (t : Text) : Text :=
  join ['\n'] ((splitOn ['\n'] t).map nfc.line)

/-! ## Characters -/

/-- `_CONTROL_CHARS`: all but the tab, the newline and the carriage return. -/
def isControl (c : Char) : Bool :=
  c.toNat ≤ 0x08 ∨ c.toNat = 0x0b ∨ c.toNat = 0x0c ∨ (0x0e ≤ c.toNat ∧ c.toNat ≤ 0x1f) ∨
    (0x7f ≤ c.toNat ∧ c.toNat ≤ 0x9f)

/-- `_LINE_BOUNDARY.sub("\n", t)`. -/
def unifyBreaks : Text → Text
  | [] => []
  | '\r' :: '\n' :: rest => '\n' :: unifyBreaks rest
  | c :: rest => (if c = '\r' then '\n' else c) :: unifyBreaks rest

/-- The characters of `_WHITESPACE_RUNS`. -/
def isBlank (c : Char) : Bool := c = ' ' ∨ c = '\t' ∨ c = '\x0c' ∨ c = '\x0b'

/-- `_WHITESPACE_RUNS.sub(" ", t)`. -/
def collapseBlanks : Text → Text
  | [] => []
  | c :: rest =>
      if isBlank c = true then
        if rest.head?.any isBlank = true then collapseBlanks rest
        else ' ' :: collapseBlanks rest
      else c :: collapseBlanks rest

/-! ## Lines -/

/-- A line joins the lines that are kept; blank lines do not follow each other. -/
def addLine {α : Type} (text : α → Text) (kept : List α) (line : α) : List α :=
  if text line = [] then
    if kept ≠ [] ∧ kept.getLast?.map text ≠ some [] then kept ++ [line] else kept
  else kept ++ [line]

/-- The lines that are kept, without blank ones at the ends. -/
def tidy {α : Type} (text : α → Text) (lines : List α) : List α :=
  ((lines.foldl (addLine text) []).dropWhile (text · = [])).rdropWhile (text · = [])

/-- `normalize_text`. -/
def normalizeText (nfc : NormalForm) (text : Text) : Text :=
  let normalized := nfc.normalize text
  let normalized := normalized.filter fun c => !isControl c
  let normalized := unifyBreaks normalized
  let lines := (splitOn ['\n'] normalized).map fun raw => collapseBlanks (strip raw)
  join ['\n'] (tidy id lines)

/-- What becomes of a line. -/
def cleanLine (nfc : NormalForm) (t : Text) : Text :=
  collapseBlanks (strip ((nfc.line t).filter fun c => !isControl c))

/-! ## Line by line -/

theorem unbroken_of_singleLine {t : Text} (h : SingleLine t) : Unbroken t := by
  intro c hc
  have hboundary := h c hc
  constructor
  · rintro rfl
    exact absurd hboundary (by decide)
  · rintro rfl
    exact absurd hboundary (by decide)

theorem Unbroken.subset {t u : Text} (h : Unbroken t) (hu : u ⊆ t) : Unbroken u :=
  fun c hc => h c (hu hc)

theorem Unbroken.filter {t : Text} (h : Unbroken t) (p : Char → Bool) : Unbroken (t.filter p) :=
  h.subset List.filter_sublist.subset

theorem Unbroken.collapseBlanks {t : Text} (h : Unbroken t) : Unbroken (collapseBlanks t) := by
  induction t with
  | nil => exact h
  | cons c rest ih =>
    have hrest := ih (h.subset (List.subset_cons_self c rest))
    rw [KnowledgeText.collapseBlanks]
    split
    · split
      · exact hrest
      · exact List.forall_mem_cons.mpr ⟨by decide, hrest⟩
    · exact List.forall_mem_cons.mpr ⟨h c List.mem_cons_self, hrest⟩

/-- A line stays a line. -/
theorem Unbroken.cleanLine {t : Text} (h : Unbroken t) (nfc : NormalForm) :
    Unbroken (cleanLine nfc t) := by
  have hfilter := (nfc.unbroken t h).filter fun c => !isControl c
  exact (hfilter.subset fun _ => mem_of_mem_strip).collapseBlanks

theorem isControl_newline : isControl '\n' = false := by decide

theorem filter_join {p : Char → Bool} (hp : p '\n' = true) (lines : List Text) :
    (join ['\n'] lines).filter p = join ['\n'] (lines.map (List.filter p)) := by
  induction lines with
  | nil => rfl
  | cons line rest ih =>
    by_cases hrest : rest = []
    · rw [hrest, join_singleton]
      exact (join_singleton _ _).symm
    · have hmap : rest.map (List.filter p) ≠ [] := fun h => hrest (List.map_eq_nil_iff.mp h)
      rw [join_cons_of_ne_nil _ _ hrest, List.map_cons, join_cons_of_ne_nil _ _ hmap,
        List.filter_append, List.filter_append, ih, List.filter_cons_of_pos hp, List.filter_nil]

theorem notMem_unifyBreaks (t : Text) : '\r' ∉ unifyBreaks t := by
  induction t using pair_induction '\r' '\n' with
  | nil => exact List.not_mem_nil
  | pair rest ih => exact List.not_mem_cons_of_ne_of_not_mem (by decide) ih
  | cons c rest hpair ih =>
    rw [unifyBreaks]
    · refine List.not_mem_cons_of_ne_of_not_mem ?_ ih
      split
      · decide
      · next hc => exact fun heq => hc heq.symm
    · exact hpair

theorem unifyBreaks_of_notMem {t : Text} (h : '\r' ∉ t) : unifyBreaks t = t := by
  induction t using pair_induction '\r' '\n' with
  | nil => rfl
  | pair rest ih => exact absurd List.mem_cons_self h
  | cons c rest hpair ih =>
    have hc : c ≠ '\r' := fun heq => h (heq ▸ List.mem_cons_self)
    rw [unifyBreaks, if_neg hc, ih fun hmem => h (List.mem_cons_of_mem c hmem)]
    exact hpair

/-- A text is normalised line by line. -/
theorem normalizeText_join (nfc : NormalForm) {lines : List Text}
    (hlines : ∀ line ∈ lines, Unbroken line) (hne : lines ≠ []) :
    normalizeText nfc (join ['\n'] lines) =
      join ['\n'] (tidy id (lines.map (cleanLine nfc))) := by
  have hnewline : ∀ t : Text, Unbroken t → '\n' ∉ t := fun t ht hmem => (ht _ hmem).1 rfl
  have hform : nfc.normalize (join ['\n'] lines) = join ['\n'] (lines.map nfc.line) := by
    rw [NormalForm.normalize,
      PySplit.splitOn_join (fun line hline => hnewline line (hlines line hline)) hne]
  have hclean : ∀ t ∈ (lines.map nfc.line).map (List.filter fun c => !isControl c),
      Unbroken t := by
    intro t ht
    obtain ⟨u, hu, rfl⟩ := List.mem_map.mp ht
    obtain ⟨line, hline, rfl⟩ := List.mem_map.mp hu
    exact (nfc.unbroken line (hlines line hline)).filter _
  have hreturn : '\r' ∉
      join ['\n'] ((lines.map nfc.line).map (List.filter fun c => !isControl c)) := by
    intro hmem
    obtain hsep | ⟨t, ht, hmem⟩ := mem_join hmem
    · exact absurd hsep (by decide)
    · exact (hclean t ht _ hmem).2 rfl
  have hsome : (lines.map nfc.line).map (List.filter fun c => !isControl c) ≠ [] :=
    fun h => hne (List.map_eq_nil_iff.mp (List.map_eq_nil_iff.mp h))
  rw [normalizeText, hform, filter_join (by rw [isControl_newline]; rfl),
    unifyBreaks_of_notMem hreturn,
    PySplit.splitOn_join (fun t ht => hnewline t (hclean t ht)) hsome, List.map_map, List.map_map]
  rfl

theorem normalizeText_nil (nfc : NormalForm) : normalizeText nfc [] = [] := by
  have hform : nfc.normalize [] = [] := by
    rw [NormalForm.normalize]
    show join ['\n'] [nfc.line []] = []
    rw [nfc.line_nil, join_singleton]
  rw [normalizeText, hform]
  rfl

/-! ## Lines that carry something -/

theorem map_addLine {α : Type} (text : α → Text) (kept : List α) (line : α) :
    (addLine text kept line).map text = addLine id (kept.map text) (text line) := by
  have hnil : kept.map text ≠ [] ↔ kept ≠ [] := not_congr List.map_eq_nil_iff
  have hlast : (kept.map text).getLast?.map id = kept.getLast?.map text := by
    rw [List.getLast?_map, Option.map_id_fun, id]
  rw [addLine, addLine, hlast, id]
  by_cases hblank : text line = []
  · rw [if_pos hblank, if_pos hblank]
    by_cases hkeep : kept ≠ [] ∧ kept.getLast?.map text ≠ some []
    · rw [if_pos hkeep, if_pos ⟨hnil.mpr hkeep.1, hkeep.2⟩, List.map_append]
      rfl
    · rw [if_neg hkeep, if_neg fun h => hkeep ⟨hnil.mp h.1, h.2⟩]
  · rw [if_neg hblank, if_neg hblank, List.map_append]
    rfl

theorem map_foldl_addLine {α : Type} (text : α → Text) (lines kept : List α) :
    (lines.foldl (addLine text) kept).map text =
      (lines.map text).foldl (addLine id) (kept.map text) := by
  induction lines generalizing kept with
  | nil => rfl
  | cons line rest ih => rw [List.foldl_cons, ih, map_addLine, List.map_cons, List.foldl_cons]

theorem map_tidy {α : Type} (text : α → Text) (lines : List α) :
    (tidy text lines).map text = tidy id (lines.map text) := by
  have hdrop : ∀ l : List α, (l.dropWhile (text · = [])).map text =
      (l.map text).dropWhile (id · = []) := by
    intro l
    rw [List.dropWhile_map]
    rfl
  rw [tidy, tidy, List.rdropWhile, List.rdropWhile, List.map_reverse, hdrop, List.map_reverse,
    hdrop, map_foldl_addLine]
  rfl

/-- No line is new. -/
theorem tidy_subset {α : Type} (text : α → Text) (lines : List α) : tidy text lines ⊆ lines := by
  have hfold : ∀ kept, (lines.foldl (addLine text) kept) ⊆ kept ++ lines := by
    induction lines with
    | nil => exact fun kept => List.subset_append_left kept []
    | cons line rest ih =>
      intro kept x hx
      have hadd : addLine text kept line ⊆ kept ++ [line] := by
        rw [addLine]
        split
        · split
          · exact List.Subset.refl _
          · exact List.subset_append_left _ _
        · exact List.Subset.refl _
      obtain hkept | hrest := List.mem_append.mp (ih _ hx)
      · rw [List.append_cons]
        exact List.mem_append_left _ (hadd hkept)
      · exact List.mem_append_right _ (List.mem_cons_of_mem line hrest)
  intro x hx
  have hdropped := (List.dropWhile_sublist _).subset ((List.rdropWhile_prefix _ _).subset hx)
  exact hfold [] hdropped

theorem mem_dropWhile_of_neg {α : Type} {p : α → Bool} {l : List α} {x : α} (h : x ∈ l)
    (hx : p x = false) : x ∈ l.dropWhile p := by
  rw [← List.takeWhile_append_dropWhile (p := p) (l := l), List.mem_append] at h
  refine h.resolve_left fun htake => ?_
  rw [List.mem_takeWhile_imp htake] at hx
  cases hx

/-- A line that is not blank stays. -/
theorem mem_tidy {α : Type} {text : α → Text} {lines : List α} {line : α} (h : line ∈ lines)
    (hline : text line ≠ []) : line ∈ tidy text lines := by
  have hfold : ∀ kept, line ∈ kept ∨ line ∈ lines → line ∈ lines.foldl (addLine text) kept := by
    clear h
    induction lines with
    | nil => exact fun kept h => h.resolve_right List.not_mem_nil
    | cons first rest ih =>
      intro kept h
      rw [List.foldl_cons]
      refine ih _ ?_
      rw [List.mem_cons, ← or_assoc] at h
      refine h.imp_left fun h => ?_
      rw [addLine]
      obtain hkept | rfl := h
      · split
        · split
          · exact List.mem_append_left _ hkept
          · exact hkept
        · exact List.mem_append_left _ hkept
      · rw [if_neg hline]
        exact List.mem_append_right _ (List.mem_singleton_self line)
  have hblank : decide (text line = []) = false := decide_eq_false hline
  rw [tidy, List.rdropWhile]
  refine List.mem_reverse.mpr (mem_dropWhile_of_neg (List.mem_reverse.mpr ?_) hblank)
  exact mem_dropWhile_of_neg (hfold [] (Or.inr h)) hblank

end OpenWrtCopilot.Ports.KnowledgeText
