import OpenWrtCopilot.Ports.KnowledgeChecksums
import OpenWrtCopilot.Ports.MarkdownFences

/-!
# Normalising a text again

Says when a text that is normalised again stays as it is, with its checksum.  `normalize_text`
removes control characters after it has made the normal form NFC, so that a letter and a combining
mark may meet that it has left apart; they are one character for the next pass only.

## Main results

* `normalizeText_twice_iff` — when a second pass changes nothing.
* `stable_iff` — when the checksum of a text does not depend on how often it was normalised.
* `mark_behind_control` — a text whose checksum does.
-/

namespace OpenWrtCopilot.Ports.KnowledgeStability

open Verified
open Verified.PySplit (splitOn)
open Verified.PyText
open Ports.KnowledgeChecksums
open Ports.KnowledgeText
open Ports.MarkdownFences (Clean isGap words_collapseBlanks mem_collapseBlanks)

/-! ## The normal form -/

/-- NFC, as it is documented: what is in it stays, and so do the parts of what is; a space combines
with nothing, ASCII characters stay, and control characters do not appear. -/
structure StableForm extends NormalForm where
  idem : ∀ t, line (line t) = line t
  parts : ∀ a b, line (a ++ b) = a ++ b → line a = a ∧ line b = b
  gap : ∀ a c b, isGap c = true → line (a ++ c :: b) = line a ++ line [c] ++ line b
  ascii : ∀ c : Char, c.toNat < 0x80 → line [c] = [c]
  clean : ∀ t, Clean t → Clean (line t)

/-- The tables of a checksum, with this normal form. -/
def withForm (tables : Tables) (nfc : StableForm) : Tables :=
  { tables with nfc := nfc.toNormalForm }

/-- The normal form of a text, without its control characters. -/
def uncontrolled (nfc : NormalForm) (text : Text) : Text :=
  (nfc.normalize text).filter fun c => !isControl c

/-- It makes no difference how often the text is normalised. -/
structure Stable (tables : Tables) (text : Text) : Prop where
  normalized : normalizeText tables.nfc (normalizeText tables.nfc text) =
    normalizeText tables.nfc text
  canonical : canonicalText tables (normalizeText tables.nfc text) = canonicalText tables text
  checksum : ∀ n, documentChecksum tables ((normalizeText tables.nfc)^[n] text) =
    documentChecksum tables text

/-! ## Lines that are tidy -/

/-- No blank line stands at an end, and no two stand together. -/
structure Tidy (lines : List Text) : Prop where
  head : lines.head? ≠ some []
  last : lines.getLast? ≠ some []
  apart : lines.IsChain fun a b => a ≠ [] ∨ b ≠ []

theorem apart_addLine {kept : List Text} (h : kept.IsChain fun a b => a ≠ [] ∨ b ≠ [])
    (line : Text) : (addLine id kept line).IsChain fun a b => a ≠ [] ∨ b ≠ [] := by
  have hadd (hnext : ∀ a ∈ kept.getLast?, a ≠ [] ∨ line ≠ []) :
      (kept ++ [line]).IsChain fun a b => a ≠ [] ∨ b ≠ [] :=
    List.isChain_append.mpr ⟨h, List.IsChain.singleton line, fun a ha b hb =>
      Option.some.inj hb ▸ hnext a ha⟩
  rw [addLine]
  split
  · split
    · next hkeep =>
        refine hadd fun a ha => Or.inl ?_
        rintro rfl
        rw [Option.mem_def.mp ha] at hkeep
        exact hkeep.2 rfl
    · exact h
  · next hline => exact hadd fun _ _ => Or.inr hline

theorem tidy_tidy (lines : List Text) : Tidy (tidy id lines) := by
  have hfold : ∀ kept : List Text, (kept.IsChain fun a b => a ≠ [] ∨ b ≠ []) →
      (lines.foldl (addLine id) kept).IsChain fun a b => a ≠ [] ∨ b ≠ [] := by
    induction lines with
    | nil => exact fun _ h => h
    | cons line rest ih => exact fun kept h => ih _ (apart_addLine h line)
  have hhead : ∀ l : List Text, (l.dropWhile (id · = [])).head? ≠ some [] := by
    intro l h
    have hnot := List.head?_dropWhile_not (fun t : Text => decide (id t = [])) l
    rw [h] at hnot
    cases hnot
  rw [tidy]
  refine ⟨?_, ?_, ?_⟩
  · intro h
    obtain ⟨blanks, hblanks⟩ := List.rdropWhile_prefix (fun t : Text => decide (id t = []))
      ((lines.foldl (addLine id) []).dropWhile (id · = []))
    refine hhead (lines.foldl (addLine id) []) ?_
    rw [← hblanks, List.head?_append, h]
    rfl
  · rw [List.rdropWhile, List.getLast?_reverse]
    exact hhead _
  · have hchain := (hfold [] List.IsChain.nil).suffix (List.dropWhile_suffix fun t => id t = [])
    obtain ⟨blanks, hblanks⟩ := List.rdropWhile_prefix (fun t : Text => decide (id t = []))
      ((lines.foldl (addLine id) []).dropWhile (id · = []))
    rw [← hblanks] at hchain
    exact hchain.left_of_append

theorem foldl_addLine_of_apart {kept lines : List Text}
    (h : (kept ++ lines).IsChain fun a b => a ≠ [] ∨ b ≠ [])
    (hhead : kept = [] → lines.head? ≠ some []) :
    lines.foldl (addLine id) kept = kept ++ lines := by
  induction lines generalizing kept with
  | nil => exact (List.append_nil kept).symm
  | cons line rest ih =>
    have hadd : addLine id kept line = kept ++ [line] := by
      rw [addLine]
      split
      · next hline =>
          refine if_pos ⟨fun hnil => hhead hnil (congrArg some hline), fun hlast => ?_⟩
          rw [Option.map_id_fun, id] at hlast
          obtain hlast' | hline' := (List.isChain_append.mp h).2.2 [] hlast line rfl
          · exact hlast' rfl
          · exact hline' hline
      · rfl
    rw [List.foldl_cons, hadd, ih ?_ ?_]
    · exact List.append_assoc kept [line] rest
    · rwa [List.append_assoc]
    · exact fun hnil => absurd hnil (List.append_ne_nil_of_right_ne_nil _ (List.cons_ne_nil _ _))

theorem Tidy.eq_self {lines : List Text} (h : Tidy lines) : tidy id lines = lines := by
  have hdrop : ∀ l : List Text, l.head? ≠ some [] → l.dropWhile (id · = []) = l := by
    intro l hl
    cases l with
    | nil => rfl
    | cons line rest =>
      exact List.dropWhile_cons_of_neg fun hblank =>
        hl (congrArg some (of_decide_eq_true hblank))
  have hfold : lines.foldl (addLine id) [] = [] ++ lines :=
    foldl_addLine_of_apart h.apart fun _ => h.head
  rw [tidy, hfold, List.nil_append, hdrop lines h.head, List.rdropWhile, hdrop,
    List.reverse_reverse]
  rw [List.head?_reverse]
  exact h.last

theorem join_inj {a b : List Text} (ha : ∀ line ∈ a, Unbroken line)
    (hb : ∀ line ∈ b, Unbroken line) (hheada : a.head? ≠ some []) (hheadb : b.head? ≠ some [])
    (h : join ['\n'] a = join ['\n'] b) : a = b := by
  have hsplit : ∀ lines : List Text, (∀ line ∈ lines, Unbroken line) → lines.head? ≠ some [] →
      lines = if join ['\n'] lines = [] then [] else splitOn ['\n'] (join ['\n'] lines) := by
    intro lines hlines hhead
    by_cases hnil : lines = []
    · rw [hnil]
      rfl
    · have hsame : splitOn ['\n'] (join ['\n'] lines) = lines :=
        PySplit.splitOn_join (fun line hline hmem => (hlines line hline _ hmem).1 rfl) hnil
      split
      · next hjoin =>
          rw [hjoin] at hsame
          exact absurd (congrArg List.head? hsame.symm) hhead
      · exact hsame.symm
  rw [hsplit a ha hheada, hsplit b hb hheadb, h]

/-- Where no line is dropped, the lines are as they were. -/
theorem tidy_of_length {lines : List Text} (h : lines.length ≤ (tidy id lines).length) :
    tidy id lines = lines := by
  have hfold : ∀ kept, (lines.foldl (addLine id) kept).Sublist (kept ++ lines) := by
    clear h
    induction lines with
    | nil => exact fun kept => (List.append_nil kept).symm ▸ List.Sublist.refl kept
    | cons line rest ih =>
      intro kept
      have hadd : (addLine id kept line).Sublist (kept ++ [line]) := by
        rw [addLine]
        split
        · split
          · exact List.Sublist.refl _
          · exact List.sublist_append_left _ _
        · exact List.Sublist.refl _
      rw [List.append_cons]
      exact (ih _).trans (hadd.append_right rest)
  have hsub : (tidy id lines).Sublist lines :=
    ((List.rdropWhile_prefix _ _).sublist.trans (List.dropWhile_sublist _)).trans (hfold [])
  exact hsub.eq_of_length_le h

/-! ## Lines that are clean -/

theorem collapseBlanks_cons_blank {c : Char} (h : isBlank c = true) (t : Text) :
    ∃ rest, collapseBlanks (c :: t) = ' ' :: rest := by
  induction t generalizing c with
  | nil => exact ⟨[], by rw [collapseBlanks, if_pos h]; rfl⟩
  | cons d t ih =>
    rw [collapseBlanks, if_pos h]
    split
    · next hd => exact ih hd
    · exact ⟨_, rfl⟩

theorem collapseBlanks_cons_of_not {c : Char} (h : isBlank c = false) (t : Text) :
    collapseBlanks (c :: t) = c :: collapseBlanks t := by
  rw [collapseBlanks, if_neg (Bool.eq_false_iff.mp h)]

theorem head?_isBlank_collapseBlanks (t : Text) :
    (collapseBlanks t).head?.any isBlank = t.head?.any isBlank := by
  cases t with
  | nil => rfl
  | cons c t =>
    cases hc : isBlank c with
    | true =>
      obtain ⟨rest, hrest⟩ := collapseBlanks_cons_blank hc t
      rw [hrest]
      exact hc.symm
    | false => rw [collapseBlanks_cons_of_not hc]; rfl

theorem collapseBlanks_collapseBlanks (t : Text) :
    collapseBlanks (collapseBlanks t) = collapseBlanks t := by
  induction t with
  | nil => rfl
  | cons c t ih =>
    cases hc : isBlank c with
    | true =>
      rw [collapseBlanks, if_pos hc]
      split
      · exact ih
      · next hnext =>
          have hspace : isBlank ' ' = true := by decide
          rw [collapseBlanks, if_pos hspace, head?_isBlank_collapseBlanks, if_neg hnext, ih]
    | false => rw [collapseBlanks_cons_of_not hc, collapseBlanks_cons_of_not hc, ih]

theorem getLast?_collapseBlanks {t : Text} {c : Char} (h : t.getLast? = some c)
    (hc : isBlank c = false) : (collapseBlanks t).getLast? = some c := by
  obtain ⟨rest, rfl⟩ := List.getLast?_eq_some_iff.mp h
  clear h
  induction rest with
  | nil => rw [List.nil_append, collapseBlanks_cons_of_not hc]; rfl
  | cons d rest ih =>
    have hlast (e : Char) : (e :: collapseBlanks (rest ++ [c])).getLast? = some c := by
      rw [List.getLast?_cons, ih]
      rfl
    rw [List.cons_append, collapseBlanks]
    split
    · split
      · exact ih
      · exact hlast _
    · exact hlast _

theorem isBlank_of_not_isSpace {c : Char} (h : isSpace c = false) : isBlank c = false := by
  cases hc : isBlank c with
  | false => rfl
  | true => rw [MarkdownFences.isSpace_of_isBlank hc] at h; cases h

theorem isSpace_of_getLast?_strip {t : Text} {c : Char} (h : (strip t).getLast? = some c) :
    isSpace c = false := by
  have hnot := List.head?_dropWhile_not isSpace (lstrip t).reverse
  rw [strip, rstrip, List.rdropWhile, List.getLast?_reverse] at h
  rw [h] at hnot
  exact hnot

/-- A line that is trimmed and has single spaces stays as it is. -/
theorem collapse_strip_again (t : Text) :
    collapseBlanks (strip (collapseBlanks (strip t))) = collapseBlanks (strip t) := by
  by_cases hnil : collapseBlanks (strip t) = []
  · rw [hnil]
    rfl
  · have hstrip : strip (collapseBlanks (strip t)) = collapseBlanks (strip t) := by
      refine strip_of_ends hnil ?_ ?_
      · intro c hc
        cases ht : strip t with
        | nil => rw [ht] at hc; cases hc
        | cons d rest =>
          have hd := isSpace_of_strip_eq_cons ht
          rw [ht, collapseBlanks_cons_of_not (isBlank_of_not_isSpace hd)] at hc
          exact Option.some.inj hc ▸ hd
      · intro c hc
        cases hlast : (strip t).getLast? with
        | none =>
          rw [List.getLast?_eq_none_iff] at hlast
          rw [hlast] at hnil
          exact absurd rfl hnil
        | some d =>
          have hd := isSpace_of_getLast?_strip hlast
          rw [Option.mem_def, getLast?_collapseBlanks hlast (isBlank_of_not_isSpace hd)] at hc
          exact Option.some.inj hc ▸ hd
    rw [hstrip, collapseBlanks_collapseBlanks]

/-! ## Lines in the normal form -/

/-- The text is in the normal form. -/
def Composed (nfc : NormalForm) (t : Text) : Prop := nfc.line t = t

/-- Without control characters, and with spaces that are in the normal form. -/
structure Spaced (nfc : NormalForm) (t : Text) : Prop where
  clean : Clean t
  gap : ∀ c ∈ t, isGap c = true → Composed nfc [c]

section Composed

variable (nfc : StableForm) {t : Text}

theorem Composed.of_mem {c : Char} (h : Composed nfc.toNormalForm t) (hc : c ∈ t) :
    Composed nfc.toNormalForm [c] := by
  obtain ⟨a, b, rfl⟩ := List.append_of_mem hc
  have hright := (nfc.parts a (c :: b) h).2
  exact (nfc.parts [c] b hright).1

theorem composed_append_cons {c : Char} (hc : isGap c = true)
    (hcomposed : Composed nfc.toNormalForm [c]) (a b : Text) :
    Composed nfc.toNormalForm (a ++ c :: b) ↔
      Composed nfc.toNormalForm a ∧ Composed nfc.toNormalForm b := by
  constructor
  · intro h
    obtain ⟨ha, hright⟩ := nfc.parts a (c :: b) h
    exact ⟨ha, (nfc.parts [c] b hright).2⟩
  · rintro ⟨ha, hb⟩
    rw [Composed] at ha hb hcomposed ⊢
    rw [nfc.gap a c b hc, ha, hb, hcomposed, List.append_assoc, List.singleton_append]

theorem Spaced.of_mem {s : Text} (h : Spaced nfc.toNormalForm t)
    (hs : ∀ c ∈ s, c ∈ t ∨ c = ' ' ∨ c = '\n') : Spaced nfc.toNormalForm s := by
  constructor
  · intro c hc
    obtain hc | rfl | rfl := hs c hc
    · exact h.clean c hc
    · decide
    · decide
  · intro c hc hgap
    obtain hc | rfl | rfl := hs c hc
    · exact h.gap c hc hgap
    · exact nfc.ascii ' ' (by decide)
    · exact nfc.ascii '\n' (by decide)

/-- A text is in the normal form if its words are. -/
theorem Spaced.composed_iff (h : Spaced nfc.toNormalForm t) :
    Composed nfc.toNormalForm t ↔ ∀ word ∈ words t, Composed nfc.toNormalForm word := by
  rw [h.clean.words_eq]
  induction hn : t.length using Nat.strong_induction_on generalizing t with
  | _ n ih =>
    obtain hall | ⟨a, c, b, rfl, ha, hc⟩ := PyPieces.exists_first_separator isGap t
    · rw [PyPieces.pieces_of_solid hall]
      cases t with
      | nil => exact iff_of_true nfc.line_nil (List.forall_mem_nil _)
      | cons c t => exact List.forall_mem_singleton.symm
    · rw [List.length_append, List.length_cons] at hn
      have hleft : Spaced nfc.toNormalForm a :=
        h.of_mem nfc fun d hd => Or.inl (List.mem_append_left _ hd)
      have hright : Spaced nfc.toNormalForm b :=
        h.of_mem nfc fun d hd => Or.inl (List.mem_append_right _ (List.mem_cons_of_mem c hd))
      have hcomposed := h.gap c (List.mem_append_right a List.mem_cons_self) hc
      rw [composed_append_cons nfc hc hcomposed, PyPieces.pieces_append_cons hc,
        List.forall_mem_append, ih a.length (by omega) hleft rfl,
        ih b.length (by omega) hright rfl]

theorem newline_notMem_line (h : '\n' ∉ t) : '\n' ∉ nfc.line t := by
  induction hn : t.length using Nat.strong_induction_on generalizing t with
  | _ n ih =>
    obtain hall | ⟨a, c, b, rfl, ha, hc⟩ := PyPieces.exists_first_separator (· == '\r') t
    · have hunbroken : Unbroken t := fun c hc =>
        ⟨fun heq => h (heq ▸ hc), fun heq => by
          have hreturn := hall c hc
          rw [heq] at hreturn
          cases hreturn⟩
      exact fun hmem => (nfc.unbroken t hunbroken _ hmem).1 rfl
    · rw [List.length_append, List.length_cons] at hn
      obtain rfl : c = '\r' := by simpa using hc
      rw [nfc.gap a '\r' b (by decide), nfc.ascii '\r' (by decide)]
      have ha := ih a.length (by omega) (fun hmem => h (List.mem_append_left _ hmem)) rfl
      have hb := ih b.length (by omega)
        (fun hmem => h (List.mem_append_right _ (List.mem_cons_of_mem _ hmem))) rfl
      rw [List.mem_append, List.mem_append, not_or, not_or]
      exact ⟨⟨ha, by decide⟩, hb⟩

/-- The lines of a text are in the normal form if its words are. -/
theorem Spaced.lines_iff (h : Spaced nfc.toNormalForm t) :
    (∀ line ∈ splitOn ['\n'] t, Composed nfc.toNormalForm line) ↔
      ∀ word ∈ words t, Composed nfc.toNormalForm word := by
  have hlines : ∀ line ∈ splitOn ['\n'] t, Spaced nfc.toNormalForm line := by
    intro line hline
    rw [PySplit.splitOn_eq_splitOnP] at hline
    exact h.of_mem nfc fun c hc => Or.inl (PySplit.subset_splitOnP hline hc)
  have hwords : words t = (splitOn ['\n'] t).flatMap words := by
    have hjoin : join ['\n'] (splitOn ['\n'] t) = t := PySplit.join_splitOn (by decide) t
    conv_lhs => rw [← hjoin]
    exact words_join (by decide) (by decide) _
  rw [hwords]
  constructor
  · intro hall word hword
    obtain ⟨line, hline, hword⟩ := List.mem_flatMap.mp hword
    exact ((hlines line hline).composed_iff nfc).mp (hall line hline) word hword
  · intro hall line hline
    refine ((hlines line hline).composed_iff nfc).mpr fun word hword => ?_
    exact hall word (List.mem_flatMap.mpr ⟨line, hline, hword⟩)

/-- A text is in the normal form if its lines are. -/
theorem normalize_eq_iff :
    nfc.normalize t = t ↔ ∀ line ∈ splitOn ['\n'] t, Composed nfc.toNormalForm line := by
  have hne : splitOn ['\n'] t ≠ [] := PySplit.splitFrom_ne_nil ['\n'] 0 [] t
  have hnewline : ∀ line ∈ splitOn ['\n'] t, '\n' ∉ line :=
    fun line hline => PySplit.notMem_splitFrom List.not_mem_nil hline
  constructor
  · intro h
    have hsplit : splitOn ['\n'] (nfc.normalize t) = (splitOn ['\n'] t).map nfc.line := by
      refine PySplit.splitOn_join (fun line hline => ?_) (mt List.map_eq_nil_iff.mp hne)
      obtain ⟨before, hbefore, rfl⟩ := List.mem_map.mp hline
      exact newline_notMem_line nfc (hnewline before hbefore)
    rw [h] at hsplit
    exact List.map_inj_left.mp (hsplit.symm.trans (List.map_id _).symm)
  · intro h
    rw [NormalForm.normalize, List.map_congr_left h, List.map_id', PySplit.join_splitOn (by decide)]

end Composed

/-! ## A second pass -/

/-- The lines that are normalised, one by one. -/
def rawLines (nfc : NormalForm) (text : Text) : List Text :=
  splitOn ['\n'] (unifyBreaks (uncontrolled nfc text))

/-- The lines of the normalised text. -/
def keptLines (nfc : NormalForm) (text : Text) : List Text :=
  tidy id ((rawLines nfc text).map fun raw => collapseBlanks (strip raw))

theorem normalizeText_eq (nfc : NormalForm) (text : Text) :
    normalizeText nfc text = join ['\n'] (keptLines nfc text) := rfl

theorem mem_unifyBreaks {t : Text} {c : Char} (h : c ∈ unifyBreaks t) : c ∈ t ∨ c = '\n' := by
  induction t using pair_induction '\r' '\n' with
  | nil => cases h
  | pair rest ih =>
    obtain rfl | h := List.mem_cons.mp h
    · exact Or.inr rfl
    · exact (ih h).imp_left fun h => List.mem_cons_of_mem _ (List.mem_cons_of_mem _ h)
  | cons c' rest hpair ih =>
    rw [unifyBreaks] at h
    · obtain heq | h := List.mem_cons.mp h
      · split at heq
        · exact Or.inr heq
        · exact Or.inl (heq ▸ List.mem_cons_self)
      · exact (ih h).imp_left (List.mem_cons_of_mem _)
    · exact hpair

theorem unifyBreaks_append {a : Text} (h : ∀ c ∈ a, isSpace c = false) (b : Text) :
    unifyBreaks (a ++ b) = a ++ unifyBreaks b := by
  induction a with
  | nil => rfl
  | cons c a ih =>
    obtain ⟨hc, ha⟩ := List.forall_mem_cons.mp h
    have hreturn : c ≠ '\r' := by
      rintro rfl
      exact absurd hc (by decide)
    rw [List.cons_append, unifyBreaks, if_neg hreturn, ih ha, List.cons_append]
    exact fun _ heq => absurd heq hreturn

theorem words_unifyBreaks (t : Text) : words (unifyBreaks t) = words t := by
  induction hn : t.length using Nat.strong_induction_on generalizing t with
  | _ n ih =>
    obtain hall | ⟨a, c, b, rfl, ha, hc⟩ := PyPieces.exists_first_separator isSpace t
    · have hsame := unifyBreaks_append hall []
      rw [List.append_nil, unifyBreaks, List.append_nil] at hsame
      rw [hsame]
    · rw [List.length_append, List.length_cons] at hn
      have hb := ih b.length (by omega) b rfl
      rw [unifyBreaks_append ha, words_append_cons_space hc]
      by_cases hpair : ∃ rest, c = '\r' ∧ b = '\n' :: rest
      · obtain ⟨rest, rfl, rfl⟩ := hpair
        rw [List.length_cons] at hn
        rw [unifyBreaks, words_append_cons_space (by decide), ih rest.length (by omega) rest rfl,
          words_cons_space (by decide)]
      · rw [unifyBreaks]
        · split
          · rw [words_append_cons_space (by decide), hb]
          · rw [words_append_cons_space hc, hb]
        · exact fun rest hreturn hrest => hpair ⟨rest, hreturn, hrest⟩

section Pass

variable (nfc : StableForm) (text : Text)

theorem spaced_uncontrolled : Spaced nfc.toNormalForm (uncontrolled nfc.toNormalForm text) := by
  constructor
  · intro c hc
    simpa using (List.mem_filter.mp hc).2
  · intro c hc _
    obtain hsep | ⟨line, hline, hc⟩ := mem_join (List.mem_of_mem_filter hc)
    · obtain rfl := List.mem_singleton.mp hsep
      exact nfc.ascii '\n' (by decide)
    · obtain ⟨before, _, rfl⟩ := List.mem_map.mp hline
      exact Composed.of_mem nfc (nfc.idem before) hc

theorem spaced_unifyBreaks :
    Spaced nfc.toNormalForm (unifyBreaks (uncontrolled nfc.toNormalForm text)) :=
  (spaced_uncontrolled nfc text).of_mem nfc fun _ hc => (mem_unifyBreaks hc).imp_right Or.inr

theorem spaced_rawLine {raw : Text} (h : raw ∈ rawLines nfc.toNormalForm text) :
    Spaced nfc.toNormalForm raw := by
  rw [rawLines, PySplit.splitOn_eq_splitOnP] at h
  exact (spaced_unifyBreaks nfc text).of_mem nfc fun c hc => Or.inl (PySplit.subset_splitOnP h hc)

theorem spaced_collapse {raw : Text} (h : Spaced nfc.toNormalForm raw) :
    Spaced nfc.toNormalForm (collapseBlanks (strip raw)) :=
  h.of_mem nfc fun _ hc =>
    (mem_collapseBlanks hc).symm.imp mem_of_mem_strip Or.inl

theorem exists_rawLine {line : Text} (h : line ∈ keptLines nfc.toNormalForm text) :
    ∃ raw ∈ rawLines nfc.toNormalForm text, collapseBlanks (strip raw) = line :=
  List.mem_map.mp (tidy_subset id _ h)

theorem composed_collapse_iff {raw : Text} (h : Spaced nfc.toNormalForm raw) :
    Composed nfc.toNormalForm (collapseBlanks (strip raw)) ↔ Composed nfc.toNormalForm raw := by
  rw [(spaced_collapse nfc h).composed_iff nfc, h.composed_iff nfc, words_collapseBlanks,
    words_strip]

/-- What is kept is in the normal form if the text is without its control characters. -/
theorem keptLines_iff :
    (∀ line ∈ keptLines nfc.toNormalForm text, Composed nfc.toNormalForm line) ↔
      nfc.normalize (uncontrolled nfc.toNormalForm text) = uncontrolled nfc.toNormalForm text := by
  rw [normalize_eq_iff, (spaced_uncontrolled nfc text).lines_iff nfc, ← words_unifyBreaks,
    ← (spaced_unifyBreaks nfc text).lines_iff nfc]
  constructor
  · intro h raw hraw
    rw [← composed_collapse_iff nfc (spaced_rawLine nfc text hraw)]
    by_cases hblank : collapseBlanks (strip raw) = []
    · rw [hblank]
      exact nfc.line_nil
    · exact h _ (mem_tidy (List.mem_map_of_mem hraw) hblank)
  · intro h line hline
    obtain ⟨raw, hraw, rfl⟩ := exists_rawLine nfc text hline
    exact (composed_collapse_iff nfc (spaced_rawLine nfc text hraw)).mpr (h raw hraw)

theorem unbroken_keptLine {line : Text} (h : line ∈ keptLines nfc.toNormalForm text) :
    Unbroken line := by
  obtain ⟨raw, hraw, rfl⟩ := exists_rawLine nfc text h
  have hnewline : '\n' ∉ raw := PySplit.notMem_splitFrom List.not_mem_nil hraw
  have hreturn : '\r' ∉ raw := by
    rw [rawLines, PySplit.splitOn_eq_splitOnP] at hraw
    exact fun hmem => notMem_unifyBreaks _ (PySplit.subset_splitOnP hraw hmem)
  have hraw : Unbroken raw := fun c hc =>
    ⟨fun heq => hnewline (heq ▸ hc), fun heq => hreturn (heq ▸ hc)⟩
  exact (hraw.subset fun _ => mem_of_mem_strip).collapseBlanks

/-- A line is cleaned to itself if it is in the normal form. -/
theorem cleanLine_eq_iff {line : Text} (h : line ∈ keptLines nfc.toNormalForm text) :
    cleanLine nfc.toNormalForm line = line ↔ Composed nfc.toNormalForm line := by
  obtain ⟨raw, hraw, rfl⟩ := exists_rawLine nfc text h
  have hspaced := spaced_collapse nfc (spaced_rawLine nfc text hraw)
  have hfilter : (nfc.line (collapseBlanks (strip raw))).filter (fun c => !isControl c) =
      nfc.line (collapseBlanks (strip raw)) := by
    refine List.filter_eq_self.mpr fun c hc => ?_
    rw [nfc.clean _ hspaced.clean c hc]
    rfl
  rw [cleanLine, hfilter]
  constructor
  · intro heq
    have hline : Spaced nfc.toNormalForm (nfc.line (collapseBlanks (strip raw))) :=
      ⟨nfc.clean _ hspaced.clean, fun c hc _ => Composed.of_mem nfc (nfc.idem _) hc⟩
    exact heq ▸ (composed_collapse_iff nfc hline).mpr (nfc.idem _)
  · intro hcomposed
    rw [hcomposed, collapse_strip_again]

/-- **A second pass changes nothing if the normal form without its control characters is in the
normal form.** -/
theorem normalizeText_twice_iff :
    normalizeText nfc.toNormalForm (normalizeText nfc.toNormalForm text) =
        normalizeText nfc.toNormalForm text ↔
      nfc.normalize (uncontrolled nfc.toNormalForm text) = uncontrolled nfc.toNormalForm text := by
  have htidy : Tidy (keptLines nfc.toNormalForm text) := tidy_tidy _
  have hunbroken : ∀ line ∈ keptLines nfc.toNormalForm text, Unbroken line :=
    fun line hline => unbroken_keptLine nfc text hline
  rw [← keptLines_iff]
  by_cases hnil : keptLines nfc.toNormalForm text = []
  · have hempty : normalizeText nfc.toNormalForm text = [] := by
      rw [normalizeText_eq, hnil, join_nil]
    rw [hempty, normalizeText_nil, hnil]
    exact iff_of_true rfl (List.forall_mem_nil _)
  have htwice : normalizeText nfc.toNormalForm (normalizeText nfc.toNormalForm text) =
      join ['\n']
        (tidy id ((keptLines nfc.toNormalForm text).map (cleanLine nfc.toNormalForm))) := by
    rw [normalizeText_eq nfc.toNormalForm text, normalizeText_join _ hunbroken hnil]
  have hcleaned : (keptLines nfc.toNormalForm text).map (cleanLine nfc.toNormalForm) =
      keptLines nfc.toNormalForm text ↔
        ∀ line ∈ keptLines nfc.toNormalForm text, Composed nfc.toNormalForm line := by
    have hid : keptLines nfc.toNormalForm text = (keptLines nfc.toNormalForm text).map id :=
      (List.map_id _).symm
    conv_lhs => rhs; rw [hid]
    rw [List.map_inj_left]
    exact forall₂_congr fun line hline => cleanLine_eq_iff nfc text hline
  rw [htwice, normalizeText_eq, ← hcleaned]
  constructor
  · intro h
    have hcleanLines : ∀ line ∈ tidy id
        ((keptLines nfc.toNormalForm text).map (cleanLine nfc.toNormalForm)), Unbroken line := by
      intro line hline
      obtain ⟨before, hbefore, rfl⟩ := List.mem_map.mp (tidy_subset id _ hline)
      exact (hunbroken before hbefore).cleanLine _
    have hlines := join_inj hcleanLines hunbroken (tidy_tidy _).head htidy.head h
    have hsame := tidy_of_length (Nat.le_of_eq (by rw [hlines, List.length_map]))
    exact hsame.symm.trans hlines
  · intro h
    rw [h, htidy.eq_self]

end Pass

/-! ## When it makes no difference -/

/-- **How often a text is normalised makes no difference exactly if its normal form is one also
without the control characters.** -/
theorem stable_iff (tables : Tables) (nfc : StableForm) (text : Text) :
    Stable (withForm tables nfc) text ↔
      nfc.normalize (uncontrolled nfc.toNormalForm text) = uncontrolled nfc.toNormalForm text := by
  rw [← normalizeText_twice_iff]
  constructor
  · exact fun h => h.normalized
  · intro h
    have hcanonical : canonicalText (withForm tables nfc) (normalizeText nfc.toNormalForm text) =
        canonicalText (withForm tables nfc) text := by
      rw [canonicalText, canonicalText]
      exact congrArg (fun t => strip (collapseSpaces (stripPunctuation (withForm tables nfc)
        (tables.lower t)))) h
    refine ⟨h, hcanonical, fun n => ?_⟩
    rw [documentChecksum, documentChecksum]
    cases n with
    | zero => rfl
    | succ n =>
      have hfixed := Function.iterate_fixed h n
      rw [Function.iterate_succ_apply]
      exact congrArg _ ((congrArg _ hfixed).trans hcanonical)

/-! ## A text that changes -/

/-- Composes an e and an acute accent. -/
def composeAcute : Text → Text
  | [] => []
  | 'e' :: '\u0301' :: rest => 'é' :: composeAcute rest
  | c :: rest => c :: composeAcute rest

theorem composeAcute_cons {c : Char} {t : Text} (h : ¬ (c = 'e' ∧ t.head? = some '\u0301')) :
    composeAcute (c :: t) = c :: composeAcute t := by
  rw [composeAcute]
  rintro rest rfl rfl
  exact h ⟨rfl, rfl⟩

theorem head?_composeAcute {t : Text} (h : (composeAcute t).head? = some '\u0301') :
    t.head? = some '\u0301' := by
  induction t using pair_induction 'e' '\u0301' with
  | nil => cases h
  | pair rest ih => exact absurd (Option.some.inj h) (by decide)
  | cons c rest hpair ih =>
    rw [composeAcute] at h
    · exact h
    · exact hpair

theorem composeAcute_of_apart {t : Text} (h : ¬ ['e', '\u0301'] <:+: t) : composeAcute t = t := by
  induction t with
  | nil => rfl
  | cons c t ih =>
    rw [List.infix_cons_iff, not_or] at h
    rw [composeAcute_cons, ih h.2]
    rintro ⟨rfl, hhead⟩
    obtain ⟨rest, rfl⟩ := List.head?_eq_some_iff.mp hhead
    exact h.1 ⟨rest, rfl⟩

theorem composeAcute_apart (t : Text) : ¬ ['e', '\u0301'] <:+: composeAcute t := by
  induction t using pair_induction 'e' '\u0301' with
  | nil => decide
  | pair rest ih =>
    rw [composeAcute, List.infix_cons_iff, not_or]
    exact ⟨fun h => absurd (List.cons_prefix_cons.mp h).1 (by decide), ih⟩
  | cons c rest hpair ih =>
    rw [composeAcute, List.infix_cons_iff, not_or]
    · refine ⟨fun h => ?_, ih⟩
      obtain ⟨rfl, tail, htail⟩ := List.cons_prefix_cons.mp h
      have hhead : (composeAcute rest).head? = some '\u0301' := by
        rw [← htail]
        rfl
      obtain ⟨tail', rfl⟩ := List.head?_eq_some_iff.mp (head?_composeAcute hhead)
      exact hpair tail' rfl rfl
    · exact hpair

theorem composeAcute_eq_iff (t : Text) : composeAcute t = t ↔ ¬ ['e', '\u0301'] <:+: t :=
  ⟨fun h => h ▸ composeAcute_apart t, composeAcute_of_apart⟩

theorem composeAcute_gap {c : Char} (hc : c ≠ 'e' ∧ c ≠ '\u0301') (a b : Text) :
    composeAcute (a ++ c :: b) = composeAcute a ++ c :: composeAcute b := by
  induction a using pair_induction 'e' '\u0301' with
  | nil => exact composeAcute_cons fun h => hc.1 h.1
  | pair rest ih => exact congrArg (List.cons 'é') ih
  | cons d rest hpair ih =>
    have hcons : ¬ (d = 'e' ∧ rest.head? = some '\u0301') := by
      rintro ⟨rfl, hhead⟩
      obtain ⟨tail, rfl⟩ := List.head?_eq_some_iff.mp hhead
      exact hpair tail rfl rfl
    have hcons' : ¬ (d = 'e' ∧ (rest ++ c :: b).head? = some '\u0301') := by
      rintro ⟨rfl, hhead⟩
      cases rest with
      | nil => exact hc.2 (Option.some.inj hhead)
      | cons e rest => exact hcons ⟨rfl, hhead⟩
    rw [List.cons_append, composeAcute_cons hcons', composeAcute_cons hcons, ih]
    rfl

theorem mem_composeAcute {t : Text} {c : Char} (h : c ∈ composeAcute t) : c ∈ t ∨ c = 'é' := by
  induction t using pair_induction 'e' '\u0301' with
  | nil => cases h
  | pair rest ih =>
    obtain rfl | h := List.mem_cons.mp h
    · exact Or.inr rfl
    · exact (ih h).imp_left fun h => List.mem_cons_of_mem _ (List.mem_cons_of_mem _ h)
  | cons d rest hpair ih =>
    rw [composeAcute] at h
    · obtain rfl | h := List.mem_cons.mp h
      · exact Or.inl List.mem_cons_self
      · exact (ih h).imp_left (List.mem_cons_of_mem d)
    · exact hpair

/-- NFC of the texts whose only combining mark is an acute accent, after an e or on its own. -/
def acute : StableForm where
  line := composeAcute
  unbroken t h c hc := by
    obtain hc | rfl := mem_composeAcute hc
    · exact h c hc
    · decide
  line_nil := rfl
  idem t := composeAcute_of_apart (composeAcute_apart t)
  parts a b h := by
    rw [composeAcute_eq_iff] at h ⊢
    rw [composeAcute_eq_iff]
    exact ⟨fun hleft => h (hleft.trans (List.prefix_append a b).isInfix),
      fun hright => h (hright.trans (List.suffix_append a b).isInfix)⟩
  gap a c b hc := by
    have hother : c ≠ 'e' ∧ c ≠ '\u0301' :=
      ⟨by rintro rfl; exact absurd hc (by decide), by rintro rfl; exact absurd hc (by decide)⟩
    have hsingle : composeAcute [c] = [c] := composeAcute_gap hother [] []
    rw [composeAcute_gap hother, hsingle, List.append_assoc, List.singleton_append]
  ascii c _ := composeAcute_cons fun h => nomatch h.2
  clean t h c hc := by
    obtain hc | rfl := mem_composeAcute hc
    · exact h c hc
    · decide

/-- Removing the control character lets the accent meet its letter. -/
theorem mark_behind_control :
    ¬ ∀ (tables : Tables) (nfc : StableForm) (text : Text), Stable (withForm tables nfc) text := by
  intro h
  have hnormalized := (h asciiTables acute ['e', '\x00', '\u0301']).normalized
  exact absurd hnormalized (by decide)

end OpenWrtCopilot.Ports.KnowledgeStability
