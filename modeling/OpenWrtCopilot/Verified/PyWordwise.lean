import OpenWrtCopilot.Verified.PyPieces

/-!
# Functions that work word by word

A function on texts that leaves the spaces where they are can be applied to each word of a
text.  `collapseSpaces` followed by `str.strip()` leaves the words with single spaces between
them.

## Main results

* `Wordwise.words` — the words of the result are the results of the words.
* `strip_collapseSpaces` — what is left of a text whose spaces are collapsed.
-/

namespace OpenWrtCopilot.Verified.PyText

/-! ## Words between spaces -/

theorem words_append_cons_space {c : Char} (h : isSpace c = true) (a b : Text) :
    words (a ++ c :: b) = words a ++ words b := by
  have hbetween : Between a (c :: b) := fun _ _ d hd => Or.inr (Option.some.inj hd ▸ h)
  rw [words_append hbetween, words_cons_space h]

theorem words_of_nonspaces {a : Text} (h : ∀ c ∈ a, isSpace c = false) :
    words a = [a].filter (· ≠ []) := by
  by_cases hne : a = []
  · rw [hne]
    rfl
  · rw [words_word ⟨hne, h⟩, List.filter_cons_of_pos (by simpa using hne), List.filter_nil]

/-! ## Word by word -/

/-- A function on texts that leaves the spaces where they are and makes no new ones. -/
structure Wordwise (f : Text → Text) : Prop where
  nil : f [] = []
  space : ∀ a c b, isSpace c = true → f (a ++ c :: b) = f a ++ c :: f b
  nonspace : ∀ a, (∀ c ∈ a, isSpace c = false) → ∀ c ∈ f a, isSpace c = false

theorem Wordwise.comp {f g : Text → Text} (hg : Wordwise g) (hf : Wordwise f) :
    Wordwise (g ∘ f) where
  nil := by rw [Function.comp_apply, hf.nil, hg.nil]
  space a c b hc := by
    rw [Function.comp_apply, hf.space a c b hc, hg.space _ c _ hc, Function.comp_apply,
      Function.comp_apply]
  nonspace a ha := hg.nonspace (f a) (hf.nonspace a ha)

/-- Characters are removed, but no spaces. -/
theorem wordwise_filter {p : Char → Bool} (hp : ∀ c, isSpace c = true → p c = true) :
    Wordwise (List.filter p) where
  nil := rfl
  space a c b hc := by rw [List.filter_append, List.filter_cons_of_pos (hp c hc)]
  nonspace a ha c hc := ha c (List.mem_of_mem_filter hc)

/-- Characters become others, and only spaces become spaces. -/
theorem wordwise_map {f : Char → Char} (hspace : ∀ c, isSpace c = true → f c = c)
    (hnonspace : ∀ c, isSpace c = false → isSpace (f c) = false) : Wordwise (List.map f) where
  nil := rfl
  space a c b hc := by rw [List.map_append, List.map_cons, hspace c hc]
  nonspace a ha c hc := by
    obtain ⟨d, hd, rfl⟩ := List.mem_map.mp hc
    exact hnonspace d (ha d hd)

theorem Wordwise.words_of_nonspaces {f : Text → Text} (hf : Wordwise f) {a : Text}
    (h : ∀ c ∈ a, isSpace c = false) :
    words (f a) = ((words a).map f).filter (· ≠ []) := by
  rw [PyText.words_of_nonspaces (hf.nonspace a h), PyText.words_of_nonspaces h]
  by_cases hne : a = []
  · rw [hne, hf.nil]
    rfl
  · have hkept : [a].filter (· ≠ []) = [a] := List.filter_cons_of_pos (by simpa using hne)
    rw [hkept]
    rfl

/-- **The words of the result are what becomes of the words, where something is left.** -/
theorem Wordwise.words {f : Text → Text} (hf : Wordwise f) (t : Text) :
    words (f t) = ((words t).map f).filter (· ≠ []) := by
  induction hn : t.length using Nat.strong_induction_on generalizing t with
  | _ n ih =>
    obtain hall | ⟨a, c, b, rfl, ha, hc⟩ := PyPieces.exists_first_separator isSpace t
    · exact hf.words_of_nonspaces hall
    · have hshorter : b.length < n := by
        rw [← hn, List.length_append, List.length_cons]
        omega
      rw [hf.space a c b hc, words_append_cons_space hc, words_append_cons_space hc,
        hf.words_of_nonspaces ha, ih b.length hshorter b rfl, List.map_append,
        List.filter_append]

/-! ## Runs of spaces -/

/-- `re.sub(r"\s+", " ", t)`. -/
def collapseSpaces : Text → Text
  | [] => []
  | c :: rest =>
      if isSpace c = true then
        if rest.head?.any isSpace = true then collapseSpaces rest else ' ' :: collapseSpaces rest
      else c :: collapseSpaces rest

theorem collapseSpaces_cons_nonspace {c : Char} (hc : isSpace c = false) (t : Text) :
    collapseSpaces (c :: t) = c :: collapseSpaces t := by
  rw [collapseSpaces, if_neg (by rw [hc]; decide)]

theorem lstrip_cons_space {c : Char} (hc : isSpace c = true) (t : Text) :
    lstrip (c :: t) = lstrip t := List.dropWhile_cons_of_pos hc

theorem lstrip_cons_nonspace {c : Char} (hc : isSpace c = false) (t : Text) :
    lstrip (c :: t) = c :: t := List.dropWhile_cons_of_neg (by rw [hc]; decide)

theorem rstrip_cons (c : Char) (t : Text) :
    rstrip (c :: t) = if isSpace c = true ∧ rstrip t = [] then [] else c :: rstrip t := by
  induction t using List.reverseRecOn with
  | nil =>
    rw [rstrip, rstrip, List.rdropWhile_singleton, List.rdropWhile_nil]
    simp
  | append_singleton t d ih =>
    rw [rstrip, rstrip, ← List.cons_append, List.rdropWhile_concat, List.rdropWhile_concat]
    by_cases hd : isSpace d = true
    · rw [if_pos hd, if_pos hd]
      exact ih
    · rw [if_neg hd, if_neg hd, if_neg fun h => List.concat_ne_nil d t (by simpa using h.2)]
      rfl

theorem rstrip_cons_nonspace {c : Char} (hc : isSpace c = false) (t : Text) :
    rstrip (c :: t) = c :: rstrip t := by
  rw [rstrip_cons, if_neg fun h => by rw [hc] at h; exact absurd h.1 (by decide)]

theorem lstrip_collapseSpaces (t : Text) :
    lstrip (collapseSpaces t) = collapseSpaces (lstrip t) := by
  induction t with
  | nil => rfl
  | cons c t ih =>
    cases hc : isSpace c with
    | true =>
      rw [lstrip_cons_space hc, ← ih, collapseSpaces, if_pos hc]
      split
      · rfl
      · exact lstrip_cons_space (by decide) _
    | false =>
      rw [lstrip_cons_nonspace hc, collapseSpaces_cons_nonspace hc,
        lstrip_cons_nonspace hc]

theorem words_lstrip (t : Text) : words (lstrip t) = words t := by
  induction t with
  | nil => rfl
  | cons c t ih =>
    cases hc : isSpace c with
    | true => rw [lstrip_cons_space hc, words_cons_space hc, ih]
    | false => rw [lstrip_cons_nonspace hc]

theorem join_words_cons_nonspace {c : Char} (hc : isSpace c = false) (t : Text) :
    join [' '] (words (c :: t)) =
      c :: if t.head?.any isSpace = true ∧ words t ≠ [] then ' ' :: join [' '] (words t)
        else join [' '] (words t) := by
  rw [words.eq_def]
  dsimp only
  rw [if_neg (by rw [hc]; decide)]
  cases t with
  | nil => rfl
  | cons d t =>
    cases hd : isSpace d with
    | true =>
      by_cases hnil : words (d :: t) = []
      · simp [hd, hnil]
      · simp [hd, hnil, join_cons_of_ne_nil]
    | false =>
      obtain ⟨first, rest, hfirst⟩ := head?_words (t := t) hd
      cases rest with
      | nil => simp [hd, hfirst]
      | cons word rest => simp [hd, hfirst, join_cons_of_ne_nil]

theorem words_join_words (t : Text) : words (join [' '] (words t)) = words t :=
  (words_join (by decide) (by decide) _).trans (flatMap_words fun _ => word_of_mem_words)

theorem join_words_eq_nil_iff {t : Text} : join [' '] (words t) = [] ↔ words t = [] := by
  constructor
  · intro h
    rw [← words_join_words, h, words]
  · intro h
    rw [h, join_nil]

theorem rstrip_collapseSpaces (t : Text) :
    rstrip (collapseSpaces t) =
      if t.head?.any isSpace = true ∧ words t ≠ [] then ' ' :: join [' '] (words t)
      else join [' '] (words t) := by
  induction t with
  | nil => rfl
  | cons c t ih =>
    cases hc : isSpace c with
    | true =>
      rw [collapseSpaces, if_pos hc, words_cons_space hc]
      by_cases hhead : t.head?.any isSpace = true
      · rw [if_pos hhead, ih]
        simp [hhead, hc]
      · have hplain := ih.trans (if_neg fun h => hhead h.1)
        rw [if_neg hhead, rstrip_cons, hplain]
        by_cases hnil : words t = []
        · rw [hnil, join_nil, if_pos ⟨by decide, rfl⟩, if_neg fun h => h.2 rfl]
        · rw [if_neg fun h => hnil (join_words_eq_nil_iff.mp h.2), if_pos ⟨hc, hnil⟩]
    | false =>
      rw [collapseSpaces_cons_nonspace hc, rstrip_cons_nonspace hc, ih,
        join_words_cons_nonspace hc]
      exact (if_neg fun h => absurd h.1 (by simp [hc])).symm

/-- What is left has single spaces between its words. -/
theorem strip_collapseSpaces (t : Text) : strip (collapseSpaces t) = join [' '] (words t) := by
  have hhead : ¬(lstrip t).head?.any isSpace = true := by
    intro h
    have hfirst := List.head?_dropWhile_not isSpace t
    rw [← lstrip] at hfirst
    cases hlstrip : (lstrip t).head? with
    | none =>
      rw [hlstrip] at h
      cases h
    | some c =>
      rw [hlstrip] at h hfirst
      exact absurd h (by simp [hfirst])
  rw [strip, lstrip_collapseSpaces, rstrip_collapseSpaces, words_lstrip,
    if_neg fun h => hhead h.1]

end OpenWrtCopilot.Verified.PyText
