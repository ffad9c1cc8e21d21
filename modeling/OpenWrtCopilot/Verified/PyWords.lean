import OpenWrtCopilot.Verified.PyText

/-!
# Words and numbers of a line

A line of words with single spaces between them is split into these words by
`str.split()`, and what `str.split()` returns are words.  A decimal literal is
read as the number it was printed from.

## Main results

* `words_append_space`, `words_word` — a line is split into its words.
* `word_of_mem_words` — what a line is split into.
* `words_append`, `words_join`, `words_strip` — texts with spaces between them are split
  separately, and spaces at the ends do not count.
* `pyInt_intText`, `natAbs_lt_of_pyInt` — `int(str(p))` is `p` for every `p` that
  `int` has read.
-/

namespace OpenWrtCopilot.Verified.PyText

/-! ## Words -/

/-- A nonempty text without spaces. -/
def Word (t : Text) : Prop := t ≠ [] ∧ ∀ c ∈ t, isSpace c = false

instance (t : Text) : Decidable (Word t) := by
  unfold Word
  infer_instance

/-- Every line boundary is a space. -/
theorem isSpace_of_isLineBoundary {c : Char} (h : isLineBoundary c = true) : isSpace c = true := by
  simp only [isLineBoundary, isSpace, decide_eq_true_eq, List.mem_cons, List.not_mem_nil,
    or_false] at h ⊢
  omega

theorem Word.singleLine {t : Text} (h : Word t) : SingleLine t := by
  intro c hc
  cases hb : isLineBoundary c with
  | false => rfl
  | true => exact absurd (isSpace_of_isLineBoundary hb) (by rw [h.2 c hc]; decide)

/-- The first word of a line ends before the first space. -/
theorem words_append_space {word : Text} (h : Word word) (rest : Text) :
    words (word ++ ' ' :: rest) = word :: words rest := by
  obtain ⟨hne, hall⟩ := h
  induction word with
  | nil => exact absurd rfl hne
  | cons c word ih =>
    have hc : isSpace c = false := hall c List.mem_cons_self
    have hrest : ∀ d ∈ word, isSpace d = false := fun d hd => hall d (List.mem_cons_of_mem c hd)
    have hblank : isSpace ' ' = true := by decide
    cases word with
    | nil => simp [words, hc, hblank]
    | cons d word =>
      have hd : isSpace d = false := hrest d List.mem_cons_self
      have htail := ih (List.cons_ne_nil d word) hrest
      rw [List.cons_append] at htail
      rw [List.cons_append, List.cons_append, words, if_neg (by rw [hc]; decide)]
      simp only [hd, Bool.false_eq_true, if_false, htail]

/-- A line that is one word. -/
theorem words_word {word : Text} (h : Word word) : words word = [word] := by
  obtain ⟨hne, hall⟩ := h
  induction word with
  | nil => exact absurd rfl hne
  | cons c word ih =>
    have hc : isSpace c = false := hall c List.mem_cons_self
    have hrest : ∀ d ∈ word, isSpace d = false := fun d hd => hall d (List.mem_cons_of_mem c hd)
    cases word with
    | nil => simp [words, hc]
    | cons d word =>
      have hd : isSpace d = false := hrest d List.mem_cons_self
      rw [words, if_neg (by rw [hc]; decide)]
      simp only [hd, Bool.false_eq_true, if_false, ih (List.cons_ne_nil d word) hrest]

/-- What a line is split into are words. -/
theorem word_of_mem_words {t word : Text} (h : word ∈ words t) : Word word := by
  induction t generalizing word with
  | nil => exact absurd h List.not_mem_nil
  | cons c t ih =>
    rw [words.eq_def] at h
    dsimp only at h
    split at h
    · exact ih h
    · next hc =>
        have hc' : isSpace c = false := Bool.eq_false_iff.mpr hc
        have hsingle : Word [c] :=
          ⟨List.cons_ne_nil c [], fun d hd => List.mem_singleton.mp hd ▸ hc'⟩
        split at h
        · exact List.mem_singleton.mp h ▸ hsingle
        · split at h
          · rcases List.mem_cons.mp h with rfl | h
            · exact hsingle
            · exact ih h
          · split at h
            · exact List.mem_singleton.mp h ▸ hsingle
            · next first rest hwords =>
                rcases List.mem_cons.mp h with rfl | h
                · obtain ⟨-, hfirst⟩ := ih (hwords ▸ List.mem_cons_self)
                  refine ⟨List.cons_ne_nil c first, fun d hd => ?_⟩
                  rcases List.mem_cons.mp hd with rfl | hd
                  · exact hc'
                  · exact hfirst d hd
                · exact ih (hwords ▸ List.mem_cons_of_mem first h)

/-- A line that begins with a word's character has that character first in its first word. -/
theorem head?_words {c : Char} {t : Text} (hc : isSpace c = false) :
    ∃ first rest, words (c :: t) = (c :: first) :: rest := by
  rw [words.eq_def]
  dsimp only
  rw [if_neg (by rw [hc]; decide)]
  split
  · exact ⟨[], [], rfl⟩
  · split
    · exact ⟨[], _, rfl⟩
    · split
      · exact ⟨[], [], rfl⟩
      · exact ⟨_, _, rfl⟩

/-- No word goes from one text into the next. -/
def Between (a b : Text) : Prop :=
  ∀ c ∈ a.getLast?, ∀ d ∈ b.head?, isSpace c = true ∨ isSpace d = true

instance (a b : Text) : Decidable (Between a b) := by
  unfold Between
  infer_instance

theorem words_cons_space {c : Char} (h : isSpace c = true) (t : Text) :
    words (c :: t) = words t := by
  rw [words.eq_def]
  exact if_pos h

/-- Two texts are split separately if no word goes from one into the other. -/
theorem words_append {a b : Text} (h : Between a b) : words (a ++ b) = words a ++ words b := by
  induction a with
  | nil => rfl
  | cons c a ih =>
    cases a with
    | nil =>
      rw [List.singleton_append]
      cases hc : isSpace c with
      | true => rw [words_cons_space hc, words_cons_space hc, words, List.nil_append]
      | false =>
        cases b with
        | nil => exact (List.append_nil _).symm
        | cons d b =>
          have hd : isSpace d = true := (h c rfl d rfl).resolve_left (by simp [hc])
          simp [words, hc, hd]
    | cons d a =>
      have hlater := ih fun e he => h e (by rwa [List.getLast?_cons_cons])
      rw [List.cons_append, List.cons_append, words.eq_def, words.eq_def (c :: d :: a)]
      rw [List.cons_append] at hlater
      dsimp only
      cases hc : isSpace c with
      | true => exact hlater
      | false =>
        rw [if_neg Bool.false_ne_true, if_neg Bool.false_ne_true, hlater]
        cases hd : isSpace d with
        | true => rfl
        | false =>
          obtain ⟨first, rest, hfirst⟩ := head?_words (t := a) hd
          simp [hfirst]

/-- Spaces at the beginning belong to no word. -/
theorem words_of_spaces {a : Text} (h : ∀ c ∈ a, isSpace c = true) : words a = [] := by
  induction a with
  | nil => rfl
  | cons c a ih =>
    rw [words_cons_space (h c List.mem_cons_self)]
    exact ih fun d hd => h d (List.mem_cons_of_mem c hd)

theorem between_of_spaces_left {a b : Text} (h : ∀ c ∈ a, isSpace c = true) : Between a b :=
  fun c hc _ _ => Or.inl (h c (List.mem_of_mem_getLast? hc))

theorem between_of_spaces_right {a b : Text} (h : ∀ c ∈ b, isSpace c = true) : Between a b :=
  fun _ _ d hd => Or.inr (h d (List.mem_of_mem_head? hd))

theorem words_strip (t : Text) : words (strip t) = words t := by
  have hleft : ∀ c ∈ t.takeWhile isSpace, isSpace c = true := fun c hc =>
    List.mem_takeWhile_imp hc
  have hright : ∀ c ∈ (lstrip t).rtakeWhile isSpace, isSpace c = true := fun c hc =>
    List.mem_rtakeWhile_imp hc
  have hlstrip : words t = words (lstrip t) := by
    conv_lhs => rw [← List.takeWhile_append_dropWhile (p := isSpace) (l := t)]
    rw [words_append (between_of_spaces_left hleft), words_of_spaces hleft, List.nil_append]
    rfl
  rw [hlstrip]
  conv_rhs => rw [← List.rdropWhile_append_rtakeWhile (p := isSpace) (l := lstrip t)]
  rw [words_append (between_of_spaces_right hright), words_of_spaces hright, List.append_nil]
  rfl

/-- Texts with spaces between them are split separately. -/
theorem words_join {sep : Text} (hne : sep ≠ []) (hsep : ∀ c ∈ sep, isSpace c = true)
    (parts : List Text) : words (join sep parts) = parts.flatMap words := by
  induction parts with
  | nil => rfl
  | cons part parts ih =>
    by_cases hnil : parts = []
    · rw [hnil, join_singleton, List.flatMap_singleton]
    · obtain ⟨c, rest, rfl⟩ := List.exists_cons_of_ne_nil hne
      have hfirst : Between part (c :: rest ++ join (c :: rest) parts) := fun _ _ d hd =>
        Or.inr (Option.some.inj hd ▸ hsep c List.mem_cons_self)
      rw [join_cons_of_ne_nil _ _ hnil, List.append_assoc, words_append hfirst,
        words_append (between_of_spaces_left hsep), words_of_spaces hsep, List.nil_append, ih]
      rfl

theorem flatMap_words {ws : List Text} (h : ∀ w ∈ ws, Word w) : ws.flatMap words = ws := by
  induction ws with
  | nil => rfl
  | cons w ws ih =>
    rw [List.flatMap_cons, words_word (h w List.mem_cons_self),
      ih fun v hv => h v (List.mem_cons_of_mem w hv)]
    rfl

/-- Words joined by spaces are split into these words. -/
theorem words_join_space {ws : List Text} (h : ∀ w ∈ ws, Word w) :
    words (join " ".toList ws) = ws :=
  (words_join (by decide) (by decide) ws).trans (flatMap_words h)

/-- What is left of a stripped line begins with no space. -/
theorem isSpace_of_strip_eq_cons {t rest : Text} {c : Char} (h : strip t = c :: rest) :
    isSpace c = false := by
  obtain ⟨tail, htail⟩ : strip t <+: lstrip t := List.rdropWhile_prefix isSpace (lstrip t)
  rw [h, List.cons_append] at htail
  have hhead := List.head?_dropWhile_not isSpace t
  rw [show t.dropWhile isSpace = lstrip t from rfl, ← htail] at hhead
  exact hhead

/-- Lines joined by newlines, with one at the end. -/
theorem join_append_newline {lines : List Text} (h : lines ≠ []) :
    join "\n" lines ++ "\n".toList = unlines lines := by
  induction lines with
  | nil => exact absurd rfl h
  | cons line lines ih =>
    by_cases hrest : lines = []
    · rw [hrest, join_singleton]
      simp
    · rw [join_cons_of_ne_nil _ _ hrest, unlines_cons, List.append_assoc, List.append_assoc,
        ih hrest]
      rfl

/-! ## Numbers -/

theorem digitValue_of_isDigit {c : Char} (h : c.isDigit = true) :
    digitValue c = some (c.toNat - '0'.toNat) := by
  have hle := range_of_isDigit h
  have hrange : 0x30 ≤ c.toNat ∧ c.toNat < 0x30 + 10 := by omega
  rw [digitValue, decimalZeros, List.findSome?_cons, if_pos hrange]
  rfl

theorem ne_underscore_of_isDigit {c : Char} (h : c.isDigit = true) : c ≠ '_' := by
  intro hc
  rw [hc] at h
  exact absurd h (by decide)

theorem decimalFrom_cons {c : Char} (hc : c ≠ '_') (acc : Nat) (t : Text) :
    decimalFrom acc (c :: t) = (digitValue c).bind fun d => decimalFrom (acc * 10 + d) t := by
  rw [decimalFrom.eq_def]
  split
  · next h => cases h
  · next h =>
      obtain ⟨rfl, -⟩ := List.cons.inj h
      exact absurd rfl hc
  · next h =>
      obtain ⟨rfl, rfl⟩ := List.cons.inj h
      rfl

/-- Digits are read from left to right. -/
theorem decimalFrom_digits {t : Text} (h : ∀ c ∈ t, c.isDigit = true) (acc : Nat) :
    decimalFrom acc t = some (Nat.ofDigitChars 10 t acc) := by
  induction t generalizing acc with
  | nil => rw [Nat.ofDigitChars_nil, decimalFrom]
  | cons c t ih =>
    have hc := h c List.mem_cons_self
    rw [decimalFrom_cons (ne_underscore_of_isDigit hc), digitValue_of_isDigit hc,
      Option.bind_some, ih (fun d hd => h d (List.mem_cons_of_mem c hd)),
      Nat.ofDigitChars_cons, Nat.mul_comm]

theorem decimal_natText (n : Nat) : decimal (natText n) = some n := by
  have hdigits : ∀ c ∈ natText n, c.isDigit = true :=
    fun c hc => Nat.isDigit_of_mem_toDigits (by decide) (by decide) hc
  cases htext : natText n with
  | nil => exact absurd htext Nat.toDigits_ne_nil
  | cons c t =>
    rw [htext] at hdigits
    have hvalue : Nat.ofDigitChars 10 (c :: t) 0 = n := by
      rw [← htext]
      exact Nat.ofDigitChars_ten_toDigits
    rw [decimal, digitValue_of_isDigit (hdigits c List.mem_cons_self)]
    rw [Nat.ofDigitChars_cons, Nat.mul_zero, Nat.zero_add] at hvalue
    exact (decimalFrom_digits (fun d hd => hdigits d (List.mem_cons_of_mem c hd)) _).trans
      (congrArg some hvalue)

theorem digitValue_lt {c : Char} {d : Nat} (h : digitValue c = some d) : d < 10 := by
  obtain ⟨base, -, hbase⟩ := List.exists_of_findSome?_eq_some h
  split at hbase
  · next hrange =>
      obtain rfl := Option.some.inj hbase
      omega
  · cases hbase

/-- One more digit, if the rest is bounded. -/
theorem decimal_step_lt {c : Char} {cs : Text} {acc n : Nat}
    (ih : ∀ d n, decimalFrom (acc * 10 + d) cs = some n →
      n < (acc * 10 + d + 1) * 10 ^ (cs.filter (· ≠ '_')).length)
    (h : ((digitValue c).bind fun d => decimalFrom (acc * 10 + d) cs) = some n) :
    n < (acc + 1) * 10 ^ ((c :: cs).filter (· ≠ '_')).length := by
  obtain ⟨d, hd, hrest⟩ := Option.bind_eq_some_iff.mp h
  have hc : c ≠ '_' := by
    rintro rfl
    exact absurd hd (by rw [show digitValue '_' = none by decide]; nofun)
  have hlt := digitValue_lt hd
  have hn := ih d n hrest
  rw [List.filter_cons_of_pos (by simpa using hc), List.length_cons, Nat.pow_succ,
    Nat.mul_comm (10 ^ _) 10, ← Nat.mul_assoc]
  exact hn.trans_le (Nat.mul_le_mul_right _ (by omega))

/-- A literal of `n` digits stands for less than `10 ^ n`. -/
theorem decimalFrom_lt {t : Text} {acc n : Nat} (h : decimalFrom acc t = some n) :
    n < (acc + 1) * 10 ^ (t.filter (· ≠ '_')).length := by
  induction acc, t using decimalFrom.induct generalizing n with
  | case1 acc =>
    rw [decimalFrom] at h
    obtain rfl := Option.some.inj h
    simp
  | case2 acc c cs ih =>
    rw [decimalFrom] at h
    rw [List.filter_cons_of_neg (by simp)]
    exact decimal_step_lt (fun d n hrest => ih d hrest) h
  | case3 acc c cs hc ih =>
    rw [decimalFrom] at h
    · exact decimal_step_lt (fun d n hrest => ih d hrest) h
    · exact hc

/-- What `int` reads is short enough to be read again. -/
theorem natAbs_lt_of_pyInt {t : Text} {p : Int} (h : pyInt t = some p) :
    p.natAbs < 10 ^ maxStrDigits := by
  rw [pyInt] at h
  split at h
  next negative digits hmatch =>
    split at h
    · next hshort =>
        cases hdecimal : decimal digits with
        | none =>
          rw [hdecimal] at h
          cases h
        | some n =>
          rw [hdecimal] at h
          obtain rfl := Option.some.inj h
          have hlt : n < 10 ^ (digits.filter (· ≠ '_')).length := by
            cases digits with
            | nil => cases hdecimal
            | cons c cs =>
              have hfirst : ((digitValue c).bind fun d => decimalFrom (0 * 10 + d) cs) =
                  some n := by
                simp only [Nat.zero_mul, Nat.zero_add]
                exact hdecimal
              have hbound := decimal_step_lt (fun d m hm => decimalFrom_lt hm) hfirst
              rwa [Nat.zero_add, Nat.one_mul] at hbound
          have hpow : 10 ^ (digits.filter (· ≠ '_')).length ≤ 10 ^ maxStrDigits :=
            Nat.pow_le_pow_right (by decide) hshort
          have habs : (if negative = true then -(n : Int) else n).natAbs = n := by
            split
            · rw [Int.natAbs_neg, Int.natAbs_natCast]
            · rw [Int.natAbs_natCast]
          exact habs.trans_lt (hlt.trans_le hpow)
    · cases h

theorem word_natText (n : Nat) : Word (natText n) := by
  refine ⟨Nat.toDigits_ne_nil, fun c hc => ?_⟩
  have hrange := range_of_mem_natText hc
  exact isSpace_of_printable (by omega) (by omega)

theorem strip_word {t : Text} (h : Word t) : strip t = t :=
  strip_of_ends h.1 (fun c hc => h.2 c (List.mem_of_mem_head? hc))
    (fun c hc => h.2 c (List.mem_of_mem_getLast? hc))

theorem word_intText (p : Int) : Word (intText p) := by
  cases p with
  | ofNat n => exact word_natText n
  | negSucc n =>
    refine ⟨List.cons_ne_nil _ _, fun c hc => ?_⟩
    rcases List.mem_cons.mp hc with rfl | hc
    · decide
    · exact (word_natText (n + 1)).2 c hc

theorem length_natText_le {n : Nat} (h : n < 10 ^ maxStrDigits) :
    ((natText n).filter (· ≠ '_')).length ≤ maxStrDigits :=
  (List.length_filter_le _ _).trans ((Nat.length_toDigits_le_iff (by decide) (by decide)).mpr h)

/-- `int(str(p))` is `p`, unless the literal is too long for `int`. -/
theorem pyInt_intText {p : Int} (h : p.natAbs < 10 ^ maxStrDigits) : pyInt (intText p) = some p := by
  rw [pyInt, strip_word (word_intText p)]
  split
  next negative digits hmatch =>
    cases p with
    | ofNat n =>
      have hsign : ∀ c ∈ natText n, c ≠ '-' ∧ c ≠ '+' := by
        intro c hc
        have hrange := range_of_mem_natText hc
        constructor
        · rintro rfl
          exact absurd hrange.1 (by decide)
        · rintro rfl
          exact absurd hrange.1 (by decide)
      have hunsigned : negative = false ∧ digits = natText n := by
        rw [intText] at hmatch
        split at hmatch
        · next ds hds => exact absurd rfl (hsign '-' (hds ▸ List.mem_cons_self)).1
        · next ds hds => exact absurd rfl (hsign '+' (hds ▸ List.mem_cons_self)).2
        · exact ⟨(Prod.mk.inj hmatch).1.symm, (Prod.mk.inj hmatch).2.symm⟩
      obtain ⟨rfl, rfl⟩ := hunsigned
      have hshort : ((natText n).filter (· ≠ '_')).length ≤ maxStrDigits := length_natText_le h
      rw [if_pos hshort, decimal_natText]
      rfl
    | negSucc n =>
      obtain ⟨rfl, rfl⟩ := Prod.mk.inj hmatch
      have hshort : ((natText (n + 1)).filter (· ≠ '_')).length ≤ maxStrDigits :=
        length_natText_le h
      rw [if_pos hshort, decimal_natText]
      rfl

end OpenWrtCopilot.Verified.PyText
