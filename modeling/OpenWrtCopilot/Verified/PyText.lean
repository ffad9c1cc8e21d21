import Mathlib.Algebra.Ring.Nat
import Mathlib.Data.Char
import Mathlib.Data.List.DropRight
import Mathlib.Data.List.Infix
import Mathlib.Data.List.Lex

/-!
# Python text as code points

The repository's Python code reads and builds `str` values: router output is
split into lines, stripped, partitioned and compared, and commands are spliced
out of literals.  This module supplies those operations on lists of code
points, with the laws the ports use.

Only behaviour documented for Python's `str` is recorded here; nothing in this
module mentions the repository, so it can be used for any port of Python text
processing.

## Main results

* `splitlines_append_newline` — a newline is a cut point: what stands before it
  and what stands after it are split independently.
* `join_splitlines_eq_iff` — joining the split lines of a newline-terminated
  text with newlines gives the text back exactly when `'\n'` is the only line
  boundary it contains.
-/

namespace OpenWrtCopilot.Verified.PyText

/-- A Python `str`, as its code points. -/
abbrev Text := List Char

/-- Literals are read as code points, so that a Python f-string is written as a
chain of `++`. -/
instance : Coe String Text := ⟨String.toList⟩

instance : LawfulBEq Text := List.instLawfulBEq

/-- A statement about all characters of a text is decided by going through the text, and
never through all characters there are. -/
instance (priority := high) decidableForallMem {P : Char → Prop} [DecidablePred P] (t : Text) :
    Decidable (∀ c ∈ t, P c) :=
  List.decidableBAll P t

instance (priority := high) decidableForallMemOption {P : Char → Prop} [DecidablePred P]
    (o : Option Char) : Decidable (∀ c ∈ o, P c) :=
  Option.decidableForallMem o

/-! ## Character classes -/

/-- The line boundaries `str.splitlines` recognises. -/
def isLineBoundary (c : Char) : Bool :=
  c.toNat ∈ [0x0a, 0x0b, 0x0c, 0x0d, 0x1c, 0x1d, 0x1e, 0x85, 0x2028, 0x2029]

/-- The code points `str.isspace` accepts, which `str.strip` removes and
`str.split` separates on. -/
def isSpace (c : Char) : Bool :=
  c.toNat ∈ [0x09, 0x0a, 0x0b, 0x0c, 0x0d, 0x1c, 0x1d, 0x1e, 0x1f, 0x20, 0x85,
    0xa0, 0x1680, 0x2000, 0x2001, 0x2002, 0x2003, 0x2004, 0x2005, 0x2006,
    0x2007, 0x2008, 0x2009, 0x200a, 0x2028, 0x2029, 0x202f, 0x205f, 0x3000]

/-- Code points of the digit zero in each decimal script; every script's ten
digits are consecutive. -/
def decimalZeros : List Nat :=
  [0x0030, 0x0660, 0x06f0, 0x07c0, 0x0966, 0x09e6, 0x0a66, 0x0ae6, 0x0b66,
    0x0be6, 0x0c66, 0x0ce6, 0x0d66, 0x0de6, 0x0e50, 0x0ed0, 0x0f20, 0x1040,
    0x1090, 0x17e0, 0x1810, 0x1946, 0x19d0, 0x1a80, 0x1a90, 0x1b50, 0x1bb0,
    0x1c40, 0x1c50, 0xa620, 0xa8d0, 0xa900, 0xa9d0, 0xa9f0, 0xaa50, 0xabf0,
    0xff10, 0x104a0, 0x10d30, 0x11066, 0x110f0, 0x11136, 0x111d0, 0x112f0,
    0x11450, 0x114d0, 0x11650, 0x116c0, 0x11730, 0x118e0, 0x11950, 0x11c50,
    0x11d50, 0x11da0, 0x11f50, 0x16a60, 0x16ac0, 0x16b50, 0x1d7ce, 0x1d7d8,
    0x1d7e2, 0x1d7ec, 0x1d7f6, 0x1e140, 0x1e2f0, 0x1e4f0, 0x1e950, 0x1fbf0]

/-- The value of a decimal digit of any script. -/
def digitValue (c : Char) : Option Nat :=
  decimalZeros.findSome? fun base =>
    if base ≤ c.toNat ∧ c.toNat < base + 10 then some (c.toNat - base) else none

/-- Characters with a digit value that are no decimal digits, as ranges of code
points: superscripts, circled digits and the like. -/
def otherDigits : List (Nat × Nat) :=
  [(0xb2, 0xb3), (0xb9, 0xb9), (0x1369, 0x1371), (0x19da, 0x19da), (0x2070, 0x2070),
    (0x2074, 0x2079), (0x2080, 0x2089), (0x2460, 0x2468), (0x2474, 0x247c),
    (0x2488, 0x2490), (0x24ea, 0x24ea), (0x24f5, 0x24fd), (0x24ff, 0x24ff),
    (0x2776, 0x277e), (0x2780, 0x2788), (0x278a, 0x2792), (0x10a40, 0x10a43),
    (0x10e60, 0x10e68), (0x11052, 0x1105a), (0x1f100, 0x1f10a)]

/-- `str.isdigit()` of one character. -/
def isDigit (c : Char) : Bool :=
  (digitValue c).isSome ||
    otherDigits.any fun (first, last) => first ≤ c.toNat && c.toNat ≤ last

/-! ## Literals -/

/-- A string literal is its list of characters; `h` is closed by `rfl`. -/
theorem toList_literal {s : String} {l : List Char} (h : s = String.ofList l) : s.toList = l := by
  rw [h, String.toList_ofList]

/-- How a string literal begins; `h` is closed by `rfl`. -/
theorem begins_literal {s : String} {p l : List Char} (h : s = String.ofList (p ++ l)) :
    p <+: s.toList := by
  rw [toList_literal h]
  exact List.prefix_append p l

/-- How a text that starts with a string literal begins. -/
theorem begins_append {s : String} {p l : List Char} (h : s = String.ofList (p ++ l)) (t : Text) :
    p <+: s.toList ++ t :=
  (begins_literal h).trans (List.prefix_append s.toList t)

/-! ## Trimming, searching and words -/

/-- `str.lstrip()`. -/
def lstrip (t : Text) : Text := t.dropWhile isSpace

/-- `str.rstrip()`. -/
def rstrip (t : Text) : Text := t.rdropWhile isSpace

/-- `str.strip()`. -/
def strip (t : Text) : Text := rstrip (lstrip t)

/-- `t.startswith(pre)`. -/
def startsWith (pre t : Text) : Bool := pre.isPrefixOf t

/-- `t.split(sep, 1)` for a one-character separator: what stands before the
first separator, and what follows it if there is one. -/
def splitFirst (sep : Char) : Text → Text × Option Text
  | [] => ([], none)
  | c :: cs =>
      if c = sep then ([], some cs)
      else ((c :: (splitFirst sep cs).1), (splitFirst sep cs).2)

/-- `t.partition(sep)` for a nonempty separator: the text before the first
occurrence, and the text after it if there is one. -/
def partition (sep : Text) : Text → Text × Option Text
  | [] => ([], none)
  | c :: rest =>
      if startsWith sep (c :: rest) then ([], some ((c :: rest).drop sep.length))
      else ((c :: (partition sep rest).1), (partition sep rest).2)

/-- `str.split()`: the maximal runs of non-space characters. -/
def words : Text → List Text
  | [] => []
  | c :: cs =>
      if isSpace c then words cs
      else
        match cs with
        | [] => [[c]]
        | d :: _ =>
            if isSpace d then [c] :: words cs
            else
              match words cs with
              | [] => [[c]]
              | word :: rest => (c :: word) :: rest

/-! ## Decimal numbers -/

/-- `str(n)` for a natural number. -/
def natText (n : Nat) : Text := Nat.toDigits 10 n

/-- `str(n)` for an integer. -/
def intText : Int → Text
  | .ofNat n => natText n
  | .negSucc n => '-' :: natText (n + 1)

/-- Digits after the first one; a single underscore may stand before each. -/
def decimalFrom (acc : Nat) : Text → Option Nat
  | [] => some acc
  | '_' :: c :: cs => do decimalFrom (acc * 10 + (← digitValue c)) cs
  | c :: cs => do decimalFrom (acc * 10 + (← digitValue c)) cs

/-- An unsigned `int` literal, as `int()` reads it. -/
def decimal : Text → Option Nat
  | [] => none
  | c :: cs => do decimalFrom (← digitValue c) cs

/-- `sys.get_int_max_str_digits()`: `int()` refuses longer literals. -/
def maxStrDigits : Nat := 4300

/-- `int(t)`, with `none` for a `ValueError`. -/
def pyInt (t : Text) : Option Int :=
  let literal := strip t
  let (negative, digits) :=
    match literal with
    | '-' :: ds => (true, ds)
    | '+' :: ds => (false, ds)
    | ds => (false, ds)
  if (digits.filter (· ≠ '_')).length ≤ maxStrDigits then
    (decimal digits).map fun n => if negative then -(n : Int) else n
  else none

/-! ## Splitting and joining lines -/

/-- `str.splitlines()`: lines without their terminators, `"\r\n"` being one
boundary, and no empty line after a final terminator. -/
def splitlines : Text → List Text
  | [] => []
  | '\r' :: '\n' :: cs => [] :: splitlines cs
  | c :: cs =>
      if isLineBoundary c then [] :: splitlines cs
      else
        match splitlines cs with
        | [] => [[c]]
        | line :: lines => (c :: line) :: lines

/-- The induction of a function that takes the pair `a`, `b` at once. -/
theorem pair_induction (a b : Char) {motive : Text → Prop} (nil : motive [])
    (pair : ∀ rest, motive rest → motive (a :: b :: rest))
    (cons : ∀ c rest, (∀ tail, c = a → rest = b :: tail → False) → motive rest →
      motive (c :: rest)) : ∀ t, motive t
  | [] => nil
  | [c] => cons c [] (fun _ _ h => nomatch h) nil
  | c :: d :: rest => by
    by_cases h : c = a ∧ d = b
    · rw [h.1, h.2]
      exact pair rest (pair_induction a b nil pair cons rest)
    · exact cons c (d :: rest) (fun _ hc hd => h ⟨hc, (List.cons.inj hd).1⟩)
        (pair_induction a b nil pair cons (d :: rest))

/-- The induction of `splitlines`. -/
theorem splitlines_induction {motive : Text → Prop} (nil : motive [])
    (pair : ∀ cs, motive cs → motive ('\r' :: '\n' :: cs))
    (boundary : ∀ c cs, (∀ tail, c = '\r' → cs = '\n' :: tail → False) →
      isLineBoundary c = true → motive cs → motive (c :: cs))
    (last : ∀ c cs, (∀ tail, c = '\r' → cs = '\n' :: tail → False) →
      ¬isLineBoundary c = true → splitlines cs = [] → motive cs → motive (c :: cs))
    (inner : ∀ c cs, (∀ tail, c = '\r' → cs = '\n' :: tail → False) →
      ¬isLineBoundary c = true → ∀ line lines, splitlines cs = line :: lines → motive cs →
      motive (c :: cs)) (t : Text) : motive t := by
  induction t using pair_induction '\r' '\n' with
  | nil => exact nil
  | pair rest ih => exact pair rest ih
  | cons c rest hpair ih =>
    by_cases hc : isLineBoundary c = true
    · exact boundary c rest hpair hc ih
    · cases h : splitlines rest with
      | nil => exact last c rest hpair hc h ih
      | cons line lines => exact inner c rest hpair hc line lines h ih

/-- `sep.join(lines)`. -/
def join (sep : Text) (lines : List Text) : Text := sep.intercalate lines

/-- The text contains no line boundary, so it is a single line. -/
def SingleLine (t : Text) : Prop := ∀ c ∈ t, isLineBoundary c = false

instance (t : Text) : Decidable (SingleLine t) := by
  unfold SingleLine
  infer_instance

/-- The only line boundary in the text is the newline. -/
def OnlyNewlines (t : Text) : Prop := ∀ c ∈ t, isLineBoundary c = true → c = '\n'

instance (t : Text) : Decidable (OnlyNewlines t) := by
  unfold OnlyNewlines
  infer_instance

@[simp] theorem isLineBoundary_newline : isLineBoundary '\n' = true := by decide

@[simp] theorem isLineBoundary_return : isLineBoundary '\r' = true := by decide

@[simp] theorem splitlines_nil : splitlines [] = [] := rfl

@[simp] theorem splitlines_newline (cs : Text) :
    splitlines ('\n' :: cs) = [] :: splitlines cs := by
  rw [splitlines]
  · simp
  · intro cs' h
    simp at h

@[simp] theorem splitlines_crlf (cs : Text) :
    splitlines ('\r' :: '\n' :: cs) = [] :: splitlines cs := by
  rw [splitlines]

/-- A boundary that does not open a `"\r\n"` pair ends an empty first line. -/
theorem splitlines_boundary {c : Char} {cs : Text} (hc : isLineBoundary c = true)
    (hpair : ¬(c = '\r' ∧ cs.head? = some '\n')) :
    splitlines (c :: cs) = [] :: splitlines cs := by
  rw [splitlines]
  · simp [hc]
  · rintro cs' rfl rfl
    exact hpair ⟨rfl, rfl⟩

/-- An ordinary character is put in front of the first line. -/
theorem splitlines_ordinary {c : Char} {cs : Text} (hc : isLineBoundary c = false) :
    splitlines (c :: cs) =
      match splitlines cs with
      | [] => [[c]]
      | line :: lines => (c :: line) :: lines := by
  rw [splitlines]
  · simp [hc]
  · rintro cs' rfl rfl
    simp at hc

/-- A nonempty text has a first line. -/
theorem splitlines_ne_nil {c : Char} {cs : Text} : splitlines (c :: cs) ≠ [] := by
  cases hc : isLineBoundary c with
  | true =>
    by_cases hpair : c = '\r' ∧ cs.head? = some '\n'
    · obtain ⟨rfl, hhead⟩ := hpair
      cases cs with
      | nil => simp at hhead
      | cons d ds =>
        obtain rfl : d = '\n' := by simpa using hhead
        simp
    · simp [splitlines_boundary hc hpair]
  | false =>
    rw [splitlines_ordinary hc]
    split <;> simp

/-- A newline cuts the text: both sides are split on their own. -/
theorem splitlines_append_newline (a b : Text) :
    splitlines (a ++ '\n' :: b) = splitlines (a ++ ['\n']) ++ splitlines b := by
  induction a using splitlines_induction with
  | nil => simp
  | pair cs ih => simpa using ih
  | boundary c cs hpair hc ih =>
    cases cs with
    | nil =>
      by_cases hr : c = '\r'
      · subst hr
        simp
      · simp [splitlines_boundary hc, hr]
    | cons d ds =>
      have hhead : ∀ tail : Text, ¬(c = '\r' ∧ (d :: tail).head? = some '\n') := by
        rintro tail ⟨rfl, hd⟩
        obtain rfl : d = '\n' := by simpa using hd
        exact hpair ds rfl rfl
      simp only [List.cons_append] at ih ⊢
      rw [splitlines_boundary hc (hhead _), splitlines_boundary hc (hhead _), ih,
        List.cons_append]
  | last c cs _ hc hnil _ =>
    cases cs with
    | nil =>
      have hc' : isLineBoundary c = false := by simpa using hc
      simp [splitlines_ordinary hc']
    | cons d ds => exact absurd hnil splitlines_ne_nil
  | inner c cs _ hc line lines hcons ih =>
    have hc' : isLineBoundary c = false := by simpa using hc
    rw [List.cons_append, List.cons_append, splitlines_ordinary hc', splitlines_ordinary hc', ih]
    cases cs with
    | nil => simp at hcons
    | cons d ds =>
      cases hsplit : splitlines (d :: ds ++ ['\n']) with
      | nil => exact absurd hsplit splitlines_ne_nil
      | cons first rest => simp

/-- A single nonempty line splits into itself. -/
theorem splitlines_singleLine {t : Text} (ht : SingleLine t) (hne : t ≠ []) :
    splitlines t = [t] := by
  induction t with
  | nil => exact absurd rfl hne
  | cons c cs ih =>
    have hc : isLineBoundary c = false := ht c (by simp)
    rw [splitlines_ordinary hc]
    cases cs with
    | nil => rfl
    | cons d ds => rw [ih (fun x hx => ht x (by simp [hx])) (by simp)]

/-- A terminated line splits into itself, even when it is empty. -/
theorem splitlines_singleLine_newline {t : Text} (ht : SingleLine t) :
    splitlines (t ++ ['\n']) = [t] := by
  induction t with
  | nil => simp
  | cons c cs ih =>
    have hc : isLineBoundary c = false := ht c (by simp)
    rw [List.cons_append, splitlines_ordinary hc, ih fun x hx => ht x (by simp [hx])]

/-- Split lines hold no boundary. -/
theorem splitlines_singleLines (t : Text) : ∀ line ∈ splitlines t, SingleLine line := by
  induction t using splitlines_induction with
  | nil => simp
  | pair cs ih => simpa [SingleLine] using ih
  | boundary c cs hpair hc ih =>
    rw [splitlines]
    · simpa [hc, SingleLine] using ih
    · exact hpair
  | last c cs hpair hc hnil ih =>
    rw [splitlines]
    · simp [hc, hnil, SingleLine]
    · exact hpair
  | inner c cs hpair hc line lines hcons ih =>
    rw [splitlines]
    · rw [hcons] at ih
      simp only [hc, hcons]
      intro l hl
      rcases List.mem_cons.mp hl with rfl | hl
      · intro x hx
        rcases List.mem_cons.mp hx with rfl | hx
        · simpa using hc
        · exact ih line (by simp) x hx
      · exact ih l (by simp [hl])
    · exact hpair

/-! ## Joining -/

@[simp] theorem join_nil (sep : Text) : join sep [] = [] := rfl

@[simp] theorem join_singleton (sep line : Text) : join sep [line] = line :=
  List.intercalate_singleton

theorem join_cons_of_ne_nil (sep line : Text) {lines : List Text} (h : lines ≠ []) :
    join sep (line :: lines) = line ++ sep ++ join sep lines :=
  List.intercalate_cons_of_ne_nil h

/-- Every element of joined lists comes from a list or from the separator. -/
theorem mem_intercalate {α : Type} {sep : List α} {lines : List (List α)} {x : α}
    (hx : x ∈ sep.intercalate lines) : x ∈ sep ∨ ∃ line ∈ lines, x ∈ line := by
  induction lines with
  | nil => exact absurd hx List.not_mem_nil
  | cons line lines ih =>
    by_cases h : lines = []
    · subst h
      rw [List.intercalate_singleton] at hx
      exact Or.inr ⟨line, List.mem_cons_self, hx⟩
    · rw [List.intercalate_cons_of_ne_nil h, List.mem_append, List.mem_append] at hx
      obtain (hline | hsep) | hrest := hx
      · exact Or.inr ⟨line, List.mem_cons_self, hline⟩
      · exact Or.inl hsep
      · obtain hsep | ⟨l, hl, hmem⟩ := ih hrest
        · exact Or.inl hsep
        · exact Or.inr ⟨l, List.mem_cons_of_mem line hl, hmem⟩

/-- Every character of a joined text comes from a line or from the separator. -/
theorem mem_join {sep : Text} {lines : List Text} {c : Char} (hc : c ∈ join sep lines) :
    c ∈ sep ∨ ∃ line ∈ lines, c ∈ line :=
  mem_intercalate hc

/-- Lines split off a newline-terminated text, when newlines are its only
boundaries, are joined back to it. -/
theorem join_splitlines_newline {t : Text} (ht : OnlyNewlines t) :
    join ['\n'] (splitlines (t ++ ['\n'])) = t := by
  induction t with
  | nil => simp
  | cons c cs ih =>
    have htail : OnlyNewlines cs := fun x hx => ht x (by simp [hx])
    have hne : splitlines (cs ++ ['\n']) ≠ [] := by
      cases cs with
      | nil => simp
      | cons d ds => exact splitlines_ne_nil
    cases hc : isLineBoundary c with
    | true =>
      obtain rfl : c = '\n' := ht c (by simp) hc
      rw [List.cons_append, splitlines_newline, join_cons_of_ne_nil _ _ hne, ih htail]
      rfl
    | false =>
      rw [List.cons_append, splitlines_ordinary hc]
      have hjoin := ih htail
      cases hsplit : splitlines (cs ++ ['\n']) with
      | nil => exact absurd hsplit hne
      | cons line lines =>
        rw [hsplit] at hjoin
        simp only [join, List.intercalate_cons_cons_left] at hjoin ⊢
        rw [hjoin]

/-- Joining split lines with newlines restores a terminated text exactly when
the newline is the only line boundary in it. -/
theorem join_splitlines_eq_iff (t : Text) :
    join ['\n'] (splitlines (t ++ ['\n'])) = t ↔ OnlyNewlines t := by
  constructor
  · intro h c hc hb
    rw [← h] at hc
    rcases mem_join hc with hc | ⟨line, hline, hc⟩
    · simpa using hc
    · have := splitlines_singleLines _ line hline c hc
      rw [this] at hb
      exact absurd hb (by simp)
  · exact join_splitlines_newline

theorem range_of_isDigit {c : Char} (h : c.isDigit = true) : 48 ≤ c.toNat ∧ c.toNat ≤ 57 := by
  simpa [Char.isDigit, UInt32.le_iff_toNat_le] using h

/-- An ASCII digit has a value. -/
theorem digitValue_isSome_of_isDigit {c : Char} (h : c.isDigit = true) :
    (digitValue c).isSome = true := by
  have hle := range_of_isDigit h
  have hrange : 0x30 ≤ c.toNat ∧ c.toNat < 0x30 + 10 := by omega
  rw [digitValue, decimalZeros, List.findSome?_cons, if_pos hrange]
  rfl

theorem range_of_mem_natText {n : Nat} {c : Char} (h : c ∈ natText n) :
    48 ≤ c.toNat ∧ c.toNat ≤ 57 :=
  range_of_isDigit (Nat.isDigit_of_mem_toDigits (by decide) (by decide) h)

theorem natText_injective {m n : Nat} (h : natText m = natText n) : m = n := by
  have hm : Nat.ofDigitChars 10 (natText m) 0 = m := Nat.ofDigitChars_ten_toDigits
  have hn : Nat.ofDigitChars 10 (natText n) 0 = n := Nat.ofDigitChars_ten_toDigits
  rw [← hm, h, hn]

theorem isSpace_of_printable {c : Char} (hlo : 0x20 < c.toNat) (hhi : c.toNat < 0x7f) :
    isSpace c = false := by
  cases hb : isSpace c with
  | false => rfl
  | true =>
    exfalso
    simp only [isSpace, decide_eq_true_eq, List.mem_cons, List.not_mem_nil, or_false] at hb
    omega

/-- A line of one word. -/
theorem words_newline {word : Text} (h : ∀ c ∈ word, isSpace c = false) (hne : word ≠ []) :
    words (word ++ ['\n']) = [word] := by
  induction word with
  | nil => exact absurd rfl hne
  | cons c word ih =>
    have hc : isSpace c = false := h c List.mem_cons_self
    have hrest : ∀ d ∈ word, isSpace d = false := fun d hd => h d (List.mem_cons_of_mem c hd)
    cases word with
    | nil =>
      have hnewline : isSpace '\n' = true := by decide
      simp [words, hc, hnewline]
    | cons d word =>
      have hd : isSpace d = false := hrest d List.mem_cons_self
      have htail := ih hrest (List.cons_ne_nil d word)
      rw [List.cons_append] at htail
      rw [List.cons_append, List.cons_append, words, if_neg (by rw [hc]; decide)]
      simp only [hd, Bool.false_eq_true, if_false, htail]

/-- Nothing is stripped off a text whose first and last characters are no spaces. -/
theorem strip_of_ends {t : Text} (hne : t ≠ []) (hfirst : ∀ c ∈ t.head?, isSpace c = false)
    (hlast : ∀ c ∈ t.getLast?, isSpace c = false) : strip t = t := by
  have hleft : lstrip t = t := by
    cases t with
    | nil => rfl
    | cons c rest => rw [lstrip, List.dropWhile_cons_of_neg (by simpa using hfirst c rfl)]
  rw [strip, hleft, rstrip, List.rdropWhile_eq_self_iff]
  intro _
  have hend : t.getLast hne ∈ t.getLast? := List.getLast_mem_getLast? hne
  simp [hlast _ hend]

theorem mem_dropWhile_isSpace {t : Text} {c : Char} (hc : c ∈ t) (hspace : isSpace c = false) :
    c ∈ t.dropWhile isSpace := by
  induction t with
  | nil => exact absurd hc List.not_mem_nil
  | cons d t ih =>
    rw [List.dropWhile_cons]
    split
    · rename_i hd
      rcases List.mem_cons.mp hc with rfl | hc
      · rw [hspace] at hd
        cases hd
      · exact ih hc
    · exact hc

/-- Only blanks are stripped. -/
theorem mem_strip {t : Text} {c : Char} (hc : c ∈ t) (hspace : isSpace c = false) :
    c ∈ strip t := by
  have hleft : c ∈ lstrip t := mem_dropWhile_isSpace hc hspace
  exact List.mem_reverse.mpr (mem_dropWhile_isSpace (List.mem_reverse.mpr hleft) hspace)

theorem mem_of_mem_strip {t : Text} {c : Char} (hc : c ∈ strip t) : c ∈ t := by
  have hleft : c ∈ lstrip t :=
    List.mem_reverse.mp ((List.dropWhile_sublist _).mem (List.mem_reverse.mp hc))
  exact (List.dropWhile_sublist _).mem hleft

/-! ## Splitting at a separator -/

theorem splitFirst_append_cons {sep : Char} {left : Text} (h : ∀ c ∈ left, c ≠ sep)
    (right : Text) : splitFirst sep (left ++ sep :: right) = (left, some right) := by
  induction left with
  | nil => simp [splitFirst]
  | cons c left ih =>
    have hc : c ≠ sep := h c List.mem_cons_self
    have hleft : ∀ d ∈ left, d ≠ sep := fun d hd => h d (List.mem_cons_of_mem c hd)
    rw [List.cons_append, splitFirst, if_neg hc, ih hleft]

theorem splitFirst_of_not_mem {sep : Char} {t : Text} (h : ∀ c ∈ t, c ≠ sep) :
    splitFirst sep t = (t, none) := by
  induction t with
  | nil => rfl
  | cons c t ih =>
    have hc : c ≠ sep := h c List.mem_cons_self
    have ht : ∀ d ∈ t, d ≠ sep := fun d hd => h d (List.mem_cons_of_mem c hd)
    rw [splitFirst, if_neg hc, ih ht]

theorem startsWith_append (pre t : Text) : startsWith pre (pre ++ t) = true := by
  rw [startsWith, List.isPrefixOf_iff_prefix]
  exact List.prefix_append pre t

/-! ## Terminated lines -/

/-- Printable ASCII holds no line boundary. -/
theorem isLineBoundary_of_printable {c : Char} (hlo : 0x20 ≤ c.toNat) (hhi : c.toNat < 0x7f) :
    isLineBoundary c = false := by
  cases hb : isLineBoundary c with
  | false => rfl
  | true =>
    exfalso
    simp only [isLineBoundary, decide_eq_true_eq, List.mem_cons, List.not_mem_nil,
      or_false] at hb
    omega

/-- The text of some lines, each ended by a newline. -/
def unlines (lines : List Text) : Text := lines.flatMap fun line => line ++ ['\n']

@[simp] theorem unlines_nil : unlines [] = [] := rfl

@[simp] theorem unlines_cons (line : Text) (lines : List Text) :
    unlines (line :: lines) = line ++ '\n' :: unlines lines := by
  simp [unlines]

/-- The lines of a text written line by line are those lines. -/
theorem splitlines_unlines {lines : List Text} (h : ∀ line ∈ lines, SingleLine line) :
    splitlines (unlines lines) = lines := by
  induction lines with
  | nil => rfl
  | cons line lines ih =>
    have hline : SingleLine line := h line List.mem_cons_self
    have hrest : ∀ other ∈ lines, SingleLine other :=
      fun other hother => h other (List.mem_cons_of_mem line hother)
    rw [unlines_cons, splitlines_append_newline, splitlines_singleLine_newline hline, ih hrest]
    rfl

theorem onlyNewlines_unlines {lines : List Text} (h : ∀ line ∈ lines, SingleLine line) :
    OnlyNewlines (unlines lines) := by
  intro c hc hb
  rw [unlines, List.mem_flatMap] at hc
  obtain ⟨line, hline, hmem⟩ := hc
  rw [List.mem_append, List.mem_singleton] at hmem
  rcases hmem with hin | hnewline
  · rw [h line hline c hin] at hb
    cases hb
  · exact hnewline

end OpenWrtCopilot.Verified.PyText
