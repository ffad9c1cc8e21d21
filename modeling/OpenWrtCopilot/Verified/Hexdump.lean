import Mathlib.Data.List.Chain
import Mathlib.Tactic.IntervalCases
import OpenWrtCopilot.Verified.PyText
import OpenWrtCopilot.Verified.Chunks

/-!
# The canonical `hexdump -C` format

A dump shows sixteen bytes a line: the offset in hexadecimal (eight digits, or
more when it needs them), the bytes in two groups of eight, and the printable
characters between bars.  A full line equal to the one before it is not shown:
the first of a run of such lines is replaced by a line `*`, the others are
dropped.  The last line is the length on its own; an empty input has no line.

`kept` is what survives: the rows a dump shows.

## Main results

* `singleLine_of_mem_dump` — every line of a dump is a single line.
* `kept_eq_self`, `length_flatten_kept_lt` — a dump shows all rows exactly when
  no full row repeats the one before it.
-/

namespace OpenWrtCopilot.Verified.Hexdump

open Verified.PyText
open Verified.Chunks

/-! ## Hexadecimal text -/

/-- The value of a lower-case hexadecimal digit. -/
def lowerHex (c : Char) : Option Nat :=
  if '0' ≤ c ∧ c ≤ '9' then some (c.toNat - '0'.toNat)
  else if 'a' ≤ c ∧ c ≤ 'f' then some (c.toNat - 'a'.toNat + 10)
  else none

/-- The two digits of a byte. -/
def hexByte (b : UInt8) : Text := [Nat.digitChar (b.toNat / 16), Nat.digitChar (b.toNat % 16)]

theorem lowerHex_digitChar {n : Nat} (h : n < 16) : lowerHex (Nat.digitChar n) = some n := by
  interval_cases n <;> decide

theorem lowerHex_hexByte_fst (b : UInt8) :
    lowerHex (Nat.digitChar (b.toNat / 16)) = some (b.toNat / 16) := by
  have hb := b.toNat_lt
  exact lowerHex_digitChar (by omega)

theorem lowerHex_hexByte_snd (b : UInt8) :
    lowerHex (Nat.digitChar (b.toNat % 16)) = some (b.toNat % 16) :=
  lowerHex_digitChar (Nat.mod_lt _ (by decide))

theorem lowerHex_of_mem_toDigits (n : Nat) :
    ∀ c ∈ Nat.toDigits 16 n, (lowerHex c).isSome = true := by
  induction n using Nat.strong_induction_on with
  | _ n ih =>
    intro c hc
    rw [Nat.toDigits_eq_if (by decide)] at hc
    by_cases hn : n < 16
    · rw [if_pos hn, List.mem_singleton] at hc
      rw [hc, lowerHex_digitChar hn]
      rfl
    · rw [if_neg hn, List.mem_append, List.mem_singleton] at hc
      rcases hc with hinit | hlast
      · exact ih (n / 16) (by omega) c hinit
      · rw [hlast, lowerHex_digitChar (Nat.mod_lt _ (by decide))]
        rfl

/-- A hexadecimal digit is printable and not a bar. -/
theorem printable_of_lowerHex {c : Char} (h : (lowerHex c).isSome = true) :
    0x20 ≤ c.toNat ∧ c.toNat < 0x7f ∧ c ≠ '|' := by
  have hrange : '0' ≤ c ∧ c ≤ '9' ∨ 'a' ≤ c ∧ c ≤ 'f' := by
    unfold lowerHex at h
    split at h
    · next hdigit => exact Or.inl hdigit
    · split at h
      · next hletter => exact Or.inr hletter
      · cases h
  simp only [Char.le_def, UInt32.le_iff_toNat_le] at hrange
  have hbounds : 48 ≤ c.toNat ∧ c.toNat ≤ 57 ∨ 97 ≤ c.toNat ∧ c.toNat ≤ 102 := hrange
  refine ⟨by omega, by omega, ?_⟩
  rintro rfl
  exact absurd hbounds (by decide)

/-! ## The lines of a dump -/

/-- The offset of a line, with at least eight digits. -/
def offsetText (n : Nat) : Text :=
  List.replicate (8 - (Nat.toDigits 16 n).length) '0' ++ Nat.toDigits 16 n

/-- `width` bytes, each followed by a blank; missing bytes are blank. -/
def cells : Nat → List UInt8 → Text
  | 0, _ => []
  | width + 1, [] => ' ' :: ' ' :: ' ' :: cells width []
  | width + 1, b :: bs => hexByte b ++ ' ' :: cells width bs

/-- The character shown for a byte. -/
def shown (b : UInt8) : Char :=
  if 0x20 ≤ b.toNat ∧ b.toNat < 0x7f then Char.ofNat b.toNat else '.'

/-- What stands before the first bar of a line. -/
def rowHead (offset : Nat) (row : List UInt8) : Text :=
  offsetText offset ++ ' ' :: ' ' :: (cells 8 (row.take 8) ++ ' ' :: (cells 8 (row.drop 8) ++ [' ']))

/-- The line of a row. -/
def rowLine (offset : Nat) (row : List UInt8) : Text :=
  rowHead offset row ++ '|' :: (row.map shown ++ ['|'])

/-- The lines of the rows from the `index`-th on, after the row `previous`;
`starred` says that the line before is already a `*`. -/
def rowLines : Nat → Option (List UInt8) → Bool → List (List UInt8) → List Text
  | _, _, _, [] => []
  | index, previous, starred, row :: rows =>
      if row.length = 16 ∧ previous = some row then
        (if starred then [] else [['*']]) ++ rowLines (index + 1) previous true rows
      else rowLine (16 * index) row :: rowLines (index + 1) (some row) false rows

/-- The lines of `hexdump -C`. -/
def dump (d : List UInt8) : List Text :=
  rowLines 0 none false (chunks 16 d) ++ if d = [] then [] else [offsetText d.length]

/-! ## Every line is a single line -/

theorem lowerHex_of_mem_offsetText {n : Nat} {c : Char} (h : c ∈ offsetText n) :
    (lowerHex c).isSome = true := by
  rw [offsetText, List.mem_append, List.mem_replicate] at h
  rcases h with ⟨_, rfl⟩ | hdigit
  · decide
  · exact lowerHex_of_mem_toDigits n c hdigit

theorem mem_cells {width : Nat} {bs : List UInt8} {c : Char} (h : c ∈ cells width bs) :
    c = ' ' ∨ (lowerHex c).isSome = true := by
  induction width, bs using cells.induct with
  | case1 bs => simp [cells] at h
  | case2 width ih =>
    simp only [cells, List.mem_cons] at h
    rcases h with h | h | h | h
    · exact Or.inl h
    · exact Or.inl h
    · exact Or.inl h
    · exact ih h
  | case3 width b bs ih =>
    simp only [cells, hexByte, List.mem_append, List.mem_cons, List.not_mem_nil, or_false] at h
    rcases h with (h | h) | h | h
    · rw [h, lowerHex_hexByte_fst]
      exact Or.inr rfl
    · rw [h, lowerHex_hexByte_snd]
      exact Or.inr rfl
    · exact Or.inl h
    · exact ih h

theorem mem_rowHead {offset : Nat} {row : List UInt8} {c : Char} (h : c ∈ rowHead offset row) :
    c = ' ' ∨ (lowerHex c).isSome = true := by
  simp only [rowHead, List.mem_append, List.mem_cons, List.not_mem_nil, or_false] at h
  rcases h with h | h | h | h | h | h | h
  · exact Or.inr (lowerHex_of_mem_offsetText h)
  · exact Or.inl h
  · exact Or.inl h
  · exact mem_cells h
  · exact Or.inl h
  · exact mem_cells h
  · exact Or.inl h

/-- The part before the bar holds no bar and no line boundary. -/
theorem plain_of_mem_rowHead {offset : Nat} {row : List UInt8} {c : Char}
    (h : c ∈ rowHead offset row) : isLineBoundary c = false ∧ c ≠ '|' := by
  rcases mem_rowHead h with rfl | hhex
  · decide
  · obtain ⟨hlo, hhi, hbar⟩ := printable_of_lowerHex hhex
    exact ⟨isLineBoundary_of_printable hlo hhi, hbar⟩

private theorem toNat_ofNat_of_ascii {n : Nat} (h : n < 0x7f) : (Char.ofNat n).toNat = n := by
  have hvalid : n.isValidChar := Or.inl (by omega)
  rw [Char.ofNat, dif_pos hvalid]
  rfl

theorem isLineBoundary_shown (b : UInt8) : isLineBoundary (shown b) = false := by
  unfold shown
  split
  · next hprintable =>
      have hvalid : (Char.ofNat b.toNat).toNat = b.toNat :=
        toNat_ofNat_of_ascii hprintable.2
      exact isLineBoundary_of_printable (by rw [hvalid]; exact hprintable.1)
        (by rw [hvalid]; exact hprintable.2)
  · decide

theorem singleLine_rowLine (offset : Nat) (row : List UInt8) : SingleLine (rowLine offset row) := by
  intro c hc
  simp only [rowLine, List.mem_append, List.mem_cons, List.mem_map, List.not_mem_nil,
    or_false] at hc
  rcases hc with hhead | rfl | ⟨b, _, rfl⟩ | rfl
  · exact (plain_of_mem_rowHead hhead).1
  · decide
  · exact isLineBoundary_shown b
  · decide

theorem singleLine_of_mem_rowLines {index : Nat} {previous : Option (List UInt8)}
    {starred : Bool} {rows : List (List UInt8)} :
    ∀ line ∈ rowLines index previous starred rows, SingleLine line := by
  induction rows generalizing index previous starred with
  | nil => simp [rowLines]
  | cons row rows ih =>
    intro line hline
    unfold rowLines at hline
    split at hline
    · rw [List.mem_append] at hline
      rcases hline with hstar | hrest
      · cases starred with
        | true => simp at hstar
        | false =>
          rw [show line = ['*'] by simpa using hstar]
          decide
      · exact ih line hrest
    · rw [List.mem_cons] at hline
      rcases hline with rfl | hrest
      · exact singleLine_rowLine _ _
      · exact ih line hrest

theorem singleLine_of_mem_dump {d : List UInt8} : ∀ line ∈ dump d, SingleLine line := by
  intro line hline
  rw [dump, List.mem_append] at hline
  rcases hline with hrow | hlast
  · exact singleLine_of_mem_rowLines line hrow
  · by_cases hd : d = []
    · simp [hd] at hlast
    · rw [if_neg hd, List.mem_singleton] at hlast
      intro c hc
      rw [hlast] at hc
      obtain ⟨hlo, hhi, _⟩ := printable_of_lowerHex (lowerHex_of_mem_offsetText hc)
      exact isLineBoundary_of_printable hlo hhi

/-! ## The rows a dump shows -/

/-- A row that is not dropped after the row before it. -/
def Fresh (row next : List UInt8) : Prop := ¬(next.length = 16 ∧ row = next)

instance (row next : List UInt8) : Decidable (Fresh row next) := by
  unfold Fresh
  infer_instance

/-- No full row of the input equals the row before it. -/
def NoRepeatedRow (d : List UInt8) : Prop := (chunks 16 d).IsChain Fresh

/-- The rows that are shown after the row `previous`. -/
def kept : Option (List UInt8) → List (List UInt8) → List (List UInt8)
  | _, [] => []
  | previous, row :: rows =>
      if row.length = 16 ∧ previous = some row then kept previous rows
      else row :: kept (some row) rows

theorem length_flatten_kept_le (previous : Option (List UInt8)) (rows : List (List UInt8)) :
    (kept previous rows).flatten.length ≤ rows.flatten.length := by
  induction rows generalizing previous with
  | nil => simp [kept]
  | cons row rows ih =>
    unfold kept
    split
    · have hrest := ih previous
      rw [List.flatten_cons, List.length_append]
      omega
    · have hrest := ih (some row)
      rw [List.flatten_cons, List.flatten_cons, List.length_append, List.length_append]
      omega

/-- Nothing is dropped where no row repeats. -/
theorem kept_eq_self {row : List UInt8} {rows : List (List UInt8)}
    (h : (row :: rows).IsChain Fresh) : kept (some row) rows = rows := by
  induction rows generalizing row with
  | nil => rfl
  | cons next rows ih =>
    rw [List.isChain_cons_cons] at h
    have hfresh : ¬(next.length = 16 ∧ some row = some next) := by
      intro ⟨hlen, heq⟩
      exact h.1 ⟨hlen, Option.some.inj heq⟩
    rw [kept, if_neg hfresh, ih h.2]

/-- Where a row repeats, bytes are dropped. -/
theorem length_flatten_kept_lt {row : List UInt8} {rows : List (List UInt8)}
    (h : ¬(row :: rows).IsChain Fresh) :
    (kept (some row) rows).flatten.length < rows.flatten.length := by
  induction rows generalizing row with
  | nil => exact absurd (List.isChain_singleton row) h
  | cons next rows ih =>
    rw [List.isChain_cons_cons, not_and_or] at h
    by_cases hrepeat : next.length = 16 ∧ some row = some next
    · have hrest := length_flatten_kept_le (some row) rows
      rw [kept, if_pos hrepeat, List.flatten_cons, List.length_append]
      omega
    · rw [kept, if_neg hrepeat, List.flatten_cons, List.flatten_cons, List.length_append,
        List.length_append]
      rcases h with hfresh | hchain
      · refine absurd ?_ hfresh
        intro ⟨hlen, heq⟩
        exact hrepeat ⟨hlen, congrArg some heq⟩
      · have hrest := ih hchain
        omega

end OpenWrtCopilot.Verified.Hexdump
