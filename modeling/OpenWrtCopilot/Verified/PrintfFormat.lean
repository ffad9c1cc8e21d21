import OpenWrtCopilot.Verified.Hexdump

/-!
# The format language of `printf`

What `printf` prints for a format without arguments, as a scanner that reads one character at a
time: the escapes of one letter, octal and hexadecimal escapes, and `%%`.  A text with another
conversion, or with `\c`, is not covered: it has no output.

## Main results

* `scan_append` — scanning is compositional.
* `Prints.hexEscape` — `\x` and two hexadecimal digits print their byte.
-/

namespace OpenWrtCopilot.Verified.PrintfFormat

open PyText Hexdump

/-! ## The scanner -/

/-- Where the scanner stands. -/
inductive State
  | plain
  /-- After a backslash. -/
  | escape
  /-- After `\x`. -/
  | hexStart
  /-- In a number of this base, which may have `left` more digits. -/
  | number (base left value : Nat)
  /-- After a `%`. -/
  | percent

/-- The value of a hexadecimal digit of either case. -/
def hexDigit (c : Char) : Option Nat := lowerHex c.toLower

def octalDigit (c : Char) : Option Nat := (lowerHex c).filter (· < 8)

def digit (base : Nat) (c : Char) : Option Nat := if base = 8 then octalDigit c else hexDigit c

/-- The byte of an escape of one letter. -/
def letterEscape (c : Char) : Option UInt8 :=
  [('a', 7), ('b', 8), ('f', 12), ('n', 10), ('r', 13), ('t', 9), ('v', 11), ('\\', 92)].lookup c

/-- One character outside escapes. -/
def stepPlain (c : Char) : List UInt8 × State :=
  if c = '\\' then ([], .escape)
  else if c = '%' then ([], .percent)
  else (String.utf8EncodeChar c, .plain)

/-- One character after bytes that are not decided yet. -/
def stepAfter (pending : List UInt8) (c : Char) : List UInt8 × State :=
  (pending ++ (stepPlain c).1, (stepPlain c).2)

/-- One character. -/
def step : State → Char → Option (List UInt8 × State)
  | .plain, c => some (stepPlain c)
  | .escape, c =>
      if c = 'x' then some ([], .hexStart)
      else if c = 'c' then none
      else
        match letterEscape c, octalDigit c with
        | some b, _ => some ([b], .plain)
        | none, some d => some ([], .number 8 2 d)
        | none, none => some (stepAfter [92] c)
  | .hexStart, c =>
      match hexDigit c with
      | some d => some ([], .number 16 1 d)
      | none => some (stepAfter [92, 120] c)
  | .number base left value, c =>
      match digit base c, left with
      | some d, 1 => some ([UInt8.ofNat (base * value + d)], .plain)
      | some d, left + 1 => some ([], .number base left (base * value + d))
      | _, _ => some (stepAfter [UInt8.ofNat value] c)
  | .percent, c => if c = '%' then some ([37], .plain) else none

/-- The output of the rest of a format, and where it leaves the scanner. -/
def scan : State → Text → Option (List UInt8 × State)
  | s, [] => some ([], s)
  | s, c :: cs =>
      (step s c).bind fun out =>
        (scan out.2 cs).map fun rest => (out.1 ++ rest.1, rest.2)

/-- What the end of the format completes. -/
def finish : State → Option (List UInt8)
  | .plain => some []
  | .escape => some [92]
  | .hexStart => some [92, 120]
  | .number _ _ value => some [UInt8.ofNat value]
  | .percent => none

/-- The output of a format. -/
def output (format : Text) : Option (List UInt8) :=
  (scan .plain format).bind fun out => (finish out.2).map (out.1 ++ ·)

/-! ## Composition -/

theorem scan_append (s : State) (a b : Text) :
    scan s (a ++ b) =
      (scan s a).bind fun out => (scan out.2 b).map fun rest => (out.1 ++ rest.1, rest.2) := by
  induction a generalizing s with
  | nil =>
    simp only [List.nil_append, scan, Option.bind_some]
    cases scan s b <;> rfl
  | cons c a ih =>
    simp only [List.cons_append, scan]
    cases step s c with
    | none => rfl
    | some out =>
      simp only [Option.bind_some, ih]
      cases scan out.2 a with
      | none => rfl
      | some mid =>
        simp only [Option.bind_some, Option.map_some, Option.map_map]
        cases scan mid.2 b with
        | none => rfl
        | some rest => simp only [Option.map_some, Function.comp, List.append_assoc]

/-- The text prints these bytes wherever it stands outside escapes. -/
def Prints (t : Text) (bytes : List UInt8) : Prop := scan .plain t = some (bytes, .plain)

theorem Prints.nil : Prints [] [] := rfl

theorem Prints.append {a b : Text} {left right : List UInt8} (ha : Prints a left)
    (hb : Prints b right) : Prints (a ++ b) (left ++ right) := by
  unfold Prints at ha hb ⊢
  rw [scan_append, ha, Option.bind_some, hb, Option.map_some]

theorem Prints.output {t : Text} {bytes : List UInt8} (h : Prints t bytes) :
    output t = some bytes := by
  unfold Prints at h
  rw [PrintfFormat.output, h, Option.bind_some, finish, Option.map_some, List.append_nil]

/-! ## Hexadecimal escapes -/

theorem hexDigit_digitChar {n : Nat} (h : n < 16) : hexDigit (Nat.digitChar n) = some n := by
  interval_cases n <;> decide

/-- **An escape of two hexadecimal digits prints its byte.** -/
theorem Prints.hexEscape (b : UInt8) : Prints ('\\' :: 'x' :: hexByte b) [b] := by
  have hb := b.toNat_lt
  have hhigh : hexDigit (Nat.digitChar (b.toNat / 16)) = some (b.toNat / 16) :=
    hexDigit_digitChar (by omega)
  have hlow : hexDigit (Nat.digitChar (b.toNat % 16)) = some (b.toNat % 16) :=
    hexDigit_digitChar (Nat.mod_lt _ (by decide))
  have hvalue : UInt8.ofNat (16 * (b.toNat / 16) + b.toNat % 16) = b := by
    rw [Nat.div_add_mod]
    exact UInt8.ofNat_toNat
  have hstart : step .plain '\\' = some ([], .escape) := rfl
  have hx : step .escape 'x' = some ([], .hexStart) := rfl
  have hfirst : step .hexStart (Nat.digitChar (b.toNat / 16)) =
      some ([], .number 16 1 (b.toNat / 16)) := by
    rw [step, hhigh]
  have hsecond : step (.number 16 1 (b.toNat / 16)) (Nat.digitChar (b.toNat % 16)) =
      some ([b], .plain) := by
    have hdigit : digit 16 (Nat.digitChar (b.toNat % 16)) = some (b.toNat % 16) := hlow
    simp only [step, hdigit, hvalue]
  unfold Prints hexByte
  simp only [scan, hstart, hx, hfirst, hsecond, Option.bind_some, Option.map_some,
    List.nil_append, List.append_nil]

end OpenWrtCopilot.Verified.PrintfFormat
