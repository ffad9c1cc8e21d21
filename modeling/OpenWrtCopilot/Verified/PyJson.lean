import OpenWrtCopilot.Verified.PyDict
import OpenWrtCopilot.Verified.PyText

/-!
# JSON texts

`json.loads`, as a machine that reads a text character by character into tokens and a
parser of the tokens, and the spellings of a string that `json.dumps` and other writers
choose from.  `loads` is `none` where Python raises a `ValueError`; an escaped surrogate
that is not part of a pair has no place in `Text` and counts as an error too.

## Main results

* `run_spelling` — inside a string, each spelling of a character is read as that character.
* `tokenize_unterminated` — a text that ends, or goes on with a newline, inside a string is
  no JSON.
* `finish_opposite` — a text that closes an open string does not end outside of one when it
  is read from outside of one.
-/

namespace OpenWrtCopilot.Verified.PyJson

open Verified.PyDict (Dict)
open Verified.PyText

/-! ## Numbers and literals -/

/-- Where a number can be. -/
inductive NumberState where
  | start
  | minus
  | zero
  | digits
  | point
  | fraction
  | exponent
  | sign
  | power
  deriving DecidableEq, Repr

def NumberState.step : NumberState → Char → Option NumberState
  | .start, c =>
      if c = '-' then some .minus
      else if c = '0' then some .zero
      else if c.isDigit then some .digits else none
  | .minus, c => if c = '0' then some .zero else if c.isDigit then some .digits else none
  | .zero, c =>
      if c = '.' then some .point else if c = 'e' ∨ c = 'E' then some .exponent else none
  | .digits, c =>
      if c.isDigit then some .digits
      else if c = '.' then some .point
      else if c = 'e' ∨ c = 'E' then some .exponent else none
  | .point, c => if c.isDigit then some .fraction else none
  | .fraction, c =>
      if c.isDigit then some .fraction
      else if c = 'e' ∨ c = 'E' then some .exponent else none
  | .exponent, c =>
      if c = '+' ∨ c = '-' then some .sign else if c.isDigit then some .power else none
  | .sign, c => if c.isDigit then some .power else none
  | .power, c => if c.isDigit then some .power else none

/-- A number; `int` refuses more digits than `maxStrDigits`. -/
def isNumber (w : Text) : Bool :=
  match w.foldlM NumberState.step .start with
  | some .zero => true
  | some .digits => (w.filter Char.isDigit).length ≤ maxStrDigits
  | some .fraction => true
  | some .power => true
  | _ => false

def literals : List Text :=
  ["true".toList, "false".toList, "null".toList, "NaN".toList, "Infinity".toList,
    "-Infinity".toList]

/-- What may stand outside of strings and brackets. -/
def isWord (w : Text) : Bool := w ∈ literals || isNumber w

/-! ## Tokens -/

inductive Token where
  | lbrace
  | rbrace
  | lbracket
  | rbracket
  | comma
  | colon
  | str (s : Text)
  | word (w : Text)
  deriving DecidableEq, Repr

def isJsonSpace (c : Char) : Bool := c = ' ' || c = '\t' || c = '\n' || c = '\r'

/-- The token a character is on its own. -/
def bracket (c : Char) : Option Token :=
  if c = '{' then some .lbrace
  else if c = '}' then some .rbrace
  else if c = '[' then some .lbracket
  else if c = ']' then some .rbracket
  else if c = ',' then some .comma
  else if c = ':' then some .colon
  else none

/-- The character ends a word. -/
def isDelimiter (c : Char) : Bool := isJsonSpace c || (bracket c).isSome || c = '"'

def hexValue (c : Char) : Option Nat :=
  if c.isDigit then some (c.toNat - '0'.toNat)
  else if 'a' ≤ c ∧ c ≤ 'f' then some (c.toNat - 'a'.toNat + 10)
  else if 'A' ≤ c ∧ c ≤ 'F' then some (c.toNat - 'A'.toNat + 10)
  else none

/-- Where the machine is. -/
inductive Mode where
  /-- Between tokens. -/
  | ground
  | word (w : Text)
  | string (s : Text)
  /-- After a backslash. -/
  | escape (s : Text)
  /-- Before the last digits of an escape, perhaps the second one of a pair. -/
  | hex (s : Text) (high : Option Nat) (value left : Nat)
  /-- After the first escape of a pair. -/
  | high (s : Text) (value : Nat)
  | highEscape (s : Text) (value : Nat)
  deriving DecidableEq, Repr

structure Lexer where
  tokens : List Token := []
  mode : Mode := .ground
  deriving DecidableEq, Repr

/-- The character of a one-letter escape. -/
def shortEscape (c : Char) : Option Char :=
  if c = '"' then some '"'
  else if c = '\\' then some '\\'
  else if c = '/' then some '/'
  else if c = 'b' then some '\x08'
  else if c = 'f' then some '\x0c'
  else if c = 'n' then some '\n'
  else if c = 'r' then some '\r'
  else if c = 't' then some '\t'
  else none

def isHigh (n : Nat) : Bool := 0xd800 ≤ n && n < 0xdc00

def isLow (n : Nat) : Bool := 0xdc00 ≤ n && n < 0xe000

/-- The code point of a pair. -/
def pairValue (high low : Nat) : Nat := 0x10000 + (high - 0xd800) * 0x400 + (low - 0xdc00)

/-- After the last digit of an escape. -/
def endHex (s : Text) (high : Option Nat) (value : Nat) : Option Mode :=
  match high with
  | some first =>
      if isLow value then some (.string (s ++ [Char.ofNat (pairValue first value)])) else none
  | none =>
      if isHigh value then some (.high s value)
      else if isLow value then none
      else some (.string (s ++ [Char.ofNat value]))

def Lexer.ground (l : Lexer) (c : Char) : Lexer :=
  if isJsonSpace c then { l with mode := .ground }
  else
    match bracket c with
    | some token => { tokens := l.tokens ++ [token], mode := .ground }
    | none => if c = '"' then { l with mode := .string [] } else { l with mode := .word [c] }

def Lexer.step (l : Lexer) (c : Char) : Option Lexer :=
  match l.mode with
  | .ground => some (l.ground c)
  | .word w =>
      if isDelimiter c then
        if isWord w then some (Lexer.ground { l with tokens := l.tokens ++ [Token.word w] } c)
        else none
      else some { l with mode := .word (w ++ [c]) }
  | .string s =>
      if c = '"' then some { tokens := l.tokens ++ [Token.str s], mode := .ground }
      else if c = '\\' then some { l with mode := .escape s }
      else if c.toNat < 0x20 then none
      else some { l with mode := .string (s ++ [c]) }
  | .escape s =>
      if c = 'u' then some { l with mode := .hex s none 0 4 }
      else (shortEscape c).map fun d => { l with mode := .string (s ++ [d]) }
  | .hex s high value left =>
      (hexValue c).bind fun digit =>
        if left ≤ 1 then
          (endHex s high (value * 16 + digit)).map fun mode => { l with mode := mode }
        else some { l with mode := .hex s high (value * 16 + digit) (left - 1) }
  | .high s value => if c = '\\' then some { l with mode := .highEscape s value } else none
  | .highEscape s value =>
      if c = 'u' then some { l with mode := .hex s (some value) 0 4 } else none

def Lexer.run (l : Lexer) (t : Text) : Option Lexer := t.foldlM Lexer.step l

def Lexer.finish (l : Lexer) : Option (List Token) :=
  match l.mode with
  | .ground => some l.tokens
  | .word w => if isWord w then some (l.tokens ++ [Token.word w]) else none
  | _ => none

def tokenize (t : Text) : Option (List Token) := (Lexer.run {} t).bind Lexer.finish

/-! ## Values -/

inductive Json where
  | null
  | bool (b : Bool)
  | number (w : Text)
  | str (s : Text)
  | arr (items : List Json)
  | obj (members : List (Text × Json))

def wordValue (w : Text) : Json :=
  if w = "true".toList then .bool true
  else if w = "false".toList then .bool false
  else if w = "null".toList then .null
  else .number w

mutual

/-- The value the tokens begin with, and what follows it. -/
def parseValue : Nat → List Token → Option (Json × List Token)
  | 0, _ => none
  | fuel + 1, tokens =>
      match tokens with
      | .lbrace :: .rbrace :: rest => some (.obj [], rest)
      | .lbrace :: rest =>
          (parseMembers fuel rest).map fun (members, rest) =>
            (.obj (members.foldl (fun d item => PyDict.set item.1 item.2 d) []), rest)
      | .lbracket :: .rbracket :: rest => some (.arr [], rest)
      | .lbracket :: rest => (parseItems fuel rest).map fun (items, rest) => (.arr items, rest)
      | .str s :: rest => some (.str s, rest)
      | .word w :: rest => some (wordValue w, rest)
      | _ => none

/-- The members of an object, up to its closing brace. -/
def parseMembers : Nat → List Token → Option (List (Text × Json) × List Token)
  | 0, _ => none
  | fuel + 1, tokens =>
      match tokens with
      | .str key :: .colon :: rest => do
          let (value, rest) ← parseValue fuel rest
          match rest with
          | .rbrace :: rest => some ([(key, value)], rest)
          | .comma :: rest =>
              (parseMembers fuel rest).map fun (members, rest) => ((key, value) :: members, rest)
          | _ => none
      | _ => none

/-- The items of an array, up to its closing bracket. -/
def parseItems : Nat → List Token → Option (List Json × List Token)
  | 0, _ => none
  | fuel + 1, tokens => do
      let (value, rest) ← parseValue fuel tokens
      match rest with
      | .rbracket :: rest => some ([value], rest)
      | .comma :: rest => (parseItems fuel rest).map fun (items, rest) => (value :: items, rest)
      | _ => none

end

/-- The value that all tokens are; each step of the parser takes one. -/
def parse (tokens : List Token) : Option Json :=
  match parseValue (tokens.length + 1) tokens with
  | some (value, []) => some value
  | _ => none

/-- `json.loads`. -/
def loads (t : Text) : Option Json := (tokenize t).bind parse

/-- The float or integer is zero; a float too small for its type counts as one. -/
def numberIsZero (w : Text) : Bool :=
  let mantissa := w.takeWhile fun c => c ≠ 'e' ∧ c ≠ 'E'
  let exponent := ((w.drop mantissa.length).drop 1).filter fun c => c ≠ '+'
  let fraction := ((splitFirst '.' mantissa).2.getD []).length
  let value := (decimal (mantissa.filter Char.isDigit)).getD 0
  let shift := (fraction : Int) - (pyInt exponent).getD 0
  w ∉ literals && (value = 0 || (0 < shift && value * 2 ^ 1075 ≤ 10 ^ shift.toNat))

/-- `bool(value)`. -/
def Json.truthy : Json → Bool
  | .null => false
  | .bool b => b
  | .number w => !numberIsZero w
  | .str s => s ≠ []
  | .arr items => !items.isEmpty
  | .obj members => !members.isEmpty

/-! ## Spellings -/

def hexDigit (n : Nat) : Char := "0123456789abcdef".toList.getD n '0'

/-- `\uXXXX`. -/
def unicodeEscape (n : Nat) : Text :=
  ['\\', 'u', hexDigit (n / 0x1000), hexDigit (n / 0x100 % 0x10), hexDigit (n / 0x10 % 0x10),
    hexDigit (n % 0x10)]

/-- A character in a string, for a writer that escapes the given ones beside those it
must. -/
def spelling (escapes : Char → Bool) (c : Char) : Text :=
  if c = '"' then ['\\', '"']
  else if c = '\\' then ['\\', '\\']
  else if c = '\x08' then ['\\', 'b']
  else if c = '\x0c' then ['\\', 'f']
  else if c = '\n' then ['\\', 'n']
  else if c = '\r' then ['\\', 'r']
  else if c = '\t' then ['\\', 't']
  else if c.toNat < 0x20 ∨ escapes c = true then
    if c.toNat < 0x10000 then unicodeEscape c.toNat
    else unicodeEscape (0xd800 + (c.toNat - 0x10000) / 0x400) ++
      unicodeEscape (0xdc00 + (c.toNat - 0x10000) % 0x400)
  else [c]

/-- A string without its quotes. -/
def spelled (escapes : Char → Bool) (s : Text) : Text := s.flatMap (spelling escapes)

/-! ## Reading a spelling -/

namespace Lexer

@[simp] theorem run_nil (l : Lexer) : l.run [] = some l := rfl

theorem run_cons (l : Lexer) (c : Char) (t : Text) :
    l.run (c :: t) = (l.step c).bind fun l => l.run t := rfl

theorem run_append (l : Lexer) (a b : Text) :
    l.run (a ++ b) = (l.run a).bind fun l => l.run b := List.foldlM_append

end Lexer

open Lexer

variable {tokens : List Token} {s : Text}

theorem hexValue_hexDigit : ∀ n, n < 0x10 → hexValue (hexDigit n) = some n := by decide

theorem step_hex {high : Option Nat} {value digit left : Nat} {c : Char}
    (h : hexValue c = some digit) :
    Lexer.step ⟨tokens, .hex s high value (left + 2)⟩ c =
      some ⟨tokens, .hex s high (value * 16 + digit) (left + 1)⟩ := by
  rw [step]
  simp [h]

theorem step_hex_last {high : Option Nat} {value digit : Nat} {c : Char}
    (h : hexValue c = some digit) :
    Lexer.step ⟨tokens, .hex s high value 1⟩ c =
      (endHex s high (value * 16 + digit)).map fun mode => ⟨tokens, mode⟩ := by
  rw [step]
  simp [h]

/-- Four digits, most significant first. -/
theorem run_hex (high : Option Nat) {n : Nat} (h : n < 0x10000) :
    Lexer.run ⟨tokens, .hex s high 0 4⟩
        [hexDigit (n / 0x1000), hexDigit (n / 0x100 % 0x10), hexDigit (n / 0x10 % 0x10),
          hexDigit (n % 0x10)] =
      (endHex s high n).map fun mode => ⟨tokens, mode⟩ := by
  have hvalue : (((0 * 16 + n / 0x1000) * 16 + n / 0x100 % 0x10) * 16 + n / 0x10 % 0x10) * 16 +
      n % 0x10 = n := by omega
  rw [run_cons, step_hex (hexValue_hexDigit _ (by omega)), Option.bind_some,
    run_cons, step_hex (hexValue_hexDigit _ (by omega)), Option.bind_some,
    run_cons, step_hex (hexValue_hexDigit _ (by omega)), Option.bind_some,
    run_cons, step_hex_last (hexValue_hexDigit _ (by omega)), hvalue]
  cases endHex s high n <;> rfl

theorem run_unicodeEscape {n : Nat} (h : n < 0x10000) :
    Lexer.run ⟨tokens, .string s⟩ (unicodeEscape n) =
      (endHex s none n).map fun mode => ⟨tokens, mode⟩ := run_hex none h

theorem run_unicodeEscape_high (value : Nat) {n : Nat} (h : n < 0x10000) :
    Lexer.run ⟨tokens, .high s value⟩ (unicodeEscape n) =
      (endHex s (some value) n).map fun mode => ⟨tokens, mode⟩ := run_hex (some value) h

/-- A character is no surrogate. -/
theorem not_surrogate (c : Char) : isHigh c.toNat = false ∧ isLow c.toNat = false := by
  have hvalid : c.toNat < 0xd800 ∨ 0xdfff < c.toNat ∧ c.toNat < 0x110000 := c.valid
  simp only [isHigh, isLow, Bool.and_eq_false_iff, decide_eq_false_iff_not]
  omega

theorem run_pair {high low : Nat} (hhigh : isHigh high = true) (hlow : isLow low = true) :
    Lexer.run ⟨tokens, .string s⟩ (unicodeEscape high ++ unicodeEscape low) =
      some ⟨tokens, .string (s ++ [Char.ofNat (pairValue high low)])⟩ := by
  have hhigh' := hhigh
  have hlow' := hlow
  simp only [isHigh, isLow, Bool.and_eq_true, decide_eq_true_eq] at hhigh' hlow'
  rw [run_append, run_unicodeEscape (by omega), endHex, if_pos hhigh, Option.map_some,
    Option.bind_some, run_unicodeEscape_high _ (by omega), endHex, if_pos hlow, Option.map_some]

/-- The two halves of a character beyond the first plane. -/
theorem pair_char (c : Char) (h : 0x10000 ≤ c.toNat) :
    isHigh (0xd800 + (c.toNat - 0x10000) / 0x400) = true ∧
      isLow (0xdc00 + (c.toNat - 0x10000) % 0x400) = true ∧
      Char.ofNat (pairValue (0xd800 + (c.toNat - 0x10000) / 0x400)
        (0xdc00 + (c.toNat - 0x10000) % 0x400)) = c := by
  have hvalid : c.toNat < 0xd800 ∨ 0xdfff < c.toNat ∧ c.toNat < 0x110000 := c.valid
  refine ⟨?_, ?_, ?_⟩
  · simp only [isHigh, Bool.and_eq_true, decide_eq_true_eq]
    omega
  · simp only [isLow, Bool.and_eq_true, decide_eq_true_eq]
    omega
  · have hpair : pairValue (0xd800 + (c.toNat - 0x10000) / 0x400)
        (0xdc00 + (c.toNat - 0x10000) % 0x400) = c.toNat := by
      unfold pairValue
      omega
    rw [hpair, Char.ofNat_toNat]

/-- The letters after a backslash that a character is spelled with. -/
def shortLetters : List Char := ['"', '\\', 'b', 'f', 'n', 'r', 't']

/-- The ways a character is spelled. -/
@[elab_as_elim]
theorem spelling_elim {P : Text → Prop} (escapes : Char → Bool) (c : Char)
    (short : ∀ d ∈ shortLetters, shortEscape d = some c →
      c.toNat < 0x20 ∨ c = '"' ∨ c = '\\' → P ['\\', d])
    (small : c.toNat < 0x20 ∨ escapes c = true → c.toNat < 0x10000 → P (unicodeEscape c.toNat))
    (pair : escapes c = true → 0x10000 ≤ c.toNat →
      P (unicodeEscape (0xd800 + (c.toNat - 0x10000) / 0x400) ++
        unicodeEscape (0xdc00 + (c.toNat - 0x10000) % 0x400)))
    (plain : c ≠ '"' → c ≠ '\\' → 0x20 ≤ c.toNat → escapes c = false → P [c]) :
    P (spelling escapes c) := by
  rw [spelling]
  by_cases hquote : c = '"'
  · rw [if_pos hquote]
    exact short '"' (by decide) (by rw [hquote]; rfl) (.inr (.inl hquote))
  rw [if_neg hquote]
  by_cases hbackslash : c = '\\'
  · rw [if_pos hbackslash]
    exact short '\\' (by decide) (by rw [hbackslash]; rfl) (.inr (.inr hbackslash))
  rw [if_neg hbackslash]
  by_cases hb : c = '\x08'
  · rw [if_pos hb]
    exact short 'b' (by decide) (hb ▸ rfl) (.inl (hb ▸ by decide))
  rw [if_neg hb]
  by_cases hf : c = '\x0c'
  · rw [if_pos hf]
    exact short 'f' (by decide) (hf ▸ rfl) (.inl (hf ▸ by decide))
  rw [if_neg hf]
  by_cases hn : c = '\n'
  · rw [if_pos hn]
    exact short 'n' (by decide) (hn ▸ rfl) (.inl (hn ▸ by decide))
  rw [if_neg hn]
  by_cases hr : c = '\r'
  · rw [if_pos hr]
    exact short 'r' (by decide) (hr ▸ rfl) (.inl (hr ▸ by decide))
  rw [if_neg hr]
  by_cases ht : c = '\t'
  · rw [if_pos ht]
    exact short 't' (by decide) (ht ▸ rfl) (.inl (ht ▸ by decide))
  rw [if_neg ht]
  by_cases hescaped : c.toNat < 0x20 ∨ escapes c = true
  · rw [if_pos hescaped]
    by_cases hsmall : c.toNat < 0x10000
    · rw [if_pos hsmall]
      exact small hescaped hsmall
    · rw [if_neg hsmall]
      exact pair (hescaped.resolve_left (by omega)) (by omega)
  · rw [if_neg hescaped]
    rw [not_or, Bool.not_eq_true] at hescaped
    exact plain hquote hbackslash (by omega) hescaped.2

/-- **Inside a string, each spelling of a character is read as that character.** -/
theorem run_spelling (escapes : Char → Bool) (c : Char) :
    Lexer.run ⟨tokens, .string s⟩ (spelling escapes c) = some ⟨tokens, .string (s ++ [c])⟩ := by
  refine spelling_elim escapes c ?_ ?_ ?_ ?_
  · intro d hd hshort _
    have hnot : d ≠ 'u' := fun h => absurd (h ▸ hd) (by decide)
    have hescape : Lexer.step ⟨tokens, .string s⟩ '\\' = some ⟨tokens, .escape s⟩ := rfl
    have hletter : Lexer.step ⟨tokens, .escape s⟩ d = some ⟨tokens, .string (s ++ [c])⟩ := by
      show (if d = 'u' then _ else _) = _
      rw [if_neg hnot, hshort]
      rfl
    rw [run_cons, hescape, Option.bind_some, run_cons, hletter]
    rfl
  · intro _ hsmall
    obtain ⟨hhigh, hlow⟩ := not_surrogate c
    rw [run_unicodeEscape hsmall, endHex]
    simp only [hhigh, hlow, Bool.false_eq_true, if_false, Option.map_some, Char.ofNat_toNat]
  · intro _ hlarge
    obtain ⟨hhigh, hlow, hpair⟩ := pair_char c hlarge
    rw [run_pair hhigh hlow, hpair]
  · intro hquote hbackslash hcontrol _
    have hstep : Lexer.step ⟨tokens, .string s⟩ c = some ⟨tokens, .string (s ++ [c])⟩ := by
      show (if c = '"' then _ else if c = '\\' then _ else if c.toNat < 0x20 then _ else _) = _
      rw [if_neg hquote, if_neg hbackslash, if_neg (Nat.not_lt.mpr hcontrol)]
    rw [run_cons, hstep]
    rfl

/-- A string is read from its spelling. -/
theorem run_spelled (escapes : Char → Bool) (t : Text) :
    Lexer.run ⟨tokens, .string s⟩ (spelled escapes t) = some ⟨tokens, .string (s ++ t)⟩ := by
  induction t generalizing s with
  | nil => simp [spelled]
  | cons c t ih =>
    rw [spelled, List.flatMap_cons, run_append, run_spelling, Option.bind_some]
    exact (ih (s := s ++ [c])).trans (by rw [List.append_assoc]; rfl)

theorem hexDigit_printable : ∀ n, n < 0x10 →
    0x20 < (hexDigit n).toNat ∧ (hexDigit n).toNat < 0x7f ∧ hexDigit n ≠ '"' := by decide

/-- What an escape is made of, after its backslash. -/
theorem unicodeEscape_printable {n : Nat} (h : n < 0x10000) :
    ∃ t, unicodeEscape n = '\\' :: 'u' :: t ∧
      ∀ x ∈ t, 0x20 < x.toNat ∧ x.toNat < 0x7f ∧ x ≠ '"' := by
  refine ⟨_, rfl, ?_⟩
  simp only [List.forall_mem_cons, List.not_mem_nil, false_implies, implies_true, and_true]
  exact ⟨hexDigit_printable _ (by omega), hexDigit_printable _ (by omega),
    hexDigit_printable _ (by omega), hexDigit_printable _ (by omega)⟩

/-- A character is spelled as itself, or by an escape. -/
theorem spelling_cases (escapes : Char → Bool) (c : Char) :
    (spelling escapes c = [c] ∧ c ≠ '"' ∧ c ≠ '\\' ∧ 0x20 ≤ c.toNat ∧ escapes c = false) ∨
      ((c.toNat < 0x20 ∨ c = '"' ∨ c = '\\' ∨ escapes c = true) ∧
      ∃ d t, spelling escapes c = '\\' :: d :: t ∧ 0x20 < d.toNat ∧ d.toNat < 0x7f ∧
        ∀ x ∈ t, 0x20 < x.toNat ∧ x.toNat < 0x7f ∧ x ≠ '"') := by
  refine spelling_elim escapes c ?_ ?_ ?_ ?_
  · intro d hd _ hc
    have hletters : ∀ d ∈ shortLetters, 0x20 < d.toNat ∧ d.toNat < 0x7f := by decide
    refine Or.inr ⟨hc.imp_right (Or.imp_right Or.inl), d, [], rfl, (hletters d hd).1,
      (hletters d hd).2, fun _ hx => absurd hx List.not_mem_nil⟩
  · intro hescaped hsmall
    obtain ⟨t, hspelling, hprintable⟩ := unicodeEscape_printable hsmall
    refine Or.inr ⟨?_, 'u', t, hspelling, by decide, by decide, hprintable⟩
    exact hescaped.imp_right fun h => Or.inr (Or.inr h)
  · intro hescaped hlarge
    obtain ⟨hhigh, hlow, _⟩ := pair_char c hlarge
    simp only [isHigh, isLow, Bool.and_eq_true, decide_eq_true_eq] at hhigh hlow
    obtain ⟨t, hfirst, ht⟩ := unicodeEscape_printable
      (show 0xd800 + (c.toNat - 0x10000) / 0x400 < 0x10000 by omega)
    obtain ⟨u, hsecond, hu⟩ := unicodeEscape_printable
      (show 0xdc00 + (c.toNat - 0x10000) % 0x400 < 0x10000 by omega)
    refine Or.inr ⟨Or.inr (Or.inr (Or.inr hescaped)), 'u', t ++ '\\' :: 'u' :: u, ?_, by decide,
      by decide, ?_⟩
    · rw [hfirst, hsecond]
      rfl
    · rw [List.forall_mem_append, List.forall_mem_cons, List.forall_mem_cons]
      exact ⟨ht, by decide, by decide, hu⟩
  · intro hquote hbackslash hcontrol hescaped
    exact Or.inl ⟨rfl, hquote, hbackslash, hcontrol, hescaped⟩

theorem spelled_cons (escapes : Char → Bool) (c : Char) (s : Text) :
    spelled escapes (c :: s) = spelling escapes c ++ spelled escapes s := List.flatMap_cons

theorem spelled_append (escapes : Char → Bool) (s t : Text) :
    spelled escapes (s ++ t) = spelled escapes s ++ spelled escapes t := List.flatMap_append

/-! ## Stripping a spelling -/

/-- What is stripped off the left of a spelled string is spelled as itself. -/
theorem lstrip_spelled (escapes : Char → Bool) (s : Text) {after : Text}
    (hafter : ∀ c ∈ after.head?, isSpace c = false) :
    ∃ s', lstrip (spelled escapes s ++ after) = spelled escapes s' ++ after := by
  have hstop : ∀ (c : Char) (t : Text), isSpace c = false → lstrip (c :: t) = c :: t := by
    intro c t hc
    rw [lstrip, List.dropWhile_cons_of_neg (by simp [hc])]
  induction s with
  | nil =>
    refine ⟨[], ?_⟩
    cases after with
    | nil => rfl
    | cons c after => exact hstop c after (hafter c rfl)
  | cons c s ih =>
    rw [spelled_cons]
    obtain ⟨hspelling, _⟩ | ⟨_, d, t, hspelling, _⟩ := spelling_cases escapes c
    · cases hspace : isSpace c with
      | true =>
        obtain ⟨s', hs'⟩ := ih
        refine ⟨s', ?_⟩
        rw [hspelling, List.append_assoc, List.singleton_append, lstrip,
          List.dropWhile_cons_of_pos hspace]
        exact hs'
      | false =>
        refine ⟨c :: s, ?_⟩
        rw [spelled_cons, hspelling, List.append_assoc, List.singleton_append]
        exact hstop c _ hspace
    · refine ⟨c :: s, ?_⟩
      rw [spelled_cons, hspelling]
      exact hstop _ _ (by decide)

/-- Nothing is stripped off the right of a text that does not end with a space. -/
theorem rstrip_eq_self {t : Text} (h : ∀ c ∈ t.getLast?, isSpace c = false) : rstrip t = t := by
  rw [rstrip, List.rdropWhile_eq_self_iff]
  intro hne
  simp [h _ (List.getLast_mem_getLast? hne)]

/-- What is stripped off the right of a spelled string is spelled as itself. -/
theorem rstrip_spelled (escapes : Char → Bool) {before : Text}
    (hbefore : ∀ c ∈ before.getLast?, isSpace c = false) (s : Text) :
    ∃ s', rstrip (before ++ spelled escapes s) = before ++ spelled escapes s' := by
  induction s using List.reverseRecOn with
  | nil =>
    refine ⟨[], ?_⟩
    rw [spelled, List.flatMap_nil, List.append_nil]
    exact rstrip_eq_self hbefore
  | append_singleton s c ih =>
    have hlast : spelled escapes [c] = spelling escapes c := List.flatMap_singleton _ _
    obtain ⟨hspelling, _⟩ | ⟨_, d, t, hspelling, hlo, hhi, ht⟩ := spelling_cases escapes c
    · cases hspace : isSpace c with
      | true =>
        obtain ⟨s', hs'⟩ := ih
        refine ⟨s', ?_⟩
        rw [spelled_append, hlast, hspelling, ← List.append_assoc, rstrip,
          List.rdropWhile_concat_pos _ _ _ hspace]
        exact hs'
      | false =>
        refine ⟨s ++ [c], rstrip_eq_self ?_⟩
        rw [spelled_append, hlast, hspelling, ← List.append_assoc, List.getLast?_concat]
        rintro _ ⟨rfl⟩
        exact hspace
    · -- an escape ends with a letter, a digit, a quote, a slash or a backslash
      refine ⟨s ++ [c], rstrip_eq_self ?_⟩
      rw [spelled_append, hlast, hspelling, ← List.append_assoc,
        List.getLast?_append_of_ne_nil _ (List.cons_ne_nil _ _), List.getLast?_cons_cons]
      intro x hx
      have hmem : x ∈ d :: t := List.mem_of_getLast? hx
      obtain rfl | hmem := List.mem_cons.mp hmem
      · exact isSpace_of_printable hlo hhi
      · exact isSpace_of_printable (ht x hmem).1 (ht x hmem).2.1

/-- What is left of a spelling when a text without quotes and backslashes is taken off its
left. -/
theorem spelled_drop (escapes : Char → Bool) {literal after t : Text}
    (hliteral : ∀ c ∈ literal, c ≠ '"' ∧ c ≠ '\\')
    (hafter : after = [] ∨ after.head? = some '"') {s : Text}
    (h : spelled escapes s ++ after = literal ++ t) :
    ∃ s', t = spelled escapes s' ++ after := by
  induction literal generalizing s with
  | nil => exact ⟨s, h.symm⟩
  | cons x literal ih =>
    obtain ⟨hquote, hbackslash⟩ := hliteral x List.mem_cons_self
    have hrest : ∀ c ∈ literal, c ≠ '"' ∧ c ≠ '\\' :=
      fun c hc => hliteral c (List.mem_cons_of_mem x hc)
    cases s with
    | nil =>
      obtain rfl | hhead := hafter
      · cases h
      · have hafter' : after = x :: (literal ++ t) := h
        rw [hafter'] at hhead
        exact absurd (Option.some.inj hhead) hquote
    | cons c s =>
      rw [spelled_cons] at h
      obtain ⟨hspelling, _⟩ | ⟨_, d, u, hspelling, _⟩ := spelling_cases escapes c
      · rw [hspelling] at h
        exact ih hrest (List.cons.inj h).2
      · rw [hspelling] at h
        exact absurd (List.cons.inj h).1.symm hbackslash

/-! ## Texts without an end -/

/-- **A text that ends inside a string, or goes on there with a newline, is no JSON.** -/
theorem tokenize_unterminated {t : Text} (h : Lexer.run {} t = some ⟨tokens, .string s⟩)
    {rest : Text} (hrest : rest = [] ∨ rest.head? = some '\n') : tokenize (t ++ rest) = none := by
  rw [tokenize, run_append, h, Option.bind_some]
  obtain rfl | hnewline := hrest
  · rfl
  · obtain ⟨rest, rfl⟩ : ∃ rest', rest = '\n' :: rest' := by
      cases rest with
      | nil => cases hnewline
      | cons c rest => exact ⟨rest, by rw [Option.some.inj hnewline]⟩
    rfl

/-! ## Reading from the other side of a quote -/

namespace Lexer

/-- Not inside a string. -/
def Outside (l : Lexer) : Prop := l.mode = .ground ∨ ∃ w, l.mode = .word w

/-- In a word with a backslash, which is none. -/
def Doomed (l : Lexer) : Prop := ∃ w, l.mode = .word w ∧ '\\' ∈ w

end Lexer

theorem isWord_backslash {w : Text} (h : '\\' ∈ w) : isWord w = false := by
  have hnumber : w.foldlM NumberState.step .start = none := by
    obtain ⟨a, b, rfl⟩ := List.append_of_mem h
    rw [List.foldlM_append]
    cases a.foldlM NumberState.step .start with
    | none => rfl
    | some state => cases state <;> rfl
  have hliteral : w ∉ literals := by
    intro hmem
    have hall : ∀ w ∈ literals, '\\' ∉ w := by decide
    exact hall w hmem h
  rw [isWord, isNumber, hnumber]
  simp [hliteral]

theorem Lexer.Doomed.step {l l' : Lexer} {c : Char} (h : l.Doomed) (hstep : l.step c = some l') :
    l'.Doomed := by
  obtain ⟨w, hmode, hw⟩ := h
  rw [Lexer.step, hmode] at hstep
  simp only [isWord_backslash hw, Bool.false_eq_true, if_false] at hstep
  split_ifs at hstep with hdelimiter
  obtain rfl := Option.some.inj hstep
  exact ⟨w ++ [c], rfl, List.mem_append_left _ hw⟩

theorem Lexer.Doomed.finish {l : Lexer} (h : l.Doomed) : l.finish = none := by
  obtain ⟨w, hmode, hw⟩ := h
  rw [Lexer.finish, hmode]
  simp only [isWord_backslash hw, Bool.false_eq_true, if_false]

namespace Lexer

/-- Outside of strings, and no string read so far. -/
structure Plain (l : Lexer) : Prop where
  outside : l.Outside
  noStrings : ∀ s, Token.str s ∉ l.tokens

theorem plain_start : Plain {} := ⟨Or.inl rfl, fun _ => List.not_mem_nil⟩

theorem bracket_ne_str (c : Char) {token : Token} (h : bracket c = some token) (s : Text) :
    token ≠ .str s := by
  unfold bracket at h
  split_ifs at h <;> cases h <;> nofun

/-- A character other than a quote, between tokens. -/
theorem Plain.ground {l : Lexer} (h : ∀ s, Token.str s ∉ l.tokens) {c : Char} (hc : c ≠ '"') :
    (l.ground c).Plain := by
  unfold Lexer.ground
  by_cases hspace : isJsonSpace c = true
  · rw [if_pos hspace]
    exact ⟨Or.inl rfl, h⟩
  · rw [if_neg hspace]
    cases hbracket : bracket c with
    | none =>
      simp only [if_neg hc]
      exact ⟨Or.inr ⟨_, rfl⟩, h⟩
    | some token =>
      refine ⟨Or.inl rfl, fun s hs => ?_⟩
      obtain hs | hs := List.mem_append.mp hs
      · exact h s hs
      · exact bracket_ne_str c hbracket s (List.mem_singleton.mp hs).symm

theorem Plain.step {l l' : Lexer} {c : Char} (h : l.Plain) (hc : c ≠ '"')
    (hstep : l.step c = some l') : l'.Plain := by
  rw [Lexer.step] at hstep
  obtain hground | ⟨w, hword⟩ := h.outside
  · simp only [hground, Option.some.injEq] at hstep
    exact hstep ▸ Plain.ground h.noStrings hc
  · simp only [hword] at hstep
    split_ifs at hstep with hdelimiter hvalid
    · refine Option.some.inj hstep ▸ Plain.ground (fun s hs => ?_) hc
      obtain hs | hs := List.mem_append.mp hs
      · exact h.noStrings s hs
      · cases List.mem_singleton.mp hs
    · obtain rfl := Option.some.inj hstep
      exact ⟨Or.inr ⟨_, rfl⟩, h.noStrings⟩

theorem Plain.run {l l' : Lexer} {t : Text} (h : l.Plain) (ht : ∀ c ∈ t, c ≠ '"')
    (hrun : l.run t = some l') : l'.Plain := by
  induction t generalizing l with
  | nil => exact Option.some.inj hrun ▸ h
  | cons c t ih =>
    obtain ⟨next, hstep, hrest⟩ := Option.bind_eq_some_iff.mp (run_cons l c t ▸ hrun)
    exact ih (h.step (ht c List.mem_cons_self) hstep)
      (fun d hd => ht d (List.mem_cons_of_mem c hd)) hrest

/-- A backslash outside of strings. -/
theorem Outside.backslash {l l' : Lexer} (h : l.Outside) (hstep : l.step '\\' = some l') :
    l'.Doomed := by
  rw [Lexer.step] at hstep
  obtain hground | ⟨w, hword⟩ := h
  · simp only [hground, Option.some.injEq] at hstep
    subst hstep
    exact ⟨['\\'], rfl, List.mem_singleton_self _⟩
  · have hdelimiter : isDelimiter '\\' = false := by decide
    simp only [hword, hdelimiter, Bool.false_eq_true, if_false, Option.some.injEq] at hstep
    subst hstep
    exact ⟨w ++ ['\\'], rfl, List.mem_append_right _ (List.mem_singleton_self _)⟩

theorem Doomed.not_quote {l : Lexer} (h : l.Doomed) : l.step '"' = none := by
  obtain ⟨w, hmode, hw⟩ := h
  have hdelimiter : isDelimiter '"' = true := by decide
  rw [Lexer.step, hmode]
  simp only [hdelimiter, if_true, isWord_backslash hw, Bool.false_eq_true, if_false]

/-- The spelling of a character, read outside of strings. -/
theorem Plain.spelling {l l' : Lexer} (h : l.Plain) {escapes : Char → Bool} {c : Char}
    (hrun : l.run (spelling escapes c) = some l') : l'.Plain := by
  obtain ⟨hspelling, hc, _⟩ | ⟨_, d, t, hspelling, _, _, ht⟩ := spelling_cases escapes c
  · rw [hspelling] at hrun
    exact h.run (List.forall_mem_singleton.mpr hc) hrun
  · rw [hspelling] at hrun
    obtain ⟨doomed, hfirst, hrest⟩ := Option.bind_eq_some_iff.mp (run_cons _ _ _ ▸ hrun)
    have hd : d ≠ '"' := by
      rintro rfl
      obtain ⟨_, hquote, _⟩ := Option.bind_eq_some_iff.mp (run_cons _ _ _ ▸ hrest)
      rw [(h.outside.backslash hfirst).not_quote] at hquote
      cases hquote
    refine h.run (t := '\\' :: d :: t) ?_ hrun
    rw [List.forall_mem_cons, List.forall_mem_cons]
    exact ⟨by decide, hd, fun x hx => (ht x hx).2.2⟩

/-- **The spelling of a string, read outside of strings, holds no string.** -/
theorem Plain.spelled {l l' : Lexer} (h : l.Plain) {escapes : Char → Bool} {s : Text}
    (hrun : l.run (spelled escapes s) = some l') : l'.Plain := by
  induction s generalizing l with
  | nil => exact Option.some.inj hrun ▸ h
  | cons c s ih =>
    rw [PyJson.spelled, List.flatMap_cons, run_append] at hrun
    obtain ⟨next, hfirst, hrest⟩ := Option.bind_eq_some_iff.mp hrun
    exact ih (h.spelling hfirst) hrest

end Lexer

/-! ## The two sides of a quote -/

namespace Lexer

/-- Of two machines one is inside a string and the other is not, or one of them has failed. -/
inductive Opposite (a b : Lexer) : Prop where
  | inside {s : Text} (ha : a.mode = .string s) (hb : b.Outside)
  | outside {s : Text} (ha : a.Outside) (hb : b.mode = .string s)
  | doomed (h : a.Doomed ∨ b.Doomed)

theorem Outside.quote {l l' : Lexer} (h : l.Outside) (hstep : l.step '"' = some l') :
    l'.mode = .string [] := by
  have hdelimiter : isDelimiter '"' = true := by decide
  rw [Lexer.step] at hstep
  obtain hground | ⟨w, hword⟩ := h
  · simp only [hground, Option.some.injEq] at hstep
    subst hstep
    rfl
  · simp only [hword, hdelimiter, if_true] at hstep
    split_ifs at hstep
    obtain rfl := Option.some.inj hstep
    rfl

theorem ground_outside (l : Lexer) {c : Char} (hc : c ≠ '"') : (l.ground c).Outside := by
  unfold Lexer.ground
  by_cases hspace : isJsonSpace c = true
  · rw [if_pos hspace]
    exact Or.inl rfl
  · rw [if_neg hspace]
    cases bracket c with
    | none =>
      simp only [if_neg hc]
      exact Or.inr ⟨_, rfl⟩
    | some token => exact Or.inl rfl

theorem Outside.step {l l' : Lexer} {c : Char} (h : l.Outside) (hc : c ≠ '"')
    (hstep : l.step c = some l') : l'.Outside := by
  rw [Lexer.step] at hstep
  obtain hground | ⟨w, hword⟩ := h
  · simp only [hground, Option.some.injEq] at hstep
    exact hstep ▸ ground_outside l hc
  · simp only [hword] at hstep
    split_ifs at hstep
    · exact Option.some.inj hstep ▸ ground_outside _ hc
    · obtain rfl := Option.some.inj hstep
      exact Or.inr ⟨_, rfl⟩

/-- What a step inside a string can be. -/
theorem string_step {l l' : Lexer} {s : Text} {c : Char} (hmode : l.mode = .string s)
    (hstep : l.step c = some l') :
    (c = '"' ∧ l'.mode = .ground) ∨ c = '\\' ∨
      (c ≠ '"' ∧ c ≠ '\\' ∧ ∃ s, l'.mode = .string s) := by
  rw [Lexer.step, hmode] at hstep
  simp only at hstep
  split_ifs at hstep with hquote hbackslash
  · exact Or.inl ⟨hquote, Option.some.inj hstep ▸ rfl⟩
  · exact Or.inr (Or.inl hbackslash)
  · obtain rfl := Option.some.inj hstep
    exact Or.inr (Or.inr ⟨hquote, hbackslash, _, rfl⟩)

theorem Opposite.step {a b a' b' : Lexer} {c : Char} (h : Opposite a b)
    (ha : a.step c = some a') (hb : b.step c = some b') : Opposite a' b' := by
  cases h with
  | inside hmode houtside =>
    obtain ⟨rfl, hground⟩ | rfl | ⟨hquote, hbackslash, s, hstring⟩ := string_step hmode ha
    · exact .outside (Or.inl hground) (houtside.quote hb)
    · exact .doomed (Or.inr (houtside.backslash hb))
    · exact .inside hstring (houtside.step hquote hb)
  | outside houtside hmode =>
    obtain ⟨rfl, hground⟩ | rfl | ⟨hquote, hbackslash, s, hstring⟩ := string_step hmode hb
    · exact .inside (houtside.quote ha) (Or.inl hground)
    · exact .doomed (Or.inl (houtside.backslash ha))
    · exact .outside (houtside.step hquote ha) hstring
  | doomed hdoomed => exact .doomed (hdoomed.imp (·.step ha) (·.step hb))

/-- **A text that closes the string it begins in does not end well where it begins outside
of one.** -/
theorem finish_opposite {a b a' : Lexer} {t : Text} (h : Opposite a b)
    (ha : a.run t = some a') (hfinish : a'.finish ≠ none) :
    (b.run t).bind Lexer.finish = none := by
  induction t generalizing a b with
  | nil =>
    obtain rfl := Option.some.inj ha
    rw [run_nil, Option.bind_some]
    cases h with
    | inside hmode houtside =>
      refine absurd ?_ hfinish
      rw [Lexer.finish, hmode]
    | outside houtside hmode => rw [Lexer.finish, hmode]
    | doomed hdoomed => exact hdoomed.elim (fun h => absurd h.finish hfinish) (·.finish)
  | cons c t ih =>
    obtain ⟨next, hstep, hrest⟩ := Option.bind_eq_some_iff.mp (run_cons a c t ▸ ha)
    rw [run_cons]
    cases hb : b.step c with
    | none => rfl
    | some other => exact ih (h.step hstep hb) hrest

end Lexer

/-! ## Values without strings -/

/-- An object with members begins with a key. -/
theorem parseMembers_noStrings {fuel : Nat} {tokens : List Token}
    (h : ∀ s, Token.str s ∉ tokens) : parseMembers fuel tokens = none := by
  cases fuel with
  | zero => rfl
  | succ fuel =>
    unfold parseMembers
    split
    · rename_i key rest
      exact absurd List.mem_cons_self (h key)
    · rfl

theorem wordValue_ne_obj (w : Text) (members : List (Text × Json)) :
    wordValue w ≠ .obj members := by
  unfold wordValue
  split_ifs <;> nofun

theorem parseValue_noStrings {fuel : Nat} {tokens rest : List Token}
    (h : ∀ s, Token.str s ∉ tokens) {members : List (Text × Json)}
    (hparse : parseValue fuel tokens = some (.obj members, rest)) : members = [] := by
  cases fuel with
  | zero => cases hparse
  | succ fuel =>
    unfold parseValue at hparse
    split at hparse
    · cases hparse
      rfl
    · rename_i later _
      rw [parseMembers_noStrings fun s hs => h s (List.mem_cons_of_mem _ hs)] at hparse
      cases hparse
    · cases hparse
    · obtain ⟨_, _, hpair⟩ := Option.map_eq_some_iff.mp hparse
      cases hpair
    · cases hparse
    · rename_i w later
      obtain ⟨hword, _⟩ := Prod.mk.inj (Option.some.inj hparse)
      exact absurd hword (wordValue_ne_obj w members)
    · cases hparse

/-- Tokens without a string are no object with members. -/
theorem parse_noStrings {tokens : List Token} (h : ∀ s, Token.str s ∉ tokens)
    {members : List (Text × Json)} (hparse : parse tokens = some (.obj members)) :
    members = [] := by
  unfold parse at hparse
  split at hparse
  · rename_i value hvalue
    obtain rfl := Option.some.inj hparse
    exact parseValue_noStrings h hvalue
  · cases hparse

end OpenWrtCopilot.Verified.PyJson
