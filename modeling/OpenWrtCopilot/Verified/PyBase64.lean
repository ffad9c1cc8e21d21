import OpenWrtCopilot.Verified.PyText

/-!
# Base64 as Python decodes it

`base64.b64decode` of a string without `validate`: a string that is not ASCII is
rejected; characters outside the alphabet are skipped, padding is only counted
once two characters of a group were read, and a complete padding ends the
decoding whatever follows.  Keys are written with `base64.urlsafe_b64encode`.
-/

namespace OpenWrtCopilot.Verified.PyBase64

open Verified.PyText

/-- The six bits a character of the alphabet stands for. -/
def alphabetValue (c : Char) : Option Nat :=
  if 'A' ≤ c ∧ c ≤ 'Z' then some (c.toNat - 65)
  else if 'a' ≤ c ∧ c ≤ 'z' then some (c.toNat - 71)
  else if '0' ≤ c ∧ c ≤ '9' then some (c.toNat + 4)
  else if c = '+' then some 62
  else if c = '/' then some 63
  else none

/-- How much of a group of four characters was read, with the bits that do not
make a byte yet. -/
inductive Quad
  | start
  | one (left : Nat)
  | two (left : Nat)
  | three (left : Nat)

def Quad.pos : Quad → Nat
  | .start => 0
  | .one _ => 1
  | .two _ => 2
  | .three _ => 3

/-- The decoding loop of `binascii.a2b_base64`; `pads` counts the padding of the
current group and `count` the bytes decoded so far. -/
def decodeFrom : Quad → Nat → Nat → Text → Except Text (List UInt8)
  | .start, _, _, [] => .ok []
  | .one _, _, count, [] =>
      .error ("Invalid base64-encoded string: number of data characters (" ++
        natText (count / 3 * 4 + 1) ++ ") cannot be 1 more than a multiple of 4")
  | .two _, _, _, [] => .error "Incorrect padding"
  | .three _, _, _, [] => .error "Incorrect padding"
  | quad, pads, count, c :: rest =>
      if c = '=' then
        if quad.pos < 2 then decodeFrom quad pads count rest
        else if quad.pos + (pads + 1) < 4 then decodeFrom quad (pads + 1) count rest
        else .ok []
      else
        match alphabetValue c with
        | none => decodeFrom quad pads count rest
        | some value =>
            match quad with
            | .start => decodeFrom (.one value) 0 count rest
            | .one left =>
                (decodeFrom (.two (value % 16)) 0 (count + 1) rest).map
                  (UInt8.ofNat (4 * left + value / 16) :: ·)
            | .two left =>
                (decodeFrom (.three (value % 4)) 0 (count + 1) rest).map
                  (UInt8.ofNat (16 * left + value / 4) :: ·)
            | .three left =>
                (decodeFrom .start 0 (count + 1) rest).map
                  (UInt8.ofNat (64 * left + value) :: ·)

/-- `base64.b64decode(text)`, or the message of its exception. -/
def b64decode (text : Text) : Except Text (List UInt8) :=
  if text.all fun c => c.toNat < 128 then decodeFrom .start 0 0 text
  else .error "string argument should contain only ASCII characters"

example : b64decode "H4s=" = .ok [0x1f, 0x8b] := by decide

/-! ## Encoding -/

/-- The letter of six bits in the URL-safe alphabet. -/
def urlsafeLetter (bits : Nat) : Char :=
  "ABCDEFGHIJKLMNOPQRSTUVWXYZabcdefghijklmnopqrstuvwxyz0123456789-_".toList.getD bits 'A'

/-- `base64.urlsafe_b64encode(..).decode("ascii")`. -/
def urlsafeB64encode : List UInt8 → Text
  | [] => []
  | [a] => [urlsafeLetter (a.toNat / 4), urlsafeLetter (a.toNat % 4 * 16), '=', '=']
  | [a, b] =>
      [urlsafeLetter (a.toNat / 4), urlsafeLetter (a.toNat % 4 * 16 + b.toNat / 16),
        urlsafeLetter (b.toNat % 16 * 4), '=']
  | a :: b :: c :: rest =>
      urlsafeLetter (a.toNat / 4) :: urlsafeLetter (a.toNat % 4 * 16 + b.toNat / 16) ::
        urlsafeLetter (b.toNat % 16 * 4 + c.toNat / 64) :: urlsafeLetter (c.toNat % 64) ::
        urlsafeB64encode rest

theorem length_urlsafeB64encode (data : List UInt8) :
    (urlsafeB64encode data).length = (data.length + 2) / 3 * 4 := by
  fun_induction urlsafeB64encode data with
  | case1 => rfl
  | case2 a => simp
  | case3 a b => simp
  | case4 a b c rest ih =>
    simp only [List.length_cons, ih]
    omega

end OpenWrtCopilot.Verified.PyBase64
