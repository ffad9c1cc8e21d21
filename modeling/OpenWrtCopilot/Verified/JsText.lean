import OpenWrtCopilot.Verified.PyText

/-!
# Strings of ECMAScript

White space, as `trim` and `trimStart` see it.
-/

namespace OpenWrtCopilot.Verified.JsText

open Verified.PyText

/-- `WhiteSpace` and `LineTerminator`. -/
def isSpace (c : Char) : Bool :=
  c ∈ ['\t', '\n', '\u000B', '\u000C', '\r', ' ', '\u00A0', '\u1680', '\u2028', '\u2029', '\u202F',
    '\u205F', '\u3000', '\uFEFF'] || (0x2000 ≤ c.toNat && c.toNat ≤ 0x200A)

/-- `s.trimStart()`. -/
def trimStart (t : Text) : Text := t.dropWhile isSpace

/-- `s.trim()`. -/
def trim (t : Text) : Text := ((trimStart t).reverse.dropWhile isSpace).reverse

end OpenWrtCopilot.Verified.JsText
