import OpenWrtCopilot.Verified.PyText

/-!
# The `ipaddress` parser

`ipaddress.ip_address(text)` tries the text as a dotted quad and then as a
colon-separated IPv6 address, optionally followed by `%` and a scope id.  The
parser is ported here from its documented grammar, returning the integer value
of the address.
-/

namespace OpenWrtCopilot.Verified.PyIpAddress

open Verified.PyText

/-- An address `ip_address` accepts. -/
inductive IpAddress
  | v4 (value : Nat)
  | v6 (value : Nat)
  deriving DecidableEq

/-! ## Dotted quads -/

/-- Value of a string of ASCII decimal digits. -/
def asciiDecimal (t : Text) : Nat := t.foldl (fun acc c => acc * 10 + (c.toNat - 48)) 0

/-- `_parse_octet`: one to three ASCII digits, no leading zero, at most 255. -/
def parseOctet (t : Text) : Option Nat :=
  if t ≠ [] ∧ t.all Char.isDigit = true ∧ t.length ≤ 3 ∧ (t.length = 1 ∨ t.head? ≠ some '0') ∧
      asciiDecimal t ≤ 255 then
    some (asciiDecimal t)
  else none

/-- `IPv4Address(text)`. -/
def parseIpv4 (t : Text) : Option Nat :=
  match (t.splitOn '.').mapM parseOctet with
  | some [a, b, c, d] => some (((a * 256 + b) * 256 + c) * 256 + d)
  | _ => none

/-! ## IPv6 -/

def hexDigit (c : Char) : Option Nat :=
  if c.isDigit then some (c.toNat - 48)
  else if 'a' ≤ c ∧ c ≤ 'f' then some (c.toNat - 87)
  else if 'A' ≤ c ∧ c ≤ 'F' then some (c.toNat - 55)
  else none

/-- `_parse_hextet`: one to four hexadecimal digits. -/
def parseHextet (t : Text) : Option Nat :=
  if t = [] ∨ 4 < t.length then none
  else (t.mapM hexDigit).map (List.foldl (fun acc d => acc * 16 + d) 0)

/-- Replace a final dotted quad by the two hextets it stands for, kept as
numbers; the other parts stay texts. -/
def expandQuad (parts : List Text) : Option (List (Text ⊕ Nat)) :=
  match parts.getLast? with
  | none => none
  | some last =>
      if last.contains '.' then
        (parseIpv4 last).map fun v =>
          parts.dropLast.map Sum.inl ++ [Sum.inr (v / 65536), Sum.inr (v % 65536)]
      else some (parts.map Sum.inl)

def isEmptyPart : Text ⊕ Nat → Bool
  | .inl t => t.isEmpty
  | .inr _ => false

def partValue : Text ⊕ Nat → Option Nat
  | .inl t => parseHextet t
  | .inr v => some v

def hextetsValue (hextets : List Nat) : Nat := hextets.foldl (fun acc h => acc * 65536 + h) 0

/-- `_ip_int_from_string`, on the parts between the colons: eight hextets, or
fewer with one `::` that is not itself next to a lone colon. -/
def parseParts (parts : List (Text ⊕ Nat)) : Option Nat :=
  let empties := (List.range parts.length).filter fun i =>
    0 < i && i + 1 < parts.length && (parts[i]?.map isEmptyPart).getD false
  match empties with
  | [] =>
      if parts.length = 8 then (parts.mapM partValue).map hextetsValue else none
  | [skip] =>
      let high := parts.take skip
      let low := parts.drop (skip + 1)
      let high' := if (high.head?.map isEmptyPart).getD false then high.tail else high
      let low' := if (low.getLast?.map isEmptyPart).getD false then low.dropLast else low
      -- A lone leading or trailing colon is refused.
      if high' ≠ high ∧ high' ≠ [] then none
      else if low' ≠ low ∧ low' ≠ [] then none
      else if 8 ≤ high'.length + low'.length then none
      else do
        let hs ← high'.mapM partValue
        let ls ← low'.mapM partValue
        some (hextetsValue (hs ++ List.replicate (8 - (hs.length + ls.length)) 0 ++ ls))
  | _ => none

/-- `IPv6Address(text)`: at most one `%`, followed by a nonempty scope id, and no
slash anywhere. -/
def parseIpv6 (t : Text) : Option Nat :=
  if t.contains '/' then none
  else
    let (address, scope) := splitFirst '%' t
    if scope = some [] ∨ (scope.getD []).contains '%' then none
    else
      let parts := address.splitOn ':'
      if parts.length < 3 then none
      else
        match expandQuad parts with
        | none => none
        | some expanded => if 9 < expanded.length then none else parseParts expanded

/-- `ipaddress.ip_address(text)`, with `none` for a `ValueError`. -/
def ipAddress (t : Text) : Option IpAddress :=
  match parseIpv4 t with
  | some v => some (.v4 v)
  | none => (parseIpv6 t).map .v6

example : ipAddress "192.168.1.10" = some (.v4 3232235786) := by decide

example : ipAddress "fe80::1%eth0" = some (.v6 (0xfe80 * 2 ^ 112 + 1)) := by decide

end OpenWrtCopilot.Verified.PyIpAddress
