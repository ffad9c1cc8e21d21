import OpenWrtCopilot.Verified.PyText

/-!
# Strings of code points

A string of Python or JavaScript may hold surrogates that are no part of a pair; no
UTF-8 text has them.  Here a string is the list of its code points, and a text is one
that can be encoded.

## Main results

* `encode_eq_some_iff` — what is encoded is the string that the text stands for.
* `encode_isSome_iff` — a string can be encoded when it has no surrogate.
-/

namespace OpenWrtCopilot.Verified.CodePoints

open Verified.PyText

abbrev CodePoint := Fin 0x110000

/-- A string, with surrogates that need not be paired. -/
abbrev Points := List CodePoint

def isSurrogate (c : CodePoint) : Bool := 0xd800 ≤ c.val && c.val ≤ 0xdfff

def ofChar (c : Char) : CodePoint :=
  ⟨c.toNat, by
    have hvalid := c.valid
    rw [UInt32.isValidChar, Nat.isValidChar] at hvalid
    show c.val.toNat < 0x110000
    omega⟩

/-- The string of a text. -/
def ofText (t : Text) : Points := t.map ofChar

/-- A code point that has a UTF-8 encoding. -/
def encodeChar (c : CodePoint) : Option Char :=
  if isSurrogate c then none else some (Char.ofNat c.val)

/-- `s.encode("utf-8")`, as the text that is encoded; `none` where it raises. -/
def encode (s : Points) : Option Text := s.mapM encodeChar

theorem isSurrogate_ofChar (c : Char) : isSurrogate (ofChar c) = false := by
  have hvalid := c.valid
  rw [UInt32.isValidChar, Nat.isValidChar] at hvalid
  rw [isSurrogate, Bool.and_eq_false_iff, decide_eq_false_iff_not, decide_eq_false_iff_not]
  show ¬0xd800 ≤ c.val.toNat ∨ ¬c.val.toNat ≤ 0xdfff
  omega

theorem encodeChar_ofChar (c : Char) : encodeChar (ofChar c) = some c := by
  rw [encodeChar, isSurrogate_ofChar, if_neg Bool.false_ne_true]
  exact congrArg some (Char.ofNat_toNat c)

theorem ofChar_of_encodeChar {c : CodePoint} {char : Char} (h : encodeChar c = some char) :
    ofChar char = c := by
  rw [encodeChar] at h
  split at h
  · cases h
  · next hplain =>
      obtain rfl := Option.some.inj h
      have hvalid : c.val.isValidChar := by
        rw [isSurrogate, Bool.and_eq_true, decide_eq_true_eq, decide_eq_true_eq] at hplain
        have hlt := c.isLt
        rw [Nat.isValidChar]
        omega
      refine Fin.ext ?_
      show (Char.ofNat c.val).toNat = c.val
      rw [Char.ofNat, dif_pos hvalid]
      rfl

theorem encode_ofText (t : Text) : encode (ofText t) = some t := by
  induction t with
  | nil => rfl
  | cons c t ih =>
    have hrest : (t.map ofChar).mapM encodeChar = some t := ih
    rw [encode, ofText, List.map_cons, List.mapM_cons, encodeChar_ofChar, hrest]
    rfl

/-- A string is encoded to the text it stands for. -/
theorem encode_eq_some_iff {s : Points} {t : Text} : encode s = some t ↔ ofText t = s := by
  constructor
  · intro h
    induction s generalizing t with
    | nil =>
      obtain rfl := Option.some.inj h
      rfl
    | cons c s ih =>
      rw [encode, List.mapM_cons] at h
      obtain ⟨char, hchar, h⟩ := Option.bind_eq_some_iff.mp h
      obtain ⟨rest, hrest, h⟩ := Option.bind_eq_some_iff.mp h
      obtain rfl := Option.some.inj h
      rw [ofText, List.map_cons, ofChar_of_encodeChar hchar]
      exact congrArg _ (ih hrest)
  · rintro rfl
    exact encode_ofText t

theorem encode_isSome_iff {s : Points} :
    (encode s).isSome = true ↔ ∀ c ∈ s, isSurrogate c = false := by
  constructor
  · intro h
    obtain ⟨t, ht⟩ := Option.isSome_iff_exists.mp h
    rw [← encode_eq_some_iff.mp ht]
    intro c hc
    obtain ⟨char, _, rfl⟩ := List.mem_map.mp hc
    exact isSurrogate_ofChar char
  · intro h
    induction s with
    | nil => rfl
    | cons c s ih =>
      obtain ⟨hc, hrest⟩ := List.forall_mem_cons.mp h
      obtain ⟨t, ht⟩ := Option.isSome_iff_exists.mp (ih hrest)
      have hfirst : encodeChar c = some (Char.ofNat c.val) := by
        rw [encodeChar, hc, if_neg Bool.false_ne_true]
      have hmapM : s.mapM encodeChar = some t := ht
      rw [encode, List.mapM_cons, hfirst, hmapM]
      rfl

end OpenWrtCopilot.Verified.CodePoints
