import OpenWrtCopilot.Verified.PyText

/-!
# Anchored character-class patterns

Python validates short identifiers with patterns of the form `^[class]{m,n}$`.
Under `re.match` the final `$` also matches just before a trailing newline;
under `re.fullmatch` it does not, because the whole text has to be consumed.
Both readings are supplied here.

## Main results

* `matchClass_iff` — what `re.match` accepts: a body in the class, with at most
  one newline after it.
* `matchClass_eq_fullmatchClass` — the two readings agree on a text that does
  not end in a newline.
-/

namespace OpenWrtCopilot.Verified.PyPattern

open Verified.PyText

/-! ## Classes -/

/-- How often a class may repeat: `{m,n}`, or `{m,}` when there is no maximum. -/
structure Repeat where
  least : Nat
  most : Option Nat

/-- `+`. -/
def oneOrMore : Repeat := { least := 1, most := none }

/-- `{m,n}`. -/
def between (least most : Nat) : Repeat := { least := least, most := some most }

def Repeat.allows (r : Repeat) (n : Nat) : Bool :=
  r.least ≤ n && r.most.all (n ≤ ·)

/-- `re.fullmatch("[class]{m,n}", t)`. -/
def fullmatchClass (inClass : Char → Bool) (r : Repeat) (t : Text) : Bool :=
  r.allows t.length && t.all inClass

/-- `re.match("^[class]{m,n}$", t)`. -/
def matchClass (inClass : Char → Bool) (r : Repeat) (t : Text) : Bool :=
  fullmatchClass inClass r t ||
    (t.getLast? == some '\n' && fullmatchClass inClass r t.dropLast)

theorem fullmatchClass_iff {inClass : Char → Bool} {r : Repeat} {t : Text} :
    fullmatchClass inClass r t = true ↔
      r.allows t.length = true ∧ ∀ c ∈ t, inClass c = true := by
  simp [fullmatchClass]

theorem matchClass_iff {inClass : Char → Bool} {r : Repeat} {t : Text} :
    matchClass inClass r t = true ↔
      ∃ body, fullmatchClass inClass r body = true ∧ (t = body ∨ t = body ++ ['\n']) := by
  rw [matchClass, Bool.or_eq_true, Bool.and_eq_true]
  constructor
  · rintro (h | ⟨hlast, h⟩)
    · exact ⟨t, h, Or.inl rfl⟩
    · refine ⟨t.dropLast, h, Or.inr ?_⟩
      obtain ⟨body, rfl⟩ := List.getLast?_eq_some_iff.mp (by simpa using hlast)
      rw [List.dropLast_concat]
  · rintro ⟨body, h, rfl | rfl⟩
    · exact Or.inl h
    · right
      rw [List.getLast?_concat, List.dropLast_concat]
      exact ⟨by simp, h⟩

/-- A text without a final newline is read alike by both. -/
theorem matchClass_eq_fullmatchClass {inClass : Char → Bool} {r : Repeat} {t : Text}
    (h : t.getLast? ≠ some '\n') :
    matchClass inClass r t = fullmatchClass inClass r t := by
  have hlast : (t.getLast? == some '\n') = false := by simpa using h
  simp [matchClass, hlast]

/-- ASCII letters and digits together with a few further characters. -/
def alnumOr (extra : List Char) (c : Char) : Bool := c.isAlphanum || extra.contains c

end OpenWrtCopilot.Verified.PyPattern
