import OpenWrtCopilot.Verified.PyLines
import OpenWrtCopilot.Verified.PySplit
import Mathlib.Data.List.Forall2

/-!
# `fnmatch`

A pattern is read into tokens, each of which takes a part of the name: a star any part, the others
one character.  Where the name and the pattern have separators, a star or a set may take a
separator of the name, but a separator of the pattern takes one of the name.

## Main results

* `match_cons_iff` — the first token takes the first part.
* `match_iff_parts` — what stands between separators of the pattern takes parts between
  separators of the name.
* `match_iff_groups` — these parts are groups of fields of the name.
-/

namespace OpenWrtCopilot.Verified.PyFnmatch

open Verified.PySplit (splitOn)
open Verified.PyText

/-! ## Patterns -/

inductive Token
  | star
  | any
  | set (negated : Bool) (stuff : Text)
  | char (c : Char)
  deriving DecidableEq

/-- A set is read up to a bracket that does not stand first: whether it is negated, what is in it,
and how long it is. -/
def readSet (t : Text) : Option (Bool × Text × Nat) :=
  let negated := t.head? = some '!'
  let items := if negated then t.drop 1 else t
  let start := if items.head? = some ']' then 1 else 0
  let stuff := items.take start ++ (items.drop start).takeWhile (· ≠ ']')
  if stuff.length < items.length then
    some (negated, stuff, (if negated then 1 else 0) + stuff.length + 1)
  else none

/-- The tokens of a pattern; `skip` characters belong to a set that was read. -/
def tokensFrom : Nat → Text → List Token
  | _, [] => []
  | skip + 1, _ :: rest => tokensFrom skip rest
  | 0, c :: rest =>
      if c = '*' then .star :: tokensFrom 0 rest
      else if c = '?' then .any :: tokensFrom 0 rest
      else if c = '[' then
        match readSet rest with
        | some (negated, stuff, length) => .set negated stuff :: tokensFrom length rest
        | none => .char c :: tokensFrom 0 rest
      else .char c :: tokensFrom 0 rest

def tokens (pattern : Text) : List Token := tokensFrom 0 pattern

/-- The characters and the ranges of a set; a range whose ends are not in order has none. -/
def inSet (c : Char) : Text → Bool
  | first :: '-' :: last :: rest => (first ≤ c && c ≤ last) || inSet c rest
  | d :: rest => c = d || inSet c rest
  | [] => false

/-- The token takes this character. -/
def Token.accepts : Token → Char → Bool
  | .star, _ => true
  | .any, _ => true
  | .set negated stuff, c => inSet c stuff != negated
  | .char d, c => c = d

/-- The pattern takes the whole name. -/
def matchTokens : List Token → Text → Bool
  | [], t => t.isEmpty
  | .star :: rest, t => t.tails.any (matchTokens rest)
  | _ :: _, [] => false
  | token :: rest, c :: t => token.accepts c && matchTokens rest t

/-- `fnmatch.fnmatch(name, pattern)`. -/
def fnmatch (name pattern : Text) : Bool := matchTokens (tokens pattern) name

/-! ## Token by token -/

/-- What a token takes: a star any text, another token one character. -/
def Token.Takes : Token → Text → Prop
  | .star, _ => True
  | token, t => ∃ c, t = [c] ∧ token.accepts c = true

theorem matchTokens_nil_iff {t : Text} : matchTokens [] t = true ↔ t = [] := List.isEmpty_iff

/-- The first token takes the first part. -/
theorem match_cons_iff {token : Token} {rest : List Token} {t : Text} :
    matchTokens (token :: rest) t = true ↔
      ∃ first later, t = first ++ later ∧ token.Takes first ∧ matchTokens rest later = true := by
  have hsingle : ∀ single : Token, single ≠ .star →
      (∀ c later, matchTokens (single :: rest) (c :: later) =
        (single.accepts c && matchTokens rest later)) →
      matchTokens (single :: rest) [] = false →
      (∀ first, single.Takes first ↔ ∃ c, first = [c] ∧ single.accepts c = true) →
      (matchTokens (single :: rest) t = true ↔ ∃ first later, t = first ++ later ∧
        single.Takes first ∧ matchTokens rest later = true) := by
    intro single _ hcons hnil htakes
    simp only [htakes]
    cases t with
    | nil =>
      rw [hnil]
      refine iff_of_false Bool.false_ne_true ?_
      rintro ⟨first, later, h, ⟨c, rfl, _⟩, _⟩
      cases h
    | cons c t =>
      rw [hcons, Bool.and_eq_true]
      constructor
      · intro ⟨haccepts, hrest⟩
        exact ⟨[c], t, rfl, ⟨c, rfl, haccepts⟩, hrest⟩
      · rintro ⟨first, later, h, ⟨d, rfl, haccepts⟩, hrest⟩
        obtain ⟨rfl, rfl⟩ := List.cons.inj h
        exact ⟨haccepts, hrest⟩
  cases token with
  | star =>
    rw [matchTokens, List.any_eq_true]
    constructor
    · intro ⟨later, hlater, hrest⟩
      obtain ⟨first, rfl⟩ := (List.mem_tails _ _).mp hlater
      exact ⟨first, later, rfl, trivial, hrest⟩
    · rintro ⟨first, later, rfl, -, hrest⟩
      exact ⟨later, (List.mem_tails _ _).mpr (List.suffix_append first later), hrest⟩
  | any => exact hsingle .any nofun (fun _ _ => rfl) rfl fun _ => Iff.rfl
  | set negated stuff => exact hsingle (.set negated stuff) nofun (fun _ _ => rfl) rfl fun _ => Iff.rfl
  | char c => exact hsingle (.char c) nofun (fun _ _ => rfl) rfl fun _ => Iff.rfl

/-! ## Separators -/

section Separators

variable {q : Char}

theorem join_append_head (first part : Text) (parts : List Text) :
    first ++ join [q] (part :: parts) = join [q] ((first ++ part) :: parts) := by
  by_cases hne : parts = []
  · rw [hne, join_singleton, join_singleton]
  · rw [join_cons_of_ne_nil _ _ hne, join_cons_of_ne_nil _ _ hne, List.append_assoc,
      List.append_assoc, List.append_assoc]

theorem splitOn_ne_nil (t : Text) : splitOn [q] t ≠ [] := by
  rw [PySplit.splitOn_eq_splitOnP]
  exact List.splitOnP_ne_nil _ t

/-- The fields of joined parts are those of the parts. -/
theorem splitOn_join_parts {parts : List Text} (hne : parts ≠ []) :
    (parts.map (splitOn [q])).flatten = splitOn [q] (join [q] parts) := by
  induction parts with
  | nil => exact absurd rfl hne
  | cons part parts ih =>
    by_cases hnil : parts = []
    · rw [hnil, join_singleton, List.map_singleton, List.flatten_singleton]
    · rw [List.map_cons, List.flatten_cons, ih hnil, join_cons_of_ne_nil _ _ hnil,
        List.append_assoc, PySplit.splitOn_eq_splitOnP, PySplit.splitOn_eq_splitOnP,
        PySplit.splitOn_eq_splitOnP]
      exact (List.splitOnP_append_cons (p := (· == q)) part _ (beq_self_eq_true q)).symm

theorem join_map_join {groups : List (List Text)} (h : ∀ group ∈ groups, group ≠ []) :
    join [q] (groups.map (join [q])) = join [q] groups.flatten := by
  induction groups with
  | nil => rfl
  | cons group groups ih =>
    obtain ⟨hgroup, hgroups⟩ := List.forall_mem_cons.mp h
    by_cases hnil : groups = []
    · rw [hnil, List.map_singleton, join_singleton, List.flatten_singleton]
    · have hrest : groups.flatten ≠ [] := by
        obtain ⟨first, rest, rfl⟩ := List.exists_cons_of_ne_nil hnil
        exact List.append_ne_nil_of_left_ne_nil (hgroups first List.mem_cons_self) _
      have hmap : groups.map (join [q]) ≠ [] := fun h => hnil (List.map_eq_nil_iff.mp h)
      rw [List.map_cons, join_cons_of_ne_nil _ _ hmap, ih hgroups, List.flatten_cons,
        join_append _ hgroup hrest]

/-- **What stands between separators of the pattern takes parts of the name with separators
between them.** -/
theorem match_iff_parts (q : Char) (pattern : List Token) (t : Text) :
    matchTokens pattern t = true ↔
      ∃ parts, join [q] parts = t ∧
        List.Forall₂ (fun piece part => matchTokens piece part = true)
          (pattern.splitOnP (· == .char q)) parts := by
  induction pattern generalizing t with
  | nil =>
    rw [matchTokens_nil_iff, List.splitOnP_nil]
    constructor
    · rintro rfl
      exact ⟨[[]], rfl, List.Forall₂.cons rfl List.Forall₂.nil⟩
    · rintro ⟨parts, rfl, hparts⟩
      obtain ⟨part, rest, hpart, hrest, rfl⟩ := List.forall₂_cons_left_iff.mp hparts
      rw [List.forall₂_nil_left_iff.mp hrest, join_singleton]
      exact matchTokens_nil_iff.mp hpart
  | cons token rest ih =>
    rw [match_cons_iff, List.splitOnP_cons_eq_if_modifyHead]
    simp only [ih]
    obtain ⟨piece, pieces, hpieces⟩ :=
      List.exists_cons_of_ne_nil (List.splitOnP_ne_nil (· == Token.char q) rest)
    rw [hpieces]
    by_cases htoken : token = .char q
    · -- the separator of the pattern takes one of the name
      rw [if_pos (by simpa using htoken), htoken]
      constructor
      · rintro ⟨first, later, rfl, ⟨c, rfl, hc⟩, parts, rfl, hparts⟩
        obtain ⟨part, parts, -, -, rfl⟩ := List.forall₂_cons_left_iff.mp hparts
        refine ⟨[] :: part :: parts, ?_, List.Forall₂.cons rfl hparts⟩
        rw [join_cons_of_ne_nil _ _ (List.cons_ne_nil _ _), of_decide_eq_true hc]
        rfl
      · rintro ⟨parts, rfl, hparts⟩
        obtain ⟨part, parts, hpart, hrest, rfl⟩ := List.forall₂_cons_left_iff.mp hparts
        have hne : parts ≠ [] := by
          rintro rfl
          exact List.cons_ne_nil _ _ (List.forall₂_nil_right_iff.mp hrest)
        refine ⟨[q], join [q] parts, ?_, ⟨q, rfl, decide_eq_true rfl⟩, parts, rfl, hrest⟩
        rw [matchTokens_nil_iff.mp hpart, join_cons_of_ne_nil _ _ hne, List.nil_append]
    · rw [if_neg (by simpa using htoken), List.modifyHead_cons]
      constructor
      · rintro ⟨first, later, rfl, htakes, parts, rfl, hparts⟩
        obtain ⟨part, parts, hpart, hrest, rfl⟩ := List.forall₂_cons_left_iff.mp hparts
        refine ⟨(first ++ part) :: parts, ?_, List.Forall₂.cons ?_ hrest⟩
        · exact (join_append_head first part parts).symm
        · exact match_cons_iff.mpr ⟨first, part, rfl, htakes, hpart⟩
      · rintro ⟨parts, rfl, hparts⟩
        obtain ⟨part, parts, hpart, hrest, rfl⟩ := List.forall₂_cons_left_iff.mp hparts
        obtain ⟨first, later, rfl, htakes, hlater⟩ := match_cons_iff.mp hpart
        exact ⟨first, join [q] (later :: parts), (join_append_head first later parts).symm, htakes,
          later :: parts, rfl, List.Forall₂.cons hlater hrest⟩

/-- The parts are groups of fields. -/
theorem match_iff_groups (q : Char) (pattern : List Token) (t : Text) :
    matchTokens pattern t = true ↔
      ∃ groups : List (List Text), groups.flatten = splitOn [q] t ∧ (∀ group ∈ groups, group ≠ []) ∧
        List.Forall₂ (fun piece group => matchTokens piece (join [q] group) = true)
          (pattern.splitOnP (· == .char q)) groups := by
  have hne : pattern.splitOnP (· == .char q) ≠ [] := List.splitOnP_ne_nil _ _
  rw [match_iff_parts q]
  constructor
  · rintro ⟨parts, rfl, hparts⟩
    refine ⟨parts.map (splitOn [q]), ?_, fun group hgroup => ?_, ?_⟩
    · rw [splitOn_join_parts (by rintro rfl; exact hne (List.forall₂_nil_right_iff.mp hparts))]
    · obtain ⟨part, -, rfl⟩ := List.mem_map.mp hgroup
      exact splitOn_ne_nil part
    · rw [List.forall₂_map_right_iff]
      refine hparts.imp fun piece part hpart => ?_
      rwa [PySplit.join_splitOn (List.cons_ne_nil q [])]
  · rintro ⟨groups, hflatten, hnonempty, hgroups⟩
    refine ⟨groups.map (join [q]), ?_, List.forall₂_map_right_iff.mpr hgroups⟩
    rw [join_map_join hnonempty, hflatten, PySplit.join_splitOn (List.cons_ne_nil q [])]

end Separators

end OpenWrtCopilot.Verified.PyFnmatch
