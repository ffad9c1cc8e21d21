import OpenWrtCopilot.Verified.PySplit
import Mathlib.Data.List.Forall2

/-!
# Text files and basic regular expressions

A text file as the lines between its newlines, the fields of a line between
blanks, and the basic regular expressions without brackets, repetitions, anchors
and groups: what `grep` finds with them and what `sed` deletes.

## Main results

* `segments_join` — a file is given by what stands between its newlines.
* `fields_append_blank` — a blank separates fields.
-/

namespace OpenWrtCopilot.Verified.PosixFiles

open Verified.PyText

/-! ## Lines -/

/-- What stands between the newlines; after the last one, possibly nothing. -/
def segments (file : Text) : List Text := file.splitOn '\n'

theorem segments_ne_nil (file : Text) : segments file ≠ [] :=
  List.splitOnP_ne_nil _ file

theorem join_segments (file : Text) : join ['\n'] (segments file) = file :=
  List.intercalate_splitOn '\n'

/-- **A file is given by what stands between its newlines.** -/
theorem segments_join {parts : List Text} (hparts : ∀ part ∈ parts, '\n' ∉ part)
    (hne : parts ≠ []) : segments (join ['\n'] parts) = parts :=
  List.splitOn_intercalate '\n' hparts hne

theorem newline_notMem_segments {file part : Text} (h : part ∈ segments file) : '\n' ∉ part := by
  rw [segments, List.splitOn_eq_splitOnP, ← PySplit.splitOn_eq_splitOnP] at h
  exact PySplit.notMem_splitFrom List.not_mem_nil h

/-- What stands before the last newline, line by line, and what comes after it. -/
theorem exists_segments (file : Text) :
    ∃ complete rest, segments file = complete ++ [rest] ∧
      (∀ part ∈ complete ++ [rest], '\n' ∉ part) ∧ file = join ['\n'] (complete ++ [rest]) := by
  obtain ⟨complete, rest, hsegments⟩ : ∃ complete rest, segments file = complete ++ [rest] :=
    ⟨_, _, (List.dropLast_append_getLast (segments_ne_nil file)).symm⟩
  refine ⟨complete, rest, hsegments, fun part hpart => ?_, ?_⟩
  · exact newline_notMem_segments (hsegments ▸ hpart)
  · rw [← hsegments, join_segments]

/-- What is appended to a file continues its last segment. -/
theorem join_concat_append (sep : Text) (parts : List Text) (last more : Text) :
    join sep (parts ++ [last]) ++ more = join sep (parts ++ [last ++ more]) := by
  induction parts with
  | nil => rw [List.nil_append, List.nil_append, join_singleton, join_singleton]
  | cons part parts ih =>
    rw [List.cons_append, List.cons_append, join_cons_of_ne_nil _ _ (by simp),
      join_cons_of_ne_nil _ _ (by simp), List.append_assoc, ih]

theorem join_concat_sep (sep : Text) (parts : List Text) (last : Text) :
    join sep (parts ++ [last, []]) = join sep (parts ++ [last ++ sep]) := by
  induction parts with
  | nil =>
    rw [List.nil_append, List.nil_append, join_cons_of_ne_nil _ _ (List.cons_ne_nil _ _),
      join_singleton, join_singleton, List.append_nil]
  | cons part parts ih =>
    rw [List.cons_append, List.cons_append, join_cons_of_ne_nil _ _ (by simp),
      join_cons_of_ne_nil _ _ (by simp), ih]

/-- A file to which a line is appended. -/
theorem segments_append_line {file rest line : Text} {complete : List Text}
    (hfile : segments file = complete ++ [rest]) (hline : '\n' ∉ line) :
    segments (file ++ (line ++ ['\n'])) = complete ++ [rest ++ line, []] := by
  have hold : ∀ part ∈ complete ++ [rest], '\n' ∉ part :=
    fun part hpart => newline_notMem_segments (hfile ▸ hpart)
  have hparts : ∀ part ∈ complete ++ [rest ++ line, []], '\n' ∉ part := by
    intro part hpart
    rcases List.mem_append.mp hpart with hpart | hpart
    · exact hold part (List.mem_append_left _ hpart)
    · rcases List.mem_cons.mp hpart with rfl | hpart
      · rw [List.mem_append, not_or]
        exact ⟨hold rest (List.mem_append_right _ (List.mem_singleton_self rest)), hline⟩
      · rw [List.mem_singleton.mp hpart]
        exact List.not_mem_nil
  have hjoin : file ++ (line ++ ['\n']) = join ['\n'] (complete ++ [rest ++ line, []]) := by
    rw [join_concat_sep, List.append_assoc, ← join_concat_append, ← hfile, join_segments]
  rw [hjoin, segments_join hparts (by simp)]

/-! ## Fields -/

/-- What separates the fields of a line; a newline ends it. -/
def isBlank (c : Char) : Bool := c = ' ' || c = '\t' || c = '\n'

/-- The fields between blanks. -/
def fields (line : Text) : List Text := (line.splitOnP isBlank).filter (· ≠ [])

/-- Not empty and without blanks. -/
structure Field (t : Text) : Prop where
  nonempty : t ≠ []
  noBlank : ∀ c ∈ t, isBlank c = false

/-- **A blank separates fields.** -/
theorem fields_append_blank {c : Char} (hc : isBlank c = true) (a b : Text) :
    fields (a ++ c :: b) = fields a ++ fields b := by
  rw [fields, List.splitOnP_append_cons a b hc, List.filter_append]
  rfl

theorem fields_field {t : Text} (h : Field t) : fields t = [t] := by
  rw [fields, List.splitOnP_eq_singleton h.noBlank, List.filter_cons_of_pos (by simpa using h.nonempty)]
  rfl

theorem fields_nil : fields [] = [] := rfl

theorem fields_blanks_append {a : Text} (h : ∀ c ∈ a, isBlank c = true) (b : Text) :
    fields (a ++ b) = fields b := by
  induction a with
  | nil => rfl
  | cons c a ih =>
    rw [List.cons_append, ← List.nil_append (c :: (a ++ b)),
      fields_append_blank (h c List.mem_cons_self), fields_nil, List.nil_append,
      ih fun d hd => h d (List.mem_cons_of_mem c hd)]

/-- A line ends with a run of characters without blanks, after a blank if after
anything. -/
theorem exists_last_run (line : Text) :
    ∃ before run, line = before ++ run ∧ (∀ c ∈ run, isBlank c = false) ∧
      ∀ more, fields (before ++ more) = fields before ++ fields more := by
  induction line using List.reverseRecOn with
  | nil => exact ⟨[], [], rfl, nofun, fun more => rfl⟩
  | append_singleton line c ih =>
    by_cases hc : isBlank c = true
    · refine ⟨line ++ [c], [], (List.append_nil _).symm, nofun, fun more => ?_⟩
      rw [List.append_assoc, List.singleton_append, fields_append_blank hc,
        fields_append_blank hc, fields_nil, List.append_nil]
    · obtain ⟨before, run, rfl, hrun, hbefore⟩ := ih
      refine ⟨before, run ++ [c], List.append_assoc _ _ _, fun d hd => ?_, hbefore⟩
      rcases List.mem_append.mp hd with hd | hd
      · exact hrun d hd
      · rw [List.mem_singleton.mp hd]
        exact Bool.eq_false_iff.mpr hc

/-- Where there is more than blanks there is a field. -/
theorem blank_of_fields_eq_nil {line : Text} (h : fields line = []) :
    ∀ c ∈ line, isBlank c = true := by
  induction line with
  | nil => nofun
  | cons c line ih =>
    have hc : isBlank c = true := by
      by_contra hc
      obtain ⟨head, others, hline⟩ := List.exists_cons_of_ne_nil
        (List.splitOnP_ne_nil isBlank line)
      rw [fields, List.splitOnP_cons_eq_if_modifyHead, if_neg hc, hline, List.modifyHead_cons,
        List.filter_cons_of_pos (by simp)] at h
      cases h
    rw [← List.nil_append (c :: line), fields_append_blank hc, fields_nil,
      List.nil_append] at h
    rw [List.forall_mem_cons]
    exact ⟨hc, ih h⟩

/-- What is split off stands in the line. -/
theorem infix_of_mem_splitOnP {p : Char → Bool} {line part : Text} (h : part ∈ line.splitOnP p) :
    part <:+: line := by
  have hsplit : ∀ first rest, line.splitOnP p = first :: rest →
      first <+: line ∧ ∀ other ∈ rest, other <:+: line := by
    clear h
    induction line with
    | nil =>
      intro first rest h
      rw [List.splitOnP_nil] at h
      obtain ⟨rfl, rfl⟩ := List.cons.inj h
      exact ⟨List.prefix_rfl, nofun⟩
    | cons c line ih =>
      intro first rest h
      obtain ⟨head, others, hline⟩ := List.exists_cons_of_ne_nil (List.splitOnP_ne_nil p line)
      obtain ⟨hhead, hothers⟩ := ih head others hline
      have hlater : ∀ other, other <:+: line → other <:+: c :: line :=
        fun other hother => hother.trans (List.suffix_cons c line).isInfix
      rw [List.splitOnP_cons_eq_if_modifyHead, hline, List.modifyHead_cons] at h
      split at h
      · obtain ⟨rfl, rfl⟩ := List.cons.inj h
        refine ⟨List.nil_prefix, fun other hother => hlater other ?_⟩
        rcases List.mem_cons.mp hother with rfl | hother
        · exact hhead.isInfix
        · exact hothers other hother
      · obtain ⟨rfl, rfl⟩ := List.cons.inj h
        exact ⟨List.cons_prefix_cons.mpr ⟨rfl, hhead⟩,
          fun other hother => hlater other (hothers other hother)⟩
  obtain ⟨first, rest, hline⟩ := List.exists_cons_of_ne_nil (List.splitOnP_ne_nil p line)
  obtain ⟨hfirst, hrest⟩ := hsplit first rest hline
  rw [hline] at h
  rcases List.mem_cons.mp h with rfl | h
  · exact hfirst.isInfix
  · exact hrest part h

theorem infix_of_mem_fields {line t : Text} (h : t ∈ fields line) : t <:+: line :=
  infix_of_mem_splitOnP (List.mem_filter.mp h).1

theorem field_of_mem_fields {line t : Text} (h : t ∈ fields line) : Field t := by
  obtain ⟨hsplit, hne⟩ := List.mem_filter.mp h
  refine ⟨of_decide_eq_true hne, ?_⟩
  have hpieces : ∀ {line : Text}, ∀ part ∈ line.splitOnP isBlank, ∀ c ∈ part,
      isBlank c = false := by
    intro line
    induction line with
    | nil =>
      intro part hpart
      rw [List.splitOnP_nil] at hpart
      rw [List.mem_singleton.mp hpart]
      nofun
    | cons c line ih =>
      obtain ⟨head, others, hline⟩ := List.exists_cons_of_ne_nil
        (List.splitOnP_ne_nil isBlank line)
      rw [List.splitOnP_cons_eq_if_modifyHead, hline, List.modifyHead_cons]
      rw [hline, List.forall_mem_cons] at ih
      split
      · rw [List.forall_mem_cons, List.forall_mem_cons]
        exact ⟨nofun, ih⟩
      · rename_i hc
        rw [List.forall_mem_cons, List.forall_mem_cons]
        exact ⟨⟨Bool.eq_false_iff.mpr hc, ih.1⟩, ih.2⟩
  exact hpieces t hsplit

/-! ## Basic regular expressions -/

/-- A pattern for one character. -/
inductive Atom
  | char (c : Char)
  | any
  deriving DecidableEq

def Atom.accepts : Atom → Char → Bool
  | .char c, d => c = d
  | .any, _ => true

/-- The characters a backslash turns into operators, or into what the standard
leaves open. -/
def isEscapeOperator (c : Char) : Bool := c.isAlphanum || "(){}|+?<>`'".toList.contains c

/-- The basic regular expressions without brackets, repetitions, anchors and
groups. Other escaped characters stand for themselves. -/
def pattern : Text → Option (List Atom)
  | [] => some []
  | c :: rest =>
      if c = '\\' then
        match rest with
        | [] => none
        | d :: rest =>
            if isEscapeOperator d then none else (pattern rest).map (.char d :: ·)
      else if "[*^$".toList.contains c then none
      else (pattern rest).map ((if c = '.' then .any else .char c) :: ·)

theorem pattern_cons {c : Char} (hback : c ≠ '\\') (hplain : "[*^$".toList.contains c = false)
    (rest : Text) :
    pattern (c :: rest) = (pattern rest).map ((if c = '.' then .any else .char c) :: ·) := by
  conv_lhs => rw [pattern.eq_def]
  simp only [if_neg hback, hplain, Bool.false_eq_true, if_false]

theorem pattern_escaped {c : Char} (h : isEscapeOperator c = false) (rest : Text) :
    pattern ('\\' :: c :: rest) = (pattern rest).map (.char c :: ·) := by
  conv_lhs => rw [pattern.eq_def]
  simp only [if_true, h, Bool.false_eq_true, if_false]

def matchesPrefix : List Atom → Text → Bool
  | [], _ => true
  | _ :: _, [] => false
  | a :: atoms, c :: t => a.accepts c && matchesPrefix atoms t

/-- The pattern is found somewhere in the line. -/
def found (atoms : List Atom) (line : Text) : Bool := line.tails.any (matchesPrefix atoms)

/-- Character by character, the text is one the pattern accepts. -/
theorem matchesPrefix_iff {atoms : List Atom} {t : Text} :
    matchesPrefix atoms t = true ↔
      ∃ u, u <+: t ∧ List.Forall₂ (fun a c => a.accepts c = true) atoms u := by
  induction atoms generalizing t with
  | nil => exact ⟨fun _ => ⟨[], List.nil_prefix, .nil⟩, fun _ => rfl⟩
  | cons a atoms ih =>
    cases t with
    | nil =>
      refine ⟨nofun, ?_⟩
      rintro ⟨u, hu, hall⟩
      obtain rfl := List.prefix_nil.mp hu
      cases hall
    | cons c t =>
      rw [matchesPrefix, Bool.and_eq_true, ih]
      constructor
      · rintro ⟨hc, u, hu, hall⟩
        exact ⟨c :: u, List.cons_prefix_cons.mpr ⟨rfl, hu⟩, .cons hc hall⟩
      · rintro ⟨u, hu, hall⟩
        cases hall with
        | cons hc hall =>
          obtain ⟨rfl, htail⟩ := List.cons_prefix_cons.mp hu
          exact ⟨hc, _, htail, hall⟩

/-- **A pattern is found where a factor of the line is accepted.** -/
theorem found_iff {atoms : List Atom} {line : Text} :
    found atoms line = true ↔
      ∃ u, u <:+: line ∧ List.Forall₂ (fun a c => a.accepts c = true) atoms u := by
  rw [found, List.any_eq_true]
  constructor
  · rintro ⟨t, ht, hmatch⟩
    obtain ⟨u, hu, hall⟩ := matchesPrefix_iff.mp hmatch
    exact ⟨u, hu.isInfix.trans ((List.mem_tails _ _).mp ht).isInfix, hall⟩
  · rintro ⟨u, hu, hall⟩
    obtain ⟨t, hut, ht⟩ := List.infix_iff_prefix_suffix.mp hu
    exact ⟨t, (List.mem_tails _ _).mpr ht, matchesPrefix_iff.mpr ⟨u, hut, hall⟩⟩

theorem forall₂_char_iff {t u : Text} :
    List.Forall₂ (fun a c => Atom.accepts a c = true) (t.map .char) u ↔ u = t := by
  induction t generalizing u with
  | nil =>
    constructor
    · rintro ⟨⟩
      rfl
    · rintro rfl
      exact .nil
  | cons c t ih =>
    rw [List.map_cons]
    constructor
    · rintro (_ | ⟨hc, hall⟩)
      rw [ih.mp hall, ← of_decide_eq_true hc]
    · rintro rfl
      exact .cons (decide_eq_true rfl) (ih.mpr rfl)

/-- Literal characters are found as a factor. -/
theorem found_char_iff {t line : Text} : found (t.map .char) line = true ↔ t <:+: line := by
  rw [found_iff]
  constructor
  · rintro ⟨u, hu, hall⟩
    rwa [forall₂_char_iff.mp hall] at hu
  · intro h
    exact ⟨t, h, forall₂_char_iff.mpr rfl⟩

/-! ## `grep` and `sed` -/

/-- The lines of a file; an unterminated last line is one. -/
def lines (file : Text) : List Text :=
  (segments file).dropLast ++ (segments file).getLast?.toList.filter (· ≠ [])

/-- `grep -q` finds the pattern in a line. -/
def grep (atoms : List Atom) (file : Text) : Bool := (lines file).any (found atoms)

/-- `sed` deletes the lines in which the pattern is found. -/
def deleteLines (atoms : List Atom) (file : Text) : Text :=
  join ['\n']
    ((segments file).dropLast.filter (fun line => !found atoms line) ++
      (segments file).getLast?.toList.map fun line => if found atoms line then [] else line)

/-- What stands before an unescaped slash, and what after it. -/
def readAddress : Text → Option (Text × Text)
  | [] => none
  | c :: rest =>
      if c = '\\' then
        match rest with
        | [] => none
        | d :: rest => (readAddress rest).map fun read => ('\\' :: d :: read.1, read.2)
      else if c = '/' then some ([], rest)
      else (readAddress rest).map fun read => (c :: read.1, read.2)

theorem readAddress_cons {c : Char} (hback : c ≠ '\\') (hslash : c ≠ '/') (rest : Text) :
    readAddress (c :: rest) = (readAddress rest).map fun read => (c :: read.1, read.2) := by
  conv_lhs => rw [readAddress.eq_def]
  simp only [if_neg hback, if_neg hslash]

theorem readAddress_slash (rest : Text) : readAddress ('/' :: rest) = some ([], rest) := by
  conv_lhs => rw [readAddress.eq_def]
  simp only [if_true, show '/' ≠ '\\' by decide, if_false]

theorem readAddress_escaped (c : Char) (rest : Text) :
    readAddress ('\\' :: c :: rest) =
      (readAddress rest).map fun read => ('\\' :: c :: read.1, read.2) := by
  conv_lhs => rw [readAddress.eq_def]
  simp only [if_true]

/-- The pattern of the `sed` script `/pattern/d`. -/
def deleteScript (script : Text) : Option Text :=
  match script with
  | '/' :: rest =>
      match readAddress rest with
      | some (address, ['d']) => some address
      | _ => none
  | _ => none

/-! ## The lines after each -/

theorem lines_eq {file rest : Text} {complete : List Text}
    (h : segments file = complete ++ [rest]) :
    lines file = complete ++ [rest].filter (· ≠ []) := by
  rw [lines, h, List.dropLast_concat, List.getLast?_concat]
  rfl

/-- The segments that are no lines are empty. -/
theorem forall_lines_iff {P : Text → Prop} (hempty : P []) (file : Text) :
    (∀ line ∈ lines file, P line) ↔ ∀ part ∈ segments file, P part := by
  obtain ⟨complete, rest, hsegments, _⟩ := exists_segments file
  rw [lines_eq hsegments, hsegments, List.forall_mem_append, List.forall_mem_append]
  refine and_congr_right fun _ => ?_
  by_cases hrest : rest = []
  · rw [hrest]
    exact ⟨fun _ part hpart => List.mem_singleton.mp hpart ▸ hempty, fun _ _ h => by cases h⟩
  · rw [List.filter_cons_of_pos (by simpa using hrest), List.filter_nil]

theorem flatMap_lines {β : Type} {f : Text → List β} (hempty : f [] = []) (file : Text) :
    (lines file).flatMap f = (segments file).flatMap f := by
  obtain ⟨complete, rest, hsegments, _⟩ := exists_segments file
  rw [lines_eq hsegments, hsegments, List.flatMap_append, List.flatMap_append]
  by_cases hrest : rest = []
  · rw [hrest, List.flatMap_singleton, hempty]
    rfl
  · rw [List.filter_cons_of_pos (by simpa using hrest), List.filter_nil]

theorem flatMap_deleteLines {β : Type} {f : Text → List β} (hempty : f [] = [])
    (atoms : List Atom) (file : Text) :
    (lines (deleteLines atoms file)).flatMap f =
      ((segments file).filter fun line => !found atoms line).flatMap f := by
  obtain ⟨complete, rest, hsegments, hparts, _⟩ := exists_segments file
  have hkept : segments (deleteLines atoms file) =
      complete.filter (fun line => !found atoms line) ++
        [if found atoms rest then [] else rest] := by
    rw [deleteLines, hsegments, List.dropLast_concat, List.getLast?_concat]
    refine segments_join (fun part hpart => ?_) (by simp)
    rcases List.mem_append.mp hpart with hpart | hpart
    · exact hparts part (List.mem_append_left _ (List.mem_filter.mp hpart).1)
    · rw [List.mem_singleton.mp hpart]
      show '\n' ∉ (if found atoms rest then [] else rest)
      split
      · exact List.not_mem_nil
      · exact hparts rest (List.mem_append_right _ (List.mem_singleton_self rest))
  rw [flatMap_lines hempty, hkept, hsegments, List.filter_append, List.flatMap_append,
    List.flatMap_append, List.flatMap_singleton]
  by_cases hfound : found atoms rest = true
  · rw [if_pos hfound, hempty, List.filter_cons_of_neg (by simp [hfound]), List.filter_nil]
    rfl
  · rw [if_neg hfound, List.filter_cons_of_pos (by simp [hfound]), List.filter_nil,
      List.flatMap_singleton]

end OpenWrtCopilot.Verified.PosixFiles
