import OpenWrtCopilot.Verified.PyDict
import OpenWrtCopilot.Verified.PyText

/-!
# Output divided by markers

One remote command can gather several reports at once, each announced by a
marker line with a prefix of its own.  `divert` tells the lines of such an
output apart: a marker begins a part or ends the last one, blank lines and
unknown markers are dropped, and every other line is stripped.

## Main results

* `divert_gathered` — the lines of an output that is written part by part.
* `partLines_segments` — the lines of one of its parts.
-/

namespace OpenWrtCopilot.Verified.MarkedOutput

open Verified.PyText
open Verified.PyDict

variable {ρ : Type}

/-- The lines of an output with the part each belongs to. A line that starts
with `pre` is a marker: one of `markers` begins a part or ends the last one. -/
def divert (pre : Text) (markers : Dict Text (Option ρ)) :
    Option ρ → List Text → List (ρ × Text)
  | _, [] => []
  | state, line :: lines =>
      let stripped := strip line
      if stripped = [] then divert pre markers state lines
      else if startsWith pre stripped then
        divert pre markers ((get? stripped markers).getD state) lines
      else
        match state with
        | some part => (part, stripped) :: divert pre markers state lines
        | none => divert pre markers state lines

theorem divert_cons (pre : Text) (markers : Dict Text (Option ρ)) (state : Option ρ)
    (line : Text) (lines : List Text) :
    divert pre markers state (line :: lines) =
      if strip line = [] then divert pre markers state lines
      else if startsWith pre (strip line) then
        divert pre markers ((get? (strip line) markers).getD state) lines
      else
        match state with
        | some part => (part, strip line) :: divert pre markers state lines
        | none => divert pre markers state lines := by
  cases state <;> rfl

/-- The lines of one part. -/
def partLines [DecidableEq ρ] (part : ρ) (lines : List (ρ × Text)) : List Text :=
  lines.filterMap fun (p, line) => if p = part then some line else none

/-! ## Output written part by part -/

/-- Lines of a command's own output, none of which reads as a marker. -/
structure Report (pre : Text) where
  lines : List Text
  singleLine : ∀ line ∈ lines, SingleLine line
  unmarked : ∀ line ∈ lines, startsWith pre (strip line) = false

/-- A report without lines. -/
def Report.empty (pre : Text) : Report pre :=
  ⟨[], fun _ h => absurd h List.not_mem_nil, fun _ h => absurd h List.not_mem_nil⟩

/-- A part of an output: a report, and the marker that announces it. -/
structure Segment (pre : Text) (ρ : Type) where
  marker : Text
  part : ρ
  report : Report pre

variable {pre : Text}

def Segment.lines (s : Segment pre ρ) : List Text := s.marker :: s.report.lines

/-- The text of an output, up to its last marker. -/
def gathered (segments : List (Segment pre ρ)) (done : Text) : Text :=
  unlines (segments.flatMap Segment.lines ++ [done])

/-- What is left of the lines of a part. -/
def cleaned (body : List Text) : List Text := (body.map strip).filter (· ≠ [])

/-- The marker is one of `markers`, and leads to `next`. -/
structure Announces (pre : Text) (markers : Dict Text (Option ρ)) (marker : Text)
    (next : Option ρ) : Prop where
  stripped : strip marker = marker
  nonempty : marker ≠ []
  marked : startsWith pre marker = true
  known : get? marker markers = some next
  singleLine : SingleLine marker

/-- A table whose markers can be told apart announces what it says. -/
theorem Announces.of_mem {markers : Dict Text (Option ρ)}
    (h : ∀ item ∈ markers, strip item.1 = item.1 ∧ item.1 ≠ [] ∧ startsWith pre item.1 = true ∧
      get? item.1 markers = some item.2 ∧ SingleLine item.1)
    {marker : Text} {next : Option ρ} (hmem : (marker, next) ∈ markers) :
    Announces pre markers marker next := by
  obtain ⟨hstripped, hnonempty, hmarked, hknown, hsingle⟩ := h _ hmem
  exact ⟨hstripped, hnonempty, hmarked, hknown, hsingle⟩

theorem divert_body (markers : Dict Text (Option ρ)) (part : ρ) {body : List Text}
    (h : ∀ line ∈ body, startsWith pre (strip line) = false) (rest : List Text) :
    divert pre markers (some part) (body ++ rest) =
      (cleaned body).map (fun line => (part, line)) ++ divert pre markers (some part) rest := by
  induction body with
  | nil => rfl
  | cons line body ih =>
    have hline := h line List.mem_cons_self
    have hbody := ih fun other hother => h other (List.mem_cons_of_mem line hother)
    rw [List.cons_append, divert_cons]
    by_cases hempty : strip line = []
    · rw [if_pos hempty, hbody]
      simp [cleaned, hempty]
    · rw [if_neg hempty, hline, if_neg Bool.false_ne_true]
      simp only [hbody]
      simp [cleaned, hempty]

theorem divert_segment {markers : Dict Text (Option ρ)} {s : Segment pre ρ}
    (hs : Announces pre markers s.marker (some s.part)) (state : Option ρ) (rest : List Text) :
    divert pre markers state (s.lines ++ rest) =
      (cleaned s.report.lines).map (fun line => (s.part, line)) ++
        divert pre markers (some s.part) rest := by
  rw [Segment.lines, List.cons_append, divert_cons, hs.stripped, if_neg hs.nonempty, if_pos hs.marked,
    hs.known, Option.getD_some, divert_body markers s.part s.report.unmarked]

/-- The lines of an output that is written part by part, up to its last marker. -/
theorem divert_segments {markers : Dict Text (Option ρ)} {segments : List (Segment pre ρ)}
    (hsegments : ∀ s ∈ segments, Announces pre markers s.marker (some s.part)) {done : Text}
    (hdone : Announces pre markers done none) (state : Option ρ) :
    divert pre markers state (segments.flatMap Segment.lines ++ [done]) =
      segments.flatMap fun s => (cleaned s.report.lines).map fun line => (s.part, line) := by
  induction segments generalizing state with
  | nil =>
    rw [List.flatMap_nil, List.nil_append, divert_cons, hdone.stripped, if_neg hdone.nonempty,
      if_pos hdone.marked]
    rfl
  | cons s segments ih =>
    have hs := hsegments s List.mem_cons_self
    have hrest : ∀ other ∈ segments, Announces pre markers other.marker (some other.part) :=
      fun other hother => hsegments other (List.mem_cons_of_mem s hother)
    rw [List.flatMap_cons, List.append_assoc, divert_segment hs, ih hrest, List.flatMap_cons]

/--
**What is read of an output that is written part by part.**
-/
theorem divert_gathered {markers : Dict Text (Option ρ)} {segments : List (Segment pre ρ)}
    (hsegments : ∀ s ∈ segments, Announces pre markers s.marker (some s.part)) {done : Text}
    (hdone : Announces pre markers done none) :
    divert pre markers none (splitlines (gathered segments done)) =
      segments.flatMap fun s => (cleaned s.report.lines).map fun line => (s.part, line) := by
  have hsingle : ∀ line ∈ segments.flatMap Segment.lines ++ [done], SingleLine line := by
    intro line hline
    rcases List.mem_append.mp hline with hline | hline
    · obtain ⟨s, hs, hline⟩ := List.mem_flatMap.mp hline
      rcases List.mem_cons.mp hline with rfl | hline
      · exact (hsegments s hs).singleLine
      · exact s.report.singleLine line hline
    · obtain rfl := List.mem_singleton.mp hline
      exact hdone.singleLine
  rw [gathered, splitlines_unlines hsingle, divert_segments hsegments hdone]

/-- The lines of one part. -/
theorem partLines_segments [DecidableEq ρ] (part : ρ) (segments : List (Segment pre ρ)) :
    partLines part
        (segments.flatMap fun s => (cleaned s.report.lines).map fun line => (s.part, line)) =
      (segments.filter fun s => s.part = part).flatMap fun s => cleaned s.report.lines := by
  induction segments with
  | nil => rfl
  | cons s segments ih =>
    have happend : ∀ a b : List (ρ × Text),
        partLines part (a ++ b) = partLines part a ++ partLines part b :=
      fun a b => List.filterMap_append
    rw [List.flatMap_cons, happend, ih]
    by_cases hpart : s.part = part
    · have hall : partLines part ((cleaned s.report.lines).map fun line => (s.part, line)) =
          cleaned s.report.lines := by
        rw [partLines, List.filterMap_map]
        simp [hpart]
      rw [hall, List.filter_cons_of_pos (by simpa using hpart), List.flatMap_cons]
    · have hnone :
          partLines part ((cleaned s.report.lines).map fun line => (s.part, line)) = [] := by
        rw [partLines, List.filterMap_map]
        simp [hpart]
      rw [hnone, List.filter_cons_of_neg (by simpa using hpart), List.nil_append]

/-- Lines that are neither blank nor surrounded by blanks stay as they are. -/
theorem cleaned_of_stripped {body : List Text} (h : ∀ line ∈ body, strip line = line ∧ line ≠ []) :
    cleaned body = body := by
  have hmap : body.map strip = body := by
    calc body.map strip = body.map id := List.map_congr_left fun line hline => (h line hline).1
      _ = body := List.map_id body
  rw [cleaned, hmap, List.filter_eq_self]
  intro line hline
  simpa using (h line hline).2

end OpenWrtCopilot.Verified.MarkedOutput
