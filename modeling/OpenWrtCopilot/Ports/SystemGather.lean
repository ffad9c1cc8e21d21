import OpenWrtCopilot.Ports.ManagementReads
import OpenWrtCopilot.Verified.DividedLines
import OpenWrtCopilot.Verified.PyDict
import OpenWrtCopilot.Verified.PyLines

/-!
# The system report

Ports `_system_gather`: one command prints the reports of the system page, each behind a marker
line, and the service tells them apart again.  Nothing keeps a marker on a line of its own when
the report before it does not end with a line break, nor a report from holding a marker line.

## Main results

* `gathered_iff` — when every report is told as its command printed it, up to white space at the
  ends.
* `unended_report_lost` — a report that is glued to the marker behind it.
-/

namespace OpenWrtCopilot.Ports.Management

open Verified
open Verified.PyText
open Verified.PyDict
open Verified.DividedLines
open Verified.ShellList

variable {σ : Type}

/-! ## The command -/

/-- A report of `systemGatherCmd`, and whether an `echo` follows it. -/
structure SystemSection where
  marker : Text
  echoes : Bool := false

/-- The reports of `systemGatherCmd`. -/
def systemSections : List SystemSection :=
  [{ marker := "release" }, { marker := "boardjson" }, { marker := "hostname" },
    { marker := "timezone" }, { marker := "zonename" }, { marker := "language" },
    { marker := "notes" }, { marker := "localtime" }, { marker := "epoch" }, { marker := "uptime" },
    { marker := "endian", echoes := true }, { marker := "mtd" }, { marker := "mounts" },
    { marker := "dtnode", echoes := true }, { marker := "uname" }, { marker := "ntpen" },
    { marker := "ntpsrv" }, { marker := "ntpinfo" }]

/-- `_SYSTEM_MARKERS`. -/
def systemMarkers : List Text := systemSections.map (·.marker)

/-- The line that `echo` prints for a marker. -/
def markerLine (marker : Text) : Text := "==" ++ marker ++ "=="

/-- What the command prints on a router whose reports are `outputs`. -/
def gatherOutput (outputs : Text → Text) : Text :=
  systemSections.flatMap fun s =>
    markerLine s.marker ++ '\n' :: (outputs s.marker ++ if s.echoes then "\n" else "")

/-- A router whose reports are `outputs`. -/
def gatherShell (outputs : Text → Text) : RemoteShell Unit := fun _ s =>
  { state := s, output := gatherOutput outputs, status := 0 }

/-! ## Reading the reports -/

/-- `line[2:-2]`. -/
def markerName (line : Text) : Text := (line.drop 2).take (line.length - 4)

/-- Whether a line is a marker. -/
def isMarker (line : Text) : Bool :=
  startsWith "==" line && "==".toList.isSuffixOf line && systemMarkers.contains (markerName line)

/-- The variables of the loop. -/
structure Gathering where
  sections : Dict Text Text := []
  current : Option Text := none
  buffer : List Text := []

/-- `sections[current] = "\n".join(buffer).strip()`, under `if current is not None`. -/
def Gathering.flushed (g : Gathering) : Dict Text Text :=
  match g.current with
  | some current => set current (strip (join "\n" g.buffer)) g.sections
  | none => g.sections

def gatherLine (g : Gathering) (line : Text) : Gathering :=
  if isMarker line then
    { sections := g.flushed, current := some (markerName line), buffer := [] }
  else if g.current.isSome then { g with buffer := g.buffer ++ [line] }
  else g

/-- `_system_gather`. -/
def systemGather (link : RouterLink σ) : Op σ (Dict Text Text) := do
  let result ← run link systemGatherCmd (some 60)
  return ((splitlines result.stdout).foldl gatherLine {}).flushed

/-! ## The loop -/

/-- A part of the output: a marker line, and the lines that follow it. -/
def addPart (sections : Dict Text Text) (part : Text × List Text) : Dict Text Text :=
  set (markerName part.1) (strip (join "\n" part.2)) sections

theorem flushed_foldl_some (lines buffer : List Text) (sections : Dict Text Text)
    (current : Text) :
    (lines.foldl gatherLine { sections, current := some current, buffer }).flushed =
      (divide isMarker lines).2.foldl addPart
        (set current (strip (join "\n" (buffer ++ (divide isMarker lines).1))) sections) := by
  induction lines generalizing buffer sections current with
  | nil =>
    rw [divide, List.append_nil]
    rfl
  | cons line lines ih =>
    rw [List.foldl_cons, gatherLine, divide_cons]
    split
    · rw [ih, List.append_nil]
      rfl
    · exact (ih (buffer ++ [line]) sections current).trans (by rw [List.append_assoc]; rfl)

theorem flushed_foldl (lines : List Text) :
    (lines.foldl gatherLine {}).flushed = (divide isMarker lines).2.foldl addPart [] := by
  induction lines with
  | nil => rfl
  | cons line lines ih =>
    rw [List.foldl_cons, gatherLine, divide_cons]
    split
    · rw [flushed_foldl_some]
      rfl
    · exact ih

/-! ## Marker lines -/

theorem equals_notMem_of_mem {marker : Text} (h : marker ∈ systemMarkers) : '=' ∉ marker := by
  revert marker
  decide

theorem length_equals : "==".toList.length = 2 := rfl

theorem markerName_markerLine (marker : Text) : markerName (markerLine marker) = marker := by
  have hlen : (markerLine marker).length - 4 = marker.length := by
    rw [markerLine, List.length_append, List.length_append, length_equals]
    omega
  rw [markerName, hlen]
  exact List.take_left

theorem isMarker_iff {line : Text} :
    isMarker line = true ↔ ∃ marker ∈ systemMarkers, line = markerLine marker := by
  constructor
  · intro h
    rw [isMarker, Bool.and_eq_true, Bool.and_eq_true, List.contains_iff_mem] at h
    obtain ⟨⟨hstart, hend⟩, hmem⟩ := h
    obtain ⟨rest, hrest⟩ := List.isPrefixOf_iff_prefix.mp hstart
    obtain ⟨front, hfront⟩ := List.isSuffixOf_iff_suffix.mp hend
    have hname : markerName line ≠ [] := by
      intro hnil
      rw [hnil] at hmem
      revert hmem
      decide
    have hlen : line.length = front.length + 2 := by
      rw [← hfront, List.length_append]
      rfl
    have hfour : 4 < line.length := by
      by_contra hle
      exact hname (by rw [markerName, Nat.sub_eq_zero_of_le (Nat.le_of_not_lt hle), List.take_zero])
    have htwo : "==".toList <+: front :=
      List.prefix_of_prefix_length_le ⟨rest, hrest⟩ ⟨"==".toList, hfront⟩
        (by rw [length_equals]; omega)
    obtain ⟨marker, hmarker⟩ := htwo
    have hline : line = markerLine marker := by
      rw [markerLine, hmarker, hfront]
    rw [hline, markerName_markerLine] at hmem
    exact ⟨marker, hmem, hline⟩
  · rintro ⟨marker, hmem, rfl⟩
    rw [isMarker, markerName_markerLine, Bool.and_eq_true, Bool.and_eq_true,
      List.contains_iff_mem]
    refine ⟨⟨List.isPrefixOf_iff_prefix.mpr ⟨marker ++ "==", ?_⟩,
      List.isSuffixOf_iff_suffix.mpr ⟨"==" ++ marker, rfl⟩⟩, hmem⟩
    rw [markerLine, List.append_assoc]

theorem singleLine_markerLine {marker : Text} (h : marker ∈ systemMarkers) :
    SingleLine (markerLine marker) := by
  revert marker
  decide +kernel

theorem weight_markerLine {line : Text} (h : isMarker line = true) : 0 < weight line := by
  obtain ⟨marker, -, rfl⟩ := isMarker_iff.mp h
  rw [markerLine, weight_append]
  exact Nat.lt_add_left _ (by decide)

/-- A marker behind the rest of a line is no marker line. -/
theorem isMarker_glued {marker rest : Text} (h : marker ∈ systemMarkers) (hrest : rest ≠ []) :
    isMarker (rest ++ markerLine marker) = false := by
  rw [← Bool.not_eq_true, isMarker_iff]
  rintro ⟨other, hother, heq⟩
  have hfront : rest ++ ("==".toList ++ marker) = "==".toList ++ other := by
    rw [markerLine, markerLine, ← List.append_assoc] at heq
    exact List.append_cancel_right heq
  have hcount := congrArg (List.count '=') hfront
  rw [List.count_append, List.count_append, List.count_append,
    List.count_eq_zero.mpr (equals_notMem_of_mem h),
    List.count_eq_zero.mpr (equals_notMem_of_mem hother)] at hcount
  obtain ⟨c, cs, rfl⟩ := List.exists_cons_of_ne_nil hrest
  have hhead : c = '=' := (List.cons.inj hfront).1
  rw [hhead, List.count_cons_self] at hcount
  omega

/-! ## Reports apart -/

/-- No line of a report is a marker line. -/
def Unmarked (t : Text) : Prop := ∀ line ∈ splitlines t, isMarker line = false

/-- The output of a list of reports. -/
def stream (reports : List (Text × Text)) : Text :=
  reports.flatMap fun report => markerLine report.1 ++ '\n' :: report.2

theorem stream_cons (report : Text × Text) (reports : List (Text × Text)) :
    stream (report :: reports) = markerLine report.1 ++ '\n' :: (report.2 ++ stream reports) := by
  rw [stream, List.flatMap_cons, ← stream, List.append_assoc, List.cons_append]

theorem head?_stream (reports : List (Text × Text)) : (stream reports).head? ≠ some '\n' := by
  cases reports with
  | nil => exact nofun
  | cons report reports =>
    rw [stream_cons]
    exact fun h => absurd (Option.some.inj h) (by decide)

theorem splitlines_stream {report : Text × Text} (h : report.1 ∈ systemMarkers)
    (reports : List (Text × Text)) :
    splitlines (stream (report :: reports)) =
      markerLine report.1 :: splitlines (report.2 ++ stream reports) := by
  rw [stream_cons, splitlines_append_newline,
    splitlines_singleLine_newline (singleLine_markerLine h)]
  rfl

theorem divide_stream_cons {report : Text × Text} (h : report.1 ∈ systemMarkers)
    (reports : List (Text × Text)) :
    divide isMarker (splitlines (stream (report :: reports))) =
      ([], (markerLine report.1, (divide isMarker (splitlines (report.2 ++ stream reports))).1) ::
        (divide isMarker (splitlines (report.2 ++ stream reports))).2) := by
  rw [splitlines_stream h, divide_cons, if_pos (isMarker_iff.mpr ⟨_, h, rfl⟩)]

theorem weight_stream_cons (report : Text × Text) (reports : List (Text × Text)) :
    weight (stream (report :: reports)) =
      weight (markerLine report.1) + weight report.2 + weight (stream reports) := by
  rw [stream_cons, weight_append, weight_boundary isLineBoundary_newline, weight_append,
    Nat.add_assoc]

theorem weight_stream (reports : List (Text × Text)) :
    weight (stream reports) =
      (reports.map fun report => weight (markerLine report.1) + weight report.2).sum := by
  induction reports with
  | nil => rfl
  | cons report reports ih => rw [weight_stream_cons, ih, List.map_cons, List.sum_cons]

/-- What a reader of reports that keep apart sees. -/
theorem divide_stream {reports : List (Text × Text)}
    (hmarkers : ∀ report ∈ reports, report.1 ∈ systemMarkers)
    (h : ∀ report ∈ reports, Ended report.2 ∧ Unmarked report.2) :
    divide isMarker (splitlines (stream reports)) =
      ([], reports.map fun report => (markerLine report.1, splitlines report.2)) := by
  induction reports with
  | nil => rfl
  | cons report reports ih =>
    obtain ⟨hended, hunmarked⟩ := h report List.mem_cons_self
    rw [divide_stream_cons (hmarkers report List.mem_cons_self),
      splitlines_append hended (head?_stream reports), divide_append hunmarked,
      ih (fun other hother => hmarkers other (List.mem_cons_of_mem _ hother))
        fun other hother => h other (List.mem_cons_of_mem _ hother), List.append_nil]
    rfl

/-- A report that is followed by another and leaves it apart. -/
theorem ended_of_weight {report next : Text × Text} {reports : List (Text × Text)}
    (hmarker : next.1 ∈ systemMarkers)
    (h : total weight (divide isMarker
      (splitlines (report.2 ++ stream (next :: reports)))).1 = weight report.2) :
    Ended report.2 := by
  by_contra hended
  obtain ⟨front, line, hreport, hfront, hne, hline⟩ := exists_line hended
  have hglued : SingleLine (line ++ markerLine next.1) :=
    List.forall_mem_append.mpr ⟨hline, singleLine_markerLine hmarker⟩
  have hhead : (line ++ stream (next :: reports)).head? ≠ some '\n' := by
    obtain ⟨c, cs, rfl⟩ := List.exists_cons_of_ne_nil hne
    intro hc
    rw [Option.some.inj hc] at hline
    exact absurd (hline '\n' List.mem_cons_self) (by decide)
  have hlines : splitlines (report.2 ++ stream (next :: reports)) =
      splitlines front ++
        (line ++ markerLine next.1) :: splitlines (next.2 ++ stream reports) := by
    rw [hreport, List.append_assoc, splitlines_append hfront hhead, stream_cons,
      ← List.append_assoc, splitlines_append_newline, splitlines_singleLine_newline hglued]
    rfl
  rw [hlines, hreport, weight_append] at h
  by_cases hmarked : ∃ other ∈ splitlines front, isMarker other = true
  · have hlt := front_lt hmarked fun _ => weight_markerLine
    rw [weight_splitlines] at hlt
    rw [divide_front hmarked] at h
    omega
  · have hunmarked : ∀ other ∈ splitlines front, isMarker other = false := by
      simpa using hmarked
    have hpos : 0 < weight (markerLine next.1) :=
      weight_markerLine (isMarker_iff.mpr ⟨_, hmarker, rfl⟩)
    rw [divide_append hunmarked, divide_cons, isMarker_glued hmarker hne,
      if_neg Bool.false_ne_true, total_append, weight_splitlines, total_cons, weight_append] at h
    omega

/-- **Reports that are read with the weight they have keep apart.** -/
theorem apart_of_weights {reports : List (Text × Text)}
    (hmarkers : ∀ report ∈ reports, report.1 ∈ systemMarkers)
    (hlast : ∀ report ∈ reports.getLast?, Ended report.2)
    (h : ∀ part ∈ (divide isMarker (splitlines (stream reports))).2, ∀ report ∈ reports,
      part.1 = markerLine report.1 → total weight part.2 = weight report.2) :
    ∀ report ∈ reports, Ended report.2 ∧ Unmarked report.2 := by
  induction reports with
  | nil => exact fun report hreport => absurd hreport List.not_mem_nil
  | cons report reports ih =>
    have hmarker := hmarkers report List.mem_cons_self
    have hrest : ∀ other ∈ reports, other.1 ∈ systemMarkers :=
      fun other hother => hmarkers other (List.mem_cons_of_mem _ hother)
    rw [divide_stream_cons hmarker] at h
    have hweight := h _ List.mem_cons_self report List.mem_cons_self rfl
    have hended : Ended report.2 := by
      cases reports with
      | nil => exact hlast report rfl
      | cons next reports => exact ended_of_weight (hrest next List.mem_cons_self) hweight
    have hunmarked : Unmarked report.2 := by
      by_contra hmarked
      have hsome : ∃ line ∈ splitlines report.2, isMarker line = true := by
        simpa [Unmarked] using hmarked
      rw [splitlines_append hended (head?_stream reports), divide_front hsome] at hweight
      have hlt := front_lt hsome fun _ => weight_markerLine
      rw [weight_splitlines, hweight] at hlt
      exact absurd hlt (Nat.lt_irrefl _)
    rw [splitlines_append hended (head?_stream reports), divide_append hunmarked] at h
    refine List.forall_mem_cons.mpr ⟨⟨hended, hunmarked⟩, ih hrest ?_ ?_⟩
    · intro other hother
      cases reports with
      | nil => exact nomatch hother
      | cons next reports => exact hlast other (by simpa using hother)
    · exact fun part hpart other hother =>
        h part (List.mem_cons_of_mem _ hpart) other (List.mem_cons_of_mem _ hother)

/-! ## The reports that are told -/

theorem addPart_foldl (parts : List (Text × List Text)) :
    parts.foldl addPart [] =
      parts.foldl (fun d part => set (markerName part.1) (strip (join "\n" part.2)) d) [] := rfl

/-- A report that is told has a part with its weight. -/
theorem exists_part {lines : List Text} {marker text : Text}
    (h : get? marker ((divide isMarker lines).2.foldl addPart []) = some (strip text)) :
    ∃ block, (markerLine marker, block) ∈ (divide isMarker lines).2 ∧
      total weight block = weight text := by
  have hpart := forall_foldl_set
    (P := fun key value => ∃ part ∈ (divide isMarker lines).2,
      markerName part.1 = key ∧ value = strip (join "\n" part.2))
    (fun part => markerName part.1) (fun part => strip (join "\n" part.2)) _
    (fun part hpart => ⟨part, hpart, rfl, rfl⟩)
    (fun _ _ hnone => absurd hnone (by rw [get?_nil]; exact nofun)) h
  obtain ⟨part, hmem, hname, hvalue⟩ := hpart
  obtain ⟨other, -, hother⟩ := isMarker_iff.mp (marks_of_mem_divide hmem).2
  rw [hother, markerName_markerLine] at hname
  rw [hname] at hother
  refine ⟨part.2, hother ▸ hmem, ?_⟩
  rw [← weight_join, ← weight_strip, ← hvalue, weight_strip]

theorem markerLine_injective {marker other : Text} (h : markerLine marker = markerLine other) :
    marker = other := by
  rw [← markerName_markerLine marker, h, markerName_markerLine]

/-- The reports that every reader is told keep apart. -/
theorem apart_of_told {reports : List (Text × Text)}
    (hmarkers : ∀ report ∈ reports, report.1 ∈ systemMarkers)
    (hnodup : (reports.map Prod.fst).Nodup)
    (hlast : ∀ report ∈ reports.getLast?, Ended report.2)
    (h : ∀ report ∈ reports,
      get? report.1 ((divide isMarker (splitlines (stream reports))).2.foldl addPart []) =
        some (strip report.2)) :
    ∀ report ∈ reports, Ended report.2 ∧ Unmarked report.2 := by
  choose! block hmem hweight using fun report hreport => exists_part (h report hreport)
  let written := reports.map fun report => (markerLine report.1, block report)
  have hwritten : written.Nodup := by
    refine List.Nodup.of_map Prod.fst ?_
    have hlines := hnodup.map fun _ _ => markerLine_injective
    rw [List.map_map] at hlines ⊢
    exact hlines
  have htotal : totalParts weight (divide isMarker (splitlines (stream reports))).2 ≤
      totalParts weight written := by
    have hsum : total weight (divide isMarker (splitlines (stream reports))).1 +
        totalParts weight _ = total weight _ :=
      sum_divide weight (splitlines (stream reports))
    have hparts : written.map (fun part => weight part.1 + total weight part.2) =
        reports.map fun report => weight (markerLine report.1) + weight report.2 := by
      rw [List.map_map]
      exact List.map_congr_left fun report hreport => by
        rw [Function.comp_apply, hweight report hreport]
    rw [totalParts.eq_1 weight written, hparts, ← weight_stream, ← weight_splitlines]
    exact Nat.le_of_add_left_le (Nat.le_of_eq hsum)
  have hperm := perm_of_parts hwritten (fun part hpart => by
      obtain ⟨report, hreport, rfl⟩ := List.mem_map.mp hpart
      exact hmem report hreport)
    (fun part hpart => weight_markerLine (marks_of_mem_divide hpart).2) htotal
  refine apart_of_weights hmarkers hlast fun part hpart report hreport hname => ?_
  obtain ⟨other, hother, rfl⟩ := List.mem_map.mp (hperm.mem_iff.mpr hpart)
  have hsame : other = report :=
    List.inj_on_of_nodup_map hnodup hother hreport (markerLine_injective hname)
  rw [← hsame]
  exact hweight other hother

theorem told_iff {reports : List (Text × Text)}
    (hmarkers : ∀ report ∈ reports, report.1 ∈ systemMarkers)
    (hnodup : (reports.map Prod.fst).Nodup)
    (hlast : ∀ report ∈ reports.getLast?, Ended report.2) :
    (∀ report ∈ reports,
      get? report.1 ((divide isMarker (splitlines (stream reports))).2.foldl addPart []) =
        some (strip report.2)) ↔
      ∀ report ∈ reports, (Ended report.2 ∧ Unmarked report.2) ∧ OnlyNewlines (strip report.2) := by
  have htold : (∀ report ∈ reports, Ended report.2 ∧ Unmarked report.2) → ∀ report ∈ reports,
      get? report.1 ((divide isMarker (splitlines (stream reports))).2.foldl addPart []) =
        some (strip (lined report.2)) := by
    intro hapart report hreport
    rw [divide_stream hmarkers hapart, addPart_foldl, get?_foldl_set _ _ _ _ report.1
      (strip (lined report.2)), if_pos]
    · exact ⟨_, List.mem_map.mpr ⟨report, hreport, rfl⟩, markerName_markerLine _⟩
    · intro part hpart hname
      obtain ⟨other, hother, rfl⟩ := List.mem_map.mp hpart
      rw [markerName_markerLine] at hname
      rw [List.inj_on_of_nodup_map hnodup hother hreport hname]
      rfl
  constructor
  · intro h
    have hapart := apart_of_told hmarkers hnodup hlast h
    refine fun report hreport => ⟨hapart report hreport, ?_⟩
    rw [← strip_lined_iff]
    exact Option.some.inj ((htold hapart report hreport).symm.trans (h report hreport))
  · intro h report hreport
    rw [htold (fun other hother => (h other hother).1) report hreport,
      (strip_lined_iff report.2).mpr (h report hreport).2]

/-! ## The reports of a router -/

/-- What a report adds to the output, up to the next marker. -/
def shownReport (outputs : Text → Text) (s : SystemSection) : Text × Text :=
  (s.marker, outputs s.marker ++ if s.echoes then "\n" else "")

/-- The reports that another follows. -/
def openSections : List SystemSection := systemSections.dropLast

/-- The last report. -/
def lastSection : SystemSection := { marker := "ntpinfo" }

theorem systemSections_eq : systemSections = openSections ++ [lastSection] := rfl

/-- The reports as they are read: the service puts a line break behind the last one. -/
def readReports (outputs : Text → Text) : List (Text × Text) :=
  openSections.map (shownReport outputs) ++
    [(lastSection.marker, outputs lastSection.marker ++ ['\n'])]

theorem gatherOutput_newline (outputs : Text → Text) :
    gatherOutput outputs ++ ['\n'] = stream (readReports outputs) := by
  have hlast : (outputs lastSection.marker ++
      if lastSection.echoes then "\n".toList else "".toList) = outputs lastSection.marker :=
    List.append_nil _
  rw [gatherOutput, systemSections_eq, readReports, stream, List.flatMap_append,
    List.flatMap_append, List.flatMap_map, List.append_assoc, List.flatMap_singleton,
    List.flatMap_singleton, hlast, List.append_assoc]
  rfl

/-- An empty line at the end is read as nothing. -/
theorem flushed_concat_empty (g : Gathering) : (gatherLine g []).flushed = g.flushed := by
  have hjoin : strip (join "\n" (g.buffer ++ [[]])) = strip (join "\n" g.buffer) := by
    by_cases h : g.buffer = []
    · rw [h]
      rfl
    · rw [join_append _ h (List.cons_ne_nil _ _), join_singleton, List.append_nil]
      exact strip_concat _
  have hmarker : isMarker [] = false := by rfl
  rw [gatherLine, hmarker, if_neg Bool.false_ne_true]
  split
  · rw [Gathering.flushed, Gathering.flushed, hjoin]
  · rfl

/-- `_system_gather` on such a router. -/
theorem systemGather_gatherShell (outputs : Text → Text) :
    systemGather (shellLink (gatherShell outputs)) () =
      (.ok ((divide isMarker (splitlines (stream (readReports outputs)))).2.foldl addPart []),
        ()) := by
  have hread : ∀ lines : List Text, (∀ line ∈ lines, SingleLine line) → lines ≠ [] →
      ((splitlines (join "\n" lines)).foldl gatherLine {}).flushed =
        (lines.foldl gatherLine {}).flushed := by
    intro lines hlines hne
    have hunlines := splitlines_unlines hlines
    rw [← join_append_newline hne] at hunlines
    obtain h | h := splitlines_concat (join "\n" lines)
    · rw [← h]
      exact congrArg (fun lines => (lines.foldl gatherLine {}).flushed) hunlines
    · have hlast : lines = splitlines (join "\n" lines) ++ [[]] := hunlines.symm.trans h
      conv_rhs => rw [hlast, List.foldl_concat, flushed_concat_empty]
  have hne : splitlines (stream (readReports outputs)) ≠ [] := splitlines_ne_nil
  rw [systemGather, Fallible.bind_of_ok (run_shellLink _ _ _ _), ← flushed_foldl,
    ← hread _ (splitlines_singleLines _) hne, ← gatherOutput_newline]
  rfl

theorem unmarked_concat {t : Text} : Unmarked (t ++ ['\n']) ↔ Unmarked t := by
  have hempty : isMarker [] = false := by rfl
  rw [Unmarked, Unmarked]
  obtain h | h := splitlines_concat t
  · rw [h]
  · rw [h, List.forall_mem_append]
    exact and_iff_left (List.forall_mem_singleton.mpr hempty)

/-- What is read of a report: the report, with a line break behind some. -/
def closedReport (outputs : Text → Text) (s : SystemSection) : Text :=
  if s.echoes ∨ s.marker = "ntpinfo" then outputs s.marker ++ ['\n'] else outputs s.marker

theorem readReports_eq (outputs : Text → Text) :
    readReports outputs = systemSections.map fun s => (s.marker, closedReport outputs s) := by
  have hopen : ∀ s ∈ openSections, s.marker ≠ "ntpinfo" := by decide
  have hshown : ∀ s ∈ openSections, shownReport outputs s = (s.marker, closedReport outputs s) := by
    intro s hs
    rw [shownReport, closedReport]
    cases hechoes : s.echoes with
    | true => rw [if_pos rfl, if_pos (Or.inl rfl)]; rfl
    | false =>
      rw [if_neg Bool.false_ne_true, if_neg (not_or.mpr ⟨Bool.false_ne_true, hopen s hs⟩)]
      exact congrArg _ (List.append_nil _)
  have hlast : closedReport outputs lastSection = outputs lastSection.marker ++ ['\n'] :=
    if_pos (Or.inr rfl)
  rw [readReports, systemSections_eq, List.map_append, List.map_congr_left hshown,
    List.map_singleton, hlast]

theorem strip_closedReport (outputs : Text → Text) (s : SystemSection) :
    strip (closedReport outputs s) = strip (outputs s.marker) := by
  rw [closedReport]
  split
  · exact strip_concat _
  · rfl

theorem closedReport_apart_iff (outputs : Text → Text) (s : SystemSection) :
    Ended (closedReport outputs s) ∧ Unmarked (closedReport outputs s) ↔
      (s.echoes = false → s.marker ≠ "ntpinfo" → Ended (outputs s.marker)) ∧
        Unmarked (outputs s.marker) := by
  rw [closedReport]
  split
  · rename_i hclosed
    rw [unmarked_concat]
    refine and_congr_left fun _ => iff_of_true (ended_concat _) fun hechoes hmarker => ?_
    exact absurd hclosed (not_or.mpr ⟨Bool.eq_false_iff.mp hechoes, hmarker⟩)
  · rename_i hopen
    rw [not_or, Bool.not_eq_true] at hopen
    exact and_congr_left fun _ => ⟨fun h _ _ => h, fun h => h hopen.1 hopen.2⟩

/-- A report that is told as its command printed it: no line of it is a marker line, its line
breaks are newlines, and it is empty or ends with a line break where another one follows. -/
structure Separable (outputs : Text → Text) (s : SystemSection) : Prop where
  unmarked : Unmarked (outputs s.marker)
  newlines : OnlyNewlines (strip (outputs s.marker))
  ended : s.echoes = false → s.marker ≠ "ntpinfo" → Ended (outputs s.marker)

/-- **Every report is told as its command printed it, up to white space at the ends, exactly
when** each can be told from the next. -/
theorem gathered_iff (outputs : Text → Text) :
    (∃ sections, (systemGather (shellLink (gatherShell outputs)) ()).1 = .ok sections ∧
      ∀ s ∈ systemSections, get? s.marker sections = some (strip (outputs s.marker))) ↔
      ∀ s ∈ systemSections, Separable outputs s := by
  have hmap : (readReports outputs).map Prod.fst = systemMarkers := by
    rw [readReports_eq, List.map_map]
    rfl
  have hmarkers : ∀ report ∈ readReports outputs, report.1 ∈ systemMarkers :=
    fun report hreport => hmap ▸ List.mem_map_of_mem hreport
  have hnodup : ((readReports outputs).map Prod.fst).Nodup := by
    rw [hmap]
    decide +kernel
  have hlast : ∀ report ∈ (readReports outputs).getLast?, Ended report.2 := by
    intro report hreport
    rw [readReports, List.getLast?_concat, Option.mem_some_iff] at hreport
    exact hreport ▸ ended_concat _
  have htold := told_iff hmarkers hnodup hlast
  generalize hparts : (divide isMarker (splitlines (stream (readReports outputs)))).2.foldl addPart
    [] = sections at htold
  rw [readReports_eq, List.forall_mem_map, List.forall_mem_map] at htold
  simp only [strip_closedReport, closedReport_apart_iff] at htold
  rw [systemGather_gatherShell, hparts]
  simp only [Except.ok.injEq, exists_eq_left', htold]
  refine forall₂_congr fun s _ => ?_
  constructor
  · rintro ⟨⟨hended, hunmarked⟩, hnewlines⟩
    exact ⟨hunmarked, hnewlines, hended⟩
  · rintro ⟨hunmarked, hnewlines, hended⟩
    exact ⟨⟨hended, hunmarked⟩, hnewlines⟩

/-- The reports of a router whose release file has no final line break. -/
def unendedRelease (marker : Text) : Text := if marker = "release" then "x" else []

/-- A release file without a final line break takes the marker behind it, and the report of the
board with it. -/
theorem unended_report_lost :
    ¬∀ outputs : Text → Text,
      ∃ sections, (systemGather (shellLink (gatherShell outputs)) ()).1 = .ok sections ∧
        ∀ s ∈ systemSections, get? s.marker sections = some (strip (outputs s.marker)) := by
  intro h
  obtain ⟨sections, hsections, htold⟩ := h unendedRelease
  rw [systemGather_gatherShell] at hsections
  have hboard := htold { marker := "boardjson" } (List.mem_cons_of_mem _ List.mem_cons_self)
  have hnone : get? "boardjson".toList ((divide isMarker
      (splitlines (stream (readReports unendedRelease)))).2.foldl addPart []) = none := by
    decide
  rw [← Except.ok.inj hsections, hnone] at hboard
  exact nomatch hboard

end OpenWrtCopilot.Ports.Management
