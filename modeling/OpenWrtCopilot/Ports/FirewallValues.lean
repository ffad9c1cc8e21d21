import OpenWrtCopilot.Ports.RouterAgentFirewall

/-!
# Options read by two firewall readers

The firewall view of the management service only sees options that hold a single
value without quotes; the agent's parser sees every option, strips what it reads,
and takes a line that holds `' '` for a list.  This module says what each of them
stores for an option, and when the values they extract from it are the same.

## Main results

* `valueCase` — what each reader stores for an option.
* `text_iff`, `network_iff`, `dport_iff`, `enabled_iff` — when both extract the
  same text, networks, destination port and enabled state.
-/

namespace OpenWrtCopilot.Ports.FirewallAgreement

open Verified
open Verified.PyText
open Verified.PyDict
open Verified.Uci
open Verified.UciReading
open Ports.Management
open Ports.RouterAgent (splitOptionValue textField asBool asInt networkList AgentError)

/-! ## Stripping -/

theorem quote_mem_strip_iff {t : Text} : '\'' ∈ strip t ↔ '\'' ∈ t :=
  ⟨mem_of_mem_strip, fun h => mem_strip h (by decide)⟩

/-- What is left after stripping neither begins nor ends with a blank. -/
theorem strip_strip (t : Text) : strip (strip t) = strip t := by
  by_cases hne : strip t = []
  · rw [hne]
    rfl
  · refine strip_of_ends hne (fun c hc => ?_) (fun c hc => ?_)
    · obtain ⟨rest, hrest⟩ : strip t <+: lstrip t := List.rdropWhile_prefix isSpace (lstrip t)
      have hhead : (lstrip t).head? = some c := by
        rw [← hrest, List.head?_append_of_ne_nil _ hne]
        exact hc
      have hnot := List.head?_dropWhile_not isSpace t
      rw [show (t.dropWhile isSpace).head? = some c from hhead] at hnot
      exact hnot
    · have hlast : (strip t).getLast hne = c := by
        rw [Option.mem_def, List.getLast?_eq_getLast_of_ne_nil hne] at hc
        exact Option.some.inj hc
      have hnot : ¬isSpace ((strip t).getLast hne) = true :=
        List.rdropWhile_last_not isSpace (lstrip t) hne
      rw [hlast] at hnot
      exact Bool.eq_false_iff.mpr hnot

/-! ## Values -/

/-- The value of an option that holds exactly one, without quotes. -/
def plainValue (s : UciSection) (name : Text) : Option Text :=
  match s.values name with
  | some [value] => if '\'' ∈ value then none else some value
  | _ => none

/-- What the parser stores for an option other than `_type`. -/
def agentValue (s : UciSection) (name : Text) : Option FwValue :=
  (s.values name).map fun values => RouterAgent.fwPut none (innerValues values)

theorem plainValue_eq_some_iff {s : UciSection} {name value : Text} :
    plainValue s name = some value ↔ s.values name = some [value] ∧ '\'' ∉ value := by
  rw [plainValue]
  constructor
  · intro h
    split at h
    · rename_i v hvalues
      split at h
      · cases h
      · rename_i hquote
        obtain rfl := Option.some.inj h
        exact ⟨hvalues, hquote⟩
    · cases h
  · rintro ⟨hvalues, hquote⟩
    rw [hvalues]
    exact if_neg hquote

theorem visible_fwReader (w : WordClass) (s : UciSection) (name : Text) :
    (Management.fwReader w).visible s name = plainValue s name := by
  refine Option.ext fun value => ?_
  rw [plainValue_eq_some_iff]
  exact visible_eq_some_iff fun _ => rfl

/-- What the two readers store for an option. -/
inductive ValueCase (s : UciSection) (name : Text) : Prop
  | absent (values : s.values name = none) (plain : plainValue s name = none)
      (agent : agentValue s name = none)
  | single (value : Text) (values : s.values name = some [value])
      (plain : plainValue s name = some value) (noQuote : '\'' ∉ value)
      (agent : agentValue s name = some (.str (strip value)))
  /-- The view sees nothing, the parser a text with a quote. -/
  | quoted (all : List Text) (token : Text) (values : s.values name = some all)
      (plain : plainValue s name = none) (quote : '\'' ∈ token)
      (unsplit : (splitOptionValue (innerValues all)).length = 1)
      (agent : agentValue s name = some (.str token))
  /-- The view sees nothing, the parser a list. -/
  | split (all items : List Text) (values : s.values name = some all)
      (plain : plainValue s name = none) (nonempty : items ≠ [])
      (split : (splitOptionValue (innerValues all)).length ≠ 1)
      (agent : agentValue s name = some (.list items))

theorem quote_mem_inner {s : UciSection} {name : Text} {all : List Text}
    (hvalues : s.values name = some all) (hplain : plainValue s name = none) :
    '\'' ∈ innerValues all := by
  cases all with
  | nil =>
    obtain ⟨o, _, hempty⟩ := Option.map_eq_some_iff.mp hvalues
    exact absurd hempty o.nonempty
  | cons a rest =>
    cases rest with
    | cons b rest => exact quote_mem_innerValues a b rest
    | nil =>
      have hquote : '\'' ∈ a := by
        by_contra hnot
        simp [plainValue, hvalues, hnot] at hplain
      rw [innerValues, List.map_singleton, join_singleton]
      exact (quote_mem_escapeValue_iff a).mpr hquote

theorem valueCase (s : UciSection) (name : Text) : ValueCase s name := by
  cases hvalues : s.values name with
  | none =>
    exact .absent hvalues (by rw [plainValue, hvalues]) (by rw [agentValue, hvalues, Option.map_none])
  | some all =>
    have hagent : agentValue s name = some (RouterAgent.fwPut none (innerValues all)) := by
      rw [agentValue, hvalues, Option.map_some]
    cases hplain : plainValue s name with
    | some value =>
      obtain ⟨hvalue, hquote⟩ := plainValue_eq_some_iff.mp hplain
      obtain rfl := Option.some.inj (hvalues.symm.trans hvalue)
      have hinner : innerValues [value] = value := by
        rw [innerValues, List.map_singleton, join_singleton, escapeValue_of_notMem hquote]
      refine .single value hvalue hplain hquote ?_
      rw [hagent, hinner, RouterAgent.fwPut, RouterAgent.splitOptionValue_of_notMem hquote]
    | none =>
      by_cases hlength : (splitOptionValue (innerValues all)).length = 1
      · refine .quoted all (strip (innerValues all)) hvalues hplain
          (quote_mem_strip_iff.mpr (quote_mem_inner hvalues hplain)) hlength ?_
        rw [hagent, RouterAgent.fwPut, RouterAgent.splitOptionValue_of_length hlength]
      · refine .split all (splitOptionValue (innerValues all)) hvalues hplain
          (RouterAgent.splitOptionValue_ne_nil _) hlength ?_
        rw [hagent, RouterAgent.fwPut]
        split
        · rename_i token htoken
          rw [htoken] at hlength
          exact absurd rfl hlength
        · rfl

/-! ## Fields -/

/-- What the view stores for an option other than `_type`. -/
def seen (s : UciSection) (name : Text) : Option FwValue := (plainValue s name).map FwValue.str

/-- The line of the option holds no separator of list values. -/
def Unsplit (s : UciSection) (name : Text) : Prop :=
  ∀ all, s.values name = some all → (splitOptionValue (innerValues all)).length = 1

/-- The option is missing or holds one value, without quotes or blanks around
it. -/
def Plain (s : UciSection) (name : Text) : Prop :=
  ∀ all, s.values name = some all → ∃ v, all = [v] ∧ '\'' ∉ v ∧ strip v = v

theorem unsplit_of_none {s : UciSection} {name : Text} (h : s.values name = none) :
    Unsplit s name := by
  intro all hall
  rw [h] at hall
  cases hall

theorem unsplit_iff {s : UciSection} {name : Text} {all : List Text}
    (h : s.values name = some all) :
    Unsplit s name ↔ (splitOptionValue (innerValues all)).length = 1 := by
  refine ⟨fun hunsplit => hunsplit all h, fun hlength all' hall' => ?_⟩
  obtain rfl := Option.some.inj (h.symm.trans hall')
  exact hlength

theorem unsplit_of_single {s : UciSection} {name value : Text} (h : s.values name = some [value])
    (hquote : '\'' ∉ value) : Unsplit s name := by
  rw [unsplit_iff h, innerValues, List.map_singleton, join_singleton,
    escapeValue_of_notMem hquote, RouterAgent.splitOptionValue_of_notMem hquote]
  rfl

theorem plain_of_none {s : UciSection} {name : Text} (h : s.values name = none) :
    Plain s name := by
  intro all hall
  rw [h] at hall
  cases hall

theorem plain_iff_of_single {s : UciSection} {name value : Text} (h : s.values name = some [value])
    (hquote : '\'' ∉ value) : Plain s name ↔ strip value = value := by
  constructor
  · intro hplain
    obtain ⟨v, hv, _, hstrip⟩ := hplain [value] h
    obtain rfl := List.singleton_inj.mp hv
    exact hstrip
  · intro hstrip all hall
    obtain rfl := Option.some.inj (h.symm.trans hall)
    exact ⟨value, rfl, hquote, hstrip⟩

/-- What the view does not see is not plain. -/
theorem not_plain {s : UciSection} {name : Text} {all : List Text}
    (h : s.values name = some all) (hplain : plainValue s name = none) : ¬Plain s name := by
  intro hp
  obtain ⟨v, rfl, hquote, _⟩ := hp all h
  rw [plainValue_eq_some_iff.mpr ⟨h, hquote⟩] at hplain
  cases hplain

theorem textField_isOk_iff (s : UciSection) (name : Text) :
    (∃ t, textField (agentValue s name) = .ok t) ↔ Unsplit s name := by
  cases valueCase s name with
  | absent hvalues _ hagent =>
    rw [hagent]
    exact ⟨fun _ => unsplit_of_none hvalues, fun _ => ⟨none, rfl⟩⟩
  | single value hvalues _ hquote hagent =>
    rw [hagent]
    exact ⟨fun _ => unsplit_of_single hvalues hquote, fun _ => ⟨_, rfl⟩⟩
  | quoted all token hvalues _ _ hunsplit hagent =>
    rw [hagent]
    exact ⟨fun _ => (unsplit_iff hvalues).mpr hunsplit, fun _ => ⟨_, rfl⟩⟩
  | split all items hvalues _ _ hsplit hagent =>
    rw [hagent]
    refine ⟨?_, fun h => absurd ((unsplit_iff hvalues).mp h) hsplit⟩
    rintro ⟨t, ht⟩
    cases ht

theorem asBool_isOk_iff (s : UciSection) (name : Text) :
    (∃ b, asBool (agentValue s name) = .ok b) ↔ Unsplit s name := by
  cases valueCase s name with
  | absent hvalues _ hagent =>
    rw [hagent]
    exact ⟨fun _ => unsplit_of_none hvalues, fun _ => ⟨false, rfl⟩⟩
  | single value hvalues _ hquote hagent =>
    rw [hagent]
    exact ⟨fun _ => unsplit_of_single hvalues hquote, fun _ => ⟨_, rfl⟩⟩
  | quoted all token hvalues _ _ hunsplit hagent =>
    rw [hagent]
    exact ⟨fun _ => (unsplit_iff hvalues).mpr hunsplit, fun _ => ⟨_, rfl⟩⟩
  | split all items hvalues _ hne hsplit hagent =>
    rw [hagent]
    refine ⟨?_, fun h => absurd ((unsplit_iff hvalues).mp h) hsplit⟩
    rintro ⟨b, hb⟩
    rw [asBool, if_neg hne] at hb
    cases hb

/-- A text is extracted alike from a plain option only. -/
theorem text_iff (s : UciSection) (name : Text) :
    (∃ t, textField (agentValue s name) = .ok t ∧ seen s name = t.map FwValue.str) ↔
      Plain s name := by
  rw [seen]
  cases valueCase s name with
  | absent hvalues hplain hagent =>
    rw [hagent, hplain]
    exact ⟨fun _ => plain_of_none hvalues, fun _ => ⟨none, rfl, rfl⟩⟩
  | single value hvalues hplain hquote hagent =>
    rw [hagent, hplain, plain_iff_of_single hvalues hquote]
    constructor
    · rintro ⟨t, ht, heq⟩
      obtain rfl := Except.ok.inj ht
      exact (FwValue.str.inj (Option.some.inj heq)).symm
    · intro hstrip
      exact ⟨_, rfl, by rw [hstrip]⟩
  | quoted all token hvalues hplain _ _ hagent =>
    rw [hagent, hplain]
    refine ⟨?_, fun h => absurd h (not_plain hvalues hplain)⟩
    rintro ⟨t, ht, heq⟩
    obtain rfl := Except.ok.inj ht
    cases heq
  | split all items hvalues hplain _ _ hagent =>
    rw [hagent, hplain]
    refine ⟨?_, fun h => absurd h (not_plain hvalues hplain)⟩
    rintro ⟨t, ht, _⟩
    cases ht

/-- The same for a name, where a missing one is the empty text. -/
theorem name_iff (s : UciSection) (name : Text) :
    (∃ t, textField (agentValue s name) = .ok t ∧
      (seen s name).getD (.str []) = FwValue.str (t.getD [])) ↔ Plain s name := by
  rw [seen]
  cases valueCase s name with
  | absent hvalues hplain hagent =>
    rw [hagent, hplain]
    exact ⟨fun _ => plain_of_none hvalues, fun _ => ⟨none, rfl, rfl⟩⟩
  | single value hvalues hplain hquote hagent =>
    rw [hagent, hplain, plain_iff_of_single hvalues hquote]
    constructor
    · rintro ⟨t, ht, heq⟩
      obtain rfl := Except.ok.inj ht
      exact (FwValue.str.inj heq).symm
    · intro hstrip
      exact ⟨_, rfl, congrArg FwValue.str hstrip.symm⟩
  | quoted all token hvalues hplain hquote _ hagent =>
    rw [hagent, hplain]
    refine ⟨?_, fun h => absurd h (not_plain hvalues hplain)⟩
    rintro ⟨t, ht, heq⟩
    obtain rfl := Except.ok.inj ht
    obtain rfl : [] = token := FwValue.str.inj heq
    exact absurd hquote List.not_mem_nil
  | split all items hvalues hplain _ _ hagent =>
    rw [hagent, hplain]
    refine ⟨?_, fun h => absurd h (not_plain hvalues hplain)⟩
    rintro ⟨t, ht, _⟩
    cases ht

theorem network_iff (s : UciSection) (name : Text) :
    networkList (seen s name) = networkList (agentValue s name) ↔ Plain s name := by
  rw [seen]
  cases valueCase s name with
  | absent hvalues hplain hagent =>
    rw [hagent, hplain]
    exact ⟨fun _ => plain_of_none hvalues, fun _ => rfl⟩
  | single value hvalues hplain hquote hagent =>
    rw [hagent, hplain, plain_iff_of_single hvalues hquote]
    show (if value = [] then [] else [value]) =
      (if strip value = [] then [] else [strip value]) ↔ _
    by_cases hempty : value = []
    · rw [hempty]
      exact ⟨fun _ => rfl, fun _ => rfl⟩
    · rw [if_neg hempty]
      by_cases hblank : strip value = []
      · rw [if_pos hblank, hblank]
        exact ⟨fun h => absurd h (List.cons_ne_nil _ _), fun h => absurd h.symm hempty⟩
      · rw [if_neg hblank, List.singleton_inj]
        exact eq_comm
  | quoted all token hvalues hplain hquote _ hagent =>
    rw [hagent, hplain]
    refine ⟨fun h => ?_, fun h => absurd h (not_plain hvalues hplain)⟩
    have htoken : token ≠ [] := List.ne_nil_of_mem hquote
    have hlists : ([] : List Text) = if token = [] then [] else [token] := h
    rw [if_neg htoken] at hlists
    cases hlists
  | split all items hvalues hplain hne _ hagent =>
    rw [hagent, hplain]
    refine ⟨fun h => ?_, fun h => absurd h (not_plain hvalues hplain)⟩
    exact absurd h.symm hne

/-- A text the parser extracts is stripped, or holds a quote. -/
theorem strip_of_textField {s : UciSection} {name t : Text}
    (h : textField (agentValue s name) = .ok (some t)) : strip t = t ∨ '\'' ∈ t := by
  cases valueCase s name with
  | absent _ _ hagent =>
    rw [hagent] at h
    cases h
  | single value _ _ _ hagent =>
    rw [hagent] at h
    obtain rfl := Option.some.inj (Except.ok.inj h)
    exact Or.inl (strip_strip value)
  | quoted _ token _ _ hquote _ hagent =>
    rw [hagent] at h
    obtain rfl := Option.some.inj (Except.ok.inj h)
    exact Or.inr hquote
  | split _ _ _ _ _ _ hagent =>
    rw [hagent] at h
    cases h

theorem pyOr_str {t : Text} (h : t ≠ []) (other : Option FwValue) :
    pyOr (some (.str t)) other = some (.str t) :=
  if_pos (decide_eq_true h)

theorem pyOr_list {items : List Text} (h : items ≠ []) (other : Option FwValue) :
    pyOr (some (.list items)) other = some (.list items) :=
  if_pos (decide_eq_true h)

theorem pyOr_none (other : Option FwValue) : pyOr none other = other := rfl

theorem pyOr_nil (other : Option FwValue) : pyOr (some (.str [])) other = other := rfl

/-- The destination port of a redirect: `src_dport`, or else `dport`. -/
def DportSame (s : UciSection) : Prop :=
  Plain s "src_dport" ∧
    ((s.values "src_dport" = none ∨ s.values "src_dport" = some [[]]) → Plain s "dport")

theorem dport_iff (s : UciSection) :
    (∃ t, textField (pyOr (agentValue s "src_dport") (agentValue s "dport")) = .ok t ∧
      pyOr (seen s "src_dport") (seen s "dport") = t.map FwValue.str) ↔ DportSame s := by
  have hseen : seen s "src_dport" = (plainValue s "src_dport").map FwValue.str := rfl
  rw [DportSame, hseen]
  cases valueCase s "src_dport" with
  | absent hvalues hplain hagent =>
    rw [hagent, hplain, Option.map_none, pyOr_none, pyOr_none, text_iff]
    exact ⟨fun h => ⟨plain_of_none hvalues, fun _ => h⟩, fun h => h.2 (Or.inl hvalues)⟩
  | single value hvalues hplain hquote hagent =>
    rw [hagent, hplain, Option.map_some, plain_iff_of_single hvalues hquote]
    by_cases hempty : value = []
    · subst hempty
      rw [show strip [] = [] from rfl, pyOr_nil, pyOr_nil, text_iff]
      exact ⟨fun h => ⟨rfl, fun _ => h⟩, fun h => h.2 (Or.inr hvalues)⟩
    rw [pyOr_str hempty]
    by_cases hblank : strip value = []
    · -- The view shows the blanks, the parser falls back to `dport`.
      rw [hblank, pyOr_nil]
      refine ⟨?_, fun h => absurd h.1.symm hempty⟩
      rintro ⟨t, ht, heq⟩
      obtain ⟨t', rfl, hvalue⟩ := Option.map_eq_some_iff.mp heq.symm
      obtain rfl := FwValue.str.inj hvalue
      rcases strip_of_textField ht with hstrip | hmem
      · exact absurd (hstrip.symm.trans hblank) hempty
      · exact absurd hmem hquote
    · rw [pyOr_str hblank]
      constructor
      · rintro ⟨t, ht, heq⟩
        obtain rfl := Except.ok.inj ht
        refine ⟨(FwValue.str.inj (Option.some.inj heq)).symm, fun h => ?_⟩
        rcases h with h | h
        · cases hvalues.symm.trans h
        · exact absurd (List.singleton_inj.mp (Option.some.inj (hvalues.symm.trans h))) hempty
      · rintro ⟨hstrip, _⟩
        exact ⟨_, rfl, by rw [hstrip]; rfl⟩
  | quoted all token hvalues hplain hquote _ hagent =>
    rw [hagent, hplain, Option.map_none, pyOr_none, pyOr_str (List.ne_nil_of_mem hquote)]
    refine ⟨?_, fun h => absurd h.1 (not_plain hvalues hplain)⟩
    rintro ⟨t, ht, heq⟩
    obtain rfl := Except.ok.inj ht
    obtain ⟨v, hv, heq⟩ := Option.map_eq_some_iff.mp heq
    obtain rfl := FwValue.str.inj heq
    exact absurd hquote (plainValue_eq_some_iff.mp hv).2
  | split all items hvalues hplain hne _ hagent =>
    rw [hagent, hplain, pyOr_list hne]
    refine ⟨?_, fun h => absurd h.1 (not_plain hvalues hplain)⟩
    rintro ⟨t, ht, _⟩
    cases ht

/-! ## The enabled state -/

/-- The state the view reads. -/
def seenEnabled (s : UciSection) : Bool :=
  match plainValue s "disabled" with
  | some d => !(d ≠ [] && isTrueWord d)
  | none =>
      match plainValue s "enabled" with
      | some e => e ≠ "0".toList
      | none => true

/-- The state the parser reads. -/
def agentEnabled (s : UciSection) : Except AgentError Bool :=
  match agentValue s "disabled" with
  | some d => do return !(← asBool (some d))
  | none => .ok (agentValue s "enabled" ≠ some (.str "0"))

/-- An option `disabled` is no list; if it is read it is a true word only
without blanks, and if only the parser reads it `enabled` is not `0`.  Without
it, `enabled` is no `0` with blanks. -/
def EnabledSame (s : UciSection) : Prop :=
  Unsplit s "disabled" ∧
    match s.values "disabled" with
    | none => ∀ e, s.values "enabled" = some [e] → strip e = "0".toList → e = "0".toList
    | some all =>
        (∀ d, all = [d] → '\'' ∉ d → isTrueWord (strip d) = true → strip d = d) ∧
          ((∀ d, all = [d] → '\'' ∈ d) → s.values "enabled" ≠ some ["0".toList])

/-- The characters of a true word are printable and no quotes. -/
theorem char_of_isTrueWord {t : Text} (h : isTrueWord t = true) {c : Char} (hc : c ∈ t) :
    isSpace c = false ∧ c ≠ '\'' := by
  have hwords : ∀ word ∈ trueWords, ∀ d ∈ word, isSpace d = false ∧ d ≠ '\'' := by decide
  have hmem : lowerAscii t ∈ trueWords := List.contains_iff_mem.mp h
  have hlower : isSpace c.toLower = false ∧ c.toLower ≠ '\'' :=
    hwords _ hmem _ (List.mem_map_of_mem hc)
  by_cases hupper : c.val ≥ 'A'.val ∧ c.val ≤ 'Z'.val
  · have hlo : 65 ≤ c.toNat := hupper.1
    have hhi : c.toNat ≤ 90 := hupper.2
    refine ⟨isSpace_of_printable (by omega) (by omega), ?_⟩
    rintro rfl
    exact absurd hlo (by decide)
  · rw [Char.toLower, dif_neg hupper] at hlower
    exact hlower

theorem isTrueWord_strip {t : Text} (h : isTrueWord t = true) : strip t = t := by
  have hne : t ≠ [] := by
    rintro rfl
    exact absurd h (by decide)
  refine strip_of_ends hne (fun c hc => ?_) (fun c hc => ?_)
  · exact (char_of_isTrueWord h (List.mem_of_mem_head? hc)).1
  · exact (char_of_isTrueWord h (List.mem_of_mem_getLast? hc)).1

theorem not_isTrueWord_of_quote {t : Text} (h : '\'' ∈ t) : isTrueWord t = false := by
  by_contra hword
  rw [Bool.not_eq_false] at hword
  exact (char_of_isTrueWord hword h).2 rfl

theorem truth_eq (t : Text) : (decide (t ≠ []) && isTrueWord t) = isTrueWord t := by
  cases t with
  | nil => decide
  | cons c t => simp

/-- Without `disabled`, both look at `enabled`. -/
theorem enabled_of_absent (s : UciSection) :
    (agentValue s "enabled" ≠ some (.str "0") ↔
        (match plainValue s "enabled" with
          | some e => decide (e ≠ "0".toList)
          | none => true) = true) ↔
      ∀ e, s.values "enabled" = some [e] → strip e = "0".toList → e = "0".toList := by
  have hzero : '\'' ∉ "0".toList := by decide
  cases valueCase s "enabled" with
  | absent hvalues hplain hagent =>
    rw [hagent, hplain, hvalues]
    simp
  | single value hvalues hplain hquote hagent =>
    rw [hagent, hplain, hvalues]
    simp only [ne_eq, Option.some.injEq, FwValue.str.injEq, decide_not, Bool.not_eq_true',
      decide_eq_false_iff_not, not_iff_not, List.cons.injEq, and_true, forall_eq']
    refine ⟨fun h hstrip => h.mp hstrip, fun h => ⟨h, fun hvalue => ?_⟩⟩
    rw [hvalue]
    decide
  | quoted all token hvalues hplain hquote hunsplit hagent =>
    rw [hagent, hplain]
    have htoken : token ≠ "0".toList := by
      rintro rfl
      exact hzero hquote
    simp only [ne_eq, Option.some.injEq, FwValue.str.injEq, htoken, not_false_eq_true, true_iff]
    intro e he hstrip
    exfalso
    have hnot : '\'' ∉ e := fun hmem => hzero (hstrip ▸ quote_mem_strip_iff.mpr hmem)
    rw [plainValue_eq_some_iff.mpr ⟨he, hnot⟩] at hplain
    cases hplain
  | split all items hvalues hplain hne hsplit hagent =>
    rw [hagent, hplain]
    simp only [ne_eq, Option.some.injEq, reduceCtorEq, not_false_eq_true, true_iff]
    intro e he hstrip
    exfalso
    have hnot : '\'' ∉ e := fun hmem => hzero (hstrip ▸ quote_mem_strip_iff.mpr hmem)
    rw [plainValue_eq_some_iff.mpr ⟨he, hnot⟩] at hplain
    cases hplain

theorem seenEnabled_of_hidden (s : UciSection) :
    (match plainValue s "enabled" with
      | some e => decide (e ≠ "0".toList)
      | none => true) = true ↔ s.values "enabled" ≠ some ["0".toList] := by
  have hzero : '\'' ∉ "0".toList := by decide
  cases hplain : plainValue s "enabled" with
  | some e =>
    rw [(plainValue_eq_some_iff.mp hplain).1]
    simp
  | none =>
    refine ⟨fun _ hvalues => ?_, fun _ => rfl⟩
    rw [plainValue_eq_some_iff.mpr ⟨hvalues, hzero⟩] at hplain
    cases hplain

theorem enabled_iff (s : UciSection) : agentEnabled s = .ok (seenEnabled s) ↔ EnabledSame s := by
  rw [agentEnabled, seenEnabled, EnabledSame]
  cases valueCase s "disabled" with
  | absent hvalues hplain hagent =>
    rw [hvalues, hplain, hagent]
    show Except.ok (decide (agentValue s "enabled" ≠ some (.str "0"))) = _ ↔ _
    rw [Except.ok.injEq, Bool.eq_iff_iff, decide_eq_true_iff, enabled_of_absent]
    exact ⟨fun h => ⟨unsplit_of_none hvalues, h⟩, fun h => h.2⟩
  | single value hvalues hplain hquote hagent =>
    rw [hvalues, hplain, hagent]
    show Except.ok (!(decide (strip value ≠ []) && isTrueWord (strip value))) =
      Except.ok (!(decide (value ≠ []) && isTrueWord value)) ↔ _
    rw [truth_eq, truth_eq, Except.ok.injEq, Bool.not_inj_iff]
    constructor
    · intro h
      refine ⟨unsplit_of_single hvalues hquote, fun d hd _ hword => ?_, fun hall => ?_⟩
      · obtain rfl := List.singleton_inj.mp hd
        exact isTrueWord_strip (h ▸ hword)
      · exact absurd (hall value rfl) hquote
    · rintro ⟨_, hstrip, _⟩
      cases hword : isTrueWord (strip value) with
      | true => rw [← hword, hstrip value rfl hquote hword]
      | false =>
        by_contra hne
        have htrue : isTrueWord value = true := by simpa using Ne.symm hne
        rw [isTrueWord_strip htrue, htrue] at hword
        cases hword
  | quoted all token hvalues hplain hquote hunsplit hagent =>
    have hhidden : ∀ d, all = [d] → '\'' ∈ d := by
      rintro d rfl
      by_contra hnot
      rw [plainValue_eq_some_iff.mpr ⟨hvalues, hnot⟩] at hplain
      cases hplain
    rw [hvalues, hplain, hagent]
    show Except.ok (!(decide (token ≠ []) && isTrueWord token)) = _ ↔ _
    rw [truth_eq, not_isTrueWord_of_quote hquote, Bool.not_false, Except.ok.injEq, eq_comm,
      seenEnabled_of_hidden]
    refine ⟨fun h => ⟨(unsplit_iff hvalues).mpr hunsplit, fun d hd hnot => ?_, fun _ => h⟩,
      fun h => h.2.2 hhidden⟩
    exact absurd (hhidden d hd) hnot
  | split all items hvalues hplain hne hsplit hagent =>
    rw [hagent]
    refine ⟨fun h => ?_, fun h => absurd ((unsplit_iff hvalues).mp h.1) hsplit⟩
    obtain ⟨b, hb, _⟩ := except_bind_eq_ok.mp h
    rw [asBool, if_neg hne] at hb
    cases hb

end OpenWrtCopilot.Ports.FirewallAgreement
