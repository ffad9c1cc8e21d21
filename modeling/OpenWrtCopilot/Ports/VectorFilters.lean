import OpenWrtCopilot.Ports.FaissStore
import OpenWrtCopilot.Ports.SqliteStore

/-!
# Metadata that filters cannot read

Says when `matches` decides whether metadata matches filters.  `_matches_clause` compares a number
in the metadata with whatever the clause has, so that an ordering with a text, a list or nothing
raises a `TypeError`, and with it the loop over the documents of a collection.

## Main results

* `matchesClause_eq_true_iff`, `matchesClause_eq_none_iff` — when a clause holds and when it
  raises.
* `matchesFilters_iff` — when all clauses are decided.
* `filtered_iff` — when a search and a filter call get through the documents.
* `text_operand_raises` — a document that makes them fail.
-/

namespace OpenWrtCopilot.Ports.VectorFilters

open Verified
open Verified.PyDict (get?)
open Verified.PyText
open Ports.VectorStore
open Ports.SqliteStore (DocumentRow rowToDocument searchResult)

/-! ## Clauses -/

/-- The value that a clause is about. -/
def valueOf (metadata : VectorMetadata) (clause : MetadataFilter) : Value :=
  (get? clause.field metadata).getD .null

/-- What an ordering says of two numbers. -/
def ordering : FilterOperator → Option (ℚ → ℚ → Bool)
  | .gt => some fun m n => n < m
  | .gte => some fun m n => n ≤ m
  | .lt => some fun m n => m < n
  | .lte => some fun m n => m ≤ n
  | _ => none

/-- What a clause says of metadata. -/
def Holds (metadata : VectorMetadata) (clause : MetadataFilter) : Prop :=
  match clause.op with
  | .eq => (valueOf metadata clause).same clause.value = true
  | .ne => (valueOf metadata clause).same clause.value = false
  | .isIn => ∃ items, clause.value = .list items ∧
      ∃ item ∈ items, (valueOf metadata clause).same item = true
  | .notIn => ∃ items, clause.value = .list items ∧
      ∀ item ∈ items, (valueOf metadata clause).same item = false
  | .contains => ∃ t part, valueOf metadata clause = .text t ∧ clause.value = .text part ∧
      part <:+: t
  | op => ∃ order m n, ordering op = some order ∧
      (valueOf metadata clause).number? = some m ∧ clause.value.number? = some n ∧
        order m n = true

/-- An ordering has a number in the metadata, and something else to compare it with. -/
structure Raises (metadata : VectorMetadata) (clause : MetadataFilter) : Prop where
  ordering : (ordering clause.op).isSome = true
  number : (valueOf metadata clause).number?.isSome = true
  other : clause.value.number? = none

/-- No clause raises after clauses that hold. -/
def Comparable (metadata : VectorMetadata) (filters : List MetadataFilter) : Prop :=
  ∀ before clause after, filters = before ++ clause :: after →
    (∀ earlier ∈ before, Holds metadata earlier) → ¬ Raises metadata clause

section Clause

variable {metadata : VectorMetadata} {clause : MetadataFilter}

theorem find_isSome_iff {part t : Text} : (PySub.find part t).isSome = true ↔ part <:+: t := by
  constructor
  · intro h
    obtain ⟨i, hi⟩ := Option.isSome_iff_exists.mp h
    obtain ⟨-, hat, -⟩ := PySub.find_eq_some_iff.mp hi
    exact hat.isInfix.trans (List.drop_suffix i t).isInfix
  · rintro ⟨a, b, rfl⟩
    have hat : ∃ i, i ≤ (a ++ part ++ b).length ∧ PySub.At part (a ++ part ++ b) i := by
      refine ⟨a.length, by simp only [List.length_append]; omega, ?_⟩
      rw [PySub.At, List.append_assoc, List.drop_left]
      exact List.prefix_append part b
    classical
    obtain ⟨hle, hfound⟩ := Nat.find_spec hat
    refine Option.isSome_iff_exists.mpr ⟨Nat.find hat, ?_⟩
    refine PySub.find_eq_some_iff.mpr ⟨hle, hfound, ?_⟩
    exact fun j hj hearlier => Nat.find_min hat hj ⟨hj.le.trans hle, hearlier⟩

theorem compared_eq_none_iff {value expected : Value} {order : ℚ → ℚ → Bool} :
    compared value expected order = none ↔
      value.number?.isSome = true ∧ expected.number? = none := by
  rw [compared]
  cases value.number? with
  | none => exact iff_of_false nofun fun h => nomatch h.1
  | some m => rw [Option.map_eq_none_iff]; exact (and_iff_right rfl).symm

theorem compared_eq_true_iff {value expected : Value} {order : ℚ → ℚ → Bool} :
    compared value expected order = some true ↔
      ∃ m n, value.number? = some m ∧ expected.number? = some n ∧ order m n = true := by
  rw [compared]
  cases value.number? with
  | none => exact iff_of_false nofun fun ⟨_, _, h, _⟩ => nomatch h
  | some m =>
    rw [Option.map_eq_some_iff]
    constructor
    · rintro ⟨n, hn, horder⟩
      exact ⟨m, n, rfl, hn, horder⟩
    · rintro ⟨_, n, hm, hn, horder⟩
      obtain rfl := Option.some.inj hm
      exact ⟨n, hn, horder⟩

/-- An ordering is a comparison. -/
theorem matchesClause_ordering {order : ℚ → ℚ → Bool} (h : ordering clause.op = some order) :
    matchesClause metadata clause = compared (valueOf metadata clause) clause.value order := by
  rw [matchesClause]
  cases hop : clause.op with
  | gt | gte | lt | lte =>
    rw [hop] at h
    obtain rfl := Option.some.inj h
    rfl
  | eq | ne | isIn | notIn | contains =>
    rw [hop] at h
    cases h

/-- The others raise nothing. -/
theorem matchesClause_other (h : ordering clause.op = none) :
    ∃ keep, matchesClause metadata clause = some keep := by
  rw [matchesClause]
  cases hop : clause.op with
  | gt | gte | lt | lte =>
    rw [hop] at h
    cases h
  | eq | ne => exact ⟨_, rfl⟩
  | isIn | notIn => cases clause.value <;> exact ⟨_, rfl⟩
  | contains =>
    dsimp only
    split
    · exact ⟨_, rfl⟩
    · exact ⟨_, rfl⟩

/-- A clause raises where it compares a number with something else. -/
theorem matchesClause_eq_none_iff :
    matchesClause metadata clause = none ↔ Raises metadata clause := by
  cases horder : ordering clause.op with
  | none =>
    obtain ⟨keep, hkeep⟩ := @matchesClause_other metadata clause horder
    rw [hkeep]
    refine iff_of_false nofun fun h => ?_
    have hsome := h.ordering
    rw [horder] at hsome
    cases hsome
  | some order =>
    rw [matchesClause_ordering horder, compared_eq_none_iff]
    exact ⟨fun h => ⟨by rw [horder]; rfl, h.1, h.2⟩, fun h => ⟨h.number, h.other⟩⟩

/-- A clause holds where it is decided so. -/
theorem matchesClause_eq_true_iff :
    matchesClause metadata clause = some true ↔ Holds metadata clause := by
  rw [Holds]
  cases hop : clause.op with
  | gt | gte | lt | lte =>
    rw [matchesClause_ordering (by rw [hop]; rfl), compared_eq_true_iff]
    constructor
    · rintro ⟨m, n, hm, hn, horder⟩
      exact ⟨_, m, n, rfl, hm, hn, horder⟩
    · rintro ⟨order, m, n, horder, hm, hn, hcompare⟩
      obtain rfl := Option.some.inj horder
      exact ⟨m, n, hm, hn, hcompare⟩
  | eq =>
    rw [matchesClause, hop, Option.some_inj]
    rfl
  | ne =>
    rw [matchesClause, hop, Option.some_inj, Bool.not_eq_true']
    rfl
  | isIn =>
    rw [matchesClause, hop]
    cases hvalue : clause.value with
    | list items =>
      dsimp only
      rw [Option.some_inj, List.any_eq_true]
      constructor
      · exact fun h => ⟨items, rfl, h⟩
      · rintro ⟨items, ⟨⟩, h⟩
        exact h
    | null | bool | integer | number | text | object =>
      exact iff_of_false (by rintro ⟨⟩) (by rintro ⟨_, ⟨⟩, _⟩)
  | notIn =>
    rw [matchesClause, hop]
    cases hvalue : clause.value with
    | list items =>
      dsimp only
      rw [Option.some_inj, Bool.not_eq_true', List.any_eq_false]
      constructor
      · exact fun h => ⟨items, rfl, fun item hitem => Bool.not_eq_true _ ▸ h item hitem⟩
      · rintro ⟨items, ⟨⟩, h⟩
        exact fun item hitem => Bool.not_eq_true _ ▸ h item hitem
    | null | bool | integer | number | text | object =>
      exact iff_of_false (by rintro ⟨⟩) (by rintro ⟨_, ⟨⟩, _⟩)
  | contains =>
    rw [matchesClause, hop, ← valueOf]
    cases hvalue : valueOf metadata clause with
    | text t =>
      cases hexpected : clause.value with
      | text part =>
        dsimp only
        rw [Option.some_inj, find_isSome_iff]
        constructor
        · exact fun h => ⟨t, part, rfl, rfl, h⟩
        · rintro ⟨_, _, ⟨⟩, ⟨⟩, h⟩
          exact h
      | null | bool | integer | number | list | object =>
        exact iff_of_false (by rintro ⟨⟩) (by rintro ⟨_, _, _, ⟨⟩, _⟩)
    | null | bool | integer | number | list | object =>
      exact iff_of_false (by rintro ⟨⟩) (by rintro ⟨_, _, ⟨⟩, _⟩)

end Clause

/-! ## Filters -/

section Filters

variable {metadata : VectorMetadata} {filters : List MetadataFilter}

theorem comparable_cons {clause : MetadataFilter} {rest : List MetadataFilter} :
    Comparable metadata (clause :: rest) ↔
      ¬ Raises metadata clause ∧ (Holds metadata clause → Comparable metadata rest) := by
  constructor
  · intro h
    refine ⟨h [] clause rest rfl (List.forall_mem_nil _), fun hholds => ?_⟩
    intro before later after hsplit hbefore
    refine h (clause :: before) later after (by rw [hsplit, List.cons_append]) ?_
    exact List.forall_mem_cons.mpr ⟨hholds, hbefore⟩
  · rintro ⟨hhere, hlater⟩ before later after hsplit hbefore
    cases before with
    | nil =>
      obtain ⟨rfl, -⟩ := List.cons.inj hsplit
      exact hhere
    | cons first before =>
      obtain ⟨rfl, hrest⟩ := List.cons.inj hsplit
      obtain ⟨hholds, hbefore⟩ := List.forall_mem_cons.mp hbefore
      exact hlater hholds before later after hrest hbefore

/-- All clauses are read exactly if none raises that is read, and then all of them are said to
hold exactly if they do. -/
theorem matchesFilters_iff (metadata : VectorMetadata) (filters : List MetadataFilter) :
    (Comparable metadata filters ∧ ∃ keep, matchesFilters metadata filters = some keep ∧
      (keep = true ↔ ∀ clause ∈ filters, Holds metadata clause)) ∨
    (¬ Comparable metadata filters ∧ matchesFilters metadata filters = none) := by
  induction filters with
  | nil =>
    refine Or.inl ⟨fun before clause after h => ?_, true, rfl, iff_of_true rfl nofun⟩
    cases before <;> cases h
  | cons clause rest ih =>
    rw [comparable_cons, ← matchesClause_eq_none_iff, ← matchesClause_eq_true_iff,
      matchesFilters, List.forall_mem_cons, ← matchesClause_eq_true_iff]
    cases matchesClause metadata clause with
    | none => exact Or.inr ⟨fun h => h.1 rfl, rfl⟩
    | some keep =>
      cases keep with
      | false =>
        refine Or.inl ⟨⟨Option.some_ne_none _, fun h => ?_⟩, false, rfl, ?_⟩
        · cases h
        · exact iff_of_false Bool.false_ne_true fun h => nomatch h.1
      | true =>
        obtain ⟨hcomparable, keep, hkeep, hiff⟩ | ⟨hnot, hnone⟩ := ih
        · exact Or.inl ⟨⟨Option.some_ne_none _, fun _ => hcomparable⟩, keep, hkeep,
            hiff.trans (and_iff_right rfl).symm⟩
        · exact Or.inr ⟨fun h => hnot (h.2 rfl), hnone⟩

end Filters

/-! ## Searches -/

/-- The loop of `filter_documents`. -/
def filterLoop {K : Type} (filters : List MetadataFilter) (items : List (Text × DocumentRow K)) :
    Except VectorStoreError (List (VectorDocument K)) :=
  items.filterMapM fun item => do
    let keep ← keepMatching item.2.metadata filters
    return if keep = true then some (rowToDocument item.1 item.2) else none

/-- The filters are decided for each document, and a search and a filter call get through all of
them. -/
structure Filtered {K : Type} [Field K] [LinearOrder K] (R : SquareRoot K)
    (filters : List MetadataFilter) (items : List (Text × DocumentRow K)) : Prop where
  decided : ∀ item ∈ items, ∃ keep, matchesFilters item.2.metadata filters = some keep ∧
    (keep = true ↔ ∀ clause ∈ filters, Holds item.2.metadata clause)
  search : ∀ request : SearchRequest K, request.filters = filters →
    ∃ results, items.filterMapM (searchResult R request) = .ok results
  filter : ∃ documents, filterLoop filters items = .ok documents

theorem decided_of_comparable {metadata : VectorMetadata} {filters : List MetadataFilter}
    (h : Comparable metadata filters) :
    ∃ keep, matchesFilters metadata filters = some keep ∧
      (keep = true ↔ ∀ clause ∈ filters, Holds metadata clause) := by
  obtain ⟨-, hdecided⟩ | ⟨hnot, -⟩ := matchesFilters_iff metadata filters
  · exact hdecided
  · exact absurd h hnot

/-- **The filters are decided for each document, and a search and a filter call get through all of
them, exactly if no document has a number where an ordering that is read has none.** -/
theorem filtered_iff {K : Type} [Field K] [LinearOrder K] (R : SquareRoot K)
    (filters : List MetadataFilter) (items : List (Text × DocumentRow K)) :
    Filtered R filters items ↔ ∀ item ∈ items, Comparable item.2.metadata filters := by
  constructor
  · intro h item hitem
    obtain ⟨keep, hkeep, -⟩ := h.decided item hitem
    obtain ⟨hcomparable, -⟩ | ⟨-, hnone⟩ := matchesFilters_iff item.2.metadata filters
    · exact hcomparable
    · cases hkeep.symm.trans hnone
  · intro h
    refine ⟨fun item hitem => decided_of_comparable (h item hitem), ?_, ?_⟩
    · rintro request rfl
      refine ⟨_, filterMapM_ok fun item hitem => ?_⟩
      obtain ⟨keep, hkeep, -⟩ := decided_of_comparable (h item hitem)
      rw [searchResult, keepMatching, hkeep]
      cases keep with
      | false => exact ⟨_, rfl⟩
      | true => exact ⟨_, rfl⟩
    · refine ⟨_, filterMapM_ok fun item hitem => ?_⟩
      obtain ⟨keep, hkeep, -⟩ := decided_of_comparable (h item hitem)
      rw [keepMatching, hkeep]
      exact ⟨_, rfl⟩

/-! ## A document that makes them fail -/

/-- A document about a device with four ports. -/
def fourPorts (K : Type) : Text × DocumentRow K :=
  ("device".toList,
    { vector := [], text := [], metadata := [("ports".toList, .integer 4)], version := 1 })

/-- The number of ports is compared with a text. -/
theorem text_operand_raises :
    ¬ ∀ (R : SquareRoot ℝ) (filters : List MetadataFilter) (items : List (Text × DocumentRow ℝ)),
      Filtered R filters items := by
  intro h
  have hdecided := (h FaissStore.realRoot
    [{ field := "ports".toList, op := .gt, value := .text "2".toList }] [fourPorts ℝ]).decided
  obtain ⟨keep, hkeep, -⟩ := hdecided (fourPorts ℝ) List.mem_cons_self
  cases hkeep

end OpenWrtCopilot.Ports.VectorFilters
