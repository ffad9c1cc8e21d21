import OpenWrtCopilot.Ports.SqliteStore
import OpenWrtCopilot.Verified.Threads

/-!
# Merging metadata

Ports `MetadataManager.set` with `merge=True` over the SQLite backend.  A call reads the metadata
of the document, merges its own into them and writes the whole back; other calls may run between
the read and the write.

## Main results

* `merged_iff` — when the metadata keep what every returned call has set.
* `interleaved_key_lost` — two calls that both return, and one key.
-/

namespace OpenWrtCopilot.Ports.MetadataManager

open Verified
open Verified.PyDict
open Verified.PyText
open Verified.Threads
open Verified.Fallible (raise read)
open Ports.VectorStore
open Ports.SqliteStore

variable {K : Type}

/-! ## Calls -/

/-- The metadata of a call, a dictionary. -/
abbrev Metadata := { values : VectorMetadata // (keys values).Nodup }

/-- `SQLiteVectorStore.get_metadata`. -/
def getMetadata (pair : Pair) (id : Text) :
    Fallible VectorStoreError (Database K) VectorMetadata := do
  let db ← read
  match get? (pair, id) db.documents with
  | none => raise (.documentNotFound id pair.2)
  | some row => pure row.metadata

/-- `{**existing, **own}`. -/
def merge (existing own : VectorMetadata) : VectorMetadata :=
  own.foldl (fun merged item => set item.1 item.2 merged) existing

/-- Where a call of `set` with `merge=True` stands. -/
inductive Call
  /-- Before `get_metadata`. -/
  | called (own : Metadata)
  /-- Before `set_metadata`, with what was read. -/
  | merging (own : Metadata) (existing : VectorMetadata)
  | returned
  | raised (e : VectorStoreError)

/-- The database, and the metadata of the calls that have returned. -/
structure Shared (K : Type) where
  db : Database K
  returned : List Metadata := []

section

variable (pair : Pair) (id : Text)

/-- A call runs to its next `await`. -/
def step : Unit → Shared K → Call → Option (Shared K × Call)
  | (), s, .called own =>
      match getMetadata pair id s.db with
      | (.ok existing, db) => some ({ s with db }, .merging own existing)
      | (.error e, db) => some ({ s with db }, .raised e)
  | (), s, .merging own existing =>
      match setMetadata pair id (merge existing own.1) s.db with
      | (.ok (), db) => some ({ db, returned := s.returned ++ [own] }, .returned)
      | (.error e, db) => some ({ s with db }, .raised e)
  | (), _, .returned => none
  | (), _, .raised _ => none

/-- The calls, before any of them has run. -/
def start (db : Database K) (calls : List Metadata) : System (Shared K) Call :=
  ⟨{ db }, calls.map .called⟩

/-- The metadata of the document. -/
def metadataOf (db : Database K) : Option VectorMetadata :=
  (get? (pair, id) db.documents).map (·.metadata)

/-! ## What the metadata keep -/

/-- Some call that has returned set the key to that value. -/
def Given (returned : List Metadata) (key : Text) (value : Option Value) : Prop :=
  ∃ own ∈ returned, key ∈ keys own.1 ∧ value = get? key own.1

/-- A call that has returned set the key. -/
def IsSet (returned : List Metadata) (key : Text) : Prop := ∃ own ∈ returned, key ∈ keys own.1

/-- The document has every key of the calls, with the value of one of them, and the earlier keys
that none of them set. -/
def Keeps (initial : VectorMetadata) (calls : List Metadata) (db : Database K) : Prop :=
  ∃ values, metadataOf pair id db = some values ∧ ∀ key,
    (IsSet calls key → Given calls key (get? key values)) ∧
      (¬IsSet calls key → get? key values = get? key initial)

/-- The document keeps what the calls that have returned have set. -/
def Merged (initial : VectorMetadata) (s : Shared K) : Prop :=
  Keeps pair id initial s.returned s.db

/-- A write is fresh if what the call read has, under each key that returned calls set and this
one does not, the value of such a call. -/
def Fresh (s : Shared K) : Call → Unit → Prop
  | .merging own existing, () =>
      ∀ key ∉ keys own.1, IsSet s.returned key → Given s.returned key (get? key existing)
  | _, () => True

/-- A call that has read knows the earlier keys. -/
def Knows (initial : VectorMetadata) (s : Shared K) : Call → Prop
  | .merging _ existing => ∀ key, ¬IsSet s.returned key → get? key existing = get? key initial
  | _ => True

end

theorem get?_merge (existing : VectorMetadata) (own : Metadata) (key : Text) :
    get? key (merge existing own.1) = (get? key own.1).or (get? key existing) := by
  cases h : get? key own.1 with
  | some value =>
    have hmem := (get?_eq_some_iff own.2).mp h
    have hvalue : ∀ item ∈ own.1, item.1 = key → item.2 = value := by
      rintro ⟨other, given⟩ hitem rfl
      exact Option.some.inj (((get?_eq_some_iff own.2).mpr hitem).symm.trans h)
    rw [merge, PyDict.get?_foldl_set _ _ _ _ key value hvalue, if_pos ⟨_, hmem, rfl⟩,
      Option.some_or]
  | none =>
    have hnone : ¬∃ item ∈ own.1, item.1 = key := by
      rintro ⟨item, hitem, rfl⟩
      exact get?_eq_none_iff.mp h (List.mem_map_of_mem hitem)
    rw [merge, PyDict.get?_foldl_set _ _ _ _ key .null, if_neg hnone, Option.none_or]
    rintro item hitem rfl
    exact absurd ⟨item, hitem, rfl⟩ hnone

variable {pair : Pair} {id : Text}

theorem getMetadata_eq {db : Database K} {values : VectorMetadata}
    (h : metadataOf pair id db = some values) : getMetadata pair id db = (.ok values, db) := by
  obtain ⟨row, hrow, rfl⟩ := Option.map_eq_some_iff.mp h
  rw [getMetadata, Fallible.read_bind_apply, hrow]
  rfl

theorem exists_setMetadata {db : Database K} {values : VectorMetadata}
    (h : metadataOf pair id db = some values) (merged : VectorMetadata) :
    ∃ db', setMetadata pair id merged db = (.ok (), db') ∧
      metadataOf pair id db' = some merged := by
  obtain ⟨row, hrow, rfl⟩ := Option.map_eq_some_iff.mp h
  refine ⟨setRow pair id { row with metadata := merged } db, ?_, ?_⟩
  · rw [setMetadata, transaction, Fallible.read_bind_apply, hrow]
    rfl
  · rw [metadataOf, setRow, get?_set_self]
    rfl

/-! ## One step -/

theorem isSet_concat {returned : List Metadata} {own : Metadata} {key : Text} :
    IsSet (returned ++ [own]) key ↔ IsSet returned key ∨ key ∈ keys own.1 := by
  simp [IsSet, or_and_right, exists_or]

theorem Given.concat {returned : List Metadata} {own : Metadata} {key : Text}
    {value : Option Value} (h : Given returned key value) :
    Given (returned ++ [own]) key value := by
  obtain ⟨other, hother, hkey⟩ := h
  exact ⟨other, List.mem_append_left _ hother, hkey⟩

/-- A fresh write keeps what the returned calls have set. -/
theorem Merged.write {initial existing : VectorMetadata} {s : Shared K} {own : Metadata}
    {db : Database K} (hknows : Knows initial s (.merging own existing))
    (hfresh : Fresh s (.merging own existing) ())
    (hdb : metadataOf pair id db = some (merge existing own.1)) :
    Merged pair id initial { db, returned := s.returned ++ [own] } := by
  refine ⟨_, hdb, fun key => ?_⟩
  rw [isSet_concat, get?_merge]
  by_cases hown : key ∈ keys own.1
  · refine ⟨fun _ => ⟨own, List.mem_append_right _ List.mem_cons_self, hown, ?_⟩,
      fun hnone => absurd (Or.inr hown) hnone⟩
    obtain ⟨value, hvalue⟩ := Option.isSome_iff_exists.mp (isSome_get?_iff.mpr hown)
    rw [hvalue, Option.some_or]
  · rw [get?_eq_none_iff.mpr hown, Option.none_or, or_iff_left hown]
    exact ⟨fun hset => (hfresh key hown hset).concat, hknows key⟩

/-- A write that is not fresh loses a key. -/
theorem not_merged_write {initial existing : VectorMetadata} {s : Shared K} {own : Metadata}
    {db : Database K} (hfresh : ¬Fresh s (.merging own existing) ())
    (hdb : metadataOf pair id db = some (merge existing own.1)) :
    ¬Merged pair id initial { db, returned := s.returned ++ [own] } := by
  rintro ⟨values, hvalues, hkeys⟩
  refine hfresh fun key hown hset => ?_
  obtain ⟨giver, hgiver, hkey, hvalue⟩ := (hkeys key).1 (isSet_concat.mpr (.inl hset))
  rw [← Option.some.inj (hdb.symm.trans hvalues), get?_merge, get?_eq_none_iff.mpr hown,
    Option.none_or] at hvalue
  obtain hgiver | hgiver := List.mem_append.mp hgiver
  · exact ⟨giver, hgiver, hkey, hvalue⟩
  · rw [List.mem_singleton.mp hgiver] at hkey
    exact absurd hkey hown

theorem step_called {s : Shared K} {values : VectorMetadata} (own : Metadata)
    (h : metadataOf pair id s.db = some values) :
    step pair id () s (.called own) = some (s, .merging own values) := by
  rw [step, getMetadata_eq h]

theorem exists_step_merging {s : Shared K} {values : VectorMetadata} (own : Metadata)
    (existing : VectorMetadata) (h : metadataOf pair id s.db = some values) :
    ∃ db, step pair id () s (.merging own existing) =
        some ({ db, returned := s.returned ++ [own] }, .returned) ∧
      metadataOf pair id db = some (merge existing own.1) := by
  obtain ⟨db, hset, hdb⟩ := exists_setMetadata h (merge existing own.1)
  exact ⟨db, by rw [step, hset], hdb⟩

theorem Knows.concat {initial : VectorMetadata} {s : Shared K} {call : Call}
    (h : Knows initial s call) (db : Database K) (own : Metadata) :
    Knows initial { db, returned := s.returned ++ [own] } call := by
  cases call with
  | merging other existing =>
    exact fun key hset => h key fun hkey => hset (isSet_concat.mpr (.inl hkey))
  | called other => trivial
  | returned => trivial
  | raised e => trivial

/-- What a step of a call does while the document is there. -/
theorem step_cases {initial : VectorMetadata} {s s' : Shared K} {call call' : Call}
    (h : Merged pair id initial s) (hstep : step pair id () s call = some (s', call')) :
    (∃ own values, call = .called own ∧ metadataOf pair id s.db = some values ∧ s' = s ∧
      call' = .merging own values) ∨
    ∃ own existing db, call = .merging own existing ∧ call' = .returned ∧
      s' = { db, returned := s.returned ++ [own] } ∧
      metadataOf pair id db = some (merge existing own.1) := by
  obtain ⟨values, hvalues, -⟩ := h
  cases call with
  | called own =>
    rw [step_called own hvalues] at hstep
    cases hstep
    exact .inl ⟨own, values, rfl, hvalues, rfl, rfl⟩
  | merging own existing =>
    obtain ⟨db, heq, hdb⟩ := exists_step_merging own existing hvalues
    rw [heq] at hstep
    cases hstep
    exact .inr ⟨own, existing, db, rfl, rfl, rfl, hdb⟩
  | returned => exact nomatch hstep
  | raised e => exact nomatch hstep

/-! ## Every interleaving -/

/-- What a call has still to write. -/
def Call.pending : Call → List Metadata
  | .called own => [own]
  | .merging own _ => [own]
  | .returned => []
  | .raised _ => []

/-- Every call has returned, or has still to write. -/
def Accounted (pair : Pair) (id : Text) (calls : List Metadata) (c : System (Shared K) Call) :
    Prop :=
  (metadataOf pair id c.shared.db).isSome = true ∧
    calls.Perm (c.shared.returned ++ held Call.pending c.threads)

theorem Accounted.move {calls : List Metadata} {c c' : System (Shared K) Call}
    {event : Nat × Unit} (h : Accounted pair id calls c)
    (hmove : Threads.move (step pair id) event c = some c') : Accounted pair id calls c' := by
  obtain ⟨hdb, hperm⟩ := h
  obtain ⟨values, hvalues⟩ := Option.isSome_iff_exists.mp hdb
  obtain ⟨call, s', call', hthread, hstep, rfl⟩ := move_eq_some_iff.mp hmove
  have hbefore := hperm.trans ((held_perm Call.pending hthread).append_left _)
  cases call with
  | called own =>
    rw [step_called own hvalues] at hstep
    cases hstep
    have hafter := held_set_perm Call.pending hthread (.merging own values)
    exact ⟨hdb, hbefore.trans (hafter.symm.append_left _)⟩
  | merging own existing =>
    obtain ⟨db, heq, hwritten⟩ := exists_step_merging own existing hvalues
    rw [heq] at hstep
    cases hstep
    refine ⟨by rw [hwritten]; rfl, hbefore.trans ?_⟩
    have hafter := held_set_perm Call.pending hthread .returned
    rw [List.append_assoc]
    exact (hafter.symm.append_left [own]).append_left _
  | returned => exact nomatch hstep
  | raised e => exact nomatch hstep

/-- When all have returned, the calls are those that have returned. -/
theorem returned_perm {db : Database K} {initial : VectorMetadata} {calls : List Metadata}
    {events : List (Nat × Unit)} {c : System (Shared K) Call}
    (hinitial : metadataOf pair id db = some initial)
    (hrun : Runs.run (move (step pair id)) events (start db calls) = some c)
    (hall : ∀ call ∈ c.threads, call = .returned) : calls.Perm c.shared.returned := by
  have hstart : Accounted pair id calls (start db calls) := by
    refine ⟨by rw [start, hinitial]; rfl, ?_⟩
    rw [held, start, List.flatMap_map]
    exact .of_eq (List.flatMap_singleton' calls).symm
  obtain ⟨-, hperm⟩ := Runs.run_keeps (fun _ _ _ => Accounted.move) hstart hrun
  have hnone : held Call.pending c.threads = [] :=
    List.flatMap_eq_nil_iff.mpr fun call hcall => by rw [hall call hcall]; rfl
  rwa [hnone, List.append_nil] at hperm

theorem Keeps.perm {initial : VectorMetadata} {calls returned : List Metadata} {db : Database K}
    (h : Keeps pair id initial returned db) (hperm : calls.Perm returned) :
    Keeps pair id initial calls db := by
  simp only [Keeps, IsSet, Given, hperm.mem_iff] at h ⊢
  exact h

/-- **In every interleaving of calls the document keeps what the returned calls have set exactly
if** every write is fresh; when all have returned, these are all the calls. -/
theorem merged_iff (pair : Pair) (id : Text) (db : Database K) (initial : VectorMetadata)
    (calls : List Metadata) (events : List (Nat × Unit)) (c : System (Shared K) Call)
    (hinitial : metadataOf pair id db = some initial)
    (hrun : Runs.run (move (step pair id)) events (start db calls) = some c) :
    (Runs.Always (move (step pair id)) (fun c => Merged pair id initial c.shared) events
        (start db calls) ↔
      Runs.Meets (move (step pair id)) (Under Fresh) events (start db calls)) ∧
    (Runs.Meets (move (step pair id)) (Under Fresh) events (start db calls) →
      (∀ call ∈ c.threads, call = .returned) → Keeps pair id initial calls c.shared.db) := by
  have hnone : ∀ key, ¬IsSet [] key := fun key ⟨_, hmem, _⟩ => absurd hmem List.not_mem_nil
  have hstart : Holds (Merged pair id initial) (Knows initial) (start db calls) := by
    refine ⟨⟨initial, hinitial, fun key => ⟨fun hset => absurd hset (hnone key), fun _ => rfl⟩⟩,
      fun call hcall => ?_⟩
    obtain ⟨own, -, rfl⟩ := List.mem_map.mp hcall
    trivial
  have hkeep : ∀ a (s : Shared K) call s' call', Merged pair id initial s → Knows initial s call →
      Fresh s call a → step pair id a s call = some (s', call') →
        Merged pair id initial s' ∧ Knows initial s' call' ∧
          ∀ other, Knows initial s other → Knows initial s' other := by
    rintro ⟨⟩ s call s' call' hmerged hknows hfresh hstep
    obtain ⟨own, values, rfl, hvalues, rfl, rfl⟩ | ⟨own, existing, db, rfl, rfl, rfl, hdb⟩ :=
      step_cases hmerged hstep
    · refine ⟨hmerged, fun key hset => ?_, fun _ h => h⟩
      obtain ⟨found, hfound, hkeys⟩ := hmerged
      exact Option.some.inj (hvalues.symm.trans hfound) ▸ (hkeys key).2 hset
    · exact ⟨Merged.write hknows hfresh hdb, trivial, fun _ h => h.concat db own⟩
  refine ⟨always_iff_meets (fun s h => h) hkeep ?_ hstart hrun, fun hmeets hall => ?_⟩
  · rintro ⟨⟩ s call s' call' hmerged hknows hfresh hstep
    obtain ⟨own, values, rfl, hvalues, rfl, rfl⟩ | ⟨own, existing, db, rfl, rfl, rfl, hdb⟩ :=
      step_cases hmerged hstep
    · exact absurd trivial hfresh
    · exact not_merged_write hfresh hdb
  · exact (holds_run hkeep hstart hmeets hrun).shared.perm (returned_perm hinitial hrun hall)

/-- The database with one document, and two calls that set a key each. -/
def plainDocument : Database Nat :=
  { documents := [((("default", "docs"), "d"),
      { vector := [], text := [], metadata := [], version := 1 })] }

def twoCalls : List Metadata :=
  [⟨[("a", .integer 1)], by decide⟩, ⟨[("b", .integer 2)], by decide⟩]

/-- Both calls read before either writes. -/
def crossed : List (Nat × Unit) := [(0, ()), (1, ()), (0, ()), (1, ())]

theorem two_calls_merged : ∃ c,
    Runs.run (move (step ("default", "docs") "d")) crossed (start plainDocument twoCalls) =
        some c ∧
      (Runs.Always (move (step ("default", "docs") "d"))
          (fun c => Merged ("default", "docs") "d" [] c.shared) crossed
          (start plainDocument twoCalls) ↔
        Runs.Meets (move (step ("default", "docs") "d")) (Under Fresh) crossed
          (start plainDocument twoCalls)) :=
  ⟨_, rfl, (merged_iff ("default", "docs") "d" plainDocument [] twoCalls crossed _ rfl rfl).1⟩

/-- The call that writes last takes away the key of the other. -/
theorem interleaved_key_lost :
    ¬∀ (db : Database Nat) (initial : VectorMetadata) (calls : List Metadata)
      (events : List (Nat × Unit)) (c : System (Shared Nat) Call),
      metadataOf ("default", "docs") "d" db = some initial →
      Runs.run (move (step ("default", "docs") "d")) events (start db calls) = some c →
      (∀ call ∈ c.threads, call = .returned) →
      Keeps ("default", "docs") "d" initial calls c.shared.db := by
  intro h
  have hall : ∀ call ∈ [Call.returned, Call.returned], call = .returned := by simp
  obtain ⟨values, hvalues, hkeys⟩ := h plainDocument [] twoCalls crossed _ rfl rfl hall
  have hset : IsSet twoCalls "a" := ⟨_, List.mem_cons_self, by decide⟩
  obtain ⟨own, -, hkey, hgiven⟩ := (hkeys "a").1 hset
  have hlost : get? "a".toList values = none := by
    rw [← Option.some.inj hvalues]
    rfl
  rw [hlost] at hgiven
  exact get?_eq_none_iff.mp hgiven.symm hkey

end OpenWrtCopilot.Ports.MetadataManager
