import OpenWrtCopilot.Verified.PyDict

/-!
# Compartments behind encoded keys

Owners share a dictionary.  What an owner does reads and changes the value under its own key,
which an encoding computes from the owner.  Whether owners are kept apart depends on the encoding
alone: two that have one key share a compartment.

A call has an effect on the compartment if it creates or deletes it.  The answers tell the effect,
so that whoever logs them knows which compartments are there.

## Main results

* `log_own` — the answers to an owner whose key is its own are as if it had been alone;
  `not_isolated_of_shared` if it shares the key.
* `mem_keys_final` — the compartments that are there are those of the owners that were created and
  not deleted since.
* `exact_listed` — what names the owners of compartments lists exactly these.
-/

namespace OpenWrtCopilot.Verified.Compartments

open Verified.PyDict (Dict erase get? keys)

/-- What owners do: a call finds the value of its compartment, if it has one, and answers and
leaves a value, if it leaves one. -/
abbrev Act (P O V A : Type) := P → O → Option V → A × Option V

variable {P κ O V A : Type} [DecidableEq κ]

/-- A compartment is written, or removed. -/
def put (key : κ) (d : Dict κ V) : Option V → Dict κ V
  | some value => PyDict.set key value d
  | none => erase key d

section Runs

variable (enc : P → κ) (act : Act P O V A)

/-- The answer to a call, and the dictionary after it. -/
def perform (call : P × O) (d : Dict κ V) : A × Dict κ V :=
  let result := act call.1 call.2 (get? (enc call.1) d)
  (result.1, put (enc call.1) d result.2)

/-- The calls with their answers. -/
def log : List (P × O) → Dict κ V → List ((P × O) × A)
  | [], _ => []
  | call :: calls, d =>
      let result := perform enc act call d
      (call, result.1) :: log calls result.2

/-- The dictionary after the calls. -/
def final : List (P × O) → Dict κ V → Dict κ V
  | [], d => d
  | call :: calls, d => final calls (perform enc act call d).2

end Runs

theorem get?_put (key other : κ) (d : Dict κ V) (value : Option V) :
    get? other (put key d value) = if other = key then value else get? other d := by
  cases value with
  | none => exact PyDict.get?_erase key other d
  | some v =>
    by_cases hother : other = key
    · rw [put, hother, PyDict.get?_set_self, if_pos rfl]
    · rw [put, PyDict.get?_set_of_ne hother, if_neg hother]

theorem nodup_keys_put {d : Dict κ V} (h : (keys d).Nodup) (key : κ) (value : Option V) :
    (keys (put key d value)).Nodup := by
  cases value with
  | none => exact PyDict.nodup_keys_erase h key
  | some v => exact PyDict.nodup_keys_set h key v

/-- An owner that is alone and makes one call. -/
theorem final_single {enc : P → κ} {act : Act P O V A} {p : P} {o : O} {value : V}
    (h : (act p o none).2 = some value) : final enc act [(p, o)] [] = [(enc p, value)] := by
  rw [final, final, perform, get?, h]
  rfl

/-! ## Owners apart -/

section Apart

variable {enc : P → κ} {act : Act P O V A} [DecidableEq P]

/-- No other owner in the calls has the key of the owner. -/
def Apart (enc : P → κ) (calls : List (P × O)) (p : P) : Prop :=
  ∀ call ∈ calls, enc call.1 = enc p → call.1 = p

/-- The calls of an owner. -/
def own (calls : List (P × O)) (p : P) : List (P × O) := calls.filter (·.1 = p)

/-- What an owner that is apart is answered, and what it finds, depends on its own calls. -/
theorem log_own {calls : List (P × O)} {p : P} (h : Apart enc calls p) {d e : Dict κ V}
    (heq : get? (enc p) d = get? (enc p) e) :
    (log enc act calls d).filter (·.1.1 = p) = log enc act (own calls p) e ∧
      get? (enc p) (final enc act calls d) = get? (enc p) (final enc act (own calls p) e) := by
  induction calls generalizing d e with
  | nil => exact ⟨rfl, heq⟩
  | cons call calls ih =>
    have hrest : Apart enc calls p := fun c hc => h c (List.mem_cons_of_mem call hc)
    by_cases hp : call.1 = p
    · have hsame : (act call.1 call.2 (get? (enc call.1) d)) =
          act call.1 call.2 (get? (enc call.1) e) := by
        rw [hp, heq]
      have hnext : get? (enc p) (perform enc act call d).2 =
          get? (enc p) (perform enc act call e).2 := by
        rw [perform, perform, get?_put, get?_put, hp, if_pos rfl, if_pos rfl, ← hp, hsame]
      obtain ⟨hlog, hfinal⟩ := ih hrest hnext
      have hown : own (call :: calls) p = call :: own calls p :=
        List.filter_cons_of_pos (decide_eq_true hp)
      refine ⟨?_, ?_⟩
      · rw [log, List.filter_cons_of_pos (by simpa using hp), hlog, hown, log, perform, perform,
          hsame]
      · rw [final, hfinal, hown, final]
    · have hkey : enc p ≠ enc call.1 := fun hkey => hp (h call List.mem_cons_self hkey.symm)
      have hnext : get? (enc p) (perform enc act call d).2 = get? (enc p) e := by
        rw [perform, get?_put, if_neg hkey, heq]
      obtain ⟨hlog, hfinal⟩ := ih hrest hnext
      have hown : own (call :: calls) p = own calls p :=
        List.filter_cons_of_neg (by simpa using hp)
      refine ⟨?_, ?_⟩
      · rw [log, List.filter_cons_of_neg (by simpa using hp), hlog, hown]
      · rw [final, hfinal, hown]

/-- An owner is isolated if its answers in any calls are those it gets alone. -/
def Isolated (enc : P → κ) (act : Act P O V A) (calls : List (P × O)) (p : P) : Prop :=
  (log enc act calls []).filter (·.1.1 = p) = log enc act (own calls p) [] ∧
    get? (enc p) (final enc act calls []) = get? (enc p) (final enc act (own calls p) [])

/-- An owner is not isolated from one that shares its key, if it can tell what that one left. -/
theorem not_isolated_of_shared {p q : P} (hne : q ≠ p) (hkey : enc q = enc p) {o o' : O} {value : V}
    (hvalue : (act q o' none).2 = some value)
    (hdiffers : (act p o (some value)).1 ≠ (act p o none).1) :
    ¬ Isolated enc act [(q, o'), (p, o)] p := by
  intro h
  have hown : own [(q, o'), (p, o)] p = [(p, o)] := by simp [own, hne]
  have hfirst : (perform enc act (q, o') []).2 = PyDict.set (enc p) value [] := by
    rw [perform, get?, hvalue, hkey, put]
  have hanswers : (log enc act [(q, o'), (p, o)] []).filter (·.1.1 = p) =
      [((p, o), (act p o (some value)).1)] := by
    have hsecond : (perform enc act (p, o) (PyDict.set (enc p) value [])).1 =
        (act p o (some value)).1 := by
      rw [perform, PyDict.get?_set_self]
    rw [log, log, log, hfirst, hsecond]
    simp [hne]
  have halone : log enc act [(p, o)] [] = [((p, o), (act p o none).1)] := rfl
  have hsame := h.1
  rw [hanswers, hown, halone] at hsame
  exact hdiffers (Prod.mk.inj (List.cons_eq_cons.mp hsame).1).2

theorem isolated_of_apart {calls : List (P × O)} {p : P} (h : Apart enc calls p) :
    Isolated enc act calls p :=
  log_own h rfl

end Apart

/-! ## Compartments that are there -/

section Alive

variable {enc : P → κ} {act : Act P O V A} [DecidableEq P]

/-- The answers tell whether a call created or deleted its compartment. -/
def Tells (act : Act P O V A) (effect : O → A → Option Bool) : Prop :=
  ∀ p o value, (act p o value).2.isSome =
    (effect o (act p o value).1).getD value.isSome

/-- Whether the compartment of an owner was created and not deleted since, by the answers. -/
def alive (effect : O → A → Option Bool) (p : P) (entries : List ((P × O) × A))
    (before : Bool) : Bool :=
  entries.foldl (fun alive entry =>
    if entry.1.1 = p then (effect entry.1.2 entry.2).getD alive else alive) before

/-- **Compartments that are there.** -/
theorem isSome_get?_final {effect : O → A → Option Bool} (htells : Tells act effect)
    {calls : List (P × O)} {p : P} (h : Apart enc calls p) (d : Dict κ V) :
    (get? (enc p) (final enc act calls d)).isSome =
      alive effect p (log enc act calls d) (get? (enc p) d).isSome := by
  induction calls generalizing d with
  | nil => rfl
  | cons call calls ih =>
    have hrest : Apart enc calls p := fun c hc => h c (List.mem_cons_of_mem call hc)
    rw [final, ih hrest, log, alive, alive, List.foldl_cons]
    by_cases hp : call.1 = p
    · have hnext : (get? (enc p) (perform enc act call d).2).isSome =
          (effect call.2 (perform enc act call d).1).getD (get? (enc p) d).isSome := by
        rw [perform, get?_put, hp, if_pos rfl]
        exact htells p call.2 _
      rw [if_pos hp, hnext]
    · have hkey : enc p ≠ enc call.1 := fun hkey => hp (h call List.mem_cons_self hkey.symm)
      have hnext : get? (enc p) (perform enc act call d).2 = get? (enc p) d := by
        rw [perform, get?_put, if_neg hkey]
      rw [if_neg hp, hnext]

theorem mem_keys_final {effect : O → A → Option Bool} (htells : Tells act effect)
    {calls : List (P × O)} {p : P} (h : Apart enc calls p) :
    enc p ∈ keys (final enc act calls []) ↔ alive effect p (log enc act calls []) false = true := by
  rw [← PyDict.isSome_get?_iff, isSome_get?_final htells h]
  rfl

/-- What is created is there. -/
theorem alive_single {effect : O → A → Option Bool} {p : P} {o : O}
    (h : effect o (act p o none).1 = some true) :
    alive effect p (log enc act [(p, o)] []) false = true := by
  have hlog : log enc act [(p, o)] [] = [((p, o), (act p o none).1)] := rfl
  rw [hlog, alive, List.foldl_cons, if_pos rfl, h]
  rfl

/-- An owner that made no calls has no compartment, by the answers. -/
theorem alive_of_notMem {effect : O → A → Option Bool} {p : P} {entries : List ((P × O) × A)}
    (h : ∀ entry ∈ entries, entry.1.1 ≠ p) (before : Bool) :
    alive effect p entries before = before := by
  induction entries generalizing before with
  | nil => rfl
  | cons entry entries ih =>
    rw [alive, List.foldl_cons, if_neg (h entry List.mem_cons_self)]
    exact ih (fun e he => h e (List.mem_cons_of_mem entry he)) before

omit [DecidableEq P] in
theorem owner_of_mem_log {calls : List (P × O)} {d : Dict κ V} {entry : (P × O) × A}
    (h : entry ∈ log enc act calls d) : entry.1 ∈ calls := by
  induction calls generalizing d with
  | nil => cases h
  | cons call calls ih =>
    obtain rfl | hrest := List.mem_cons.mp h
    · exact List.mem_cons_self
    · exact List.mem_cons_of_mem call (ih hrest)

end Alive

/-! ## What the compartments hold -/

section Owned

variable {enc : P → κ} {act : Act P O V A}

/-- Every compartment is that of an owner, and holds what the owner may write. -/
structure Owned (enc : P → κ) (Holds : P → V → Prop) (S : P → Prop) (d : Dict κ V) : Prop where
  nodup : (keys d).Nodup
  owner : ∀ key value, get? key d = some value → ∃ p, S p ∧ key = enc p ∧ Holds p value

/-- Two owners never have one key. -/
def Injective (enc : P → κ) (S : P → Prop) : Prop := ∀ p q, S p → S q → enc p = enc q → p = q

/-- Compartments hold what their owners wrote. -/
theorem owned_final {Holds : P → V → Prop} {S : P → Prop} (hinj : Injective enc S)
    {calls : List (P × O)} (hcalls : ∀ call ∈ calls, S call.1)
    (hact : ∀ call ∈ calls, ∀ value value', (∀ v, value = some v → Holds call.1 v) →
      (act call.1 call.2 value).2 = some value' → Holds call.1 value')
    {d : Dict κ V} (h : Owned enc Holds S d) : Owned enc Holds S (final enc act calls d) := by
  induction calls generalizing d with
  | nil => exact h
  | cons call calls ih =>
    have hcall := hcalls call List.mem_cons_self
    refine ih (fun c hc => hcalls c (List.mem_cons_of_mem call hc))
      (fun c hc => hact c (List.mem_cons_of_mem call hc)) ?_
    refine ⟨nodup_keys_put h.nodup _ _, fun key value hvalue => ?_⟩
    rw [perform, get?_put] at hvalue
    by_cases hkey : key = enc call.1
    · rw [if_pos hkey] at hvalue
      refine ⟨call.1, hcall, hkey, hact call List.mem_cons_self _ value ?_ hvalue⟩
      intro v hv
      obtain ⟨q, hq, hqkey, hholds⟩ := h.owner _ v hv
      rwa [hinj call.1 q hcall hq hqkey]
    · rw [if_neg hkey] at hvalue
      exact h.owner key value hvalue

theorem owned_nil (enc : P → κ) (Holds : P → V → Prop) (S : P → Prop) :
    Owned enc Holds S ([] : Dict κ V) where
  nodup := List.nodup_nil
  owner _ _ h := by cases h

/-- A listing that names the owner of each compartment it is asked for names them once. -/
theorem mem_listed {Holds : P → V → Prop} {S N : P → Prop} [DecidablePred N] {d : Dict κ V}
    (h : Owned enc Holds S d) (hinj : Injective enc S) {g : κ × V → Option P}
    (hg : ∀ p value, S p → Holds p value → g (enc p, value) = if N p then some p else none) :
    (d.filterMap g).Nodup ∧ ∀ p, p ∈ d.filterMap g ↔ N p ∧ S p ∧ enc p ∈ keys d := by
  -- what is listed for a compartment is its owner
  have hlisted : ∀ item ∈ d, ∀ p, g item = some p → N p ∧ S p ∧ enc p = item.1 := by
    rintro ⟨key, value⟩ hitem p hp
    obtain ⟨q, hq, rfl, hholds⟩ :=
      h.owner key value ((PyDict.get?_eq_some_iff h.nodup).mpr hitem)
    rw [hg q value hq hholds] at hp
    by_cases hN : N q
    · rw [if_pos hN] at hp
      obtain rfl := Option.some.inj hp
      exact ⟨hN, hq, rfl⟩
    · rw [if_neg hN] at hp
      cases hp
  refine ⟨?_, fun p => ⟨?_, ?_⟩⟩
  · have hnodup := h.nodup
    clear h
    induction d with
    | nil => exact List.nodup_nil
    | cons item rest ih =>
      obtain ⟨hnew, hrest⟩ := List.nodup_cons.mp hnodup
      have hlater := ih (fun i hi => hlisted i (List.mem_cons_of_mem item hi)) hrest
      cases hitem : g item with
      | none => rwa [List.filterMap_cons_none hitem]
      | some p =>
        rw [List.filterMap_cons_some hitem]
        refine List.nodup_cons.mpr ⟨fun hmem => hnew ?_, hlater⟩
        obtain ⟨other, hother, hp⟩ := List.mem_filterMap.mp hmem
        have hkey := (hlisted item List.mem_cons_self p hitem).2.2
        have hsame := (hlisted other (List.mem_cons_of_mem item hother) p hp).2.2
        exact List.mem_map.mpr ⟨other, hother, hsame.symm.trans hkey⟩
  · intro hmem
    obtain ⟨item, hitem, hp⟩ := List.mem_filterMap.mp hmem
    obtain ⟨hN, hS, hkey⟩ := hlisted item hitem p hp
    exact ⟨hN, hS, List.mem_map.mpr ⟨item, hitem, hkey.symm⟩⟩
  · rintro ⟨hN, hS, hkey⟩
    obtain ⟨value, hvalue⟩ := Option.isSome_iff_exists.mp (PyDict.isSome_get?_iff.mpr hkey)
    obtain ⟨q, hq, hsame, hholds⟩ := h.owner _ value hvalue
    have hpq := hinj p q hS hq hsame
    refine List.mem_filterMap.mpr ⟨(enc p, value), PyDict.mem_of_get? hvalue, ?_⟩
    rw [hpq, hg q value hq hholds, if_pos (hpq ▸ hN)]

end Owned

/-! ## Listings -/

section Listing

variable {enc : P → κ} {act : Act P O V A} [DecidableEq P]

/-- A listing is exact if it names the owners asked for whose compartments are there, once. -/
def Exact (listed : List P) (N : P → Prop) (alive : P → Bool) : Prop :=
  listed.Nodup ∧ ∀ p, p ∈ listed ↔ N p ∧ alive p = true

omit [DecidableEq P] in
theorem Exact.of_perm {listed listed' : List P} {N : P → Prop} {alive : P → Bool}
    (h : Exact listed N alive) (hperm : listed'.Perm listed) : Exact listed' N alive :=
  ⟨hperm.nodup_iff.mpr h.1, fun p => hperm.mem_iff.trans (h.2 p)⟩

/-- **Listings.**  Where the owners have keys of their own, what names the owner of a compartment
lists exactly the owners that were created and not deleted since. -/
theorem exact_listed {effect : O → A → Option Bool} (htells : Tells act effect)
    (Holds : P → V → Prop) {S N : P → Prop} [DecidablePred N] (hinj : Injective enc S)
    {calls : List (P × O)} (hcalls : ∀ call ∈ calls, S call.1)
    (hact : ∀ call ∈ calls, ∀ value value', (∀ v, value = some v → Holds call.1 v) →
      (act call.1 call.2 value).2 = some value' → Holds call.1 value')
    {g : κ × V → Option P}
    (hg : ∀ p value, S p → Holds p value → g (enc p, value) = if N p then some p else none) :
    Exact ((final enc act calls []).filterMap g) N
      (fun p => alive effect p (log enc act calls []) false) := by
  have howned := owned_final hinj hcalls hact (owned_nil enc Holds S)
  obtain ⟨hnodup, hmem⟩ := mem_listed howned hinj hg
  refine ⟨hnodup, fun p => (hmem p).trans (and_congr_right fun _ => ?_)⟩
  by_cases hp : S p
  · have hapart : Apart enc calls p := fun call hcall => hinj call.1 p (hcalls call hcall) hp
    rw [mem_keys_final htells hapart]
    exact and_iff_right hp
  · have hother : ∀ entry ∈ log enc act calls [], entry.1.1 ≠ p := by
      rintro entry hentry rfl
      exact hp (hcalls entry.1 (owner_of_mem_log hentry))
    show _ ↔ alive effect p (log enc act calls []) false = true
    rw [alive_of_notMem hother]
    exact ⟨fun h => absurd h.1 hp, fun h => absurd h Bool.false_ne_true⟩

end Listing

end OpenWrtCopilot.Verified.Compartments
