import Mathlib.Data.List.Nodup
import Mathlib.Data.List.Perm.Basic
import OpenWrtCopilot.Verified.Runs

/-!
# Threads over a shared state

A program that runs in several threads, each with a state of its own, over one
shared state.  `step` is what one thread can do next, `none` where it cannot.
An event of the whole system names the thread that moves, so that a list of
events is one interleaving; a thread may be interrupted between any two steps.

An invariant of such a system is a condition on the shared state together with
a condition on each thread, which may look at the shared state.  A step has to
keep the first, to establish the second for the thread that moves, and not to
break it for any other.

## Main results

* `move_eq_some_iff` — what a move of one thread changes.
* `held_perm`, `held_set_perm`, `eq_of_held_nodup` — what the threads hold together,
  before and after one of them moves, and that nothing is held twice.
* `holds_run` — the invariant rule for all interleavings.
* `always_iff_meets` — when a property holds all along an interleaving;
  `const_iff_meets` — when a measure stays what it was.
-/

namespace OpenWrtCopilot.Verified.Threads

variable {A S T : Type}

/-- The shared state, and the states of the threads. -/
structure System (S T : Type) where
  shared : S
  threads : List T

/-- The thread with the given index takes a step. -/
def move (step : A → S → T → Option (S × T)) (event : Nat × A) (c : System S T) :
    Option (System S T) :=
  match c.threads[event.1]? with
  | none => none
  | some t => (step event.2 c.shared t).map fun next =>
      { shared := next.1, threads := c.threads.set event.1 next.2 }

/-- A number of threads that have not begun. -/
def begin (s : S) (t : T) (n : Nat) : System S T := ⟨s, List.replicate n t⟩

variable {step : A → S → T → Option (S × T)}

theorem move_eq_some_iff {i : Nat} {a : A} {c c' : System S T} :
    move step (i, a) c = some c' ↔
      ∃ t s' t', c.threads[i]? = some t ∧ step a c.shared t = some (s', t') ∧
        c' = ⟨s', c.threads.set i t'⟩ := by
  unfold move
  cases hthread : c.threads[i]? with
  | none => exact ⟨nofun, nofun⟩
  | some t =>
    simp only [Option.map_eq_some_iff, Option.some.injEq, Prod.exists]
    constructor
    · intro ⟨s', t', hstep, hc⟩
      exact ⟨t, s', t', rfl, hstep, hc.symm⟩
    · intro ⟨_, s', t', ht, hstep, hc⟩
      subst ht
      exact ⟨s', t', hstep, hc.symm⟩

/-- The threads after a move: the one that moved, or one that was there. -/
theorem mem_set_cases {threads : List T} {i : Nat} {t u : T} (h : u ∈ threads.set i t) :
    u = t ∨ u ∈ threads :=
  (List.mem_or_eq_of_mem_set h).symm

/-! ## What the threads hold -/

section Held

open List (Perm)

variable {R : Type} {threads : List T} {i : Nat} {t : T}

/-- What the threads hold together. -/
def held (hand : T → List R) (threads : List T) : List R := threads.flatMap hand

/-- What the others hold. -/
def others (hand : T → List R) (threads : List T) (i : Nat) : List R :=
  held hand (threads.eraseIdx i)

theorem held_perm (hand : T → List R) (h : threads[i]? = some t) :
    Perm (held hand threads) (hand t ++ others hand threads i) := by
  obtain ⟨hlength, rfl⟩ := List.getElem?_eq_some_iff.mp h
  exact (List.getElem_cons_eraseIdx_perm hlength).symm.flatMap_right hand

theorem held_set_perm (hand : T → List R) (h : threads[i]? = some t) (u : T) :
    Perm (held hand (threads.set i u)) (hand u ++ others hand threads i) := by
  obtain ⟨hlength, -⟩ := List.getElem?_eq_some_iff.mp h
  exact (List.set_perm_cons_eraseIdx hlength u).flatMap_right hand

theorem held_begin {hand : T → List R} (s : S) (ht : hand t = []) (n : Nat) :
    held hand (begin s t n).threads = [] := by
  refine List.flatMap_eq_nil_iff.mpr fun u hu => ?_
  obtain rfl := List.eq_of_mem_replicate hu
  exact ht

/-- Nothing is held twice: what two threads both hold, one thread holds. -/
theorem eq_of_held_nodup {hand : T → List R} (h : (held hand threads).Nodup) {j : Nat} {u : T}
    {x : R} (hi : threads[i]? = some t) (hj : threads[j]? = some u) (hxt : x ∈ hand t)
    (hxu : x ∈ hand u) : i = j := by
  have hpairs := List.pairwise_iff_getElem.mp (List.nodup_flatMap.mp h).2
  obtain ⟨hilength, rfl⟩ := List.getElem?_eq_some_iff.mp hi
  obtain ⟨hjlength, rfl⟩ := List.getElem?_eq_some_iff.mp hj
  rcases Nat.lt_trichotomy i j with hlt | heq | hgt
  · exact absurd hxu (hpairs i j hilength hjlength hlt hxt)
  · exact heq
  · exact absurd hxt (hpairs j i hjlength hilength hgt hxu)

theorem mem_held {hand : T → List R} {x : R} (h : threads[i]? = some t) (hx : x ∈ hand t) :
    x ∈ held hand threads :=
  List.mem_flatMap.mpr ⟨t, List.mem_of_getElem? h, hx⟩

end Held

/-! ## Conditions and invariants -/

/-- A condition on steps, for the thread that moves. -/
def Under (D : S → T → A → Prop) (c : System S T) (event : Nat × A) : Prop :=
  ∀ t, c.threads[event.1]? = some t → D c.shared t event.2

instance {D : S → T → A → Prop} [∀ s t a, Decidable (D s t a)] (c : System S T)
    (event : Nat × A) : Decidable (Under D c event) :=
  match h : c.threads[event.1]? with
  | none => .isTrue fun _ ht => nomatch h.symm.trans ht
  | some u =>
      decidable_of_iff (D c.shared u event.2)
        ⟨fun hu _ ht => Option.some.inj (h.symm.trans ht) ▸ hu, fun hall => hall u h⟩

/-- A condition on the shared state holds, and one on every thread. -/
structure Holds (I : S → Prop) (J : S → T → Prop) (c : System S T) : Prop where
  shared : I c.shared
  threads : ∀ t ∈ c.threads, J c.shared t

theorem holds_begin {I : S → Prop} {J : S → T → Prop} {s : S} {t : T} (hs : I s) (ht : J s t)
    (n : Nat) : Holds I J (begin s t n) := by
  refine ⟨hs, fun u hu => ?_⟩
  obtain rfl := List.eq_of_mem_replicate hu
  exact ht

section Rule

variable {D : S → T → A → Prop} {I : S → Prop} {J : S → T → Prop}

/-- One move keeps what every step keeps. -/
theorem Holds.move
    (hstep : ∀ a s t s' t', I s → J s t → D s t a → step a s t = some (s', t') →
      I s' ∧ J s' t' ∧ ∀ u, J s u → J s' u)
    {c c' : System S T} {event : Nat × A} (h : Holds I J c) (hD : Under D c event)
    (hmove : Threads.move step event c = some c') : Holds I J c' := by
  obtain ⟨t, s', t', hthread, hlocal, rfl⟩ := move_eq_some_iff.mp hmove
  obtain ⟨hI, hJ, hothers⟩ := hstep event.2 c.shared t s' t' h.shared
    (h.threads t (List.mem_of_getElem? hthread)) (hD t hthread) hlocal
  refine ⟨hI, fun u hu => ?_⟩
  rcases mem_set_cases hu with rfl | hu
  · exact hJ
  · exact hothers u (h.threads u hu)

/-- The invariant rule for all interleavings. -/
theorem holds_run
    (hstep : ∀ a s t s' t', I s → J s t → D s t a → step a s t = some (s', t') →
      I s' ∧ J s' t' ∧ ∀ u, J s u → J s' u)
    {events : List (Nat × A)} {c c' : System S T} (h : Holds I J c)
    (hmeets : Runs.Meets (Threads.move step) (Under D) events c)
    (hrun : Runs.run (Threads.move step) events c = some c') : Holds I J c' :=
  Runs.run_invariant (fun _ _ _ hc hD hmove => Holds.move hstep hc hD hmove) h hmeets hrun

/-- When a property of the shared state holds all along an interleaving exactly if
every step meets the condition. -/
theorem always_iff_meets {P : S → Prop} (hproperty : ∀ s, I s → P s)
    (hstep : ∀ a s t s' t', I s → J s t → D s t a → step a s t = some (s', t') →
      I s' ∧ J s' t' ∧ ∀ u, J s u → J s' u)
    (hbreak : ∀ a s t s' t', I s → J s t → ¬ D s t a → step a s t = some (s', t') → ¬ P s')
    {events : List (Nat × A)} {c c' : System S T} (h : Holds I J c)
    (hrun : Runs.run (Threads.move step) events c = some c') :
    Runs.Always (Threads.move step) (fun c => P c.shared) events c ↔
      Runs.Meets (Threads.move step) (Under D) events c := by
  refine Runs.always_iff_meets (fun c hc => hproperty c.shared hc.shared) ?_ ?_ h hrun
  · intro c event c' hc hD hmove
    exact Holds.move hstep hc hD hmove
  · intro c event c' hc hD hmove hP
    obtain ⟨t, s', t', hthread, hlocal, rfl⟩ := move_eq_some_iff.mp hmove
    have hfails : ¬ D c.shared t event.2 := by
      intro hholds
      refine hD fun u hu => ?_
      obtain rfl := Option.some.inj (hthread.symm.trans hu)
      exact hholds
    exact hbreak event.2 c.shared t s' t' hc.shared
      (hc.threads t (List.mem_of_getElem? hthread)) hfails hlocal hP

end Rule

/-- A measure of the shared state that grows with every step that fails the condition, and
only then. -/
theorem const_iff_meets {f : S → Nat}
    (hkeep : ∀ a s t s' t', D s t a → step a s t = some (s', t') → f s' = f s)
    (hgrow : ∀ a s t s' t', ¬ D s t a → step a s t = some (s', t') → f s < f s')
    {events : List (Nat × A)} {c c' : System S T}
    (hrun : Runs.run (Threads.move step) events c = some c') :
    f c'.shared = f c.shared ↔ Runs.Meets (Threads.move step) (Under D) events c := by
  refine Runs.const_iff_meets (f := fun c => f c.shared) ?_ ?_ hrun
  · intro c event c' hD hmove
    obtain ⟨t, s', t', hthread, hlocal, rfl⟩ := move_eq_some_iff.mp hmove
    exact hkeep event.2 c.shared t s' t' (hD t hthread) hlocal
  · intro c event c' hD hmove
    obtain ⟨t, s', t', hthread, hlocal, rfl⟩ := move_eq_some_iff.mp hmove
    refine hgrow event.2 c.shared t s' t' (fun hholds => hD fun u hu => ?_) hlocal
    obtain rfl := Option.some.inj (hthread.symm.trans hu)
    exact hholds

end OpenWrtCopilot.Verified.Threads
