import OpenWrtCopilot.Verified.Leases
import OpenWrtCopilot.Verified.Threads

/-!
# The pool of SSH connections

Ports `SSHConnectionPool`: `acquire` with its context exit, `release`,
`_get_connection` and `close`.  Every `await` is a point at which other tasks go on,
and everything up to the next one is a step.  What is awaited may have any outcome,
among them an exception, as which also the cancellation of the task counts.

A task is one use of `acquire`, or one call of `close`.  A connection is named by
the value of `_created` at which it was made.

## Main results

* `step_kept` — every step keeps the ledger of permits and connections sound.
* `exclusive_run` — no connection is leased twice or lies idle while it is leased,
  and there are never more of them than the pool is large.
-/

namespace OpenWrtCopilot.Ports.SshPool

open Verified
open Verified.Threads

/-! ## Tasks -/

structure Pool where
  /-- `_idle`, from left to right. -/
  idle : List Nat := []
  /-- The counter of `_semaphore`, with the permits it has promised to tasks that have
  not gone on yet. -/
  permits : Nat
  created : Nat := 0
  closed : Bool := false

/-- What a task awaits, with the connection it has in hand. -/
inductive Task
  | outside
  /-- `_semaphore.acquire()`. -/
  | waiting (validate : Bool)
  /-- `candidate.is_alive()`. -/
  | probing (validate : Bool) (conn : Nat)
  /-- `candidate.validate()`. -/
  | validating (conn : Nat)
  /-- `candidate.close()`, after which `_get_connection` goes on. -/
  | discarding (validate : Bool) (conn : Nat)
  /-- `conn.connect()`. -/
  | connecting (conn : Nat)
  /-- The body of the `async with`. -/
  | leased (conn : Nat)
  /-- `conn.is_alive()` of `release`. -/
  | returning (conn : Nat)
  /-- `conn.close()`, after which the permit is given back. -/
  | closing (conn : Nat)
  /-- The `close()` of a connection the pool's `close` has popped. -/
  | draining (conn : Nat)
  deriving DecidableEq

inductive Action
  | acquire (validate : Bool)
  | close
  /-- What is awaited returns; `ok` is the outcome of a probe, and `built` is whether
  the factory builds a backend, if the task asks it for one. -/
  | done (ok built : Bool)
  /-- What is awaited raises, or the task is cancelled. -/
  | raised
  /-- The body of the `async with` ends. -/
  | exit

/-- `self._semaphore.release()`. -/
def Pool.releasePermit (s : Pool) : Pool := { s with permits := s.permits + 1 }

/-- `_get_connection` from the head of its loop, for a task with a permit. -/
def nextCandidate (validate built : Bool) (s : Pool) : Pool × Task :=
  match s.idle with
  | candidate :: idle => ({ s with idle := idle }, .probing validate candidate)
  | [] =>
      if built then ({ s with created := s.created + 1 }, .connecting s.created)
      else (s.releasePermit, .outside)

/-- `close` from the head of its loop. -/
def drain (s : Pool) : Pool × Task :=
  match s.idle with
  | conn :: idle => ({ s with idle := idle }, .draining conn)
  | [] => (s, .outside)

/-- What a task does up to its next `await`. -/
def step : Action → Pool → Task → Option (Pool × Task)
  | .acquire validate, s, .outside => some (s, if s.closed then .outside else .waiting validate)
  | .close, s, .outside => some (drain { s with closed := true })
  | .done _ built, s, .waiting validate =>
      match s.permits with
      | 0 => none
      | permits + 1 => some (nextCandidate validate built { s with permits := permits })
  | .done ok _, s, .probing validate conn =>
      some (s,
        if ok then if validate then .validating conn else .leased conn
        else .discarding validate conn)
  | .done ok _, s, .validating conn => some (s, if ok then .leased conn else .discarding true conn)
  | .done _ built, s, .discarding validate _ => some (nextCandidate validate built s)
  | .done _ _, s, .connecting conn => some (s, .leased conn)
  | .exit, s, .leased conn => some (s, if s.closed then .closing conn else .returning conn)
  | .done ok _, s, .returning conn =>
      some
        (if ok then (({ s with idle := s.idle ++ [conn] } : Pool).releasePermit, .outside)
        else (s, .closing conn))
  | .done _ _, s, .closing _ => some (s.releasePermit, .outside)
  | .done _ _, s, .draining _ => some (drain s)
  | .raised, s, .waiting _ => some (s, .outside)
  -- `_get_connection` has not returned: the context exit gives the permit back.
  | .raised, s, .probing _ _ => some (s.releasePermit, .outside)
  | .raised, s, .validating _ => some (s.releasePermit, .outside)
  | .raised, s, .discarding _ _ => some (s.releasePermit, .outside)
  | .raised, s, .connecting _ => some (s.releasePermit, .outside)
  -- The context exit itself fails, and its permit is lost.
  | .raised, s, .returning _ => some (s, .outside)
  | .raised, s, .closing _ => some (s, .outside)
  | .raised, s, .draining _ => some (s, .outside)
  | _, _, _ => none

/-! ## What tasks have in hand -/

/-- The connection a task probes, connects, leases, returns or closes. -/
def Task.inHand : Task → List Nat
  | .outside | .waiting _ | .draining _ => []
  | .probing _ conn | .validating conn | .discarding _ conn | .connecting conn | .leased conn
  | .returning conn | .closing conn => [conn]

/-- No connection is leased to two tasks or lies idle while it is leased, and those
that are idle and in hand are no more than the pool is large. -/
structure Exclusive (size : Nat) (c : System Pool Task) : Prop where
  once : ∀ (i j conn : Nat), c.threads[i]? = some (.leased conn) →
    c.threads[j]? = some (.leased conn) → i = j
  notIdle : ∀ (i conn : Nat), c.threads[i]? = some (.leased conn) → conn ∉ c.shared.idle
  bounded : c.shared.idle.length + (held Task.inHand c.threads).length ≤ size

/-- The pool's part of the ledger.  A task that is suspended has a permit exactly if it
has a connection in hand. -/
def Pool.ledger (s : Pool) (held : List Nat) : Leases.Ledger Nat :=
  { free := s.permits, taken := held.length, idle := s.idle, held := held }

/-- The ledger is sound, and new connections get new names. -/
structure PoolInv (size : Nat) (s : Pool) (held : List Nat) : Prop where
  sound : Leases.Sound size (s.ledger held)
  idle : ∀ x ∈ s.idle, x < s.created
  held : ∀ x ∈ held, x < s.created

theorem PoolInv.perm {size : Nat} {s : Pool} {held held' : List Nat} (h : PoolInv size s held)
    (hperm : List.Perm held held') : PoolInv size s held' := by
  refine ⟨?_, h.idle, fun x hx => h.held x (hperm.mem_iff.mpr hx)⟩
  have hsound := h.sound.perm hperm
  rwa [hperm.length_eq] at hsound

theorem poolInv_start (size : Nat) : PoolInv size { permits := size } [] :=
  ⟨Leases.sound_empty size, nofun, nofun⟩

/-! ## Steps -/

section Steps

variable {size : Nat} {s : Pool} {rest : List Nat}

/-- A task that has a permit and no connection yet. -/
structure Searching (size : Nat) (s : Pool) (held : List Nat) : Prop where
  sound : Leases.Sound size ⟨s.permits, held.length + 1, s.idle, held⟩
  idle : ∀ x ∈ s.idle, x < s.created
  held : ∀ x ∈ held, x < s.created

/-- The connection in hand is given up, and the permit is kept. -/
theorem PoolInv.searching {conn : Nat} (h : PoolInv size s (conn :: rest)) :
    Searching size s rest :=
  ⟨h.sound.drop, h.idle, fun x hx => h.held x (List.mem_cons_of_mem _ hx)⟩

theorem Searching.leave (h : Searching size s rest) : PoolInv size s.releasePermit rest :=
  ⟨h.sound.leave, h.idle, h.held⟩

theorem Searching.lose (h : Searching size s rest) : PoolInv size s rest :=
  ⟨h.sound.lose, h.idle, h.held⟩

theorem Searching.nextCandidate (h : Searching size s rest) (validate built : Bool) :
    PoolInv size (nextCandidate validate built s).1
      ((nextCandidate validate built s).2.inHand ++ rest) := by
  unfold SshPool.nextCandidate
  cases hidle : s.idle with
  | cons candidate idle =>
    have hsound := h.sound
    rw [hidle] at hsound
    refine ⟨hsound.take, ?_, ?_⟩
    · intro x hx
      exact h.idle x (hidle ▸ List.mem_cons_of_mem _ hx)
    · intro x hx
      rcases List.mem_cons.mp hx with rfl | hx
      · exact h.idle x (hidle ▸ List.mem_cons_self)
      · exact h.held x hx
  | nil =>
    cases built with
    | false => exact h.leave
    | true =>
      have hsound := h.sound
      rw [hidle] at hsound
      have hnew : s.created ∉ rest := fun hmem => Nat.lt_irrefl _ (h.held _ hmem)
      refine ⟨?_, ?_, ?_⟩
      · exact hsound.make (Nat.lt_succ_self _) hnew
      · intro x hx
        exact absurd hx List.not_mem_nil
      · intro x hx
        rcases List.mem_cons.mp hx with rfl | hx
        · exact Nat.lt_succ_self _
        · exact Nat.lt_succ_of_lt (h.held x hx)

theorem PoolInv.drain (h : PoolInv size s rest) :
    PoolInv size (drain s).1 ((drain s).2.inHand ++ rest) := by
  unfold SshPool.drain
  cases hidle : s.idle with
  | nil => exact h
  | cons conn idle =>
    have hsound : Leases.Sound size ⟨s.permits, rest.length, conn :: idle, rest⟩ :=
      hidle ▸ h.sound
    refine ⟨hsound.discard, ?_, h.held⟩
    intro x hx
    exact h.idle x (hidle ▸ List.mem_cons_of_mem _ hx)

/-- A live connection goes back to the idle ones, and its permit to the semaphore. -/
theorem PoolInv.release {conn : Nat} (h : PoolInv size s (conn :: rest)) :
    PoolInv size ({ s with idle := s.idle ++ [conn] } : Pool).releasePermit rest := by
  refine ⟨h.sound.put.leave, ?_, fun x hx => h.held x (List.mem_cons_of_mem _ hx)⟩
  intro x hx
  rcases List.mem_append.mp hx with hx | hx
  · exact h.idle x hx
  · exact h.held x (List.mem_singleton.mp hx ▸ List.mem_cons_self)

/-- A probe, or what follows on one, leaves the connection in hand. -/
theorem PoolInv.same {t t' : Task} (h : PoolInv size s (t.inHand ++ rest))
    (hhand : t'.inHand = t.inHand) : PoolInv size s (t'.inHand ++ rest) := by
  rwa [hhand]

/-- Every step keeps the ledger sound, whatever the other tasks hold. -/
theorem step_kept {a : Action} {t t' : Task} {s' : Pool} (h : PoolInv size s (t.inHand ++ rest))
    (hstep : step a s t = some (s', t')) : PoolInv size s' (t'.inHand ++ rest) := by
  cases t with
  | outside =>
    cases a with
    | acquire validate =>
      obtain ⟨rfl, rfl⟩ := Prod.mk.inj (Option.some.inj hstep)
      refine h.same ?_
      split <;> rfl
    | close =>
      have hclosed : PoolInv size { s with closed := true } rest := ⟨h.sound, h.idle, h.held⟩
      have hdrain := hclosed.drain
      rwa [Option.some.inj hstep] at hdrain
    | _ => cases hstep
  | waiting validate =>
    cases a with
    | done ok built =>
      simp only [step] at hstep
      cases hpermits : s.permits with
      | zero =>
        rw [hpermits] at hstep
        cases hstep
      | succ permits =>
        rw [hpermits] at hstep
        have hsound : Leases.Sound size ⟨permits + 1, rest.length, s.idle, rest⟩ :=
          hpermits ▸ h.sound
        have hsearching : Searching size { s with permits := permits } rest :=
          ⟨hsound.enter, h.idle, h.held⟩
        have hnext := hsearching.nextCandidate validate built
        rwa [Option.some.inj hstep] at hnext
    | raised =>
      obtain ⟨rfl, rfl⟩ := Prod.mk.inj (Option.some.inj hstep)
      exact h
    | _ => cases hstep
  | probing validate conn =>
    cases a with
    | done ok built =>
      obtain ⟨rfl, rfl⟩ := Prod.mk.inj (Option.some.inj hstep)
      refine h.same ?_
      split
      · split <;> rfl
      · rfl
    | raised =>
      obtain ⟨rfl, rfl⟩ := Prod.mk.inj (Option.some.inj hstep)
      exact (PoolInv.searching h).leave
    | _ => cases hstep
  | validating conn =>
    cases a with
    | done ok built =>
      obtain ⟨rfl, rfl⟩ := Prod.mk.inj (Option.some.inj hstep)
      refine h.same ?_
      split <;> rfl
    | raised =>
      obtain ⟨rfl, rfl⟩ := Prod.mk.inj (Option.some.inj hstep)
      exact (PoolInv.searching h).leave
    | _ => cases hstep
  | discarding validate conn =>
    cases a with
    | done ok built =>
      have hnext := (PoolInv.searching h).nextCandidate validate built
      rwa [Option.some.inj hstep] at hnext
    | raised =>
      obtain ⟨rfl, rfl⟩ := Prod.mk.inj (Option.some.inj hstep)
      exact (PoolInv.searching h).leave
    | _ => cases hstep
  | connecting conn =>
    cases a with
    | done ok built =>
      obtain ⟨rfl, rfl⟩ := Prod.mk.inj (Option.some.inj hstep)
      exact h
    | raised =>
      obtain ⟨rfl, rfl⟩ := Prod.mk.inj (Option.some.inj hstep)
      exact (PoolInv.searching h).leave
    | _ => cases hstep
  | leased conn =>
    cases a with
    | exit =>
      obtain ⟨rfl, rfl⟩ := Prod.mk.inj (Option.some.inj hstep)
      refine h.same ?_
      split <;> rfl
    | _ => cases hstep
  | returning conn =>
    cases a with
    | done ok built =>
      cases ok with
      | true =>
        obtain ⟨rfl, rfl⟩ := Prod.mk.inj (Option.some.inj hstep)
        exact PoolInv.release h
      | false =>
        obtain ⟨rfl, rfl⟩ := Prod.mk.inj (Option.some.inj hstep)
        exact h
    | raised =>
      obtain ⟨rfl, rfl⟩ := Prod.mk.inj (Option.some.inj hstep)
      exact (PoolInv.searching h).lose
    | _ => cases hstep
  | closing conn =>
    cases a with
    | done ok built =>
      obtain ⟨rfl, rfl⟩ := Prod.mk.inj (Option.some.inj hstep)
      exact (PoolInv.searching h).leave
    | raised =>
      obtain ⟨rfl, rfl⟩ := Prod.mk.inj (Option.some.inj hstep)
      exact (PoolInv.searching h).lose
    | _ => cases hstep
  | draining conn =>
    cases a with
    | done ok built =>
      have hdrain := PoolInv.drain h
      rwa [Option.some.inj hstep] at hdrain
    | raised =>
      obtain ⟨rfl, rfl⟩ := Prod.mk.inj (Option.some.inj hstep)
      exact h
    | _ => cases hstep

end Steps

/-! ## Interleavings -/

/-- The invariant of the pool and all its tasks. -/
def Kept (size : Nat) (c : System Pool Task) : Prop :=
  PoolInv size c.shared (held Task.inHand c.threads)

theorem move_kept {size : Nat} (c : System Pool Task) (event : Nat × Action)
    (c' : System Pool Task) (h : Kept size c) (hmove : move step event c = some c') :
    Kept size c' := by
  obtain ⟨t, s', t', hthread, hstep, rfl⟩ := move_eq_some_iff.mp hmove
  have hbefore := PoolInv.perm h (held_perm Task.inHand hthread)
  exact (step_kept hbefore hstep).perm (held_set_perm Task.inHand hthread t').symm

theorem Kept.exclusive {size : Nat} {c : System Pool Task} (h : Kept size c) :
    Exclusive size c where
  once _ _ _ hi hj :=
    eq_of_held_nodup h.sound.held_nodup hi hj (List.mem_singleton.mpr rfl)
      (List.mem_singleton.mpr rfl)
  notIdle _ _ hi := h.sound.notMem_idle (mem_held hi (List.mem_singleton.mpr rfl))
  bounded := h.sound.room

/-- A pool that has not been used, and `n` tasks. -/
def start (size n : Nat) : System Pool Task := begin { permits := size } .outside n

/--
**No connection is leased to two holders or idle while it is leased, and idle
connections and those in hand never exceed the size of the pool.**
-/
theorem exclusive_run (size n : Nat) (events : List (Nat × Action)) (c : System Pool Task)
    (hrun : Runs.run (move step) events (start size n) = some c) : Exclusive size c := by
  have hstart : Kept size (start size n) := by
    unfold Kept
    rw [start, held_begin _ rfl]
    exact poolInv_start size
  exact (Runs.run_keeps move_kept hstart hrun).exclusive

/-- Two tasks over a pool of one: the second waits, and gets the connection of the
first, which it finds alive. -/
theorem exclusive_reuse :
    Exclusive 1 ⟨{ idle := [], permits := 0, created := 1 }, [.outside, .leased 0]⟩ :=
  exclusive_run 1 2
    [(0, .acquire false), (0, .done true true), (0, .done true true), (1, .acquire true),
      (0, .exit), (0, .done true true), (1, .done true true), (1, .done true true),
      (1, .done true true)] _ rfl

end OpenWrtCopilot.Ports.SshPool
