import OpenWrtCopilot.Ports.SshPool

/-!
# The accounts of the connection pool

`size` is the number of connections that were ever made, `busy` is that less those that
lie idle.  A connection that is closed or given up is never taken off, a permit is given
back only by a context exit that does not fail, and a connection that is found alive
after the pool was closed is put among the idle ones.

Beside the pool an account is kept of the connections that are open, of those that have
left the pool, and of the permits that were not given back.

## Main results

* `step_balanced`, `balanced_run` — the account balances in every state.
* `pool_accounts_iff` — when `size`, `busy` and the permits are right, and when a closed pool
  has no connection open.
* `exhausted_iff` — when a task waits for ever.
-/

namespace OpenWrtCopilot.Ports.SshPool

open Verified
open Verified.Threads

/-! ## What is observed -/

/-- The pool, with what is observed beside it. -/
structure Account where
  pool : Pool
  /-- The connections that were connected and not closed. -/
  opened : List Nat := []
  /-- A call of `close` has returned. -/
  closeReturned : Bool := false
  /-- How many connections were made and are neither idle nor in anybody's hand. -/
  dropped : Nat := 0
  /-- How many permits were not given back. -/
  lost : Nat := 0
  /-- The connections that were dropped without being closed. -/
  abandoned : List Nat := []

/-- The connection in hand leaves the pool. -/
def drops : Task → Action → Bool
  | .discarding _ _, .done _ _ | .closing _, .done _ _ | .draining _, .done _ _ => true
  | .probing _ _, .raised | .validating _, .raised | .discarding _ _, .raised
  | .connecting _, .raised | .returning _, .raised | .closing _, .raised
  | .draining _, .raised => true
  | _, _ => false

/-- The context exit fails before the permit is given back. -/
def losesPermit : Task → Action → Bool
  | .returning _, .raised | .closing _, .raised => true
  | _, _ => false

/-- The connection that is dropped without being closed. -/
def abandons : Task → Action → List Nat
  | .probing _ conn, .raised | .validating conn, .raised | .discarding _ conn, .raised
  | .returning conn, .raised | .closing conn, .raised | .draining conn, .raised => [conn]
  | _, _ => []

/-- The connections that are open after a step. -/
def openedAfter (opened : List Nat) : Task → Action → List Nat
  | .connecting conn, .done _ _ => conn :: opened
  | .discarding _ conn, .done _ _ | .closing conn, .done _ _ | .draining conn, .done _ _ =>
      opened.erase conn
  | _, _ => opened

/-- `close` returns. -/
def closeReturns : Task → Action → Task → Bool
  | .outside, .close, .outside | .draining _, .done _ _, .outside => true
  | _, _, _ => false

def Account.after (s : Account) (a : Action) (t t' : Task) (pool : Pool) : Account where
  pool := pool
  opened := openedAfter s.opened t a
  closeReturned := s.closeReturned || closeReturns t a t'
  dropped := s.dropped + if drops t a then 1 else 0
  lost := s.lost + if losesPermit t a then 1 else 0
  abandoned := abandons t a ++ s.abandoned

/-- A step of the pool, and what is observed of it. -/
def watch (a : Action) (s : Account) (t : Task) : Option (Account × Task) :=
  (step a s.pool t).map fun next => (s.after a t next.2 next.1, next.2)

theorem watch_eq_some_iff {a : Action} {s s' : Account} {t t' : Task} :
    watch a s t = some (s', t') ↔
      ∃ pool, step a s.pool t = some (pool, t') ∧ s' = s.after a t t' pool := by
  simp only [watch, Option.map_eq_some_iff, Prod.exists, Prod.mk.injEq]
  constructor
  · rintro ⟨pool, _, hstep, rfl, rfl⟩
    exact ⟨pool, hstep, rfl⟩
  · rintro ⟨pool, hstep, rfl⟩
    exact ⟨pool, t', hstep, rfl, rfl⟩

/-! ## Sizes -/

/-- `size`. -/
def Pool.size (s : Pool) : Nat := s.created

/-- `busy`; the subtraction stops at zero, as `max(0, …)` does. -/
def Pool.busy (s : Pool) : Nat := s.created - s.idle.length

/-- The connections that are leased. -/
def leased (threads : List Task) : List Nat :=
  threads.filterMap fun
    | .leased conn => some conn
    | _ => none

/-- No operation is in progress: every task is outside or holds a lease. -/
def Quiet (threads : List Task) : Prop := ∀ t ∈ threads, t = .outside ∨ ∃ conn, t = .leased conn

/-- The connection a task has taken out of the idle ones or made. -/
def Task.has : Task → List Nat
  | .draining conn => [conn]
  | t => t.inHand

/-- The connection a task has and that is open. -/
def Task.opened : Task → List Nat
  | .connecting _ => []
  | t => t.has

/-! ## The balance -/

/-- Every connection that was made is idle, in hand or dropped; every permit is free, taken
or lost; every open connection is idle, in hand or abandoned. -/
structure Balanced (size : Nat) (s : Account) (had taken : Nat) (opened : List Nat) : Prop where
  made : s.pool.created = s.pool.idle.length + had + s.dropped
  permits : s.pool.permits + taken + s.lost = size
  opened : ∀ x, s.opened.count x = s.pool.idle.count x + opened.count x + s.abandoned.count x

section Steps

variable {size had taken : Nat} {s : Account} {others : List Nat}

/-- The balance of the pool when a task is known. -/
abbrev BalancedWith (size : Nat) (s : Account) (t : Task) (had taken : Nat) (others : List Nat) :
    Prop :=
  Balanced size s (had + t.has.length) (taken + t.inHand.length) (t.opened ++ others)

theorem BalancedWith.nextCandidate (h : Balanced size s had (taken + 1) others)
    (validate built : Bool) :
    BalancedWith size { s with pool := (nextCandidate validate built s.pool).1 }
      (nextCandidate validate built s.pool).2 had taken others := by
  obtain ⟨hmade, hpermits, hopened⟩ := h
  unfold SshPool.nextCandidate
  cases hidle : s.pool.idle with
  | cons candidate idle =>
    rw [hidle] at hmade hopened
    refine ⟨?_, ?_, fun x => ?_⟩
    · simp [Task.has, Task.inHand] at hmade ⊢
      omega
    · simpa [Task.inHand] using hpermits
    · have hx := hopened x
      simp [Task.opened, Task.has, Task.inHand, List.count_cons] at hx ⊢
      omega
  | nil =>
    rw [hidle] at hmade hopened
    cases built with
    | false =>
      refine ⟨?_, ?_, fun x => ?_⟩
      · simpa [Task.has, Task.inHand, Pool.releasePermit, hidle] using hmade
      · simp [Task.inHand, Pool.releasePermit] at hpermits ⊢
        omega
      · simpa [Task.opened, Task.has, Task.inHand, Pool.releasePermit, hidle] using hopened x
    | true =>
      refine ⟨?_, ?_, fun x => ?_⟩
      · simp [Task.has, Task.inHand] at hmade ⊢
        omega
      · simpa [Task.inHand] using hpermits
      · simpa [Task.opened, hidle] using hopened x

theorem BalancedWith.drain (h : Balanced size s had taken others) :
    BalancedWith size { s with pool := (drain s.pool).1 } (drain s.pool).2 had taken others := by
  obtain ⟨hmade, hpermits, hopened⟩ := h
  unfold SshPool.drain
  cases hidle : s.pool.idle with
  | nil =>
    refine ⟨?_, ?_, fun x => ?_⟩
    · simpa [Task.has, Task.inHand] using hmade
    · simpa [Task.inHand] using hpermits
    · simpa [Task.opened, Task.has, Task.inHand] using hopened x
  | cons conn idle =>
    rw [hidle] at hmade hopened
    refine ⟨?_, ?_, fun x => ?_⟩
    · simp [Task.has] at hmade ⊢
      omega
    · simpa [Task.inHand] using hpermits
    · have hx := hopened x
      simp [Task.opened, Task.has, List.count_cons] at hx ⊢
      omega

/-- The connection in hand is closed. -/
theorem BalancedWith.closed {conn : Nat}
    (h : Balanced size s (had + 1) taken (conn :: others)) :
    Balanced size { s with opened := s.opened.erase conn, dropped := s.dropped + 1 }
      had taken others := by
  refine ⟨?_, h.permits, fun x => ?_⟩
  · have hmade := h.made
    show s.pool.created = s.pool.idle.length + had + (s.dropped + 1)
    omega
  · have hx := h.opened x
    show (s.opened.erase conn).count x =
      s.pool.idle.count x + others.count x + s.abandoned.count x
    rw [List.count_erase]
    rw [List.count_cons] at hx
    omega

/-- The connection in hand is given up while it is open. -/
theorem BalancedWith.abandoned {conn : Nat}
    (h : Balanced size s (had + 1) taken (conn :: others)) :
    Balanced size { s with abandoned := conn :: s.abandoned, dropped := s.dropped + 1 }
      had taken others := by
  refine ⟨?_, h.permits, fun x => ?_⟩
  · have hmade := h.made
    show s.pool.created = s.pool.idle.length + had + (s.dropped + 1)
    omega
  · have hx := h.opened x
    show s.opened.count x = s.pool.idle.count x + others.count x + (conn :: s.abandoned).count x
    rw [List.count_cons] at hx ⊢
    omega

theorem Balanced.leave (h : Balanced size s had (taken + 1) others) :
    Balanced size { s with pool := s.pool.releasePermit } had taken others := by
  refine ⟨h.made, ?_, h.opened⟩
  have hpermits := h.permits
  show s.pool.permits + 1 + taken + s.lost = size
  omega

theorem Balanced.lose (h : Balanced size s had (taken + 1) others) :
    Balanced size { s with lost := s.lost + 1 } had taken others := by
  refine ⟨h.made, ?_, h.opened⟩
  have hpermits := h.permits
  show s.pool.permits + taken + (s.lost + 1) = size
  omega

/-- Where the pool and what the task has stay the same. -/
theorem BalancedWith.same {a : Action} {t t' : Task} (h : BalancedWith size s t had taken others)
    (hhas : t'.has = t.has) (hinHand : t'.inHand = t.inHand) (hopened : t'.opened = t.opened)
    (hdrops : drops t a = false) (hloses : losesPermit t a = false) (habandons : abandons t a = [])
    (hafter : openedAfter s.opened t a = s.opened) :
    BalancedWith size (s.after a t t' s.pool) t' had taken others := by
  refine ⟨?_, ?_, fun x => ?_⟩
  · rw [hhas, Account.after, hdrops]
    exact h.made
  · rw [hinHand, Account.after, hloses]
    exact h.permits
  · rw [hopened, Account.after, habandons, hafter]
    exact h.opened x

/-- Every step keeps the balance. -/
theorem step_balanced {a : Action} {t t' : Task} {s' : Account}
    (h : BalancedWith size s t had taken others) (hwatch : watch a s t = some (s', t')) :
    BalancedWith size s' t' had taken others := by
  obtain ⟨pool, hstep, rfl⟩ := watch_eq_some_iff.mp hwatch
  cases t with
  | outside =>
    cases a with
    | acquire validate =>
      obtain ⟨rfl, rfl⟩ := Prod.mk.inj (Option.some.inj hstep)
      cases hclosed : s.pool.closed <;> exact h.same rfl rfl rfl rfl rfl rfl rfl
    | close =>
      have hclosed : Balanced size { s with pool := { s.pool with closed := true } }
          had taken others := ⟨h.made, h.permits, h.opened⟩
      have hdrain := BalancedWith.drain hclosed
      rw [Option.some.inj hstep] at hdrain
      exact ⟨hdrain.made, hdrain.permits, hdrain.opened⟩
    | _ => cases hstep
  | waiting validate =>
    cases a with
    | done ok built =>
      simp only [step] at hstep
      cases hpermits : s.pool.permits with
      | zero =>
        rw [hpermits] at hstep
        cases hstep
      | succ permits =>
        rw [hpermits] at hstep
        have hbefore : Balanced size { s with pool := { s.pool with permits := permits } }
            had (taken + 1) others := by
          refine ⟨h.made, ?_, h.opened⟩
          have htotal : s.pool.permits + taken + s.lost = size := h.permits
          rw [hpermits] at htotal
          show permits + (taken + 1) + s.lost = size
          omega
        have hnext := BalancedWith.nextCandidate hbefore validate built
        rw [Option.some.inj hstep] at hnext
        exact ⟨hnext.made, hnext.permits, hnext.opened⟩
    | raised =>
      obtain ⟨rfl, rfl⟩ := Prod.mk.inj (Option.some.inj hstep)
      exact h.same rfl rfl rfl rfl rfl rfl rfl
    | _ => cases hstep
  | probing validate conn =>
    cases a with
    | done ok built =>
      obtain ⟨rfl, rfl⟩ := Prod.mk.inj (Option.some.inj hstep)
      cases ok <;> cases validate <;> exact h.same rfl rfl rfl rfl rfl rfl rfl
    | raised =>
      obtain ⟨rfl, rfl⟩ := Prod.mk.inj (Option.some.inj hstep)
      have hleft := (BalancedWith.abandoned h).leave
      exact ⟨hleft.made, hleft.permits, hleft.opened⟩
    | _ => cases hstep
  | validating conn =>
    cases a with
    | done ok built =>
      obtain ⟨rfl, rfl⟩ := Prod.mk.inj (Option.some.inj hstep)
      cases ok <;> exact h.same rfl rfl rfl rfl rfl rfl rfl
    | raised =>
      obtain ⟨rfl, rfl⟩ := Prod.mk.inj (Option.some.inj hstep)
      have hleft := (BalancedWith.abandoned h).leave
      exact ⟨hleft.made, hleft.permits, hleft.opened⟩
    | _ => cases hstep
  | discarding validate conn =>
    cases a with
    | done ok built =>
      have hnext := BalancedWith.nextCandidate (BalancedWith.closed h) validate built
      rw [Option.some.inj hstep] at hnext
      exact ⟨hnext.made, hnext.permits, hnext.opened⟩
    | raised =>
      obtain ⟨rfl, rfl⟩ := Prod.mk.inj (Option.some.inj hstep)
      have hleft := (BalancedWith.abandoned h).leave
      exact ⟨hleft.made, hleft.permits, hleft.opened⟩
    | _ => cases hstep
  | connecting conn =>
    cases a with
    | done ok built =>
      obtain ⟨rfl, rfl⟩ := Prod.mk.inj (Option.some.inj hstep)
      refine ⟨h.made, h.permits, fun x => ?_⟩
      have hx : s.opened.count x =
          s.pool.idle.count x + others.count x + s.abandoned.count x := h.opened x
      show (conn :: s.opened).count x =
        s.pool.idle.count x + (conn :: others).count x + s.abandoned.count x
      rw [List.count_cons, List.count_cons]
      omega
    | raised =>
      obtain ⟨rfl, rfl⟩ := Prod.mk.inj (Option.some.inj hstep)
      refine ⟨?_, ?_, h.opened⟩
      · have hmade : s.pool.created = s.pool.idle.length + (had + 1) + s.dropped := h.made
        show s.pool.created = s.pool.idle.length + had + (s.dropped + 1)
        omega
      · have hpermits : s.pool.permits + (taken + 1) + s.lost = size := h.permits
        show s.pool.permits + 1 + taken + s.lost = size
        omega
    | _ => cases hstep
  | leased conn =>
    cases a with
    | exit =>
      obtain ⟨rfl, rfl⟩ := Prod.mk.inj (Option.some.inj hstep)
      cases hclosed : s.pool.closed <;> exact h.same rfl rfl rfl rfl rfl rfl rfl
    | _ => cases hstep
  | returning conn =>
    cases a with
    | done ok built =>
      cases ok with
      | true =>
        obtain ⟨rfl, rfl⟩ := Prod.mk.inj (Option.some.inj hstep)
        refine ⟨?_, ?_, fun x => ?_⟩
        · have hmade : s.pool.created = s.pool.idle.length + (had + 1) + s.dropped := h.made
          show s.pool.created = (s.pool.idle ++ [conn]).length + had + s.dropped
          rw [List.length_append, List.length_singleton]
          omega
        · have hpermits : s.pool.permits + (taken + 1) + s.lost = size := h.permits
          show s.pool.permits + 1 + taken + s.lost = size
          omega
        · have hx : s.opened.count x = s.pool.idle.count x + (conn :: others).count x +
              s.abandoned.count x := h.opened x
          show s.opened.count x =
            (s.pool.idle ++ [conn]).count x + others.count x + s.abandoned.count x
          rw [List.count_cons] at hx
          rw [List.count_append, List.count_singleton]
          omega
      | false =>
        obtain ⟨rfl, rfl⟩ := Prod.mk.inj (Option.some.inj hstep)
        exact h.same rfl rfl rfl rfl rfl rfl rfl
    | raised =>
      obtain ⟨rfl, rfl⟩ := Prod.mk.inj (Option.some.inj hstep)
      have hleft := (BalancedWith.abandoned h).lose
      exact ⟨hleft.made, hleft.permits, hleft.opened⟩
    | _ => cases hstep
  | closing conn =>
    cases a with
    | done ok built =>
      obtain ⟨rfl, rfl⟩ := Prod.mk.inj (Option.some.inj hstep)
      have hleft := (BalancedWith.closed h).leave
      exact ⟨hleft.made, hleft.permits, hleft.opened⟩
    | raised =>
      obtain ⟨rfl, rfl⟩ := Prod.mk.inj (Option.some.inj hstep)
      have hleft := (BalancedWith.abandoned h).lose
      exact ⟨hleft.made, hleft.permits, hleft.opened⟩
    | _ => cases hstep
  | draining conn =>
    cases a with
    | done ok built =>
      have hdrain := BalancedWith.drain (BalancedWith.closed h)
      rw [Option.some.inj hstep] at hdrain
      exact ⟨hdrain.made, hdrain.permits, hdrain.opened⟩
    | raised =>
      obtain ⟨rfl, rfl⟩ := Prod.mk.inj (Option.some.inj hstep)
      have hleft := BalancedWith.abandoned h
      exact ⟨hleft.made, hleft.permits, hleft.opened⟩
    | _ => cases hstep

end Steps

/-! ## Interleavings -/

/-- The balance of the pool and all its tasks. -/
def InBalance (size : Nat) (c : System Account Task) : Prop :=
  Balanced size c.shared (held Task.has c.threads).length (held Task.inHand c.threads).length
    (held Task.opened c.threads)

theorem Balanced.perm {size had taken : Nat} {s : Account} {opened opened' : List Nat}
    (h : Balanced size s had taken opened) (hperm : List.Perm opened opened') :
    Balanced size s had taken opened' :=
  ⟨h.made, h.permits, fun x => hperm.count_eq x ▸ h.opened x⟩

theorem move_inBalance {size : Nat} (c : System Account Task) (event : Nat × Action)
    (c' : System Account Task) (h : InBalance size c) (hmove : move watch event c = some c') :
    InBalance size c' := by
  obtain ⟨t, s', t', hthread, hstep, rfl⟩ := move_eq_some_iff.mp hmove
  have hhas := (held_perm Task.has hthread).length_eq
  have hinHand := (held_perm Task.inHand hthread).length_eq
  have hhas' := (held_set_perm Task.has hthread t').length_eq
  have hinHand' := (held_set_perm Task.inHand hthread t').length_eq
  rw [List.length_append, Nat.add_comm] at hhas hinHand hhas' hinHand'
  have hbefore := Balanced.perm h (held_perm Task.opened hthread)
  rw [hhas, hinHand] at hbefore
  have hafter := (step_balanced hbefore hstep).perm (held_set_perm Task.opened hthread t').symm
  rw [← hhas', ← hinHand'] at hafter
  exact hafter

/-- A pool that has not been used, and `n` tasks. -/
def unused (size n : Nat) : System Account Task := begin { pool := { permits := size } } .outside n

theorem inBalance_start (size n : Nat) : InBalance size (unused size n) := by
  rw [InBalance, unused, held_begin _ rfl, held_begin _ rfl, held_begin _ rfl]
  exact ⟨rfl, rfl, fun _ => rfl⟩

/-- The account balances in every state. -/
theorem balanced_run {size n : Nat} {events : List (Nat × Action)} {c : System Account Task}
    (hrun : Runs.run (move watch) events (unused size n) = some c) : InBalance size c :=
  Runs.run_keeps move_inBalance (inBalance_start size n) hrun

/-! ## Where no operation is in progress -/

theorem held_of_quiet {hand : Task → List Nat} (houtside : hand .outside = [])
    (hleased : ∀ conn, hand (.leased conn) = [conn]) {threads : List Task} (h : Quiet threads) :
    held hand threads = leased threads := by
  induction threads with
  | nil => rfl
  | cons t threads ih =>
    have hrest := ih fun u hu => h u (List.mem_cons_of_mem t hu)
    obtain rfl | ⟨conn, rfl⟩ := h t List.mem_cons_self
    · rw [held, List.flatMap_cons, houtside]
      exact hrest
    · rw [held, List.flatMap_cons, hleased]
      exact congrArg (conn :: ·) hrest

theorem leased_eq_nil {threads : List Task} (h : ∀ t ∈ threads, t = .outside) :
    leased threads = [] := by
  refine List.filterMap_eq_nil_iff.mpr fun t ht => ?_
  rw [h t ht]

/-- `size` and `busy` count the idle and the leased connections. -/
def SizeRight (c : System Account Task) : Prop :=
  c.shared.pool.size = c.shared.pool.idle.length + (leased c.threads).length ∧
    c.shared.pool.busy = (leased c.threads).length

/-- What is not leased can be. -/
def PermitsRight (size : Nat) (c : System Account Task) : Prop :=
  c.shared.pool.permits + (leased c.threads).length = size

section Run

variable {size n : Nat} {events : List (Nat × Action)} {c : System Account Task}

theorem dropped_eq_zero_iff (hrun : Runs.run (move watch) events (unused size n) = some c) :
    c.shared.dropped = 0 ↔
      Runs.Meets (move watch) (Under fun _ t a => drops t a = false) events (unused size n) := by
  refine const_iff_meets (f := Account.dropped) ?_ ?_ hrun
  · intro a s t s' t' hkeep hwatch
    obtain ⟨pool, _, rfl⟩ := watch_eq_some_iff.mp hwatch
    rw [Account.after, hkeep]
    rfl
  · intro a s t s' t' hdrop hwatch
    obtain ⟨pool, _, rfl⟩ := watch_eq_some_iff.mp hwatch
    rw [Account.after, Bool.ne_false_iff.mp hdrop]
    exact Nat.lt_succ_self _

theorem lost_eq_zero_iff (hrun : Runs.run (move watch) events (unused size n) = some c) :
    c.shared.lost = 0 ↔
      Runs.Meets (move watch) (Under fun _ t a => losesPermit t a = false) events
        (unused size n) := by
  refine const_iff_meets (f := Account.lost) ?_ ?_ hrun
  · intro a s t s' t' hkeep hwatch
    obtain ⟨pool, _, rfl⟩ := watch_eq_some_iff.mp hwatch
    rw [Account.after, hkeep]
    rfl
  · intro a s t s' t' hlose hwatch
    obtain ⟨pool, _, rfl⟩ := watch_eq_some_iff.mp hwatch
    rw [Account.after, Bool.ne_false_iff.mp hlose]
    exact Nat.lt_succ_self _

theorem abandoned_eq_nil_iff (hrun : Runs.run (move watch) events (unused size n) = some c) :
    c.shared.abandoned = [] ↔
      Runs.Meets (move watch) (Under fun _ t a => abandons t a = []) events (unused size n) := by
  rw [← List.length_eq_zero_iff]
  refine const_iff_meets (f := fun s => s.abandoned.length) ?_ ?_ hrun
  · intro a s t s' t' hkeep hwatch
    obtain ⟨pool, _, rfl⟩ := watch_eq_some_iff.mp hwatch
    rw [Account.after, hkeep]
    rfl
  · intro a s t s' t' habandon hwatch
    obtain ⟨pool, _, rfl⟩ := watch_eq_some_iff.mp hwatch
    show s.abandoned.length < (abandons t a ++ s.abandoned).length
    have hsome := List.length_pos_iff.mpr habandon
    rw [List.length_append]
    omega

/-- `size` and `busy` are right when no connection has left the pool. -/
theorem sizeRight_iff (hrun : Runs.run (move watch) events (unused size n) = some c)
    (hquiet : Quiet c.threads) :
    SizeRight c ↔
      Runs.Meets (move watch) (Under fun _ t a => drops t a = false) events (unused size n) := by
  have hmade := (balanced_run hrun).made
  rw [held_of_quiet rfl (fun _ => rfl) hquiet] at hmade
  rw [← dropped_eq_zero_iff hrun, SizeRight, Pool.size, Pool.busy]
  omega

/-- The permits are right when none was lost. -/
theorem permitsRight_iff (hrun : Runs.run (move watch) events (unused size n) = some c)
    (hquiet : Quiet c.threads) :
    PermitsRight size c ↔
      Runs.Meets (move watch) (Under fun _ t a => losesPermit t a = false) events
        (unused size n) := by
  have hpermits := (balanced_run hrun).permits
  rw [held_of_quiet rfl (fun _ => rfl) hquiet] at hpermits
  rw [← lost_eq_zero_iff hrun, PermitsRight]
  omega

end Run

/-! ## A pool that was closed -/

/-- A live connection is put among the idle ones. -/
def returnsAlive : Task → Action → Bool
  | .returning _, .done true _ => true
  | _, _ => false

/-- It is put among those of a closed pool. -/
def ReturnsLate (s : Account) (t : Task) (a : Action) : Prop :=
  returnsAlive t a = true ∧ s.pool.closed = true

/-- Once `close` has returned, no connection is idle. -/
def Emptied (s : Account) : Prop :=
  s.closeReturned = true → s.pool.closed = true ∧ s.pool.idle = []

/-- Idle connections are closed only in a closed pool. -/
def DrainsClosed (s : Account) (t : Task) : Prop :=
  (∃ conn, t = .draining conn) → s.pool.closed = true

/-- `close` has set the flag before it looks for idle connections. -/
theorem closed_nextCandidate (validate built : Bool) (s : Pool) :
    (nextCandidate validate built s).1.closed = s.closed := by
  unfold nextCandidate
  cases s.idle with
  | cons candidate idle => rfl
  | nil => cases built <;> rfl

theorem idle_nextCandidate {s : Pool} (h : s.idle = []) (validate built : Bool) :
    (nextCandidate validate built s).1.idle = [] := by
  unfold nextCandidate
  rw [h]
  cases built with
  | false => exact h
  | true => rfl

theorem idle_drain {s : Pool} (h : s.idle = []) : (drain s).1.idle = [] := by
  unfold drain
  rw [h]
  exact h

theorem closed_drain (s : Pool) : (drain s).1.closed = s.closed := by
  unfold drain
  cases s.idle <;> rfl

theorem idle_of_drain_outside {s : Pool} (h : (drain s).2 = .outside) : (drain s).1.idle = [] := by
  unfold drain at h ⊢
  cases hidle : s.idle with
  | nil => exact hidle
  | cons conn idle =>
    rw [hidle] at h
    cases h

/-- Nothing but `drain` makes a task close idle connections. -/
theorem nextCandidate_ne_draining (validate built : Bool) (s : Pool) (conn : Nat) :
    (nextCandidate validate built s).2 ≠ .draining conn := by
  unfold nextCandidate
  cases s.idle with
  | cons candidate idle => exact nofun
  | nil => cases built <;> exact nofun

section Steps

variable {a : Action} {s s' : Pool} {t t' : Task}

/-- A closed pool stays closed. -/
theorem closed_step (h : step a s t = some (s', t')) (hclosed : s.closed = true) :
    s'.closed = true := by
  cases t <;> cases a <;> simp only [step, Option.some.injEq, reduceCtorEq] at h
  all_goals grind [closed_nextCandidate, closed_drain, Pool.releasePermit]

/-- Only a connection that is returned alive becomes idle. -/
theorem idle_step (h : step a s t = some (s', t')) (hidle : s.idle = [])
    (hreturns : returnsAlive t a = false) : s'.idle = [] := by
  cases t <;> cases a <;> simp only [step, Option.some.injEq, reduceCtorEq] at h
  all_goals grind [idle_nextCandidate, idle_drain, Pool.releasePermit, returnsAlive]

/-- The flag is set before an idle connection is closed. -/
theorem draining_step (h : step a s t = some (s', t'))
    (hbefore : (∃ conn, t = .draining conn) → s.closed = true)
    (hafter : ∃ conn, t' = .draining conn) : s'.closed = true := by
  cases t <;> cases a <;> simp only [step, Option.some.injEq, reduceCtorEq] at h
  all_goals grind [closed_drain, nextCandidate_ne_draining, Pool.releasePermit]

/-- When `close` returns, the pool is closed and nothing is idle. -/
theorem closeReturns_step (h : step a s t = some (s', t'))
    (hbefore : (∃ conn, t = .draining conn) → s.closed = true)
    (hreturns : closeReturns t a t' = true) : s'.closed = true ∧ s'.idle = [] := by
  cases t <;> cases a <;> cases t' <;>
    simp only [step, closeReturns, Option.some.injEq, reduceCtorEq, Bool.false_eq_true]
      at h hreturns
  all_goals grind [closed_drain, idle_of_drain_outside]

end Steps

/-- What is true of a closed pool stays true, unless a live connection is returned late. -/
theorem step_emptied {a : Action} {s s' : Account} {t t' : Task} (hs : Emptied s)
    (ht : DrainsClosed s t) (hlate : ¬ReturnsLate s t a) (hwatch : watch a s t = some (s', t')) :
    Emptied s' ∧ DrainsClosed s' t' ∧ ∀ u, DrainsClosed s u → DrainsClosed s' u := by
  obtain ⟨pool, hstep, rfl⟩ := watch_eq_some_iff.mp hwatch
  refine ⟨fun hreturned => ?_, fun hafter => draining_step hstep ht hafter,
    fun u hu hdraining => closed_step hstep (hu hdraining)⟩
  cases hnow : closeReturns t a t' with
  | true => exact closeReturns_step hstep ht hnow
  | false =>
    have hearlier : s.closeReturned = true := by
      have hor : (s.closeReturned || closeReturns t a t') = true := hreturned
      rwa [hnow, Bool.or_false] at hor
    obtain ⟨hclosed, hidle⟩ := hs hearlier
    refine ⟨closed_step hstep hclosed, idle_step hstep hidle ?_⟩
    exact Bool.eq_false_iff.mpr fun halive => hlate ⟨halive, hclosed⟩

/-- A closed pool whose connections are all back has those open that were abandoned. -/
theorem opened_iff {size n : Nat} {events : List (Nat × Action)} {c : System Account Task}
    (hrun : Runs.run (move watch) events (unused size n) = some c)
    (hlate : Runs.Meets (move watch) (Under fun s t a => ¬ReturnsLate s t a) events
      (unused size n))
    (hreturned : c.shared.closeReturned = true) (hback : ∀ t ∈ c.threads, t = .outside) :
    c.shared.opened = [] ↔
      Runs.Meets (move watch) (Under fun _ t a => abandons t a = []) events (unused size n) := by
  have hstart : Holds Emptied DrainsClosed (unused size n) :=
    holds_begin nofun (fun ⟨_, hdraining⟩ => nomatch hdraining) n
  have hholds := holds_run (fun _ _ _ _ _ => step_emptied) hstart hlate hrun
  have hidle : c.shared.pool.idle = [] := (hholds.shared hreturned).2
  have hquiet : Quiet c.threads := fun t ht => .inl (hback t ht)
  have hopened := (balanced_run hrun).opened
  rw [held_of_quiet rfl (fun _ => rfl) hquiet, leased_eq_nil hback, hidle] at hopened
  have hperm : List.Perm c.shared.opened c.shared.abandoned :=
    List.perm_iff_count.mpr fun x => by simpa using hopened x
  rw [← abandoned_eq_nil_iff hrun]
  constructor
  · intro hnil
    exact (hnil ▸ hperm).nil_eq.symm
  · intro hnil
    exact (hnil ▸ hperm).eq_nil

/--
**Where no operation is in progress, `size` and `busy` are right if and only if no
connection has left the pool, and the permits if and only if no context exit failed.  A
closed pool that got no live connection back has none open if and only if none was
abandoned.**
-/
theorem pool_accounts_iff {size n : Nat} {events : List (Nat × Action)} {c : System Account Task}
    (hrun : Runs.run (move watch) events (unused size n) = some c) :
    (Quiet c.threads →
      (SizeRight c ↔
        Runs.Meets (move watch) (Under fun _ t a => drops t a = false) events (unused size n)) ∧
      (PermitsRight size c ↔
        Runs.Meets (move watch) (Under fun _ t a => losesPermit t a = false) events
          (unused size n))) ∧
    (Runs.Meets (move watch) (Under fun s t a => ¬ReturnsLate s t a) events (unused size n) →
      c.shared.closeReturned = true → (∀ t ∈ c.threads, t = .outside) →
      (c.shared.opened = [] ↔
        Runs.Meets (move watch) (Under fun _ t a => abandons t a = []) events
          (unused size n))) :=
  ⟨fun hquiet => ⟨sizeRight_iff hrun hquiet, permitsRight_iff hrun hquiet⟩, opened_iff hrun⟩

section Examples

/-- A lease, its return, and another lease of the same connection. -/
theorem accounts_reuse :
    SizeRight ⟨{ pool := { idle := [], permits := 0, created := 1 }, opened := [0] },
      [.leased 0]⟩ ∧
    PermitsRight 1 ⟨{ pool := { idle := [], permits := 0, created := 1 }, opened := [0] },
      [.leased 0]⟩ := by
  have hrun : Runs.run (move watch)
      [(0, .acquire false), (0, .done true true), (0, .done true true), (0, .exit),
        (0, .done true true), (0, .acquire false), (0, .done true true), (0, .done true true)]
      (unused 1 1) =
      some ⟨{ pool := { idle := [], permits := 0, created := 1 }, opened := [0] },
        [.leased 0]⟩ := rfl
  have hquiet : Quiet [.leased 0] := by
    intro t ht
    exact .inr ⟨0, List.mem_singleton.mp ht⟩
  obtain ⟨hsize, hpermits⟩ := (pool_accounts_iff hrun).1 hquiet
  exact ⟨hsize.mpr (by decide), hpermits.mpr (by decide)⟩

/-- **After a lease, its return and `close`, one connection is still counted; when the
pool is closed during the return, the connection stays open; and when the return fails,
the permit is lost.** -/
theorem accounts_wrong :
    (∃ c, Runs.run (move watch)
        [(0, .acquire false), (0, .done true true), (0, .done true true), (0, .exit),
          (0, .done true true), (0, .close), (0, .done true true)] (unused 1 1) = some c ∧
      c.threads = [.outside] ∧ c.shared.pool.size = 1 ∧ c.shared.pool.busy = 1 ∧
      c.shared.pool.idle = []) ∧
    (∃ c, Runs.run (move watch)
        [(0, .acquire false), (0, .done true true), (0, .done true true), (0, .exit),
          (1, .close), (0, .done true true)] (unused 1 2) = some c ∧
      c.threads = [.outside, .outside] ∧ c.shared.closeReturned = true ∧
      c.shared.opened = [0]) ∧
    (∃ c, Runs.run (move watch)
        [(0, .acquire false), (0, .done true true), (0, .done true true), (0, .exit),
          (0, .raised)] (unused 1 1) = some c ∧
      c.threads = [.outside] ∧ c.shared.pool.permits = 0) ∧
    ¬∀ size n events c, Runs.run (move watch) events (unused size n) = some c →
      (Quiet c.threads → SizeRight c ∧ PermitsRight size c) ∧
      (c.shared.closeReturned = true → (∀ t ∈ c.threads, t = .outside) →
        c.shared.opened = []) := by
  refine ⟨⟨_, rfl, rfl, rfl, rfl, rfl⟩, ⟨_, rfl, rfl, rfl, rfl⟩, ⟨_, rfl, rfl, rfl⟩, fun hall => ?_⟩
  have hopened := (hall 1 2
    [(0, .acquire false), (0, .done true true), (0, .done true true), (0, .exit),
      (1, .close), (0, .done true true)] _ rfl).2 rfl (by decide)
  cases hopened

end Examples

/-! ## Tasks that wait -/

section Waiting

variable {size n : Nat} {events : List (Nat × Action)} {c : System Account Task}

theorem waiting_gets (hrun : Runs.run (move watch) events (unused size n) = some c) {i : Nat}
    {validate : Bool} (hi : c.threads[i]? = some (.waiting validate))
    (hfree : (held Task.inHand c.threads).length + c.shared.lost < size) :
    ∃ c', move watch (i, .done true true) c = some c' ∧ held Task.inHand c'.threads ≠ [] := by
  have hpermits := (balanced_run hrun).permits
  obtain ⟨permits, hsome⟩ : ∃ permits, c.shared.pool.permits = permits + 1 :=
    Nat.exists_eq_add_one.mpr (by omega)
  obtain ⟨hlt, -⟩ := List.getElem?_eq_some_iff.mp hi
  have hset (t : Task) := List.getElem?_set_self (a := t) hlt
  simp only [move, hi, watch, step, hsome, nextCandidate]
  cases c.shared.pool.idle <;>
    exact ⟨_, rfl, List.ne_nil_of_mem (mem_held (hset _) (List.mem_singleton_self _))⟩

/-- Lost permits stay lost. -/
theorem lost_le_run {more : List (Nat × Action)} {c' : System Account Task}
    (hmore : Runs.run (move watch) more c = some c') : c.shared.lost ≤ c'.shared.lost := by
  refine Runs.run_keeps (I := fun d => c.shared.lost ≤ d.shared.lost) ?_ (Nat.le_refl _) hmore
  intro d event d' hle hmove
  obtain ⟨t, s', t', -, hwatch, rfl⟩ := move_eq_some_iff.mp hmove
  obtain ⟨pool, -, rfl⟩ := watch_eq_some_iff.mp hwatch
  exact Nat.le_add_right_of_le hle

/-- **While a task waits, nobody ever gets a connection again if and only if as many context
exits have failed as the pool is large.** -/
theorem exhausted_iff (hrun : Runs.run (move watch) events (unused size n) = some c) {i : Nat}
    {validate : Bool} (hi : c.threads[i]? = some (.waiting validate)) :
    (∀ more c', Runs.run (move watch) more c = some c' → held Task.inHand c'.threads = []) ↔
      size ≤ c.shared.lost := by
  constructor
  · intro hnobody
    by_contra hfew
    have hfree : (held Task.inHand c.threads).length + c.shared.lost < size := by
      rw [hnobody [] c rfl, List.length_nil]
      omega
    obtain ⟨c', hmove, hgot⟩ := waiting_gets hrun hi hfree
    exact hgot (hnobody [(i, .done true true)] c' (by rw [Runs.run, hmove]; rfl))
  · intro hlost more c' hmore
    have hpermits := (balanced_run ((Runs.run_append hrun more).trans hmore)).permits
    have hstays := lost_le_run hmore
    exact List.length_eq_zero_iff.mp (by omega)

/-- The return of the only connection is cancelled. -/
def cancelled : List (Nat × Action) := [(0, .acquire false), (0, .done true true),
  (0, .done true true), (0, .exit), (0, .raised), (0, .acquire false)]

theorem cancelled_exhausted : ∃ c, Runs.run (move watch) cancelled (unused 1 1) = some c ∧
    ∀ more c', Runs.run (move watch) more c = some c' → held Task.inHand c'.threads = [] := by
  have hrun : Runs.run (move watch) cancelled (unused 1 1) = some _ := rfl
  exact ⟨_, hrun, (exhausted_iff hrun (i := 0) rfl).mpr (Nat.le_refl 1)⟩

end Waiting

end OpenWrtCopilot.Ports.SshPool
