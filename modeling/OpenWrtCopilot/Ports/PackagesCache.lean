import OpenWrtCopilot.Verified.Threads
import OpenWrtCopilot.Ports.ManagementReads

/-!
# The package cache under concurrent calls

The web server runs the calls of the management service in threads of a pool, so
`packages`, `invalidate_caches`, the package mutations and `update_feeds` are
interleaved.  This module ports what they do to the inventory cache, with a
thread switch possible between any two of their statements.

A call of `packages` looks at the cache, and otherwise gathers an inventory from
the router and writes it to the cache.  `Floor` is what a call may rely on when it
starts: the latest invalidation and the latest change of the router by a
completed operation.

## Main results

* `fresh_of_timely` — no call returns an inventory below its floor in a run in
  which no inventory is stored or kept that is below the floor.
* `previous_router_returned` — a run in which one does.
-/

namespace OpenWrtCopilot.Ports.PackagesCache

open Verified
open Verified.Threads
open Verified.PyText
open Ports.Management

/-! ## The state -/

/-- An inventory with the moments at which its session was opened and at which
its first list was read; the other lists are read later. -/
structure Gathered where
  data : PackageInventory
  openedAt : Nat
  listedAt : Nat

/-- The moments of the latest `invalidate_caches` and of the latest change of the
router by an operation that has completed. -/
structure Floor where
  invalidated : Nat := 0
  changed : Nat := 0
  deriving DecidableEq

/-- The inventory comes from a session that was opened after the invalidation and
was read after the change. -/
def Floor.Admits (f : Floor) (g : Gathered) : Prop :=
  f.invalidated ≤ g.openedAt ∧ f.changed ≤ g.listedAt

instance (f : Floor) (g : Gathered) : Decidable (f.Admits g) := by
  unfold Floor.Admits
  infer_instance

/-- What the threads share.  `now` counts steps and orders the moments; `clock` is
`time.monotonic()`, in milliseconds. -/
structure Shared where
  /-- `_packages_cache`; the empty dictionary is `none`. -/
  packagesCache : Option Gathered := none
  packagesCacheAt : Nat := 0
  clock : Nat := 0
  now : Nat := 0
  floor : Floor := {}

/-- The operations that change what a router has to say about packages. -/
inductive Change
  /-- `_pkg_mutate`: install, remove, upgrade or reinstall. -/
  | packages
  /-- `update_feeds`. -/
  | feeds
  deriving DecidableEq

/-- Where a thread is.  A call of `packages` carries the floor it started with. -/
inductive Thread
  | idle
  /-- `now` was read. -/
  | called (refresh : Bool) (calledAt : Nat) (floor : Floor)
  /-- The cache is not empty. -/
  | present (refresh : Bool) (calledAt : Nat) (floor : Floor)
  | hit (floor : Floor)
  | missed (floor : Floor)
  | opened (floor : Floor) (openedAt : Nat)
  | listed (floor : Floor) (openedAt listedAt : Nat)
  | collected (floor : Floor) (gathered : Gathered)
  | stored (floor : Floor) (gathered : Gathered)
  /-- The call returns; the empty dictionary is `none`. -/
  | returned (floor : Floor) (value : Option Gathered)
  | changing (change : Change)
  /-- The command has changed the router. -/
  | changed (change : Change) (changedAt : Nat)
  /-- `_packages_cache = {}` was executed. -/
  | dropped

/-- What a thread does next, with what the router or the clock contribute. -/
inductive Action
  | call (refresh : Bool)
  | invalidate
  | change (change : Change)
  /-- The next statement. -/
  | next
  /-- The last answer of a collection. -/
  | gather (data : PackageInventory)
  /-- The command of a change ended with this `ok`. -/
  | complete (ok : Bool)
  /-- An exception leaves the call. -/
  | fail
  | elapse (milliseconds : Nat)

/-! ## One step -/

/-- One statement of a thread. -/
def advance : Action → Shared → Thread → Option (Shared × Thread)
  | .elapse milliseconds, s, t => some ({ s with clock := s.clock + milliseconds }, t)
  -- packages
  | .call refresh, s, .idle => some (s, .called refresh s.clock s.floor)
  | .next, s, .called refresh calledAt f =>
      match s.packagesCache with
      | none => some (s, .missed f)
      | some _ => some (s, .present refresh calledAt f)
  | .next, s, .present refresh calledAt f =>
      if refresh = false ∧ calledAt < s.packagesCacheAt + packageCacheTtl then some (s, .hit f)
      else some (s, .missed f)
  -- The attribute is read again for the copy that is returned.
  | .next, s, .hit f => some (s, .returned f s.packagesCache)
  | .next, s, .missed f => some (s, .opened f s.now)
  | .next, s, .opened f openedAt => some (s, .listed f openedAt s.now)
  | .gather data, s, .listed f openedAt listedAt =>
      some (s, .collected f ⟨data, openedAt, listedAt⟩)
  | .next, s, .collected f g => some ({ s with packagesCache := some g }, .stored f g)
  | .next, s, .stored f g => some ({ s with packagesCacheAt := s.clock }, .returned f (some g))
  | .next, s, .returned _ _ => some (s, .idle)
  | .fail, s, .missed _ => some (s, .idle)
  | .fail, s, .opened _ _ => some (s, .idle)
  | .fail, s, .listed _ _ _ => some (s, .idle)
  -- invalidate_caches
  | .invalidate, s, .idle =>
      some ({ s with packagesCache := none, floor := { s.floor with invalidated := s.now } },
        .dropped)
  | .next, s, .dropped => some ({ s with packagesCacheAt := 0 }, .idle)
  -- _pkg_mutate and update_feeds
  | .change change, s, .idle => some (s, .changing change)
  | .fail, s, .changing _ => some (s, .idle)
  | .next, s, .changing change => some (s, .changed change s.now)
  | .complete ok, s, .changed change changedAt =>
      let floor := { s.floor with changed := max s.floor.changed changedAt }
      match ok, change with
      | false, _ => some (s, .idle)
      | true, .packages => some ({ s with packagesCache := none, floor := floor }, .dropped)
      -- A feed update leaves the inventory in the cache.
      | true, .feeds => some ({ s with floor := floor }, .idle)
  | _, _, _ => none

/-- One statement, at the next moment. -/
def step (a : Action) (s : Shared) (t : Thread) : Option (Shared × Thread) :=
  (advance a s t).map fun next => ({ next.1 with now := s.now + 1 }, next.2)

/-! ## Calls that are not interrupted -/

/-! ## The condition and the invariant -/

/-- A call that returns does not return an inventory below its floor. -/
def Thread.Fresh : Thread → Prop
  | .returned f value => ∀ g, value = some g → f.Admits g
  | _ => True

/-- No collected inventory is stored below the floor, and no feed update completes
while an inventory that was read before it is in the cache. -/
def Timely (s : Shared) : Thread → Action → Prop
  | .collected _ g, .next => s.floor.Admits g
  | .changed .feeds changedAt, .complete true =>
      ∀ g, s.packagesCache = some g → changedAt ≤ g.listedAt
  | _, _ => True

instance (s : Shared) (t : Thread) (a : Action) : Decidable (Timely s t a) := by
  unfold Timely
  split
  · infer_instance
  · cases s.packagesCache with
    | none => exact .isTrue nofun
    | some g =>
        exact decidable_of_iff (_ ≤ g.listedAt)
          ⟨fun h _ hg => Option.some.inj hg ▸ h, fun h => h g rfl⟩
  · infer_instance

def Floor.Le (f g : Floor) : Prop := f.invalidated ≤ g.invalidated ∧ f.changed ≤ g.changed

theorem Floor.Le.admits {f g : Floor} (h : f.Le g) {x : Gathered} (hx : g.Admits x) :
    f.Admits x :=
  ⟨h.1.trans hx.1, h.2.trans hx.2⟩

theorem Floor.Le.trans {f g k : Floor} (h : f.Le g) (h' : g.Le k) : f.Le k :=
  ⟨h.1.trans h'.1, h.2.trans h'.2⟩

/-- The cache is never below the floor, and the floor is in the past. -/
structure SharedInv (s : Shared) : Prop where
  invalidated : s.floor.invalidated ≤ s.now
  changed : s.floor.changed ≤ s.now
  cached : ∀ g, s.packagesCache = some g → s.floor.Admits g

/-- What a call has gathered is above the floor it started with. -/
def ThreadInv (s : Shared) : Thread → Prop
  | .idle | .changing _ | .dropped => True
  | .called _ _ f | .present _ _ f | .hit f | .missed f => f.Le s.floor
  | .opened f openedAt => f.invalidated ≤ openedAt ∧ f.changed ≤ openedAt ∧ openedAt ≤ s.now
  | .listed f openedAt listedAt => f.invalidated ≤ openedAt ∧ f.changed ≤ listedAt
  | .collected f g | .stored f g => f.Admits g
  | .returned f value => ∀ g, value = some g → f.Admits g
  | .changed _ changedAt => changedAt ≤ s.now

/-- The condition on a thread lasts while the floor rises and time passes. -/
theorem ThreadInv.mono {s s' : Shared} (hfloor : s.floor.Le s'.floor) (hnow : s.now ≤ s'.now)
    {t : Thread} (h : ThreadInv s t) : ThreadInv s' t := by
  cases t with
  | called refresh calledAt f => exact Floor.Le.trans h hfloor
  | present refresh calledAt f => exact Floor.Le.trans h hfloor
  | hit f => exact Floor.Le.trans h hfloor
  | missed f => exact Floor.Le.trans h hfloor
  | opened f openedAt => exact ⟨h.1, h.2.1, h.2.2.trans hnow⟩
  | changed change changedAt => exact Nat.le_trans h hnow
  | _ => exact h

/-- What one statement does to the invariant. -/
structure Kept (s : Shared) (next : Shared × Thread) : Prop where
  floor : s.floor.Le next.1.floor
  now : next.1.now = s.now
  shared : SharedInv next.1
  thread : ThreadInv next.1 next.2

theorem Kept.unchanged {s : Shared} (h : SharedInv s) {t : Thread} (ht : ThreadInv s t) :
    Kept s (s, t) :=
  ⟨⟨Nat.le_refl _, Nat.le_refl _⟩, rfl, h, ht⟩

/-- `_packages_cache = {}`, with a floor that is not above the present moment. -/
theorem Kept.drop {s : Shared} {f : Floor} (hle : s.floor.Le f) (hinvalidated : f.invalidated ≤ s.now)
    (hchanged : f.changed ≤ s.now) :
    Kept s ({ s with packagesCache := none, floor := f }, .dropped) :=
  ⟨hle, rfl, ⟨hinvalidated, hchanged, nofun⟩, trivial⟩

/-- Writes to the time of the cache, and the passing of time, keep the invariant. -/
theorem SharedInv.timed {s : Shared} (h : SharedInv s) (calledAt clock : Nat) :
    SharedInv { s with packagesCacheAt := calledAt, clock := clock } :=
  ⟨h.invalidated, h.changed, h.cached⟩

theorem next_kept {s : Shared} {t : Thread} {next : Shared × Thread} (hs : SharedInv s)
    (ht : ThreadInv s t) (htimely : Timely s t .next) (h : advance .next s t = some next) :
    Kept s next := by
  have hrefl : s.floor.Le s.floor := ⟨Nat.le_refl _, Nat.le_refl _⟩
  cases t with
  | idle => cases h
  | called refresh calledAt f =>
    simp only [advance] at h
    split at h
    · obtain rfl := Option.some.inj h
      exact Kept.unchanged hs ht
    · obtain rfl := Option.some.inj h
      exact Kept.unchanged hs ht
  | present refresh calledAt f =>
    simp only [advance] at h
    split at h
    · obtain rfl := Option.some.inj h
      exact Kept.unchanged hs ht
    · obtain rfl := Option.some.inj h
      exact Kept.unchanged hs ht
  | hit f =>
    obtain rfl := Option.some.inj h
    refine Kept.unchanged hs ?_
    -- The cache is above the present floor, which is above that of the call.
    intro g hg
    exact Floor.Le.admits ht (hs.cached g hg)
  | missed f =>
    obtain rfl := Option.some.inj h
    exact Kept.unchanged hs
      ⟨ht.1.trans hs.invalidated, ht.2.trans hs.changed, Nat.le_refl _⟩
  | opened f openedAt =>
    obtain rfl := Option.some.inj h
    exact Kept.unchanged hs ⟨ht.1, ht.2.1.trans ht.2.2⟩
  | listed f openedAt listedAt => cases h
  | collected f g =>
    obtain rfl := Option.some.inj h
    refine ⟨hrefl, rfl, ⟨hs.invalidated, hs.changed, ?_⟩, ht⟩
    intro other hother
    obtain rfl := Option.some.inj hother
    exact htimely
  | stored f g =>
    obtain rfl := Option.some.inj h
    refine ⟨hrefl, rfl, hs.timed _ _, ?_⟩
    intro other hother
    obtain rfl := Option.some.inj hother
    exact ht
  | returned f value =>
    obtain rfl := Option.some.inj h
    exact Kept.unchanged hs trivial
  | changing change =>
    obtain rfl := Option.some.inj h
    exact Kept.unchanged hs (Nat.le_refl _)
  | changed change changedAt => cases h
  | dropped =>
    obtain rfl := Option.some.inj h
    exact ⟨hrefl, rfl, hs.timed _ _, trivial⟩

theorem complete_kept {ok : Bool} {change : Change} {changedAt : Nat} {s : Shared}
    {next : Shared × Thread} (hs : SharedInv s) (hat : changedAt ≤ s.now)
    (htimely : Timely s (.changed change changedAt) (.complete ok))
    (h : advance (.complete ok) s (.changed change changedAt) = some next) : Kept s next := by
  have hle : s.floor.Le { s.floor with changed := max s.floor.changed changedAt } :=
    ⟨Nat.le_refl _, Nat.le_max_left _ _⟩
  have hpast : max s.floor.changed changedAt ≤ s.now := Nat.max_le.mpr ⟨hs.changed, hat⟩
  cases ok with
  | false =>
    obtain rfl := Option.some.inj h
    exact Kept.unchanged hs trivial
  | true =>
    cases change with
    | packages =>
      obtain rfl := Option.some.inj h
      exact Kept.drop hle hs.invalidated hpast
    | feeds =>
      obtain rfl := Option.some.inj h
      refine ⟨hle, rfl, ⟨hs.invalidated, hpast, ?_⟩, trivial⟩
      intro g hg
      exact ⟨(hs.cached g hg).1, Nat.max_le.mpr ⟨(hs.cached g hg).2, htimely g hg⟩⟩

/-- A timely statement keeps the invariant. -/
theorem advance_kept {a : Action} {s : Shared} {t : Thread} {next : Shared × Thread}
    (hs : SharedInv s) (ht : ThreadInv s t) (htimely : Timely s t a)
    (h : advance a s t = some next) : Kept s next := by
  have hrefl : s.floor.Le s.floor := ⟨Nat.le_refl _, Nat.le_refl _⟩
  cases a with
  | next => exact next_kept hs ht htimely h
  | elapse milliseconds =>
    obtain rfl := Option.some.inj h
    exact ⟨hrefl, rfl, hs.timed _ _, ht.mono hrefl (Nat.le_refl _)⟩
  | call refresh =>
    cases t with
    | idle =>
      obtain rfl := Option.some.inj h
      exact Kept.unchanged hs hrefl
    | _ => cases h
  | invalidate =>
    cases t with
    | idle =>
      obtain rfl := Option.some.inj h
      exact Kept.drop ⟨hs.invalidated, Nat.le_refl _⟩ (Nat.le_refl _) hs.changed
    | _ => cases h
  | change change =>
    cases t with
    | idle =>
      obtain rfl := Option.some.inj h
      exact Kept.unchanged hs trivial
    | _ => cases h
  | gather data =>
    cases t with
    | listed f openedAt listedAt =>
      obtain rfl := Option.some.inj h
      exact Kept.unchanged hs ht
    | _ => cases h
  | complete ok =>
    cases t with
    | changed change changedAt => exact complete_kept hs ht htimely h
    | _ => cases h
  | fail =>
    cases t with
    | missed f =>
      obtain rfl := Option.some.inj h
      exact Kept.unchanged hs trivial
    | opened f openedAt =>
      obtain rfl := Option.some.inj h
      exact Kept.unchanged hs trivial
    | listed f openedAt listedAt =>
      obtain rfl := Option.some.inj h
      exact Kept.unchanged hs trivial
    | changing change =>
      obtain rfl := Option.some.inj h
      exact Kept.unchanged hs trivial
    | _ => cases h

/-- A timely step keeps the condition on the shared state and on every thread. -/
theorem step_kept (a : Action) (s : Shared) (t : Thread) (s' : Shared) (t' : Thread)
    (hs : SharedInv s) (ht : ThreadInv s t) (htimely : Timely s t a)
    (h : step a s t = some (s', t')) :
    SharedInv s' ∧ ThreadInv s' t' ∧ ∀ u, ThreadInv s u → ThreadInv s' u := by
  obtain ⟨next, hadvance, hnext⟩ := Option.map_eq_some_iff.mp h
  obtain ⟨rfl, rfl⟩ := Prod.mk.inj hnext
  obtain ⟨hfloor, hnow, hshared, hthread⟩ := advance_kept hs ht htimely hadvance
  have hlater : next.1.now ≤ s.now + 1 := by omega
  have hgrown : ∀ u, ThreadInv next.1 u → ThreadInv { next.1 with now := s.now + 1 } u := by
    intro u hu
    refine ThreadInv.mono ?_ ?_ hu
    · exact ⟨Nat.le_refl _, Nat.le_refl _⟩
    · exact hlater
  refine ⟨⟨hshared.invalidated.trans hlater, hshared.changed.trans hlater, hshared.cached⟩,
    hgrown _ hthread, ?_⟩
  intro u hu
  exact hgrown u (hu.mono hfloor (Nat.le_of_eq hnow.symm))

/-! ## Runs -/

/-- What the threads hold when `n` of them start over a service that was just
created. -/
def start (n : Nat) : System Shared Thread := begin {} .idle n

/--
**No call returns an inventory that was gathered before an invalidation or a
completed change that precedes the call.**

This holds along every timely run.
-/
theorem fresh_of_timely (n : Nat) (events : List (Nat × Action)) (c : System Shared Thread)
    (hmeets : Runs.Meets (move step) (Under Timely) events (start n))
    (hrun : Runs.run (move step) events (start n) = some c) :
    ∀ t ∈ c.threads, t.Fresh := by
  have hstart : Holds SharedInv ThreadInv (start n) :=
    holds_begin ⟨Nat.le_refl _, Nat.le_refl _, nofun⟩ trivial n
  intro t ht
  have hinv := (holds_run step_kept hstart hmeets hrun).threads t ht
  cases t with
  | returned f value => exact hinv
  | _ => trivial

/-! ## A run that returns the inventory of the previous router -/

def exampleInventory : PackageInventory :=
  { manager := .opkg
    installed := "dropbear - 2024.86-1"
    upgradable := []
    status := [] }

/-- A call gathers an inventory; the active router changes before it is stored;
then another call is made. -/
def previousRouterRun : List (Nat × Action) :=
  [(0, .call false), (0, .next), (0, .next), (0, .next), (0, .gather exampleInventory),
    (1, .invalidate), (1, .next), (0, .next), (0, .next),
    (1, .call false), (1, .next), (1, .next), (1, .next)]

/-- The second call returns the inventory of the router that was active before. -/
theorem previous_router_returned :
    ¬ ∀ (n : Nat) (events : List (Nat × Action)) (c : System Shared Thread),
      Runs.run (move step) events (start n) = some c → ∀ t ∈ c.threads, t.Fresh := by
  intro h
  have hstale : ¬ Thread.Fresh (.returned ⟨5, 0⟩ (some ⟨exampleInventory, 2, 3⟩)) :=
    fun hfresh => absurd (hfresh _ rfl).1 (by decide)
  refine hstale (h 2 previousRouterRun _ rfl _ ?_)
  exact List.mem_cons_of_mem _ List.mem_cons_self

/-- The collection ends before the router changes. -/
def refetchedRun : List (Nat × Action) :=
  [(0, .call false), (0, .next), (0, .next), (0, .next), (0, .gather exampleInventory),
    (0, .next), (0, .next), (1, .invalidate), (1, .next), (1, .call false), (1, .next)]

/-- That run is timely. -/
theorem refetched_after_change :
    ∃ c, Runs.run (move step) refetchedRun (start 2) = some c ∧ ∀ t ∈ c.threads, t.Fresh :=
  ⟨_, rfl, fresh_of_timely 2 refetchedRun _ (by decide) rfl⟩

end OpenWrtCopilot.Ports.PackagesCache
