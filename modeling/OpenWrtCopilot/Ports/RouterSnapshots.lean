import OpenWrtCopilot.Verified.PyDict
import OpenWrtCopilot.Verified.Threads
import OpenWrtCopilot.Ports.ActionGuard

/-!
# Router snapshots under concurrent calls

Ports `RouterContextCache`, `RouterToolExecutor.execute`, `RouterSnapshotService.build` and
`RouterManager.invalidate`.  Chat requests and the status route build snapshots in threads
of a pool, and onboarding invalidates the caches of all routers when the active connection
changes, so the calls are interleaved.  The cache takes its lock for each lookup, each store
and each clearing; between them, and while a tool runs, any other thread may move.

A build looks its tools up, executes those that are missing and stores their results under
the name of the session.  Nothing tells it that the cache was cleared since its tools were
started.

## Main results

* `builds_fresh_of_timely` — no build returns a result from before an invalidation that precedes
  the build, and no failed result comes from the cache, in a run in which no result is
  stored in a cache that was cleared since its tool was started.
* `previous_router_result_returned` — a run in which one is.
-/

namespace OpenWrtCopilot.Ports.RouterSnapshots

open Verified
open Verified.Threads
open Verified.PyDict (Dict get? get?_set_self get?_set_of_ne get?_erase)
open Verified.PyText
open Ports.ActionGuard (ActionDecision evaluate)

variable {V : Type}

/-! ## Tool results -/

/-- The result of a tool, or the decision that kept it from running. -/
inductive ToolValue (V : Type)
  | value (v : V)
  | decision (d : ActionDecision)

/-- `RouterToolResult`. -/
structure RouterToolResult (V : Type) where
  name : Text
  ok : Bool
  result : Option (ToolValue V) := none
  error : Option Text := none

/-- `RouterToolExecutor._execute_one`; the answer is what resolving and calling the tool
comes to, a value or the text of the exception. -/
def executeOne (name : Text) (answer : Except Text V) : RouterToolResult V :=
  let decision := evaluate name
  if decision.decision ≠ .allow then
    { name := name
      ok := false
      result := some (.decision decision)
      error := some decision.reason }
  else
    match answer with
    | .ok v => { name := name, ok := true, result := some (.value v) }
    | .error e => { name := name, ok := false, error := some e }

/-- A result and the moment at which its tool was started. -/
structure Obtained (V : Type) where
  result : RouterToolResult V
  moment : Nat

/-! ## The cache -/

/-- `RouterContextCache`: by session and tool, when a result was stored and the result. -/
structure RouterContextCache (V : Type) where
  ttl : Int
  entries : Dict (Text × Text) (Int × Obtained V) := []
  hits : Nat := 0
  misses : Nat := 0

namespace RouterContextCache

/-- `RouterContextCache.get`, at this `time.monotonic()`. -/
def get (clock : Int) (sessionId name : Text) (c : RouterContextCache V) :
    Option (Obtained V) × RouterContextCache V :=
  match get? (sessionId, name) c.entries with
  | none => (none, { c with misses := c.misses + 1 })
  | some (storedAt, r) =>
      if c.ttl < clock - storedAt then
        (none, { c with
          entries := PyDict.erase (sessionId, name) c.entries, misses := c.misses + 1 })
      else (some r, { c with hits := c.hits + 1 })

/-- `RouterContextCache.set`. -/
def set (clock : Int) (sessionId name : Text) (r : Obtained V) (c : RouterContextCache V) :
    RouterContextCache V :=
  if r.result.ok = false then c
  else { c with entries := PyDict.set (sessionId, name) (clock, r) c.entries }

/-- `RouterContextCache.clear`. -/
def clear (sessionId : Option Text) (c : RouterContextCache V) : RouterContextCache V :=
  match sessionId with
  | none => { c with entries := [] }
  | some sid => { c with entries := c.entries.filter fun entry => entry.1.1 ≠ sid }

end RouterContextCache

/-! ## Snapshots -/

/-- `RouterSnapshot`. -/
structure RouterSnapshot (V : Type) where
  system : Option (ToolValue V) := none
  cpu : Option (ToolValue V) := none
  memory : Option (ToolValue V) := none
  storage : Option (ToolValue V) := none
  network : Option (ToolValue V) := none
  wifi : Option (ToolValue V) := none

/-- `_value`. -/
def value (r : Option (Obtained V)) : Option (ToolValue V) :=
  match r with
  | some r => if r.result.ok then r.result.result else none
  | none => none

/-- The snapshot of the results that were collected. -/
def snapshotOf (collected : Dict Text (Obtained V)) : RouterSnapshot V where
  system := value (get? "system".toList collected)
  cpu := value (get? "cpu".toList collected)
  memory := value (get? "memory".toList collected)
  storage := value (get? "storage".toList collected)
  network := value (get? "network".toList collected)
  wifi := value (get? "wifi".toList collected)

/-! ## The state -/

/-- What the threads share.  `now` counts steps and orders the moments; no step of the
program looks at it, at `invalidated` or at `cleared`. -/
structure Shared (V : Type) where
  /-- The ids of `_routers`, in the order of their registration. -/
  routers : List Text
  /-- The cache of each router, which its snapshot service shares. -/
  caches : Text → RouterContextCache V
  /-- `time.monotonic()`. -/
  clock : Int := 0
  now : Nat := 0
  /-- When the latest of the invalidations that have returned was called. -/
  invalidated : Nat := 0
  /-- When the latest of the invalidations that are through with the cache was called. -/
  cleared : Text → Nat := fun _ => 0

/-- One of the caches is replaced. -/
def Shared.putCache (s : Shared V) (router : Text) (c : RouterContextCache V) : Shared V :=
  { s with caches := fun id => if id = router then c else s.caches id }

@[simp] theorem Shared.putCache_self (s : Shared V) (router : Text)
    (c : RouterContextCache V) : (s.putCache router c).caches router = c := if_pos rfl

/-- The arguments of a `build`, and the invalidation that precedes it. -/
structure Call where
  router : Text
  sessionId : Text
  invalidated : Nat

/-- Where a thread is. -/
inductive Thread (V : Type)
  | idle
  /-- In the loop over the requests. -/
  | lookingUp (call : Call) (requests : List Text) (collected : Dict Text (Obtained V))
      (pending : List Text)
  /-- In `execute`, between two tools. -/
  | executing (call : Call) (pending : List Text) (collected : Dict Text (Obtained V))
      (results : List (Obtained V))
  /-- In a tool. -/
  | running (call : Call) (name : Text) (startedAt : Nat) (pending : List Text)
      (collected : Dict Text (Obtained V)) (results : List (Obtained V))
  /-- In the loop over the results. -/
  | storing (call : Call) (results : List (Obtained V)) (collected : Dict Text (Obtained V))
  /-- The call returns. -/
  | returned (call : Call) (collected : Dict Text (Obtained V)) (snapshot : RouterSnapshot V)
  /-- In the loop of `invalidate`. -/
  | clearing (calledAt : Nat) (routers : List Text)
  /-- `registered.cache.clear()` was executed. -/
  | cleared (calledAt : Nat) (router : Text) (routers : List Text)

/-- What a thread does next, with what the tools or the clock contribute. -/
inductive Action (V : Type)
  | build (router : Text) (sessionId : Option Text) (requests : List Text)
  | invalidate
  /-- The next statement. -/
  | next
  /-- The tool ends. -/
  | answer (outcome : Except Text V)
  | elapse (time : Nat)

/-! ## One step -/

/-- One statement of a thread. -/
def advance : Action V → Shared V → Thread V → Option (Shared V × Thread V)
  | .elapse time, s, t => some ({ s with clock := s.clock + time }, t)
  -- build
  | .build router sessionId requests, s, .idle =>
      if router ∈ s.routers then
        some (s, .lookingUp ⟨router, sessionId.getD [], s.invalidated⟩ requests [] [])
      else none
  | .next, s, .lookingUp call (name :: requests) collected pending =>
      match (s.caches call.router).get s.clock call.sessionId name with
      | (some cached, c) =>
          some (s.putCache call.router c,
            .lookingUp call requests (PyDict.set name cached collected) pending)
      | (none, c) =>
          some (s.putCache call.router c,
            .lookingUp call requests collected (pending ++ [name]))
  | .next, s, .lookingUp call [] collected pending =>
      if pending ≠ [] then some (s, .executing call pending collected [])
      else some (s, .returned call collected (snapshotOf collected))
  | .next, s, .executing call (name :: pending) collected results =>
      some (s, .running call name s.now pending collected results)
  | .answer outcome, s, .running call name startedAt pending collected results =>
      some (s, .executing call pending collected
        (results ++ [⟨executeOne name outcome, startedAt⟩]))
  | .next, s, .executing call [] collected results => some (s, .storing call results collected)
  | .next, s, .storing call (r :: results) collected =>
      some (s.putCache call.router
          ((s.caches call.router).set s.clock call.sessionId r.result.name r),
        .storing call results (PyDict.set r.result.name r collected))
  | .next, s, .storing call [] collected =>
      some (s, .returned call collected (snapshotOf collected))
  | .next, s, .returned _ _ _ => some (s, .idle)
  -- invalidate
  | .invalidate, s, .idle => some (s, .clearing s.now s.routers)
  | .next, s, .clearing calledAt (router :: routers) =>
      some (s.putCache router ((s.caches router).clear none), .cleared calledAt router routers)
  -- `registered.snapshot_service.clear()`, which clears the same cache again
  | .next, s, .cleared calledAt router routers =>
      some ({ s.putCache router ((s.caches router).clear none) with
          cleared := fun id =>
            if id = router then max (s.cleared id) calledAt else s.cleared id },
        .clearing calledAt routers)
  | .next, s, .clearing calledAt [] =>
      some ({ s with invalidated := max s.invalidated calledAt }, .idle)
  | _, _, _ => none

/-- One statement, at the next moment. -/
def step (a : Action V) (s : Shared V) (t : Thread V) : Option (Shared V × Thread V) :=
  (advance a s t).map fun next => ({ next.1 with now := s.now + 1 }, next.2)

/-! ## The condition and the invariant -/

/-- What was collected before the tools are executed comes from the cache: no failed result
does.  What a call returns is not from before the invalidation that precedes it. -/
def Thread.Fresh : Thread V → Prop
  | .lookingUp _ _ collected _ => ∀ name r, get? name collected = some r → r.result.ok = true
  | .returned call collected _ =>
      ∀ name r, get? name collected = some r → call.invalidated ≤ r.moment
  | _ => True

/-- No result is stored in a cache that was cleared by an invalidation since its tool was
started. -/
def Timely (s : Shared V) : Thread V → Action V → Prop
  | .storing call (r :: _) _, .next => r.result.ok = true → s.cleared call.router ≤ r.moment
  | _, _ => True

instance (s : Shared V) (t : Thread V) (a : Action V) : Decidable (Timely s t a) := by
  unfold Timely
  split <;> infer_instance

/-- Every result in the cache is a success from the given moment or later. -/
def Sound (floor : Nat) (c : RouterContextCache V) : Prop :=
  ∀ key storedAt r, get? key c.entries = some (storedAt, r) →
    r.result.ok = true ∧ floor ≤ r.moment

/-- No cache holds a result from before the invalidation that cleared it, and none from
before an invalidation that has returned. -/
structure SharedInv (s : Shared V) : Prop where
  invalidated : s.invalidated ≤ s.now
  cleared : ∀ id ∈ s.routers, s.invalidated ≤ s.cleared id
  caches : ∀ id, Sound (s.cleared id) (s.caches id)

structure CallInv (s : Shared V) (call : Call) : Prop where
  router : call.router ∈ s.routers
  invalidated : call.invalidated ≤ s.invalidated

/-- The results are not from before the invalidation that precedes the call. -/
def AllSince (call : Call) (collected : Dict Text (Obtained V)) : Prop :=
  ∀ name r, get? name collected = some r → call.invalidated ≤ r.moment

/-- An invalidation is through with the caches of all routers but these. -/
structure Through (s : Shared V) (calledAt : Nat) (routers : List Text) : Prop where
  called : calledAt ≤ s.now
  cleared : ∀ id ∈ s.routers, id ∉ routers → calledAt ≤ s.cleared id

def ThreadInv (s : Shared V) : Thread V → Prop
  | .idle => True
  | .lookingUp call _ collected _ =>
      CallInv s call ∧ AllSince call collected ∧
        ∀ name r, get? name collected = some r → r.result.ok = true
  | .executing call _ collected results =>
      CallInv s call ∧ AllSince call collected ∧ ∀ r ∈ results, call.invalidated ≤ r.moment
  | .running call _ startedAt _ collected results =>
      CallInv s call ∧ AllSince call collected ∧ (∀ r ∈ results, call.invalidated ≤ r.moment) ∧
        call.invalidated ≤ startedAt
  | .storing call results collected =>
      AllSince call collected ∧ ∀ r ∈ results, call.invalidated ≤ r.moment
  | .returned call collected _ => AllSince call collected
  | .clearing calledAt routers => Through s calledAt routers
  | .cleared calledAt router routers => Through s calledAt (router :: routers)

theorem ThreadInv.fresh {s : Shared V} {t : Thread V} (h : ThreadInv s t) : t.Fresh := by
  cases t with
  | lookingUp call requests collected pending => exact h.2.2
  | returned call collected snapshot => exact h
  | _ => trivial

/-- Invalidations add up and time passes. -/
structure Later (s s' : Shared V) : Prop where
  routers : s'.routers = s.routers
  invalidated : s.invalidated ≤ s'.invalidated
  cleared : ∀ id, s.cleared id ≤ s'.cleared id
  now : s.now ≤ s'.now

section Later

variable {s s' : Shared V}

theorem Later.refl (s : Shared V) : Later s s :=
  ⟨rfl, Nat.le_refl _, fun _ => Nat.le_refl _, Nat.le_refl _⟩

theorem CallInv.mono {call : Call} (h : CallInv s call) (hlater : Later s s') :
    CallInv s' call :=
  ⟨hlater.routers ▸ h.router, h.invalidated.trans hlater.invalidated⟩

theorem Through.mono {calledAt : Nat} {routers : List Text} (h : Through s calledAt routers)
    (hlater : Later s s') : Through s' calledAt routers := by
  refine ⟨h.called.trans hlater.now, fun id hid hout => ?_⟩
  rw [hlater.routers] at hid
  exact (h.cleared id hid hout).trans (hlater.cleared id)

theorem ThreadInv.mono {t : Thread V} (h : ThreadInv s t) (hlater : Later s s') :
    ThreadInv s' t := by
  cases t with
  | idle => trivial
  | lookingUp call requests collected pending => exact ⟨h.1.mono hlater, h.2⟩
  | executing call pending collected results => exact ⟨h.1.mono hlater, h.2⟩
  | running call name startedAt pending collected results => exact ⟨h.1.mono hlater, h.2⟩
  | storing call results collected => exact h
  | returned call collected snapshot => exact h
  | clearing calledAt routers => exact Through.mono h hlater
  | cleared calledAt router routers => exact Through.mono h hlater

end Later

/-! ## What one statement keeps -/

section Caches

variable {c : RouterContextCache V} {floor : Nat}

/-- A lookup returns what is in the cache, and adds nothing to it. -/
theorem get_spec (clock : Int) (sessionId name : Text) (c : RouterContextCache V) :
    (∀ r, (c.get clock sessionId name).1 = some r →
      ∃ storedAt, get? (sessionId, name) c.entries = some (storedAt, r)) ∧
    ∀ key entry, get? key (c.get clock sessionId name).2.entries = some entry →
      get? key c.entries = some entry := by
  rw [RouterContextCache.get]
  cases hentry : get? (sessionId, name) c.entries with
  | none =>
    refine ⟨?_, fun _ _ h => h⟩
    rintro _ ⟨⟩
  | some entry =>
    obtain ⟨storedAt, r⟩ := entry
    by_cases hold : c.ttl < clock - storedAt
    · simp only [if_pos hold]
      refine ⟨by rintro _ ⟨⟩, fun key entry h => ?_⟩
      rw [get?_erase] at h
      split_ifs at h with hkey
      exact h
    · simp only [if_neg hold]
      refine ⟨fun other hother => ?_, fun _ _ h => h⟩
      obtain rfl := Option.some.inj hother
      exact ⟨storedAt, rfl⟩

theorem Sound.get (h : Sound floor c) (clock : Int) (sessionId name : Text) :
    Sound floor (c.get clock sessionId name).2 :=
  fun key storedAt r hr => h key storedAt r ((get_spec clock sessionId name c).2 key _ hr)

theorem Sound.get_some (h : Sound floor c) {clock : Int} {sessionId name : Text} {r : Obtained V}
    (hr : (c.get clock sessionId name).1 = some r) : r.result.ok = true ∧ floor ≤ r.moment := by
  obtain ⟨storedAt, hentry⟩ := (get_spec clock sessionId name c).1 r hr
  exact h _ storedAt r hentry

/-- A store keeps the cache sound if it stores a sound result. -/
theorem Sound.set (h : Sound floor c) (clock : Int) (sessionId name : Text) {r : Obtained V}
    (hr : r.result.ok = true → floor ≤ r.moment) :
    Sound floor (c.set clock sessionId name r) := by
  rw [RouterContextCache.set]
  by_cases hok : r.result.ok = true
  · rw [if_neg (by rw [hok]; nofun)]
    intro key storedAt other hother
    by_cases hkey : key = (sessionId, name)
    · rw [hkey, get?_set_self] at hother
      obtain ⟨-, rfl⟩ := Prod.mk.inj (Option.some.inj hother)
      exact ⟨hok, hr hok⟩
    · rw [get?_set_of_ne hkey] at hother
      exact h key storedAt other hother
  · rw [if_pos (Bool.not_eq_true _ ▸ hok)]
    exact h

theorem sound_clear (floor : Nat) (c : RouterContextCache V) : Sound floor (c.clear none) := by
  intro key storedAt r hr
  cases hr

end Caches

theorem AllSince.set {call : Call} {collected : Dict Text (Obtained V)} {r : Obtained V}
    (h : AllSince call collected) (name : Text) (hr : call.invalidated ≤ r.moment) :
    AllSince call (PyDict.set name r collected) := by
  intro other r' hr'
  by_cases hother : other = name
  · rw [hother, get?_set_self] at hr'
    obtain rfl := Option.some.inj hr'
    exact hr
  · rw [get?_set_of_ne hother] at hr'
    exact h other r' hr'

/-- What one statement does to the invariant. -/
structure Kept (s : Shared V) (next : Shared V × Thread V) : Prop where
  later : Later s next.1
  now : next.1.now = s.now
  shared : SharedInv next.1
  thread : ThreadInv next.1 next.2

section Step

variable {s : Shared V} {t : Thread V} {next : Shared V × Thread V}

theorem Kept.unchanged (hs : SharedInv s) (ht : ThreadInv s t) : Kept s (s, t) :=
  ⟨Later.refl s, rfl, hs, ht⟩

theorem Later.putCache (s : Shared V) (router : Text) (c : RouterContextCache V) :
    Later s (s.putCache router c) :=
  ⟨rfl, Nat.le_refl _, fun _ => Nat.le_refl _, Nat.le_refl _⟩

theorem SharedInv.putCache (hs : SharedInv s) {router : Text} {c : RouterContextCache V}
    (hc : Sound (s.cleared router) c) : SharedInv (s.putCache router c) := by
  refine ⟨hs.invalidated, hs.cleared, fun id => ?_⟩
  show Sound (s.cleared id) (if id = router then c else s.caches id)
  by_cases hid : id = router
  · rw [if_pos hid, hid]
    exact hc
  · rw [if_neg hid]
    exact hs.caches id

/-- A lookup: what it finds is from after the invalidation that precedes the call. -/
theorem lookup_kept {call : Call} {name : Text} {requests pending : List Text}
    {collected : Dict Text (Obtained V)} (hs : SharedInv s)
    (ht : ThreadInv s (.lookingUp call (name :: requests) collected pending))
    (h : advance .next s (.lookingUp call (name :: requests) collected pending) = some next) :
    Kept s next := by
  obtain ⟨hcall, hsince, hok⟩ := ht
  have hcache := hs.caches call.router
  have hget := hcache.get s.clock call.sessionId name
  have hsome := @Sound.get_some _ _ _ hcache s.clock call.sessionId name
  rw [advance] at h
  cases hlookup : (s.caches call.router).get s.clock call.sessionId name with
  | mk found c =>
    rw [hlookup] at h hget hsome
    have hput := hs.putCache hget
    have hlater := Later.putCache s call.router c
    cases found with
    | none =>
      obtain rfl := Option.some.inj h
      exact ⟨hlater, rfl, hput, hcall.mono hlater, hsince, hok⟩
    | some r =>
      obtain rfl := Option.some.inj h
      obtain ⟨hrok, hfloor⟩ := hsome rfl
      have hmoment : call.invalidated ≤ r.moment :=
        (hcall.invalidated.trans (hs.cleared _ hcall.router)).trans hfloor
      refine ⟨hlater, rfl, hput, hcall.mono hlater, hsince.set name hmoment, ?_⟩
      intro other r' hr'
      by_cases hother : other = name
      · rw [hother, get?_set_self] at hr'
        obtain rfl := Option.some.inj hr'
        exact hrok
      · rw [get?_set_of_ne hother] at hr'
        exact hok other r' hr'

/-- The second clearing: the invalidation is through with one more cache. -/
theorem cleared_kept {calledAt : Nat} {router : Text} {routers : List Text} (hs : SharedInv s)
    (ht : Through s calledAt (router :: routers)) :
    Kept s ({ s.putCache router ((s.caches router).clear none) with
        cleared := fun id => if id = router then max (s.cleared id) calledAt else s.cleared id },
      .clearing calledAt routers) := by
  have hgrown : ∀ id, s.cleared id ≤
      if id = router then max (s.cleared id) calledAt else s.cleared id := by
    intro id
    split_ifs
    · exact Nat.le_max_left _ _
    · exact Nat.le_refl _
  refine ⟨⟨rfl, Nat.le_refl _, hgrown, Nat.le_refl _⟩, rfl, ⟨hs.invalidated, ?_, ?_⟩,
    ht.called, ?_⟩
  · intro id hid
    exact (hs.cleared id hid).trans (hgrown id)
  · intro id
    show Sound (if id = router then _ else _)
      (if id = router then (s.caches router).clear none else s.caches id)
    by_cases hid : id = router
    · rw [if_pos hid, if_pos hid]
      exact sound_clear _ _
    · rw [if_neg hid, if_neg hid]
      exact hs.caches id
  · intro id hid hout
    show calledAt ≤ if id = router then max (s.cleared id) calledAt else s.cleared id
    by_cases hrouter : id = router
    · rw [if_pos hrouter]
      exact Nat.le_max_right _ _
    · rw [if_neg hrouter]
      have hnone : id ∉ router :: routers := by
        rw [List.mem_cons, not_or]
        exact ⟨hrouter, hout⟩
      exact ht.cleared id hid hnone

theorem next_kept (hs : SharedInv s) (ht : ThreadInv s t) (htimely : Timely s t .next)
    (h : advance .next s t = some next) : Kept s next := by
  cases t with
  | idle => cases h
  | lookingUp call requests collected pending =>
    cases requests with
    | cons name requests => exact lookup_kept hs ht h
    | nil =>
      obtain ⟨hcall, hsince, -⟩ := ht
      rw [advance] at h
      split_ifs at h
      · obtain rfl := Option.some.inj h
        exact Kept.unchanged hs ⟨hcall, hsince, nofun⟩
      · obtain rfl := Option.some.inj h
        exact Kept.unchanged hs hsince
  | executing call pending collected results =>
    obtain ⟨hcall, hsince, hresults⟩ := ht
    cases pending with
    | nil =>
      obtain rfl := Option.some.inj h
      exact Kept.unchanged hs ⟨hsince, hresults⟩
    | cons name pending =>
      obtain rfl := Option.some.inj h
      -- The invalidation that precedes the call is in the past.
      exact Kept.unchanged hs
        ⟨hcall, hsince, hresults, hcall.invalidated.trans hs.invalidated⟩
  | running call name startedAt pending collected results => cases h
  | storing call results collected =>
    obtain ⟨hsince, hresults⟩ := ht
    cases results with
    | nil =>
      obtain rfl := Option.some.inj h
      exact Kept.unchanged hs hsince
    | cons r results =>
      obtain rfl := Option.some.inj h
      have hcache := (hs.caches call.router).set s.clock call.sessionId r.result.name htimely
      exact ⟨Later.putCache s _ _, rfl, hs.putCache hcache,
        hsince.set _ (hresults r List.mem_cons_self),
        fun r' hr' => hresults r' (List.mem_cons_of_mem r hr')⟩
  | returned call collected snapshot =>
    obtain rfl := Option.some.inj h
    exact Kept.unchanged hs trivial
  | clearing calledAt routers =>
    cases routers with
    | nil =>
      obtain rfl := Option.some.inj h
      refine ⟨⟨rfl, Nat.le_max_left _ _, fun _ => Nat.le_refl _, Nat.le_refl _⟩, rfl,
        ⟨Nat.max_le.mpr ⟨hs.invalidated, ht.called⟩, ?_, hs.caches⟩, trivial⟩
      intro id hid
      exact Nat.max_le.mpr ⟨hs.cleared id hid, ht.cleared id hid List.not_mem_nil⟩
    | cons router routers =>
      obtain rfl := Option.some.inj h
      have hlater := Later.putCache s router ((s.caches router).clear none)
      exact ⟨hlater, rfl, hs.putCache (sound_clear _ _), Through.mono ht hlater⟩
  | cleared calledAt router routers =>
    obtain rfl := Option.some.inj h
    exact cleared_kept hs ht

/-- A timely statement keeps the invariant. -/
theorem advance_kept {a : Action V} (hs : SharedInv s) (ht : ThreadInv s t)
    (htimely : Timely s t a) (h : advance a s t = some next) : Kept s next := by
  cases a with
  | next => exact next_kept hs ht htimely h
  | elapse time =>
    obtain rfl := Option.some.inj h
    have hlater : Later s { s with clock := s.clock + time } :=
      ⟨rfl, Nat.le_refl _, fun _ => Nat.le_refl _, Nat.le_refl _⟩
    exact ⟨hlater, rfl, ⟨hs.invalidated, hs.cleared, hs.caches⟩, ht.mono hlater⟩
  | build router sessionId requests =>
    cases t with
    | idle =>
      rw [advance] at h
      split_ifs at h with hrouter
      obtain rfl := Option.some.inj h
      exact Kept.unchanged hs ⟨⟨hrouter, Nat.le_refl _⟩, nofun, nofun⟩
    | _ => cases h
  | invalidate =>
    cases t with
    | idle =>
      obtain rfl := Option.some.inj h
      exact Kept.unchanged hs ⟨Nat.le_refl _, fun id hid hout => absurd hid hout⟩
    | _ => cases h
  | answer outcome =>
    cases t with
    | running call name startedAt pending collected results =>
      obtain ⟨hcall, hsince, hresults, hstarted⟩ := ht
      obtain rfl := Option.some.inj h
      refine Kept.unchanged hs ⟨hcall, hsince, ?_⟩
      intro r hr
      obtain hr | hr := List.mem_append.mp hr
      · exact hresults r hr
      · obtain rfl := List.mem_singleton.mp hr
        exact hstarted
    | _ => cases h

end Step

/-- A timely step keeps the condition on the shared state and on every thread. -/
theorem step_kept (a : Action V) (s : Shared V) (t : Thread V) (s' : Shared V) (t' : Thread V)
    (hs : SharedInv s) (ht : ThreadInv s t) (htimely : Timely s t a)
    (h : step a s t = some (s', t')) :
    SharedInv s' ∧ ThreadInv s' t' ∧ ∀ u, ThreadInv s u → ThreadInv s' u := by
  obtain ⟨next, hadvance, hnext⟩ := Option.map_eq_some_iff.mp h
  obtain ⟨rfl, rfl⟩ := Prod.mk.inj hnext
  obtain ⟨hlater, hnow, hshared, hthread⟩ := advance_kept hs ht htimely hadvance
  have hpasses : Later next.1 { next.1 with now := s.now + 1 } :=
    ⟨rfl, Nat.le_refl _, fun _ => Nat.le_refl _, by show next.1.now ≤ s.now + 1; omega⟩
  refine ⟨⟨hshared.invalidated.trans hpasses.now, hshared.cleared, hshared.caches⟩,
    hthread.mono hpasses, ?_⟩
  intro u hu
  exact (hu.mono hlater).mono hpasses

/-! ## Runs -/

/-- What the threads hold when `n` of them start and the given routers were just
registered. -/
def start (routers : List Text) (ttl : Text → Int) (n : Nat) : System (Shared V) (Thread V) :=
  begin { routers := routers, caches := fun id => { ttl := ttl id } } .idle n

/--
**No build returns a result from before an invalidation that precedes the build, and no
failed result comes from the cache.**

This holds along every timely run.
-/
theorem builds_fresh_of_timely (routers : List Text) (ttl : Text → Int) (n : Nat)
    (events : List (Nat × Action V)) (c : System (Shared V) (Thread V))
    (hmeets : Runs.Meets (move step) (Under Timely) events (start routers ttl n))
    (hrun : Runs.run (move step) events (start routers ttl n) = some c) :
    ∀ t ∈ c.threads, t.Fresh := by
  have hshared : SharedInv (start routers ttl n : System (Shared V) (Thread V)).shared :=
    ⟨Nat.le_refl _, fun _ _ => Nat.le_refl _, fun _ => nofun⟩
  have hstart : Holds SharedInv ThreadInv (start routers ttl n : System (Shared V) (Thread V)) :=
    holds_begin hshared trivial n
  intro t ht
  exact ((holds_run step_kept hstart hmeets hrun).threads t ht).fresh

/-! ## A run that returns the result of the previous router -/

/-- The answers are numbers of routers: the tool of a build has answered when the active
router changes, and the build stores the answer once the caches are cleared. -/
def previousRouterRun : List (Nat × Action Nat) :=
  [(0, .build "default".toList (some "chat".toList) ["cpu".toList]), (0, .next), (0, .next),
    (0, .next), (0, .answer (.ok 1)), (0, .next),
    (1, .invalidate), (1, .next), (1, .next), (1, .next),
    (0, .next), (0, .next),
    (1, .build "default".toList (some "chat".toList) ["cpu".toList]), (1, .next), (1, .next)]

/-- The second build starts after the invalidation and returns what the tool said of the
router before. -/
theorem previous_router_result_returned :
    ¬ ∀ (routers : List Text) (ttl : Text → Int) (n : Nat) (events : List (Nat × Action Nat))
        (c : System (Shared Nat) (Thread Nat)),
      Runs.run (move step) events (start routers ttl n) = some c → ∀ t ∈ c.threads, t.Fresh := by
  intro h
  have hstale : ∃ c : System (Shared Nat) (Thread Nat),
      Runs.run (move step) previousRouterRun (start ["default".toList] (fun _ => 30) 2) = some c ∧
        ∃ t ∈ c.threads, ¬ t.Fresh := by
    refine ⟨_, rfl, _, List.mem_cons_of_mem _ List.mem_cons_self, fun hfresh => ?_⟩
    exact absurd (hfresh "cpu".toList _ rfl) (by decide)
  obtain ⟨c, hrun, t, ht, hstale⟩ := hstale
  exact hstale (h _ _ _ _ c hrun t ht)

/-- The results are stored before the router changes. -/
def storedRun : List (Nat × Action Nat) :=
  [(0, .build "default".toList (some "chat".toList) ["cpu".toList]), (0, .next), (0, .next),
    (0, .next), (0, .answer (.ok 1)), (0, .next), (0, .next), (0, .next),
    (1, .invalidate), (1, .next), (1, .next), (1, .next),
    (1, .build "default".toList (some "chat".toList) ["cpu".toList]), (1, .next)]

/-- That run is timely. -/
theorem stored_before_change :
    ∃ c, Runs.run (move step) storedRun (start ["default".toList] (fun _ => 30) 2) = some c ∧
      ∀ t ∈ c.threads, t.Fresh :=
  ⟨_, rfl, builds_fresh_of_timely ["default".toList] (fun _ => 30) 2 storedRun _ (by decide) rfl⟩

end OpenWrtCopilot.Ports.RouterSnapshots
