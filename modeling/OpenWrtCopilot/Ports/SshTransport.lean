import OpenWrtCopilot.Verified.Fallible
import OpenWrtCopilot.Verified.Runs

/-!
# The lifecycle of the SSH transport

Ports the constructor, `connect`, `disconnect`, `reconnect` and `close` of `SSHTransport`, with
the error classes that their `except` clauses name.  How the connect of the client ends, and
whether an open connection is alive, is part of a call.

## Main results

* `perform_attempt` — what a call with a connect of the client does to the state.
* `lifecycle_iff` — in which runs the state tells how the last connect ended, and which
  constructor calls leave no event loop behind.
* `refused_connecting` — a refused connect leaves the transport connecting.
-/

namespace OpenWrtCopilot.Ports.SshTransport

open Verified
open Verified.Runs

/-! ## Errors -/

/-- The built-in classes and those of `router_agent.errors` and `transport.ssh.errors`. -/
inductive ErrorClass
  | exception
  | runtimeError
  | osError
  | builtinTimeoutError
  | builtinConnectionError
  | connectionRefusedError
  | connectionResetError
  | routerAgentError
  | connectionFailedError
  | sshError
  | authenticationError
  | hostKeyError
  | timeoutError
  | connectionError
  deriving DecidableEq

def ErrorClass.bases : ErrorClass → List ErrorClass
  | .exception => []
  | .runtimeError => [.exception]
  | .osError => [.exception]
  | .builtinTimeoutError => [.osError]
  | .builtinConnectionError => [.osError]
  | .connectionRefusedError => [.builtinConnectionError]
  | .connectionResetError => [.builtinConnectionError]
  | .routerAgentError => [.exception]
  | .connectionFailedError => [.routerAgentError]
  | .sshError => [.routerAgentError]
  | .authenticationError => [.sshError]
  | .hostKeyError => [.sshError]
  | .timeoutError => [.sshError, .builtinTimeoutError]
  | .connectionError => [.sshError, .connectionFailedError]

/-- The classes, and their bases. -/
def withBases (classes : List ErrorClass) : List ErrorClass :=
  classes ++ classes.flatMap ErrorClass.bases

/-- The class and what it inherits from. -/
def ErrorClass.ancestors (e : ErrorClass) : List ErrorClass :=
  withBases (withBases (withBases [e]))

/-- `except classes` catches the error. -/
def ErrorClass.caught (e : ErrorClass) (classes : List ErrorClass) : Bool :=
  classes.any e.ancestors.contains

/-! ## The transport -/

inductive ConnectionState
  | disconnected
  | connecting
  | connected
  | failed
  deriving DecidableEq

/-- An `SSHTransport`, with its event loop. -/
structure Transport where
  state : ConnectionState := .disconnected
  closed : Bool := false
  ownsBridge : Bool
  bridgeRunning : Bool := true

/-- The property `state`. -/
def Transport.shown (t : Transport) : ConnectionState :=
  if t.closed then .disconnected else t.state

/-- How `self._bridge.run(self._client.connect())` ends. -/
abbrev Outcome := Except ErrorClass Unit

abbrev Op := Fallible ErrorClass Transport Unit

def setState (state : ConnectionState) : Op := Fallible.modify fun t => { t with state := state }

/-- The error that `connect` raises where the client raises `e`, and the state it leaves. -/
def translate (e : ErrorClass) : Op := do
  if e.caught [.authenticationError, .hostKeyError] then
    setState .failed
    Fallible.raise e
  else if e.caught [.timeoutError, .osError] then
    setState .failed
    Fallible.raise .connectionFailedError
  else Fallible.raise e

/-- `connect`. -/
def connect (alive : Bool) (outcome : Outcome) : Op := do
  let t ← Fallible.read
  if t.closed then Fallible.raise .runtimeError
  else if t.state = .connected && alive then pure ()
  else
    setState .connecting
    match outcome with
    | .ok () => setState .connected
    | .error e => translate e

/-- `disconnect`; errors of the client are suppressed. -/
def disconnect : Op :=
  Fallible.modify fun t => if t.closed then t else { t with state := .disconnected }

/-- `reconnect`. -/
def reconnect (alive : Bool) (outcome : Outcome) : Op := do
  disconnect
  connect alive outcome

/-- `close`. -/
def close : Op :=
  Fallible.modify fun t =>
    if t.closed then t
    else
      { t with
        closed := true, state := .disconnected,
        bridgeRunning := t.bridgeRunning && !t.ownsBridge }

/-- The arguments of the constructor that count here, and how its connect would end. -/
structure Construction where
  /-- A bridge is given. -/
  bridge : Bool
  autoConnect : Bool
  outcome : Outcome

/-- `SSHTransport(...)`. -/
def construct (c : Construction) : Except ErrorClass Unit × Transport :=
  let t : Transport := { ownsBridge := !c.bridge }
  if c.autoConnect then
    Fallible.attempt (connect false c.outcome)
      (fun e => do
        if e.caught [.connectionFailedError] then
          close
        Fallible.raise e) t
  else (.ok (), t)

/-! ## Calls -/

/-- A call between which the state is observed. -/
inductive Call
  | connect (alive : Bool) (outcome : Outcome)
  | disconnect
  | reconnect (alive : Bool) (outcome : Outcome)
  | close

def perform : Call → Op
  | .connect alive outcome => connect alive outcome
  | .disconnect => disconnect
  | .reconnect alive outcome => reconnect alive outcome
  | .close => close

/-- The end of the client's connect in a call, where the call gets to it. -/
def attempt (t : Transport) : Call → Option Outcome
  | .connect alive outcome =>
      if t.closed || (t.state = .connected && alive) then none else some outcome
  | .reconnect _ outcome => if t.closed then none else some outcome
  | .disconnect => none
  | .close => none

/-- How the last connect ended, where neither a disconnect nor a close came after it. -/
inductive Last
  | never
  | succeeded
  | failed

def Last.state : Last → ConnectionState
  | .never => .disconnected
  | .succeeded => .connected
  | .failed => .failed

def Last.ofOutcome : Outcome → Last
  | .ok () => .succeeded
  | .error _ => .failed

/-- A transport, and how its last connect ended. -/
structure Observed where
  transport : Transport
  last : Last

/-- The call ends a connection. -/
def Call.ends : Call → Bool
  | .connect _ _ => false
  | .reconnect _ _ => false
  | .disconnect => true
  | .close => true

/-- What a call makes of the last connect. -/
def nextLast (o : Observed) (call : Call) : Last :=
  match attempt o.transport call with
  | some outcome => Last.ofOutcome outcome
  | none => if call.ends then .never else o.last

def step (call : Call) (o : Observed) : Option Observed :=
  some { transport := (perform call o.transport).2, last := nextLast o call }

/-- The state tells how the last connect ended. -/
def Tracked (o : Observed) : Prop := o.transport.shown = o.last.state

/-- The errors after which `connect` sets the state. -/
def failures : List ErrorClass := [.authenticationError, .hostKeyError, .timeoutError, .osError]

/-- The client's connect, where the call gets to it, does not raise another error. -/
def Handled (o : Observed) (call : Call) : Prop :=
  ∀ e, attempt o.transport call = some (.error e) → e.caught failures = true

/-- What holds of transports as long as their errors are handled. -/
structure Inv (o : Observed) : Prop where
  closed : o.transport.closed = true → o.last = .never
  state : o.transport.closed = false → o.transport.state = o.last.state

theorem Inv.tracked {o : Observed} (h : Inv o) : Tracked o := by
  rw [Tracked, Transport.shown]
  cases hclosed : o.transport.closed with
  | true => rw [if_pos rfl, h.closed hclosed]; rfl
  | false => rw [if_neg Bool.false_ne_true, h.state hclosed]

/-! ## Steps -/

theorem caught_failures_iff (e : ErrorClass) :
    e.caught failures = true ↔
      e.caught [.authenticationError, .hostKeyError] = true ∨
        e.caught [.timeoutError, .osError] = true := by
  cases e <;> decide

theorem translate_state (e : ErrorClass) (t : Transport) :
    (translate e t).2 = if e.caught failures then { t with state := .failed } else t := by
  rw [translate]
  by_cases hown : e.caught [.authenticationError, .hostKeyError] = true
  · rw [if_pos hown, if_pos ((caught_failures_iff e).mpr (Or.inl hown))]
    rfl
  · rw [if_neg hown]
    by_cases hmapped : e.caught [.timeoutError, .osError] = true
    · rw [if_pos hmapped, if_pos ((caught_failures_iff e).mpr (Or.inr hmapped))]
      rfl
    · have hnot : ¬e.caught failures = true := fun h =>
        ((caught_failures_iff e).mp h).elim hown hmapped
      rw [if_neg hmapped, if_neg hnot]
      rfl

/-- The state that the client's connect leaves. -/
def stateAfter : Outcome → ConnectionState
  | .ok () => .connected
  | .error e => if e.caught failures then .failed else .connecting

/-- `connect`, without the monad. -/
theorem connect_eq (alive : Bool) (outcome : Outcome) (t : Transport) :
    connect alive outcome t =
      if t.closed then Fallible.raise .runtimeError t
      else if t.state = .connected && alive then (pure () : Op) t
      else
        match outcome with
        | .ok () => setState .connected { t with state := .connecting }
        | .error e => translate e { t with state := .connecting } := by
  unfold connect
  rw [Fallible.bind_of_ok (Fallible.read_apply t)]
  split
  · rfl
  · split
    · rfl
    · cases outcome <;> rfl

theorem connect_attempt {t : Transport} {alive : Bool} {outcome : Outcome}
    (h : (t.closed || (t.state = .connected && alive)) = false) :
    (connect alive outcome t).2 = { t with state := stateAfter outcome } := by
  obtain ⟨hclosed, hconnected⟩ := Bool.or_eq_false_iff.mp h
  rw [connect_eq, if_neg (by rw [hclosed]; decide), if_neg (by rw [hconnected]; decide)]
  cases outcome with
  | ok u => rfl
  | error e =>
    dsimp only
    rw [translate_state, stateAfter]
    split <;> rfl

/-- **A call in which the client connects.** -/
theorem perform_attempt {t : Transport} {call : Call} {outcome : Outcome}
    (h : attempt t call = some outcome) :
    t.closed = false ∧ (perform call t).2 = { t with state := stateAfter outcome } := by
  cases call with
  | connect alive end' =>
    rw [attempt] at h
    split at h
    · cases h
    · next hopen =>
        rw [Bool.not_eq_true] at hopen
        obtain rfl := Option.some.inj h
        exact ⟨(Bool.or_eq_false_iff.mp hopen).1, connect_attempt hopen⟩
  | reconnect alive end' =>
    rw [attempt] at h
    split at h
    · cases h
    · next hopen =>
        rw [Bool.not_eq_true] at hopen
        obtain rfl := Option.some.inj h
        have hdisconnect : disconnect t = (.ok (), { t with state := .disconnected }) := by
          rw [disconnect, Fallible.modify_apply, if_neg (by rw [hopen]; decide)]
        refine ⟨hopen, ?_⟩
        rw [perform, reconnect, Fallible.bind_of_ok hdisconnect, connect_attempt]
        rw [hopen]
        rfl
  | disconnect => cases h
  | close => cases h

/-- A call that neither connects nor ends a connection does nothing. -/
theorem perform_idle {t : Transport} {call : Call} (h : attempt t call = none)
    (hends : call.ends = false) : (perform call t).2 = t := by
  cases call with
  | connect alive outcome =>
    rw [attempt] at h
    split at h
    · next hskip =>
        rw [perform, connect_eq]
        split
        · rfl
        · next hopen =>
            rw [Bool.or_eq_true, or_iff_right hopen] at hskip
            rw [if_pos hskip]
            rfl
    · cases h
  | reconnect alive outcome =>
    rw [attempt] at h
    split at h
    · next hclosed =>
        have hdisconnect : disconnect t = (.ok (), t) := by
          rw [disconnect, Fallible.modify_apply, if_pos hclosed]
        rw [perform, reconnect, Fallible.bind_of_ok hdisconnect, connect_eq, if_pos hclosed]
        rfl
    · cases h
  | disconnect => cases hends
  | close => cases hends

/-- After a call that ends a connection an open transport is disconnected. -/
theorem perform_ends {t : Transport} {call : Call} (hends : call.ends = true)
    (hopen : (perform call t).2.closed = false) : (perform call t).2.state = .disconnected := by
  cases call with
  | connect alive outcome => cases hends
  | reconnect alive outcome => cases hends
  | disconnect =>
    rw [perform, disconnect, Fallible.modify_apply] at hopen ⊢
    dsimp only at hopen ⊢
    split at hopen
    · next hclosed => rw [hclosed] at hopen; cases hopen
    · next hclosed => rw [if_neg hclosed]
  | close =>
    rw [perform, close, Fallible.modify_apply] at hopen ⊢
    dsimp only at hopen ⊢
    split at hopen
    · next hclosed => rw [hclosed] at hopen; cases hopen
    · next hclosed => rw [if_neg hclosed]

theorem stateAfter_eq (outcome : Outcome) :
    (∀ e, outcome = .error e → e.caught failures = true) →
      stateAfter outcome = (Last.ofOutcome outcome).state := by
  intro h
  cases outcome with
  | ok u => rfl
  | error e => exact if_pos (h e rfl)

/-- **Calls whose errors are handled keep the invariant.** -/
theorem Inv.step {o o' : Observed} {call : Call} (h : Inv o) (hhandled : Handled o call)
    (hstep : step call o = some o') : Inv o' := by
  obtain rfl := Option.some.inj hstep
  cases hattempt : attempt o.transport call with
  | some outcome =>
    obtain ⟨hopen, hperform⟩ := perform_attempt hattempt
    have hstate : stateAfter outcome = (Last.ofOutcome outcome).state :=
      stateAfter_eq outcome fun e he => hhandled e (he ▸ hattempt)
    have hlast : nextLast o call = Last.ofOutcome outcome := by rw [nextLast, hattempt]
    refine ⟨fun hclosed => ?_, fun _ => ?_⟩
    · rw [hperform, hopen] at hclosed
      cases hclosed
    · rw [hperform, hlast]
      exact hstate
  | none =>
    have hlast : nextLast o call = if call.ends then .never else o.last := by
      rw [nextLast, hattempt]
    cases hends : call.ends with
    | true =>
      rw [hends] at hlast
      refine ⟨fun _ => hlast, fun hopen => ?_⟩
      rw [hlast]
      exact perform_ends hends hopen
    | false =>
      rw [hends] at hlast
      rw [perform_idle hattempt hends, hlast]
      exact h

/-- A call whose error is not handled leaves the transport connecting. -/
theorem untracked_of_not_handled {o o' : Observed} {call : Call} (hhandled : ¬Handled o call)
    (hstep : step call o = some o') : ¬Tracked o' := by
  obtain rfl := Option.some.inj hstep
  unfold Handled at hhandled
  simp only [not_forall] at hhandled
  obtain ⟨e, hattempt, hcaught⟩ := hhandled
  obtain ⟨hopen, hperform⟩ := perform_attempt hattempt
  have hstate : stateAfter (.error e) = .connecting := if_neg hcaught
  have hlast : nextLast o call = .failed := by
    rw [nextLast, hattempt]
    rfl
  rw [Tracked, hlast, hperform, Transport.shown]
  dsimp only
  rw [hopen, hstate]
  decide

/-! ## Sessions -/

/-- What a session starts with. -/
def start (c : Construction) : Observed where
  transport := (construct c).2
  last := if c.autoConnect then .succeeded else .never

/-- The property of a constructor call, and of the calls that follow where it returns. -/
structure Lifecycle (c : Construction) (calls : List Call) : Prop where
  /-- An event loop that a failed call created does not run. -/
  released : ∀ e, (construct c).1 = .error e → c.bridge = false →
    (construct c).2.bridgeRunning = false
  /-- After each call the state tells how the last connect ended. -/
  tracked : (construct c).1 = .ok () → Always step Tracked calls (start c)

/-- The client's errors after which `connect` raises a `ConnectionFailedError`. -/
def fails (e : ErrorClass) : Bool :=
  !e.caught [.authenticationError, .hostKeyError] &&
    e.caught [.timeoutError, .osError, .connectionFailedError]

/-- The condition on the errors of a session. -/
structure Covered (c : Construction) (calls : List Call) : Prop where
  construction : c.autoConnect = true → c.bridge = false →
    ∀ e, c.outcome = .error e → fails e = true
  calls : (construct c).1 = .ok () → Meets step Handled calls (start c)

/-- The constructor raises what `connect` raises, and then its own event loop runs on unless
that is a `ConnectionFailedError`. -/
theorem construct_error {c : Construction} (hauto : c.autoConnect = true) {e : ErrorClass}
    (houtcome : c.outcome = .error e) :
    (∃ raised, (construct c).1 = .error raised) ∧
      (construct c).2.bridgeRunning = (c.bridge || !fails e) := by
  obtain ⟨bridge, autoConnect, outcome⟩ := c
  dsimp only at hauto houtcome
  subst hauto houtcome
  cases e <;> cases bridge <;> exact ⟨⟨_, rfl⟩, rfl⟩

theorem construct_ok {c : Construction} (h : c.autoConnect = true → c.outcome = .ok ()) :
    (construct c).1 = .ok () ∧ Inv (start c) := by
  obtain ⟨bridge, autoConnect, outcome⟩ := c
  cases autoConnect with
  | false => exact ⟨rfl, ⟨fun _ => rfl, fun _ => rfl⟩⟩
  | true =>
    obtain rfl : outcome = .ok () := h rfl
    exact ⟨rfl, ⟨fun hclosed => (nomatch hclosed), fun _ => rfl⟩⟩

/-- **When the lifecycle is as it should be.** -/
theorem lifecycle_iff (c : Construction) (calls : List Call) :
    Lifecycle c calls ↔ Covered c calls := by
  have htotal : ∃ t, run step calls (start c) = some t :=
    run_total (fun _ _ => ⟨_, rfl⟩) calls (start c)
  obtain ⟨t, hrun⟩ := htotal
  by_cases hok : c.autoConnect = true → c.outcome = .ok ()
  · obtain ⟨hreturns, hinv⟩ := construct_ok hok
    have hiff : Always step Tracked calls (start c) ↔ Meets step Handled calls (start c) :=
      always_iff_meets (fun _ => Inv.tracked) (fun _ _ _ h hC hstep => h.step hC hstep)
        (fun _ _ _ _ hC hstep => untracked_of_not_handled hC hstep) hinv hrun
    constructor
    · intro h
      refine ⟨fun hauto _ e he => ?_, fun hreturns => hiff.mp (h.tracked hreturns)⟩
      rw [hok hauto] at he
      cases he
    · intro h
      refine ⟨fun e he _ => ?_, fun hreturns => hiff.mpr (h.calls hreturns)⟩
      rw [hreturns] at he
      cases he
  · rw [Classical.not_imp] at hok
    obtain ⟨hauto, hfailed⟩ := hok
    cases houtcome : c.outcome with
    | ok u => exact absurd houtcome hfailed
    | error e =>
      obtain ⟨⟨raised, hraised⟩, hrunning⟩ := construct_error hauto houtcome
      have hnever : (construct c).1 ≠ .ok () := by
        rw [hraised]
        exact nofun
      constructor
      · intro h
        refine ⟨fun _ hbridge e' he' => ?_, fun hreturns => absurd hreturns hnever⟩
        obtain rfl := Except.error.inj (houtcome.symm.trans he')
        have hreleased := h.released raised hraised hbridge
        rw [hrunning, hbridge, Bool.false_or] at hreleased
        rwa [Bool.not_eq_eq_eq_not, Bool.not_false] at hreleased
      · intro h
        refine ⟨fun _ _ hbridge => ?_, fun hreturns => absurd hreturns hnever⟩
        rw [hrunning, hbridge, h.construction hauto hbridge e houtcome]
        rfl

/-- After a refused connect the state is that of a connect under way, and a constructor call
with a wrong password leaves its event loop running. -/
theorem refused_connecting :
    ¬Lifecycle { bridge := false, autoConnect := false, outcome := .ok () }
        [.connect false (.error .connectionError)] ∧
      ¬Lifecycle { bridge := false, autoConnect := true, outcome := .error .authenticationError }
        [] := by
  constructor
  · intro h
    have htracked := ((h.tracked rfl).2 _ rfl).head
    exact absurd htracked (by unfold Tracked; decide)
  · intro h
    exact absurd (h.released .authenticationError rfl rfl) (by decide)

end OpenWrtCopilot.Ports.SshTransport
