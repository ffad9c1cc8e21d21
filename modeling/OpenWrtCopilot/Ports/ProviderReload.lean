import OpenWrtCopilot.Verified.Handover
import OpenWrtCopilot.Verified.Threads

/-!
# Reloads that overlap

Ports `reload_provider_manager` with `load_rag_service` as concurrent calls, each after a
write of the configuration.  A call is suspended only where it awaits, so the new manager
takes the place of the old one in one step; the RAG service is awaited between reading the
old one and putting the new one in its place.

## Main results

* `settled_of_orderly` — the RAG service is bound to it and every other one is closed once,
  if no call puts its RAG service in the place of one it has not read.
* `overlapping_reloads_unsettle` — two calls that overlap.
-/

namespace OpenWrtCopilot.Ports.ProviderReload

open Verified
open Verified.Threads
open Verified.Handover

/-! ## Calls -/

variable {κ : Type}

/-- `app.state` and the configuration file.  Managers and RAG services are numbered in the
order they are made. -/
structure Shared (κ : Type) where
  config : κ
  /-- What each manager was built from. -/
  managers : List κ
  /-- The manager each RAG service is bound to. -/
  rags : List Nat
  manager : Nat
  /-- The manager of the chat service, if there is one. -/
  chat : Option Nat
  rag : Option Nat
  /-- The calls of `aclose`, in order. -/
  closedManagers : List Nat
  closedRags : List Nat

/-- Where a call is. -/
inductive Thread where
  | idle
  /-- The configuration is written. -/
  | written
  /-- `await load_rag_service(manager)`. -/
  | loading (manager oldManager : Nat) (oldRag : Option Nat)
  /-- `await old_rag.aclose()`. -/
  | closingRag (oldManager : Nat) (oldRag : Option Nat)
  /-- `await old_manager.aclose()`. -/
  | closingManager (oldManager : Nat)
  | returned
  /-- An exception, which leaves this manager open. -/
  | raised (left : Option Nat)
  deriving DecidableEq, Repr

inductive Action (κ : Type) where
  | write (config : κ)
  /-- `load_provider_manager` returns a manager, or raises. -/
  | load (succeeds : Bool)
  /-- `load_rag_service` returns a service, or `None`. -/
  | install (created : Bool)
  | closeRag (succeeds : Bool)
  | closeManager (succeeds : Bool)
  deriving DecidableEq, Repr

/-- The parts of `reload_provider_manager` between two places where it awaits, after
`write_provider_config`. -/
def step : Action κ → Shared κ → Thread → Option (Shared κ × Thread)
  | .write config, s, .idle => some ({ s with config := config }, .written)
  | .load false, s, .written => some (s, .raised none)
  | .load true, s, .written =>
      some ({ s with
          managers := s.managers ++ [s.config]
          manager := s.managers.length
          chat := s.chat.map fun _ => s.managers.length },
        .loading s.managers.length s.manager s.rag)
  | .install false, s, .loading _ oldManager oldRag =>
      some ({ s with rag := none }, .closingRag oldManager oldRag)
  | .install true, s, .loading manager oldManager oldRag =>
      some ({ s with rags := s.rags ++ [manager], rag := some s.rags.length },
        .closingRag oldManager oldRag)
  | .closeRag _, s, .closingRag oldManager none => some (s, .closingManager oldManager)
  | .closeRag succeeds, s, .closingRag oldManager (some oldRag) =>
      some ({ s with closedRags := s.closedRags ++ [oldRag] },
        if succeeds then .closingManager oldManager else .raised (some oldManager))
  | .closeManager succeeds, s, .closingManager oldManager =>
      some ({ s with closedManagers := s.closedManagers ++ [oldManager] },
        if succeeds then .returned else .raised none)
  | _, _, _ => none

/-- What a step can be. -/
inductive Moved (s : Shared κ) : Action κ → Thread → Shared κ → Thread → Prop where
  | write (config : κ) : Moved s (.write config) .idle { s with config := config } .written
  | loadRaises : Moved s (.load false) .written s (.raised none)
  | load : Moved s (.load true) .written
      { s with
        managers := s.managers ++ [s.config]
        manager := s.managers.length
        chat := s.chat.map fun _ => s.managers.length }
      (.loading s.managers.length s.manager s.rag)
  | loadNone (manager oldManager : Nat) (oldRag : Option Nat) :
      Moved s (.install false) (.loading manager oldManager oldRag) { s with rag := none }
        (.closingRag oldManager oldRag)
  | install (manager oldManager : Nat) (oldRag : Option Nat) :
      Moved s (.install true) (.loading manager oldManager oldRag)
        { s with rags := s.rags ++ [manager], rag := some s.rags.length }
        (.closingRag oldManager oldRag)
  | noRag (succeeds : Bool) (oldManager : Nat) :
      Moved s (.closeRag succeeds) (.closingRag oldManager none) s (.closingManager oldManager)
  | closeRag (oldManager oldRag : Nat) :
      Moved s (.closeRag true) (.closingRag oldManager (some oldRag))
        { s with closedRags := s.closedRags ++ [oldRag] } (.closingManager oldManager)
  | closeRagRaises (oldManager oldRag : Nat) :
      Moved s (.closeRag false) (.closingRag oldManager (some oldRag))
        { s with closedRags := s.closedRags ++ [oldRag] } (.raised (some oldManager))
  | closeManager (oldManager : Nat) :
      Moved s (.closeManager true) (.closingManager oldManager)
        { s with closedManagers := s.closedManagers ++ [oldManager] } .returned
  | closeManagerRaises (oldManager : Nat) :
      Moved s (.closeManager false) (.closingManager oldManager)
        { s with closedManagers := s.closedManagers ++ [oldManager] } (.raised none)

theorem step_moved {a : Action κ} {s s' : Shared κ} {t t' : Thread}
    (hstep : step a s t = some (s', t')) : Moved s a t s' t' := by
  unfold step at hstep
  split at hstep
  · obtain ⟨rfl, rfl⟩ := Prod.mk.inj (Option.some.inj hstep)
    exact .write _
  · obtain ⟨rfl, rfl⟩ := Prod.mk.inj (Option.some.inj hstep)
    exact .loadRaises
  · obtain ⟨rfl, rfl⟩ := Prod.mk.inj (Option.some.inj hstep)
    exact .load
  · obtain ⟨rfl, rfl⟩ := Prod.mk.inj (Option.some.inj hstep)
    exact .loadNone _ _ _
  · obtain ⟨rfl, rfl⟩ := Prod.mk.inj (Option.some.inj hstep)
    exact .install _ _ _
  · obtain ⟨rfl, rfl⟩ := Prod.mk.inj (Option.some.inj hstep)
    exact .noRag _ _
  · rename_i succeeds oldManager oldRag
    obtain ⟨rfl, rfl⟩ := Prod.mk.inj (Option.some.inj hstep)
    cases succeeds with
    | false => exact .closeRagRaises _ _
    | true => exact .closeRag _ _
  · rename_i succeeds oldManager
    obtain ⟨rfl, rfl⟩ := Prod.mk.inj (Option.some.inj hstep)
    cases succeeds with
    | false => exact .closeManagerRaises _
    | true => exact .closeManager _
  · cases hstep

/-- After the startup. -/
def start (config : κ) (chat rag : Bool) : Shared κ where
  config := config
  managers := [config]
  rags := if rag then [0] else []
  manager := 0
  chat := if chat then some 0 else none
  rag := if rag then some 0 else none
  closedManagers := []
  closedRags := []

/-- Every call that has begun has returned. -/
def Done (threads : List Thread) : Prop := ∀ t ∈ threads, t = .idle ∨ t = .returned

/-- One manager is in use: it is built from the last configuration and not closed, and
every other one has been closed once. -/
structure ManagersSettled (s : Shared κ) : Prop where
  chat : ∀ manager, s.chat = some manager → manager = s.manager
  config : s.managers[s.manager]? = some s.config
  current : s.manager ∉ s.closedManagers
  others : ∀ manager, manager < s.managers.length → manager ≠ s.manager →
    s.closedManagers.count manager = 1

/-- The RAG service works with that manager, and every other one has been closed once. -/
structure RagsSettled (s : Shared κ) : Prop where
  bound : ∀ rag, s.rag = some rag → s.rags[rag]? = some s.manager
  others : ∀ rag, rag < s.rags.length → s.rag ≠ some rag → s.closedRags.count rag = 1

/-- A call that puts its RAG service in place finds there the one it read before, and its
own manager. -/
def Orderly (s : Shared κ) : Thread → Action κ → Prop
  | .loading manager _ oldRag, .install created =>
      s.rag = oldRag ∧ (created = true → s.manager = manager)
  | _, _ => True

/-! ## Managers -/

/-- The managers a call is to close. -/
def managersInHand : Thread → List Nat
  | .loading _ oldManager _ => [oldManager]
  | .closingRag oldManager _ => [oldManager]
  | .closingManager oldManager => [oldManager]
  | .raised left => left.toList
  | _ => []

/-- The call has written a configuration that no manager was built from since. -/
def Unread (t : Thread) : Prop := t = .written ∨ ∃ left, t = .raised left

structure ManagersInv (c : System (Shared κ) Thread) : Prop where
  accounted : Accounted c.shared.managers.length c.shared.closedManagers
    (held managersInHand c.threads) (some c.shared.manager)
  chat : ∀ manager, c.shared.chat = some manager → manager = c.shared.manager
  config : c.shared.managers[c.shared.manager]? = some c.shared.config ∨
    ∃ t ∈ c.threads, Unread t

/-- A thread that did not move is still there. -/
theorem mem_set_of_ne {T : Type} {threads : List T} {i : Nat} {t t' u : T}
    (ht : threads[i]? = some t) (hu : u ∈ threads) (hne : u ≠ t) : u ∈ threads.set i t' := by
  obtain ⟨j, hlength, rfl⟩ := List.getElem_of_mem hu
  have hij : i ≠ j := by
    rintro rfl
    rw [List.getElem?_eq_getElem hlength] at ht
    exact hne (Option.some.inj ht)
  rw [List.mem_iff_getElem?]
  exact ⟨j, by rw [List.getElem?_set_ne hij, List.getElem?_eq_getElem hlength]⟩

theorem managersInv_start (config : κ) (chat rag : Bool) (n : Nat) :
    ManagersInv (begin (start config chat rag) .idle n) := by
  refine ⟨?_, ?_, Or.inl rfl⟩
  · rw [held_begin _ rfl]
    exact accounted_one
  · intro manager hchat
    cases chat with
    | false => cases hchat
    | true => exact (Option.some.inj hchat).symm

/-- A step moves the managers from hand to hand, whatever the other calls are to close. -/
theorem accounted_managers_step {a : Action κ} {s s' : Shared κ} {t t' : Thread}
    {rest : List Nat} (hstep : step a s t = some (s', t'))
    (h : Accounted s.managers.length s.closedManagers (managersInHand t ++ rest)
      (some s.manager)) :
    Accounted s'.managers.length s'.closedManagers (managersInHand t' ++ rest)
      (some s'.manager) := by
  cases step_moved hstep with
  | write config => exact h
  | loadRaises => exact h
  | load =>
    rw [List.length_append]
    exact h.replace
  | loadNone => exact h
  | install => exact h
  | noRag => exact h
  | closeRag => exact h
  | closeRagRaises => exact h
  | closeManager => exact Accounted.close h
  | closeManagerRaises => exact Accounted.close h

theorem ManagersInv.move {event : Nat × Action κ} {c c' : System (Shared κ) Thread}
    (h : ManagersInv c) (hmove : move step event c = some c') : ManagersInv c' := by
  obtain ⟨i, a⟩ := event
  obtain ⟨t, s', t', hthread, hstep, rfl⟩ := move_eq_some_iff.mp hmove
  refine ⟨?_, ?_, ?_⟩
  · have hbefore := h.accounted.perm (held_perm managersInHand hthread).symm
    exact (accounted_managers_step hstep hbefore).perm (held_set_perm managersInHand hthread t')
  · have hchat := h.chat
    cases step_moved hstep with
    | load =>
      intro manager hmanager
      obtain ⟨_, _, rfl⟩ := Option.map_eq_some_iff.mp hmanager
      rfl
    | _ => exact hchat
  · obtain ⟨hlength, -⟩ := List.getElem?_eq_some_iff.mp hthread
    -- who has written and not loaded, or raised, is still there
    have hkept : ¬ Unread t → (∃ u ∈ c.threads, Unread u) →
        ∃ u ∈ c.threads.set i t', Unread u := by
      rintro ht ⟨u, hu, hunread⟩
      refine ⟨u, mem_set_of_ne hthread hu ?_, hunread⟩
      rintro rfl
      exact ht hunread
    have hconfig := h.config
    cases step_moved hstep with
    | write config => exact Or.inr ⟨.written, List.mem_set hlength _, Or.inl rfl⟩
    | loadRaises => exact Or.inr ⟨.raised none, List.mem_set hlength _, Or.inr ⟨_, rfl⟩⟩
    | load => exact Or.inl (List.getElem?_concat_length)
    | _ => exact hconfig.imp_right (hkept (by simp [Unread]))

/-- No call that is done has anything in hand. -/
theorem held_of_done {hand : Thread → List Nat} (hidle : hand .idle = [])
    (hreturned : hand .returned = []) {threads : List Thread} (hdone : Done threads) :
    held hand threads = [] := by
  refine List.flatMap_eq_nil_iff.mpr fun t ht => ?_
  obtain rfl | rfl := hdone t ht
  · exact hidle
  · exact hreturned

theorem ManagersInv.settled {c : System (Shared κ) Thread} (h : ManagersInv c)
    (hdone : Done c.threads) : ManagersSettled c.shared := by
  have haccounted := h.accounted
  rw [held_of_done rfl rfl hdone] at haccounted
  refine ⟨h.chat, ?_, haccounted.notMem_closed rfl, ?_⟩
  · refine h.config.resolve_right ?_
    rintro ⟨t, ht, hunread⟩
    obtain rfl | rfl := hdone t ht <;> simp [Unread] at hunread
  · intro manager hmanager hne
    exact haccounted.count_closed hmanager fun h => hne (Option.some.inj h).symm

/-! ## RAG services -/

/-- The RAG service a call is to close, once its own one is in place. -/
def ragsInHand : Thread → List Nat
  | .closingRag _ oldRag => oldRag.toList
  | _ => []

structure RagsInv (c : System (Shared κ) Thread) : Prop where
  accounted : Accounted c.shared.rags.length c.shared.closedRags (held ragsInHand c.threads)
    c.shared.rag
  /-- The RAG service works with the manager in place, or the call that put the manager
  there is still loading one. -/
  bound : ∀ rag, c.shared.rag = some rag → c.shared.rags[rag]? = some c.shared.manager ∨
    ∃ oldManager oldRag, .loading c.shared.manager oldManager oldRag ∈ c.threads

theorem ragsInv_start (config : κ) (chat rag : Bool) (n : Nat) :
    RagsInv (begin (start config chat rag) .idle n) := by
  constructor
  · rw [held_begin _ rfl]
    cases rag with
    | false => exact accounted_none
    | true => exact accounted_one
  · intro service hservice
    cases rag with
    | false => cases hservice
    | true =>
      obtain rfl := Option.some.inj hservice
      exact Or.inl rfl

theorem accounted_rags_step {a : Action κ} {s s' : Shared κ} {t t' : Thread} {rest : List Nat}
    (hstep : step a s t = some (s', t')) (horderly : Orderly s t a)
    (h : Accounted s.rags.length s.closedRags (ragsInHand t ++ rest) s.rag) :
    Accounted s'.rags.length s'.closedRags (ragsInHand t' ++ rest) s'.rag := by
  cases step_moved hstep with
  | loadNone manager oldManager oldRag =>
    obtain ⟨rfl, -⟩ := horderly
    exact h.drop
  | install manager oldManager oldRag =>
    obtain ⟨rfl, -⟩ := horderly
    rw [List.length_append]
    exact h.replace
  | closeRag oldManager oldRag => exact Accounted.close h
  | closeRagRaises oldManager oldRag => exact Accounted.close h
  | _ => exact h

theorem RagsInv.move {event : Nat × Action κ} {c c' : System (Shared κ) Thread}
    (h : RagsInv c) (horderly : Under Orderly c event) (hmove : move step event c = some c') :
    RagsInv c' := by
  obtain ⟨i, a⟩ := event
  obtain ⟨t, s', t', hthread, hstep, rfl⟩ := move_eq_some_iff.mp hmove
  have horderly : Orderly c.shared t a := horderly t hthread
  constructor
  · have hbefore := h.accounted.perm (held_perm ragsInHand hthread).symm
    exact (accounted_rags_step hstep horderly hbefore).perm
      (held_set_perm ragsInHand hthread t')
  · obtain ⟨hlength, -⟩ := List.getElem?_eq_some_iff.mp hthread
    -- a call that is still loading does not move
    have hkept : (∀ manager oldManager oldRag, t ≠ .loading manager oldManager oldRag) →
        (∃ oldManager oldRag, .loading c.shared.manager oldManager oldRag ∈ c.threads) →
        ∃ oldManager oldRag,
          .loading c.shared.manager oldManager oldRag ∈ c.threads.set i t' := by
      rintro hne ⟨oldManager, oldRag, hmem⟩
      exact ⟨oldManager, oldRag, mem_set_of_ne hthread hmem (hne _ _ _).symm⟩
    have hbound := h.bound
    cases step_moved hstep with
    | load =>
      intro rag _
      exact Or.inr ⟨_, _, List.mem_set hlength _⟩
    | loadNone manager oldManager oldRag => nofun
    | install manager oldManager oldRag =>
      intro rag hrag
      obtain rfl := Option.some.inj hrag
      obtain ⟨-, hmanager⟩ := horderly
      rw [← hmanager rfl]
      exact Or.inl List.getElem?_concat_length
    | _ =>
      intro rag hrag
      exact (hbound rag hrag).imp_right (hkept nofun)

theorem RagsInv.settled {c : System (Shared κ) Thread} (h : RagsInv c)
    (hdone : Done c.threads) : RagsSettled c.shared := by
  have haccounted := h.accounted
  rw [held_of_done rfl rfl hdone] at haccounted
  constructor
  · intro rag hrag
    refine (h.bound rag hrag).resolve_right ?_
    rintro ⟨oldManager, oldRag, hmem⟩
    obtain hidle | hreturned := hdone _ hmem
    · cases hidle
    · cases hreturned
  · intro rag hrag hne
    exact haccounted.count_closed hrag hne

/-- **One manager and one RAG service on it are left, and every other one is closed once, if
no call puts its RAG service in the place of one it has not read.** -/
theorem settled_of_orderly (config : κ) (chat rag : Bool) (n : Nat)
    {events : List (Nat × Action κ)} {c : System (Shared κ) Thread}
    (hmeets : Runs.Meets (move step) (Under Orderly) events
      (begin (start config chat rag) .idle n))
    (hrun : Runs.run (move step) events (begin (start config chat rag) .idle n) = some c)
    (hdone : Done c.threads) : ManagersSettled c.shared ∧ RagsSettled c.shared := by
  have hmanagers : ManagersInv c := Runs.run_keeps (fun _ _ _ h hmove => h.move hmove)
    (managersInv_start config chat rag n) hrun
  have hrags : RagsInv c := Runs.run_invariant (fun _ _ _ h hmeets hmove => h.move hmeets hmove)
    (ragsInv_start config chat rag n) hmeets hrun
  exact ⟨hmanagers.settled hdone, hrags.settled hdone⟩

/-! ## Two calls -/

instance (s : Shared κ) (t : Thread) (a : Action κ) : Decidable (Orderly s t a) := by
  unfold Orderly
  split <;> infer_instance

instance (threads : List Thread) : Decidable (Done threads) :=
  inferInstanceAs (Decidable (∀ t ∈ threads, t = .idle ∨ t = .returned))

/-- What a call does up to the place where it awaits its RAG service. -/
def began (i config : Nat) : List (Nat × Action Nat) := [(i, .write config), (i, .load true)]

/-- What it does then. -/
def ended (i : Nat) : List (Nat × Action Nat) :=
  [(i, .install true), (i, .closeRag true), (i, .closeManager true)]

/-- One call after the other. -/
theorem consecutive_reloads_settle : ∃ c,
    Runs.run (move step) (began 0 1 ++ ended 0 ++ began 1 2 ++ ended 1)
      (begin (start 0 true true) .idle 2) = some c ∧
    ManagersSettled c.shared ∧ RagsSettled c.shared := by
  obtain ⟨c, hrun, hdone⟩ : ∃ c,
      Runs.run (move step) (began 0 1 ++ ended 0 ++ began 1 2 ++ ended 1)
        (begin (start 0 true true) .idle 2) = some c ∧ Done c.threads := ⟨_, rfl, by decide⟩
  exact ⟨c, hrun, settled_of_orderly 0 true true 2 (by decide) hrun hdone⟩

/-- The second call begins while the first one awaits its RAG service, and ends before it:
the RAG service is left on a closed manager. -/
theorem overlapping_reloads_unsettle : ∃ c,
    Runs.run (move step) (began 0 1 ++ began 1 2 ++ ended 1 ++ ended 0)
      (begin (start 0 true true) .idle 2) = some c ∧
    Done c.threads ∧ c.shared.rag = some 2 ∧ c.shared.rags[2]? = some 1 ∧
    1 ∈ c.shared.closedManagers ∧ c.shared.closedRags = [0, 0] ∧ ¬ RagsSettled c.shared := by
  refine ⟨_, rfl, by decide, rfl, rfl, by decide, rfl, ?_⟩
  intro hsettled
  cases hsettled.bound 2 rfl

end OpenWrtCopilot.Ports.ProviderReload
