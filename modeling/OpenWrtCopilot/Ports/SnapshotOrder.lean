import Mathlib.Data.List.Forall2
import OpenWrtCopilot.Ports.SnapshotService

/-!
# The order of the frames

What the subscribers of the snapshot service take out of their queues, over every
interleaving of the poll tasks with the calls that attach and detach a router.  The numbers
of the frames a subscriber has received are kept beside the service, newest first.

A frame is numbered when it is built, in the worker thread, and published later on the event
loop; the frame of a detached router is numbered and published in between.

## Main results

* `always_ordered_iff` — the runs in which a queue that is not empty holds the newest frame
  whenever no frame is about to be published.
* `abandoned_frame_newer` — a collection that ends after the router was detached.
-/

namespace OpenWrtCopilot.Ports.SnapshotOrder

open Verified
open Verified.PyText
open Ports.SnapshotService

variable {D : Type}

/-! ## What is received -/

/-- The service, with the numbers each subscriber has received, newest first. -/
structure Watched (D : Type) where
  service : Service D
  received : List (List Nat) := []

/-- What `queue.get` takes out of a queue. -/
def taken (queue : Option (Option (DashboardUpdate D))) : List Nat :=
  queue.join.toList.map (·.sequence)

/-- What the subscribers have received after a step. -/
def receivedAfter (s : Service D) (received : List (List Nat)) : Action D → List (List Nat)
  | .subscribe => received ++ [[]]
  | .receive i => received.modify i (taken s.subscribers[i]? ++ ·)
  | .unsubscribe i => received.eraseIdx i
  | _ => received

/-- One step of the service and its subscribers. -/
def watch (a : Action D) (w : Watched D) : Option (Watched D) :=
  (step a w.service).map fun s =>
    { service := s, received := receivedAfter w.service w.received a }

/-! ## The order -/

/-- A task that was not cancelled is about to publish the frame. -/
def Awaits (s : Service D) (update : DashboardUpdate D) : Prop :=
  ∃ task ∈ s.tasks, task.cancelled = false ∧ task.stage = .finished update

/-- Every subscriber has received increasing numbers. -/
def Increasing (w : Watched D) : Prop := ∀ numbers ∈ w.received, numbers.Pairwise (· > ·)

/-- Unless a frame is about to be published, a queue that is not empty holds the newest one. -/
def Newest (s : Service D) : Prop :=
  (∀ update, ¬Awaits s update) → ∀ update, some update ∈ s.subscribers →
    update.sequence = s.sequence

/-- Increasing numbers are received, and a queue that is not empty holds the newest frame. -/
def Ordered (w : Watched D) : Prop := Increasing w ∧ Newest w.service

/-- One subscriber: what waits is newer than what was received, and older than what is about
to be published. -/
structure InOrder (s : Service D) (queue : Option (DashboardUpdate D)) (numbers : List Nat) :
    Prop where
  decreasing : (taken (some queue) ++ numbers).Pairwise (· > ·)
  bound : ∀ n ∈ taken (some queue) ++ numbers, n ≤ s.sequence
  awaited : ∀ n ∈ taken (some queue) ++ numbers, ∀ update, Awaits s update → n < update.sequence

/-- What holds in every state. -/
structure Lined (w : Watched D) : Prop where
  /-- Only the current task was not cancelled. -/
  current : ∀ i task, w.service.tasks[i]? = some task → task.cancelled = false →
    w.service.task = some i
  numbered : ∀ update, Awaits w.service update → update.sequence ≤ w.service.sequence
  inOrder : List.Forall₂ (InOrder w.service) w.service.subscribers w.received

/-- A collection that ends is that of the current task, unless a frame is about to be published
or no queue holds one; and a frame that is published to a subscriber is the newest one. -/
def Timely (s : Service D) : Action D → Prop
  | .poll i (.collect _) | .poll i .report =>
      (∀ task, s.tasks[i]? = some task → task.cancelled = false) ∨ (∃ update, Awaits s update) ∨
        ∀ queue ∈ s.subscribers, queue = none
  | .poll _ .resume =>
      s.subscribers = [] ∨ ∀ update, Awaits s update → update.sequence = s.sequence
  | _ => True

/-! ## Lists of subscribers -/

section Lists

variable {α β : Type} {R : α → β → Prop} {xs : List α} {ys : List β}

theorem forall₂_eraseIdx (h : List.Forall₂ R xs ys) (i : Nat) :
    List.Forall₂ R (xs.eraseIdx i) (ys.eraseIdx i) := by
  induction h generalizing i with
  | nil => exact .nil
  | cons hxy hrest ih =>
    cases i with
    | zero => exact hrest
    | succ i => exact .cons hxy (ih i)

theorem forall₂_set_modify (h : List.Forall₂ R xs ys) {i : Nat} {a : α} {f : β → β}
    (hf : ∀ x y, xs[i]? = some x → R x y → R a (f y)) :
    List.Forall₂ R (xs.set i a) (ys.modify i f) := by
  induction h generalizing i with
  | nil => cases i <;> exact .nil
  | cons hxy hrest ih =>
    cases i with
    | zero => exact .cons (hf _ _ rfl hxy) hrest
    | succ i => exact .cons hxy (ih hf)

theorem forall₂_append_singleton (h : List.Forall₂ R xs ys) {x : α} {y : β} (hxy : R x y) :
    List.Forall₂ R (xs ++ [x]) (ys ++ [y]) :=
  List.rel_append h (.cons hxy .nil)

end Lists

/-! ## Steps -/

/-- Only the current task was not cancelled. -/
def Single (s : Service D) : Prop :=
  ∀ i task, s.tasks[i]? = some task → task.cancelled = false → s.task = some i

/-- What a step does that is not a subscriber's. -/
inductive Effect (s : Service D) (a : Action D) (s' : Service D) : Prop
  | quiet (hqueues : s'.subscribers = s.subscribers) (hsequence : s'.sequence = s.sequence)
      (hawaits : ∀ update, Awaits s' update ↔ Awaits s update) (htimely : Timely s a)
  /-- The current task has a frame to publish. -/
  | built (update : DashboardUpdate D) (hqueues : s'.subscribers = s.subscribers)
      (hsequence : s'.sequence = s.sequence + 1) (hupdate : update.sequence = s'.sequence)
      (hbefore : ∀ other, ¬Awaits s other) (hawaits : ∀ other, Awaits s' other ↔ other = update)
      (htimely : Timely s a)
  /-- A cancelled task has built a frame that nobody publishes. -/
  | abandoned (hqueues : s'.subscribers = s.subscribers)
      (hsequence : s'.sequence = s.sequence + 1)
      (hawaits : ∀ update, Awaits s' update ↔ Awaits s update)
      (htimely : Timely s a ↔
        (∃ update, Awaits s update) ∨ ∀ queue ∈ s.subscribers, queue = none)
  | published (update : DashboardUpdate D)
      (hqueues : s'.subscribers = s.subscribers.map fun _ => some update)
      (hsequence : s'.sequence = s.sequence) (hbefore : Awaits s update)
      (hnone : ∀ other, ¬Awaits s' other)
      (htimely : Timely s a ↔ s.subscribers = [] ∨ update.sequence = s.sequence)
  /-- A frame is built and published at once. -/
  | announced (update : DashboardUpdate D)
      (hqueues : s'.subscribers = s.subscribers.map fun _ => some update)
      (hsequence : s'.sequence = s.sequence + 1) (hupdate : update.sequence = s'.sequence)
      (hnone : ∀ other, ¬Awaits s' other) (htimely : Timely s a)

/-- The current task awaits what it has finished. -/
theorem awaits_iff {s : Service D} (hsingle : Single s) {i : Nat} {task : PollTask D}
    (htask : s.tasks[i]? = some task) (hcancelled : task.cancelled = false)
    (update : DashboardUpdate D) : Awaits s update ↔ task.stage = .finished update := by
  constructor
  · intro ⟨other, hother, hlive, hstage⟩
    obtain ⟨j, hj⟩ := List.mem_iff_getElem?.mp hother
    have hij := (hsingle i task htask hcancelled).symm.trans (hsingle j other hj hlive)
    obtain rfl := Option.some.inj hij
    obtain rfl := Option.some.inj (htask.symm.trans hj)
    exact hstage
  · intro hstage
    exact ⟨task, List.mem_of_getElem? htask, hcancelled, hstage⟩

theorem single_set {s s' : Service D} (hsingle : Single s) {i : Nat} {task task' : PollTask D}
    (htask : s.tasks[i]? = some task) (htasks : s'.tasks = s.tasks.set i task')
    (hcurrent : s'.task = s.task) (hsame : task'.cancelled = task.cancelled) : Single s' := by
  intro j other hj hlive
  rw [htasks, List.getElem?_set] at hj
  rw [hcurrent]
  by_cases hij : i = j
  · obtain rfl := hij
    rw [if_pos rfl] at hj
    split at hj
    · obtain rfl := Option.some.inj hj
      exact hsingle i task htask (hsame.symm.trans hlive)
    · cases hj
  · rw [if_neg hij] at hj
    exact hsingle j other hj hlive

/-- A cancelled task awaits nothing, whatever its stage. -/
theorem awaits_set_cancelled {s s' : Service D} {i : Nat} {task task' : PollTask D}
    (htask : s.tasks[i]? = some task) (hcancelled : task.cancelled = true)
    (hcancelled' : task'.cancelled = true) (htasks : s'.tasks = s.tasks.set i task')
    (update : DashboardUpdate D) : Awaits s' update ↔ Awaits s update := by
  have hlength : i < s.tasks.length := (List.getElem?_eq_some_iff.mp htask).1
  constructor
  · intro ⟨other, hother, hlive, hstage⟩
    rw [htasks] at hother
    obtain hmem | rfl := List.mem_or_eq_of_mem_set hother
    · exact ⟨other, hmem, hlive, hstage⟩
    · rw [hcancelled'] at hlive
      cases hlive
  · intro ⟨other, hother, hlive, hstage⟩
    obtain ⟨j, hj⟩ := List.mem_iff_getElem?.mp hother
    refine ⟨other, List.mem_of_getElem? (i := j) ?_, hlive, hstage⟩
    rw [htasks, List.getElem?_set_ne]
    · exact hj
    · rintro rfl
      obtain rfl := Option.some.inj (htask.symm.trans hj)
      rw [hcancelled] at hlive
      cases hlive

/-- The current task awaits what its new stage says. -/
theorem awaits_set_live {s s' : Service D} (hsingle : Single s') {i : Nat}
    {task task' : PollTask D} (htask : s.tasks[i]? = some task)
    (hcancelled : task'.cancelled = false) (htasks : s'.tasks = s.tasks.set i task')
    (update : DashboardUpdate D) : Awaits s' update ↔ task'.stage = .finished update := by
  refine awaits_iff hsingle (i := i) ?_ hcancelled update
  rw [htasks]
  exact List.getElem?_set_self (List.getElem?_eq_some_iff.mp htask).1

theorem poll_effect {s s' : Service D} (hsingle : Single s) {i : Nat} {task : PollTask D}
    (htask : s.tasks[i]? = some task) {event : PollEvent D}
    (hstep : s.poll i task event = some s') : Single s' ∧ Effect s (.poll i event) s' := by
  obtain ⟨stage, cancelled⟩ := task
  have hbefore := fun hlive update => awaits_iff hsingle htask hlive update
  -- an event of a worker, which goes on when its task was cancelled
  have hquiet : ∀ stage', s'.tasks = s.tasks.set i ⟨stage', cancelled⟩ → s'.task = s.task →
      s'.subscribers = s.subscribers → s'.sequence = s.sequence →
      (∀ update, stage ≠ .finished update) → (∀ update, stage' ≠ .finished update) →
      Timely s (.poll i event) → Single s' ∧ Effect s (.poll i event) s' := by
    intro stage' htasks hcurrent hqueues hsequence hstage hstage' htimely
    have hsingle' := single_set hsingle htask htasks hcurrent rfl
    refine ⟨hsingle', .quiet hqueues hsequence (fun update => ?_) htimely⟩
    cases cancelled with
    | true => exact awaits_set_cancelled htask rfl rfl htasks update
    | false =>
      rw [awaits_set_live hsingle' htask rfl htasks, hbefore rfl]
      exact iff_of_false (hstage' update) (hstage update)
  have hframe : ∀ update : DashboardUpdate D, s'.tasks = s.tasks.set i ⟨.finished update, cancelled⟩ →
      s'.task = s.task → s'.subscribers = s.subscribers → s'.sequence = s.sequence + 1 →
      update.sequence = s.sequence + 1 → (∀ update, stage ≠ .finished update) →
      (Timely s (.poll i event) ↔ (∀ task, s.tasks[i]? = some task → task.cancelled = false) ∨
        (∃ update, Awaits s update) ∨ ∀ queue ∈ s.subscribers, queue = none) →
      Single s' ∧ Effect s (.poll i event) s' := by
    intro update htasks hcurrent hqueues hsequence hupdate hstage htimely
    have hsingle' := single_set hsingle htask htasks hcurrent rfl
    refine ⟨hsingle', ?_⟩
    cases cancelled with
    | true =>
      refine .abandoned hqueues hsequence
        (awaits_set_cancelled htask rfl rfl htasks) (htimely.trans ?_)
      refine or_iff_right fun hlive => ?_
      cases hlive _ htask
    | false =>
      refine .built update hqueues hsequence (hupdate.trans hsequence.symm) ?_ ?_ ?_
      · exact fun other hother => hstage other ((hbefore rfl other).mp hother)
      · intro other
        rw [awaits_set_live hsingle' htask rfl htasks, Stage.finished.injEq]
        exact eq_comm
      · refine htimely.mpr (Or.inl fun found hfound => ?_)
        obtain rfl := Option.some.inj (htask.symm.trans hfound)
        rfl
  cases event with
  | begin =>
    cases stage with
    | submitted =>
      obtain rfl := Option.some.inj hstep
      exact hquiet _ rfl rfl rfl rfl nofun nofun trivial
    | _ => cases hstep
  | collect data =>
    cases stage with
    | collecting target deviceId =>
      cases target with
      | none => cases hstep
      | some target =>
        obtain rfl := Option.some.inj hstep
        exact hframe _ rfl rfl rfl rfl rfl nofun Iff.rfl
    | _ => cases hstep
  | report =>
    cases stage with
    | collecting target deviceId =>
      cases target with
      | none =>
        obtain rfl := Option.some.inj hstep
        exact hframe _ rfl rfl rfl rfl rfl nofun Iff.rfl
      | some target => cases hstep
    | _ => cases hstep
  | raise error =>
    cases stage with
    | collecting target deviceId =>
      cases target with
      | none => cases hstep
      | some target =>
        obtain rfl := Option.some.inj hstep
        exact hquiet _ rfl rfl rfl rfl nofun nofun trivial
    | _ => cases hstep
  | resume =>
    cases cancelled with
    | true => cases hstep
    | false =>
      cases stage with
      | finished update =>
        obtain rfl := Option.some.inj hstep
        have hsingle' : Single ((s.publish update).setTask i ⟨.sleeping, false⟩) :=
          single_set hsingle htask rfl rfl rfl
        refine ⟨hsingle', .published update rfl rfl ((hbefore rfl update).mpr rfl) ?_ ?_⟩
        · intro other hother
          cases (awaits_set_live hsingle' htask rfl rfl other).mp hother
        · refine or_congr_right ⟨fun h => h update ((hbefore rfl update).mpr rfl), ?_⟩
          intro hupdate other hother
          cases (hbefore rfl other).mp hother
          exact hupdate
      | raised error =>
        obtain rfl := Option.some.inj hstep
        let update := s.frame false .none .none (some error) .none
        have hsingle' :
            Single (((s.keep update).publish update).setTask i ⟨.sleeping, false⟩) :=
          single_set hsingle htask rfl rfl rfl
        refine ⟨hsingle', .announced update rfl rfl rfl ?_ ?_⟩
        · intro other hother
          cases (awaits_set_live (s := s) hsingle' htask rfl rfl other).mp hother
        · refine Or.inr fun other hother => ?_
          cases (hbefore rfl other).mp hother
      | _ => cases hstep
  | wake =>
    cases cancelled with
    | true => cases hstep
    | false =>
      cases stage with
      | sleeping =>
        obtain rfl := Option.some.inj hstep
        exact hquiet _ rfl rfl rfl rfl nofun nofun trivial
      | _ => cases hstep

/-- A detached service has cancelled every task. -/
theorem clear_effect {s : Service D} (hsingle : Single s) (reason : Text) :
    Single (s.clearConnection reason) ∧
      Effect s (.clear reason) (s.clearConnection reason) := by
  have hcancelled : ∀ task ∈ (s.clearConnection reason).tasks, task.cancelled = true := by
    intro task htask
    obtain ⟨j, hj⟩ := List.mem_iff_getElem?.mp htask
    cases hcurrent : s.task with
    | none =>
      rw [Service.clearConnection, hcurrent] at hj
      by_contra hlive
      have hsome := hsingle j task hj (Bool.eq_false_iff.mpr hlive)
      rw [hcurrent] at hsome
      cases hsome
    | some i =>
      rw [Service.clearConnection, hcurrent] at hj
      have htasks : (s.tasks.modify i fun task => { task with cancelled := true })[j]? =
          some task := hj
      rw [List.getElem?_modify] at htasks
      obtain ⟨before, hbefore, rfl⟩ := Option.map_eq_some_iff.mp htasks
      by_cases hij : i = j
      · rw [if_pos hij]
      · rw [if_neg hij]
        by_contra hlive
        have hsome := hsingle j before hbefore (Bool.eq_false_iff.mpr hlive)
        exact hij (Option.some.inj (hcurrent.symm.trans hsome))
  have hnone : ∀ other, ¬Awaits (s.clearConnection reason) other := by
    rintro other ⟨task, htask, hlive, _⟩
    rw [hcancelled task htask] at hlive
    cases hlive
  refine ⟨?_, ?_⟩
  · intro j task hj hlive
    rw [hcancelled task (List.mem_of_getElem? hj)] at hlive
    cases hlive
  · let update : DashboardUpdate D := {
      sequence := s.sequence + 1
      source := .none
      deviceId := s.deviceId
      connected := false
      error := some reason }
    refine .announced update ?_ ?_ ?_ hnone trivial
    · rw [Service.clearConnection]
      split <;> rfl
    · rw [Service.clearConnection]
      split <;> rfl
    · rw [Service.clearConnection]
      split <;> rfl

theorem start_effect {s : Service D} (hsingle : Single s) :
    Single s.start ∧ Effect s .start s.start := by
  have hsame : Single s ∧ Effect s .start s :=
    ⟨hsingle, .quiet rfl rfl (fun _ => Iff.rfl) trivial⟩
  rw [Service.start]
  split
  · exact hsame
  · cases hcurrent : s.task with
    | some i => exact hsame
    | none =>
      have hold : ∀ task ∈ s.tasks, task.cancelled ≠ false := by
        intro task htask hlive
        obtain ⟨j, hj⟩ := List.mem_iff_getElem?.mp htask
        have hsome := hsingle j task hj hlive
        rw [hcurrent] at hsome
        cases hsome
      refine ⟨?_, .quiet rfl rfl (fun update => ?_) trivial⟩
      · intro j task hj hlive
        dsimp only at hj
        rw [List.getElem?_append] at hj
        split at hj
        · exact absurd hlive (hold task (List.mem_of_getElem? hj))
        · next hlength =>
            obtain ⟨hone, -⟩ := List.getElem?_eq_some_iff.mp hj
            rw [List.length_singleton] at hone
            exact congrArg some (by omega)
      · constructor
        · rintro ⟨task, htask, hlive, hstage⟩
          obtain hmem | hnew := List.mem_append.mp htask
          · exact absurd hlive (hold task hmem)
          · obtain rfl := List.mem_singleton.mp hnew
            cases hstage
        · rintro ⟨task, htask, hlive, _⟩
          exact absurd hlive (hold task htask)

/-! ## The invariant -/

theorem InOrder.congr {s s' : Service D} {queue : Option (DashboardUpdate D)} {numbers : List Nat}
    (h : InOrder s queue numbers) (hsequence : s.sequence ≤ s'.sequence)
    (hawaits : ∀ update, Awaits s' update → Awaits s update ∨ s.sequence < update.sequence) :
    InOrder s' queue numbers := by
  refine ⟨h.decreasing, fun n hn => (h.bound n hn).trans hsequence, ?_⟩
  intro n hn update hupdate
  obtain hbefore | hnew := hawaits update hupdate
  · exact h.awaited n hn update hbefore
  · exact (h.bound n hn).trans_lt hnew

/-- A frame with a number above all others is published. -/
theorem InOrder.publish {s s' : Service D} {queue : Option (DashboardUpdate D)}
    {numbers : List Nat} (h : InOrder s queue numbers) {update : DashboardUpdate D}
    (hnew : ∀ n ∈ numbers, n < update.sequence) (hsequence : s.sequence ≤ s'.sequence)
    (hbound : update.sequence ≤ s'.sequence) (hawaits : ∀ other, ¬Awaits s' other) :
    InOrder s' (some update) numbers := by
  have hdecreasing := (List.pairwise_append.mp h.decreasing).2.1
  refine ⟨List.pairwise_cons.mpr ⟨hnew, hdecreasing⟩, ?_, fun n _ other hother => ?_⟩
  · intro n hn
    obtain rfl | hn := List.mem_cons.mp hn
    · exact hbound
    · exact (h.bound n (List.mem_append_right _ hn)).trans hsequence
  · exact absurd hother (hawaits other)

/-- A frame that waits in a queue. -/
theorem Lined.waiting {w : Watched D} (h : Lined w) {update : DashboardUpdate D}
    (hupdate : some update ∈ w.service.subscribers) : update.sequence ≤ w.service.sequence := by
  have hall := (List.forall₂_and_left
    (p := fun queue => ∀ n ∈ taken (some queue), n ≤ w.service.sequence)
    (R := fun _ _ => True) w.service.subscribers w.received).mp
    (h.inOrder.imp fun queue numbers horder =>
      ⟨fun n hn => horder.bound n (List.mem_append_left _ hn), trivial⟩)
  exact hall.1 _ hupdate _ (List.mem_singleton_self _)

theorem Lined.increasing {w : Watched D} (h : Lined w) : Increasing w := by
  have hall := (List.forall₂_and_left (p := fun numbers : List Nat => numbers.Pairwise (· > ·))
    (R := fun _ _ => True) w.received w.service.subscribers).mp
    (h.inOrder.flip.imp fun numbers queue horder =>
      ⟨(List.pairwise_append.mp (InOrder.decreasing horder)).2.1, trivial⟩)
  exact hall.1

theorem lined_of_effect {w : Watched D} {s' : Service D} {a : Action D} (h : Lined w)
    (hsingle : Single s') (heffect : Effect w.service a s') : Lined ⟨s', w.received⟩ := by
  have hpublished : ∀ update : DashboardUpdate D,
      s'.subscribers = w.service.subscribers.map (fun _ => some update) →
      w.service.sequence ≤ s'.sequence → update.sequence ≤ s'.sequence →
      (∀ queue numbers, InOrder w.service queue numbers → ∀ n ∈ numbers, n < update.sequence) →
      (∀ other, ¬Awaits s' other) → Lined ⟨s', w.received⟩ := by
    intro update hqueues hsequence hbound hnew hnone
    refine ⟨hsingle, fun other hother => absurd hother (hnone other), ?_⟩
    rw [hqueues]
    refine List.forall₂_map_left_iff.mpr (h.inOrder.imp fun queue numbers horder => ?_)
    exact horder.publish (hnew queue numbers horder) hsequence hbound hnone
  cases heffect with
  | quiet hqueues hsequence hawaits htimely =>
    refine ⟨hsingle, fun update hupdate => ?_, ?_⟩
    · rw [hsequence]
      exact h.numbered update ((hawaits update).mp hupdate)
    · rw [hqueues]
      refine h.inOrder.imp fun queue numbers horder => horder.congr hsequence.ge ?_
      exact fun update hupdate => Or.inl ((hawaits update).mp hupdate)
  | built update hqueues hsequence hupdate hbefore hawaits htimely =>
    have hle : w.service.sequence ≤ s'.sequence := by omega
    refine ⟨hsingle, fun other hother => ?_, ?_⟩
    · rw [(hawaits other).mp hother]
      exact hupdate.le
    · rw [hqueues]
      refine h.inOrder.imp fun queue numbers horder => horder.congr hle ?_
      intro other hother
      rw [(hawaits other).mp hother]
      exact Or.inr (by omega)
  | abandoned hqueues hsequence hawaits htimely =>
    have hle : w.service.sequence ≤ s'.sequence := by omega
    refine ⟨hsingle, fun update hupdate => ?_, ?_⟩
    · have hnumbered := h.numbered update ((hawaits update).mp hupdate)
      show update.sequence ≤ s'.sequence
      omega
    · rw [hqueues]
      refine h.inOrder.imp fun queue numbers horder => horder.congr hle ?_
      exact fun update hupdate => Or.inl ((hawaits update).mp hupdate)
  | published update hqueues hsequence hbefore hnone htimely =>
    have hnumbered := h.numbered update hbefore
    refine hpublished update hqueues hsequence.ge (by omega) ?_ hnone
    intro queue numbers horder n hn
    exact horder.awaited n (List.mem_append_right _ hn) update hbefore
  | announced update hqueues hsequence hupdate hnone htimely =>
    refine hpublished update hqueues (by omega) hupdate.le ?_ hnone
    intro queue numbers horder n hn
    have hbound := horder.bound n (List.mem_append_right _ hn)
    omega

/-- The queues hold the newest frame after a step exactly if the step is timely. -/
theorem newest_iff_of_effect {w : Watched D} {s' : Service D} {a : Action D} (h : Lined w)
    (hnewest : Newest w.service) (heffect : Effect w.service a s') :
    Newest s' ↔ Timely w.service a := by
  cases heffect with
  | quiet hqueues hsequence hawaits htimely =>
    refine iff_of_true (fun hnone update hupdate => ?_) htimely
    rw [hqueues] at hupdate
    rw [hsequence]
    exact hnewest (fun other hother => hnone other ((hawaits other).mpr hother)) update hupdate
  | built update hqueues hsequence hupdate hbefore hawaits htimely =>
    refine iff_of_true (fun hnone => ?_) htimely
    exact absurd ((hawaits update).mpr rfl) (hnone update)
  | abandoned hqueues hsequence hawaits htimely =>
    rw [htimely]
    constructor
    · intro hnewest'
      by_cases hsome : ∃ update, Awaits w.service update
      · exact Or.inl hsome
      · refine Or.inr fun queue hqueue => ?_
        cases queue with
        | none => rfl
        | some update =>
          rw [← hqueues] at hqueue
          have hsame := hnewest'
            (fun other hother => hsome ⟨other, (hawaits other).mp hother⟩) update hqueue
          rw [hqueues] at hqueue
          have hbound := h.waiting hqueue
          omega
    · intro hcondition hnone update hupdate
      obtain ⟨other, hother⟩ | hempty := hcondition
      · exact absurd ((hawaits other).mpr hother) (hnone other)
      · rw [hqueues] at hupdate
        cases hempty _ hupdate
  | published update hqueues hsequence hbefore hnone htimely =>
    rw [htimely]
    constructor
    · intro hnewest'
      cases hsubscribers : w.service.subscribers with
      | nil => exact Or.inl rfl
      | cons queue rest =>
        rw [hsubscribers] at hqueues
        have hsame := hnewest' hnone update (by rw [hqueues]; exact List.mem_cons_self)
        exact Or.inr (hsame.trans hsequence)
    · intro hcondition _ other hother
      rw [hqueues] at hother
      obtain ⟨queue, hqueue, heq⟩ := List.mem_map.mp hother
      obtain rfl := Option.some.inj heq
      obtain hempty | hsame := hcondition
      · rw [hempty] at hqueue
        cases hqueue
      · exact hsame.trans hsequence.symm
  | announced update hqueues hsequence hupdate hnone htimely =>
    refine iff_of_true (fun _ other hother => ?_) htimely
    rw [hqueues] at hother
    obtain ⟨queue, hqueue, heq⟩ := List.mem_map.mp hother
    obtain rfl := Option.some.inj heq
    exact hupdate

/-- A subscriber comes, takes its frame, or goes. -/
theorem lined_of_subscriber {w : Watched D} (h : Lined w) {subscribers : List _}
    {received : List (List Nat)}
    (horder : List.Forall₂ (InOrder w.service) subscribers received) :
    Lined ⟨{ w.service with subscribers := subscribers }, received⟩ :=
  ⟨h.current, h.numbered, horder.imp fun _ _ h => ⟨h.decreasing, h.bound, h.awaited⟩⟩

theorem inOrder_new (s : Service D) : InOrder s none [] :=
  ⟨.nil, nofun, nofun⟩

theorem inOrder_receive {s : Service D} {i : Nat} {queue : Option (DashboardUpdate D)}
    {numbers : List Nat} (hqueue : s.subscribers[i]? = some queue) (h : InOrder s queue numbers) :
    InOrder s none (taken s.subscribers[i]? ++ numbers) := by
  rw [hqueue]
  exact ⟨h.decreasing, h.bound, h.awaited⟩

theorem watch_step {w w' : Watched D} {a : Action D} (h : Lined w) (hstep : watch a w = some w') :
    Lined w' ∧ (Newest w.service → (Newest w'.service ↔ Timely w.service a)) := by
  obtain ⟨s', hs, rfl⟩ := Option.map_eq_some_iff.mp hstep
  have heffect : Single s' ∧ Effect w.service a s' →
      receivedAfter w.service w.received a = w.received →
      Lined ⟨s', receivedAfter w.service w.received a⟩ ∧
        (Newest w.service → (Newest s' ↔ Timely w.service a)) := by
    intro ⟨hsingle, heffect⟩ hreceived
    rw [hreceived]
    exact ⟨lined_of_effect h hsingle heffect,
      fun hnewest => newest_iff_of_effect h hnewest heffect⟩
  cases a with
  | configure connection =>
    obtain rfl := Option.some.inj hs
    exact heffect ⟨h.current, .quiet rfl rfl (fun _ => Iff.rfl) trivial⟩ rfl
  | clear reason =>
    obtain rfl := Option.some.inj hs
    exact heffect (clear_effect h.current reason) rfl
  | start =>
    obtain rfl := Option.some.inj hs
    exact heffect (start_effect h.current) rfl
  | subscribe =>
    obtain rfl := Option.some.inj hs
    refine ⟨lined_of_subscriber h
      (forall₂_append_singleton h.inOrder (inOrder_new w.service)), fun hnewest => ?_⟩
    refine iff_of_true (fun hnone update hupdate => ?_) trivial
    obtain hold | hnew := List.mem_append.mp hupdate
    · exact hnewest hnone update hold
    · cases List.mem_singleton.mp hnew
  | receive i =>
    obtain rfl := Option.some.inj hs
    refine ⟨lined_of_subscriber h (forall₂_set_modify h.inOrder
      fun _ _ hqueue horder => inOrder_receive hqueue horder), fun hnewest => ?_⟩
    refine iff_of_true (fun hnone update hupdate => ?_) trivial
    obtain hold | hnew := List.mem_or_eq_of_mem_set hupdate
    · exact hnewest hnone update hold
    · cases hnew
  | unsubscribe i =>
    obtain rfl := Option.some.inj hs
    refine ⟨lined_of_subscriber h (forall₂_eraseIdx h.inOrder i), fun hnewest => ?_⟩
    refine iff_of_true (fun hnone update hupdate => ?_) trivial
    exact hnewest hnone update (List.mem_of_mem_eraseIdx hupdate)
  | poll i event =>
    obtain ⟨task, htask, hpoll⟩ := Option.bind_eq_some_iff.mp hs
    exact heffect (poll_effect h.current htask hpoll) rfl

/-! ## Runs -/

/-- The service before it has subscribers. -/
def watched (connection : Option RouterConnection) (source : Source) (deviceId : Text) :
    Watched D where
  service := create connection source deviceId

theorem lined_watched (connection : Option RouterConnection) (source : Source) (deviceId : Text) :
    Lined (watched connection source deviceId : Watched D) := by
  refine ⟨?_, ?_, .nil⟩
  · intro i task htask
    cases htask
  · intro update ⟨task, htask, _⟩
    cases htask

/--
**Numbers increase, and queues hold the newest frame whenever none is about to be published,
exactly in the runs whose steps are timely.**
-/
theorem always_ordered_iff (connection : Option RouterConnection) (source : Source)
    (deviceId : Text) (events : List (Action D)) (t : Watched D)
    (hrun : Runs.run watch events (watched connection source deviceId) = some t) :
    Runs.Always watch Ordered events (watched connection source deviceId) ↔
      Runs.Meets watch (fun w a => Timely w.service a) events
        (watched connection source deviceId) := by
  refine Runs.always_iff_meets (I := fun w => Lined w ∧ Newest w.service)
    (fun w h => ⟨h.1.increasing, h.2⟩) ?_ ?_ ⟨lined_watched _ _ _, ?_⟩ hrun
  · intro w a w' ⟨hlined, hnewest⟩ htimely hstep
    obtain ⟨hlined', hiff⟩ := watch_step hlined hstep
    exact ⟨hlined', (hiff hnewest).mpr htimely⟩
  · intro w a w' ⟨hlined, hnewest⟩ htimely hstep hordered
    exact htimely (((watch_step hlined hstep).2 hnewest).mp hordered.2)
  · intro _ update hupdate
    cases hupdate

/-- A subscriber reads the frame of a round of polling. -/
theorem round_ordered :
    Runs.Always watch Ordered
      [.subscribe, .start, .poll 0 .begin, .poll 0 (.collect ()), .poll 0 .resume, .receive 0]
      (watched (some homeRouter) .ssh "192.168.1.1".toList) := by
  refine (always_ordered_iff _ _ _ _ _ rfl).mpr ⟨trivial, fun w₁ h₁ => ?_⟩
  obtain rfl := Option.some.inj h₁
  refine ⟨trivial, fun w₂ h₂ => ?_⟩
  obtain rfl := Option.some.inj h₂
  refine ⟨trivial, fun w₃ h₃ => ?_⟩
  obtain rfl := Option.some.inj h₃
  refine ⟨Or.inl ?_, fun w₄ h₄ => ?_⟩
  · intro task htask
    obtain rfl := Option.some.inj htask
    rfl
  obtain rfl := Option.some.inj h₄
  refine ⟨Or.inr ?_, fun w₅ h₅ => ?_⟩
  · intro update ⟨task, htask, _, hstage⟩
    obtain rfl := List.mem_singleton.mp htask
    obtain rfl := Stage.finished.inj hstage
    rfl
  obtain rfl := Option.some.inj h₅
  exact ⟨trivial, fun _ _ => trivial⟩

/-- The router is detached while a collection is under way, which then ends. -/
theorem abandoned_frame_newer :
    ¬ ∀ (connection : Option RouterConnection) (source : Source) (deviceId : Text)
      (events : List (Action Unit)) (t : Watched Unit),
      Runs.run watch events (watched connection source deviceId) = some t → Ordered t := by
  intro h
  have hordered := h (some homeRouter) .ssh "192.168.1.1".toList
    [.subscribe, .start, .poll 0 .begin, .clear "Router connection removed".toList,
      .poll 0 (.collect ())] _ rfl
  have hnewest := hordered.2 ?_ _ (List.mem_singleton_self _)
  · cases hnewest
  · intro update ⟨task, htask, hlive, _⟩
    obtain rfl := List.mem_singleton.mp htask
    cases hlive

end OpenWrtCopilot.Ports.SnapshotOrder
