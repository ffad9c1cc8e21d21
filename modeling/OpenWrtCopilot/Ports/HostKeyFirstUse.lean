import OpenWrtCopilot.Verified.FirstUse
import OpenWrtCopilot.Verified.Runs
import OpenWrtCopilot.Ports.HostKeys

/-!
# Trust on first use, through restarts

One store at a time checks keys under the `auto` policy; a restart drops what the
store has read, so that the next one reads the file.  Next to the store, a session
carries the pins of the abstract policy and the verdicts of both.

## Main results

* `agrees_iff` — the store follows the policy and its file holds the pins, exactly
  in the runs in which it records a key only for a host that a line can hold.
* `spaced_host_forgotten` — a host whose key is not found again.
-/

namespace OpenWrtCopilot.Ports.HostKeys

open Verified
open Verified.PyText

/-! ## Sessions -/

/-- A store, the pins it should have, and the verdicts: whether a key was accepted,
and whether the policy accepts it. -/
structure Session where
  store : StoreState
  pins : FirstUse.Pins (Text × Int) (Text × Text)
  verdicts : List (Bool × Bool) := []

inductive Event
  | present (key : Presented)
  | restart

def step : Event → Session → Option Session
  | .present p, s =>
      let (verdict, store) := missingHostKey true p.record s.store
      some
        { store := store
          pins := FirstUse.present s.pins p.record.endpoint p.record.key
          verdicts :=
            (verdict.isOk, FirstUse.accepts s.pins p.record.endpoint p.record.key) ::
              s.verdicts }
  | .restart, s => some { s with store := { s.store with records := none } }

/-- No endpoint has two keys. -/
def Unambiguous (records : Records) : Prop :=
  ∀ x ∈ records, ∀ y ∈ records, x.endpoint = y.endpoint → x = y

/-- The pins a file holds. -/
def pinsOf (records : Records) : FirstUse.Pins (Text × Int) (Text × Text) := fun endpoint =>
  (records.find? fun r => r.endpoint = endpoint).map HostKeyRecord.key

/-- A store that has not read its file yet. -/
def Session.start (file : Option Text) : Session :=
  { store := { file := file }, pins := pinsOf (load file) }

/-- The verdicts are those of the policy, and a restart finds exactly the pins. -/
structure Agrees (s : Session) : Prop where
  verdicts : ∀ v ∈ s.verdicts, v.1 = v.2
  pinned : ∀ r : HostKeyRecord, r ∈ load s.store.file ↔ s.pins r.endpoint = some r.key

/-- A key is recorded only for a host that a line can hold. -/
def Recordable (s : Session) : Event → Prop
  | .present p => check s.store.entries p.record = .unknown → PlainHost p.host
  | .restart => True

instance (s : Session) : (e : Event) → Decidable (Recordable s e)
  | .present p =>
      inferInstanceAs (Decidable (check s.store.entries p.record = .unknown → PlainHost p.host))
  | .restart => .isTrue trivial

/-- The invariant: besides, the store has read what the file holds. -/
structure SessionInv (s : Session) : Prop where
  agrees : Agrees s
  read : ∀ r, r ∈ s.store.entries ↔ r ∈ load s.store.file

theorem SessionInv.mem_iff {s : Session} (h : SessionInv s) (r : HostKeyRecord) :
    r ∈ s.store.entries ↔ s.pins r.endpoint = some r.key :=
  (h.read r).trans (h.agrees.pinned r)

theorem SessionInv.start {file : Option Text} (h : Unambiguous (load file)) :
    SessionInv (Session.start file) := by
  refine ⟨⟨fun _ hv => absurd hv List.not_mem_nil, fun r => ?_⟩, fun r => Iff.rfl⟩
  show r ∈ load file ↔
    ((load file).find? fun x => x.endpoint = r.endpoint).map HostKeyRecord.key = some r.key
  constructor
  · intro hr
    cases hfind : (load file).find? fun x => x.endpoint = r.endpoint with
    | none =>
      have hnone := List.find?_eq_none.mp hfind r hr
      exact absurd rfl (of_decide_eq_false (Bool.eq_false_iff.mpr hnone))
    | some x =>
      have hx := List.mem_of_find?_eq_some hfind
      have hendpoint : x.endpoint = r.endpoint := by simpa using List.find?_some hfind
      rw [h x hx r hr hendpoint]
      rfl
  · intro hpin
    obtain ⟨x, hfind, hkey⟩ := Option.map_eq_some_iff.mp hpin
    have hendpoint : x.endpoint = r.endpoint := by simpa using List.find?_some hfind
    exact HostKeyRecord.ext_key hendpoint hkey ▸ List.mem_of_find?_eq_some hfind

/-! ## One key -/

/-- The store's answer, and what it leaves. -/
def answer (r : HostKeyRecord) (s : StoreState) : Bool × StoreState :=
  ((missingHostKey true r s).1.isOk, (missingHostKey true r s).2)

theorem answer_of_mem {r : HostKeyRecord} {s : StoreState} (h : r ∈ s.entries) :
    answer r s = (true, { s with records := some s.entries }) := by
  have hcheck : check s.entries r = .trusted := check_eq_trusted_iff.mpr h
  simp only [answer, missingHostKey, verifyHostKey, hcheck]
  rfl

theorem answer_of_other {r x : HostKeyRecord} {s : StoreState} (hr : r ∉ s.entries)
    (hx : x ∈ s.entries) (hendpoint : x.endpoint = r.endpoint) :
    answer r s = (false, { s with records := some s.entries }) := by
  have hcheck : check s.entries r = .mismatch := check_eq_mismatch hr hx hendpoint
  simp only [answer, missingHostKey, verifyHostKey, hcheck]
  rfl

theorem answer_of_unknown {r : HostKeyRecord} {s : StoreState}
    (h : check s.entries r = .unknown) :
    answer r s =
      (true, { file := some (writeText (s.entries ++ [r])), records := some (s.entries ++ [r]) }) := by
  have hnew : r ∉ s.entries := fun hr => check_eq_unknown_iff.mp h r hr rfl
  have hrecord : StoreState.record { s with records := some s.entries } r =
      { file := some (writeText (s.entries ++ [r])), records := some (s.entries ++ [r]) } :=
    StoreState.record_of_notMem (s := { s with records := some s.entries }) hnew
  simp only [answer, missingHostKey, verifyHostKey, h, if_true, hrecord]
  rfl

theorem step_present (p : Presented) (s : Session) :
    step (.present p) s =
      some
        { store := (answer p.record s.store).2
          pins := FirstUse.present s.pins p.record.endpoint p.record.key
          verdicts :=
            ((answer p.record s.store).1,
              FirstUse.accepts s.pins p.record.endpoint p.record.key) :: s.verdicts } := rfl

theorem Agrees.cons {s : Session} (h : Agrees s) {store : StoreState}
    {pins : FirstUse.Pins (Text × Int) (Text × Text)} {accepted : Bool}
    (hpinned : ∀ r : HostKeyRecord, r ∈ load store.file ↔ pins r.endpoint = some r.key) :
    Agrees { store := store, pins := pins, verdicts := (accepted, accepted) :: s.verdicts } := by
  refine ⟨?_, hpinned⟩
  intro v hv
  rcases List.mem_cons.mp hv with rfl | hv
  · rfl
  · exact h.verdicts v hv

/-- An endpoint without entries has no pin. -/
theorem SessionInv.pins_of_unknown {s : Session} (h : SessionInv s) {r : HostKeyRecord}
    (hunknown : check s.store.entries r = .unknown) : s.pins r.endpoint = none := by
  cases hpin : s.pins r.endpoint with
  | none => rfl
  | some key =>
    have hmem : ({ r with keyType := key.1, keyBlob := key.2 } : HostKeyRecord) ∈
        s.store.entries := (h.mem_iff _).mpr hpin
    have hendpoint := check_eq_unknown_iff.mp hunknown _ hmem
    exact absurd rfl hendpoint

/-- A plain record that is written to the file becomes the pin of its endpoint. -/
theorem SessionInv.pinned_record {s : Session} (h : SessionInv s) {r : HostKeyRecord}
    (hplain : Plain r) (hunknown : check s.store.entries r = .unknown) (x : HostKeyRecord) :
    (x ∈ load (some (writeText (s.store.entries ++ [r]))) ↔ x ∈ s.store.entries ++ [r]) ∧
      (x ∈ s.store.entries ++ [r] ↔
        Function.update s.pins r.endpoint (some r.key) x.endpoint = some x.key) := by
  constructor
  · refine mem_load_writeText ?_ x
    intro y hy
    rcases List.mem_append.mp hy with hy | hy
    · exact plain_of_mem_load ((h.read y).mp hy)
    · exact List.mem_singleton.mp hy ▸ hplain
  · rw [List.mem_append, List.mem_singleton]
    by_cases hendpoint : x.endpoint = r.endpoint
    · rw [hendpoint, Function.update_self, Option.some.injEq]
      constructor
      · rintro (hx | rfl)
        · exact absurd hendpoint (check_eq_unknown_iff.mp hunknown x hx)
        · rfl
      · intro hkey
        exact Or.inr (HostKeyRecord.ext_key hendpoint hkey.symm)
    · rw [Function.update_of_ne hendpoint, ← h.mem_iff x]
      constructor
      · rintro (hx | rfl)
        · exact hx
        · exact absurd rfl hendpoint
      · exact Or.inl

/-- The store and the policy treat a key alike, if it can be recorded. -/
theorem SessionInv.present {s : Session} (h : SessionInv s) (p : Presented)
    (hplain : check s.store.entries p.record = .unknown → PlainHost p.host) :
    SessionInv
      { store := (answer p.record s.store).2
        pins := FirstUse.present s.pins p.record.endpoint p.record.key
        verdicts :=
          ((answer p.record s.store).1,
            FirstUse.accepts s.pins p.record.endpoint p.record.key) :: s.verdicts } := by
  by_cases hmem : p.record ∈ s.store.entries
  · have hpin := (h.mem_iff p.record).mp hmem
    have haccepts : FirstUse.accepts s.pins p.record.endpoint p.record.key = true := by
      rw [FirstUse.accepts, hpin, decide_eq_true_eq]
    rw [answer_of_mem hmem, haccepts, FirstUse.present_of_some hpin]
    exact ⟨h.agrees.cons h.agrees.pinned, h.read⟩
  · by_cases hother : ∃ x ∈ s.store.entries, x.endpoint = p.record.endpoint
    · obtain ⟨x, hx, hendpoint⟩ := hother
      have hpin : s.pins p.record.endpoint = some x.key := hendpoint ▸ (h.mem_iff x).mp hx
      have haccepts : FirstUse.accepts s.pins p.record.endpoint p.record.key = false := by
        rw [FirstUse.accepts, hpin, decide_eq_false_iff_not]
        intro hkey
        exact hmem (HostKeyRecord.ext_key hendpoint hkey.symm ▸ hx)
      rw [answer_of_other hmem hx hendpoint, haccepts, FirstUse.present_of_some hpin]
      exact ⟨h.agrees.cons h.agrees.pinned, h.read⟩
    · have hunknown : check s.store.entries p.record = .unknown :=
        check_eq_unknown_iff.mpr fun x hx hendpoint => hother ⟨x, hx, hendpoint⟩
      have hpin := h.pins_of_unknown hunknown
      have haccepts : FirstUse.accepts s.pins p.record.endpoint p.record.key = true := by
        rw [FirstUse.accepts, hpin]
      have hrecord := h.pinned_record (p.plain_iff.mpr (hplain hunknown)) hunknown
      rw [answer_of_unknown hunknown, haccepts, FirstUse.present_of_none hpin]
      exact ⟨h.agrees.cons fun x => (hrecord x).1.trans (hrecord x).2, fun x => (hrecord x).1.symm⟩

/-! ## Runs -/

/-- A key that is accepted for a host that no line can hold is not in the file. -/
theorem not_agrees_present {s : Session} (h : SessionInv s) {p : Presented}
    (hunknown : check s.store.entries p.record = .unknown) (hhost : ¬ PlainHost p.host)
    {s' : Session} (hstep : step (.present p) s = some s') : ¬ Agrees s' := by
  rw [step_present, answer_of_unknown hunknown,
    FirstUse.present_of_none (h.pins_of_unknown hunknown)] at hstep
  obtain rfl := Option.some.inj hstep
  intro hagrees
  have hpin : Function.update s.pins p.record.endpoint (some p.record.key) p.record.endpoint =
      some p.record.key := Function.update_self ..
  exact notMem_load_of_not_plain (fun hplain => hhost (p.plain_iff.mp hplain)) _
    ((hagrees.pinned p.record).mpr hpin)

/-- A file with two keys of one endpoint has more than the pins can say. -/
theorem unambiguous_of_agrees {s : Session} (h : Agrees s) :
    Unambiguous (load s.store.file) := by
  intro x hx y hy hendpoint
  have hxpin := (h.pinned x).mp hx
  have hypin := (h.pinned y).mp hy
  rw [← hendpoint, hxpin] at hypin
  exact HostKeyRecord.ext_key hendpoint (Option.some.inj hypin)

/--
**The store trusts on first use, through any restarts, exactly when its file begins
with at most one key an endpoint and every host it records a key for can stand in a
line.**
-/
theorem agrees_iff (file : Option Text) (events : List Event) (s : Session)
    (hrun : Runs.run step events (Session.start file) = some s) :
    Runs.Always step Agrees events (Session.start file) ↔
      Unambiguous (load file) ∧ Runs.Meets step Recordable events (Session.start file) := by
  have hfirst : Runs.Always step Agrees events (Session.start file) →
      Unambiguous (load file) := fun halways => unambiguous_of_agrees halways.head
  suffices hlater : Unambiguous (load file) → (Runs.Always step Agrees events (Session.start file) ↔
      Runs.Meets step Recordable events (Session.start file)) from
    ⟨fun halways => ⟨hfirst halways, (hlater (hfirst halways)).mp halways⟩,
      fun h => (hlater h.1).mpr h.2⟩
  intro hfile
  refine Runs.always_iff_meets (I := SessionInv) ?_ ?_ ?_ (SessionInv.start hfile) hrun
  · intro s hs
    exact hs.agrees
  · intro s event s' hs hrecordable hstep
    cases event with
    | present p =>
      rw [step_present] at hstep
      obtain rfl := Option.some.inj hstep
      exact hs.present p hrecordable
    | restart =>
      obtain rfl := Option.some.inj hstep
      exact ⟨⟨hs.agrees.verdicts, hs.agrees.pinned⟩, fun _ => Iff.rfl⟩
  · intro s event s' hs hfails hstep
    cases event with
    | present p =>
      obtain ⟨hunknown, hhost⟩ := Classical.not_imp.mp hfails
      exact not_agrees_present hs hunknown hhost hstep
    | restart => exact absurd trivial hfails

/-! ## Hosts -/

/-- The key of a router, as a backend presents it. -/
def routerKey (host blob : Text) (hblob : Word blob) : Presented where
  host := host
  port := 22
  keyType := "ssh-ed25519"
  keyBlob := blob
  validPort := by decide
  typeWord := by decide
  blobWord := hblob

/-- An address is remembered through a restart. -/
theorem address_remembered :
    Runs.Always step Agrees
      [.present (routerKey "192.168.1.1" "AAAA" (by decide)), .restart,
        .present (routerKey "192.168.1.1" "AAAB" (by decide))]
      (Session.start none) :=
  (agrees_iff none _ _ rfl).mpr
    ⟨fun _ hx => absurd hx List.not_mem_nil, by decide +kernel⟩

/-- With a space after the address the key is accepted, and forgotten at the
restart: another key is accepted then. -/
theorem spaced_host_forgotten :
    ¬ ∀ (file : Option Text), Unambiguous (load file) → ∀ (events : List Event) (s : Session),
      Runs.run step events (Session.start file) = some s → ∀ v ∈ s.verdicts, v.1 = v.2 := by
  intro h
  have hverdict := h none (fun _ hx => absurd hx List.not_mem_nil)
    [.present (routerKey "192.168.1.1 " "AAAA" (by decide)), .restart,
      .present (routerKey "192.168.1.1 " "AAAB" (by decide))] _ rfl
    (true, false) (by decide +kernel)
  exact absurd hverdict (by decide)

end OpenWrtCopilot.Ports.HostKeys
