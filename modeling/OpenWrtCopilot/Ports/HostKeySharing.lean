import OpenWrtCopilot.Verified.Threads
import OpenWrtCopilot.Ports.HostKeys

/-!
# Several stores over one known-hosts file

Connections verify host keys at the same time, each with a store of its own or with
a shared one, in one process or in several.  Each `check` and each `record` runs
under the lock of the module; between the check of an unknown key and its recording
the other connections go on.

A store keeps what it has read of the file, and `record` replaces the file by that
and the new key.

## Main results

* `pinned_iff` — no pin is lost and no second key accepted, exactly in the runs in
  which each store that trusts or writes a new key has read what it needs.
* `overlapping_first_use` — two connections that pin different keys.
-/

namespace OpenWrtCopilot.Ports.HostKeys

open Verified
open Verified.Threads
open Verified.PyText

/-! ## Stores and connections -/

/-- A check that was made: of which key, whether it was refused, and what had been
recorded before. -/
structure Check where
  presented : HostKeyRecord
  refused : Bool
  recorded : List HostKeyRecord

/-- The file and the stores over it, with what was in the file at first and what has
been accepted and recorded since. -/
structure Shared where
  file : Option Text
  /-- `_records` of each store. -/
  stores : Nat → Option Records := fun _ => none
  initial : Records
  accepted : List HostKeyRecord := []
  recorded : List HostKeyRecord := []
  checks : List Check := []

/-- A store and the file. -/
def Shared.view (s : Shared) (store : Nat) : StoreState :=
  { file := s.file, records := s.stores store }

/-- What a store answers from. -/
def Shared.entries (s : Shared) (store : Nat) : Records := (s.view store).entries

def Shared.put (s : Shared) (store : Nat) (state : StoreState) : Shared :=
  { s with file := state.file, stores := Function.update s.stores store state.records }

/-- A connection: with its host key still unknown to the store, if it has one. -/
inductive Connection
  | idle
  | unknown (store : Nat) (key : Presented)

inductive Call
  /-- `check`, with the policy that `verify_host_key` goes on with. -/
  | check (store : Nat) (allowTou : Bool) (key : Presented)
  | record

def Shared.checked (s : Shared) (store : Nat) (r : HostKeyRecord) (refused : Bool) : Shared :=
  { s.put store { s.view store with records := some (s.entries store) } with
    checks := ⟨r, refused, s.recorded⟩ :: s.checks }

def Shared.accept (s : Shared) (r : HostKeyRecord) : Shared :=
  { s with accepted := r :: s.accepted }

/-- `record`, after which the key is accepted. -/
def Shared.recordKey (s : Shared) (store : Nat) (r : HostKeyRecord) : Shared :=
  { (s.put store ((s.view store).record r)).accept r with recorded := r :: s.recorded }

/-- The statements of `verify_host_key`, one call of the store at a time. -/
def call : Call → Shared → Connection → Option (Shared × Connection)
  | .check store allowTou p, s, .idle =>
      match check (s.entries store) p.record with
      | .trusted => some ((s.checked store p.record false).accept p.record, .idle)
      | .mismatch => some (s.checked store p.record true, .idle)
      | .unknown =>
          if allowTou then some (s.checked store p.record false, .unknown store p)
          else some (s.checked store p.record true, .idle)
  | .record, s, .unknown store p => some (s.recordKey store p.record, .idle)
  | _, _, _ => none

theorem view_put (s : Shared) (store : Nat) (state : StoreState) :
    (s.put store state).view store = state := by
  show ({ file := state.file, records := Function.update s.stores store state.records store } :
    StoreState) = state
  rw [Function.update_self]

theorem view_checked (s : Shared) (store : Nat) (r : HostKeyRecord) (refused : Bool) :
    (s.checked store r refused).view store =
      { s.view store with records := some (s.entries store) } :=
  view_put s store { s.view store with records := some (s.entries store) }

/-! ## The property and the condition -/

/-- No pin is lost from the file, a key that was recorded is the only one accepted for
its endpoint, and every later check of another one is refused. -/
structure Pinned (s : Shared) : Prop where
  kept : ∀ x ∈ s.initial ++ s.recorded, x ∈ load s.file
  once : ∀ x ∈ s.recorded, ∀ y ∈ s.accepted, y.endpoint = x.endpoint → y = x
  refused : ∀ c ∈ s.checks, ∀ x ∈ c.recorded, x.endpoint = c.presented.endpoint →
    x ≠ c.presented → c.refused = true

/-- The file holds no other key for the endpoint of this one. -/
def Sole (s : Shared) (r : HostKeyRecord) : Prop :=
  ∀ x ∈ load s.file, x.endpoint = r.endpoint → x = r

/-- A store that takes a key for unknown, under trust on first use, is right that the
file has no other; and when it records one, it has read all that the file holds. -/
def UpToDate (s : Shared) : Connection → Call → Prop
  | _, .check store allowTou p =>
      allowTou = true → check (s.entries store) p.record = .unknown → Sole s p.record
  | .unknown store p, .record =>
      p.record ∉ s.entries store →
        PlainHost p.host ∧ Sole s p.record ∧
          ∀ x ∈ load s.file, x ∈ s.entries store ∨ x = p.record
  | .idle, .record => True

instance (s : Shared) (r : HostKeyRecord) : Decidable (Sole s r) := by
  unfold Sole
  infer_instance

instance (s : Shared) (t : Connection) (c : Call) : Decidable (UpToDate s t c) := by
  unfold UpToDate
  split <;> infer_instance

/-! ## The invariant -/

/-- What stores have read is in the file, and what was in it at first they have read;
an endpoint that had a key then is never recorded. -/
structure SharedInv (s : Shared) : Prop where
  pinned : Pinned s
  file : ∀ x ∈ load s.file, x ∈ s.initial ++ s.recorded
  read : ∀ store entries, s.stores store = some entries →
    (∀ x ∈ entries, x ∈ load s.file) ∧ ∀ x ∈ s.initial, x ∈ entries
  fresh : ∀ x ∈ s.recorded, ∀ y ∈ s.initial, y.endpoint ≠ x.endpoint
  accepted : ∀ y ∈ s.accepted, y ∈ load s.file
  recorded : ∀ x ∈ s.recorded, x ∈ s.accepted

/-- An endpoint with a key that is still unknown had none in the file at first. -/
def ConnectionInv (s : Shared) : Connection → Prop
  | .idle => True
  | .unknown _ p => ∀ y ∈ s.initial, y.endpoint ≠ p.record.endpoint

namespace SharedInv

variable {s : Shared} {store : Nat}

theorem entries_subset (h : SharedInv s) {x : HostKeyRecord} (hx : x ∈ s.entries store) :
    x ∈ load s.file := by
  unfold Shared.entries Shared.view StoreState.entries at hx
  cases hread : s.stores store with
  | none => rwa [hread] at hx
  | some entries =>
    rw [hread] at hx
    exact (h.read store entries hread).1 x hx

theorem initial_subset (h : SharedInv s) {x : HostKeyRecord} (hx : x ∈ s.initial) :
    x ∈ s.entries store := by
  unfold Shared.entries Shared.view StoreState.entries
  cases hread : s.stores store with
  | none => exact h.pinned.kept x (List.mem_append_left _ hx)
  | some entries => exact (h.read store entries hread).2 x hx

/-- A key in the file was recorded, if its endpoint had none at first. -/
theorem recorded_of_mem (h : SharedInv s) {x : HostKeyRecord} (hx : x ∈ load s.file)
    (hfresh : ∀ y ∈ s.initial, y.endpoint ≠ x.endpoint) : x ∈ s.recorded := by
  rcases List.mem_append.mp (h.file x hx) with hinitial | hrecorded
  · exact absurd rfl (hfresh x hinitial)
  · exact hrecorded

/-- A key that a store finds is the recorded one, if one was recorded. -/
theorem eq_of_mem_entries (h : SharedInv s) {r x : HostKeyRecord} (hr : r ∈ s.entries store)
    (hx : x ∈ s.recorded) (hendpoint : r.endpoint = x.endpoint) : r = x := by
  have hrecorded : r ∈ s.recorded := by
    refine h.recorded_of_mem (h.entries_subset hr) ?_
    rw [hendpoint]
    exact h.fresh x hx
  exact h.pinned.once x hx r (h.recorded r hrecorded) hendpoint

/-- A check changes what the store has read, and is noted. -/
theorem checked (h : SharedInv s) {r : HostKeyRecord} {refused : Bool}
    (hrefused : ∀ x ∈ s.recorded, x.endpoint = r.endpoint → x ≠ r → refused = true) :
    SharedInv (s.checked store r refused) := by
  refine
    { pinned := ⟨h.pinned.kept, h.pinned.once, ?_⟩
      file := h.file
      read := ?_
      fresh := h.fresh
      accepted := h.accepted
      recorded := h.recorded }
  · intro c hc
    rcases List.mem_cons.mp hc with rfl | hc
    · exact hrefused
    · exact h.pinned.refused c hc
  · intro other entries hread
    change Function.update s.stores store (some (s.entries store)) other = some entries at hread
    by_cases hother : other = store
    · rw [hother, Function.update_self] at hread
      obtain rfl := Option.some.inj hread
      exact ⟨fun x hx => h.entries_subset hx, fun x hx => h.initial_subset hx⟩
    · rw [Function.update_of_ne hother] at hread
      exact h.read other entries hread

/-- A key that a store finds is accepted. -/
theorem accept (h : SharedInv s) {r : HostKeyRecord} (hr : r ∈ s.entries store) :
    SharedInv (s.accept r) := by
  refine
    { pinned := ⟨h.pinned.kept, ?_, h.pinned.refused⟩
      file := h.file
      read := h.read
      fresh := h.fresh
      accepted := ?_
      recorded := fun x hx => List.mem_cons_of_mem r (h.recorded x hx) }
  · intro x hx y hy hendpoint
    rcases List.mem_cons.mp hy with rfl | hy
    · exact h.eq_of_mem_entries hr hx hendpoint
    · exact h.pinned.once x hx y hy hendpoint
  · intro y hy
    rcases List.mem_cons.mp hy with rfl | hy
    · exact h.entries_subset hr
    · exact h.accepted y hy

end SharedInv

/-! ## Recording -/

/-- A record keeps the pins, and adds its own, if the file still holds what it held. -/
theorem SharedInv.recordKey {s : Shared} {store : Nat} {r : HostKeyRecord} (h : SharedInv s)
    (hfresh : ∀ y ∈ s.initial, y.endpoint ≠ r.endpoint) (hsole : Sole s r) (entries : Records)
    (hrecord : (s.view store).record r =
      { file := (s.recordKey store r).file, records := some entries })
    (hfile : ∀ x, x ∈ load (s.recordKey store r).file ↔ x ∈ load s.file ∨ x = r)
    (hentries : ∀ x, x ∈ entries → x ∈ load s.file ∨ x = r)
    (hread : ∀ x ∈ s.initial, x ∈ entries) : SharedInv (s.recordKey store r) := by
  have hkeep : ∀ x ∈ load s.file, x ∈ load (s.recordKey store r).file :=
    fun x hx => (hfile x).mpr (.inl hx)
  have hnew : r ∈ load (s.recordKey store r).file := (hfile r).mpr (.inr rfl)
  refine ⟨⟨?_, ?_, h.pinned.refused⟩, ?_, ?_, ?_, ?_, ?_⟩
  · intro x hx
    rcases List.mem_append.mp hx with hinitial | hrecorded
    · exact hkeep x (h.pinned.kept x (List.mem_append_left _ hinitial))
    · rcases List.mem_cons.mp hrecorded with rfl | hrecorded
      · exact hnew
      · exact hkeep x (h.pinned.kept x (List.mem_append_right _ hrecorded))
  · intro x hx y hy hendpoint
    rcases List.mem_cons.mp hx with rfl | hxOld
    · rcases List.mem_cons.mp hy with rfl | hy
      · rfl
      · exact hsole y (h.accepted y hy) hendpoint
    · rcases List.mem_cons.mp hy with rfl | hy
      · exact (hsole x (h.accepted x (h.recorded x hxOld)) hendpoint.symm).symm
      · exact h.pinned.once x hxOld y hy hendpoint
  · intro x hx
    rcases (hfile x).mp hx with hx | rfl
    · rcases List.mem_append.mp (h.file x hx) with hinitial | hrecorded
      · exact List.mem_append_left _ hinitial
      · exact List.mem_append_right _ (List.mem_cons_of_mem _ hrecorded)
    · exact List.mem_append_right _ List.mem_cons_self
  · intro other found hfound
    change Function.update s.stores store ((s.view store).record r).records other =
      some found at hfound
    by_cases hother : other = store
    · rw [hother, Function.update_self, hrecord] at hfound
      obtain rfl := Option.some.inj hfound
      exact ⟨fun x hx => (hfile x).mpr (hentries x hx), hread⟩
    · rw [Function.update_of_ne hother] at hfound
      obtain ⟨hsubset, hinitial⟩ := h.read other found hfound
      exact ⟨fun x hx => hkeep x (hsubset x hx), hinitial⟩
  · intro x hx y hy
    rcases List.mem_cons.mp hx with rfl | hx
    · exact hfresh y hy
    · exact h.fresh x hx y hy
  · intro y hy
    rcases List.mem_cons.mp hy with rfl | hy
    · exact hnew
    · exact hkeep y (h.accepted y hy)
  · intro x hx
    rcases List.mem_cons.mp hx with rfl | hx
    · exact List.mem_cons_self
    · exact List.mem_cons_of_mem _ (h.recorded x hx)

/-- What the file holds after a key was recorded that the store had not read. -/
theorem SharedInv.mem_load_record {s : Shared} {store : Nat} {r : HostKeyRecord}
    (h : SharedInv s) (hnew : r ∉ s.entries store) (hplain : Plain r) (x : HostKeyRecord) :
    x ∈ load (s.recordKey store r).file ↔ x ∈ s.entries store ++ [r] := by
  have hfile : (s.recordKey store r).file = some (writeText (s.entries store ++ [r])) :=
    congrArg StoreState.file (StoreState.record_of_notMem (s := s.view store) hnew)
  rw [hfile]
  refine mem_load_writeText ?_ x
  intro y hy
  rcases List.mem_append.mp hy with hy | hy
  · exact plain_of_mem_load (h.entries_subset hy)
  · exact List.mem_singleton.mp hy ▸ hplain

/-- A record that meets the condition keeps the invariant. -/
theorem SharedInv.record_kept {s : Shared} {store : Nat} {p : Presented} (h : SharedInv s)
    (hfresh : ∀ y ∈ s.initial, y.endpoint ≠ p.record.endpoint)
    (hcondition : UpToDate s (.unknown store p) .record) :
    SharedInv (s.recordKey store p.record) := by
  by_cases hmem : p.record ∈ s.entries store
  · -- The key was recorded in the meantime, through the same store.
    have hload := h.entries_subset hmem
    have hrecorded := h.recorded_of_mem hload hfresh
    have hrecord := StoreState.record_of_mem (s := s.view store) hmem
    have hfile : (s.recordKey store p.record).file = s.file := congrArg StoreState.file hrecord
    refine h.recordKey hfresh ?_ (s.entries store) ?_ ?_ ?_ ?_
    · intro x hx hendpoint
      have hx' : x ∈ s.recorded := h.recorded_of_mem hx (hendpoint ▸ hfresh)
      exact (h.pinned.once x hx' p.record (h.recorded _ hrecorded) hendpoint.symm).symm
    · rw [hrecord, hfile]
      rfl
    · intro x
      rw [hfile]
      exact ⟨Or.inl, fun hx => hx.elim id fun heq => heq ▸ hload⟩
    · intro x hx
      exact Or.inl (h.entries_subset hx)
    · intro x hx
      exact h.initial_subset hx
  · obtain ⟨hhost, hsole, hread⟩ := hcondition hmem
    have hrecord := StoreState.record_of_notMem (s := s.view store) hmem
    have hfile := congrArg StoreState.file hrecord
    refine h.recordKey hfresh hsole (s.entries store ++ [p.record]) ?_ ?_ ?_ ?_
    · exact hrecord.trans (congrArg (StoreState.mk · _) hfile.symm)
    · intro x
      rw [h.mem_load_record hmem (p.plain_iff.mpr hhost), List.mem_append, List.mem_singleton]
      constructor
      · exact Or.imp_left h.entries_subset
      · intro hx
        exact hx.elim (hread x) Or.inr
    · intro x hx
      exact (List.mem_append.mp hx).imp h.entries_subset List.mem_singleton.mp
    · intro x hx
      exact List.mem_append_left _ (h.initial_subset hx)

/-! ## Steps -/

/-- A call that meets the condition keeps the invariant, for every connection. -/
theorem call_kept (c : Call) (s : Shared) (t : Connection) (s' : Shared) (t' : Connection)
    (hs : SharedInv s) (ht : ConnectionInv s t) (hcondition : UpToDate s t c)
    (h : call c s t = some (s', t')) :
    SharedInv s' ∧ ConnectionInv s' t' ∧ ∀ u, ConnectionInv s u → ConnectionInv s' u := by
  cases t with
  | idle =>
    cases c with
    | record => cases h
    | check store allowTou p =>
      simp only [call] at h
      cases hcheck : check (s.entries store) p.record with
      | trusted =>
        rw [hcheck] at h
        obtain ⟨rfl, rfl⟩ := Prod.mk.inj (Option.some.inj h)
        have hmem := check_eq_trusted_iff.mp hcheck
        have hchecked : SharedInv (s.checked store p.record false) := by
          refine hs.checked fun x hx hendpoint hne => ?_
          exact absurd (hs.eq_of_mem_entries hmem hx hendpoint.symm).symm hne
        have hentries : p.record ∈ (s.checked store p.record false).entries store := by
          rw [Shared.entries, view_checked]
          exact hmem
        exact ⟨hchecked.accept hentries, trivial, fun u hu => hu⟩
      | mismatch =>
        rw [hcheck] at h
        obtain ⟨rfl, rfl⟩ := Prod.mk.inj (Option.some.inj h)
        exact ⟨hs.checked fun _ _ _ _ => rfl, trivial, fun u hu => hu⟩
      | unknown =>
        rw [hcheck] at h
        cases allowTou with
        | false =>
          obtain ⟨rfl, rfl⟩ := Prod.mk.inj (Option.some.inj h)
          exact ⟨hs.checked fun _ _ _ _ => rfl, trivial, fun u hu => hu⟩
        | true =>
          obtain ⟨rfl, rfl⟩ := Prod.mk.inj (Option.some.inj h)
          refine ⟨hs.checked fun x hx hendpoint hne => ?_, ?_, fun u hu => hu⟩
          · have hload := hs.pinned.kept x (List.mem_append_right _ hx)
            exact absurd (hcondition rfl hcheck x hload hendpoint) hne
          · intro y hy
            exact check_eq_unknown_iff.mp hcheck y (hs.initial_subset hy)
  | unknown store p =>
    cases c with
    | check => cases h
    | record =>
      obtain ⟨rfl, rfl⟩ := Prod.mk.inj (Option.some.inj h)
      exact ⟨hs.record_kept ht hcondition, trivial, fun u hu => hu⟩

/-- A call that does not meet the condition loses a pin or accepts a second key. -/
theorem call_breaks (c : Call) (s : Shared) (t : Connection) (s' : Shared) (t' : Connection)
    (hs : SharedInv s) (ht : ConnectionInv s t) (hcondition : ¬ UpToDate s t c)
    (h : call c s t = some (s', t')) : ¬ Pinned s' := by
  intro hpinned
  cases t with
  | idle =>
    cases c with
    | record => cases h
    | check store allowTou p =>
      refine hcondition ?_
      intro hallow hcheck x hx hendpoint
      by_contra hne
      rw [hallow] at h
      simp only [call, hcheck] at h
      obtain ⟨rfl, rfl⟩ := Prod.mk.inj (Option.some.inj h)
      have hunread := check_eq_unknown_iff.mp hcheck
      have hrecorded : x ∈ s.recorded := by
        refine hs.recorded_of_mem hx fun y hy => ?_
        rw [hendpoint]
        exact hunread y (hs.initial_subset hy)
      exact nomatch hpinned.refused _ List.mem_cons_self x hrecorded hendpoint hne
  | unknown store p =>
    cases c with
    | check => cases h
    | record =>
      refine hcondition ?_
      intro hnew
      obtain ⟨rfl, rfl⟩ := Prod.mk.inj (Option.some.inj h)
      have hkept : ∀ x ∈ s.initial ++ p.record :: s.recorded,
          x ∈ load (s.recordKey store p.record).file := hpinned.kept
      have hplain : Plain p.record :=
        plain_of_mem_load (hkept _ (List.mem_append_right _ List.mem_cons_self))
      refine ⟨hplain.host, ?_, ?_⟩
      · intro x hx hendpoint
        have hrecorded := hs.recorded_of_mem hx (hendpoint ▸ ht)
        exact (hpinned.once x (List.mem_cons_of_mem _ hrecorded) p.record List.mem_cons_self
          hendpoint.symm).symm
      · intro x hx
        have hbefore : x ∈ s.initial ++ p.record :: s.recorded := by
          rcases List.mem_append.mp (hs.file x hx) with hinitial | hrecorded
          · exact List.mem_append_left _ hinitial
          · exact List.mem_append_right _ (List.mem_cons_of_mem _ hrecorded)
        have hafter := (hs.mem_load_record hnew hplain x).mp (hkept x hbefore)
        exact (List.mem_append.mp hafter).imp id List.mem_singleton.mp

/-! ## Runs -/

/-- A file, before any store has read it. -/
def Shared.start (file : Option Text) : Shared := { file := file, initial := load file }

theorem SharedInv.start (file : Option Text) : SharedInv (Shared.start file) where
  pinned :=
    { kept := fun _ hx => (List.mem_append.mp hx).elim id fun hx => absurd hx List.not_mem_nil
      once := fun _ hx => absurd hx List.not_mem_nil
      refused := fun _ hc => absurd hc List.not_mem_nil }
  file _ hx := List.mem_append_left _ hx
  read _ _ hread := nomatch hread
  fresh _ hx := absurd hx List.not_mem_nil
  accepted _ hy := absurd hy List.not_mem_nil
  recorded _ hx := absurd hx List.not_mem_nil

/--
**In every interleaving of the calls, no pin is lost and no second key accepted exactly
if each store that takes a key for unknown or records one is up to date.**
-/
theorem pinned_iff (file : Option Text) (n : Nat) (calls : List (Nat × Call))
    (c : System Shared Connection)
    (hrun : Runs.run (move call) calls (begin (Shared.start file) .idle n) = some c) :
    Runs.Always (move call) (fun c => Pinned c.shared) calls
        (begin (Shared.start file) .idle n) ↔
      Runs.Meets (move call) (Under UpToDate) calls (begin (Shared.start file) .idle n) :=
  always_iff_meets (fun _ hs => hs.pinned) call_kept call_breaks
    (holds_begin (SharedInv.start file) trivial n) hrun

/-! ## Two first connections -/

theorem validPort_ssh : 1 ≤ 22 ∧ 22 ≤ 65535 := by decide

theorem word_ed25519 : Word "ssh-ed25519" := by decide

/-- The key of a router at its usual address. -/
def ed25519Key (blob : Text) (hblob : Word blob) : Presented where
  host := "192.168.1.1"
  port := 22
  keyType := "ssh-ed25519"
  keyBlob := blob
  validPort := validPort_ssh
  typeWord := word_ed25519
  blobWord := hblob

/-- Two connections, one after the other, to which a router shows different keys. -/
def sequentialRun : List (Nat × Call) :=
  [(0, .check 0 true (ed25519Key "AAAA" (by decide))), (0, .record),
    (1, .check 1 true (ed25519Key "AAAB" (by decide)))]

/-- The second one is refused. -/
theorem sequential_first_use :
    Runs.Always (move call) (fun c => Pinned c.shared) sequentialRun
      (begin (Shared.start none) .idle 2) := by
  have hsome : (Runs.run (move call) sequentialRun
      (begin (Shared.start none) .idle 2)).isSome = true := by decide +kernel
  obtain ⟨c, hrun⟩ := Option.isSome_iff_exists.mp hsome
  exact (pinned_iff none 2 sequentialRun c hrun).mpr (by decide +kernel)

/-- When both check before either records, both keys are accepted, and the first one
is lost from the file. -/
theorem overlapping_first_use :
    ¬ ∀ (file : Option Text) (n : Nat) (calls : List (Nat × Call)) (c : System Shared Connection),
      Runs.run (move call) calls (begin (Shared.start file) .idle n) = some c →
        Pinned c.shared := by
  intro h
  have hpinned := h none 2
    [(0, .check 0 true (ed25519Key "AAAA" (by decide))),
      (1, .check 1 true (ed25519Key "AAAB" (by decide))), (0, .record), (1, .record)] _ rfl
  have hkept := hpinned.kept (ed25519Key "AAAA" (by decide)).record
    (List.mem_cons_of_mem _ List.mem_cons_self)
  exact absurd hkept (by decide +kernel)

end OpenWrtCopilot.Ports.HostKeys
