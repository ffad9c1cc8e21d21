import Mathlib.Data.List.Nodup
import Mathlib.Data.List.Perm.Basic

/-!
# Bounded pools

A pool lends items under permits.  There is a fixed number of permits; whoever
holds one may take an item that lies idle, or, when none does, make a new one.

A `Ledger` records the permits that are free and those that are taken, and the items
that lie idle and those that are held.  `Sound` says that items are never counted
twice and that there are never more of them than permits.  An item is held only
under a permit, which is the hypothesis of `Sound.make`; the other steps are sound
whatever they are done for.

## Main results

* `Sound.take`, `Sound.make`, `Sound.put`, `Sound.drop` — the steps on items.
* `Sound.enter`, `Sound.leave`, `Sound.lose` — those on permits.
-/

namespace OpenWrtCopilot.Verified.Leases

open List (Perm)

variable {R : Type}

structure Ledger (R : Type) where
  free : Nat
  taken : Nat
  idle : List R
  held : List R

/-- No item is counted twice, and the items are no more than the permits. -/
structure Sound (capacity : Nat) (l : Ledger R) : Prop where
  permits : l.free + l.taken ≤ capacity
  room : l.idle.length + l.held.length ≤ capacity
  distinct : (l.idle ++ l.held).Nodup

variable {capacity free taken : Nat} {idle held held' : List R} {x : R}

/-- An unused pool. -/
theorem sound_empty (capacity : Nat) : Sound (R := R) capacity ⟨capacity, 0, [], []⟩ :=
  ⟨Nat.le_refl _, Nat.zero_le _, List.nodup_nil⟩

/-- The order of what is held does not matter. -/
theorem Sound.perm (h : Sound capacity ⟨free, taken, idle, held⟩) (hperm : Perm held held') :
    Sound capacity ⟨free, taken, idle, held'⟩ where
  permits := h.permits
  room := hperm.length_eq ▸ h.room
  distinct := ((List.Perm.refl idle).append hperm).nodup_iff.mp h.distinct

/-! ## Permits -/

theorem Sound.enter (h : Sound capacity ⟨free + 1, taken, idle, held⟩) :
    Sound capacity ⟨free, taken + 1, idle, held⟩ where
  permits := by
    have hpermits : free + 1 + taken ≤ capacity := h.permits
    show free + (taken + 1) ≤ capacity
    omega
  room := h.room
  distinct := h.distinct

theorem Sound.leave (h : Sound capacity ⟨free, taken + 1, idle, held⟩) :
    Sound capacity ⟨free + 1, taken, idle, held⟩ where
  permits := by
    have hpermits : free + (taken + 1) ≤ capacity := h.permits
    show free + 1 + taken ≤ capacity
    omega
  room := h.room
  distinct := h.distinct

/-- A permit that is not given back. -/
theorem Sound.lose (h : Sound capacity ⟨free, taken + 1, idle, held⟩) :
    Sound capacity ⟨free, taken, idle, held⟩ where
  permits := Nat.le_of_succ_le h.permits
  room := h.room
  distinct := h.distinct

/-! ## Items -/

/-- An idle item is taken. -/
theorem Sound.take (h : Sound capacity ⟨free, taken, x :: idle, held⟩) :
    Sound capacity ⟨free, taken, idle, x :: held⟩ where
  permits := h.permits
  room := by
    have hroom : idle.length + 1 + held.length ≤ capacity := h.room
    show idle.length + (held.length + 1) ≤ capacity
    omega
  distinct := List.perm_middle.nodup_iff.mpr h.distinct

/-- A held item is put back. -/
theorem Sound.put (h : Sound capacity ⟨free, taken, idle, x :: held⟩) :
    Sound capacity ⟨free, taken, idle ++ [x], held⟩ where
  permits := h.permits
  room := by
    have hroom : idle.length + (held.length + 1) ≤ capacity := h.room
    show (idle ++ [x]).length + held.length ≤ capacity
    rw [List.length_append, List.length_singleton]
    omega
  distinct := by
    show (idle ++ [x] ++ held).Nodup
    rw [List.append_assoc]
    exact h.distinct

/-- A held item is given up. -/
theorem Sound.drop (h : Sound capacity ⟨free, taken, idle, x :: held⟩) :
    Sound capacity ⟨free, taken, idle, held⟩ where
  permits := h.permits
  room := by
    have hroom : idle.length + (held.length + 1) ≤ capacity := h.room
    show idle.length + held.length ≤ capacity
    omega
  distinct := (List.perm_middle.nodup_iff.mp h.distinct).of_cons

/-- An idle item is given up. -/
theorem Sound.discard (h : Sound capacity ⟨free, taken, x :: idle, held⟩) :
    Sound capacity ⟨free, taken, idle, held⟩ :=
  h.take.drop

/-- With no idle item, a new one is made under a permit that holds none. -/
theorem Sound.make (h : Sound capacity ⟨free, taken, [], held⟩) (hpermit : held.length < taken)
    (hnew : x ∉ held) : Sound capacity ⟨free, taken, [], x :: held⟩ where
  permits := h.permits
  room := by
    have hpermits : free + taken ≤ capacity := h.permits
    show 0 + (held.length + 1) ≤ capacity
    omega
  distinct := List.nodup_cons.mpr ⟨hnew, h.distinct⟩

/-! ## Consequences -/

theorem Sound.held_nodup (h : Sound capacity ⟨free, taken, idle, held⟩) : held.Nodup :=
  (List.nodup_append.mp h.distinct).2.1

/-- What is held does not lie idle. -/
theorem Sound.notMem_idle (h : Sound capacity ⟨free, taken, idle, held⟩) (hx : x ∈ held) :
    x ∉ idle :=
  fun hidle => (List.nodup_append.mp h.distinct).2.2 x hidle x hx rfl

end OpenWrtCopilot.Verified.Leases
