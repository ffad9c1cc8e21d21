import Mathlib.Order.Lattice
import OpenWrtCopilot.Verified.PyDict

/-!
# Stores whose entries expire

A store maps keys to values with the times at which they expire.  What was set and dropped is
written down as events, the latest one first; the log says which value a key has.  A store tracks
a log up to a time if it has the values of the log, except some that have expired.

## Main results

* `Tracks.set`, `Tracks.drop`, `Tracks.prune` — a store that is changed tracks the events.
* `Tracks.live` — from that time on, store and log have the same values.
-/

namespace OpenWrtCopilot.Verified.ExpiringStore

open Verified.PyDict (Dict get? keys)

variable {κ α T : Type} [DecidableEq κ] [LinearOrder T]

/-! ## Events -/

inductive Event (κ α T : Type)
  | set (key : κ) (expires : T) (value : α)
  | drop (gone : κ → Bool)

/-- The value that was last set under the key and not dropped since. -/
def current (key : κ) : List (Event κ α T) → Option (T × α)
  | [] => none
  | .set other expires value :: earlier =>
      if other = key then some (expires, value) else current key earlier
  | .drop gone :: earlier => if gone key = true then none else current key earlier

/-- The value of an entry that has not expired. -/
def live (now : T) (entry : Option (T × α)) : Option α :=
  (entry.filter fun entry => now < entry.1).map Prod.snd

/-- The store has the values of the log, but for some that expired by a time. -/
structure Tracks (store : Dict κ (T × α)) (log : List (Event κ α T)) (now : T) : Prop where
  nodup : (keys store).Nodup
  sound : ∀ key entry, get? key store = some entry → current key log = some entry
  complete : ∀ key entry, current key log = some entry → get? key store = none → entry.1 ≤ now

/-! ## Rules -/

theorem Tracks.nil (now : T) : Tracks ([] : Dict κ (T × α)) [] now where
  nodup := List.nodup_nil
  sound := nofun
  complete := nofun

/-- From that time on, store and log have the same values. -/
theorem Tracks.live {store : Dict κ (T × α)} {log : List (Event κ α T)} {now later : T}
    (h : Tracks store log now) (hle : now ≤ later) (key : κ) :
    live later (get? key store) = live later (current key log) := by
  cases hget : get? key store with
  | some entry => rw [h.sound key entry hget]
  | none =>
    cases hcurrent : current key log with
    | none => rfl
    | some entry =>
      have hexpired : ¬later < entry.1 :=
        not_lt.mpr (le_trans (h.complete key entry hcurrent hget) hle)
      rw [ExpiringStore.live, ExpiringStore.live, Option.filter_none, Option.filter_some,
        if_neg (by simpa using hexpired)]

theorem Tracks.set {store : Dict κ (T × α)} {log : List (Event κ α T)} {now : T}
    (h : Tracks store log now) (key : κ) (expires : T) (value : α) :
    Tracks (PyDict.set key (expires, value) store) (.set key expires value :: log) now := by
  refine ⟨PyDict.nodup_keys_set h.nodup _ _, fun other entry hget => ?_,
    fun other entry hcurrent hnone => ?_⟩
  · rw [current]
    split
    · next hkey =>
        rw [← hkey, PyDict.get?_set_self] at hget
        exact hget
    · next hkey =>
        rw [PyDict.get?_set_of_ne (Ne.symm hkey)] at hget
        exact h.sound other entry hget
  · by_cases hkey : key = other
    · rw [← hkey, PyDict.get?_set_self] at hnone
      cases hnone
    · rw [current, if_neg hkey] at hcurrent
      rw [PyDict.get?_set_of_ne (Ne.symm hkey)] at hnone
      exact h.complete other entry hcurrent hnone

omit [DecidableEq κ] [LinearOrder T] in
theorem nodup_keys_filter {d : Dict κ (T × α)} (h : (keys d).Nodup) (p : κ × (T × α) → Bool) :
    (keys (d.filter p)).Nodup :=
  h.sublist (List.filter_sublist.map Prod.fst)

theorem Tracks.drop {store : Dict κ (T × α)} {log : List (Event κ α T)} {now : T}
    (h : Tracks store log now) (gone : κ → Bool) :
    Tracks (store.filter fun entry => !gone entry.1) (.drop gone :: log) now := by
  have hget (key : κ) : get? key (store.filter fun entry => !gone entry.1) =
      if gone key = true then none else get? key store := by
    rw [PyDict.get?_filter fun key => !gone key]
    cases gone key <;> rfl
  refine ⟨nodup_keys_filter h.nodup _, fun key entry hsome => ?_,
    fun key entry hcurrent hnone => ?_⟩
  · rw [hget] at hsome
    rw [current]
    split
    · next hgone =>
        rw [if_pos hgone] at hsome
        cases hsome
    · next hgone =>
        rw [if_neg hgone] at hsome
        exact h.sound key entry hsome
  · rw [current] at hcurrent
    rw [hget] at hnone
    split at hcurrent
    · cases hcurrent
    · next hgone =>
        rw [if_neg hgone] at hnone
        exact h.complete key entry hcurrent hnone

/-- What has expired may go. -/
theorem Tracks.prune {store : Dict κ (T × α)} {log : List (Event κ α T)} {now later : T}
    (h : Tracks store log now) (hle : now ≤ later) {kept : κ × (T × α) → Bool}
    (hkept : ∀ entry ∈ store, kept entry = false → entry.2.1 ≤ later) :
    Tracks (store.filter kept) log later := by
  have hnodup := nodup_keys_filter h.nodup kept
  refine ⟨hnodup, fun key entry hget => ?_, fun key entry hcurrent hnone => ?_⟩
  · have hmem := List.mem_of_mem_filter (PyDict.mem_of_get? hget)
    exact h.sound key entry ((PyDict.get?_eq_some_iff h.nodup).mpr hmem)
  · cases hget : get? key store with
    | none => exact le_trans (h.complete key entry hcurrent hget) hle
    | some stored =>
      have hsame := h.sound key stored hget
      rw [hcurrent] at hsame
      obtain rfl := Option.some.inj hsame
      have hmem := PyDict.mem_of_get? hget
      refine hkept (key, entry) hmem (Bool.eq_false_iff.mpr fun hkeep => ?_)
      have hstays := (PyDict.get?_eq_some_iff hnodup).mpr (List.mem_filter.mpr ⟨hmem, hkeep⟩)
      rw [hnone] at hstays
      cases hstays

end OpenWrtCopilot.Verified.ExpiringStore
