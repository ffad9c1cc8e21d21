import Mathlib.Order.Defs.Unbundled

/-!
# Computations that change a state and may raise

Python code that talks to a device changes the device's state and may leave by
an exception; whatever was changed before the exception stays changed.
`Fallible ε σ α` is that shape: a computation from a state returns either a
value or an exception, and in both cases the state it left behind.

The module supplies the sequencing laws, `try`/`except` and `try`/`finally`,
and the rules of two-state invariants: a reflexive and transitive relation that
every step respects is respected by whole computations, raised exceptions
included.

## Main results

* `bind_of_ok`, `bind_of_error` — a computation continues after a value and
  stops at an exception.
* `Respects.bind`, `Respects.attempt`, `Respects.ensuring` — the two-state
  invariant rules.
* `mapM_same_iff` — which checks give the same list.
-/

namespace OpenWrtCopilot.Verified

/-- A computation over the state `σ` that returns an `α` or raises an `ε`. -/
def Fallible (ε σ α : Type) : Type := σ → Except ε α × σ

namespace Fallible

variable {ε σ α β : Type}

/-- Return a value and leave the state alone. -/
def ret (a : α) : Fallible ε σ α := fun s => (.ok a, s)

/-- Sequencing: an exception of the first part ends the whole. -/
def andThen (m : Fallible ε σ α) (f : α → Fallible ε σ β) : Fallible ε σ β := fun s =>
  match m s with
  | (.ok a, s') => f a s'
  | (.error e, s') => (.error e, s')

instance : Monad (Fallible ε σ) where
  pure := ret
  bind := andThen

/-- `raise e`. -/
def raise (e : ε) : Fallible ε σ α := fun s => (.error e, s)

/-- Return the value of a pure check, or raise its exception. -/
def ofExcept (r : Except ε α) : Fallible ε σ α := fun s => (r, s)

/-- `try: m except Exception as e: handler(e)`. -/
def attempt (m : Fallible ε σ α) (handler : ε → Fallible ε σ α) : Fallible ε σ α := fun s =>
  match m s with
  | (.ok a, s') => (.ok a, s')
  | (.error e, s') => handler e s'

/-- `try: m finally: cleanup`, for a cleanup that only changes the state. -/
def ensuring (m : Fallible ε σ α) (cleanup : σ → σ) : Fallible ε σ α := fun s =>
  ((m s).1, cleanup (m s).2)

/-- Carry a computation out and return how it ended. -/
def outcome (m : Fallible ε σ α) : Fallible ε σ (Except ε α) := fun s => (.ok (m s).1, (m s).2)

/-- Read the state. -/
def read : Fallible ε σ σ := fun s => (.ok s, s)

/-- Change the state. -/
def modify (f : σ → σ) : Fallible ε σ Unit := fun s => (.ok (), f s)

/-! ## Sequencing -/

@[simp] theorem pure_apply (a : α) (s : σ) : (pure a : Fallible ε σ α) s = (.ok a, s) := rfl

@[simp] theorem raise_apply (e : ε) (s : σ) : (raise e : Fallible ε σ α) s = (.error e, s) := rfl

@[simp] theorem ofExcept_apply (r : Except ε α) (s : σ) :
    (ofExcept r : Fallible ε σ α) s = (r, s) := rfl

@[simp] theorem read_apply (s : σ) : (read : Fallible ε σ σ) s = (.ok s, s) := rfl

@[simp] theorem modify_apply (f : σ → σ) (s : σ) :
    (modify f : Fallible ε σ Unit) s = (.ok (), f s) := rfl

@[simp] theorem outcome_apply (m : Fallible ε σ α) (s : σ) :
    outcome m s = (.ok (m s).1, (m s).2) := rfl

@[simp] theorem ensuring_apply (m : Fallible ε σ α) (cleanup : σ → σ) (s : σ) :
    ensuring m cleanup s = ((m s).1, cleanup (m s).2) := rfl

theorem bind_of_ok {m : Fallible ε σ α} {f : α → Fallible ε σ β} {s s' : σ} {a : α}
    (h : m s = (.ok a, s')) : (m >>= f) s = f a s' := by
  change andThen m f s = f a s'
  simp only [andThen, h]

theorem bind_of_error {m : Fallible ε σ α} {f : α → Fallible ε σ β} {s s' : σ} {e : ε}
    (h : m s = (.error e, s')) : (m >>= f) s = (.error e, s') := by
  change andThen m f s = (.error e, s')
  simp only [andThen, h]

/-- Sequencing by cases on what the first part does. -/
theorem bind_apply (m : Fallible ε σ α) (f : α → Fallible ε σ β) (s : σ) :
    (m >>= f) s =
      match m s with
      | (.ok a, s') => f a s'
      | (.error e, s') => (.error e, s') := rfl

theorem map_of_ok {m : Fallible ε σ α} (f : α → β) {s s' : σ} {a : α} (h : m s = (.ok a, s')) :
    (f <$> m) s = (.ok (f a), s') :=
  bind_of_ok (f := fun a => pure (f a)) h

theorem map_of_error {m : Fallible ε σ α} (f : α → β) {s s' : σ} {e : ε}
    (h : m s = (.error e, s')) : (f <$> m) s = (.error e, s') :=
  bind_of_error (f := fun a => pure (f a)) h

/-- A sequence that returns went through a first value. -/
theorem fst_bind_eq_ok {m : Fallible ε σ α} {f : α → Fallible ε σ β} {s : σ} {b : β}
    (h : ((m >>= f) s).1 = .ok b) : ∃ a s', m s = (.ok a, s') ∧ (f a s').1 = .ok b := by
  cases hrun : m s with
  | mk result s' =>
    cases result with
    | ok a =>
      rw [bind_of_ok hrun] at h
      exact ⟨a, s', rfl, h⟩
    | error e =>
      rw [bind_of_error hrun] at h
      cases h

@[simp] theorem pure_bind_apply (a : α) (f : α → Fallible ε σ β) (s : σ) :
    ((pure a : Fallible ε σ α) >>= f) s = f a s := rfl

@[simp] theorem raise_bind_apply (e : ε) (f : α → Fallible ε σ β) (s : σ) :
    ((raise e : Fallible ε σ α) >>= f) s = (.error e, s) := rfl

@[simp] theorem read_bind_apply (f : σ → Fallible ε σ β) (s : σ) :
    ((read : Fallible ε σ σ) >>= f) s = f s s := rfl

@[simp] theorem modify_bind_apply (g : σ → σ) (f : Unit → Fallible ε σ β) (s : σ) :
    ((modify g : Fallible ε σ Unit) >>= f) s = f () (g s) := rfl

theorem ofExcept_bind_of_ok {r : Except ε α} {a : α} (h : r = .ok a)
    (f : α → Fallible ε σ β) (s : σ) : ((ofExcept r : Fallible ε σ α) >>= f) s = f a s := by
  rw [h]
  rfl

theorem ofExcept_bind_of_error {r : Except ε α} {e : ε} (h : r = .error e)
    (f : α → Fallible ε σ β) (s : σ) :
    ((ofExcept r : Fallible ε σ α) >>= f) s = (.error e, s) := by
  rw [h]
  rfl

theorem bind_bind_apply {γ : Type} (m : Fallible ε σ α) (f : α → Fallible ε σ β)
    (g : β → Fallible ε σ γ) (s : σ) :
    ((m >>= f) >>= g) s = (m >>= fun a => f a >>= g) s := by
  cases hrun : m s with
  | mk result s' =>
    cases result with
    | ok a =>
      rw [bind_apply, bind_of_ok hrun, bind_of_ok hrun]
      rfl
    | error e => rw [bind_apply, bind_of_error hrun, bind_of_error hrun]

theorem attempt_of_ok {m : Fallible ε σ α} {handler : ε → Fallible ε σ α} {s s' : σ} {a : α}
    (h : m s = (.ok a, s')) : attempt m handler s = (.ok a, s') := by
  simp only [attempt, h]

theorem attempt_of_error {m : Fallible ε σ α} {handler : ε → Fallible ε σ α} {s s' : σ} {e : ε}
    (h : m s = (.error e, s')) : attempt m handler s = handler e s' := by
  simp only [attempt, h]

/-! ## Two-state invariants -/

/-- Whatever the computation does, it takes a state only to related states. -/
def Respects (R : σ → σ → Prop) (m : Fallible ε σ α) : Prop := ∀ s, R s (m s).2

section Respects

variable {R : σ → σ → Prop}

theorem Respects.pure [Std.Refl R] (a : α) : Respects R (pure a : Fallible ε σ α) :=
  fun s => refl_of R s

theorem Respects.raise [Std.Refl R] (e : ε) : Respects R (raise e : Fallible ε σ α) :=
  fun s => refl_of R s

theorem Respects.read [Std.Refl R] : Respects R (read : Fallible ε σ σ) :=
  fun s => refl_of R s

theorem Respects.ofExcept [Std.Refl R] (r : Except ε α) :
    Respects R (ofExcept r : Fallible ε σ α) :=
  fun s => refl_of R s

theorem Respects.bind [IsTrans σ R] {m : Fallible ε σ α} {f : α → Fallible ε σ β}
    (hm : Respects R m) (hf : ∀ a, Respects R (f a)) : Respects R (m >>= f) := by
  intro s
  have hfirst := hm s
  cases hrun : m s with
  | mk result s' =>
    rw [hrun] at hfirst
    cases result with
    | ok a =>
      rw [bind_of_ok hrun]
      exact trans_of R hfirst (hf a s')
    | error e =>
      rw [bind_of_error hrun]
      exact hfirst

theorem Respects.map [Std.Refl R] [IsTrans σ R] {m : Fallible ε σ α} (hm : Respects R m)
    (f : α → β) : Respects R (f <$> m) :=
  hm.bind fun a => Respects.pure (f a)

theorem Respects.attempt [IsTrans σ R] {m : Fallible ε σ α} {handler : ε → Fallible ε σ α}
    (hm : Respects R m) (hh : ∀ e, Respects R (handler e)) :
    Respects R (Fallible.attempt m handler) := by
  intro s
  have hfirst := hm s
  cases hrun : m s with
  | mk result s' =>
    rw [hrun] at hfirst
    cases result with
    | ok a =>
      rw [attempt_of_ok hrun]
      exact hfirst
    | error e =>
      rw [attempt_of_error hrun]
      exact trans_of R hfirst (hh e s')

theorem Respects.ensuring [IsTrans σ R] {m : Fallible ε σ α} {cleanup : σ → σ}
    (hm : Respects R m) (hc : ∀ s, R s (cleanup s)) :
    Respects R (Fallible.ensuring m cleanup) :=
  fun s => trans_of R (hm s) (hc _)

theorem Respects.ite {c : Prop} [Decidable c] {m n : Fallible ε σ α}
    (hm : c → Respects R m) (hn : ¬c → Respects R n) :
    Respects R (if c then m else n) := by
  by_cases h : c
  · rw [if_pos h]
    exact hm h
  · rw [if_neg h]
    exact hn h

/-- An exception before the rest of a computation. -/
theorem Respects.raise_bind [Std.Refl R] (e : ε) (f : α → Fallible ε σ β) :
    Respects R (Fallible.raise e >>= f) :=
  fun s => refl_of R s

theorem Respects.modify {f : σ → σ} (h : ∀ s, R s (f s)) :
    Respects R (Fallible.modify f : Fallible ε σ Unit) := h

end Respects

/-- What holds of the one state holds of the other. -/
def Keeping (I : σ → Prop) (s s' : σ) : Prop := I s → I s'

instance (I : σ → Prop) : Std.Refl (Keeping I) := ⟨fun _ => id⟩

instance (I : σ → Prop) : IsTrans σ (Keeping I) := ⟨fun _ _ _ h h' => h' ∘ h⟩

end Fallible

/-! ## Checks over a list -/

theorem mapM_ok {ε α β : Type} {f : α → Except ε β} {g : α → β} {l : List α}
    (h : ∀ x ∈ l, f x = .ok (g x)) : l.mapM f = .ok (l.map g) := by
  induction l with
  | nil => rfl
  | cons x l ih =>
    obtain ⟨hx, hrest⟩ := List.forall_mem_cons.mp h
    rw [List.mapM_cons, hx, ih hrest]
    rfl

theorem mapM_cons_eq_ok {ε α β : Type} {f : α → Except ε β} {a : α} {l : List α} {bs : List β} :
    (a :: l).mapM f = .ok bs ↔ ∃ b cs, f a = .ok b ∧ l.mapM f = .ok cs ∧ bs = b :: cs := by
  rw [List.mapM_cons]
  cases f a with
  | error e => simp [bind, Except.bind]
  | ok b =>
    cases l.mapM f with
    | error e => simp [bind, Except.bind]
    | ok cs => simp [bind, Except.bind, pure, Except.pure, eq_comm]

/-- A second function maps to the same list exactly if it agrees with the first one. -/
theorem mapM_same_iff {ε α β : Type} {f g : α → Except ε β} {l : List α} {bs : List β}
    (hf : l.mapM f = .ok bs) : l.mapM g = .ok bs ↔ ∀ a ∈ l, g a = f a := by
  induction l generalizing bs with
  | nil => exact iff_of_true hf nofun
  | cons a l ih =>
    obtain ⟨b, cs, hb, hcs, rfl⟩ := mapM_cons_eq_ok.mp hf
    rw [mapM_cons_eq_ok, List.forall_mem_cons, hb, ← ih hcs]
    constructor
    · rintro ⟨_, _, hfirst, hrest, ⟨rfl, rfl⟩⟩
      exact ⟨hfirst, hrest⟩
    · intro ⟨hfirst, hrest⟩
      exact ⟨b, cs, hfirst, hrest, rfl⟩

theorem mapM_member {ε α β : Type} {f : α → Except ε β} {l : List α} {bs : List β}
    (h : l.mapM f = .ok bs) {a : α} (ha : a ∈ l) : ∃ b, f a = .ok b := by
  induction l generalizing bs with
  | nil => cases ha
  | cons a l ih =>
    obtain ⟨b, cs, hb, hcs, rfl⟩ := mapM_cons_eq_ok.mp h
    cases ha with
    | head => exact ⟨b, hb⟩
    | tail _ ha => exact ih hcs ha

end OpenWrtCopilot.Verified
