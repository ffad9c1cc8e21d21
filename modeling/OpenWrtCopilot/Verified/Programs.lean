import OpenWrtCopilot.Verified.Fallible

/-!
# Programs that talk to a device

A program sends commands to a device, reads and writes a scratch state, and returns
a value or raises.  It goes on after an answer whatever the answer is, so that the
tree says what the program does against every device; a failed command is an answer
like the others, until the program lets it out.

`exec` runs a program against a device and keeps a log of the commands and their
answers.

## Main results

* `exec_bind`, `exec_outcome` — a sequence, and a program whose exception is caught.
* `Returns.bind`, `Returns.outcome` — the rules for what a program returns against every device.
-/

namespace OpenWrtCopilot.Verified

/-- A program over the scratch state `S`, with exceptions `E`, commands `C` and their
answers `A`. -/
inductive Program (S E C A α : Type)
  | ret (a : α)
  | raise (e : E)
  | run (command : C) (next : Except E A → Program S E C A α)
  | read (next : S → Program S E C A α)
  | write (s : S) (next : Program S E C A α)

namespace Program

variable {S E C A D α β : Type}

def bind : Program S E C A α → (α → Program S E C A β) → Program S E C A β
  | .ret a, f => f a
  | .raise e, _ => .raise e
  | .run command next, f => .run command fun answer => (next answer).bind f
  | .read next, f => .read fun s => (next s).bind f
  | .write s next, f => .write s (next.bind f)

instance : Monad (Program S E C A) where
  pure := .ret
  bind := bind

/-- `try: value = p except Exception as e: ...`: the value or the exception. -/
def outcome : Program S E C A α → Program S E C A (Except E α)
  | .ret a => .ret (.ok a)
  | .raise e => .ret (.error e)
  | .run command next => .run command fun answer => (next answer).outcome
  | .read next => .read fun s => (next s).outcome
  | .write s next => .write s next.outcome

/-- Return the value of a pure computation, or raise its exception. -/
def ofExcept : Except E α → Program S E C A α
  | .ok a => .ret a
  | .error e => .raise e

/-- The scratch state. -/
def scratch : Program S E C A S := .read .ret

/-- Change the scratch state. -/
def update (f : S → S) : Program S E C A Unit := .read fun s => .write (f s) (.ret ())

/-! ## Execution -/

/-- A device, the scratch state, and the commands that were sent so far. -/
structure Machine (S E C A D : Type) where
  device : D
  scratch : S
  log : List (C × Except E A) := []

/-- Run a program against a device that answers as `answer` says. -/
def exec (answer : C → D → Except E A × D) :
    Program S E C A α → Fallible E (Machine S E C A D) α
  | .ret a => fun m => (.ok a, m)
  | .raise e => fun m => (.error e, m)
  | .run command next => fun m =>
      let (result, device) := answer command m.device
      exec answer (next result)
        { m with device := device, log := m.log ++ [(command, result)] }
  | .read next => fun m => exec answer (next m.scratch) m
  | .write s next => fun m => exec answer next { m with scratch := s }

variable {answer : C → D → Except E A × D}

@[simp] theorem exec_ret (a : α) (m : Machine S E C A D) :
    exec answer (.ret a : Program S E C A α) m = (.ok a, m) := rfl

@[simp] theorem exec_pure (a : α) (m : Machine S E C A D) :
    exec answer (pure a : Program S E C A α) m = (.ok a, m) := rfl

@[simp] theorem exec_raise (e : E) (m : Machine S E C A D) :
    exec answer (.raise e : Program S E C A α) m = (.error e, m) := rfl

@[simp] theorem exec_scratch (m : Machine S E C A D) :
    exec answer (scratch : Program S E C A S) m = (.ok m.scratch, m) := rfl

@[simp] theorem exec_update (f : S → S) (m : Machine S E C A D) :
    exec answer (update f : Program S E C A Unit) m =
      (.ok (), { m with scratch := f m.scratch }) := rfl

/-- A sequence runs its parts one after the other, and ends with the exception of the
first. -/
theorem exec_bind (p : Program S E C A α) (f : α → Program S E C A β) (m : Machine S E C A D) :
    exec answer (p >>= f) m =
      match exec answer p m with
      | (.ok a, m') => exec answer (f a) m'
      | (.error e, m') => (.error e, m') := by
  change exec answer (p.bind f) m = _
  induction p generalizing m with
  | ret a => rfl
  | raise e => rfl
  | run command next ih => exact ih _ _
  | read next ih => exact ih _ _
  | write s next ih => exact ih _

theorem exec_bind_of_ok {p : Program S E C A α} {f : α → Program S E C A β}
    {m m' : Machine S E C A D} {a : α} (h : exec answer p m = (.ok a, m')) :
    exec answer (p >>= f) m = exec answer (f a) m' := by
  rw [exec_bind, h]

theorem exec_bind_of_error {p : Program S E C A α} {f : α → Program S E C A β}
    {m m' : Machine S E C A D} {e : E} (h : exec answer p m = (.error e, m')) :
    exec answer (p >>= f) m = (.error e, m') := by
  rw [exec_bind, h]

/-- An exception that is caught leaves everything else as it is. -/
theorem exec_outcome (p : Program S E C A α) (m : Machine S E C A D) :
    exec answer p.outcome m = (.ok (exec answer p m).1, (exec answer p m).2) := by
  induction p generalizing m with
  | ret a => rfl
  | raise e => rfl
  | run command next ih => exact ih _ _
  | read next ih => exact ih _ _
  | write s next ih => exact ih _

/-! ## What a program returns -/

/-- Whatever the device answers and the scratch state is, a value that is returned
satisfies the condition. -/
def Returns (P : α → Prop) : Program S E C A α → Prop
  | .ret a => P a
  | .raise _ => True
  | .run _ next => ∀ answer, (next answer).Returns P
  | .read next => ∀ s, (next s).Returns P
  | .write _ next => next.Returns P

variable {P : α → Prop} {Q : β → Prop}

theorem returns_true (p : Program S E C A α) : p.Returns fun _ => True := by
  induction p with
  | ret a => trivial
  | raise e => trivial
  | run command next ih => exact ih
  | read next ih => exact ih
  | write s next ih => exact ih

theorem Returns.bind {p : Program S E C A α} {f : α → Program S E C A β} (hp : p.Returns P)
    (hf : ∀ a, P a → (f a).Returns Q) : (p >>= f).Returns Q := by
  change (p.bind f).Returns Q
  induction p with
  | ret a => exact hf a hp
  | raise e => trivial
  | run command next ih => exact fun answer => ih answer (hp answer)
  | read next ih => exact fun s => ih s (hp s)
  | write s next ih => exact ih hp

end Program

end OpenWrtCopilot.Verified
