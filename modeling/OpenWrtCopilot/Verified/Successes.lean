import OpenWrtCopilot.Verified.Fallible

/-!
# Computations that succeed

`Succeeds` says of a computation that may raise that it returns a value.  A sequence succeeds
exactly if its parts do, where no part's success depends on the values before it.

## Main results

* `succeeds_bind_iff`, `succeeds_mapM` — sequences and loops.
-/

namespace OpenWrtCopilot.Verified

variable {ε α β : Type}

/-- The computation returns a value. -/
def Succeeds (m : Except ε α) : Prop := ∃ a, m = .ok a

@[simp] theorem succeeds_ok (a : α) : Succeeds (.ok a : Except ε α) := ⟨a, rfl⟩

@[simp] theorem succeeds_pure (a : α) : Succeeds (pure a : Except ε α) := ⟨a, rfl⟩

@[simp] theorem not_succeeds_error (e : ε) : ¬Succeeds (.error e : Except ε α) := nofun

/-- A sequence whose second part succeeds under a condition that its first value has no part
in. -/
theorem succeeds_bind_iff {m : Except ε α} {f : α → Except ε β} {P : Prop}
    (h : ∀ a, m = .ok a → (Succeeds (f a) ↔ P)) : Succeeds (m >>= f) ↔ Succeeds m ∧ P := by
  cases m with
  | error e => exact iff_of_false nofun fun hboth => not_succeeds_error e hboth.1
  | ok a => exact (h a rfl).trans (and_iff_right (succeeds_ok a)).symm

theorem bind_eq_ok {m : Except ε α} {f : α → Except ε β} {b : β} :
    (m >>= f) = .ok b ↔ ∃ a, m = .ok a ∧ f a = .ok b := by
  cases m with
  | error e => exact iff_of_false nofun nofun
  | ok a => exact ⟨fun h => ⟨a, rfl, h⟩, fun ⟨_, ha, h⟩ => Except.ok.inj ha ▸ h⟩

@[simp] theorem succeeds_bind_pure_iff {m : Except ε α} (f : α → β) :
    Succeeds (m >>= fun a => pure (f a)) ↔ Succeeds m := by
  cases m with
  | error e => exact iff_of_false nofun nofun
  | ok a => exact iff_of_true ⟨_, rfl⟩ ⟨_, rfl⟩

@[simp] theorem succeeds_map_iff {m : Except ε α} (f : α → β) :
    Succeeds (f <$> m) ↔ Succeeds m := by
  cases m with
  | error e => exact iff_of_false nofun nofun
  | ok a => exact iff_of_true ⟨_, rfl⟩ ⟨_, rfl⟩

theorem succeeds_mapM {f : α → Except ε β} (l : List α) :
    Succeeds (l.mapM f) ↔ ∀ a ∈ l, Succeeds (f a) := by
  induction l with
  | nil => exact iff_of_true ⟨_, rfl⟩ nofun
  | cons a l ih =>
    rw [List.mapM_cons, List.forall_mem_cons, ← ih]
    refine succeeds_bind_iff fun b _ => ?_
    cases l.mapM f with
    | error e => exact iff_of_false nofun nofun
    | ok bs => exact iff_of_true ⟨_, rfl⟩ ⟨_, rfl⟩

theorem mem_of_mapM_ok {f : α → Except ε β} {l : List α} {bs : List β} (h : l.mapM f = .ok bs)
    {a : α} (ha : a ∈ l) : ∃ b ∈ bs, f a = .ok b := by
  induction l generalizing bs with
  | nil => cases ha
  | cons c l ih =>
    obtain ⟨b, cs, hb, hcs, rfl⟩ := mapM_cons_eq_ok.mp h
    obtain rfl | hrest := List.mem_cons.mp ha
    · exact ⟨b, List.mem_cons_self, hb⟩
    · obtain ⟨d, hd, hfd⟩ := ih hcs hrest
      exact ⟨d, List.mem_cons_of_mem b hd, hfd⟩

/-- Each result is that of an element. -/
theorem exists_of_mapM_ok {f : α → Except ε β} {l : List α} {bs : List β} (h : l.mapM f = .ok bs)
    {b : β} (hb : b ∈ bs) : ∃ a ∈ l, f a = .ok b := by
  induction l generalizing bs with
  | nil =>
    obtain rfl := Except.ok.inj h
    cases hb
  | cons c l ih =>
    obtain ⟨d, cs, hd, hcs, rfl⟩ := mapM_cons_eq_ok.mp h
    obtain rfl | hrest := List.mem_cons.mp hb
    · exact ⟨c, List.mem_cons_self, hd⟩
    · obtain ⟨a, ha, hfa⟩ := ih hcs hrest
      exact ⟨a, List.mem_cons_of_mem c ha, hfa⟩

/-- What is kept of each element is kept of the list. -/
theorem map_of_mapM_ok {γ : Type} {f : α → Except ε β} {p : α → γ} {q : β → γ}
    (h : ∀ a b, f a = .ok b → q b = p a) {l : List α} {bs : List β} (hl : l.mapM f = .ok bs) :
    bs.map q = l.map p := by
  induction l generalizing bs with
  | nil =>
    obtain rfl := Except.ok.inj hl
    rfl
  | cons a l ih =>
    obtain ⟨b, cs, hb, hcs, rfl⟩ := mapM_cons_eq_ok.mp hl
    rw [List.map_cons, List.map_cons, h a b hb, ih hcs]

/-- A computation that is only done where there is a value. -/
def whenSome (f : α → Except ε β) : Option α → Except ε (Option β)
  | none => .ok none
  | some a => some <$> f a

theorem succeeds_whenSome {f : α → Except ε β} (o : Option α) :
    Succeeds (whenSome f o) ↔ ∀ a ∈ o, Succeeds (f a) := by
  cases o with
  | none => exact iff_of_true ⟨_, rfl⟩ nofun
  | some a =>
    rw [whenSome, succeeds_map_iff]
    exact ⟨fun h b hb => Option.some.inj hb ▸ h, fun h => h a rfl⟩

theorem map_of_whenSome_ok {γ : Type} {f : α → Except ε β} {p : α → γ} {q : β → γ}
    (h : ∀ a b, f a = .ok b → q b = p a) {o : Option α} {ob : Option β}
    (ho : whenSome f o = .ok ob) : ob.map q = o.map p := by
  cases o with
  | none =>
    obtain rfl := Except.ok.inj ho
    rfl
  | some a =>
    rw [whenSome] at ho
    cases hf : f a with
    | error e =>
      rw [hf] at ho
      cases ho
    | ok b =>
      rw [hf] at ho
      obtain rfl := Except.ok.inj ho
      rw [Option.map_some, Option.map_some, h a b hf]

end OpenWrtCopilot.Verified
