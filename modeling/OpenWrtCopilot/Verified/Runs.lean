import Mathlib.Data.List.Basic

/-!
# Runs of an executable step function

A system given by a step function `α → σ → Option σ`, which is `none` where the
action is not possible.  A run is a list of actions; `Meets C` says that every
step of a run is taken under the condition `C`, which may look at the state
before the step and at the action.

## Main results

* `run_invariant` — an invariant that every step taken under the condition
  preserves holds at the end of every run that meets it; `run_keeps` where there is
  no condition.
* `run_append` — runs are joined.
* `meets_iff` — conditions that agree under an invariant are met by the same runs.
* `always_iff_meets` — when a property holds all along a run exactly if every
  step meets the condition.
* `safely_iff_meets` — the same where steps that fail the condition may also be impossible.
-/

namespace OpenWrtCopilot.Verified.Runs

variable {α σ : Type}

/-- The state a list of actions leads to. -/
def run (step : α → σ → Option σ) : List α → σ → Option σ
  | [], s => some s
  | a :: as, s => (step a s).bind (run step as)

/-- Every step of the run is taken under the condition. -/
def Meets (step : α → σ → Option σ) (C : σ → α → Prop) : List α → σ → Prop
  | [], _ => True
  | a :: as, s => C s a ∧ ∀ s', step a s = some s' → Meets step C as s'

variable {step : α → σ → Option σ} {C : σ → α → Prop}

theorem run_cons_eq_some {a : α} {as : List α} {s t : σ}
    (h : run step (a :: as) s = some t) : ∃ s', step a s = some s' ∧ run step as s' = some t :=
  Option.bind_eq_some_iff.mp h

/-- Whether a run meets a decidable condition can be computed. -/
instance decidableMeets [∀ s a, Decidable (C s a)] :
    (as : List α) → (s : σ) → Decidable (Meets step C as s)
  | [], _ => .isTrue trivial
  | a :: as, s =>
      have _ : Decidable (∀ s', step a s = some s' → Meets step C as s') :=
        match step a s with
        | none => .isTrue nofun
        | some t =>
            have : Decidable (Meets step C as t) := decidableMeets as t
            decidable_of_iff (Meets step C as t)
              ⟨fun h _ heq => Option.some.inj heq ▸ h, fun h => h t rfl⟩
      inferInstanceAs (Decidable (C s a ∧ _))

/-- A run of joined lists goes on from where the first one ends. -/
theorem run_append {as : List α} {s t : σ} (has : run step as s = some t) (bs : List α) :
    run step (as ++ bs) s = run step bs t := by
  induction as generalizing s with
  | nil =>
    have hst : s = t := Option.some.inj has
    rw [List.nil_append, hst]
  | cons a as ih =>
    obtain ⟨s', hstep, hrest⟩ := run_cons_eq_some has
    rw [List.cons_append, run, hstep, Option.bind_some]
    exact ih hrest

/-- What follows a run meets the condition from where the run ends. -/
theorem Meets.after {as bs : List α} {s t : σ} (h : Meets step C (as ++ bs) s)
    (hrun : run step as s = some t) : Meets step C bs t := by
  induction as generalizing s with
  | nil =>
    have hst : s = t := Option.some.inj hrun
    exact hst ▸ h
  | cons a as ih =>
    obtain ⟨s', hstep, hrest⟩ := run_cons_eq_some hrun
    exact ih (h.2 s' hstep) hrest

/-- A condition on the actions alone joins the condition on the steps. -/
theorem meets_and {Q : α → Prop} {as : List α} {s : σ} (h : Meets step C as s)
    (hQ : ∀ a ∈ as, Q a) : Meets step (fun s a => C s a ∧ Q a) as s := by
  induction as generalizing s with
  | nil => trivial
  | cons a as ih =>
    obtain ⟨hfirst, hlater⟩ := h
    refine ⟨⟨hfirst, hQ a List.mem_cons_self⟩, ?_⟩
    intro s' hs'
    exact ih (hlater s' hs') fun b hb => hQ b (List.mem_cons_of_mem a hb)

/-- From one condition to another, through an invariant of the steps under the first. -/
theorem Meets.imp {I : σ → Prop} {D : σ → α → Prop}
    (hstep : ∀ s a s', I s → C s a → step a s = some s' → I s')
    (hcondition : ∀ s a, I s → C s a → D s a) {as : List α} {s : σ} (h : Meets step C as s)
    (hs : I s) : Meets step D as s := by
  induction as generalizing s with
  | nil => trivial
  | cons a as ih =>
    obtain ⟨hfirst, hlater⟩ := h
    refine ⟨hcondition s a hs hfirst, ?_⟩
    intro s' hs'
    exact ih (hlater s' hs') (hstep s a s' hs hfirst hs')

/-- Two conditions that agree wherever an invariant of the steps under them holds are met
by the same runs. -/
theorem meets_iff {I : σ → Prop} {D : σ → α → Prop}
    (hstep : ∀ s a s', I s → C s a → step a s = some s' → I s')
    (hagree : ∀ s a, I s → (C s a ↔ D s a)) {as : List α} {s : σ} (hs : I s) :
    Meets step C as s ↔ Meets step D as s := by
  constructor
  · intro hmeets
    exact hmeets.imp hstep (fun s a hs => (hagree s a hs).mp) hs
  · intro hmeets
    refine hmeets.imp ?_ (fun s a hs => (hagree s a hs).mpr) hs
    exact fun s a s' hs hD => hstep s a s' hs ((hagree s a hs).mpr hD)

/-- A condition on the actions alone. -/
theorem meets_of_forall {Q : α → Prop} {as : List α} (h : ∀ a ∈ as, Q a) (s : σ) :
    Meets step (fun _ a => Q a) as s := by
  induction as generalizing s with
  | nil => trivial
  | cons a as ih =>
    refine ⟨h a List.mem_cons_self, ?_⟩
    intro s' _
    exact ih (fun b hb => h b (List.mem_cons_of_mem a hb)) s'

/-- On a run, that condition is met exactly if all actions satisfy it. -/
theorem meets_iff_forall {Q : α → Prop} {as : List α} {s t : σ} (hrun : run step as s = some t) :
    Meets step (fun _ a => Q a) as s ↔ ∀ a ∈ as, Q a := by
  refine ⟨fun hmeets => ?_, fun h => meets_of_forall h s⟩
  induction as generalizing s with
  | nil => exact nofun
  | cons a as ih =>
    obtain ⟨s', hfirst, hrest⟩ := run_cons_eq_some hrun
    exact List.forall_mem_cons.mpr ⟨hmeets.1, ih hrest (hmeets.2 s' hfirst)⟩

/-- What an invariant implies of every step is met by every run. -/
theorem meets_of_keeps {I : σ → Prop} (hstep : ∀ s a s', I s → step a s = some s' → I s')
    (hcondition : ∀ s a, I s → C s a) (as : List α) {s : σ} (hs : I s) : Meets step C as s :=
  (meets_of_forall (Q := fun _ => True) (fun _ _ => trivial) s).imp
    (fun s a s' hs _ => hstep s a s' hs) (fun s a hs _ => hcondition s a hs) hs

/-- The invariant rule for runs under a condition. -/
theorem run_invariant {I : σ → Prop}
    (hstep : ∀ s a s', I s → C s a → step a s = some s' → I s') {as : List α} {s t : σ}
    (hs : I s) (hmeets : Meets step C as s) (hrun : run step as s = some t) : I t := by
  induction as generalizing s with
  | nil =>
    have hst : s = t := Option.some.inj hrun
    rw [← hst]
    exact hs
  | cons a as ih =>
    obtain ⟨s', hfirst, hrest⟩ := run_cons_eq_some hrun
    exact ih (hstep s a s' hs hmeets.1 hfirst) (hmeets.2 s' hfirst) hrest

/-- The invariant rule for runs without a condition. -/
theorem run_keeps {I : σ → Prop} (hstep : ∀ s a s', I s → step a s = some s' → I s')
    {as : List α} {s t : σ} (hs : I s) (hrun : run step as s = some t) : I t := by
  induction as generalizing s with
  | nil => exact Option.some.inj hrun ▸ hs
  | cons a as ih =>
    obtain ⟨s', hfirst, hrest⟩ := run_cons_eq_some hrun
    exact ih (hstep s a s' hs hfirst) hrest

/-- Where every action is possible in every state, every list of actions is a run. -/
theorem run_total (htotal : ∀ a s, ∃ s', step a s = some s') (as : List α) (s : σ) :
    ∃ t, run step as s = some t := by
  induction as generalizing s with
  | nil => exact ⟨s, rfl⟩
  | cons a as ih =>
    obtain ⟨s', hstep⟩ := htotal a s
    obtain ⟨t, hrest⟩ := ih s'
    exact ⟨t, Option.bind_eq_some_iff.mpr ⟨s', hstep, hrest⟩⟩

/-- The property holds in every state a run goes through. -/
def Always (step : α → σ → Option σ) (P : σ → Prop) : List α → σ → Prop
  | [], s => P s
  | a :: as, s => P s ∧ ∀ s', step a s = some s' → Always step P as s'

theorem Always.head {P : σ → Prop} {as : List α} {s : σ} (h : Always step P as s) : P s := by
  cases as with
  | nil => exact h
  | cons a as => exact h.1

/-- What holds all along a run holds where it ends. -/
theorem Always.last {P : σ → Prop} {as : List α} {s t : σ} (h : Always step P as s)
    (hrun : run step as s = some t) : P t := by
  induction as generalizing s with
  | nil => exact Option.some.inj hrun ▸ h
  | cons a as ih =>
    obtain ⟨s', hfirst, hrest⟩ := run_cons_eq_some hrun
    exact ih (h.2 s' hfirst) hrest

/-- What an invariant of the steps under a condition implies holds all along a run that meets
the condition. -/
theorem always_of_meets {I P : σ → Prop} (hproperty : ∀ s, I s → P s)
    (hkeep : ∀ s a s', I s → C s a → step a s = some s' → I s') {as : List α} {s : σ}
    (hs : I s) (hmeets : Meets step C as s) : Always step P as s := by
  induction as generalizing s with
  | nil => exact hproperty s hs
  | cons a as ih =>
    refine ⟨hproperty s hs, ?_⟩
    intro s' hs'
    exact ih (hkeep s a s' hs hmeets.1 hs') (hmeets.2 s' hs')

/-- If steps keep an invariant under the condition and break the property otherwise,
the property holds all along a run exactly if every step meets the condition. -/
theorem always_iff_meets {I P : σ → Prop} (hproperty : ∀ s, I s → P s)
    (hkeep : ∀ s a s', I s → C s a → step a s = some s' → I s')
    (hbreak : ∀ s a s', I s → ¬ C s a → step a s = some s' → ¬ P s') {as : List α} {s t : σ}
    (hs : I s) (hrun : run step as s = some t) :
    Always step P as s ↔ Meets step C as s := by
  induction as generalizing s with
  | nil => exact ⟨fun _ => trivial, fun _ => hproperty s hs⟩
  | cons a as ih =>
    obtain ⟨s', hfirst, hrest⟩ := run_cons_eq_some hrun
    constructor
    · intro ⟨_, halways⟩
      have hcondition : C s a := by
        by_contra hfails
        exact hbreak s a s' hs hfails hfirst (halways s' hfirst).head
      refine ⟨hcondition, ?_⟩
      intro s'' hs''
      obtain rfl := Option.some.inj (hfirst.symm.trans hs'')
      exact (ih (hkeep s a s' hs hcondition hfirst) hrest).mp (halways s' hfirst)
    · intro ⟨hcondition, hmeets⟩
      refine ⟨hproperty s hs, ?_⟩
      intro s'' hs''
      obtain rfl := Option.some.inj (hfirst.symm.trans hs'')
      exact (ih (hkeep s a s' hs hcondition hfirst) hrest).mpr (hmeets s' hfirst)

/-- Every first part of the list is a run, to a state with the property. -/
def Safely (step : α → σ → Option σ) (P : σ → Prop) (as : List α) (s : σ) : Prop :=
  ∀ bs, bs <+: as → ∃ t, run step bs s = some t ∧ P t

/-- If a step is possible and keeps the property exactly under the condition, then a list goes
safely exactly if every step meets it. -/
theorem safely_iff_meets {P : σ → Prop}
    (hstep : ∀ s a, P s → ((∃ s', step a s = some s' ∧ P s') ↔ C s a)) {as : List α} {s : σ}
    (hs : P s) : Safely step P as s ↔ Meets step C as s := by
  induction as generalizing s with
  | nil =>
    refine iff_of_true (fun bs hbs => ?_) trivial
    obtain rfl := List.prefix_nil.mp hbs
    exact ⟨s, rfl, hs⟩
  | cons a as ih =>
    constructor
    · intro h
      obtain ⟨s', hrun, hs'⟩ := h [a] (List.prefix_append [a] as)
      obtain ⟨s', hfirst, hrest⟩ := run_cons_eq_some hrun
      obtain rfl := Option.some.inj hrest
      refine ⟨(hstep s a hs).mp ⟨s', hfirst, hs'⟩, ?_⟩
      intro s'' hs''
      obtain rfl := Option.some.inj (hfirst.symm.trans hs'')
      refine (ih hs').mp fun bs hbs => ?_
      obtain ⟨t, hrun, ht⟩ := h (a :: bs) (List.cons_prefix_cons.mpr ⟨rfl, hbs⟩)
      rw [run, hfirst, Option.bind_some] at hrun
      exact ⟨t, hrun, ht⟩
    · rintro ⟨hcondition, hmeets⟩ bs hbs
      obtain ⟨s', hfirst, hs'⟩ := (hstep s a hs).mpr hcondition
      cases bs with
      | nil => exact ⟨s, rfl, hs⟩
      | cons b bs =>
        obtain ⟨rfl, hrest⟩ := List.cons_prefix_cons.mp hbs
        obtain ⟨t, hrun, ht⟩ := (ih hs').mpr (hmeets s' hfirst) bs hrest
        refine ⟨t, ?_, ht⟩
        rw [run, hfirst, Option.bind_some, hrun]

/-- A measure that grows with every step that fails the condition, and only then, is what it
was exactly if every step met the condition. -/
theorem const_iff_meets {f : σ → Nat} (hkeep : ∀ s a s', C s a → step a s = some s' → f s' = f s)
    (hgrow : ∀ s a s', ¬ C s a → step a s = some s' → f s < f s') {as : List α} {s t : σ}
    (hrun : run step as s = some t) : f t = f s ↔ Meets step C as s := by
  have hmono : ∀ {s s' a}, step a s = some s' → f s ≤ f s' := by
    intro s s' a hstep
    by_cases hC : C s a
    · exact Nat.le_of_eq (hkeep s a s' hC hstep).symm
    · exact Nat.le_of_lt (hgrow s a s' hC hstep)
  have hlater : ∀ {as s t}, run step as s = some t → f s ≤ f t := by
    intro as s t hrun
    exact run_keeps (I := fun s' => f s ≤ f s')
      (fun _ _ _ hle hstep => Nat.le_trans hle (hmono hstep)) (Nat.le_refl _) hrun
  induction as generalizing s with
  | nil =>
    obtain rfl := Option.some.inj hrun
    exact ⟨fun _ => trivial, fun _ => rfl⟩
  | cons a as ih =>
    obtain ⟨s', hfirst, hrest⟩ := run_cons_eq_some hrun
    by_cases hC : C s a
    · have hsame := hkeep s a s' hC hfirst
      refine (hsame ▸ ih hrest : f t = f s ↔ _).trans ?_
      refine ⟨fun hmeets => ⟨hC, fun s'' hs'' => ?_⟩, fun hmeets => hmeets.2 s' hfirst⟩
      obtain rfl := Option.some.inj (hfirst.symm.trans hs'')
      exact hmeets
    · have hless := Nat.lt_of_lt_of_le (hgrow s a s' hC hfirst) (hlater hrest)
      exact ⟨fun heq => absurd heq (Nat.ne_of_gt hless), fun hmeets => absurd hmeets.1 hC⟩

end OpenWrtCopilot.Verified.Runs
