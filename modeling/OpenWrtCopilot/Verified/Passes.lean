import Mathlib.Data.List.Basic
import Mathlib.Data.List.Induction

/-!
# Stores that are filled in passes

A store holds a content for some ids.  A pass offers it a list of ids, each with the content
the id has now, and afterwards the ids that were not offered are dropped.  The store looks an
id up among other stores too, some of them before itself and some after.  A content that is
found under its id is left alone; another one is stored; and an id that is found nowhere is
stored unless the store holds its content under some id already.

The last rule looks at what the store holds at that moment: the content may be held under an
id that is dropped, or offered with another content, later in the same pass.

## Main results

* `filled_pass` — what a store holds after it was offered a list of ids.
* `present_iff` — which contents are held, after a pass, under ids that were offered.
* `pass_all` — when every id that is offered is held with its content.
-/

namespace OpenWrtCopilot.Verified.Passes

variable {ι κ : Type}

/-- The contents that other stores hold. -/
structure Neighbours (ι κ : Type) where
  before : ι → Option κ
  after : ι → Option κ

/-- The content an id is found with. -/
def found (n : Neighbours ι κ) (own : ι → Option κ) (i : ι) : Option κ :=
  (n.before i).or ((own i).or (n.after i))

theorem own_of_found_none {n : Neighbours ι κ} {own : ι → Option κ} {i : ι}
    (h : found n own i = none) : own i = none := by
  rw [found, Option.or_eq_none_iff, Option.or_eq_none_iff] at h
  exact h.2.1

theorem found_congr {n : Neighbours ι κ} {own own' : ι → Option κ} {i : ι}
    (h : own' i = own i) : found n own' i = found n own i := by
  rw [found, h, found]

variable [DecidableEq ι]

/-- The content of one id is replaced. -/
def put (own : ι → Option κ) (i : ι) (k : κ) : ι → Option κ :=
  fun j => if j = i then some k else own j

@[simp] theorem put_self (own : ι → Option κ) (i : ι) (k : κ) : put own i k i = some k :=
  if_pos rfl

theorem put_of_ne {own : ι → Option κ} {i j : ι} {k : κ} (h : j ≠ i) : put own i k j = own j :=
  if_neg h

variable [DecidableEq κ]

open Classical in
/-- An id is offered with its content. -/
noncomputable def offer (n : Neighbours ι κ) (content : ι → κ) (own : ι → Option κ) (i : ι) :
    ι → Option κ :=
  match found n own i with
  | some k => if k = content i then own else put own i (content i)
  | none => if ∃ j, own j = some (content i) then own else put own i (content i)

/-- A list of ids is offered. -/
noncomputable def pass (n : Neighbours ι κ) (content : ι → κ) (own : ι → Option κ)
    (ids : List ι) : ι → Option κ :=
  ids.foldl (offer n content) own

variable {n : Neighbours ι κ} {content : ι → κ} {own : ι → Option κ} {i j : ι} {k c : κ}

@[simp] theorem pass_nil (own : ι → Option κ) : pass n content own [] = own := rfl

theorem pass_append (own : ι → Option κ) (before after : List ι) :
    pass n content own (before ++ after) = pass n content (pass n content own before) after :=
  List.foldl_append

theorem pass_concat (own : ι → Option κ) (before : List ι) (i : ι) :
    pass n content own (before ++ [i]) = offer n content (pass n content own before) i :=
  pass_append own before [i]

/-! ## One offer -/

theorem offer_of_ne (h : j ≠ i) : offer n content own i j = own j := by
  cases hfound : found n own i with
  | some k =>
    simp only [offer, hfound]
    split_ifs
    · rfl
    · exact put_of_ne h
  | none =>
    simp only [offer, hfound]
    split_ifs
    · rfl
    · exact put_of_ne h

theorem offer_found (h : found n own i = some k) :
    offer n content own i i = if k = content i then own i else some (content i) := by
  simp only [offer, h]
  split_ifs
  · rfl
  · exact put_self own i _

/-- An id that is found nowhere is stored if its content is not held. -/
theorem offer_new (h : found n own i = none) (hnew : ¬ ∃ j, own j = some (content i)) :
    offer n content own i i = some (content i) := by
  simp only [offer, h, if_neg hnew]
  exact put_self own i _

theorem offer_duplicate (h : found n own i = none) (hheld : ∃ j, own j = some (content i)) :
    offer n content own i = own := by
  simp only [offer, h, if_pos hheld]

/-- A content that is held under its id stays. -/
theorem offer_held (h : own j = some (content j)) :
    offer n content own i j = some (content j) := by
  by_cases hij : j = i
  · subst hij
    cases hfound : found n own j with
    | none => exact absurd (own_of_found_none hfound) (by rw [h]; nofun)
    | some k =>
      rw [offer_found hfound, h]
      split_ifs <;> rfl
  · rw [offer_of_ne hij, h]

theorem pass_held (ids : List ι) (h : own j = some (content j)) :
    pass n content own ids j = some (content j) := by
  induction ids generalizing own with
  | nil => exact h
  | cons i ids ih => exact ih (offer_held h)

/-! ## A list of offers -/

/-- What a store holds after it was offered a list of ids. -/
structure Filled (n : Neighbours ι κ) (content : ι → κ) (own : ι → Option κ) (ids : List ι)
    (after : ι → Option κ) : Prop where
  untouched : ∀ i, i ∉ ids → after i = own i
  /-- An id that was found nowhere is stored with its content, or not at all. -/
  fresh : ∀ i, found n own i = none → after i = none ∨ after i = some (content i)
  settled : ∀ i ∈ ids, ∀ k, found n own i = some k →
    after i = if k = content i then own i else some (content i)

omit [DecidableEq ι] in
theorem filled_nil : Filled n content own [] own where
  untouched := fun _ _ => rfl
  fresh := fun _ h => Or.inl (own_of_found_none h)
  settled := fun _ h => absurd h List.not_mem_nil

/-- One more id. -/
theorem Filled.concat {ids : List ι} {after : ι → Option κ}
    (h : Filled n content own ids after) (i : ι) :
    Filled n content own (ids ++ [i]) (offer n content after i) where
  untouched := by
    intro j hj
    rw [List.mem_append, not_or, List.mem_singleton] at hj
    rw [offer_of_ne hj.2]
    exact h.untouched j hj.1
  fresh := by
    intro j hj
    obtain hnone | hheld := h.fresh j hj
    · by_cases hij : j = i
      · subst hij
        have hfound : found n after j = none :=
          (found_congr (hnone.trans (own_of_found_none hj).symm)).trans hj
        by_cases hdup : ∃ l, after l = some (content j)
        · exact Or.inl (by rw [offer_duplicate hfound hdup, hnone])
        · exact Or.inr (offer_new hfound hdup)
      · exact Or.inl (by rw [offer_of_ne hij, hnone])
    · exact Or.inr (offer_held hheld)
  settled := by
    intro j hj k hk
    by_cases hij : j = i
    · subst hij
      by_cases hsame : k = content j
      · -- the content was found under the id from the start
        have hown : after j = own j := by
          by_cases hmem : j ∈ ids
          · rw [h.settled j hmem k hk, if_pos hsame]
          · exact h.untouched j hmem
        have hfound : found n after j = some k := (found_congr hown).trans hk
        rw [offer_found hfound, if_pos hsame, if_pos hsame, hown]
      · rw [if_neg hsame]
        by_cases hmem : j ∈ ids
        · exact offer_held (by rw [h.settled j hmem k hk, if_neg hsame])
        · have hfound : found n after j = some k := (found_congr (h.untouched j hmem)).trans hk
          rw [offer_found hfound, if_neg hsame]
    · rw [offer_of_ne hij]
      rw [List.mem_append, List.mem_singleton] at hj
      exact h.settled j (hj.resolve_right hij) k hk

theorem filled_pass (n : Neighbours ι κ) (content : ι → κ) (own : ι → Option κ)
    (ids : List ι) : Filled n content own ids (pass n content own ids) := by
  induction ids using List.reverseRecOn with
  | nil => exact filled_nil
  | append_singleton ids i ih =>
    rw [pass_concat]
    exact ih.concat i

/-- What is held under an id that was offered stays until the end of the pass. -/
theorem pass_stays {before after : List ι} (hj : j ∈ before)
    (h : pass n content own before j = some c) :
    pass n content own (before ++ after) j = some c := by
  have hbefore := filled_pass n content own before
  have hall := filled_pass n content own (before ++ after)
  cases hfound : found n own j with
  | none =>
    have hc : some c = some (content j) := by
      rw [← h]
      exact (hbefore.fresh j hfound).resolve_left (by rw [h]; nofun)
    rw [pass_append, hc]
    exact pass_held after (h.trans hc)
  | some k =>
    rw [hall.settled j (List.mem_append_left after hj) k hfound,
      ← hbefore.settled j hj k hfound, h]

/-- An id that was found nowhere and is stored now was offered at a moment at which its
content was not held. -/
theorem exists_stored {ids : List ι} (hfound : found n own i = none)
    (h : pass n content own ids i = some c) :
    ∃ before after, ids = before ++ i :: after ∧
      ¬ ∃ j, pass n content own before j = some (content i) := by
  induction ids using List.reverseRecOn with
  | nil => exact absurd (own_of_found_none hfound) (by rw [← pass_nil own, h]; nofun)
  | append_singleton ids last ih =>
    cases hbefore : pass n content own ids i with
    | some k =>
      have hk := (filled_pass n content own ids).fresh i hfound
      have hkeeps : pass n content own ids i = some c := by
        obtain hnone | hheld := hk
        · rw [hbefore] at hnone
          cases hnone
        · rw [hheld, ← h, pass_concat]
          exact (offer_held hheld).symm
      obtain ⟨before, after, rfl, hnew⟩ := ih hkeeps
      exact ⟨before, after ++ [last], by simp, hnew⟩
    | none =>
      rw [pass_concat] at h
      have hlast : i = last := by
        by_contra hne
        rw [offer_of_ne hne, hbefore] at h
        cases h
      subst hlast
      refine ⟨ids, [], rfl, fun hheld => ?_⟩
      have hnowhere : found n (pass n content own ids) i = none :=
        (found_congr (hbefore.trans (own_of_found_none hfound).symm)).trans hfound
      rw [offer_duplicate hnowhere hheld, hbefore] at h
      cases h

/-! ## Passes that skip nothing -/

/-- An id that is new when it is offered has a content that nothing else has at that time. -/
def Distinct (content : ι → κ) (own : ι → Option κ) (ids : List ι) : Prop :=
  ∀ before i after, ids = before ++ i :: after → own i = none → i ∉ before →
    (∀ j, own j = some (content i) → j ∈ before) ∧ ∀ j ∈ before, content j ≠ content i

omit [DecidableEq ι] [DecidableEq κ] in
theorem Distinct.of_concat {ids : List ι} {last : ι}
    (h : Distinct content own (ids ++ [last])) : Distinct content own ids := by
  intro before i after hsplit
  exact h before i (after ++ [last]) (by rw [hsplit, List.append_assoc, List.cons_append])

/-- Where no other store has the ids and new ids have new contents, every id that is offered
is held with its content. -/
theorem pass_all {ids : List ι} (halone : ∀ i ∈ ids, n.before i = none ∧ n.after i = none)
    (hdistinct : Distinct content own ids) (hi : i ∈ ids) :
    pass n content own ids i = some (content i) := by
  induction ids using List.reverseRecOn generalizing i with
  | nil => exact absurd hi List.not_mem_nil
  | append_singleton ids last ih =>
    have hheld : ∀ j ∈ ids, pass n content own ids j = some (content j) := fun j hj =>
      ih (fun k hk => halone k (List.mem_append_left _ hk)) hdistinct.of_concat hj
    rw [pass_concat]
    by_cases hmem : i ∈ ids
    · exact offer_held (hheld i hmem)
    · have hlast : i = last :=
        List.mem_singleton.mp ((List.mem_append.mp hi).resolve_left hmem)
      subst hlast
      have huntouched := (filled_pass n content own ids).untouched
      obtain ⟨hbefore, hafter⟩ := halone i hi
      have hfound : found n (pass n content own ids) i = own i := by
        rw [found, hbefore, hafter, huntouched i hmem, Option.none_or, Option.or_none]
      cases hown : own i with
      | some k =>
        rw [offer_found (hfound.trans hown), huntouched i hmem, hown]
        split_ifs with hk
        · rw [hk]
        · rfl
      | none =>
        obtain ⟨howners, hbefore⟩ := hdistinct ids i [] rfl hown hmem
        refine offer_new (hfound.trans hown) ?_
        intro ⟨j, hj⟩
        by_cases hjmem : j ∈ ids
        · rw [hheld j hjmem] at hj
          exact hbefore j hjmem (Option.some.inj hj)
        · rw [huntouched j hjmem] at hj
          exact hjmem (howners j hj)

/-! ## What is held after a pass -/

/-- An id that is offered after the given ones accounts for a content: it was found with
another content than it has now, and has this one; or it was found as it is now, and the
store holds this content under it; or it was found nowhere, has this content, and what held
this content was offered before. -/
def Accounts (n : Neighbours ι κ) (content : ι → κ) (own : ι → Option κ) (before : List ι)
    (i : ι) (c : κ) : Prop :=
  match found n own i with
  | some k => if k = content i then own i = some c else content i = c
  | none => content i = c ∧ ∀ j, own j = some c → j ∈ before

/-- What is held under an id that was offered is accounted for. -/
theorem exists_accounts {ids : List ι} (hi : i ∈ ids) (h : pass n content own ids i = some c) :
    ∃ before i after, ids = before ++ i :: after ∧ Accounts n content own before i c := by
  have hall := filled_pass n content own ids
  cases hfound : found n own i with
  | some k =>
    obtain ⟨before, after, rfl⟩ := List.append_of_mem hi
    refine ⟨before, i, after, rfl, ?_⟩
    rw [hall.settled i hi k hfound] at h
    simp only [Accounts, hfound]
    split_ifs at h ⊢
    · exact h
    · exact Option.some.inj h
  | none =>
    have hc : content i = c := by
      obtain hnone | hsame := hall.fresh i hfound
      · rw [h] at hnone
        cases hnone
      · exact Option.some.inj (hsame.symm.trans h)
    obtain ⟨before, after, hsplit, hnew⟩ := exists_stored hfound h
    refine ⟨before, i, after, hsplit, ?_⟩
    simp only [Accounts, hfound]
    refine ⟨hc, fun j hj => ?_⟩
    by_contra hnot
    refine hnew ⟨j, ?_⟩
    rw [(filled_pass n content own before).untouched j hnot, hj, hc]

/-- An id that was found nowhere, and whose content is held only under ids that were offered
before it: the content stays. -/
theorem held_of_new {before after : List ι} (hfound : found n own i = none)
    (howners : ∀ j, own j = some (content i) → j ∈ before) :
    ∃ j ∈ before ++ i :: after,
      pass n content own (before ++ i :: after) j = some (content i) := by
  have hbefore := filled_pass n content own before
  by_cases hheld : ∃ j, pass n content own before j = some (content i)
  · obtain ⟨j, hj⟩ := hheld
    -- what holds the content now was offered before
    have hmem : j ∈ before := by
      by_contra hnot
      exact hnot (howners j (by rw [← hbefore.untouched j hnot, hj]))
    exact ⟨j, List.mem_append_left _ hmem, pass_stays hmem hj⟩
  · refine ⟨i, List.mem_append_right before List.mem_cons_self, ?_⟩
    have hstored : offer n content (pass n content own before) i i = some (content i) := by
      obtain hnone | hsame := hbefore.fresh i hfound
      · refine offer_new ?_ hheld
        exact (found_congr (hnone.trans (own_of_found_none hfound).symm)).trans hfound
      · exact offer_held hsame
    rw [pass_append]
    exact pass_held after hstored

/-- **A content is held after a pass, under an id that was offered, exactly if an offered id
accounts for it.** -/
theorem present_iff (n : Neighbours ι κ) (content : ι → κ) (own : ι → Option κ)
    (ids : List ι) (c : κ) :
    (∃ i ∈ ids, pass n content own ids i = some c) ↔
      ∃ before i after, ids = before ++ i :: after ∧ Accounts n content own before i c := by
  constructor
  · intro ⟨i, hi, hheld⟩
    exact exists_accounts hi hheld
  · intro ⟨before, i, after, hsplit, haccounts⟩
    subst hsplit
    have hi : i ∈ before ++ i :: after := List.mem_append_right before List.mem_cons_self
    cases hfound : found n own i with
    | some k =>
      refine ⟨i, hi, ?_⟩
      simp only [Accounts, hfound] at haccounts
      rw [(filled_pass n content own _).settled i hi k hfound]
      split_ifs at haccounts ⊢
      · exact haccounts
      · rw [haccounts]
    | none =>
      simp only [Accounts, hfound] at haccounts
      obtain ⟨rfl, howners⟩ := haccounts
      exact held_of_new hfound howners

end OpenWrtCopilot.Verified.Passes
