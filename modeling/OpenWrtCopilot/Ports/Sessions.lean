import Mathlib.Data.Finset.Basic
import OpenWrtCopilot.Verified.PyDict
import OpenWrtCopilot.Verified.PyText
import OpenWrtCopilot.Verified.Runs

/-!
# Browser sessions

Ports `SessionStore`: a dictionary from opaque tokens to records, swept of expired
records on every access.  Clock readings are data of the events and may go back; a
session that was found expired once stays gone.

## Main results

* `issued_iff` — the store holds a record exactly if it was issued in the run and
  nothing ended it since.
* `resolve_iff` — `resolve` returns exactly the records of live sessions.
-/

namespace OpenWrtCopilot.Ports.Sessions

open Verified
open Verified.PyDict (Dict get? keys)
open Verified.PyText

/-! ## Records -/

inductive Scope where
  | devicesRead | devicesWrite | aiChat | admin
  deriving DecidableEq, Repr

/-- `SessionRecord`; times are microseconds. -/
structure SessionRecord where
  role : Text
  scopes : Finset Scope
  expiresAt : Int
  deriving DecidableEq

/-- What `secrets.token_urlsafe` returns: base64 letters in the URL-safe alphabet. -/
structure UrlsafeToken where
  text : Text
  nonempty : text ≠ []
  urlsafe : ∀ c ∈ text, c.isAlphanum ∨ c = '-' ∨ c = '_'

/-- A call of `create`, with the token that is drawn and the clock's readings outside
and inside of the lock. -/
structure NewSession where
  token : UrlsafeToken
  role : Text
  scopes : Finset Scope
  expiresAt : Option Int
  now : Int
  sweep : Int

/-! ## The store -/

structure SessionStore where
  ttl : Int
  sessions : Dict Text SessionRecord
  keys_nodup : (keys sessions).Nodup

/-- `SessionStore(ttl_seconds)`. -/
def SessionStore.new (ttlSeconds : Int) : SessionStore where
  ttl := max 60 ttlSeconds
  sessions := []
  keys_nodup := List.nodup_nil

/-- `_sweep_locked`. -/
def SessionStore.sweepLocked (s : SessionStore) (now : Int) : SessionStore :=
  let expired := (s.sessions.filter fun item => item.2.expiresAt ≤ now).map Prod.fst
  { s with
    sessions := expired.foldl (fun sessions token => PyDict.erase token sessions) s.sessions
    keys_nodup := PyDict.nodup_keys_foldl_erase s.keys_nodup expired }

def SessionStore.pop (s : SessionStore) (token : Text) : SessionStore where
  ttl := s.ttl
  sessions := PyDict.erase token s.sessions
  keys_nodup := PyDict.nodup_keys_erase s.keys_nodup token

/-- The record `create` makes: the default expiry is the lifetime from now on. -/
def NewSession.record (c : NewSession) (ttl : Int) : SessionRecord where
  role := c.role
  scopes := c.scopes
  expiresAt := c.expiresAt.getD (c.now + ttl * 1000000)

/-- `create`. -/
def SessionStore.create (s : SessionStore) (c : NewSession) : SessionStore where
  ttl := s.ttl
  sessions := PyDict.set c.token.text (c.record s.ttl) (s.sweepLocked c.sweep).sessions
  keys_nodup := PyDict.nodup_keys_set (s.sweepLocked c.sweep).keys_nodup _ _

/-- `resolve`, with the readings of the sweep and of the check after it. -/
def SessionStore.resolve (s : SessionStore) (token : Text) (sweep now : Int) :
    Option SessionRecord × SessionStore :=
  let swept := s.sweepLocked sweep
  match get? token swept.sessions with
  | none => (none, swept.pop token)
  | some record =>
      if record.expiresAt ≤ now then (none, swept.pop token) else (some record, swept)

/-- `revoke`. -/
def SessionStore.revoke (s : SessionStore) (token : Text) : Bool × SessionStore :=
  ((get? token s.sessions).isSome, s.pop token)

section Lookup

variable (s : SessionStore) (token other : Text) (record : SessionRecord)

theorem get?_pop :
    get? other (s.pop token).sessions = if other = token then none else get? other s.sessions :=
  PyDict.get?_erase token other s.sessions

/-- A sweep leaves the records that have not expired. -/
theorem get?_sweepLocked {now : Int} :
    get? token (s.sweepLocked now).sessions = some record ↔
      get? token s.sessions = some record ∧ now < record.expiresAt := by
  have hexpired : token ∈ (s.sessions.filter fun item => item.2.expiresAt ≤ now).map Prod.fst ↔
      ∃ r, get? token s.sessions = some r ∧ r.expiresAt ≤ now := by
    simp only [List.mem_map, List.mem_filter, decide_eq_true_eq, Prod.exists]
    constructor
    · rintro ⟨k, r, ⟨hmem, hold⟩, rfl⟩
      exact ⟨r, (PyDict.get?_eq_some_iff s.keys_nodup).mpr hmem, hold⟩
    · rintro ⟨r, hr, hold⟩
      exact ⟨token, r, ⟨(PyDict.get?_eq_some_iff s.keys_nodup).mp hr, hold⟩, rfl⟩
  rw [SessionStore.sweepLocked, PyDict.get?_foldl_erase]
  by_cases hmem : token ∈ (s.sessions.filter fun item => item.2.expiresAt ≤ now).map Prod.fst
  · rw [if_pos hmem]
    obtain ⟨r, hr, hold⟩ := hexpired.mp hmem
    constructor
    · rintro ⟨⟩
    · rintro ⟨hrecord, hlive⟩
      obtain rfl := Option.some.inj (hr.symm.trans hrecord)
      omega
  · rw [if_neg hmem]
    refine ⟨fun hrecord => ⟨hrecord, ?_⟩, And.left⟩
    by_contra hold
    exact hmem (hexpired.mpr ⟨record, hrecord, by omega⟩)

/-- What `resolve` returns was there, and neither reading of the clock finds it expired. -/
theorem resolve_eq_some {sweep now : Int} :
    (s.resolve token sweep now).1 = some record ↔
      get? token s.sessions = some record ∧ sweep < record.expiresAt ∧ now < record.expiresAt := by
  rw [← and_assoc, ← get?_sweepLocked, SessionStore.resolve]
  cases hfound : get? token (s.sweepLocked sweep).sessions with
  | none => simp
  | some found =>
    by_cases hold : found.expiresAt ≤ now
    · simp only [if_pos hold, Option.some.injEq, reduceCtorEq, false_iff, not_and]
      rintro rfl
      omega
    · simp only [if_neg hold, Option.some.injEq]
      constructor
      · rintro rfl
        exact ⟨rfl, by omega⟩
      · exact And.left

theorem get?_resolve {sweep now : Int} :
    get? other (s.resolve token sweep now).2.sessions = some record ↔
      get? other s.sessions = some record ∧ sweep < record.expiresAt ∧
        (other = token → now < record.expiresAt) := by
  rw [← and_assoc, ← get?_sweepLocked, SessionStore.resolve]
  cases hfound : get? token (s.sweepLocked sweep).sessions with
  | none =>
    rw [get?_pop]
    by_cases hother : other = token
    · rw [if_pos hother, hother, hfound]
      simp
    · simp [hother]
  | some found =>
    by_cases hother : other = token
    · rw [hother, hfound]
      by_cases hold : found.expiresAt ≤ now
      · simp only [if_pos hold, get?_pop, if_true, Option.some.injEq, reduceCtorEq,
          forall_const, false_iff, not_and]
        rintro rfl
        omega
      · simp only [if_neg hold, hfound, Option.some.injEq, forall_const]
        refine ⟨?_, And.left⟩
        rintro rfl
        exact ⟨rfl, by omega⟩
    · by_cases hold : found.expiresAt ≤ now
      · simp [hold, get?_pop, hother]
      · simp [hold, hother]

end Lookup

/-! ## Runs of the store -/

inductive SessionEvent where
  | create (c : NewSession)
  | resolve (token : Text) (sweep now : Int)
  | revoke (token : Text)

def step : SessionEvent → SessionStore → Option SessionStore
  | .create c, s => some (s.create c)
  | .resolve token sweep now, s => some (s.resolve token sweep now).2
  | .revoke token, s => some (s.revoke token).2

/-- The event ends the session: its token is drawn again or revoked, or a reading of the
clock finds it expired. -/
def Ends (token : Text) (record : SessionRecord) : SessionEvent → Prop
  | .create c => c.token.text = token ∨ record.expiresAt ≤ c.sweep
  | .resolve t sweep now => record.expiresAt ≤ sweep ∨ t = token ∧ record.expiresAt ≤ now
  | .revoke t => t = token

/-- The session was created in the history, and no event after that ended it. -/
def Issued (ttl : Int) (history : List SessionEvent) (token : Text) (record : SessionRecord) :
    Prop :=
  ∃ before c after, history = before ++ .create c :: after ∧ c.token.text = token ∧
    c.record ttl = record ∧ ∀ event ∈ after, ¬ Ends token record event

theorem not_issued_nil (ttl : Int) (token : Text) (record : SessionRecord) :
    ¬ Issued ttl [] token record := by
  intro ⟨before, c, after, hnil, _⟩
  cases before with
  | nil => cases hnil
  | cons => cases hnil

/-- The last event issues the session, or does not end it. -/
theorem issued_snoc {ttl : Int} {history : List SessionEvent} {event : SessionEvent}
    {token : Text} {record : SessionRecord} :
    Issued ttl (history ++ [event]) token record ↔
      (∃ c, event = .create c ∧ c.token.text = token ∧ c.record ttl = record) ∨
        Issued ttl history token record ∧ ¬ Ends token record event := by
  constructor
  · intro ⟨before, c, after, hsplit, htoken, hrecord, hafter⟩
    obtain rfl | ⟨after, last, rfl⟩ := List.eq_nil_or_concat after
    · obtain ⟨rfl, hevent⟩ := List.append_inj' hsplit rfl
      exact Or.inl ⟨c, (List.cons.inj hevent).1, htoken, hrecord⟩
    · rw [List.concat_eq_append] at hafter hsplit
      rw [← List.cons_append, ← List.append_assoc] at hsplit
      obtain ⟨rfl, hevent⟩ := List.append_inj' hsplit rfl
      obtain rfl := (List.cons.inj hevent).1
      refine Or.inr ⟨⟨before, c, after, rfl, htoken, hrecord, ?_⟩, ?_⟩
      · exact fun e he => hafter e (List.mem_append_left _ he)
      · exact hafter event (List.mem_append_right _ (List.mem_singleton_self event))
  · intro h
    obtain ⟨c, rfl, htoken, hrecord⟩ | ⟨⟨before, c, after, rfl, htoken, hrecord, hafter⟩, hlast⟩ := h
    · exact ⟨history, c, [], rfl, htoken, hrecord, nofun⟩
    · refine ⟨before, c, after ++ [event], by simp, htoken, hrecord, ?_⟩
      intro e he
      obtain he | he := List.mem_append.mp he
      · exact hafter e he
      · rwa [List.mem_singleton.mp he]

/-- What one event leaves of a session. -/
theorem get?_step {s s' : SessionStore} {event : SessionEvent} (h : step event s = some s')
    (token : Text) (record : SessionRecord) :
    get? token s'.sessions = some record ↔
      (∃ c, event = .create c ∧ c.token.text = token ∧ c.record s.ttl = record) ∨
        get? token s.sessions = some record ∧ ¬ Ends token record event := by
  cases event with
  | create c =>
    obtain rfl := Option.some.inj h
    by_cases htoken : c.token.text = token
    · have hset : get? token (s.create c).sessions = some (c.record s.ttl) := by
        rw [← htoken]
        exact PyDict.get?_set_self _ _ _
      simp [hset, Ends, htoken]
    · have hset : get? token (s.create c).sessions =
          get? token (s.sweepLocked c.sweep).sessions :=
        PyDict.get?_set_of_ne (Ne.symm htoken) _ _
      simp [hset, get?_sweepLocked, Ends, htoken]
  | resolve t sweep now =>
    obtain rfl := Option.some.inj h
    rw [get?_resolve]
    simp [Ends, eq_comm]
  | revoke t =>
    obtain rfl := Option.some.inj h
    have hpop : get? token (s.revoke t).2.sessions =
        if token = t then none else get? token s.sessions := get?_pop s t token
    rw [hpop]
    by_cases htoken : token = t
    · simp [htoken, Ends]
    · simp [htoken, Ne.symm htoken, Ends]

theorem step_total (event : SessionEvent) (s : SessionStore) : ∃ s', step event s = some s' := by
  cases event with
  | create c => exact ⟨_, rfl⟩
  | resolve t sweep now => exact ⟨_, rfl⟩
  | revoke t => exact ⟨_, rfl⟩

theorem ttl_step {s s' : SessionStore} {event : SessionEvent} (h : step event s = some s') :
    s'.ttl = s.ttl := by
  cases event with
  | create c =>
    obtain rfl := Option.some.inj h
    rfl
  | resolve t sweep now =>
    obtain rfl := Option.some.inj h
    simp only [SessionStore.resolve]
    split
    · rfl
    · split
      · rfl
      · rfl
  | revoke t =>
    obtain rfl := Option.some.inj h
    rfl

/-- **After any run the store holds exactly the sessions that were issued and not ended
since.** -/
theorem issued_iff {ttlSeconds : Int} {history : List SessionEvent} {s : SessionStore}
    (hrun : Runs.run step history (.new ttlSeconds) = some s) (token : Text)
    (record : SessionRecord) :
    get? token s.sessions = some record ↔ Issued (max 60 ttlSeconds) history token record := by
  have hreached : s.ttl = max 60 ttlSeconds ∧ ∀ record,
      (get? token s.sessions = some record ↔
        Issued (max 60 ttlSeconds) history token record) := by
    induction history using List.reverseRecOn generalizing s with
    | nil =>
      obtain rfl := Option.some.inj hrun
      refine ⟨rfl, fun record => ?_⟩
      simp [SessionStore.new, not_issued_nil]
    | append_singleton history event ih =>
      obtain ⟨t, hhistory⟩ := Runs.run_total step_total history (.new ttlSeconds)
      obtain ⟨httl, hissued⟩ := ih hhistory
      rw [Runs.run_append hhistory] at hrun
      obtain ⟨s', hstep, hdone⟩ := Runs.run_cons_eq_some hrun
      obtain rfl := Option.some.inj hdone
      refine ⟨(ttl_step hstep).trans httl, fun record => ?_⟩
      rw [get?_step hstep, issued_snoc, hissued, httl]
  exact hreached.2 record

/-- The session is live at these readings of the clock. -/
def Live (ttl : Int) (history : List SessionEvent) (token : Text) (sweep now : Int)
    (record : SessionRecord) : Prop :=
  Issued ttl history token record ∧ sweep < record.expiresAt ∧ now < record.expiresAt

/-- **`resolve` returns exactly the records of live sessions.** -/
theorem resolve_iff {ttlSeconds : Int} {history : List SessionEvent} {s : SessionStore}
    (hrun : Runs.run step history (.new ttlSeconds) = some s) (token : Text) (sweep now : Int)
    (record : SessionRecord) :
    (s.resolve token sweep now).1 = some record ↔
      Live (max 60 ttlSeconds) history token sweep now record := by
  rw [resolve_eq_some, issued_iff hrun, Live]

/-- The empty token is no session's. -/
theorem issued_nonempty {ttl : Int} {history : List SessionEvent} {token : Text}
    {record : SessionRecord} (h : Issued ttl history token record) : token ≠ [] := by
  obtain ⟨_, c, _, _, rfl, _⟩ := h
  exact c.token.nonempty

end OpenWrtCopilot.Ports.Sessions
