import OpenWrtCopilot.Verified.PyText
import OpenWrtCopilot.Verified.Threads

/-!
# The first administrator

Ports the table of user accounts with its two unique indexes, `UserStore`, the setup endpoint
and `bootstrap_env_credentials`.  Requests and bootstraps of several processes are the threads
of a system over the one table, and each of their SQL statements is a step.

## Main results

* `accounted_run` — the rows of the table are those it had and those the callers have inserted.
* `first_run` — one administrator, one session, no setup after a user exists, and a read-only
  account from the bootstrap that created the administrator only.
-/

namespace OpenWrtCopilot.Ports.FirstRunSetup

open Verified
open Verified.Threads
open Verified.PyText

/-! ## The table -/

inductive Role
  | admin
  | readonly
  deriving DecidableEq

/-- `AppUserRecord`, less its id and times. -/
structure AppUser where
  username : Text
  passwordHash : Text
  role : Role

/-- `app_users`, with its unique usernames and its partial unique index. -/
structure AppUsers where
  rows : List AppUser
  usernames : (rows.map (·.username)).Nodup
  singleAdmin : (rows.map (·.role)).count .admin ≤ 1

/-- The roles of the rows. -/
def AppUsers.roles (users : AppUsers) : List Role := users.rows.map (·.role)

/-- `INSERT INTO app_users`; `none` is an `IntegrityError`. -/
def AppUsers.insert (users : AppUsers) (user : AppUser) : Option AppUsers :=
  if h : user.username ∉ users.rows.map (·.username) ∧
      (user.role = .admin → .admin ∉ users.rows.map (·.role)) then
    some {
      rows := user :: users.rows
      usernames := List.nodup_cons.mpr ⟨h.1, users.usernames⟩
      singleAdmin := by
        rw [List.map_cons, List.count_cons]
        split
        · next hadmin =>
            have hnone := List.count_eq_zero.mpr (h.2 (by simpa using hadmin))
            omega
        · exact users.singleAdmin }
  else none

/-! ## The store -/

/-- `setup_required`. -/
def setupRequired (users : AppUsers) : Bool := users.rows.length = 0

/-- `insert_admin`: one statement that inserts the row unless the table has one. -/
def insertAdmin (username passwordHash : Text) (users : AppUsers) : Bool × AppUsers :=
  if users.rows = [] then
    match users.insert { username := username, passwordHash := passwordHash, role := .admin } with
    | some users' => (true, users')
    | none => (false, users)
  else (false, users)

/-- `insert_user`, with its `IntegrityError` caught. -/
def insertUser (username passwordHash : Text) (role : Role) (users : AppUsers) : Bool × AppUsers :=
  match users.insert { username := username, passwordHash := passwordHash, role := role } with
  | some users' => (true, users')
  | none => (false, users)

/-! ## Requests and bootstraps -/

/-- `SetupAdminRequest`, once it is validated, with the hash of its password. -/
structure SetupAdminRequest where
  username : Text
  passwordHash : Text

/-- The credentials of the environment, with the hashes of the passwords; `none` where
`hash_password` raises. -/
structure EnvCredentials where
  authAdminUsername : Text
  authAdminPassword : Text
  authReadonlyUsername : Text
  authReadonlyPassword : Text
  adminHash : Option Text
  readonlyHash : Option Text

/-- How far `setup_admin` has come. -/
inductive SetupStage
  | received
  /-- Setup was required. -/
  | checked
  /-- The statement has returned. -/
  | inserted (created : Bool)
  | session
  /-- 409. -/
  | complete

/-- How far `bootstrap_env_credentials` has come. -/
inductive BootstrapStage
  | begun
  | checked
  /-- The administrator was inserted, or not. -/
  | seeded (admin : Bool)
  | returned (admin readonly : Bool)
  | raised (admin : Bool)

inductive Caller
  | setup (request : SetupAdminRequest) (stage : SetupStage)
  | bootstrap (env : EnvCredentials) (stage : BootstrapStage)

/-- `setup_admin`, one statement at a time. -/
def setupStep (request : SetupAdminRequest) (users : AppUsers) :
    SetupStage → Option (AppUsers × SetupStage)
  | .received => some (users, if setupRequired users then .checked else .complete)
  | .checked =>
      let (created, users') := insertAdmin request.username request.passwordHash users
      some (users', .inserted created)
  | .inserted created => some (users, if created then .session else .complete)
  | _ => none

/-- `bootstrap_env_credentials`, one statement at a time. -/
def bootstrapStep (env : EnvCredentials) (users : AppUsers) :
    BootstrapStage → Option (AppUsers × BootstrapStage)
  | .begun => some (users, if setupRequired users then .checked else .returned false false)
  | .checked =>
      if env.authAdminUsername ≠ [] ∧ env.authAdminPassword ≠ [] then
        match env.adminHash with
        | none => some (users, .raised false)
        | some hash =>
            let (created, users') := insertUser (strip env.authAdminUsername) hash .admin users
            some (users', .seeded created)
      else some (users, .seeded false)
  | .seeded created =>
      if created ∧ env.authReadonlyUsername ≠ [] ∧ env.authReadonlyPassword ≠ [] then
        match env.readonlyHash with
        | none => some (users, .raised created)
        | some hash =>
            let (readonly, users') :=
              insertUser (strip env.authReadonlyUsername) hash .readonly users
            some (users', .returned created readonly)
      else some (users, .returned created false)
  | _ => none

/-- The next step of a caller. -/
def step (_ : Unit) (users : AppUsers) : Caller → Option (AppUsers × Caller)
  | .setup request stage =>
      (setupStep request users stage).map fun (users', stage') => (users', .setup request stage')
  | .bootstrap env stage =>
      (bootstrapStep env users stage).map fun (users', stage') => (users', .bootstrap env stage')

/-- A request or a bootstrap. -/
inductive Call
  | setup (request : SetupAdminRequest)
  | bootstrap (env : EnvCredentials)

/-- Before its first statement. -/
def Call.start : Call → Caller
  | .setup request => .setup request .received
  | .bootstrap env => .bootstrap env .begun

/-- Callers that have not begun, over a table. -/
def opening (users : AppUsers) (calls : List Call) : System AppUsers Caller :=
  ⟨users, calls.map Call.start⟩

/-! ## What a caller has done -/

/-- The roles of the rows a caller has inserted. -/
def Caller.inserted : Caller → List Role
  | .setup _ (.inserted true) | .setup _ .session => [.admin]
  | .bootstrap _ (.seeded true) | .bootstrap _ (.raised true)
  | .bootstrap _ (.returned true false) => [.admin]
  | .bootstrap _ (.returned true true) => [.readonly, .admin]
  | .bootstrap _ (.returned false true) => [.readonly]
  | _ => []

/-- The request has created the administrator. -/
def Caller.succeeded : Caller → Bool
  | .setup _ (.inserted true) | .setup _ .session => true
  | _ => false

/-- The request was answered with a session. -/
def Caller.hasSession : Caller → Bool
  | .setup _ .session => true
  | _ => false

/-- A bootstrap that has inserted a read-only account has inserted an administrator. -/
def Caller.Paired : Caller → Prop
  | .bootstrap _ (.returned false true) => False
  | _ => True

/-! ## One statement -/

theorem insert_roles {users users' : AppUsers} {user : AppUser}
    (h : users.insert user = some users') : users'.roles = user.role :: users.roles := by
  unfold AppUsers.insert at h
  split at h
  · rw [← Option.some.inj h]
    rfl
  · cases h

theorem insertUser_roles (username passwordHash : Text) (role : Role) (users : AppUsers) :
    (insertUser username passwordHash role users).2.roles =
      (if (insertUser username passwordHash role users).1 then [role] else []) ++ users.roles := by
  rw [insertUser]
  split
  · next hinsert => exact insert_roles hinsert
  · rfl

theorem insertAdmin_roles (username passwordHash : Text) (users : AppUsers) :
    (insertAdmin username passwordHash users).2.roles =
      (if (insertAdmin username passwordHash users).1 then [.admin] else []) ++ users.roles := by
  rw [insertAdmin]
  split
  · split
    · next hinsert => exact insert_roles hinsert
    · rfl
  · rfl

/-- The administrator is inserted into an empty table only. -/
theorem rows_of_insertAdmin {username passwordHash : Text} {users : AppUsers}
    (h : (insertAdmin username passwordHash users).1 = true) : users.rows = [] := by
  rw [insertAdmin] at h
  split at h
  · next hempty => exact hempty
  · cases h

/-- What a step of a caller does. -/
structure Spec (users : AppUsers) (caller : Caller) (users' : AppUsers) (caller' : Caller) :
    Prop where
  /-- The rows that it inserts are its own. -/
  roles : ∃ new, caller'.inserted = new ++ caller.inserted ∧ users'.roles = new ++ users.roles
  paired : caller'.Paired
  succeeded : caller'.succeeded = true → caller.succeeded = true ∨ users.rows = []

/-- A step that inserts nothing. -/
theorem Spec.idle {users : AppUsers} {caller caller' : Caller}
    (hinserted : caller'.inserted = caller.inserted) (hpaired : caller'.Paired)
    (hsucceeded : caller'.succeeded = caller.succeeded) : Spec users caller users caller' :=
  ⟨⟨[], hinserted, rfl⟩, hpaired, fun h => Or.inl (hsucceeded ▸ h)⟩

theorem setupStep_spec {request : SetupAdminRequest} {users users' : AppUsers}
    {stage stage' : SetupStage} (h : setupStep request users stage = some (users', stage')) :
    Spec users (.setup request stage) users' (.setup request stage') := by
  cases stage with
  | received =>
    obtain ⟨rfl, rfl⟩ := Prod.mk.inj (Option.some.inj h)
    cases setupRequired users <;> exact Spec.idle rfl trivial rfl
  | checked =>
    have hroles := insertAdmin_roles request.username request.passwordHash users
    have hempty := @rows_of_insertAdmin request.username request.passwordHash users
    rw [setupStep] at h
    cases hinsert : insertAdmin request.username request.passwordHash users with
    | mk created after =>
      rw [hinsert] at h hroles hempty
      obtain ⟨rfl, rfl⟩ := Prod.mk.inj (Option.some.inj h)
      cases created with
      | true => exact ⟨⟨[.admin], rfl, hroles⟩, trivial, fun _ => Or.inr (hempty rfl)⟩
      | false => exact ⟨⟨[], rfl, hroles⟩, trivial, fun h => nomatch h⟩
  | inserted created =>
    obtain ⟨rfl, rfl⟩ := Prod.mk.inj (Option.some.inj h)
    cases created <;> exact Spec.idle rfl trivial rfl
  | session => cases h
  | complete => cases h

theorem bootstrapStep_spec {env : EnvCredentials} {users users' : AppUsers}
    {stage stage' : BootstrapStage} (h : bootstrapStep env users stage = some (users', stage')) :
    Spec users (.bootstrap env stage) users' (.bootstrap env stage') := by
  cases stage with
  | begun =>
    obtain ⟨rfl, rfl⟩ := Prod.mk.inj (Option.some.inj h)
    cases setupRequired users <;> exact Spec.idle rfl trivial rfl
  | checked =>
    rw [bootstrapStep] at h
    split at h
    · cases hhash : env.adminHash with
      | none =>
        rw [hhash] at h
        obtain ⟨rfl, rfl⟩ := Prod.mk.inj (Option.some.inj h)
        exact Spec.idle rfl trivial rfl
      | some hash =>
        have hroles := insertUser_roles (strip env.authAdminUsername) hash .admin users
        rw [hhash] at h
        cases hinsert : insertUser (strip env.authAdminUsername) hash .admin users with
        | mk admin after =>
          simp only [hinsert] at h hroles
          obtain ⟨rfl, rfl⟩ := Prod.mk.inj (Option.some.inj h)
          cases admin with
          | true => exact ⟨⟨[.admin], rfl, hroles⟩, trivial, fun h => nomatch h⟩
          | false => exact ⟨⟨[], rfl, hroles⟩, trivial, fun h => nomatch h⟩
    · obtain ⟨rfl, rfl⟩ := Prod.mk.inj (Option.some.inj h)
      exact Spec.idle rfl trivial rfl
  | seeded created =>
    rw [bootstrapStep] at h
    split at h
    · next hwanted =>
      obtain rfl : created = true := hwanted.1
      cases hhash : env.readonlyHash with
      | none =>
        rw [hhash] at h
        obtain ⟨rfl, rfl⟩ := Prod.mk.inj (Option.some.inj h)
        exact Spec.idle rfl trivial rfl
      | some hash =>
        have hroles := insertUser_roles (strip env.authReadonlyUsername) hash .readonly users
        rw [hhash] at h
        cases hinsert : insertUser (strip env.authReadonlyUsername) hash .readonly users with
        | mk readonly after =>
          simp only [hinsert] at h hroles
          obtain ⟨rfl, rfl⟩ := Prod.mk.inj (Option.some.inj h)
          cases readonly with
          | true => exact ⟨⟨[.readonly], rfl, hroles⟩, trivial, fun h => nomatch h⟩
          | false => exact ⟨⟨[], rfl, hroles⟩, trivial, fun h => nomatch h⟩
    · obtain ⟨rfl, rfl⟩ := Prod.mk.inj (Option.some.inj h)
      cases created <;> exact Spec.idle rfl trivial rfl
  | returned admin readonly => cases h
  | raised admin => cases h

theorem step_spec {users users' : AppUsers} {caller caller' : Caller}
    (h : step () users caller = some (users', caller')) : Spec users caller users' caller' := by
  cases caller with
  | setup request stage =>
    obtain ⟨⟨users₁, stage'⟩, hstep, heq⟩ := Option.map_eq_some_iff.mp h
    obtain ⟨rfl, rfl⟩ := Prod.mk.inj heq
    exact setupStep_spec hstep
  | bootstrap env stage =>
    obtain ⟨⟨users₁, stage'⟩, hstep, heq⟩ := Option.map_eq_some_iff.mp h
    obtain ⟨rfl, rfl⟩ := Prod.mk.inj heq
    exact bootstrapStep_spec hstep

/-! ## Runs -/

/-- The rows are those the table had and those that the callers have inserted. -/
structure Accounted (roles : List Role) (c : System AppUsers Caller) : Prop where
  rows : List.Perm c.shared.roles (held Caller.inserted c.threads ++ roles)
  paired : ∀ caller ∈ c.threads, caller.Paired

theorem accounted_opening (users : AppUsers) (calls : List Call) :
    Accounted users.roles (opening users calls) := by
  refine ⟨?_, fun caller hcaller => ?_⟩
  · have hnone : held Caller.inserted (calls.map Call.start) = [] := by
      refine List.flatMap_eq_nil_iff.mpr fun caller hcaller => ?_
      obtain ⟨call, -, rfl⟩ := List.mem_map.mp hcaller
      cases call <;> rfl
    show List.Perm users.roles (held Caller.inserted (calls.map Call.start) ++ users.roles)
    rw [hnone]
    exact List.Perm.refl _
  · obtain ⟨call, -, rfl⟩ := List.mem_map.mp hcaller
    cases call <;> trivial

theorem accounted_move {roles : List Role} {c c' : System AppUsers Caller} {event : Nat × Unit}
    (h : Accounted roles c) (hmove : move step event c = some c') : Accounted roles c' := by
  obtain ⟨caller, users', caller', hcaller, hstep, rfl⟩ := move_eq_some_iff.mp hmove
  obtain ⟨⟨new, hinserted, hroles⟩, hpaired, -⟩ := step_spec hstep
  refine ⟨?_, fun other hother => ?_⟩
  · have hbefore := held_perm Caller.inserted hcaller
    have hafter := held_set_perm Caller.inserted hcaller caller'
    rw [hinserted, List.append_assoc] at hafter
    calc users'.roles = new ++ c.shared.roles := hroles
      List.Perm _ (new ++ (held Caller.inserted c.threads ++ roles)) := h.rows.append_left new
      List.Perm _ (new ++ (caller.inserted ++ others Caller.inserted c.threads event.1 ++ roles)) :=
        (hbefore.append_right roles).append_left new
      List.Perm _ (held Caller.inserted (c.threads.set event.1 caller') ++ roles) := by
        rw [← List.append_assoc]
        exact hafter.symm.append_right roles
  · obtain rfl | hmem := mem_set_cases hother
    · exact hpaired
    · exact h.paired other hmem

theorem accounted_run {roles : List Role} {events : List (Nat × Unit)}
    {c c' : System AppUsers Caller} (h : Accounted roles c)
    (hrun : Runs.run (move step) events c = some c') : Accounted roles c' :=
  Runs.run_keeps (fun _ _ _ => accounted_move) h hrun

/-- Requests with a session have inserted an administrator each. -/
theorem sessions_le (callers : List Caller) :
    (callers.filter Caller.hasSession).length ≤ (held Caller.inserted callers).count .admin := by
  induction callers with
  | nil => exact Nat.le_refl 0
  | cons caller rest ih =>
    rw [held, List.flatMap_cons, List.count_append, List.filter_cons]
    split
    · next hsession =>
        have hone : caller.inserted = [.admin] := by
          cases caller with
          | setup request stage =>
            cases stage with
            | session => rfl
            | _ => cases hsession
          | bootstrap env stage => cases hsession
        rw [hone, List.length_cons, List.count_singleton_self, Nat.add_comm]
        exact Nat.add_le_add_left ih 1
    · exact ih.trans (Nat.le_add_left _ _)

/-- A read-only account comes from a bootstrap that has created an administrator. -/
theorem admin_of_readonly {caller : Caller} (hpaired : caller.Paired)
    (h : .readonly ∈ caller.inserted) :
    (∃ env stage, caller = .bootstrap env stage) ∧ .admin ∈ caller.inserted := by
  cases caller with
  | setup request stage =>
    cases stage with
    | inserted created =>
      cases created with
      | true => cases List.mem_singleton.mp h
      | false => cases h
    | session => cases List.mem_singleton.mp h
    | _ => cases h
  | bootstrap env stage =>
    refine ⟨⟨env, stage, rfl⟩, ?_⟩
    cases stage with
    | returned admin readonly =>
      cases admin with
      | true => cases readonly <;> simp [Caller.inserted]
      | false => cases readonly with
        | true => exact hpaired.elim
        | false => cases h
    | seeded admin =>
      cases admin with
      | true => cases List.mem_singleton.mp h
      | false => cases h
    | raised admin =>
      cases admin with
      | true => cases List.mem_singleton.mp h
      | false => cases h
    | _ => cases h

/-- What holds of the accounts in every state. -/
structure FirstRun (users : AppUsers) (c : System AppUsers Caller) : Prop where
  /-- The rows are those the table had and those the callers have inserted. -/
  rows : List.Perm c.shared.roles (held Caller.inserted c.threads ++ users.roles)
  administrators : c.shared.roles.count .admin ≤ 1
  created : (held Caller.inserted c.threads).count .admin ≤ 1
  sessions : (c.threads.filter Caller.hasSession).length ≤ 1
  readonly : ∀ caller ∈ c.threads, .readonly ∈ caller.inserted →
    (∃ env stage, caller = .bootstrap env stage) ∧ .admin ∈ caller.inserted

theorem Accounted.firstRun {users : AppUsers} {c : System AppUsers Caller}
    (h : Accounted users.roles c) : FirstRun users c := by
  have hcreated : (held Caller.inserted c.threads).count .admin ≤ 1 := by
    have hcount := h.rows.count_eq .admin
    rw [List.count_append] at hcount
    have hsingle : c.shared.roles.count .admin ≤ 1 := c.shared.singleAdmin
    omega
  exact ⟨h.rows, c.shared.singleAdmin, hcreated, (sessions_le c.threads).trans hcreated,
    fun caller hcaller => admin_of_readonly (h.paired caller hcaller)⟩

/-- Once there is a user, a request that has succeeded had succeeded before. -/
theorem succeeded_run {events : List (Nat × Unit)} {c c' : System AppUsers Caller}
    (hrows : c.shared.rows ≠ []) (hrun : Runs.run (move step) events c = some c') {i : Nat}
    {caller' : Caller} (hcaller' : c'.threads[i]? = some caller')
    (hsucceeded : caller'.succeeded = true) :
    ∃ caller, c.threads[i]? = some caller ∧ caller.succeeded = true := by
  induction events generalizing c with
  | nil =>
    obtain rfl := Option.some.inj hrun
    exact ⟨caller', hcaller', hsucceeded⟩
  | cons event events ih =>
    obtain ⟨c₁, hmove, hrest⟩ := Runs.run_cons_eq_some hrun
    obtain ⟨moved, users', moved', hmoved, hstep, rfl⟩ := move_eq_some_iff.mp hmove
    have hspec := step_spec hstep
    have hrows' : users'.rows ≠ [] := by
      obtain ⟨new, -, hroles⟩ := hspec.roles
      intro hempty
      rw [AppUsers.roles, hempty] at hroles
      obtain ⟨-, hnone⟩ := List.append_eq_nil_iff.mp hroles.symm
      exact hrows (List.map_eq_nil_iff.mp hnone)
    obtain ⟨caller, hcaller, hdone⟩ := ih hrows' hrest
    rw [List.getElem?_set] at hcaller
    by_cases hi : event.1 = i
    · obtain rfl := hi
      have hlength := (List.getElem?_eq_some_iff.mp hmoved).1
      rw [if_pos rfl, if_pos hlength] at hcaller
      obtain rfl := Option.some.inj hcaller
      exact ⟨moved, hmoved, (hspec.succeeded hdone).resolve_right hrows⟩
    · rw [if_neg hi] at hcaller
      exact ⟨caller, hcaller, hdone⟩

/--
**One administrator is created, one setup request is answered with a session, none succeeds
once there is a user, and a read-only account comes from the bootstrap that created the
administrator only, in every interleaving of setup requests and bootstraps over any table.**
-/
theorem first_run (users : AppUsers) (calls : List Call) (before after : List (Nat × Unit))
    (c c' : System AppUsers Caller)
    (hbefore : Runs.run (move step) before (opening users calls) = some c)
    (hafter : Runs.run (move step) after c = some c') :
    FirstRun users c ∧ (c.shared.rows ≠ [] →
      ∀ (i : Nat) (caller' : Caller), c'.threads[i]? = some caller' → caller'.succeeded = true →
        ∃ caller, c.threads[i]? = some caller ∧ caller.succeeded = true) :=
  ⟨(accounted_run (accounted_opening users calls) hbefore).firstRun,
    fun hrows _ _ hcaller' hsucceeded => succeeded_run hrows hafter hcaller' hsucceeded⟩

/-- A table without rows. -/
def noUsers : AppUsers := ⟨[], List.nodup_nil, Nat.zero_le 1⟩

/-- Two requests find that setup is required, and one of them is answered with a session. -/
theorem two_requests_one_session :
    ∃ c c' : System AppUsers Caller, FirstRun noUsers c ∧ c.shared.rows ≠ [] ∧
      c'.threads[1]? = some (.setup ⟨"mallory".toList, "h2".toList⟩ .complete) ∧
      ∀ (i : Nat) (caller' : Caller), c'.threads[i]? = some caller' → caller'.succeeded = true →
        ∃ caller, c.threads[i]? = some caller ∧ caller.succeeded = true := by
  obtain ⟨hfirst, hlater⟩ := first_run noUsers
    [.setup ⟨"alice".toList, "h1".toList⟩, .setup ⟨"mallory".toList, "h2".toList⟩]
    [(0, ()), (1, ()), (0, ())] [(1, ()), (0, ()), (1, ())] _ _ rfl rfl
  exact ⟨_, _, hfirst, List.cons_ne_nil _ _, rfl, hlater (List.cons_ne_nil _ _)⟩

end OpenWrtCopilot.Ports.FirstRunSetup
