import Mathlib.Data.List.Nodup
import OpenWrtCopilot.Ports.SnapshotService
import OpenWrtCopilot.Ports.VaultStartups

/-!
# Which saved router the live feed polls

Ports the endpoints that save and delete router connections, and the part of the lifespan that
points the snapshot service at a saved router.  The feed is pointed at what was saved last; a
startup points it at the router that was created last, and a deletion detaches it if the host and
the user are those of the deleted router.

The state keeps the id of the router that was saved last and not deleted since, which no step
looks at.

## Main results

* `polls_step_iff` — which steps keep the feed at that router.
* `always_polls_iff` — the runs in which it always polls that router.
* `restart_polls_another` — a restart after an older router was saved.
-/

namespace OpenWrtCopilot.Ports.RouterFeed

open Verified
open Verified.PyText
open Ports.CredentialVault (CryptoLibrary decryptSecret KeyFile)
open Ports.SnapshotService (RouterConnection Service)
open Ports.VaultStartups

variable {lib : CryptoLibrary} {ι : Type}

/-! ## Saved routers -/

/-- The columns of `RouterRecord` that are saved as they are. -/
structure RouterInfo where
  name : Text
  host : Text
  port : Nat := 22
  username : Text := "root".toList
  authType : Text := "password".toList
  deviceId : Option Text := none

/-- `POST /router/save`, with the seeds of the tokens and the clock's reading. -/
structure RouterSaveRequest where
  routerId : Option Nat := none
  name : Text
  host : Text
  port : Nat := 22
  username : Text := "root".toList
  authType : Text := "password".toList
  password : Option Text := none
  privateKey : Option Text := none
  passwordSeed : Nat := 0
  privateKeySeed : Nat := 0
  now : Int := 0

/-- The arguments of `upsert`: no device id is passed. -/
def RouterSaveRequest.upserted (payload : RouterSaveRequest) : SaveRequest RouterInfo where
  routerId := payload.routerId
  info := {
    name := payload.name
    host := payload.host
    port := payload.port
    username := payload.username
    authType := payload.authType }
  password := payload.password
  privateKey := payload.privateKey
  passwordSeed := payload.passwordSeed
  privateKeySeed := payload.privateKeySeed
  now := payload.now

/-- The router with an id. -/
def rowWith (id : Nat) (routers : Routers lib RouterInfo) : Option (RouterRecord lib RouterInfo) :=
  routers.find? (·.id = id)

/-! ## The application -/

/-- What outlives the process, the codec, the live feed, and the id of the router that was saved
last and not deleted since. -/
structure App (lib : CryptoLibrary) where
  disk : Disk lib RouterInfo
  vault : lib.Key
  service : Service Unit
  last : Option Nat

/-- `SnapshotService()` where the environment names no host, with the transport it names. -/
def newService (transport : SnapshotService.Source) : Service Unit where
  connection := none
  source := transport
  deviceId := "demo-router".toList

/-- A credential that is read. -/
def readSecret (vault : lib.Key) : Option (Secret lib) → Except Text (Option Text)
  | none => .ok none
  | some secret => (decryptSecret lib vault secret.raw).map some

/-- The connection of a saved router. -/
def connectionOf (vault : lib.Key) (saved : RouterRecord lib RouterInfo) :
    Except Text RouterConnection := do
  let password ← readSecret vault saved.password
  let privateKey ← readSecret vault saved.privateKey
  return {
    host := saved.info.host
    port := saved.info.port
    username := saved.info.username
    password := password
    privateKey := privateKey
    deviceId := saved.info.deviceId }

/-- `lifespan`, up to the service's start; `none` if it raises. -/
def lifespan (startup : Startup) (transport : SnapshotService.Source)
    (disk : Disk lib RouterInfo) : Option (Disk lib RouterInfo × lib.Key × Service Unit) :=
  match ensureCredentialVault startup disk with
  | (.error _, _) => none
  | (.ok vault, disk) =>
      match mostRecent disk.routers with
      | none => some (disk, vault, (newService transport).start)
      | some saved =>
          match connectionOf vault saved with
          | .error _ => none
          | .ok connection =>
              some (disk, vault, ((newService transport).configureConnection connection).start)

/-- The id of the row that `upsert` writes. -/
def savedId (request : SaveRequest RouterInfo) (routers : Routers lib RouterInfo) : Nat :=
  (request.routerId.or ((mostRecent routers).map (·.id))).getD
    ((routers.map (·.id)).foldl max 0 + 1)

inductive Event
  | save (payload : RouterSaveRequest)
  | delete (routerId : Nat)
  | restart (startup : Startup) (transport : SnapshotService.Source)

/-- `save`: none if the router does not exist. -/
def save (payload : RouterSaveRequest) (app : App lib) : Option (App lib) :=
  match upsert (some app.vault) payload.upserted app.disk.routers with
  | .error _ => none
  | .ok routers =>
      let connection : RouterConnection := {
        host := payload.host
        port := payload.port
        username := payload.username
        password := payload.password
        privateKey := payload.privateKey
        deviceId := none }
      some { app with
        disk := { app.disk with routers := routers }
        service := (app.service.configureConnection connection).start
        last := some (savedId payload.upserted app.disk.routers) }

/-- `service.active_connection` is that of the router, as far as it is compared. -/
def comparesTo (active : Option RouterConnection) (router : RouterRecord lib RouterInfo) : Bool :=
  active.any fun active => active.host = router.info.host ∧ active.username = router.info.username

/-- `delete_connection`: none if the router does not exist. -/
def deleteConnection (routerId : Nat) (app : App lib) : Option (App lib) :=
  match rowWith routerId app.disk.routers with
  | none => none
  | some router =>
      some { app with
        disk := { app.disk with routers := app.disk.routers.filter fun r => r.id ≠ routerId }
        service := if comparesTo app.service.connection router = true then
            app.service.clearConnection
              ("Router connection '".toList ++ router.info.name ++ "' was deleted".toList)
          else app.service
        last := if app.last = some routerId then none else app.last }

/-- A request that succeeds, or a restart. -/
def step : Event → App lib → Option (App lib)
  | .save payload, app => save payload app
  | .delete routerId, app => deleteConnection routerId app
  | .restart startup transport, app =>
      (lifespan startup transport app.disk).map fun (disk, vault, service) =>
        { app with disk := disk, vault := vault, service := service }

/-- The first startup, for which the router that was created last counts as saved last. -/
def boot (startup : Startup) (transport : SnapshotService.Source) (disk : Disk lib RouterInfo) :
    Option (App lib) :=
  (lifespan startup transport disk).map fun (after, vault, service) =>
    { disk := after, vault := vault, service := service
      last := (mostRecent disk.routers).map (·.id) }

/-! ## What is polled -/

/-- A router as the feed reaches it. -/
structure Target where
  host : Text
  port : Nat
  username : Text
  password : Option Text
  privateKey : Option Text
  deriving DecidableEq

def targetOf (connection : RouterConnection) : Target where
  host := connection.host
  port := connection.port
  username := connection.username
  password := connection.password
  privateKey := connection.privateKey

/-- The router as it was saved. -/
def savedTarget (router : RouterRecord lib RouterInfo) : Target where
  host := router.info.host
  port := router.info.port
  username := router.info.username
  password := router.password.map (·.saved)
  privateKey := router.privateKey.map (·.saved)

/-- The connection that the feed polls. -/
def polled (service : Service Unit) : Option RouterConnection :=
  match service.origin with
  | some (.connection connection) => some connection
  | _ => none

/-- The router that was saved last and not deleted since. -/
def lastSaved (app : App lib) : Option (RouterRecord lib RouterInfo) :=
  app.last.bind fun id => rowWith id app.disk.routers

/-- The feed polls the router that was saved last and not deleted since, and none if there is
none. -/
def Polls (app : App lib) : Prop :=
  (polled app.service).map targetOf = (lastSaved app).map savedTarget

/-! ## Rows -/

/-- The row that was created later. -/
def later (best : Option (RouterRecord lib ι)) (r : RouterRecord lib ι) :
    Option (RouterRecord lib ι) :=
  match best with
  | none => some r
  | some b =>
      if b.createdAt < r.createdAt ∨ b.createdAt = r.createdAt ∧ b.id < r.id then some r
      else some b

theorem mostRecent_eq (routers : Routers lib ι) :
    mostRecent routers = routers.foldl later none := rfl

theorem later_mem {best : Option (RouterRecord lib ι)} {r found : RouterRecord lib ι}
    (h : later best r = some found) : found = r ∨ best = some found := by
  cases best with
  | none => exact Or.inl (Option.some.inj h).symm
  | some b =>
    rw [later] at h
    split at h
    · exact Or.inl (Option.some.inj h).symm
    · exact Or.inr h

theorem mostRecent_eq_none {routers : Routers lib ι} (h : mostRecent routers = none) :
    routers = [] := by
  have hsome : ∀ (rest : Routers lib ι) (best : RouterRecord lib ι),
      rest.foldl later (some best) ≠ none := by
    intro rest
    induction rest with
    | nil => exact fun best => Option.some_ne_none best
    | cons r rest ih =>
      intro best
      rw [List.foldl_cons, later]
      split
      · exact ih r
      · exact ih best
  cases routers with
  | nil => rfl
  | cons r rest => exact absurd h (hsome rest r)

theorem mostRecent_mem {routers : Routers lib ι} {saved : RouterRecord lib ι}
    (h : mostRecent routers = some saved) : saved ∈ routers := by
  have hfold : ∀ (rest : Routers lib ι) (best : Option (RouterRecord lib ι)),
      rest.foldl later best = some saved → saved ∈ rest ∨ best = some saved := by
    intro rest
    induction rest with
    | nil => exact fun best hbest => Or.inr hbest
    | cons r rest ih =>
      intro best hbest
      obtain hmem | hlater := ih (later best r) hbest
      · exact Or.inl (List.mem_cons_of_mem r hmem)
      · obtain rfl | hbest := later_mem hlater
        · exact Or.inl List.mem_cons_self
        · exact Or.inr hbest
  rw [mostRecent_eq] at h
  exact (hfold routers none h).resolve_right (Option.some_ne_none saved).symm

/-- What keeps the ids and the times of creation keeps which row was created last. -/
theorem mostRecent_map (f : RouterRecord lib ι → RouterRecord lib ι)
    (hf : ∀ r, (f r).id = r.id ∧ (f r).createdAt = r.createdAt) (routers : Routers lib ι) :
    mostRecent (routers.map f) = (mostRecent routers).map f := by
  have hlater (best : Option (RouterRecord lib ι)) (r : RouterRecord lib ι) :
      later (best.map f) (f r) = (later best r).map f := by
    cases best with
    | none => rfl
    | some b =>
      rw [Option.map_some, later, later, (hf b).1, (hf b).2, (hf r).1, (hf r).2]
      split <;> rfl
  have hfold : ∀ best : Option (RouterRecord lib ι),
      (routers.map f).foldl later (best.map f) = (routers.foldl later best).map f := by
    induction routers with
    | nil => exact fun best => rfl
    | cons r rest ih =>
      intro best
      rw [List.map_cons, List.foldl_cons, List.foldl_cons, hlater]
      exact ih (later best r)
  exact hfold none

theorem rowWith_map (f : RouterRecord lib RouterInfo → RouterRecord lib RouterInfo)
    (hf : ∀ r, (f r).id = r.id) (id : Nat) (routers : Routers lib RouterInfo) :
    rowWith id (routers.map f) = (rowWith id routers).map f := by
  rw [rowWith, List.find?_map]
  congr 2
  funext r
  exact congrArg (fun i : Nat => decide (i = id)) (hf r)

/-- The row that is written has what was saved. -/
theorem rowWith_upsert {vault : lib.Key} {payload : RouterSaveRequest}
    {routers routers' : Routers lib RouterInfo}
    (h : upsert (some vault) payload.upserted routers = .ok routers') :
    (rowWith (savedId payload.upserted routers) routers').map savedTarget =
      some ⟨payload.host, payload.port, payload.username, payload.password,
        payload.privateKey⟩ := by
  have hsaved (text : Option Text) (seed : Nat) :
      (text.map (encodeSecret (some vault) seed)).map Secret.saved = text := by
    cases text <;> rfl
  have htarget (r : RouterRecord lib RouterInfo) :
      savedTarget (applyRequest (some vault) payload.upserted r) =
        ⟨payload.host, payload.port, payload.username, payload.password, payload.privateKey⟩ := by
    simp only [savedTarget, applyRequest, hsaved]
    rfl
  rw [upsert, if_pos (by simp [encryptionAvailable])] at h
  rw [savedId]
  cases hid : payload.upserted.routerId.or ((mostRecent routers).map (·.id)) with
  | some id =>
    rw [hid] at h
    dsimp only at h
    rw [Option.getD_some]
    by_cases hmem : id ∈ routers.map (·.id)
    · rw [if_pos hmem] at h
      rw [← Except.ok.inj h, rowWith_map _ fun r => by split <;> rfl]
      obtain ⟨row, hrow, hrowId⟩ := List.mem_map.mp hmem
      have hsome : (rowWith id routers).isSome = true :=
        List.find?_isSome.mpr ⟨row, hrow, decide_eq_true hrowId⟩
      obtain ⟨found, hrowWith⟩ := Option.isSome_iff_exists.mp hsome
      have hfoundId : found.id = id := by simpa using List.find?_some hrowWith
      rw [hrowWith, Option.map_some, Option.map_some, if_pos hfoundId, htarget]
    · rw [if_neg hmem] at h
      cases h
  | none =>
    rw [hid] at h
    have hnone : mostRecent routers = none := by
      obtain ⟨-, hrecent⟩ := Option.or_eq_none_iff.mp hid
      exact Option.map_eq_none_iff.mp hrecent
    obtain rfl := mostRecent_eq_none hnone
    rw [← Except.ok.inj h]
    rw [Option.getD_none, rowWith, List.nil_append, List.find?_cons_of_pos (by
      rw [newRecord]
      exact decide_eq_true rfl), Option.map_some]
    simp only [savedTarget, newRecord, hsaved]
    rfl

theorem rowWith_filter {id other : Nat} (h : other ≠ id) (routers : Routers lib RouterInfo) :
    rowWith other (routers.filter fun r => r.id ≠ id) = rowWith other routers := by
  rw [rowWith, rowWith, List.find?_filter]
  congr 1
  funext r
  by_cases hr : r.id = other
  · simp [hr, h]
  · simp [hr]

/-! ## Startups -/

/-- A connection is polled over SSH. -/
def Attached (service : Service Unit) : Prop :=
  ∀ connection, service.connection = some connection → service.source = .ssh

theorem polled_eq {service : Service Unit} (h : Attached service) :
    polled service = service.connection := by
  rw [polled, Service.origin]
  cases hconnection : service.connection with
  | none => cases service.source <;> rfl
  | some connection => rw [h connection hconnection]

theorem start_connection (service : Service Unit) :
    service.start.connection = service.connection ∧ service.start.source = service.source := by
  rw [Service.start]
  split
  · exact ⟨rfl, rfl⟩
  · cases service.task <;> exact ⟨rfl, rfl⟩

/-- The service is attached to what it is configured with. -/
theorem configured (service : Service Unit) (connection : RouterConnection) :
    Attached (service.configureConnection connection).start ∧
      polled (service.configureConnection connection).start = some connection := by
  obtain ⟨hconnection, hsource⟩ := start_connection (service.configureConnection connection)
  have hattached : Attached (service.configureConnection connection).start := fun _ _ => hsource
  exact ⟨hattached, (polled_eq hattached).trans hconnection⟩

/-- What is read with the codec is what was saved. -/
theorem readSecret_eq {startup : Startup} {disk after : Disk lib RouterInfo} {vault : lib.Key}
    (hstored : Stored disk.routers) (h : ensureCredentialVault startup disk = (.ok vault, after))
    {secret : Option (Secret lib)} (hsecret : ∀ c, secret = some c → c ∈ secrets after.routers)
    {text : Option Text} (htext : readSecret vault secret = .ok text) :
    text = secret.map (·.saved) := by
  cases secret with
  | none => exact (Except.ok.inj htext).symm
  | some c =>
    have hread := (ensure_sound startup hstored).reads vault after h c (hsecret c rfl)
    rw [readSecret, hread] at htext
    split at htext
    · exact (Except.ok.inj htext).symm
    · cases htext

theorem connectionOf_eq_ok {vault : lib.Key} {saved : RouterRecord lib RouterInfo}
    {connection : RouterConnection} (h : connectionOf vault saved = .ok connection) :
    ∃ password privateKey, readSecret vault saved.password = .ok password ∧
      readSecret vault saved.privateKey = .ok privateKey ∧
      connection = {
        host := saved.info.host
        port := saved.info.port
        username := saved.info.username
        password := password
        privateKey := privateKey
        deviceId := saved.info.deviceId } := by
  rw [connectionOf] at h
  cases hpassword : readSecret vault saved.password with
  | error e =>
    rw [hpassword] at h
    cases h
  | ok password =>
    cases hprivateKey : readSecret vault saved.privateKey with
    | error e =>
      rw [hpassword, hprivateKey] at h
      cases h
    | ok privateKey =>
      rw [hpassword, hprivateKey] at h
      exact ⟨password, privateKey, rfl, rfl, (Except.ok.inj h).symm⟩

/-- The migration changes neither when a router was created nor what was saved. -/
theorem migrateVault_eq_map (vault : lib.Key) (seeds : Nat → Bool → Nat)
    (routers : Routers lib RouterInfo) :
    ∃ f : RouterRecord lib RouterInfo → RouterRecord lib RouterInfo,
      migrateVault vault seeds routers = routers.map f ∧
        (∀ r, (f r).id = r.id ∧ (f r).createdAt = r.createdAt) ∧ savedTarget ∘ f = savedTarget := by
  refine ⟨_, rfl, fun r => ⟨rfl, rfl⟩, ?_⟩
  have hmigrate (seed : Nat) (c : Option (Secret lib)) :
      (c.map (migrateSecret vault seed)).map Secret.saved = c.map Secret.saved := by
    cases c with
    | none => rfl
    | some c =>
      rw [Option.map_some, Option.map_some, migrateSecret]
      split <;> rfl
  funext r
  simp only [Function.comp, savedTarget, hmigrate]

/-- A startup keeps the rows, and polls the one that was created last. -/
theorem lifespan_eq_some {startup : Startup} {transport : SnapshotService.Source}
    {disk after : Disk lib RouterInfo} {vault : lib.Key} {service : Service Unit}
    (hstored : Stored disk.routers)
    (h : lifespan startup transport disk = some (after, vault, service)) :
    Stored after.routers ∧ Attached service ∧
      (∀ id, (rowWith id after.routers).map savedTarget =
        (rowWith id disk.routers).map savedTarget) ∧
      (polled service).map targetOf = (mostRecent disk.routers).map savedTarget := by
  rw [lifespan] at h
  cases hensure : ensureCredentialVault startup disk with
  | mk result migrated =>
    rw [hensure] at h
    cases result with
    | error e => cases h
    | ok key =>
      have hkept := stored_ensure startup hstored
      rw [hensure] at hkept
      have hrouters := (ensure_eq_ok hensure).1
      obtain ⟨f, hmap, hf, htarget⟩ := migrateVault_eq_map key startup.seeds disk.routers
      rw [hmap] at hrouters
      have hrecent : (mostRecent migrated.routers).map savedTarget =
          (mostRecent disk.routers).map savedTarget := by
        rw [hrouters, mostRecent_map f hf, Option.map_map, htarget]
      have hrows (id : Nat) : (rowWith id migrated.routers).map savedTarget =
          (rowWith id disk.routers).map savedTarget := by
        rw [hrouters, rowWith_map f fun r => (hf r).1, Option.map_map, htarget]
      dsimp only at h
      cases hsaved : mostRecent migrated.routers with
      | none =>
        rw [hsaved] at h
        obtain ⟨rfl, hrest⟩ := Prod.mk.inj (Option.some.inj h)
        obtain ⟨rfl, rfl⟩ := Prod.mk.inj hrest
        obtain ⟨hconnection, hsource⟩ := start_connection (newService transport)
        have hattached : Attached (newService transport).start := by
          intro connection hsome
          rw [hconnection] at hsome
          cases hsome
        refine ⟨hkept, hattached, hrows, ?_⟩
        rw [polled_eq hattached, hconnection, ← hrecent, hsaved]
        rfl
      | some saved =>
        rw [hsaved] at h
        dsimp only at h
        cases hread : connectionOf key saved with
        | error e =>
          rw [hread] at h
          cases h
        | ok connection =>
          rw [hread] at h
          obtain ⟨rfl, hrest⟩ := Prod.mk.inj (Option.some.inj h)
          obtain ⟨rfl, rfl⟩ := Prod.mk.inj hrest
          obtain ⟨hattached, hpolled⟩ := configured (newService transport) connection
          refine ⟨hkept, hattached, hrows, ?_⟩
          rw [hpolled, ← hrecent, hsaved, Option.map_some, Option.map_some]
          have hmem := mostRecent_mem hsaved
          obtain ⟨password, privateKey, hpassword, hprivateKey, hread⟩ :=
            connectionOf_eq_ok hread
          have hp := readSecret_eq hstored hensure (fun c hc =>
            mem_secrets.mpr ⟨saved, hmem, Or.inl hc⟩) hpassword
          have hk := readSecret_eq hstored hensure (fun c hc =>
            mem_secrets.mpr ⟨saved, hmem, Or.inr hc⟩) hprivateKey
          rw [hread, hp, hk]
          rfl

/-! ## Runs -/

/-- The feed polls what it should, credentials are stored as they say, and a connection is
polled over SSH. -/
structure Good (app : App lib) : Prop where
  polls : Polls app
  stored : Stored app.disk.routers
  attached : Attached app.service

/-- A restart finds that the router that was created last is the one to be polled, and a
deletion of another router finds other hosts and users compared. -/
def Keeps (app : App lib) : Event → Prop
  | .save _ => True
  | .delete routerId =>
      app.last = some routerId ∨
        (rowWith routerId app.disk.routers).any (comparesTo app.service.connection) = false
  | .restart _ _ =>
      (mostRecent app.disk.routers).map savedTarget = (lastSaved app).map savedTarget

instance (app : App lib) (event : Event) : Decidable (Keeps app event) := by
  unfold Keeps
  split <;> infer_instance

theorem save_step {payload : RouterSaveRequest} {app app' : App lib}
    (hstored : Stored app.disk.routers) (h : save payload app = some app') : Good app' := by
  rw [save] at h
  cases hupsert : upsert (some app.vault) payload.upserted app.disk.routers with
  | error e =>
    rw [hupsert] at h
    cases h
  | ok routers =>
    rw [hupsert] at h
    obtain rfl := Option.some.inj h
    obtain ⟨hattached, hpolled⟩ := configured app.service
      { host := payload.host
        port := payload.port
        username := payload.username
        password := payload.password
        privateKey := payload.privateKey
        deviceId := none }
    refine ⟨?_, stored_upsert hstored hupsert, hattached⟩
    rw [Polls, lastSaved, Option.bind_some, rowWith_upsert hupsert, hpolled]
    rfl

/-- Nothing is polled after the feed was detached. -/
theorem cleared (service : Service Unit) (reason : Text) :
    Attached (service.clearConnection reason) ∧ polled (service.clearConnection reason) = none := by
  have hconnection : (service.clearConnection reason).connection = none := by
    rw [Service.clearConnection]
    split <;> rfl
  have hattached : Attached (service.clearConnection reason) := by
    intro connection hsome
    rw [hconnection] at hsome
    cases hsome
  exact ⟨hattached, (polled_eq hattached).trans hconnection⟩

/-- What is polled is recognised by the deletion of its router. -/
theorem comparesTo_of_target {active : Option RouterConnection}
    {router : RouterRecord lib RouterInfo}
    (h : active.map targetOf = some (savedTarget router)) : comparesTo active router = true := by
  obtain ⟨connection, rfl, htarget⟩ := Option.map_eq_some_iff.mp h
  have hhost : connection.host = router.info.host := congrArg Target.host htarget
  have husername : connection.username = router.info.username := congrArg Target.username htarget
  rw [comparesTo, Option.any_some]
  exact decide_eq_true ⟨hhost, husername⟩

theorem delete_step {routerId : Nat} {app app' : App lib} (hgood : Good app)
    (h : deleteConnection routerId app = some app') :
    Stored app'.disk.routers ∧ Attached app'.service ∧
      (Polls app' ↔ Keeps app (.delete routerId)) := by
  rw [deleteConnection] at h
  cases hrow : rowWith routerId app.disk.routers with
  | none =>
    rw [hrow] at h
    cases h
  | some router =>
    rw [hrow] at h
    obtain rfl := Option.some.inj h
    have hpolled := polled_eq hgood.attached
    obtain ⟨hcleared, hnone⟩ := cleared app.service
      ("Router connection '".toList ++ router.info.name ++ "' was deleted".toList)
    refine ⟨?_, ?_, ?_⟩
    · intro c hc
      obtain ⟨r, hr, hcolumn⟩ := mem_secrets.mp hc
      exact hgood.stored c (mem_secrets.mpr ⟨r, List.mem_of_mem_filter hr, hcolumn⟩)
    · dsimp only
      split
      · exact hcleared
      · exact hgood.attached
    · have hpolls := hgood.polls
      rw [Polls, hpolled] at hpolls
      by_cases hlast : app.last = some routerId
      · -- the router that is polled is the one that is deleted
        rw [lastSaved, hlast, Option.bind_some, hrow, Option.map_some] at hpolls
        have hcompares := comparesTo_of_target hpolls
        refine iff_of_true ?_ (Or.inl hlast)
        simp only [Polls, lastSaved, if_pos hlast, if_pos hcompares, hnone]
        rfl
      · have hkept : (app.last.bind fun id =>
            rowWith id (app.disk.routers.filter fun r => r.id ≠ routerId)) = lastSaved app := by
          rw [lastSaved]
          cases hother : app.last with
          | none => rfl
          | some other =>
            have hne : other ≠ routerId := fun heq => hlast (hother.trans (congrArg some heq))
            exact rowWith_filter hne app.disk.routers
        have hkeeps : Keeps app (.delete routerId) ↔
            comparesTo app.service.connection router = false := by
          rw [Keeps, hrow, Option.any_some]
          exact or_iff_right hlast
        rw [hkeeps]
        simp only [Polls, lastSaved, if_neg hlast]
        rw [hkept]
        cases hcompares : comparesTo app.service.connection router with
        | true =>
          refine iff_of_false ?_ nofun
          rw [if_pos rfl, hnone, ← hpolls]
          intro hnothing
          cases hconnection : app.service.connection with
          | none =>
            rw [hconnection] at hcompares
            cases hcompares
          | some connection =>
            rw [hconnection] at hnothing
            cases hnothing
        | false =>
          refine iff_of_true ?_ rfl
          rw [if_neg Bool.false_ne_true, hpolled]
          exact hpolls

theorem restart_step {startup : Startup} {transport : SnapshotService.Source} {app app' : App lib}
    (hstored : Stored app.disk.routers) (h : step (.restart startup transport) app = some app') :
    Stored app'.disk.routers ∧ Attached app'.service ∧
      (Polls app' ↔ Keeps app (.restart startup transport)) := by
  obtain ⟨⟨disk, vault, service⟩, hlifespan, rfl⟩ := Option.map_eq_some_iff.mp h
  obtain ⟨hkept, hattached, hrows, hpolled⟩ := lifespan_eq_some hstored hlifespan
  refine ⟨hkept, hattached, ?_⟩
  have hsaved : (app.last.bind fun id => rowWith id disk.routers).map savedTarget =
      (lastSaved app).map savedTarget := by
    rw [lastSaved]
    cases app.last with
    | none => rfl
    | some id => exact hrows id
  dsimp only [Polls, Keeps, lastSaved]
  rw [hpolled, hsaved]
  rfl

/-- **A save makes the feed poll what was saved; a restart and a deletion keep that exactly if
they meet the condition.** -/
theorem polls_step_iff {event : Event} {app app' : App lib} (hgood : Good app)
    (h : step event app = some app') :
    Stored app'.disk.routers ∧ Attached app'.service ∧ (Polls app' ↔ Keeps app event) := by
  cases event with
  | save payload =>
    obtain ⟨hpolls, hstored, hattached⟩ := save_step hgood.stored h
    exact ⟨hstored, hattached, iff_of_true hpolls trivial⟩
  | delete routerId => exact delete_step hgood h
  | restart startup transport => exact restart_step hgood.stored h

/-- A table: its credentials are plain text, or ciphertext of some key. -/
structure SavedRouters (lib : CryptoLibrary) where
  routers : Routers lib RouterInfo
  ids : (routers.map (·.id)).Nodup
  stored : Stored routers

/-- The row is the only one with its id. -/
theorem rowWith_mostRecent {routers : Routers lib RouterInfo} (hids : (routers.map (·.id)).Nodup) :
    ((mostRecent routers).map (·.id)).bind (fun id => rowWith id routers) = mostRecent routers := by
  cases hrecent : mostRecent routers with
  | none => rfl
  | some saved =>
    rw [Option.map_some, Option.bind_some]
    have hmem := mostRecent_mem hrecent
    cases hrow : rowWith saved.id routers with
    | none => exact absurd (decide_eq_true rfl) (List.find?_eq_none.mp hrow saved hmem)
    | some found =>
      have hid : found.id = saved.id := by simpa using List.find?_some hrow
      have hsame := List.inj_on_of_nodup_map hids (List.mem_of_find?_eq_some hrow) hmem hid
      rw [hsame]

theorem good_boot {startup : Startup} {transport : SnapshotService.Source}
    {saved : SavedRouters lib} {keyFile : KeyFile} {app : App lib}
    (h : boot startup transport ⟨saved.routers, keyFile⟩ = some app) : Good app := by
  obtain ⟨⟨after, vault, service⟩, hlifespan, rfl⟩ := Option.map_eq_some_iff.mp h
  obtain ⟨hkept, hattached, hrows, hpolled⟩ := lifespan_eq_some saved.stored hlifespan
  refine ⟨?_, hkept, hattached⟩
  dsimp only [Polls, lastSaved]
  have hsame : (((mostRecent saved.routers).map (·.id)).bind
      fun id => rowWith id after.routers).map savedTarget =
      (((mostRecent saved.routers).map (·.id)).bind
        fun id => rowWith id saved.routers).map savedTarget := by
    cases (mostRecent saved.routers).map (·.id) with
    | none => rfl
    | some id => exact hrows id
  rw [hpolled, hsame, rowWith_mostRecent saved.ids]

/-- **The feed polls the router that was saved last and not deleted since, all along a run,
exactly if every restart finds that this router was also created last, and no deletion finds
the host and the user of another router.** -/
theorem always_polls_iff (saved : SavedRouters lib) (keyFile : KeyFile) (startup : Startup)
    (transport : SnapshotService.Source) (events : List Event) (app t : App lib)
    (hboot : boot startup transport ⟨saved.routers, keyFile⟩ = some app)
    (hrun : Runs.run step events app = some t) :
    Runs.Always step Polls events app ↔ Runs.Meets step Keeps events app := by
  refine Runs.always_iff_meets (I := Good) (fun _ hgood => hgood.polls) ?_ ?_ (good_boot hboot) hrun
  · intro app event app' hgood hkeeps hstep
    obtain ⟨hstored, hattached, hpolls⟩ := polls_step_iff hgood hstep
    exact ⟨hpolls.mpr hkeeps, hstored, hattached⟩
  · intro app event app' hgood hfails hstep hpolls
    exact hfails ((polls_step_iff hgood hstep).2.2.mp hpolls)

/-! ## Two routers -/

def savedAs (id : Nat) (host : Text) (createdAt : Int) :
    RouterRecord keyedLibrary RouterInfo where
  id := id
  info := { name := host, host := host }
  createdAt := createdAt
  password := none
  privateKey := none

/-- The second router was created after the first. -/
def twoRouters : SavedRouters keyedLibrary where
  routers := [savedAs 1 "10.0.0.1".toList 100, savedAs 2 "10.0.0.2".toList 200]
  ids := by decide
  stored := nofun

def plainStartup : Startup where
  settings := {}
  generated := firstKey
  seeds _ _ := 0

/-- The second router is saved again, and the first one is deleted. -/
theorem second_router_polled :
    ∃ app, boot plainStartup .ssh ⟨twoRouters.routers, .absent⟩ = some app ∧
      Runs.Always step Polls
        [.save { routerId := some 2, name := "10.0.0.2".toList, host := "10.0.0.2".toList },
          .delete 1, .restart plainStartup .ssh] app :=
  ⟨_, rfl, (always_polls_iff twoRouters .absent plainStartup .ssh _ _ _ rfl rfl).mpr (by decide)⟩

/-- The first router is saved again; after a restart the second one is polled. -/
theorem restart_polls_another :
    ¬ ∀ (saved : SavedRouters keyedLibrary) (keyFile : KeyFile) (startup : Startup)
      (transport : SnapshotService.Source) (events : List Event) (app t : App keyedLibrary),
      boot startup transport ⟨saved.routers, keyFile⟩ = some app →
      Runs.run step events app = some t → Polls t := by
  intro h
  have hpolls := h twoRouters .absent plainStartup .ssh
    [.save { routerId := some 1, name := "10.0.0.1".toList, host := "10.0.0.1".toList },
      .restart plainStartup .ssh] _ _ rfl rfl
  have hhost := congrArg (Option.map Target.host) hpolls
  exact absurd hhost (by decide)

end OpenWrtCopilot.Ports.RouterFeed
