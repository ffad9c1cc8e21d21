import OpenWrtCopilot.Ports.CredentialVault
import OpenWrtCopilot.Verified.Runs

/-!
# Startups of the credential vault

Ports `RouterStore` with the codec its records are read and written through, and
`ensure_credential_vault`, over runs of startups, saves and changes of the key file.
Each stored credential is kept with the value it stands for and the key it was
encrypted with, which no step looks at.

## Main results

* `ensure_sound` — a startup that raises changes nothing that is stored; one that
  succeeds reads exactly what was encrypted with the key in effect and refuses the rest.
* `startups_sound` — this holds of every startup of every run.
* `override_loses_credentials` — a startup that succeeds with another key.
-/

namespace OpenWrtCopilot.Ports.VaultStartups

open Verified
open Verified.PyText
open Verified.PyBase64 (urlsafeB64encode)
open Ports.CredentialVault

variable {lib : CryptoLibrary} {ι : Type}

/-! ## Stored credentials -/

/-- A column that holds a credential. -/
structure Secret (lib : CryptoLibrary) where
  raw : Text
  /-- The value that was saved. -/
  saved : Text
  /-- The key it was encrypted with, if it was. -/
  under : Option lib.Key

/-- What the column says is so: plain text carries no marker, and ciphertext is that of
the value. -/
def Secret.Faithful (c : Secret lib) : Prop :=
  match c.under with
  | none => c.raw = c.saved ∧ startsWith encPrefix c.raw = false
  | some vault => ∃ seed, c.raw = encryptSecret lib vault seed c.saved

/-- `_encode_secret`. -/
def encodeSecret (codec : Option lib.Key) (seed : Nat) (plaintext : Text) : Secret lib :=
  match codec with
  | some vault =>
      { raw := encryptSecret lib vault seed plaintext, saved := plaintext, under := some vault }
  | none => { raw := plaintext, saved := plaintext, under := none }

/-- Ciphertext is read with its own key only. -/
theorem decryptSecret_of_under {c : Secret lib} (hc : c.Faithful) {vault : lib.Key}
    (hunder : c.under = some vault) (other : lib.Key) :
    decryptSecret lib other c.raw =
      if vault = other then .ok c.saved else .error decryptFailed := by
  rw [Secret.Faithful, hunder] at hc
  obtain ⟨seed, hraw⟩ := hc
  rw [hraw, decryptSecret_encryptSecret]

theorem startsWith_of_under {c : Secret lib} (hc : c.Faithful) :
    startsWith encPrefix c.raw = c.under.isSome := by
  cases hunder : c.under with
  | none =>
    rw [Secret.Faithful, hunder] at hc
    exact hc.2
  | some vault =>
    rw [Secret.Faithful, hunder] at hc
    obtain ⟨seed, hraw⟩ := hc
    rw [hraw]
    exact startsWith_encryptSecret vault seed c.saved

/-! ## The router store -/

/-- `RouterRecord`, with its other columns in `info`. -/
structure RouterRecord (lib : CryptoLibrary) (ι : Type) where
  id : Nat
  info : ι
  createdAt : Int
  password : Option (Secret lib)
  privateKey : Option (Secret lib)

abbrev Routers (lib : CryptoLibrary) (ι : Type) := List (RouterRecord lib ι)

def RouterRecord.secrets (r : RouterRecord lib ι) : List (Secret lib) :=
  r.password.toList ++ r.privateKey.toList

/-- All stored credentials. -/
def secrets (routers : Routers lib ι) : List (Secret lib) :=
  routers.flatMap RouterRecord.secrets

/-- A call of `upsert`: with the seeds of the tokens and the clock's reading. -/
structure SaveRequest (ι : Type) where
  routerId : Option Nat
  info : ι
  password : Option Text
  privateKey : Option Text
  passwordSeed : Nat
  privateKeySeed : Nat
  now : Int

def vaultUnavailable : Text :=
  ("The credential vault is not available. Restart the application " ++
    "to re-initialize the router credential vault, then save again.").toList

/-- `_assert_encryption_available`. -/
def encryptionAvailable (codec : Option lib.Key) (request : SaveRequest ι) : Bool :=
  codec.isSome ∨ request.password.getD [] = [] ∧ request.privateKey.getD [] = []

/-- `_apply`. -/
def applyRequest (codec : Option lib.Key) (request : SaveRequest ι) (r : RouterRecord lib ι) :
    RouterRecord lib ι where
  id := r.id
  info := request.info
  createdAt := r.createdAt
  password := request.password.map (encodeSecret codec request.passwordSeed)
  privateKey := request.privateKey.map (encodeSecret codec request.privateKeySeed)

/-- The row `save` inserts. -/
def newRecord (codec : Option lib.Key) (request : SaveRequest ι) (routers : Routers lib ι) :
    RouterRecord lib ι where
  id := (routers.map (·.id)).foldl max 0 + 1
  info := request.info
  createdAt := request.now
  password := request.password.map (encodeSecret codec request.passwordSeed)
  privateKey := request.privateKey.map (encodeSecret codec request.privateKeySeed)

/-- `get_most_recent`: `ORDER BY created_at DESC, id DESC LIMIT 1`. -/
def mostRecent (routers : Routers lib ι) : Option (RouterRecord lib ι) :=
  routers.foldl
    (fun best r =>
      match best with
      | none => some r
      | some b =>
          if b.createdAt < r.createdAt ∨ b.createdAt = r.createdAt ∧ b.id < r.id then some r
          else some b)
    none

/-- `upsert`. -/
def upsert (codec : Option lib.Key) (request : SaveRequest ι) (routers : Routers lib ι) :
    Except Text (Routers lib ι) :=
  if encryptionAvailable codec request then
    match request.routerId.or ((mostRecent routers).map (·.id)) with
    | some id =>
        if id ∈ routers.map (·.id) then
          .ok (routers.map fun r => if r.id = id then applyRequest codec request r else r)
        else .error ("router ".toList ++ natText id ++ " does not exist".toList)
    | none => .ok (routers ++ [newRecord codec request routers])
  else .error vaultUnavailable

/-- `LIKE 'encv1:%'`, which does not look at the case of ASCII letters. -/
def likeEncrypted (raw : Text) : Bool :=
  startsWith encPrefix (raw.map Char.toLower)

/-- `has_encrypted_credentials`. -/
def hasEncryptedCredentials (routers : Routers lib ι) : Bool :=
  (secrets routers).any fun c => likeEncrypted c.raw

/-- A column in `migrate_vault`. -/
def migrateSecret (vault : lib.Key) (seed : Nat) (c : Secret lib) : Secret lib :=
  if startsWith encPrefix c.raw then c
  else { raw := encryptSecret lib vault seed c.raw, saved := c.saved, under := some vault }

/-- `migrate_vault`, with a seed for each column it encrypts. -/
def migrateVault (vault : lib.Key) (seeds : Nat → Bool → Nat) (routers : Routers lib ι) :
    Routers lib ι :=
  routers.map fun r =>
    { r with
      password := r.password.map (migrateSecret vault (seeds r.id true))
      privateKey := r.privateKey.map (migrateSecret vault (seeds r.id false)) }

theorem mem_secrets {routers : Routers lib ι} {c : Secret lib} :
    c ∈ secrets routers ↔ ∃ r ∈ routers, r.password = some c ∨ r.privateKey = some c := by
  simp [secrets, RouterRecord.secrets]

/-- Every credential is stored as it says. -/
def Stored (routers : Routers lib ι) : Prop := ∀ c ∈ secrets routers, c.Faithful

theorem faithful_encodeSecret {codec : Option lib.Key} (seed : Nat) {plaintext : Text}
    (h : codec.isSome ∨ plaintext = []) : (encodeSecret codec seed plaintext).Faithful := by
  cases codec with
  | some vault => exact ⟨seed, rfl⟩
  | none =>
    obtain hsome | rfl := h
    · cases hsome
    · exact ⟨rfl, rfl⟩

/-- What a request that is let through writes is stored as it says. -/
theorem faithful_of_request {codec : Option lib.Key} {request : SaveRequest ι}
    (h : encryptionAvailable codec request) {plaintext : Option Text}
    (hplaintext : plaintext = request.password ∨ plaintext = request.privateKey) (seed : Nat)
    {c : Secret lib} (hc : plaintext.map (encodeSecret codec seed) = some c) : c.Faithful := by
  obtain ⟨text, rfl, rfl⟩ := Option.map_eq_some_iff.mp hc
  refine faithful_encodeSecret seed ?_
  simp only [encryptionAvailable, decide_eq_true_eq] at h
  obtain hcodec | ⟨hpassword, hprivateKey⟩ := h
  · exact Or.inl hcodec
  · obtain hp | hk := hplaintext
    · rw [← hp] at hpassword
      exact Or.inr hpassword
    · rw [← hk] at hprivateKey
      exact Or.inr hprivateKey

theorem stored_upsert {codec : Option lib.Key} {request : SaveRequest ι}
    {routers routers' : Routers lib ι} (hstored : Stored routers)
    (h : upsert codec request routers = .ok routers') : Stored routers' := by
  unfold upsert at h
  by_cases havailable : encryptionAvailable codec request = true
  · rw [if_pos havailable] at h
    have hwritten : ∀ {c : Secret lib} {password privateKey : Option (Secret lib)},
        password = request.password.map (encodeSecret codec request.passwordSeed) →
        privateKey = request.privateKey.map (encodeSecret codec request.privateKeySeed) →
        password = some c ∨ privateKey = some c → c.Faithful := by
      intro c password privateKey hpassword hprivateKey hc
      obtain hc | hc := hc
      · exact faithful_of_request havailable (Or.inl rfl) _ (hpassword.symm.trans hc)
      · exact faithful_of_request havailable (Or.inr rfl) _ (hprivateKey.symm.trans hc)
    split at h
    · next id _ =>
      split at h
      · obtain rfl := Except.ok.inj h
        intro c hc
        obtain ⟨r, hr, hcolumn⟩ := mem_secrets.mp hc
        obtain ⟨old, hold, rfl⟩ := List.mem_map.mp hr
        by_cases hid : old.id = id
        · rw [if_pos hid] at hcolumn
          exact hwritten rfl rfl hcolumn
        · rw [if_neg hid] at hcolumn
          exact hstored c (mem_secrets.mpr ⟨old, hold, hcolumn⟩)
      · cases h
    · obtain rfl := Except.ok.inj h
      intro c hc
      obtain ⟨r, hr, hcolumn⟩ := mem_secrets.mp hc
      obtain hold | hnew := List.mem_append.mp hr
      · exact hstored c (mem_secrets.mpr ⟨r, hold, hcolumn⟩)
      · obtain rfl := List.mem_singleton.mp hnew
        exact hwritten rfl rfl hcolumn
  · rw [if_neg havailable] at h
    cases h

/-! ## Migration -/

theorem migrateSecret_of_under {c : Secret lib} (hc : c.Faithful) {key : lib.Key}
    (hunder : c.under = some key) (vault : lib.Key) (seed : Nat) :
    migrateSecret vault seed c = c := by
  have hstarts := startsWith_of_under hc
  rw [hunder, Option.isSome_some] at hstarts
  rw [migrateSecret, if_pos hstarts]

theorem migrateSecret_of_plain {c : Secret lib} (hc : c.Faithful) (hplain : c.under = none)
    (vault : lib.Key) (seed : Nat) :
    migrateSecret vault seed c =
      { raw := encryptSecret lib vault seed c.saved, saved := c.saved, under := some vault } := by
  have hstarts := startsWith_of_under hc
  rw [hplain, Option.isSome_none] at hstarts
  rw [Secret.Faithful, hplain] at hc
  rw [migrateSecret, if_neg (by rw [hstarts]; exact Bool.false_ne_true), hc.1]

/-- A credential after the migration is ciphertext from before it, or was plain text. -/
theorem mem_secrets_migrateVault {vault : lib.Key} {seeds : Nat → Bool → Nat}
    {routers : Routers lib ι} {c : Secret lib}
    (hc : c ∈ secrets (migrateVault vault seeds routers)) :
    ∃ old ∈ secrets routers, ∃ seed, migrateSecret vault seed old = c := by
  obtain ⟨r, hr, hcolumn⟩ := mem_secrets.mp hc
  obtain ⟨before, hbefore, rfl⟩ := List.mem_map.mp hr
  obtain hpassword | hprivateKey := hcolumn
  · obtain ⟨old, hold, hmigrated⟩ := Option.map_eq_some_iff.mp hpassword
    exact ⟨old, mem_secrets.mpr ⟨before, hbefore, Or.inl hold⟩, _, hmigrated⟩
  · obtain ⟨old, hold, hmigrated⟩ := Option.map_eq_some_iff.mp hprivateKey
    exact ⟨old, mem_secrets.mpr ⟨before, hbefore, Or.inr hold⟩, _, hmigrated⟩

/-- Ciphertext is not touched. -/
theorem mem_migrateVault_of_under {vault : lib.Key} {seeds : Nat → Bool → Nat}
    {routers : Routers lib ι} {c : Secret lib} (hc : c ∈ secrets routers) (hfaithful : c.Faithful)
    {key : lib.Key} (hunder : c.under = some key) :
    c ∈ secrets (migrateVault vault seeds routers) := by
  obtain ⟨r, hr, hcolumn⟩ := mem_secrets.mp hc
  refine mem_secrets.mpr ⟨_, List.mem_map_of_mem hr, ?_⟩
  obtain hpassword | hprivateKey := hcolumn
  · refine Or.inl (Option.map_eq_some_iff.mpr ⟨c, hpassword, ?_⟩)
    exact migrateSecret_of_under hfaithful hunder _ _
  · refine Or.inr (Option.map_eq_some_iff.mpr ⟨c, hprivateKey, ?_⟩)
    exact migrateSecret_of_under hfaithful hunder _ _

/-- After the migration everything is ciphertext, stored as it says. -/
theorem migrateVault_encrypted {vault : lib.Key} {seeds : Nat → Bool → Nat}
    {routers : Routers lib ι} (hstored : Stored routers) {c : Secret lib}
    (hc : c ∈ secrets (migrateVault vault seeds routers)) :
    c.Faithful ∧ ∃ key, c.under = some key := by
  obtain ⟨old, hold, seed, rfl⟩ := mem_secrets_migrateVault hc
  have hfaithful := hstored old hold
  cases hunder : old.under with
  | none =>
    rw [migrateSecret_of_plain hfaithful hunder]
    exact ⟨⟨seed, rfl⟩, vault, rfl⟩
  | some key =>
    rw [migrateSecret_of_under hfaithful hunder]
    exact ⟨hfaithful, key, hunder⟩

/-- The query finds every ciphertext. -/
theorem not_encrypted_of_query {routers : Routers lib ι} (hstored : Stored routers)
    (hquery : hasEncryptedCredentials routers = false) {c : Secret lib}
    (hc : c ∈ secrets routers) : c.under = none := by
  have hlike : likeEncrypted c.raw = false := by
    have hall := List.any_eq_false.mp hquery c hc
    simpa using hall
  by_contra hunder
  have hstarts : startsWith encPrefix c.raw = true := by
    rw [startsWith_of_under (hstored c hc)]
    exact Option.isSome_iff_ne_none.mpr hunder
  obtain ⟨rest, hrest⟩ := List.isPrefixOf_iff_prefix.mp hstarts
  have hlower : encPrefix.map Char.toLower = encPrefix := by decide
  have hmatches : likeEncrypted c.raw = true := by
    rw [likeEncrypted, ← hrest, List.map_append, hlower, startsWith,
      List.isPrefixOf_iff_prefix]
    exact List.prefix_append encPrefix _
  rw [hmatches] at hlike
  cases hlike

/-! ## Startups -/

/-- What outlives a process: the database and the key file. -/
structure Disk (lib : CryptoLibrary) (ι : Type) where
  routers : Routers lib ι
  keyFile : KeyFile

/-- What a startup is given. -/
structure Startup where
  settings : VaultSettings
  generated : RandomKey
  seeds : Nat → Bool → Nat

/-- `ensure_credential_vault`: the codec it configures and returns. -/
def ensureCredentialVault (startup : Startup) (disk : Disk lib ι) :
    Except Text lib.Key × Disk lib ι :=
  match resolveVaultKey lib startup.settings disk.keyFile
      (hasEncryptedCredentials disk.routers) startup.generated with
  | (.error e, keyFile) => (.error e, { disk with keyFile := keyFile })
  | (.ok vault, keyFile) =>
      (.ok vault,
        { routers := migrateVault vault startup.seeds disk.routers, keyFile := keyFile })

/-- What a startup does to what is stored. -/
structure Sound (startup : Startup) (disk : Disk lib ι) : Prop where
  /-- If it raises, nothing that is stored changes. -/
  unchanged : ∀ e after, ensureCredentialVault startup disk = (.error e, after) →
    after.routers = disk.routers
  /-- What is encrypted with the key in effect is read as it was saved, and the rest is
  refused. -/
  reads : ∀ vault after, ensureCredentialVault startup disk = (.ok vault, after) →
    ∀ c ∈ secrets after.routers, decryptSecret lib vault c.raw =
      if c.under = some vault then .ok c.saved else .error decryptFailed
  /-- No ciphertext is lost. -/
  keeps : ∀ vault after, ensureCredentialVault startup disk = (.ok vault, after) →
    ∀ c ∈ secrets disk.routers, c.under ≠ none → c ∈ secrets after.routers
  /-- The key in effect is the configured one, or nothing was encrypted. -/
  configured : ∀ vault after, ensureCredentialVault startup disk = (.ok vault, after) →
    configuredKey lib startup.settings disk.keyFile = some vault ∨
      configuredKey lib startup.settings disk.keyFile = none ∧
        ∀ c ∈ secrets disk.routers, c.under = none

theorem ensure_eq_ok {startup : Startup} {disk after : Disk lib ι} {vault : lib.Key}
    (h : ensureCredentialVault startup disk = (.ok vault, after)) :
    after.routers = migrateVault vault startup.seeds disk.routers ∧
      resolveVaultKey lib startup.settings disk.keyFile (hasEncryptedCredentials disk.routers)
        startup.generated = (.ok vault, after.keyFile) := by
  unfold ensureCredentialVault at h
  split at h
  · cases h
  · next hresolve =>
    obtain ⟨hvault, rfl⟩ := Prod.mk.inj h
    obtain rfl := Except.ok.inj hvault
    exact ⟨rfl, hresolve⟩

theorem ensure_eq_error {startup : Startup} {disk after : Disk lib ι} {e : Text}
    (h : ensureCredentialVault startup disk = (.error e, after)) :
    after.routers = disk.routers := by
  unfold ensureCredentialVault at h
  split at h
  · obtain ⟨_, rfl⟩ := Prod.mk.inj h
    rfl
  · cases h

/-- **A startup that raises changes nothing that is stored; one that succeeds reads exactly
what was encrypted with the key in effect, and loses nothing.** -/
theorem ensure_sound (startup : Startup) {disk : Disk lib ι} (hstored : Stored disk.routers) :
    Sound startup disk := by
  refine ⟨fun e after h => ensure_eq_error h, ?_, ?_, ?_⟩
  · intro vault after h c hc
    rw [(ensure_eq_ok h).1] at hc
    obtain ⟨hfaithful, key, hunder⟩ := migrateVault_encrypted hstored hc
    rw [decryptSecret_of_under hfaithful hunder, hunder]
    simp
  · intro vault after h c hc hunder
    obtain ⟨key, hkey⟩ := Option.ne_none_iff_exists'.mp hunder
    rw [(ensure_eq_ok h).1]
    exact mem_migrateVault_of_under hc (hstored c hc) hkey
  · intro vault after h
    obtain hconfigured | ⟨hnone, hquery⟩ := resolveVaultKey_ok (ensure_eq_ok h).2
    · exact Or.inl hconfigured
    · exact Or.inr ⟨hnone, fun c hc => not_encrypted_of_query hstored hquery hc⟩

theorem stored_ensure (startup : Startup) {disk : Disk lib ι} (hstored : Stored disk.routers) :
    Stored (ensureCredentialVault startup disk).2.routers := by
  cases hensure : ensureCredentialVault startup disk with
  | mk result after =>
    cases result with
    | error e =>
      rw [ensure_eq_error hensure]
      exact hstored
    | ok vault =>
      rw [(ensure_eq_ok hensure).1]
      exact fun c hc => (migrateVault_encrypted hstored hc).1

/-! ## Runs -/

/-- The disk, and the codec of the process that runs on it. -/
structure World (lib : CryptoLibrary) (ι : Type) where
  disk : Disk lib ι
  codec : Option lib.Key

inductive Event (ι : Type) where
  /-- The process starts: if `ensure_credential_vault` raises there is no codec. -/
  | startup (startup : Startup)
  | save (request : SaveRequest ι)
  | delete (routerId : Nat)
  /-- The key file is removed, restored or replaced. -/
  | keyFile (file : KeyFile)

def step : Event ι → World lib ι → Option (World lib ι)
  | .startup startup, w =>
      let (result, disk) := ensureCredentialVault startup w.disk
      some { disk := disk, codec := result.toOption }
  | .save request, w =>
      match upsert w.codec request w.disk.routers with
      | .ok routers => some { w with disk := { w.disk with routers := routers } }
      | .error _ => some w
  | .delete routerId, w =>
      some { w with
        disk := { w.disk with routers := w.disk.routers.filter fun r => r.id ≠ routerId } }
  | .keyFile file, w => some { w with disk := { w.disk with keyFile := file } }

/-- A database from before credentials were encrypted: plain text without the marker. -/
structure LegacyRouters (lib : CryptoLibrary) (ι : Type) where
  routers : Routers lib ι
  plain : ∀ c ∈ secrets routers,
    c.under = none ∧ c.raw = c.saved ∧ startsWith encPrefix c.raw = false

def LegacyRouters.none (lib : CryptoLibrary) (ι : Type) : LegacyRouters lib ι where
  routers := []
  plain := nofun

def start (legacy : LegacyRouters lib ι) (file : KeyFile) : World lib ι where
  disk := { routers := legacy.routers, keyFile := file }
  codec := .none

theorem stored_start (legacy : LegacyRouters lib ι) : Stored legacy.routers := by
  intro c hc
  obtain ⟨hplain, hraw⟩ := legacy.plain c hc
  rw [Secret.Faithful, hplain]
  exact hraw

theorem stored_step (w : World lib ι) (event : Event ι) (w' : World lib ι)
    (h : Stored w.disk.routers) (hstep : step event w = some w') : Stored w'.disk.routers := by
  cases event with
  | startup startup =>
    obtain rfl := Option.some.inj hstep
    exact stored_ensure startup h
  | save request =>
    simp only [step] at hstep
    split at hstep
    · next hupsert =>
      obtain rfl := Option.some.inj hstep
      exact stored_upsert h hupsert
    · obtain rfl := Option.some.inj hstep
      exact h
  | delete routerId =>
    obtain rfl := Option.some.inj hstep
    intro c hc
    obtain ⟨r, hr, hcolumn⟩ := mem_secrets.mp hc
    exact h c (mem_secrets.mpr ⟨r, List.mem_of_mem_filter hr, hcolumn⟩)
  | keyFile file =>
    obtain rfl := Option.some.inj hstep
    exact h

/-- The step, if it is a startup, is sound. -/
def SoundStep (w : World lib ι) : Event ι → Prop
  | .startup startup => Sound startup w.disk
  | _ => True

/-- After the startup every credential is read as it was saved, or the startup raises and
nothing that is stored changes. -/
def Recovers (w : World lib ι) : Event ι → Prop
  | .startup startup =>
      (∀ vault after, ensureCredentialVault startup w.disk = (.ok vault, after) →
        ∀ c ∈ secrets after.routers, decryptSecret lib vault c.raw = .ok c.saved) ∧
      ∀ e after, ensureCredentialVault startup w.disk = (.error e, after) →
        after.routers = w.disk.routers
  | _ => True

/-! ## A key that is overridden -/

/-- A stand-in for Fernet: the token begins with the key, and only that key removes it. -/
def keyedLibrary : CryptoLibrary where
  Key := { key : Text // key.length = 44 }
  fernet key := if h : key.length = 44 then some ⟨key, h⟩ else none
  encrypt key _ text := key.val ++ text
  decrypt key token := if startsWith key.val token then some (token.drop 44) else none
  sha256 _ := List.replicate 32 0
  sha256_length _ := List.length_replicate
  fernet_encoded data h := by
    have hlength : (urlsafeB64encode data).length = 44 := by
      rw [PyBase64.length_urlsafeB64encode, h]
    rw [dif_pos hlength, Option.isSome_some]
  decrypt_encrypt key _ text := by
    have hstarts : startsWith key.val (key.val ++ text) = true :=
      List.isPrefixOf_iff_prefix.mpr (List.prefix_append key.val text)
    rw [if_pos hstarts, List.drop_left' key.property]
  decrypt_foreign key other _ text hne := by
    rw [if_neg]
    intro hstarts
    have hpre := List.isPrefixOf_iff_prefix.mp hstarts
    have hsame : other.val = key.val :=
      (List.prefix_of_prefix_length_le hpre (List.prefix_append key.val text)
        (by rw [other.property, key.property])).eq_of_length
        (by rw [other.property, key.property])
    exact hne (Subtype.ext hsame.symm)

def firstKey : RandomKey where
  bytes := List.replicate 32 0
  length_bytes := rfl

def operatorKey : Text := "BBBBBBBBBBBBBBBBBBBBBBBBBBBBBBBBBBBBBBBBBBA=".toList

/-- First startup with a generated key, then a router with a password is saved. -/
def onboarding : List (Event Unit) :=
  [.startup { settings := {}, generated := firstKey, seeds := fun _ _ => 0 },
    .save { routerId := none, info := (), password := some "topsecret".toList, privateKey := none,
            passwordSeed := 0, privateKeySeed := 0, now := 0 }]

end OpenWrtCopilot.Ports.VaultStartups
