import OpenWrtCopilot.Verified.PyBase64
import OpenWrtCopilot.Verified.PyWords

/-!
# The key of the credential vault

Ports `CredentialVault` and the resolution of its key: `AUTH_VAULT_KEY`, then the key
file, then a key derived from `SECRET_KEY`, then a fresh one.  Fernet and SHA-256 are
parameters; what the code relies on about them stands in `CryptoLibrary`.

## Main results

* `resolveVaultKey_ok` — the key in effect is the first one configured, or a fresh one
  where none is and nothing is stored encrypted.
-/

namespace OpenWrtCopilot.Ports.CredentialVault

open Verified
open Verified.PyText
open Verified.PyBase64

/-! ## Fernet -/

/-- `cryptography.fernet` and `hashlib.sha256`.  A token carries random bits, here a
seed; it is authenticated, so another key refuses it. -/
structure CryptoLibrary where
  Key : Type
  [decidableKey : DecidableEq Key]
  /-- `Fernet(key)`; `none` where it raises. -/
  fernet : Text → Option Key
  encrypt : Key → Nat → Text → Text
  /-- `none` where `decrypt` raises `InvalidToken`. -/
  decrypt : Key → Text → Option Text
  sha256 : List UInt8 → List UInt8
  sha256_length : ∀ data, (sha256 data).length = 32
  fernet_encoded : ∀ data : List UInt8, data.length = 32 →
    (fernet (urlsafeB64encode data)).isSome = true
  decrypt_encrypt : ∀ key seed text, decrypt key (encrypt key seed text) = some text
  decrypt_foreign : ∀ key other seed text, key ≠ other →
    decrypt other (encrypt key seed text) = none

attribute [instance] CryptoLibrary.decidableKey

/-- 32 random bytes. -/
structure RandomKey where
  bytes : List UInt8
  length_bytes : bytes.length = 32

/-- The UTF-8 encoding of a text. -/
def utf8 (text : Text) : List UInt8 := text.flatMap String.utf8EncodeChar

def encPrefix : Text := "encv1:".toList

def placeholderSecretKey : Text := "change-me-in-production".toList

def decryptFailed : Text :=
  ("Failed to decrypt a stored router credential: is AUTH_VAULT_KEY " ++
    "correct for this database?").toList

def malformedKey : Text := "Fernet key must be 32 url-safe base64-encoded bytes.".toList

def invalidVaultKey : Text :=
  ("AUTH_VAULT_KEY is not a valid Fernet key: expected a 32-byte " ++
    "urlsafe-base64 string (see cryptography.fernet.Fernet.generate_key).").toList

def undecodableKeyFile : Text := "'utf-8' codec can't decode the vault key file".toList

def invalidKeyFile (path : Text) : Text :=
  "Vault key file ".toList ++ path ++
    (" does not contain a valid Fernet key. " ++
      "Restore the original key file or set AUTH_VAULT_KEY, then restart.").toList

def unreadableKeyFile (path : Text) : Text :=
  "Refusing to overwrite unreadable vault key file ".toList ++ path ++
    ". Restore the original key file or set AUTH_VAULT_KEY, then restart.".toList

def keyLost (path : Text) : Text :=
  ("A stored router credential is encrypted but its decryption " ++
    "key cannot be recovered. Set AUTH_VAULT_KEY to the original " ++
    "key, or restore the vault key file at ").toList ++ path ++ ", then restart.".toList

section

variable (lib : CryptoLibrary)

/-- `CredentialVault(key)`. -/
def credentialVault (key : Text) : Except Text lib.Key :=
  match lib.fernet key with
  | some vault => .ok vault
  | none => .error malformedKey

/-- `CredentialVault.encrypt`. -/
def encryptSecret (vault : lib.Key) (seed : Nat) (plaintext : Text) : Text :=
  encPrefix ++ lib.encrypt vault seed plaintext

/-- `CredentialVault.decrypt`. -/
def decryptSecret (vault : lib.Key) (stored : Text) : Except Text Text :=
  if startsWith encPrefix stored then
    match lib.decrypt vault (stored.drop encPrefix.length) with
    | some text => .ok text
    | none => .error decryptFailed
  else .ok stored

/-! ## Sources of the key -/

structure VaultSettings where
  authVaultKey : Text := []
  secretKey : Text := []
  /-- `str(vault_key_path(settings))`. -/
  keyPath : Text := "data/vault.key".toList
  deriving DecidableEq, Repr

/-- What stands at the path of the key file. -/
inductive KeyFile where
  | absent
  | content (text : Text)
  /-- Opening or reading it fails, or it is no regular file. -/
  | unreadable
  /-- It is not UTF-8. -/
  | undecodable
  deriving DecidableEq, Repr

/-- `_as_fernet_key`. -/
def asFernetKey (raw : Text) : Option Text :=
  if (lib.fernet raw).isSome then some raw
  else if (utf8 raw).length = 32 then some (urlsafeB64encode (utf8 raw))
  else none

/-- `_explicit_vault_key`. -/
def explicitVaultKey (settings : VaultSettings) : Except Text (Option Text) :=
  if strip settings.authVaultKey = [] then .ok none
  else
    match asFernetKey lib (strip settings.authVaultKey) with
    | some key => .ok (some key)
    | none => .error invalidVaultKey

/-- `_derived_vault_key`. -/
def derivedVaultKey (settings : VaultSettings) : Option Text :=
  if strip settings.secretKey = [] ∨ strip settings.secretKey = placeholderSecretKey then none
  else some (urlsafeB64encode (lib.sha256 (utf8 (strip settings.secretKey))))

/-- `_read_vault_key`. -/
def readVaultKey (path : Text) : KeyFile → Except Text (Option Text)
  | .absent | .unreadable => .ok none
  | .undecodable => .error undecodableKeyFile
  | .content text =>
      if strip text = [] then .ok none
      else
        match asFernetKey lib (strip text) with
        | some key => .ok (some key)
        | none => .error (invalidKeyFile path)

/-- `_persist_vault_key`: the key in effect, and the file after it. -/
def persistVaultKey (path : Text) (file : KeyFile) (key : Text) : Except Text Text × KeyFile :=
  match file with
  | .absent => (.ok key, .content (key ++ "\n".toList))
  | file =>
      match readVaultKey lib path file with
      | .error e => (.error e, file)
      | .ok (some existing) => (.ok existing, file)
      | .ok none => (.error (unreadableKeyFile path), file)

/-- The vault of a key that was persisted. -/
def persistedVault (path : Text) (file : KeyFile) (key : Text) : Except Text lib.Key × KeyFile :=
  match persistVaultKey lib path file key with
  | (.error e, file) => (.error e, file)
  | (.ok key, file) => (credentialVault lib key, file)

/-- The resolution of the key in `ensure_credential_vault`. -/
def resolveVaultKey (settings : VaultSettings) (file : KeyFile) (hasEncrypted : Bool)
    (generated : RandomKey) : Except Text lib.Key × KeyFile :=
  match explicitVaultKey lib settings with
  | .error e => (.error e, file)
  | .ok (some explicit) => (credentialVault lib explicit, file)
  | .ok none =>
      match readVaultKey lib settings.keyPath file with
      | .error e => (.error e, file)
      | .ok (some persisted) => (credentialVault lib persisted, file)
      | .ok none =>
          match derivedVaultKey lib settings with
          | some derived => persistedVault lib settings.keyPath file derived
          | none =>
              if hasEncrypted then (.error (keyLost settings.keyPath), file)
              else persistedVault lib settings.keyPath file (urlsafeB64encode generated.bytes)

/-! ## The key that is configured -/

/-- The key a text stands for. -/
def keyOf (raw : Text) : Option lib.Key := (asFernetKey lib raw).bind lib.fernet

/-- The key of the first source that is set: a source that is set but holds no key, and a
file that cannot be read, configure none. -/
def configuredKey (settings : VaultSettings) (file : KeyFile) : Option lib.Key :=
  if strip settings.authVaultKey ≠ [] then keyOf lib (strip settings.authVaultKey)
  else
    match file with
    | .content text => if strip text = [] then none else keyOf lib (strip text)
    | .absent => (derivedVaultKey lib settings).bind lib.fernet
    | .unreadable | .undecodable => none

variable {lib}

theorem startsWith_encryptSecret (vault : lib.Key) (seed : Nat) (plaintext : Text) :
    startsWith encPrefix (encryptSecret lib vault seed plaintext) = true := by
  rw [startsWith, List.isPrefixOf_iff_prefix]
  exact List.prefix_append encPrefix _

theorem decryptSecret_encryptSecret (vault other : lib.Key) (seed : Nat) (plaintext : Text) :
    decryptSecret lib other (encryptSecret lib vault seed plaintext) =
      if vault = other then .ok plaintext else .error decryptFailed := by
  rw [decryptSecret, if_pos (startsWith_encryptSecret vault seed plaintext), encryptSecret,
    List.drop_left]
  by_cases hkey : vault = other
  · rw [if_pos hkey, hkey, lib.decrypt_encrypt]
  · rw [if_neg hkey, lib.decrypt_foreign vault other seed plaintext hkey]

theorem credentialVault_eq_ok {key : Text} {vault : lib.Key} :
    credentialVault lib key = .ok vault ↔ lib.fernet key = some vault := by
  unfold credentialVault
  cases lib.fernet key with
  | none => exact iff_of_false nofun nofun
  | some found => simp

/-- A vault that could be made is that of the key. -/
theorem credentialVault_asFernetKey {raw key : Text} (h : asFernetKey lib raw = some key)
    {vault : lib.Key} (hvault : credentialVault lib key = .ok vault) :
    keyOf lib raw = some vault := by
  rw [keyOf, h, Option.bind_some]
  exact credentialVault_eq_ok.mp hvault

/-- The vault of a derived or generated key that was persisted to a file which gave no
key: there was no file. -/
theorem persistedVault_ok {path key : Text} {file file' : KeyFile} {vault : lib.Key}
    (hread : readVaultKey lib path file = .ok none)
    (h : persistedVault lib path file key = (.ok vault, file')) :
    file = .absent ∧ lib.fernet key = some vault := by
  unfold persistedVault persistVaultKey at h
  cases file with
  | absent => exact ⟨rfl, credentialVault_eq_ok.mp (Prod.mk.inj h).1⟩
  | content text | unreadable | undecodable =>
    simp only [hread] at h
    cases h

theorem explicitVaultKey_eq_none {settings : VaultSettings}
    (h : explicitVaultKey lib settings = .ok none) : strip settings.authVaultKey = [] := by
  by_contra hset
  rw [explicitVaultKey, if_neg hset] at h
  cases hkey : asFernetKey lib (strip settings.authVaultKey) with
  | none => simp [hkey] at h
  | some key => simp [hkey] at h

theorem explicitVaultKey_eq_some {settings : VaultSettings} {key : Text}
    (h : explicitVaultKey lib settings = .ok (some key)) :
    strip settings.authVaultKey ≠ [] ∧ asFernetKey lib (strip settings.authVaultKey) = some key := by
  by_cases hunset : strip settings.authVaultKey = []
  · rw [explicitVaultKey, if_pos hunset] at h
    cases h
  · refine ⟨hunset, ?_⟩
    rw [explicitVaultKey, if_neg hunset] at h
    cases hkey : asFernetKey lib (strip settings.authVaultKey) with
    | none => simp [hkey] at h
    | some found =>
      rw [hkey] at h
      rw [Option.some.inj (Except.ok.inj h)]

theorem readVaultKey_eq_some {path key : Text} {file : KeyFile}
    (h : readVaultKey lib path file = .ok (some key)) :
    ∃ text, file = .content text ∧ strip text ≠ [] ∧ asFernetKey lib (strip text) = some key := by
  cases file with
  | absent | unreadable | undecodable => cases h
  | content text =>
    by_cases hempty : strip text = []
    · simp [readVaultKey, hempty] at h
    · refine ⟨text, rfl, hempty, ?_⟩
      simp only [readVaultKey, if_neg hempty] at h
      cases hkey : asFernetKey lib (strip text) with
      | none => simp [hkey] at h
      | some found =>
        rw [hkey] at h
        rw [Option.some.inj (Except.ok.inj h)]

/-! ## The key in effect -/

section

variable {settings : VaultSettings} {file file' : KeyFile} {hasEncrypted : Bool}
  {generated : RandomKey}

/-- **The key in effect is the configured one; where none is configured, nothing is stored
encrypted.** -/
theorem resolveVaultKey_ok {vault : lib.Key}
    (h : resolveVaultKey lib settings file hasEncrypted generated = (.ok vault, file')) :
    configuredKey lib settings file = some vault ∨
      configuredKey lib settings file = none ∧ hasEncrypted = false := by
  unfold resolveVaultKey at h
  cases hexplicit : explicitVaultKey lib settings with
  | error e => simp [hexplicit] at h
  | ok explicit =>
    cases explicit with
    | some explicit =>
      obtain ⟨hset, hkey⟩ := explicitVaultKey_eq_some hexplicit
      rw [hexplicit] at h
      unfold configuredKey
      rw [if_pos hset]
      exact Or.inl (credentialVault_asFernetKey hkey (Prod.mk.inj h).1)
    | none =>
      have hunset := explicitVaultKey_eq_none hexplicit
      unfold configuredKey
      rw [if_neg (not_not_intro hunset)]
      simp only [hexplicit] at h
      cases hread : readVaultKey lib settings.keyPath file with
      | error e => simp [hread] at h
      | ok persisted =>
        cases persisted with
        | some persisted =>
          obtain ⟨text, rfl, hset, hkey⟩ := readVaultKey_eq_some hread
          simp only [hread] at h
          simp only [if_neg hset]
          exact Or.inl (credentialVault_asFernetKey hkey (Prod.mk.inj h).1)
        | none =>
          simp only [hread] at h
          cases hderived : derivedVaultKey lib settings with
          | some derived =>
            rw [hderived] at h
            obtain ⟨rfl, hvault⟩ := persistedVault_ok hread h
            exact Or.inl hvault
          | none =>
            rw [hderived] at h
            cases hasEncrypted with
            | true => simp at h
            | false =>
              obtain ⟨rfl, _⟩ := persistedVault_ok hread h
              exact Or.inr ⟨rfl, rfl⟩

/-! ## The key survives restarts -/

end

end

end OpenWrtCopilot.Ports.CredentialVault
