import Mathlib.Data.List.Forall2
import OpenWrtCopilot.Verified.CodePoints
import OpenWrtCopilot.Ports.VaultStartups

/-!
# Migrating and reading credentials

`migrate_vault` encrypts every column that does not begin with the marker of ciphertext,
and a column that does is decrypted when it is read.  So a plain text that begins with
the marker is left as it is and then taken for ciphertext.

## Main results

* `migrateVault_again` — a second migration changes nothing.
* `restored_iff` — when a row reads as it was.
* `vault_roundtrip_iff` — both, and when a string survives `encrypt` and `decrypt`.
-/

namespace OpenWrtCopilot.Ports.VaultStartups

open Verified
open Verified.PyText
open Verified.CodePoints
open Ports.CredentialVault

variable {lib : CryptoLibrary} {ι : Type}

/-! ## Encrypting and decrypting a string -/

/-- What `str.encode` raises. -/
def surrogatesNotAllowed : Text := "'utf-8' codec can't encode: surrogates not allowed"

/-- `encrypt` of a string that may hold surrogates. -/
def encryptPoints (vault : lib.Key) (seed : Nat) (plaintext : Points) : Except Text Text :=
  match encode plaintext with
  | some text => .ok (encryptSecret lib vault seed text)
  | none => .error surrogatesNotAllowed

/-- `decrypt(encrypt(plaintext))`. -/
def reopened (vault : lib.Key) (seed : Nat) (plaintext : Points) : Except Text Points := do
  let stored ← encryptPoints vault seed plaintext
  let text ← decryptSecret lib vault stored
  return ofText text

theorem reopened_iff (vault : lib.Key) (seed : Nat) (plaintext : Points) :
    reopened vault seed plaintext = .ok plaintext ↔ ∀ c ∈ plaintext, isSurrogate c = false := by
  rw [← encode_isSome_iff]
  cases hencode : encode plaintext with
  | none =>
    rw [reopened, encryptPoints, hencode]
    exact iff_of_false nofun nofun
  | some text =>
    refine iff_of_true ?_ rfl
    have hdecrypt := decryptSecret_encryptSecret vault vault seed text
    rw [if_pos rfl] at hdecrypt
    rw [reopened, encryptPoints, hencode]
    show (decryptSecret lib vault (encryptSecret lib vault seed text)).map ofText = .ok plaintext
    rw [hdecrypt]
    exact congrArg Except.ok (encode_eq_some_iff.mp hencode)

/-! ## Rows -/

/-- `_decode_secret`. -/
def decodeSecret (vault : lib.Key) (stored : Option (Secret lib)) : Except Text (Option Text) :=
  match stored with
  | none => .ok none
  | some c =>
      if startsWith encPrefix c.raw then (decryptSecret lib vault c.raw).map some
      else .ok (some c.raw)

/-- A column before the migration. -/
inductive Column where
  | empty
  /-- Legacy plain text. -/
  | plain (text : Text)
  /-- What an earlier migration, or a save, has encrypted. -/
  | token (seed : Nat) (text : Text)

/-- The value that was saved. -/
def Column.value : Column → Option Text
  | .empty => none
  | .plain text | .token _ text => some text

def Column.secret (vault : lib.Key) : Column → Option (Secret lib)
  | .empty => none
  | .plain text => some { raw := text, saved := text, under := none }
  | .token seed text =>
      some { raw := encryptSecret lib vault seed text, saved := text, under := some vault }

/-- Plain text is not taken for ciphertext, or is ciphertext of itself. -/
def Column.Unmarked (vault : lib.Key) : Column → Prop
  | .plain text => startsWith encPrefix text = true →
      lib.decrypt vault (text.drop encPrefix.length) = some text
  | _ => True

structure Row (ι : Type) where
  id : Nat
  info : ι
  createdAt : Int
  password : Column
  privateKey : Column

def Row.record (vault : lib.Key) (row : Row ι) : RouterRecord lib ι where
  id := row.id
  info := row.info
  createdAt := row.createdAt
  password := row.password.secret vault
  privateKey := row.privateKey.secret vault

/-- The record reads as the row was saved. -/
def Restored (vault : lib.Key) (row : Row ι) (r : RouterRecord lib ι) : Prop :=
  decodeSecret vault r.password = .ok row.password.value ∧
    decodeSecret vault r.privateKey = .ok row.privateKey.value

/-! ## The migration -/

theorem startsWith_migrateSecret (vault : lib.Key) (seed : Nat) (c : Secret lib) :
    startsWith encPrefix (migrateSecret vault seed c).raw = true := by
  rw [migrateSecret]
  split
  · assumption
  · exact startsWith_encryptSecret vault seed c.raw

theorem migrateSecret_again (vault : lib.Key) (first second : Nat) (c : Secret lib) :
    migrateSecret vault second (migrateSecret vault first c) = migrateSecret vault first c := by
  rw [migrateSecret, if_pos (startsWith_migrateSecret vault first c)]

/-- A second migration changes nothing. -/
theorem migrateVault_again (vault : lib.Key) (first second : Nat → Bool → Nat)
    (routers : Routers lib ι) :
    migrateVault vault second (migrateVault vault first routers) =
      migrateVault vault first routers := by
  rw [migrateVault, migrateVault, List.map_map]
  refine List.map_congr_left fun r _ => ?_
  simp only [Function.comp_apply, Option.map_map]
  congr 2 <;> funext c <;> exact migrateSecret_again vault _ _ c

/-- Nor do any further ones. -/
theorem foldl_migrateVault (vault : lib.Key) (first : Nat → Bool → Nat)
    (later : List (Nat → Bool → Nat)) (routers : Routers lib ι) :
    later.foldl (fun routers seeds => migrateVault vault seeds routers)
      (migrateVault vault first routers) = migrateVault vault first routers := by
  induction later with
  | nil => rfl
  | cons seeds later ih => rw [List.foldl_cons, migrateVault_again, ih]

/-- A column reads as it was, if it was not taken for ciphertext. -/
theorem decodeSecret_migrated_iff (vault : lib.Key) (seed : Nat) (column : Column) :
    decodeSecret vault ((column.secret vault).map (migrateSecret vault seed)) =
      .ok column.value ↔ column.Unmarked vault := by
  have hself : ∀ seed text,
      decryptSecret lib vault (encryptSecret lib vault seed text) = .ok text := by
    intro seed text
    rw [decryptSecret_encryptSecret, if_pos rfl]
  cases column with
  | empty => exact iff_of_true rfl trivial
  | token seed' text =>
    refine iff_of_true ?_ trivial
    have hmarked := startsWith_encryptSecret vault seed' text
    rw [Column.secret, Option.map_some, migrateSecret, if_pos hmarked, decodeSecret,
      if_pos hmarked, hself]
    rfl
  | plain text =>
    rw [Column.secret, Option.map_some, migrateSecret, Column.Unmarked]
    by_cases hmarked : startsWith encPrefix text = true
    · rw [if_pos hmarked, decodeSecret, if_pos hmarked, decryptSecret, if_pos hmarked]
      cases hdecrypt : lib.decrypt vault (text.drop encPrefix.length) with
      | none =>
        refine iff_of_false ?_ fun h => ?_
        · rintro ⟨⟩
        · cases h hmarked
      | some opened =>
        simp only [Except.map, Column.value, Except.ok.injEq, Option.some.injEq]
        exact ⟨fun heq _ => heq, fun h => h hmarked⟩
    · rw [if_neg hmarked, decodeSecret, if_pos (startsWith_encryptSecret vault seed text), hself]
      exact iff_of_true rfl fun h => absurd h hmarked

/-- The migrated rows read as they were, if no plain text was taken for ciphertext. -/
theorem restored_iff (vault : lib.Key) (seeds : Nat → Bool → Nat) (rows : List (Row ι)) :
    List.Forall₂ (Restored vault) rows (migrateVault vault seeds (rows.map (Row.record vault))) ↔
      ∀ row ∈ rows, row.password.Unmarked vault ∧ row.privateKey.Unmarked vault := by
  rw [migrateVault, List.map_map, List.forall₂_map_right_iff, List.forall₂_same]
  refine forall₂_congr fun row _ => ?_
  exact and_congr (decodeSecret_migrated_iff vault _ row.password)
    (decodeSecret_migrated_iff vault _ row.privateKey)

/--
**Further migrations change nothing.  The rows read as they were, if and only if no plain
text begins with the marker (or is ciphertext of itself).  A string survives `encrypt` and
`decrypt` if and only if it has no surrogate.**
-/
theorem vault_roundtrip_iff (vault : lib.Key) (first : Nat → Bool → Nat)
    (later : List (Nat → Bool → Nat)) (rows : List (Row ι)) :
    (later.foldl (fun routers seeds => migrateVault vault seeds routers)
        (migrateVault vault first (rows.map (Row.record vault))) =
      migrateVault vault first (rows.map (Row.record vault))) ∧
    (List.Forall₂ (Restored vault) rows
        (migrateVault vault first (rows.map (Row.record vault))) ↔
      ∀ row ∈ rows, row.password.Unmarked vault ∧ row.privateKey.Unmarked vault) ∧
    ∀ seed plaintext, reopened vault seed plaintext = .ok plaintext ↔
      ∀ c ∈ plaintext, isSurrogate c = false :=
  ⟨foldl_migrateVault vault first later _, restored_iff vault first rows, reopened_iff vault⟩

section Examples

def operatorVault : keyedLibrary.Key := ⟨operatorKey, rfl⟩

/-- A legacy router whose password begins with the marker. -/
def markedRow : Row Unit where
  id := 1
  info := ()
  createdAt := 0
  password := .plain "encv1:letmein".toList
  privateKey := .empty

/-- **The password that begins with the marker is not encrypted, and cannot be read; a
surrogate cannot be encrypted.** -/
theorem marked_not_restored :
    ((migrateVault operatorVault (fun _ _ => 0) [markedRow.record operatorVault]).map fun r =>
        r.password.map Secret.raw) = [some "encv1:letmein".toList] ∧
    ((migrateVault operatorVault (fun _ _ => 0) [markedRow.record operatorVault]).map fun r =>
        decodeSecret operatorVault r.password) = [.error decryptFailed] ∧
    reopened operatorVault 0 [0xd800] = .error surrogatesNotAllowed ∧
    ¬∀ (lib : CryptoLibrary) (vault : lib.Key) (seeds : Nat → Bool → Nat) (rows : List (Row Unit)),
      List.Forall₂ (Restored vault) rows
        (migrateVault vault seeds (rows.map (Row.record vault))) := by
  refine ⟨rfl, rfl, rfl, fun hall => ?_⟩
  have hrow := hall keyedLibrary operatorVault (fun _ _ => 0) [markedRow]
  have hpassword := ((restored_iff operatorVault _ _).mp hrow markedRow
    (List.mem_singleton_self _)).1
  exact absurd (hpassword rfl) (by decide)

end Examples

end OpenWrtCopilot.Ports.VaultStartups
