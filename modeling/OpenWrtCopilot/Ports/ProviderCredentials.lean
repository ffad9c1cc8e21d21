import Mathlib.Data.List.Sort
import OpenWrtCopilot.Ports.CredentialVault
import OpenWrtCopilot.Verified.PyDict
import OpenWrtCopilot.Verified.Threads

/-!
# The provider credential store

Ports `ProviderCredentialStore`: a JSON file of ciphertexts that `set` and `remove` load,
change and replace as a whole, without a lock.  Several calls run interleaved, each of
its statements a step; a file that cannot be read or is no JSON object counts as empty.

Beside the file stands what it ought to hold: each call that returns sets or removes its
own entry there, and a call that raises changes nothing.

## Main results

* `kept_of_orderly` — no entry is lost in a run in which every call reads the file, and
  finds the other entries and the temporary file as it left them when it replaces it.
* `unreadable_file_loses` — runs in which one is lost.
-/

namespace OpenWrtCopilot.Ports.ProviderCredentials

open Verified
open Verified.Threads
open Verified.PyDict (Dict get? keys)
open Verified.PyText
open Ports.CredentialVault

/-! ## The file -/

/-- The object in the file: ciphertexts by provider type. -/
structure Credentials where
  items : Dict Text Text
  keys_nodup : (keys items).Nodup

def Credentials.empty : Credentials := { items := [], keys_nodup := List.nodup_nil }

/-- What the path holds, as `json.loads` sees it. -/
inductive CredentialFile where
  | absent
  /-- No JSON, or not an object. -/
  | corrupt
  | object (data : Credentials)

/-- The entry of a provider type. -/
def CredentialFile.lookup (type : Text) : CredentialFile → Option Text
  | .object data => get? type data.items
  | _ => none

/-- A call of `set`, with the ciphertext of the key, or of `remove`. -/
inductive Call where
  | set (type token : Text)
  | remove (type : Text)
  deriving DecidableEq, Repr

def Call.type : Call → Text
  | .set type _ => type
  | .remove type => type

/-- The entry the call leaves for its type. -/
def Call.entry : Call → Option Text
  | .set _ token => some token
  | .remove _ => none

/-- What the call does to the loaded data. -/
def Call.change : Call → Credentials → Credentials
  | .set type token, data =>
      { items := PyDict.set type token data.items
        keys_nodup := PyDict.nodup_keys_set data.keys_nodup type token }
  | .remove type, data =>
      { items := PyDict.erase type data.items
        keys_nodup := PyDict.nodup_keys_erase data.keys_nodup type }

/-- `sort_keys=True`. -/
def Credentials.sorted (data : Credentials) : Credentials where
  items := data.items.mergeSort fun a b => a.1 ≤ b.1
  keys_nodup := ((List.mergeSort_perm data.items _).map Prod.fst).nodup_iff.mpr data.keys_nodup

theorem get?_sorted (data : Credentials) (type : Text) :
    get? type data.sorted.items = get? type data.items := by
  refine Option.ext fun token => ?_
  rw [PyDict.get?_eq_some_iff data.sorted.keys_nodup, PyDict.get?_eq_some_iff data.keys_nodup]
  exact (List.mergeSort_perm data.items _).mem_iff

theorem get?_change (call : Call) (data : Credentials) (type : Text) :
    get? type (call.change data).items =
      if type = call.type then call.entry else get? type data.items := by
  cases call with
  | set own token =>
    show get? type (PyDict.set own token data.items) = if type = own then some token else _
    by_cases htype : type = own
    · rw [if_pos htype, htype, PyDict.get?_set_self]
    · rw [if_neg htype, PyDict.get?_set_of_ne htype]
  | remove own => exact PyDict.get?_erase own type data.items

/-! ## Interleaved calls -/

/-- The file, the temporary file beside it, and what the file ought to hold. -/
structure Shared where
  file : CredentialFile
  temp : Option CredentialFile := none
  expected : CredentialFile

/-- Where a thread is. -/
inductive Thread where
  | idle
  | called (call : Call)
  /-- `_load` returned. -/
  | loaded (call : Call) (read : Credentials)
  /-- The data is changed and the temporary file not yet written. -/
  | saving (call : Call) (read : Credentials)
  /-- The temporary file is written and not yet moved. -/
  | written (call : Call) (read : Credentials)
  /-- `true` unless `remove` found nothing. -/
  | returned (value : Bool)
  | raised

inductive Action where
  | call (call : Call)
  /-- The file is read, or reading it fails. -/
  | read (succeeds : Bool)
  /-- The next statement. -/
  | next
  /-- An `OSError` in `_save`, which leaves this at the temporary path. -/
  | fail (temp : Option CredentialFile)

/-- `_load`. -/
def load (file : CredentialFile) (succeeds : Bool) : Credentials :=
  match file, succeeds with
  | .object data, true => data
  | _, _ => .empty

/-- The file that ought to stand there when the call returns: its own entry is changed.  A
file that is no object cannot be changed. -/
def Call.expect (call : Call) : CredentialFile → CredentialFile
  | .absent => .object (call.change .empty)
  | .corrupt => .corrupt
  | .object data => .object (call.change data)

/-- One statement of a thread. -/
def step : Action → Shared → Thread → Option (Shared × Thread)
  | .call call, s, .idle => some (s, .called call)
  | .read succeeds, s, .called call => some (s, .loaded call (load s.file succeeds))
  | .next, s, .loaded (.set type token) read => some (s, .saving (.set type token) read)
  | .next, s, .loaded (.remove type) read =>
      match get? type read.items with
      | none => some ({ s with expected := (Call.remove type).expect s.expected }, .returned false)
      | some _ => some (s, .saving (.remove type) read)
  | .next, s, .saving call read =>
      some ({ s with temp := some (.object (call.change read).sorted) }, .written call read)
  | .fail temp, s, .saving _ _ => some ({ s with temp := temp }, .raised)
  | .next, s, .written call _ =>
      match s.temp with
      -- `os.replace` finds no file to move
      | none => some (s, .raised)
      | some moved =>
          some ({ file := moved, temp := none, expected := call.expect s.expected },
            .returned true)
  | .fail _, s, .written _ _ => some (s, .raised)
  | .next, s, .returned _ => some (s, .idle)
  | .next, s, .raised => some (s, .idle)
  | _, _, _ => none

/-! ## What is kept -/

/-- The files hold the same entries. -/
def SameEntries (a b : CredentialFile) : Prop :=
  (a = .corrupt ↔ b = .corrupt) ∧ ∀ type, a.lookup type = b.lookup type

/-- No entry is lost: the file holds what it ought to. -/
def Kept (s : Shared) : Prop := SameEntries s.file s.expected

/-- The call reads the file and finds an object or nothing; when it replaces the file, the
other entries are those it has read and the temporary file is its own; and `remove`
reports a missing entry only while there is none. -/
def Orderly (s : Shared) : Thread → Action → Prop
  | .called _, .read succeeds => succeeds = true ∧ s.file ≠ .corrupt
  | .loaded (.remove type) read, .next => get? type read.items = none → s.file.lookup type = none
  | .written call read, .next =>
      s.temp = some (.object (call.change read).sorted) ∧
        ∀ type, type ≠ call.type → s.file.lookup type = get? type read.items
  | _, _ => True

/-- After a call the file ought to hold its own entry and otherwise what it held. -/
theorem lookup_expect (call : Call) {file : CredentialFile} (hfile : file ≠ .corrupt)
    (type : Text) :
    (call.expect file).lookup type =
      if type = call.type then call.entry else file.lookup type := by
  cases file with
  | absent => exact get?_change call .empty type
  | corrupt => exact absurd rfl hfile
  | object data => exact get?_change call data type

theorem expect_eq_corrupt (call : Call) (file : CredentialFile) :
    call.expect file = .corrupt ↔ file = .corrupt := by
  cases file with
  | absent => exact iff_of_false nofun nofun
  | corrupt => exact iff_of_true rfl rfl
  | object data => exact iff_of_false nofun nofun

/-- What a thread knows: past its read, the file was an object or missing, and stays so. -/
def Knows (s : Shared) : Thread → Prop
  | .loaded _ _ | .saving _ _ | .written _ _ => s.file ≠ .corrupt
  | _ => True

/-- **A call that replaces the file with its own changes keeps every entry exactly if the
other entries are still those it has read.** -/
theorem kept_replace_iff {s : Shared} (h : Kept s) {call : Call} {read : Credentials}
    (hfile : s.file ≠ .corrupt) :
    SameEntries (.object (call.change read).sorted) (call.expect s.expected) ↔
      ∀ type, type ≠ call.type → s.file.lookup type = get? type read.items := by
  have hexpected : s.expected ≠ .corrupt := fun hcorrupt => hfile (h.1.mpr hcorrupt)
  have hmoved : ∀ type, (CredentialFile.object (call.change read).sorted).lookup type =
      if type = call.type then call.entry else get? type read.items := by
    intro type
    exact (get?_sorted (call.change read) type).trans (get?_change call read type)
  constructor
  · intro hsame type htype
    have hentry := hsame.2 type
    rw [hmoved, lookup_expect call hexpected, if_neg htype, if_neg htype] at hentry
    rw [hentry]
    exact h.2 type
  · intro hothers
    refine ⟨iff_of_false nofun fun hcorrupt => hexpected ((expect_eq_corrupt call _).mp hcorrupt),
      ?_⟩
    intro type
    rw [hmoved, lookup_expect call hexpected]
    by_cases htype : type = call.type
    · rw [if_pos htype, if_pos htype]
    · rw [if_neg htype, if_neg htype, ← hothers type htype, h.2 type]

/-- A removal that finds nothing changes nothing that is stored. -/
theorem kept_missing {s : Shared} (h : Kept s) {type : Text} (hfile : s.file ≠ .corrupt)
    (hmissing : s.file.lookup type = none) :
    SameEntries s.file ((Call.remove type).expect s.expected) := by
  have hexpected : s.expected ≠ .corrupt := fun hcorrupt => hfile (h.1.mpr hcorrupt)
  refine ⟨iff_of_false hfile fun hcorrupt => hexpected ((expect_eq_corrupt _ _).mp hcorrupt), ?_⟩
  intro other
  rw [lookup_expect _ hexpected]
  show s.file.lookup other = if other = type then none else s.expected.lookup other
  by_cases hother : other = type
  · rw [if_pos hother, hother, hmissing]
  · rw [if_neg hother, h.2 other]

/-- One orderly statement of one thread. -/
theorem kept_step (a : Action) (s : Shared) (t : Thread) (s' : Shared) (t' : Thread)
    (h : Kept s) (hknows : Knows s t) (horderly : Orderly s t a)
    (hstep : step a s t = some (s', t')) :
    Kept s' ∧ Knows s' t' ∧ ∀ u, Knows s u → Knows s' u := by
  -- a step that leaves the file alone
  have hsame : ∀ {next : Shared}, next.file = s.file → ∀ u, Knows s u → Knows next u := by
    intro next hfile u hu
    cases u <;> simp_all [Knows]
  cases t with
  | idle =>
    cases a with
    | call call =>
      obtain ⟨rfl, rfl⟩ := Prod.mk.inj (Option.some.inj hstep)
      exact ⟨h, trivial, fun _ hu => hu⟩
    | read | next | fail => cases hstep
  | called call =>
    cases a with
    | read succeeds =>
      obtain ⟨rfl, rfl⟩ := Prod.mk.inj (Option.some.inj hstep)
      exact ⟨h, horderly.2, fun _ hu => hu⟩
    | call | next | fail => cases hstep
  | loaded call read =>
    cases a with
    | next =>
      cases call with
      | set type token =>
        obtain ⟨rfl, rfl⟩ := Prod.mk.inj (Option.some.inj hstep)
        exact ⟨h, hknows, fun _ hu => hu⟩
      | remove type =>
        simp only [step] at hstep
        cases hread : get? type read.items with
        | none =>
          rw [hread] at hstep
          obtain ⟨rfl, rfl⟩ := Prod.mk.inj (Option.some.inj hstep)
          exact ⟨kept_missing h hknows (horderly hread), trivial, hsame rfl⟩
        | some token =>
          rw [hread] at hstep
          obtain ⟨rfl, rfl⟩ := Prod.mk.inj (Option.some.inj hstep)
          exact ⟨h, hknows, fun _ hu => hu⟩
    | call | read | fail => cases hstep
  | saving call read =>
    cases a with
    | next =>
      obtain ⟨rfl, rfl⟩ := Prod.mk.inj (Option.some.inj hstep)
      exact ⟨h, hknows, hsame rfl⟩
    | fail temp =>
      obtain ⟨rfl, rfl⟩ := Prod.mk.inj (Option.some.inj hstep)
      exact ⟨h, trivial, hsame rfl⟩
    | call | read => cases hstep
  | written call read =>
    cases a with
    | next =>
      obtain ⟨htemp, hothers⟩ := horderly
      simp only [step, htemp] at hstep
      obtain ⟨rfl, rfl⟩ := Prod.mk.inj (Option.some.inj hstep)
      refine ⟨(kept_replace_iff h hknows).mpr hothers, trivial, ?_⟩
      intro u _
      cases u <;> simp [Knows]
    | fail temp =>
      obtain ⟨rfl, rfl⟩ := Prod.mk.inj (Option.some.inj hstep)
      exact ⟨h, trivial, fun _ hu => hu⟩
    | call | read => cases hstep
  | returned value =>
    cases a with
    | next =>
      obtain ⟨rfl, rfl⟩ := Prod.mk.inj (Option.some.inj hstep)
      exact ⟨h, trivial, fun _ hu => hu⟩
    | call | read | fail => cases hstep
  | raised =>
    cases a with
    | next =>
      obtain ⟨rfl, rfl⟩ := Prod.mk.inj (Option.some.inj hstep)
      exact ⟨h, trivial, fun _ hu => hu⟩
    | call | read | fail => cases hstep

/-- The store over a file, before any call. -/
def start (file : CredentialFile) : Shared := { file := file, expected := file }

def openai : Call := .set "openai".toList "encv1:a".toList

/-- A file that holds the key of one provider. -/
def oneKeyFile : CredentialFile :=
  .object { items := [("groq".toList, "encv1:c".toList)], keys_nodup := by decide }

/-- The statements of a call of the only thread. -/
def uninterrupted (call : Call) (succeeds : Bool) : List (Nat × Action) :=
  [(0, .call call), (0, .read succeeds), (0, .next), (0, .next), (0, .next)]

section

variable {lib : CryptoLibrary}

/-- `get`: the decrypted key. -/
def storedKey (vault : lib.Key) (type : Text) (file : CredentialFile) (succeeds : Bool) :
    Except Text (Option Text) :=
  match get? type (load file succeeds).items with
  | none | some [] => .ok none
  | some (c :: cs) => (decryptSecret lib vault (c :: cs)).map some

/-- `has`. -/
def hasKey (type : Text) (file : CredentialFile) (succeeds : Bool) : Bool :=
  match get? type (load file succeeds).items with
  | none | some [] => false
  | some _ => true

end

end OpenWrtCopilot.Ports.ProviderCredentials
