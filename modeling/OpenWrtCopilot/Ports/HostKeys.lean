import OpenWrtCopilot.Verified.PyWords

/-!
# The host-key store

Ports `HostKeyStore` and `verify_host_key`: the known-hosts file with one key a
line, its reader and its writer, the check of a presented key and the recording of
an unknown one.  `_records` is kept flat, as the list of its entries; those of one
`(host, port)` stand in the order of its list.

A store reads the file once and answers from what it has read; what it records
goes to the file as a whole.

## Main results

* `parseLine_renderLine`, `plain_of_mem_load` — the entries that survive being
  written are those whose fields the line format can hold.
* `mem_load_writeText` — what is written is read again.
* `check_eq_trusted_iff`, `check_eq_unknown_iff` — what a check decides.
-/

namespace OpenWrtCopilot.Ports.HostKeys

open Verified
open Verified.PyText

/-! ## Records -/

structure HostKeyRecord where
  host : Text
  port : Int
  keyType : Text
  keyBlob : Text
  deriving DecidableEq

/-- The `(host, port)` a record is about. -/
def HostKeyRecord.endpoint (r : HostKeyRecord) : Text × Int := (r.host, r.port)

/-- The key it holds. -/
def HostKeyRecord.key (r : HostKeyRecord) : Text × Text := (r.keyType, r.keyBlob)

abbrev Records := List HostKeyRecord

/-- What `HostKeyStore.check` returns. -/
inductive Status
  | trusted
  | unknown
  | mismatch
  deriving DecidableEq

/-- `HostKeyStore.trusted_keys`. -/
def trustedKeys (records : Records) (endpoint : Text × Int) : Records :=
  records.filter fun entry => entry.endpoint = endpoint

/-- `HostKeyStore.check`, for the key and the endpoint of a record. -/
def check (records : Records) (presented : HostKeyRecord) : Status :=
  let entries := trustedKeys records presented.endpoint
  if entries.any fun entry => entry.key = presented.key then .trusted
  else if entries ≠ [] then .mismatch
  else .unknown

/-! ## The file -/

/-- Text order, by code points. -/
def textLt : Text → Text → Bool
  | _, [] => false
  | [], _ :: _ => true
  | a :: as, b :: bs => a.toNat < b.toNat || (a = b && textLt as bs)

/-- The order of the lines: by host, port and key type. -/
def HostKeyRecord.le (a b : HostKeyRecord) : Bool :=
  if a.host ≠ b.host then textLt a.host b.host
  else if a.port ≠ b.port then a.port < b.port
  else !textLt b.keyType a.keyType

def renderLine (r : HostKeyRecord) : Text :=
  r.host ++ ' ' :: (intText r.port ++ ' ' :: (r.keyType ++ ' ' :: r.keyBlob))

def header : Text := "# OpenWrt AI Copilot SSH known hosts (host port key_type key_blob)"

/-- The text `_write_locked` writes. -/
def writeText (records : Records) : Text :=
  join "\n" (header :: (records.mergeSort HostKeyRecord.le).map renderLine) ++ "\n"

/-- The record of a line, if it has one. -/
def parseLine (line : Text) : Option HostKeyRecord :=
  let line := strip line
  if line = [] ∨ startsWith "#" line then none
  else
    match words line with
    | [host, portText, keyType, keyBlob] =>
        (pyInt portText).map fun port =>
          { host := host, port := port, keyType := keyType, keyBlob := keyBlob }
    | _ => none

/-- `_load`; `none` is a file that does not exist. -/
def load : Option Text → Records
  | none => []
  | some text => (splitlines text).filterMap parseLine

/-! ## The store -/

/-- The file, and `_records` of a store over it. -/
structure StoreState where
  file : Option Text
  records : Option Records := none

/-- `_entries_locked`. -/
def StoreState.entries (s : StoreState) : Records := s.records.getD (load s.file)

/-- `HostKeyStore.record`. -/
def StoreState.record (s : StoreState) (r : HostKeyRecord) : StoreState :=
  if (trustedKeys s.entries r.endpoint).any fun entry => entry.key = r.key then
    { s with records := some s.entries }
  else
    { file := some (writeText (s.entries ++ [r])), records := some (s.entries ++ [r]) }

/-- `verify_host_key`: whether the key is accepted, and why not. -/
def verifyHostKey (allowTou : Bool) (r : HostKeyRecord) (s : StoreState) :
    (Bool × Option Text) × StoreState :=
  let checked := { s with records := some s.entries }
  match check s.entries r with
  | .trusted => ((true, none), checked)
  | .mismatch =>
      ((false, some ("host key for " ++ r.host ++ ":" ++ intText r.port ++ " has changed")),
        checked)
  | .unknown =>
      if allowTou then ((true, none), checked.record r)
      else
        ((false, some ("host key for " ++ r.host ++ ":" ++ intText r.port ++ " is not trusted")),
          checked)

/-- `missing_host_key`: a key that is not accepted raises `HostKeyError` with the
reason. -/
def missingHostKey (allowTou : Bool) (r : HostKeyRecord) (s : StoreState) :
    Except Text Unit × StoreState :=
  let ((accepted, reason), s') := verifyHostKey allowTou r s
  (if accepted then .ok () else .error (reason.getD []), s')

/-- A key a backend presents for the endpoint of its configuration: the algorithm
name and the base64 text have no spaces, and the port was validated. -/
structure Presented where
  host : Text
  port : Nat
  keyType : Text
  keyBlob : Text
  validPort : 1 ≤ port ∧ port ≤ 65535
  typeWord : Word keyType
  blobWord : Word keyBlob

def Presented.record (p : Presented) : HostKeyRecord :=
  { host := p.host, port := p.port, keyType := p.keyType, keyBlob := p.keyBlob }

/-! ## Lines and files -/

/-- A host the line format can hold. -/
def PlainHost (host : Text) : Prop := Word host ∧ host.head? ≠ some '#'

instance (host : Text) : Decidable (PlainHost host) := by
  unfold PlainHost
  infer_instance

/-- A record the line format can hold. -/
structure Plain (r : HostKeyRecord) : Prop where
  host : PlainHost r.host
  port : r.port.natAbs < 10 ^ maxStrDigits
  keyType : Word r.keyType
  keyBlob : Word r.keyBlob

theorem Presented.plain_iff (p : Presented) : Plain p.record ↔ PlainHost p.host := by
  constructor
  · exact Plain.host
  · intro hhost
    refine ⟨hhost, ?_, p.typeWord, p.blobWord⟩
    have hpow : 10 ^ 5 ≤ 10 ^ maxStrDigits := Nat.pow_le_pow_right (by decide) (by decide)
    have hport : p.port < 10 ^ 5 := p.validPort.2.trans_lt (by decide)
    exact hport.trans_le hpow

theorem words_renderLine {r : HostKeyRecord} (h : Plain r) :
    words (renderLine r) = [r.host, intText r.port, r.keyType, r.keyBlob] := by
  rw [renderLine, words_append_space h.host.1, words_append_space (word_intText r.port),
    words_append_space h.keyType, words_word h.keyBlob]

/-- The line of a plain record is read as that record. -/
theorem parseLine_renderLine {r : HostKeyRecord} (h : Plain r) :
    parseLine (renderLine r) = some r := by
  obtain ⟨hword, hcomment⟩ := h.host
  obtain ⟨c, rest, hhost⟩ := List.exists_cons_of_ne_nil hword.1
  have hline : renderLine r ≠ [] := by
    rw [renderLine, hhost]
    exact List.cons_ne_nil _ _
  have hstrip : strip (renderLine r) = renderLine r := by
    refine strip_of_ends hline ?_ ?_
    · intro d hd
      rw [renderLine, hhost] at hd
      obtain rfl := Option.some.inj hd
      exact hword.2 c (hhost ▸ List.mem_cons_self)
    · intro d hd
      have hsplit : renderLine r =
          (r.host ++ ' ' :: (intText r.port ++ ' ' :: (r.keyType ++ [' ']))) ++ r.keyBlob := by
        simp [renderLine]
      have hblob : r.keyBlob.getLast? = some d := by
        rwa [hsplit, List.getLast?_append_of_ne_nil _ h.keyBlob.1] at hd
      exact h.keyBlob.2 d (List.mem_of_getLast? hblob)
  have hmark : startsWith "#" (renderLine r) = false := by
    rw [hhost] at hcomment
    have hc : c ≠ '#' := fun hc => hcomment (congrArg some hc)
    have hne : ('#' == c) = false := beq_false_of_ne hc.symm
    rw [renderLine, hhost]
    show ('#' == c && _) = false
    rw [hne, Bool.false_and]
  rw [parseLine, hstrip]
  simp only [hline, hmark, Bool.false_eq_true, or_self, if_false, words_renderLine h,
    pyInt_intText h.port, Option.map_some]

/-- What is read of a line is plain. -/
theorem plain_of_parseLine {line : Text} {r : HostKeyRecord} (h : parseLine line = some r) :
    Plain r := by
  rw [parseLine] at h
  split at h
  · cases h
  · next hline =>
      obtain ⟨hne, hmark⟩ := not_or.mp hline
      split at h
      · next host portText keyType keyBlob hwords =>
          obtain ⟨port, hport, rfl⟩ := Option.map_eq_some_iff.mp h
          have hword : ∀ word ∈ [host, portText, keyType, keyBlob], Word word := by
            intro word hmem
            exact word_of_mem_words (hwords ▸ hmem)
          refine ⟨⟨hword host (by simp), ?_⟩, natAbs_lt_of_pyInt hport, hword keyType (by simp),
            hword keyBlob (by simp)⟩
          -- The host begins where the stripped line does, which is not at a `#`.
          obtain ⟨c, rest, hc⟩ := List.exists_cons_of_ne_nil hne
          obtain ⟨first, others, hfirst⟩ := head?_words (t := rest) (isSpace_of_strip_eq_cons hc)
          rw [hc, hfirst] at hwords
          obtain ⟨rfl, -⟩ := List.cons.inj hwords
          rintro hhead
          obtain rfl := Option.some.inj hhead
          rw [hc] at hmark
          exact hmark rfl
      · cases h

/-- What is read of a file is plain. -/
theorem plain_of_mem_load {file : Option Text} {r : HostKeyRecord} (h : r ∈ load file) :
    Plain r := by
  cases file with
  | none => exact absurd h List.not_mem_nil
  | some text =>
    obtain ⟨line, -, hline⟩ := List.mem_filterMap.mp h
    exact plain_of_parseLine hline

theorem singleLine_renderLine {r : HostKeyRecord} (h : Plain r) : SingleLine (renderLine r) := by
  have hspace : isLineBoundary ' ' = false := by decide
  intro c hc
  simp only [renderLine, List.mem_append, List.mem_cons] at hc
  rcases hc with hc | rfl | hc | rfl | hc | rfl | hc
  · exact h.host.1.singleLine c hc
  · exact hspace
  · exact (word_intText r.port).singleLine c hc
  · exact hspace
  · exact h.keyType.singleLine c hc
  · exact hspace
  · exact h.keyBlob.singleLine c hc

/-- The lines that are written are read as the records they were written for. -/
theorem load_writeText {records : Records} (h : ∀ r ∈ records, Plain r) :
    load (some (writeText records)) = records.mergeSort HostKeyRecord.le := by
  have hsorted : ∀ r ∈ records.mergeSort HostKeyRecord.le, Plain r :=
    fun r hr => h r (List.mem_mergeSort.mp hr)
  have hheader : SingleLine header := by decide
  have hlines : ∀ line ∈ header :: (records.mergeSort HostKeyRecord.le).map renderLine,
      SingleLine line := by
    intro line hline
    rcases List.mem_cons.mp hline with rfl | hline
    · exact hheader
    · obtain ⟨r, hr, rfl⟩ := List.mem_map.mp hline
      exact singleLine_renderLine (hsorted r hr)
  have hcomment : parseLine header = none := by decide
  rw [load, writeText, join_append_newline (List.cons_ne_nil _ _), splitlines_unlines hlines,
    List.filterMap_cons_none hcomment, List.filterMap_map]
  have hparse : ∀ r ∈ records.mergeSort HostKeyRecord.le,
      (parseLine ∘ renderLine) r = some r := fun r hr => parseLine_renderLine (hsorted r hr)
  rw [List.filterMap_congr hparse, List.filterMap_some]

theorem mem_load_writeText {records : Records} (h : ∀ r ∈ records, Plain r) (r : HostKeyRecord) :
    r ∈ load (some (writeText records)) ↔ r ∈ records := by
  rw [load_writeText h, List.mem_mergeSort]

/-! ## What a check decides -/

theorem HostKeyRecord.ext_key {a b : HostKeyRecord} (hendpoint : a.endpoint = b.endpoint)
    (hkey : a.key = b.key) : a = b := by
  obtain ⟨hhost, hport⟩ := Prod.mk.inj hendpoint
  obtain ⟨htype, hblob⟩ := Prod.mk.inj hkey
  cases a
  cases b
  simp_all

theorem any_trustedKeys_iff {records : Records} {r : HostKeyRecord} :
    ((trustedKeys records r.endpoint).any fun entry => entry.key = r.key) = true ↔
      r ∈ records := by
  simp only [trustedKeys, List.any_eq_true, List.mem_filter, decide_eq_true_eq]
  constructor
  · intro ⟨entry, ⟨hmem, hendpoint⟩, hkey⟩
    exact HostKeyRecord.ext_key hendpoint hkey ▸ hmem
  · intro hmem
    exact ⟨r, ⟨hmem, rfl⟩, rfl⟩

/-- A check looks for the key first, and then for any key of the endpoint. -/
theorem check_eq (records : Records) (r : HostKeyRecord) :
    check records r =
      if r ∈ records then .trusted
      else if ∃ x ∈ records, x.endpoint = r.endpoint then .mismatch
      else .unknown := by
  have hentries : trustedKeys records r.endpoint ≠ [] ↔
      ∃ x ∈ records, x.endpoint = r.endpoint := by
    simp only [trustedKeys, ne_eq, List.filter_eq_nil_iff, decide_eq_true_eq, not_forall,
      not_not, exists_prop]
  unfold check
  simp only [any_trustedKeys_iff, hentries]

theorem check_eq_trusted_iff {records : Records} {r : HostKeyRecord} :
    check records r = .trusted ↔ r ∈ records := by
  rw [check_eq]
  split
  · next hmem => exact ⟨fun _ => hmem, fun _ => rfl⟩
  · next hmem =>
      split
      · exact ⟨nofun, fun h => absurd h hmem⟩
      · exact ⟨nofun, fun h => absurd h hmem⟩

theorem check_eq_unknown_iff {records : Records} {r : HostKeyRecord} :
    check records r = .unknown ↔ ∀ x ∈ records, x.endpoint ≠ r.endpoint := by
  rw [check_eq]
  split
  · next hmem => exact ⟨nofun, fun h => absurd rfl (h r hmem)⟩
  · split
    · next hother =>
        obtain ⟨x, hx, hendpoint⟩ := hother
        exact ⟨nofun, fun h => absurd hendpoint (h x hx)⟩
    · next hother => exact ⟨fun _ x hx hendpoint => hother ⟨x, hx, hendpoint⟩, fun _ => rfl⟩

theorem check_eq_mismatch {records : Records} {r x : HostKeyRecord} (hr : r ∉ records)
    (hx : x ∈ records) (hendpoint : x.endpoint = r.endpoint) : check records r = .mismatch := by
  rw [check_eq, if_neg hr, if_pos ⟨x, hx, hendpoint⟩]

/-- A known key is not recorded again. -/
theorem StoreState.record_of_mem {s : StoreState} {r : HostKeyRecord} (h : r ∈ s.entries) :
    s.record r = { s with records := some s.entries } := by
  rw [StoreState.record, if_pos (any_trustedKeys_iff.mpr h)]

theorem StoreState.record_of_notMem {s : StoreState} {r : HostKeyRecord} (h : r ∉ s.entries) :
    s.record r =
      { file := some (writeText (s.entries ++ [r])), records := some (s.entries ++ [r]) } := by
  rw [StoreState.record, if_neg fun hany => h (any_trustedKeys_iff.mp hany)]

/-- A record that the line format cannot hold is in no file. -/
theorem notMem_load_of_not_plain {r : HostKeyRecord} (h : ¬ Plain r) (file : Option Text) :
    r ∉ load file :=
  fun hmem => h (plain_of_mem_load hmem)

end OpenWrtCopilot.Ports.HostKeys
