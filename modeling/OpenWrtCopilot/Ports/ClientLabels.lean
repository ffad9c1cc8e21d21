import Mathlib
import OpenWrtCopilot.Ports.ClientMedia
import OpenWrtCopilot.Verified.Chunks
import OpenWrtCopilot.Verified.PyLines

/-!
# Client labels

Ports the store of the labels that operators give to clients, which are kept by MAC address.  Its
`normalize_mac` deletes every character that is no hexadecimal digit, and that of the router agent
deletes the separators only.

## Main results

* `normalisers_agree_iff` — the two agree on a text, and only a MAC address can be given a label by it, unless
  it has twelve hexadecimal digits and other characters than separators.
* `get_run` — any calls act on the labels as writes to a map of addresses.
-/

namespace OpenWrtCopilot.Ports.ClientLabels

open Verified
open Verified.Chunks
open Verified.PyText
open Verified.PyDict
open Ports.ClientMedia (lowerHexDigit)

/-! ## MAC addresses -/

/-- `[0-9a-fA-F]`. -/
def isHexDigit (c : Char) : Bool := c.isDigit || ('a' ≤ c && c ≤ 'f') || ('A' ≤ c && c ≤ 'F')

/-- `":".join(octets)` for the octets of some digits. -/
def octets (digits : Text) : Text := join [':'] (chunks 2 digits)

/-- `normalize_mac` of the store. -/
def normalizeMac (mac : Text) : Option Text :=
  if mac = [] then none
  else
    let digits := mac.filter isHexDigit
    if digits.length ≠ 12 then none else some ((octets digits).map Char.toLower)

/-- Twelve lower-case digits in octets. -/
def Canonical (mac : Text) : Prop :=
  ∃ digits : Text, digits.length = 12 ∧ (∀ c ∈ digits, lowerHexDigit c = true) ∧
    mac = octets digits

/-- `:`, `-` or `.`. -/
def isSeparator (c : Char) : Bool := c = ':' || c = '-' || c = '.'

/-- A statement about a character and its lower case need only be looked at for the letters from
`A` to `Z`. -/
theorem toLower_cases {P : Char → Char → Prop}
    (hletters : ∀ n, 65 ≤ n → n ≤ 90 → P (Char.ofNat n) (Char.ofNat n).toLower)
    (hother : ∀ c : Char, ¬(c.val ≥ 'A'.val ∧ c.val ≤ 'Z'.val) → P c c) (c : Char) :
    P c c.toLower := by
  by_cases hupper : c.val ≥ 'A'.val ∧ c.val ≤ 'Z'.val
  · have hletter := hletters c.toNat (UInt32.le_iff_toNat_le.mp hupper.1)
      (UInt32.le_iff_toNat_le.mp hupper.2)
    rwa [Char.ofNat_toNat] at hletter
  · rw [Char.toLower, dif_neg hupper]
    exact hother c hupper

theorem lowerHexDigit_toLower (c : Char) : lowerHexDigit c.toLower = isHexDigit c := by
  refine toLower_cases (P := fun c d => lowerHexDigit d = isHexDigit c) ?_ ?_ c
  · intro n hlow hhigh
    interval_cases n <;> decide
  · intro c hupper
    have hletter : ('A' ≤ c && c ≤ 'F') = false := by
      rw [Bool.eq_false_iff]
      intro h
      rw [Bool.and_eq_true, decide_eq_true_eq, decide_eq_true_eq] at h
      exact hupper ⟨h.1, UInt32.le_trans h.2 (by decide)⟩
    rw [isHexDigit, hletter, Bool.or_false, lowerHexDigit]

theorem isSeparator_toLower (c : Char) : isSeparator c.toLower = isSeparator c := by
  refine toLower_cases (P := fun c d => isSeparator d = isSeparator c) ?_ (fun _ _ => rfl) c
  intro n hlow hhigh
  interval_cases n <;> decide

theorem not_isSeparator_of_isHexDigit {c : Char} (h : isHexDigit c = true) :
    isSeparator c = false := by
  rw [Bool.eq_false_iff]
  intro hseparator
  simp only [isSeparator, Bool.or_eq_true, decide_eq_true_eq] at hseparator
  rcases hseparator with (rfl | rfl) | rfl <;> exact absurd h (by decide)

/-! ## The two normalisers -/

/-- The digits of a text, in lower case. -/
def lowerDigits (mac : Text) : Text := (mac.filter isHexDigit).map Char.toLower

theorem filter_map_toLower (mac : Text) :
    (mac.map Char.toLower).filter (fun c => c ≠ ':' ∧ c ≠ '-' ∧ c ≠ '.') =
      (mac.filter fun c => !isSeparator c).map Char.toLower := by
  have hkept : ∀ c : Char, decide (c ≠ ':' ∧ c ≠ '-' ∧ c ≠ '.') = !isSeparator c := by
    intro c
    rw [isSeparator]
    by_cases hcolon : c = ':' <;> by_cases hdash : c = '-' <;> by_cases hdot : c = '.' <;>
      simp [hcolon, hdash, hdot]
  rw [List.filter_map]
  congr 1
  refine List.filter_congr fun c _ => ?_
  rw [Function.comp_apply, hkept, isSeparator_toLower]

/-- The agent deletes the separators, and then there must be twelve digits and nothing else. -/
theorem agent_eq (mac : Text) :
    ClientMedia.normalizeMac (some mac) =
      if (mac.filter isHexDigit).length = 12 ∧
          ∀ c ∈ mac, isHexDigit c = true ∨ isSeparator c = true then some (lowerDigits mac)
      else none := by
  by_cases hempty : mac = []
  · rw [hempty]
    rfl
  · have htruthy : ClientMedia.truthy (some mac) = some mac := by
      cases mac with
      | nil => exact absurd rfl hempty
      | cons c mac => rfl
    rw [ClientMedia.normalizeMac, htruthy]
    dsimp only
    rw [filter_map_toLower]
    by_cases hclean : ∀ c ∈ mac, isHexDigit c = true ∨ isSeparator c = true
    · have hsame : (mac.filter fun c => !isSeparator c) = mac.filter isHexDigit := by
        refine List.filter_congr fun c hc => ?_
        rcases hclean c hc with hdigit | hseparator
        · rw [hdigit, not_isSeparator_of_isHexDigit hdigit, Bool.not_false]
        · rw [hseparator, Bool.not_true, eq_comm, Bool.eq_false_iff]
          intro hdigit
          rw [not_isSeparator_of_isHexDigit hdigit] at hseparator
          cases hseparator
      have hall : ((mac.filter isHexDigit).map Char.toLower).all lowerHexDigit = true := by
        rw [List.all_map, List.all_eq_true]
        intro c hc
        rw [Function.comp_apply, lowerHexDigit_toLower]
        exact (List.mem_filter.mp hc).2
      rw [hsame, List.length_map, lowerDigits]
      by_cases hlength : (mac.filter isHexDigit).length = 12
      · rw [if_pos ⟨hlength, hall⟩, if_pos ⟨hlength, hclean⟩]
      · rw [if_neg fun h => hlength h.1, if_neg fun h => hlength h.1]
    · have hother : ¬((mac.filter fun c => !isSeparator c).map Char.toLower).all lowerHexDigit =
          true := by
        intro hall
        refine hclean fun c hc => ?_
        cases hseparator : isSeparator c with
        | true => exact .inr rfl
        | false =>
          rw [List.all_map, List.all_eq_true] at hall
          have hdigit := hall c (List.mem_filter.mpr ⟨hc, by rw [hseparator]; rfl⟩)
          rw [Function.comp_apply, lowerHexDigit_toLower] at hdigit
          exact .inl hdigit
      rw [if_neg fun h => hother h.2, if_neg fun h => hclean h.2]

/-- The digits of an address in octets. -/
theorem filter_octets {digits : Text} (h : ':' ∉ digits) :
    (octets digits).filter (· ≠ ':') = digits := by
  have hcolon : [':'].filter (· ≠ ':') = [] := by decide
  rw [octets]
  induction digits using chunks_induction (n := 2) (by decide) with
  | nil => rw [chunks_nil, join_nil, List.filter_nil]
  | step digits hne ih =>
    have hkeep : ∀ part : Text, (∀ c ∈ part, c ∈ digits) → part.filter (· ≠ ':') = part :=
      fun part hpart => List.filter_eq_self.mpr fun c hc =>
        decide_eq_true fun hcolon => h (hcolon ▸ hpart c hc)
    rw [chunks_of_ne_nil (by decide) hne]
    by_cases hrest : chunks 2 (digits.drop 2) = []
    · have hflat := flatten_chunks (n := 2) (by decide) (digits.drop 2)
      rw [hrest, List.flatten_nil] at hflat
      rw [hrest, join_singleton, hkeep _ fun c hc => List.mem_of_mem_take hc,
        ← List.append_nil (digits.take 2), hflat, List.take_append_drop]
    · rw [join_cons_of_ne_nil _ _ hrest, List.filter_append, List.filter_append,
        hkeep _ fun c hc => List.mem_of_mem_take hc,
        ih fun hmem => h (List.mem_of_mem_drop hmem), hcolon, List.append_nil]
      exact List.take_append_drop 2 digits

theorem map_join (f : Char → Char) (parts : List Text) :
    (join [':'] parts).map f = join [f ':'] (parts.map (List.map f)) := by
  induction parts with
  | nil => rfl
  | cons part parts ih =>
    by_cases hnil : parts = []
    · rw [hnil, join_singleton, List.map_singleton, join_singleton]
    · have hmapped : parts.map (List.map f) ≠ [] := fun h => hnil (List.map_eq_nil_iff.mp h)
      rw [join_cons_of_ne_nil _ _ hnil, List.map_append, List.map_append, ih,
        List.map_cons (l := parts), join_cons_of_ne_nil _ _ hmapped, List.map_singleton]

theorem map_chunks (f : Char → Char) (digits : Text) :
    (chunks 2 digits).map (List.map f) = chunks 2 (digits.map f) := by
  induction digits using chunks_induction (n := 2) (by decide) with
  | nil => rw [chunks_nil, List.map_nil, List.map_nil, chunks_nil]
  | step digits hne ih =>
    rw [chunks_of_ne_nil (by decide) hne,
      chunks_of_ne_nil (by decide) fun h => hne (List.map_eq_nil_iff.mp h), List.map_cons, ih,
      List.map_take, List.map_drop]

theorem map_octets (digits : Text) : (octets digits).map Char.toLower =
    octets (digits.map Char.toLower) := by
  have hcolon : Char.toLower ':' = ':' := by decide
  rw [octets, map_join, hcolon, map_chunks, octets]

/-- The store deletes all other characters, and then there must be twelve digits. -/
theorem normalizeMac_eq (mac : Text) :
    normalizeMac mac =
      if (mac.filter isHexDigit).length = 12 then some (octets (lowerDigits mac)) else none := by
  rw [normalizeMac]
  by_cases hempty : mac = []
  · rw [hempty]
    rfl
  · rw [if_neg hempty]
    dsimp only
    by_cases hlength : (mac.filter isHexDigit).length = 12
    · rw [if_neg (not_not_intro hlength), if_pos hlength, map_octets, lowerDigits]
    · rw [if_pos hlength, if_neg hlength]

/-! ## The store -/

/-- The table of labels: one for each MAC address, in canonical form. -/
structure LabelTable where
  rows : Dict Text Text
  unique : (keys rows).Nodup
  canonical : ∀ mac ∈ keys rows, Canonical mac

theorem length_lowerDigits (mac : Text) :
    (lowerDigits mac).length = (mac.filter isHexDigit).length := List.length_map _

theorem lowerHexDigit_of_mem {mac : Text} : ∀ c ∈ lowerDigits mac, lowerHexDigit c = true := by
  intro c hc
  obtain ⟨d, hd, rfl⟩ := List.mem_map.mp hc
  rw [lowerHexDigit_toLower]
  exact (List.mem_filter.mp hd).2

/-- What the store makes of a text is an address in canonical form. -/
theorem canonical_of_normalizeMac {mac key : Text} (h : normalizeMac mac = some key) :
    Canonical key := by
  rw [normalizeMac_eq] at h
  split_ifs at h with hlength
  exact ⟨lowerDigits mac, (length_lowerDigits mac).trans hlength, lowerHexDigit_of_mem,
    (Option.some.inj h).symm⟩

section Store

variable (repr : Text → Text)

/-- `ClientLabelStore.get`: the label of an address. -/
def get (mac : Text) (table : LabelTable) : Option Text :=
  (normalizeMac mac).bind fun normalized => get? normalized table.rows

/-- `ClientLabelStore.upsert`; `repr` is that of texts. -/
def upsert (mac label : Text) (table : LabelTable) : Except Text LabelTable :=
  match h : normalizeMac mac with
  | none => .error ("invalid MAC address: ".toList ++ repr mac)
  | some normalized =>
      .ok
        { rows := set normalized label table.rows
          unique := nodup_keys_set table.unique _ _
          canonical := fun key hkey => (mem_keys_set.mp hkey).elim
            (fun heq => heq ▸ canonical_of_normalizeMac h) (table.canonical key) }

/-- `ClientLabelStore.delete`: whether a label was removed, and the table without it. -/
def delete (mac : Text) (table : LabelTable) : Bool × LabelTable :=
  match normalizeMac mac with
  | none => (false, table)
  | some normalized =>
      match get? normalized table.rows with
      | none => (false, table)
      | some _ =>
          (true,
            { rows := erase normalized table.rows
              unique := nodup_keys_erase table.unique _
              canonical := fun key hkey => by
                obtain ⟨item, hitem, rfl⟩ := List.mem_map.mp hkey
                exact table.canonical _ (List.mem_map_of_mem (List.mem_filter.mp hitem).1) })

/-! ## Where the two agree -/

/-- The two normalisers agree on a text: they give the same digits or nothing, and only a MAC
address is given a label by that text. -/
structure Agrees (mac : Text) : Prop where
  defined : (normalizeMac mac).isSome = true ↔ (ClientMedia.normalizeMac (some mac)).isSome = true
  digits : ∀ key compact, normalizeMac mac = some key →
    ClientMedia.normalizeMac (some mac) = some compact → key.filter (· ≠ ':') = compact
  labelled : ∀ label table table', upsert repr mac label table = .ok table' →
    (ClientMedia.normalizeMac (some mac)).isSome = true

/-- Two texts stand for one record. -/
structure SameRecord (mac other : Text) : Prop where
  get : ∀ table, get mac table = get other table
  upsert : ∀ label table, ∃ table', upsert repr mac label table = .ok table' ∧
    upsert repr other label table = .ok table'
  delete : ∀ table, delete mac table = delete other table

theorem upsert_of_some {mac normalized : Text} (h : normalizeMac mac = some normalized)
    (label : Text) (table : LabelTable) :
    ∃ table', upsert repr mac label table = .ok table' ∧
      table'.rows = set normalized label table.rows := by
  rw [upsert]
  split
  · next hnone => cases hnone.symm.trans h
  · next key hkey =>
      obtain rfl := Option.some.inj (hkey.symm.trans h)
      exact ⟨_, rfl, rfl⟩

theorem LabelTable.ext_rows {table table' : LabelTable} (h : table.rows = table'.rows) :
    table = table' := by
  cases table
  cases table'
  cases h
  rfl

/-- All spellings of a MAC address stand for one record. -/
theorem sameRecord_of_agent {mac other compact : Text}
    (h : ClientMedia.normalizeMac (some mac) = some compact)
    (hother : ClientMedia.normalizeMac (some other) = some compact) :
    SameRecord repr mac other := by
  have hnormalized : ∀ {text : Text}, ClientMedia.normalizeMac (some text) = some compact →
      normalizeMac text = some (octets compact) := by
    intro text htext
    rw [agent_eq] at htext
    split_ifs at htext with hdigits
    rw [normalizeMac_eq, if_pos hdigits.1, Option.some.inj htext]
  have hmac := hnormalized h
  have hsame : normalizeMac mac = normalizeMac other := hmac.trans (hnormalized hother).symm
  refine ⟨fun table => ?_, fun label table => ?_, fun table => ?_⟩
  · rw [ClientLabels.get, ClientLabels.get, hsame]
  · obtain ⟨table', htable, hrows⟩ := upsert_of_some repr hmac label table
    obtain ⟨table'', htable', hrows'⟩ := upsert_of_some repr (hnormalized hother) label table
    rw [LabelTable.ext_rows (hrows'.trans hrows.symm)] at htable'
    exact ⟨table', htable, htable'⟩
  · rw [ClientLabels.delete, ClientLabels.delete, hsame]

theorem separated_of_agrees {mac : Text} (hagrees : Agrees repr mac)
    (hlength : (mac.filter isHexDigit).length = 12) :
    ∀ c ∈ mac, isHexDigit c = true ∨ isSeparator c = true := by
  have hdefined := hagrees.defined
  rw [normalizeMac_eq, if_pos hlength, agent_eq] at hdefined
  by_contra hother
  rw [if_neg fun h => hother h.2] at hdefined
  exact Bool.false_ne_true (hdefined.mp rfl)

/-- **The two normalisers agree on a text unless it has twelve digits and other characters than
separators; spellings of one MAC address stand for one record.** -/
theorem normalisers_agree_iff (mac : Text) :
    (Agrees repr mac ↔ ((mac.filter isHexDigit).length = 12 →
      ∀ c ∈ mac, isHexDigit c = true ∨ isSeparator c = true)) ∧
    ∀ other compact, ClientMedia.normalizeMac (some mac) = some compact →
      ClientMedia.normalizeMac (some other) = some compact → SameRecord repr mac other := by
  refine ⟨⟨separated_of_agrees repr, fun hclean => ⟨?_, ?_, ?_⟩⟩,
    fun _ _ => sameRecord_of_agent repr⟩
  · rw [normalizeMac_eq, agent_eq]
    by_cases hlength : (mac.filter isHexDigit).length = 12
    · rw [if_pos hlength, if_pos ⟨hlength, hclean hlength⟩]
      exact iff_of_true rfl rfl
    · rw [if_neg hlength, if_neg fun h => hlength h.1]
  · intro key compact hkey hcompact
    rw [normalizeMac_eq] at hkey
    rw [agent_eq] at hcompact
    split_ifs at hkey with hlength
    split_ifs at hcompact
    rw [← Option.some.inj hkey, ← Option.some.inj hcompact]
    exact filter_octets fun hmem => absurd (lowerHexDigit_of_mem _ hmem) (by decide)
  · intro label table table' hupsert
    rw [upsert] at hupsert
    split at hupsert
    · cases hupsert
    · next key hkey =>
        rw [normalizeMac_eq] at hkey
        split_ifs at hkey with hlength
        rw [agent_eq, if_pos ⟨hlength, hclean hlength⟩]
        rfl

/-- **A hostname with twelve digits is given a label.** -/
theorem hostname_labelled :
    ¬∀ (repr : Text → Text) (mac : Text), Agrees repr mac := by
  intro h
  have hclean := separated_of_agrees id (h id "decade_facade".toList) (by decide)
  exact absurd (hclean '_' (by decide)) (by decide)

/-! ## Runs of the store -/

inductive Call
  | upsert (mac label : Text)
  | delete (mac : Text)

/-- The table after a call; one that raises leaves it as it is. -/
def Call.run (table : LabelTable) : Call → LabelTable
  | .upsert mac label => (ClientLabels.upsert repr mac label table).toOption.getD table
  | .delete mac => (ClientLabels.delete mac table).2

/-- What a call means for the label of one address. -/
def Call.label (key : Text) (old : Option Text) : Call → Option Text
  | .upsert mac label => if some key = normalizeMac mac then some label else old
  | .delete mac => if some key = normalizeMac mac then none else old

theorem get?_run (call : Call) (table : LabelTable) (key : Text) :
    get? key (call.run repr table).rows = call.label key (get? key table.rows) := by
  cases call with
  | upsert mac label =>
    rw [Call.run, Call.label]
    cases hmac : normalizeMac mac with
    | none =>
      rw [ClientLabels.upsert]
      split
      · rfl
      · next hkey => cases hmac.symm.trans hkey
    | some normalized =>
      obtain ⟨table', htable, hrows⟩ := upsert_of_some repr hmac label table
      rw [htable]
      change get? key table'.rows = _
      rw [hrows]
      split_ifs with hkey
      · rw [Option.some.inj hkey, get?_set_self]
      · exact get?_set_of_ne (mt (congrArg some) hkey) _ _
  | delete mac =>
    rw [Call.run, Call.label, ClientLabels.delete]
    cases normalizeMac mac with
    | none => rfl
    | some normalized =>
      dsimp only
      cases hrow : get? normalized table.rows with
      | none =>
        split_ifs with hkey
        · rw [Option.some.inj hkey, hrow]
        · rfl
      | some label => simp [get?_erase, hrow]

/-- **The store is a map of addresses: after any calls an address has, under each of its
spellings, what the calls for it left, and a text that is none has no label.** -/
theorem get_run (calls : List Call) (table : LabelTable) (mac : Text) :
    get mac (calls.foldl (Call.run repr) table) =
      (normalizeMac mac).bind fun key => calls.foldl (Call.label key) (get? key table.rows) := by
  rw [get]
  cases normalizeMac mac with
  | none => rfl
  | some key =>
    simp only [Option.bind_some]
    induction calls generalizing table with
    | nil => rfl
    | cons call calls ih => rw [List.foldl_cons, List.foldl_cons, ih, get?_run]

end Store

end OpenWrtCopilot.Ports.ClientLabels
