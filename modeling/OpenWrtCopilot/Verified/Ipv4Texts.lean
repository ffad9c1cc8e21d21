import OpenWrtCopilot.Verified.PyIpAddress
import OpenWrtCopilot.Verified.PySplit

/-!
# The texts of IPv4 addresses

`str(IPv4Address(n))` and what `ipaddress` makes of it, the numbers that addresses of the two
families have, and the network of an address, by a mask.

## Main results

* `parseIpv4_dotted` — the dotted quad of a number is read as the number.
* `lt_of_parseIpv4`, `lt_of_parseIpv6` — addresses have 32 or 128 bits.
* `and_mask` — a mask keeps the bits of the network.
-/

namespace OpenWrtCopilot.Verified.PyIpAddress

open PyText

/-! ## Numbers of addresses -/

theorem mapM_eq_some_spec {α β : Type} {f : α → Option β} {l : List α} {bs : List β}
    (h : l.mapM f = some bs) : bs.length = l.length ∧ ∀ b ∈ bs, ∃ a ∈ l, f a = some b := by
  induction l generalizing bs with
  | nil =>
    obtain rfl := Option.some.inj h
    exact ⟨rfl, List.forall_mem_nil _⟩
  | cons a l ih =>
    rw [List.mapM_cons] at h
    obtain ⟨b, hb, hrest⟩ := Option.bind_eq_some_iff.mp h
    obtain ⟨cs, hcs, hbs⟩ := Option.bind_eq_some_iff.mp hrest
    obtain rfl := Option.some.inj hbs
    obtain ⟨hlength, hmem⟩ := ih hcs
    refine ⟨congrArg Nat.succ hlength, List.forall_mem_cons.mpr ⟨⟨a, List.mem_cons_self, hb⟩, ?_⟩⟩
    intro c hc
    obtain ⟨a', ha', hfa'⟩ := hmem c hc
    exact ⟨a', List.mem_cons_of_mem a ha', hfa'⟩

theorem mapM_eq_some_arg {α β : Type} {f : α → Option β} {l : List α} {bs : List β}
    (h : l.mapM f = some bs) {a : α} (ha : a ∈ l) : ∃ b, f a = some b := by
  induction l generalizing bs with
  | nil => cases ha
  | cons c l ih =>
    rw [List.mapM_cons] at h
    obtain ⟨b, hb, hrest⟩ := Option.bind_eq_some_iff.mp h
    obtain ⟨cs, hcs, -⟩ := Option.bind_eq_some_iff.mp hrest
    obtain rfl | ha := List.mem_cons.mp ha
    · exact ⟨b, hb⟩
    · exact ih hcs ha

theorem parseOctet_le {t : Text} {v : Nat} (h : parseOctet t = some v) : v ≤ 255 := by
  rw [parseOctet] at h
  split at h
  · next hoctet => exact Option.some.inj h ▸ hoctet.2.2.2.2
  · cases h

theorem lt_of_parseIpv4 {t : Text} {v : Nat} (h : parseIpv4 t = some v) : v < 2 ^ 32 := by
  rw [parseIpv4] at h
  split at h
  · next a b c d hoctets =>
      have hle : ∀ octet ∈ [a, b, c, d], octet ≤ 255 := by
        intro octet hmem
        obtain ⟨t, -, ht⟩ := (mapM_eq_some_spec hoctets).2 octet hmem
        exact parseOctet_le ht
      have ha := hle a (by simp)
      have hb := hle b (by simp)
      have hc := hle c (by simp)
      have hd := hle d (by simp)
      obtain rfl := Option.some.inj h
      omega
  · cases h

/-- Digits below a base make a number below a power of the base. -/
theorem foldl_lt (base : Nat) {digits : List Nat} (h : ∀ d ∈ digits, d < base) :
    digits.foldl (fun acc d => acc * base + d) 0 < base ^ digits.length := by
  induction digits using List.reverseRecOn with
  | nil => exact Nat.zero_lt_one
  | append_singleton digits d ih =>
    have hd := h d (List.mem_append_right _ List.mem_cons_self)
    have hdigits := ih fun d hd => h d (List.mem_append_left _ hd)
    rw [List.foldl_append, List.length_append, List.length_singleton, Nat.pow_succ]
    calc digits.foldl (fun acc d => acc * base + d) 0 * base + d
        < (digits.foldl (fun acc d => acc * base + d) 0 + 1) * base := by
          rw [Nat.add_one_mul]
          omega
      _ ≤ base ^ digits.length * base := Nat.mul_le_mul_right base hdigits

theorem hexDigit_lt {c : Char} {d : Nat} (h : hexDigit c = some d) : d < 16 := by
  have hvalue (m : Char) (hm : c ≤ m) : c.toNat ≤ m.toNat := hm
  rw [hexDigit] at h
  split at h
  · next hdigit =>
      have := (range_of_isDigit hdigit).2
      obtain rfl := Option.some.inj h
      omega
  · split at h
    · next hlower =>
        have hle : c.toNat ≤ 102 := hvalue 'f' hlower.2
        obtain rfl := Option.some.inj h
        omega
    · split at h
      · next hupper =>
          have hle : c.toNat ≤ 70 := hvalue 'F' hupper.2
          obtain rfl := Option.some.inj h
          omega
      · cases h

theorem parseHextet_lt {t : Text} {v : Nat} (h : parseHextet t = some v) : v < 65536 := by
  rw [parseHextet] at h
  split at h
  · cases h
  · next ht =>
      obtain ⟨digits, hdigits, rfl⟩ := Option.map_eq_some_iff.mp h
      obtain ⟨hlength, hmem⟩ := mapM_eq_some_spec hdigits
      have hlt := foldl_lt 16 fun d hd => by
        obtain ⟨c, -, hc⟩ := hmem d hd
        exact hexDigit_lt hc
      exact hlt.trans_le (Nat.pow_le_pow_right (n := 16) (by decide) (by omega : _ ≤ 4))

/-- The parts that are numbers have 16 bits. -/
def Narrow (parts : List (Text ⊕ Nat)) : Prop := ∀ v, .inr v ∈ parts → v < 65536

theorem narrow_inl (parts : List Text) : Narrow (parts.map Sum.inl) := by
  intro v hv
  obtain ⟨t, -, ht⟩ := List.mem_map.mp hv
  cases ht

theorem narrow_expandQuad {parts : List Text} {expanded : List (Text ⊕ Nat)}
    (h : expandQuad parts = some expanded) : Narrow expanded := by
  rw [expandQuad] at h
  split at h
  · cases h
  · split at h
    · obtain ⟨v, hv, rfl⟩ := Option.map_eq_some_iff.mp h
      have hlt := lt_of_parseIpv4 hv
      intro w hw
      obtain hw | hw := List.mem_append.mp hw
      · exact narrow_inl _ w hw
      · rw [List.mem_cons, List.mem_singleton, Sum.inr.injEq, Sum.inr.injEq] at hw
        omega
    · obtain rfl := Option.some.inj h
      exact narrow_inl parts

theorem lt_of_mem_values {parts : List (Text ⊕ Nat)} (hparts : Narrow parts) {values : List Nat}
    (h : parts.mapM partValue = some values) : ∀ v ∈ values, v < 65536 := by
  intro v hv
  obtain ⟨part, hmem, hpart⟩ := (mapM_eq_some_spec h).2 v hv
  cases part with
  | inl t => exact parseHextet_lt hpart
  | inr w => exact Option.some.inj hpart ▸ hparts w hmem

theorem hextetsValue_lt {hextets : List Nat} (h : ∀ v ∈ hextets, v < 65536)
    (hlength : hextets.length = 8) : hextetsValue hextets < 2 ^ 128 := by
  have hlt := foldl_lt 65536 h
  rw [hlength] at hlt
  exact hlt

theorem lt_of_parseParts {parts : List (Text ⊕ Nat)} (hparts : Narrow parts) {v : Nat}
    (h : parseParts parts = some v) : v < 2 ^ 128 := by
  have hsub {some : List (Text ⊕ Nat)} (hsub : ∀ part ∈ some, part ∈ parts) : Narrow some :=
    fun w hw => hparts w (hsub _ hw)
  rw [parseParts] at h
  split at h
  · split at h
    · next hlength =>
        obtain ⟨values, hvalues, rfl⟩ := Option.map_eq_some_iff.mp h
        exact hextetsValue_lt (lt_of_mem_values hparts hvalues)
          ((mapM_eq_some_spec hvalues).1.trans hlength)
    · cases h
  · next skip _ =>
      extract_lets high low high' low' at h
      have hhigh : ∀ part ∈ high', part ∈ parts := fun part hpart => by
        refine List.mem_of_mem_take (i := skip) ?_
        change part ∈ if _ then _ else _ at hpart
        split at hpart
        · exact List.mem_of_mem_tail hpart
        · exact hpart
      have hlow : ∀ part ∈ low', part ∈ parts := fun part hpart => by
        refine List.mem_of_mem_drop (i := skip + 1) ?_
        change part ∈ if _ then _ else _ at hpart
        split at hpart
        · exact List.dropLast_subset _ hpart
        · exact hpart
      split at h
      · cases h
      · split at h
        · cases h
        · split at h
          · cases h
          · next hshort =>
              obtain ⟨hs, hhs, hrest⟩ := Option.bind_eq_some_iff.mp h
              obtain ⟨ls, hls, hvalue⟩ := Option.bind_eq_some_iff.mp hrest
              obtain rfl := Option.some.inj hvalue
              have hlengths := (mapM_eq_some_spec hhs).1
              have hlengths' := (mapM_eq_some_spec hls).1
              refine hextetsValue_lt (fun w hw => ?_) ?_
              · obtain hw | hw := List.mem_append.mp hw
                · obtain hw | hw := List.mem_append.mp hw
                  · exact lt_of_mem_values (hsub hhigh) hhs w hw
                  · rw [List.eq_of_mem_replicate hw]
                    decide
                · exact lt_of_mem_values (hsub hlow) hls w hw
              · rw [List.length_append, List.length_append, List.length_replicate]
                omega
  · cases h

theorem lt_of_parseIpv6 {t : Text} {v : Nat} (h : parseIpv6 t = some v) : v < 2 ^ 128 := by
  rw [parseIpv6] at h
  split at h
  · cases h
  · dsimp only at h
    split at h
    · cases h
    · split at h
      · cases h
      · split at h
        · cases h
        · next expanded hexpanded =>
            split at h
            · cases h
            · exact lt_of_parseParts (narrow_expandQuad hexpanded) h

/-! ## Dotted quads -/

/-- `str(IPv4Address(n))`. -/
def dotted (n : Nat) : Text :=
  join ['.'] [natText (n / 2 ^ 24), natText (n / 2 ^ 16 % 256), natText (n / 2 ^ 8 % 256),
    natText (n % 256)]

theorem parseOctet_natText {k : Nat} (h : k < 256) : parseOctet (natText k) = some k := by
  have hall : ∀ k : Fin 256, parseOctet (natText k) = some k.val := by decide +kernel
  exact hall ⟨k, h⟩

theorem parseIpv4_dotted {n : Nat} (h : n < 2 ^ 32) : parseIpv4 (dotted n) = some n := by
  have hparts : (dotted n).splitOn '.' = [natText (n / 2 ^ 24), natText (n / 2 ^ 16 % 256),
      natText (n / 2 ^ 8 % 256), natText (n % 256)] := by
    refine List.splitOn_intercalate '.' (fun part hpart hdot => ?_) (List.cons_ne_nil _ _)
    have hdigit : ∃ k, '.' ∈ natText k := by
      simp only [List.mem_cons, List.not_mem_nil, or_false] at hpart
      obtain rfl | rfl | rfl | rfl := hpart <;> exact ⟨_, hdot⟩
    obtain ⟨k, hk⟩ := hdigit
    exact absurd (range_of_mem_natText hk).1 (by decide)
  have ha : n / 2 ^ 24 < 256 := by omega
  rw [parseIpv4, hparts]
  simp only [List.mapM_cons, List.mapM_nil, parseOctet_natText ha,
    parseOctet_natText (Nat.mod_lt _ (by decide : 0 < 256)), bind, Option.bind, pure]
  rw [Option.some.injEq]
  omega

theorem dot_mem_dotted (n : Nat) : '.' ∈ dotted n := by
  simp [dotted, join, List.intercalate]

theorem parseIpv4_colon {t : Text} (h : ':' ∈ t) : parseIpv4 t = none := by
  have hjoin : join ['.'] (t.splitOn '.') = t := List.intercalate_splitOn '.'
  rw [← hjoin] at h
  obtain hsep | ⟨part, hpart, hcolon⟩ := mem_join h
  · exact absurd (List.mem_singleton.mp hsep) (by decide)
  · rw [parseIpv4]
    split
    · next a b c d hoctets =>
        obtain ⟨octet, hoctet⟩ := mapM_eq_some_arg hoctets hpart
        rw [parseOctet] at hoctet
        split at hoctet
        · next hdigits =>
            exact absurd (List.all_eq_true.mp hdigits.2.1 ':' hcolon) (by decide)
        · cases hoctet
    · rfl

/-! ## Networks -/

/-- A mask keeps the bits of the network. -/
theorem and_mask {n : Nat} (h : n < 2 ^ 32) (bits : Nat) :
    n &&& ((0xFFFFFFFF <<< bits) &&& 0xFFFFFFFF) = n / 2 ^ bits * 2 ^ bits := by
  rw [← Nat.shiftRight_eq_div_pow, ← Nat.shiftLeft_eq]
  refine Nat.eq_of_testBit_eq fun i => ?_
  have hones : (0xFFFFFFFF : Nat) = 2 ^ 32 - 1 := rfl
  rw [hones, Nat.testBit_and, Nat.testBit_and, Nat.testBit_shiftLeft, Nat.testBit_two_pow_sub_one,
    Nat.testBit_two_pow_sub_one, Nat.testBit_shiftLeft, Nat.testBit_shiftRight]
  by_cases hhost : bits ≤ i
  · have hplace : bits + (i - bits) = i := by omega
    by_cases hlow : i < 32
    · have hshift : i - bits < 32 := by omega
      simp [hhost, hlow, hshift, hplace]
    · have hhigh : n.testBit i = false :=
        Nat.testBit_lt_two_pow (h.trans_le (Nat.pow_le_pow_right (by decide) (by omega)))
      simp [hhigh, hplace]
  · simp [hhost]

end OpenWrtCopilot.Verified.PyIpAddress
