import OpenWrtCopilot.Ports.DhcpCollector
import OpenWrtCopilot.Verified.Ipv4Texts

/-!
# The address ranges of pools

Ports the addresses that `_resolve_pool_range` reads and writes: a number below `2^32` is shown as
an IPv4 address, a larger one as an IPv6 address.

## Main results

* `range_iff` — when the range of a pool is one of IPv4 addresses.
* `offset_past_end` — an offset that is too large for an address raises.
-/

namespace OpenWrtCopilot.Ports.DhcpRanges

open Verified.PyText
open Verified.PyIpAddress
open Ports.DhcpCollector

/-! ## Addresses -/

/-- The texts of IPv6 addresses. -/
structure Ipv6Texts where
  text : Nat → Text
  colon : ∀ n, ':' ∈ text n

/-- `int(address)`. -/
def number : IpAddress → Nat
  | .v4 n => n
  | .v6 n => n

/-- `str(ipaddress.ip_address(n))`. -/
def shown (S : Ipv6Texts) (n : Int) : Option Text :=
  if 0 ≤ n ∧ n < 2 ^ 32 then some (dotted n.toNat)
  else if 0 ≤ n ∧ n < 2 ^ 128 then some (S.text n.toNat)
  else none

theorem isSome_shown (S : Ipv6Texts) (n : Int) :
    (shown S n).isSome = true ↔ 0 ≤ n ∧ n < 2 ^ 128 := by
  rw [shown]
  split
  · next h => exact iff_of_true rfl (by omega)
  · split
    · next h => exact iff_of_true rfl h
    · next h => exact iff_of_false (by decide) h

/-- `ipaddress.ip_address`. -/
def addresses (S : Ipv6Texts) : Addresses where
  parse t := (ipAddress t).map number
  shown := shown S
  isSome_shown := isSome_shown S

/-! ## What a range is for -/

/-- The interface has an IPv4 address, and the number is that of an address in its subnet. -/
def InSubnet (net : Text × Int) (n : Nat) : Prop :=
  ∃ base, parseIpv4 net.1 = some base ∧ 0 ≤ net.2 ∧ net.2 ≤ 32 ∧
    n / 2 ^ (32 - net.2).toNat = base / 2 ^ (32 - net.2).toNat

/-- What an offset is resolved to is in the subnet of the interface. -/
def Allowed (start : Text) (net : Option (Text × Int)) (n : Nat) : Prop :=
  intOffset start ≠ none → ∃ pair, net = some pair ∧ InSubnet pair n

/-- The first address stands for the start and the last one, if any, for the limit. -/
def Resolved (start : Text) (limit : Option Int) (net : Option (Text × Int)) (first : Text)
    (last : Option Text) : Prop :=
  ∃ a, parseIpv4 first = some a ∧ (intOffset start = none → parseIpv4 start = some a) ∧
    Allowed start net a ∧
      ∀ text, last = some text → ∃ b, parseIpv4 text = some b ∧ Allowed start net b ∧
        a ≤ b ∧ ∃ count, limit = some count ∧ (b : Int) - a = count - 1

/-- The range is resolved, or the start comes back as it is, without an end. -/
def Serves (S : Ipv6Texts) (start : Option Text) (limit : Option Int) (net : Option (Text × Int)) :
    Prop :=
  ∃ first last, resolvePoolRange (addresses S) start limit net = .ok (first, last) ∧
    ((first = start ∧ last = none) ∨
      ∃ text address, start = some text ∧ first = some address ∧
        Resolved text limit net address last)

/-- The range ends before a number, or at one that no address has. -/
def EndsBefore (limit : Option Int) (n top : Int) : Prop :=
  ∀ count, limit = some count → 0 < count → n + count ≤ top ∨ 2 ^ 128 < n + count

/-- A start that is an address. -/
def AddressFits (S : Ipv6Texts) (text : Text) (limit : Option Int) : IpAddress → Prop
  | .v4 a => EndsBefore limit a (2 ^ 32)
  | .v6 a => 2 ^ 32 ≤ a ∧ S.text a = text ∧ EndsBefore limit a a

/-- A start that is an offset, for an interface with an address. -/
def OffsetFits (offset : Int) (limit : Option Int) (bits : Int) : IpAddress → Prop
  | .v4 base =>
      0 ≤ bits ∧ offset < 2 ^ (32 - bits).toNat ∧
        EndsBefore limit ((base / 2 ^ (32 - bits).toNat * 2 ^ (32 - bits).toNat : Nat) + offset)
          ((base / 2 ^ (32 - bits).toNat * 2 ^ (32 - bits).toNat : Nat) + 2 ^ (32 - bits).toNat)
  | .v6 _ => False

/-- What the start, the limit and the interface have to be like. -/
def Covered (S : Ipv6Texts) (text : Text) (limit : Option Int) (net : Option (Text × Int)) : Prop :=
  match intOffset text with
  | none => ∀ address, ipAddress text = some address → AddressFits S text limit address
  | some offset => ∀ base bits, net = some (base, bits) → bits ≤ 32 →
      ∀ address, ipAddress base = some address → OffsetFits offset limit bits address

/-! ## Addresses that are shown -/

section Shown

variable {S : Ipv6Texts} {n : Int}

theorem shown_v4 (h : 0 ≤ n) (hlt : n < 2 ^ 32) : shown S n = some (dotted n.toNat) :=
  if_pos ⟨h, hlt⟩

theorem shown_v6 (h : 2 ^ 32 ≤ n) (hlt : n < 2 ^ 128) : shown S n = some (S.text n.toNat) := by
  have hnot : ¬(0 ≤ n ∧ n < 2 ^ 32) := by omega
  rw [shown, if_neg hnot, if_pos ⟨by omega, hlt⟩]

theorem shown_none (h : 2 ^ 128 ≤ n) : shown S n = none := by
  have hnot : ¬(0 ≤ n ∧ n < 2 ^ 32) := by omega
  have hnot' : ¬(0 ≤ n ∧ n < 2 ^ 128) := by omega
  rw [shown, if_neg hnot, if_neg hnot']

/-- An IPv4 address that is shown has the number. -/
theorem eq_of_shown {text : Text} {a : Nat} (h : 0 ≤ n) (hshown : shown S n = some text)
    (ha : parseIpv4 text = some a) : n = a ∧ n < 2 ^ 32 := by
  by_cases hv4 : n < 2 ^ 32
  · rw [shown_v4 h hv4] at hshown
    rw [← Option.some.inj hshown, parseIpv4_dotted (by omega)] at ha
    have hnat := Option.some.inj ha
    omega
  · by_cases hv6 : n < 2 ^ 128
    · rw [shown_v6 (by omega) hv6] at hshown
      rw [← Option.some.inj hshown, parseIpv4_colon (S.colon _)] at ha
      cases ha
    · rw [shown_none (by omega)] at hshown
      cases hshown

/-- No address is a text of digits. -/
theorem shown_ne_digits {first text : Text} (hshown : shown S n = some first)
    (hdigits : ∀ c ∈ text, isDigit c = true) : first ≠ text := by
  rintro rfl
  rw [shown] at hshown
  split at hshown
  · exact absurd (hdigits '.' (Option.some.inj hshown ▸ dot_mem_dotted _)) (by decide)
  · split at hshown
    · exact absurd (hdigits ':' (Option.some.inj hshown ▸ S.colon _)) (by decide)
    · cases hshown

/-- The last address of a range. -/
def lastOf (S : Ipv6Texts) (limit : Option Int) (n : Int) : Option Text :=
  (limit.filter (0 < ·)).bind fun count => shown S (n + count - 1)

theorem lastOf_of_pos {limit : Option Int} {count : Int} (hlimit : limit = some count)
    (hpos : 0 < count) : lastOf S limit n = shown S (n + count - 1) := by
  rw [lastOf, hlimit, Option.filter_some, if_pos (decide_eq_true hpos)]
  rfl

theorem lastOf_eq_some {limit : Option Int} {text : Text} (h : lastOf S limit n = some text) :
    ∃ count, limit = some count ∧ 0 < count ∧ shown S (n + count - 1) = some text := by
  obtain ⟨count, hcount, hshown⟩ := Option.bind_eq_some_iff.mp h
  obtain ⟨hlimit, hpos⟩ := Option.filter_eq_some_iff.mp hcount
  exact ⟨count, hlimit, of_decide_eq_true hpos, hshown⟩

/-- The ends that are IPv4 addresses before a number. -/
theorem endsBefore_iff {limit : Option Int} {top : Int} (h : 0 ≤ n) (htop : top ≤ 2 ^ 32) :
    EndsBefore limit n top ↔ ∀ text, lastOf S limit n = some text →
      ∃ b : Nat, parseIpv4 text = some b ∧ (b : Int) < top ∧ n ≤ b ∧
        ∃ count, limit = some count ∧ (b : Int) - n = count - 1 := by
  constructor
  · intro hends text hlast
    obtain ⟨count, hlimit, hpos, hshown⟩ := lastOf_eq_some hlast
    obtain hbefore | hpast := hends count hlimit hpos
    · rw [shown_v4 (by omega) (by omega)] at hshown
      refine ⟨(n + count - 1).toNat, ?_, by omega, by omega, count, hlimit, by omega⟩
      rw [← Option.some.inj hshown]
      exact parseIpv4_dotted (by omega)
    · rw [shown_none (by omega)] at hshown
      cases hshown
  · intro hlast count hlimit hpos
    by_cases hpast : 2 ^ 128 < n + count
    · exact .inr hpast
    · have hsome : (shown S (n + count - 1)).isSome = true :=
        (isSome_shown S _).mpr ⟨by omega, by omega⟩
      obtain ⟨text, htext⟩ := Option.isSome_iff_exists.mp hsome
      obtain ⟨b, hb, hlt, -, -⟩ := hlast text ((lastOf_of_pos hlimit hpos).trans htext)
      obtain ⟨hsame, -⟩ := eq_of_shown (by omega) htext hb
      exact .inl (by omega)

/-- Without an end before the first address, there is none at all. -/
theorem lastOf_eq_none_iff {limit : Option Int} (h : 0 ≤ n) :
    lastOf S limit n = none ↔ EndsBefore limit n n := by
  constructor
  · intro hnone count hlimit hpos
    by_cases hpast : 2 ^ 128 < n + count
    · exact .inr hpast
    · have hsome : (shown S (n + count - 1)).isSome = true :=
        (isSome_shown S _).mpr ⟨by omega, by omega⟩
      rw [← lastOf_of_pos hlimit hpos, hnone] at hsome
      cases hsome
  · intro hends
    refine Option.eq_none_iff_forall_ne_some.mpr fun text hlast => ?_
    obtain ⟨count, hlimit, hpos, hshown⟩ := lastOf_eq_some hlast
    rw [shown_none (by have := hends count hlimit hpos; omega)] at hshown
    cases hshown

end Shown

/-! ## Ranges of starts -/

section Start

variable {S : Ipv6Texts} {text : Text} {limit : Option Int} {net : Option (Text × Int)}

theorem serves_of_unresolved (hne : text ≠ [])
    (h : startInt (addresses S) text net = none) : Serves S (some text) limit net := by
  refine ⟨some text, none, ?_, .inl ⟨rfl, rfl⟩⟩
  cases text with
  | nil => exact absurd rfl hne
  | cons c rest =>
    rw [resolvePoolRange]
    · rw [h]
    · rintro ⟨⟩

/-- A start that has a number is shown as an address, or does not serve. -/
theorem serves_of_number (hne : text ≠ []) {n : Int}
    (h : startInt (addresses S) text net = some n) :
    Serves S (some text) limit net ↔ ∃ address, shown S n = some address ∧
      ((address = text ∧ lastOf S limit n = none) ∨
        Resolved text limit net address (lastOf S limit n)) := by
  have hresolve : resolvePoolRange (addresses S) (some text) limit net =
      (shown S n).elim (.error .valueError) fun first => .ok (some first, lastOf S limit n) := by
    cases text with
    | nil => exact absurd rfl hne
    | cons c rest =>
      rw [resolvePoolRange]
      · rw [h]
        dsimp only [addresses]
        cases shown S n <;> rfl
      · rintro ⟨⟩
  rw [Serves, hresolve]
  cases shown S n with
  | none =>
    constructor
    · rintro ⟨first, last, hrange, -⟩
      cases hrange
    · rintro ⟨address, haddress, -⟩
      cases haddress
  | some address =>
    constructor
    · rintro ⟨first, last, hrange, hserves⟩
      obtain ⟨rfl, rfl⟩ := Prod.mk.inj (Except.ok.inj hrange)
      refine ⟨address, rfl, ?_⟩
      obtain ⟨hsame, hlast⟩ | ⟨text', address', htext, haddress, hresolved⟩ := hserves
      · exact .inl ⟨Option.some.inj hsame, hlast⟩
      · obtain rfl := Option.some.inj htext
        obtain rfl := Option.some.inj haddress
        exact .inr hresolved
    · rintro ⟨_, haddress, hserves⟩
      obtain rfl := Option.some.inj haddress
      refine ⟨some address, lastOf S limit n, rfl, ?_⟩
      obtain ⟨hsame, hlast⟩ | hresolved := hserves
      · exact .inl ⟨congrArg some hsame, hlast⟩
      · exact .inr ⟨text, address, rfl, rfl, hresolved⟩

theorem parseIpv4_of_ipAddress {t : Text} {a : Nat} :
    ipAddress t = some (.v4 a) ↔ parseIpv4 t = some a := by
  rw [ipAddress]
  cases parseIpv4 t with
  | some v => simp
  | none =>
    cases parseIpv6 t with
    | none => simp
    | some v => simp

theorem ipAddress_v6 {t : Text} {a : Nat} (h : ipAddress t = some (.v6 a)) :
    parseIpv4 t = none ∧ a < 2 ^ 128 := by
  rw [ipAddress] at h
  cases hv4 : parseIpv4 t with
  | some v =>
    rw [hv4] at h
    cases h
  | none =>
    rw [hv4] at h
    obtain ⟨v, hv, hsame⟩ := Option.map_eq_some_iff.mp h
    obtain rfl := IpAddress.v6.inj hsame
    exact ⟨rfl, lt_of_parseIpv6 hv⟩

/-- A start that is an address. -/
theorem serves_address (hne : text ≠ []) (hoffset : intOffset text = none) {address : IpAddress}
    (h : ipAddress text = some address) :
    Serves S (some text) limit net ↔ AddressFits S text limit address := by
  have hstart : startInt (addresses S) text net = some (number address : Int) := by
    have hparse : (addresses S).parse text = some (number address) :=
      congrArg (Option.map number) h
    rw [startInt, hoffset]
    dsimp only
    rw [hparse]
    rfl
  have hallowed (n : Nat) : Allowed text net n := fun hnot => absurd hoffset hnot
  rw [serves_of_number hne hstart]
  cases address with
  | v4 a =>
    have hparse := parseIpv4_of_ipAddress.mp h
    have hlt := lt_of_parseIpv4 hparse
    have hshown : shown S (a : Int) = some (dotted a) := shown_v4 (by omega) (by omega)
    rw [number, hshown, AddressFits, endsBefore_iff (S := S) (by omega) (Int.le_refl _)]
    constructor
    · rintro ⟨_, haddress, hserves⟩
      obtain rfl := Option.some.inj haddress
      intro last hlast
      obtain ⟨-, hnone⟩ | ⟨a', ha', -, -, hresolved⟩ := hserves
      · rw [hlast] at hnone
        cases hnone
      · rw [parseIpv4_dotted hlt] at ha'
        obtain rfl := Option.some.inj ha'
        obtain ⟨b, hb, -, hle, hcount⟩ := hresolved last hlast
        have hb32 := lt_of_parseIpv4 hb
        exact ⟨b, hb, by omega, by omega, hcount⟩
    · intro hlast
      refine ⟨dotted a, rfl, .inr ⟨a, parseIpv4_dotted hlt, fun _ => hparse, hallowed a, ?_⟩⟩
      intro last hsome
      obtain ⟨b, hb, -, hle, hcount⟩ := hlast last hsome
      exact ⟨b, hb, hallowed b, by omega, hcount⟩
  | v6 a =>
    obtain ⟨hparse, hlt⟩ := ipAddress_v6 h
    rw [number, AddressFits, ← lastOf_eq_none_iff (S := S) (by omega)]
    constructor
    · rintro ⟨address, haddress, ⟨rfl, hlast⟩ | ⟨a', -, hstart, -⟩⟩
      · by_cases hv4 : (a : Int) < 2 ^ 32
        · rw [shown_v4 (by omega) hv4] at haddress
          rw [← Option.some.inj haddress, parseIpv4_dotted (by omega)] at hparse
          cases hparse
        · rw [shown_v6 (by omega) (by omega)] at haddress
          exact ⟨by omega, Option.some.inj haddress, hlast⟩
      · rw [hparse] at hstart
        exact absurd (hstart hoffset) (Option.some_ne_none a').symm
    · rintro ⟨hv6, hsame, hlast⟩
      exact ⟨_, shown_v6 (by omega) (by omega), .inl ⟨hsame, hlast⟩⟩

theorem intOffset_eq_some {offset : Int} (h : intOffset text = some offset) :
    0 ≤ offset ∧ ∀ c ∈ text, isDigit c = true := by
  rw [intOffset] at h
  split at h
  · next hdigits =>
      have hall := List.all_eq_true.mp hdigits.2
      refine ⟨?_, hall⟩
      rw [pyInt] at h
      split at h
      next negative digits hsign =>
        have hpositive : negative = false := by
          split at hsign
          · next ds hliteral =>
              have hminus : '-' ∈ strip text := hliteral ▸ List.mem_cons_self
              exact absurd (hall '-' (mem_of_mem_strip hminus)) (by decide)
          · exact (Prod.mk.inj hsign).1.symm
          · exact (Prod.mk.inj hsign).1.symm
        subst hpositive
        split at h
        · obtain ⟨n, hn, rfl⟩ := Option.map_eq_some_iff.mp h
          obtain ⟨m, -, hm⟩ := Option.bind_eq_some_iff.mp hn
          obtain rfl := Option.some.inj hm
          exact Int.natCast_nonneg m
        · cases h
  · cases h

/-- The addresses of a subnet stand between its first and its last one. -/
theorem inSubnet_iff {base : Text} {b : Nat} (hbase : parseIpv4 base = some b) {bits : Int}
    (hpos : 0 ≤ bits) (hbits : bits ≤ 32) (n : Nat) :
    InSubnet (base, bits) n ↔ b / 2 ^ (32 - bits).toNat * 2 ^ (32 - bits).toNat ≤ n ∧
      n < b / 2 ^ (32 - bits).toNat * 2 ^ (32 - bits).toNat + 2 ^ (32 - bits).toNat := by
  have hsize : 0 < 2 ^ (32 - bits).toNat := Nat.pow_pos (by decide)
  have hdiv := Nat.div_eq_iff (x := n) (y := b / 2 ^ (32 - bits).toNat) hsize
  constructor
  · rintro ⟨b', hb', -, -, hsame⟩
    obtain rfl := Option.some.inj (hbase.symm.trans hb')
    have hrange := hdiv.mp hsame
    omega
  · rintro ⟨hle, hlt⟩
    exact ⟨b, hbase, hpos, hbits, hdiv.mpr ⟨hle, by omega⟩⟩

theorem subnet_le {b : Nat} (hb : b < 2 ^ 32) {k : Nat} (hk : k ≤ 32) :
    b / 2 ^ k * 2 ^ k + 2 ^ k ≤ 2 ^ 32 := by
  have hpow : 2 ^ (32 - k) * 2 ^ k = 2 ^ 32 := by rw [← Nat.pow_add, Nat.sub_add_cancel hk]
  have hlt : b / 2 ^ k < 2 ^ (32 - k) :=
    (Nat.div_lt_iff_lt_mul (Nat.pow_pos (by decide))).mpr (hpow ▸ hb)
  rw [← Nat.succ_mul, ← hpow]
  exact Nat.mul_le_mul_right _ hlt

/-- A start that is an offset. -/
theorem serves_offset (hne : text ≠ []) {offset : Int} (hoffset : intOffset text = some offset)
    {base : Text} {bits : Int} (hbits : bits ≤ 32) {address : IpAddress}
    (h : ipAddress base = some address) :
    Serves S (some text) limit (some (base, bits)) ↔ OffsetFits offset limit bits address := by
  obtain ⟨hnonneg, hdigits⟩ := intOffset_eq_some hoffset
  have hset : intOffset text ≠ none := hoffset ▸ Option.some_ne_none offset
  have hstart : startInt (addresses S) text (some (base, bits)) = some (((number address &&&
      ((0xFFFFFFFF <<< (32 - bits).toNat) &&& 0xFFFFFFFF) : Nat) : Int) + offset) := by
    have hparse : (addresses S).parse base = some (number address) :=
      congrArg (Option.map number) h
    have hnot : ¬32 < bits := by omega
    rw [startInt, hoffset]
    dsimp only
    rw [hparse]
    exact if_neg hnot
  rw [serves_of_number hne hstart]
  have hallowed (n : Nat) : Allowed text (some (base, bits)) n ↔ InSubnet (base, bits) n :=
    ⟨fun hall => by obtain ⟨pair, hpair, hin⟩ := hall hset; exact Option.some.inj hpair ▸ hin,
      fun hin _ => ⟨_, rfl, hin⟩⟩
  cases address with
  | v6 b =>
    refine iff_of_false ?_ id
    rintro ⟨first, hshown, ⟨hsame, -⟩ | ⟨a, -, -, hin, -⟩⟩
    · exact shown_ne_digits hshown hdigits hsame
    · obtain ⟨b', hb', -⟩ := (hallowed a).mp hin
      rw [(ipAddress_v6 h).1] at hb'
      cases hb'
  | v4 b =>
    have hbase := parseIpv4_of_ipAddress.mp h
    have hlt := lt_of_parseIpv4 hbase
    rw [number, and_mask hlt, OffsetFits]
    by_cases hpos : 0 ≤ bits
    · have hsub := inSubnet_iff hbase hpos hbits
      have htop := subnet_le hlt (by omega : (32 - bits).toNat ≤ 32)
      have hroom : (2 : Int) ^ (32 - bits).toNat = ((2 ^ (32 - bits).toNat : Nat) : Int) := by
        push_cast
        rfl
      rw [hroom]
      generalize 2 ^ (32 - bits).toNat = room at hsub htop ⊢
      generalize b / room * room = network at hsub htop ⊢
      have hends : EndsBefore limit (network + offset) (network + room) ↔ _ :=
        endsBefore_iff (S := S) (by omega) (by omega)
      rw [hends]
      constructor
      · rintro ⟨first, hshown, ⟨hsame, -⟩ | ⟨a, ha, -, hin, hlast⟩⟩
        · exact absurd hsame (shown_ne_digits hshown hdigits)
        · obtain ⟨hn, -⟩ := eq_of_shown (by omega) hshown ha
          have hrange := (hsub a).mp ((hallowed a).mp hin)
          refine ⟨hpos, by omega, fun last hsome => ?_⟩
          obtain ⟨c, hc, hcin, hle, hcount⟩ := hlast last hsome
          have hcrange := (hsub c).mp ((hallowed c).mp hcin)
          exact ⟨c, hc, by omega, by omega, hn ▸ hcount⟩
      · rintro ⟨-, hoffset, hlast⟩
        have hshown := shown_v4 (S := S) (n := network + offset) (by omega) (by omega)
        refine ⟨_, hshown, .inr ⟨(network + offset).toNat, parseIpv4_dotted (by omega),
          fun hnone => absurd hnone hset, (hallowed _).mpr ((hsub _).mpr (by omega)), ?_⟩⟩
        intro last hsome
        obtain ⟨c, hc, hclt, hle, count, hcount, hdiff⟩ := hlast last hsome
        exact ⟨c, hc, (hallowed c).mpr ((hsub c).mpr (by omega)), by omega, count, hcount,
          by omega⟩
    · refine iff_of_false ?_ fun hfits => hpos hfits.1
      rintro ⟨first, hshown, ⟨hsame, -⟩ | ⟨a, -, -, hin, -⟩⟩
      · exact shown_ne_digits hshown hdigits hsame
      · obtain ⟨-, -, hbits, -⟩ := (hallowed a).mp hin
        exact hpos hbits

end Start

/-- **The range of a pool is one of IPv4 addresses**, of the subnet where the start is an offset,
or the start comes back as it is. -/
theorem range_iff (S : Ipv6Texts) (start : Option Text) (limit : Option Int)
    (net : Option (Text × Int)) :
    Serves S start limit net ↔
      ∀ text, start = some text → text ≠ [] → Covered S text limit net := by
  constructor
  · rintro hserves text rfl hne
    rw [Covered]
    cases hoffset : intOffset text with
    | none => exact fun address h => (serves_address hne hoffset h).mp hserves
    | some offset =>
      rintro base bits rfl hbits address h
      exact (serves_offset hne hoffset hbits h).mp hserves
  · intro hcovered
    cases start with
    | none => exact ⟨none, none, rfl, .inl ⟨rfl, rfl⟩⟩
    | some text =>
      by_cases hne : text = []
      · subst hne
        exact ⟨some [], none, rfl, .inl ⟨rfl, rfl⟩⟩
      · have hcovered := hcovered text rfl hne
        rw [Covered] at hcovered
        cases hoffset : intOffset text with
        | none =>
          rw [hoffset] at hcovered
          cases h : ipAddress text with
          | none =>
            refine serves_of_unresolved hne ?_
            have hparse : (addresses S).parse text = none := congrArg (Option.map number) h
            rw [startInt, hoffset]
            dsimp only
            rw [hparse]
            rfl
          | some address => exact (serves_address hne hoffset h).mpr (hcovered address h)
        | some offset =>
          rw [hoffset] at hcovered
          match net with
          | none =>
            refine serves_of_unresolved hne ?_
            rw [startInt, hoffset]
          | some (base, bits) =>
            by_cases hbits : bits ≤ 32
            · cases h : ipAddress base with
              | none =>
                refine serves_of_unresolved hne ?_
                have hparse : (addresses S).parse base = none :=
                  congrArg (Option.map number) h
                rw [startInt, hoffset]
                dsimp only
                rw [hparse]
              | some address =>
                exact (serves_offset hne hoffset hbits h).mpr
                  (hcovered base bits rfl hbits address h)
            · refine serves_of_unresolved hne ?_
              rw [startInt, hoffset]
              dsimp only
              split
              · rfl
              · exact if_pos (by omega)

/-! ## Offsets without an address -/

/-- An offset that is too large for an address raises, outside of the `try`. -/
theorem offset_past_end :
    ¬∀ (S : Ipv6Texts) (start : Option Text) (limit : Option Int) (net : Option (Text × Int)),
      Serves S start limit net := by
  intro h
  have hraises : resolvePoolRange (addresses ⟨fun _ => "::".toList, fun _ => by decide⟩)
      (some (List.replicate 40 '9')) none (some ("192.168.1.1".toList, 24)) =
        .error .valueError := by
    rfl
  obtain ⟨first, last, hrange, -⟩ := h ⟨fun _ => "::".toList, fun _ => by decide⟩
    (some (List.replicate 40 '9')) none (some ("192.168.1.1".toList, 24))
  rw [hraises] at hrange
  cases hrange

end OpenWrtCopilot.Ports.DhcpRanges
