import OpenWrtCopilot.Ports.CollectorContext
import OpenWrtCopilot.Verified.Binary64
import OpenWrtCopilot.Verified.PyValue

/-!
# The load figures

Ports `_normalize_ubus_load` and `_load_metrics` of the CPU collector, with the figures that
`collect` makes of them.  OpenWrt reports a load as an integer in units of 1/65536; other firmware
reports it as it is, and the collector takes an integer below 1000 for such a load.

## Main results

* `collects_iff` — the figures are the loads that `ubus` reports exactly when none of them lies
  below the threshold, except for 0.
* `load_mono` — the figure of a larger load is not smaller.
-/

namespace OpenWrtCopilot.Ports.CpuLoad

open Verified
open Verified.Binary64
open Verified.PyText
open Verified.PyDict
open Verified.PyFloat (limit roundHalfEven two_pow_le_limit)
open Ports.CollectorContext

/-! ## Reading the loads -/

/-- The number of a float, if it is finite. -/
def finite? : PyFloat → Option ℚ
  | .finite q => some q
  | _ => none

section

variable (parse : Text → Option PyFloat)

/-- `_to_float`; `parse` is `float` of a text. -/
def toFloat : PyValue → Except PyError (Option ℚ)
  | .bool b => .ok (some (if b then 1 else 0))
  | .int n => if n.natAbs < limit then .ok (some (nearest n)) else .error .overflowError
  | .float x => .ok (finite? x)
  | .str t => .ok ((parse t).bind finite?)
  | _ => .ok none

/-- `_UBUS_LOAD_SCALE`. -/
def ubusLoadScale : ℚ := 65536

/-- `_FIXED_POINT_THRESHOLD`. -/
def fixedPointThreshold : ℚ := 1000

/-- What `_normalize_ubus_load` makes of a number. -/
def normalize (number : ℚ) : ℚ :=
  let number := if number < 0 then 0 else number
  if fixedPointThreshold ≤ number ∧ (number.floor : ℚ) = number then
    nearest (number / ubusLoadScale)
  else number

/-- `_normalize_ubus_load`. -/
def normalizeUbusLoad (value : PyValue) : Except PyError (Option ℚ) := do
  return (← toFloat parse value).map normalize

/-- The loads in the answer of `ubus`, before the gaps are filled. -/
def ubusLoads (info : PyValue) : Except PyError (List (Option ℚ)) := do
  match ← info.get "load" with
  | .list (first :: rest) =>
      let loads ← ((first :: rest).take 3).mapM (normalizeUbusLoad parse)
      return loads ++ List.replicate (3 - loads.length) none
  | _ =>
      ["load_1".toList, "load_5".toList, "load_15".toList].mapM fun key => do
        normalizeUbusLoad parse (← info.get key)

/-- A load that is missing is read from `/proc/loadavg`, and is 0 where that fails. -/
def fillLoad (loadavg : List Text) : Option ℚ × ℕ → ℚ
  | (some load, _) => load
  | (none, index) => (loadavg[index]?.bind fun t => (parse t).bind finite?).getD 0

def fillLoads (loadavg : List Text) (loads : List (Option ℚ)) : List ℚ :=
  loads.zipIdx.map (fillLoad parse loadavg)

/-- The tuple that `_load_metrics` returns. -/
structure LoadMetrics where
  loads : List ℚ
  uptime : Option ℚ

/-- The exceptions of operations on values. -/
def raising {α : Type} (result : Except PyError α) : Collecting α :=
  Program.ofExcept (result.mapError PyError.name)

/-- The uptime in the answer of `ubus`. -/
def ubusUptime (info : PyValue) : Except PyError (Option ℚ) := do
  toFloat parse (← info.get "uptime")

/-- `_load_metrics`. -/
def loadMetrics (info : PyValue) : Collecting LoadMetrics := do
  let uptime ← raising (ubusUptime parse info)
  let loads ← raising (ubusLoads parse info)
  let loadavg ← sh "cat /proc/loadavg"
  let filled := fillLoads parse (words loadavg) loads
  match uptime with
  | some seconds => return { loads := filled, uptime := some seconds }
  | none =>
      let text ← sh "cat /proc/uptime"
      return { loads := filled, uptime := (words text).head?.bind fun t => (parse t).bind finite? }

/-- The fields of `CpuInfo` that come from there: `load_1`, `load_5` and `load_15`, and the
uptime. -/
structure LoadFields where
  loads : List ℚ
  uptimeSeconds : ℚ

/-- The answer of `ubus`; `decode` is `json.loads`. -/
def systemInfo (decode : Text → Option PyValue) : Collecting PyValue := do
  match ← (ubusCall decode "system" "info").outcome with
  | .ok info => pure info
  | .error _ => pure (.dict [])

/-- These fields as `collect` fills them. -/
def collectLoads (decode : Text → Option PyValue) : Collecting LoadFields := do
  let info ← systemInfo decode
  let metrics ← loadMetrics parse info
  return { loads := metrics.loads.map (roundTo 2)
           uptimeSeconds := (metrics.uptime.map (roundTo 1)).getD 0 }

end

/-! ## The load of the kernel -/

/-- `n / 65536`, rounded to two decimals. -/
def load (n : ℕ) : ℚ := roundTo 2 (nearest (n / 65536))

/-- The figures are the loads that `ubus` reported. -/
def Reports (ns : List ℕ) (fields : LoadFields) : Prop :=
  ∀ p ∈ ns.zip fields.loads, p.2 = load p.1

/-- A number that is not taken for a load as it is, and that is no float beyond the largest. -/
def FixedPoint (n : ℕ) : Prop := n = 0 ∨ (1000 ≤ n ∧ n < limit)

/-- The uptime is no integer beyond the largest float. -/
def ReadableUptime (info : Dict Text PyValue) : Prop :=
  ∀ n, get? "uptime".toList info = some (PyValue.int n) → n.natAbs < limit

/-- The figure of a larger load is not smaller. -/
theorem load_mono {m n : ℕ} (h : m ≤ n) : load m ≤ load n := by
  have hle : (m : ℚ) / 65536 ≤ n / 65536 :=
    div_le_div_of_nonneg_right (Nat.cast_le.mpr h) (by norm_num)
  have hnonneg : (0 : ℚ) ≤ m / 65536 := div_nonneg (Nat.cast_nonneg m) (by norm_num)
  exact roundTo_mono (nearest_nonneg hnonneg) (nearest_mono hnonneg hle)

theorem thousand_le_nearest {n : ℕ} (h : 1000 ≤ n) : 1000 ≤ nearest (n : ℚ) := by
  have hthousand : nearest ((1000 : ℕ) : ℚ) = (1000 : ℕ) := nearest_natCast (by norm_num)
  rw [Nat.cast_ofNat] at hthousand
  rw [← hthousand]
  exact nearest_mono (by norm_num) (by exact_mod_cast h)

/-- What a number of at least 1000 is taken for. -/
theorem normalize_of_le {n : ℕ} (h : 1000 ≤ n) :
    normalize (nearest (n : ℚ)) = nearest (n / 65536) := by
  have hpos : (0 : ℚ) < n := Nat.cast_pos.mpr (by omega)
  have hlarge := thousand_le_nearest h
  have hlog : ((16 : ℕ) : ℤ) - 1022 ≤ Int.log 2 (n : ℚ) := by
    rw [Int.log_natCast]
    omega
  have hscaled : nearest (n / 65536) = nearest n / 65536 := by
    have hpow := nearest_div_two_pow hpos hlog
    norm_num at hpow
    exact hpow
  have hfloor : ((nearest (n : ℚ)).floor : ℚ) = nearest n := by
    obtain ⟨k, hk⟩ := exists_nearest_natCast n
    rw [hk, Rat.floor_intCast]
  rw [normalize, if_neg (not_lt.mpr (by linarith)), fixedPointThreshold, ubusLoadScale,
    if_pos ⟨hlarge, hfloor⟩, ← hscaled, nearest_nearest (div_nonneg hpos.le (by norm_num))]

/-- What a smaller number is taken for. -/
theorem normalize_of_lt {n : ℕ} (h : n < 1000) : normalize (nearest (n : ℚ)) = n := by
  have hlt : ¬(1000 : ℚ) ≤ n := not_le.mpr (by exact_mod_cast h)
  rw [nearest_natCast (by omega), normalize, if_neg (not_lt.mpr (Nat.cast_nonneg n)),
    fixedPointThreshold, if_neg fun hle => hlt hle.1]

theorem roundTo_natCast {n : ℕ} (h : n ≤ 2 ^ 53) : roundTo 2 (n : ℚ) = n := by
  have hcents : roundHalfEven (n * 10 ^ 2) = ((n * 100 : ℕ) : ℤ) := by
    rw [← roundHalfEven_intCast ((n * 100 : ℕ) : ℤ)]
    congr 1
    push_cast
    norm_num
  rw [roundTo, hcents, Int.cast_natCast, Nat.cast_mul, Nat.cast_ofNat]
  norm_num
  exact nearest_natCast h

theorem load_zero : load 0 = 0 := by
  rw [load, Nat.cast_zero, zero_div, nearest_zero, ← Nat.cast_zero, roundTo_natCast (by decide)]

/-- The figure of a load below 1/2. -/
theorem load_le_half {n : ℕ} (h : n ≤ 32768) : load n ≤ 1 / 2 := by
  have hhalf : nearest (1 / 2) = 1 / 2 :=
    nearest_of_multiple (m := 1) (e := -1) (by norm_num) (exponent_le (by norm_num) (by decide)
      (by norm_num))
  have hmiddle : load 32768 = 1 / 2 := by
    have hcents : roundHalfEven (1 / 2 * 10 ^ 2) = 50 := by
      rw [← roundHalfEven_intCast 50]
      norm_num
    have hquotient : ((32768 : ℕ) : ℚ) / 65536 = 1 / 2 := by norm_num
    have hdecimal : ((50 : ℤ) : ℚ) / 10 ^ 2 = 1 / 2 := by norm_num
    rw [load, hquotient, hhalf, roundTo, hcents, hdecimal, hhalf]
  exact hmiddle ▸ load_mono h

/-- The figure of a number is its load, unless the number is below the threshold. -/
theorem figure_iff (n : ℕ) :
    roundTo 2 (normalize (nearest (n : ℚ))) = load n ↔ n = 0 ∨ 1000 ≤ n := by
  by_cases hlarge : 1000 ≤ n
  · rw [normalize_of_le hlarge]
    exact iff_of_true rfl (.inr hlarge)
  · rw [normalize_of_lt (by omega), roundTo_natCast (by omega)]
    rcases Nat.eq_zero_or_pos n with rfl | hpos
    · exact iff_of_true (by rw [load_zero, Nat.cast_zero]) (.inl rfl)
    · refine iff_of_false (fun heq => ?_) (by omega)
      have hle := load_le_half (n := n) (by omega)
      have hone : (1 : ℚ) ≤ n := by exact_mod_cast hpos
      linarith

/-! ## The figures -/

variable (parse : Text → Option PyFloat)

theorem toFloat_natCast (n : ℕ) :
    toFloat parse (.int n) =
      if n < limit then .ok (some (nearest n)) else .error .overflowError := by
  rw [toFloat, Int.natAbs_natCast, Int.cast_natCast]

/-- The loads of a list of integers, which are there if all of them are floats. -/
theorem mapM_normalizeUbusLoad (ns : List ℕ) :
    ((∀ n ∈ ns, n < limit) ∧ (ns.map fun n : ℕ => PyValue.int n).mapM (normalizeUbusLoad parse) =
      .ok (ns.map fun n : ℕ => some (normalize (nearest n)))) ∨
    ((∃ n ∈ ns, limit ≤ n) ∧
      (ns.map fun n : ℕ => PyValue.int n).mapM (normalizeUbusLoad parse) =
        .error .overflowError) := by
  induction ns with
  | nil => exact .inl ⟨fun _ h => absurd h List.not_mem_nil, rfl⟩
  | cons n ns ih =>
    have hhead : normalizeUbusLoad parse (.int n) =
        if n < limit then .ok (some (normalize (nearest n))) else .error .overflowError := by
      rw [normalizeUbusLoad, toFloat_natCast parse]
      split <;> rfl
    rw [List.map_cons, List.mapM_cons, hhead, List.map_cons]
    by_cases hn : n < limit
    · rw [if_pos hn]
      rcases ih with ⟨hall, hrest⟩ | ⟨⟨k, hk, hlimit⟩, hrest⟩
      · refine .inl ⟨List.forall_mem_cons.mpr ⟨hn, hall⟩, ?_⟩
        rw [hrest]
        rfl
      · refine .inr ⟨⟨k, List.mem_cons_of_mem n hk, hlimit⟩, ?_⟩
        rw [hrest]
        rfl
    · rw [if_neg hn]
      exact .inr ⟨⟨n, List.mem_cons_self, Nat.le_of_not_lt hn⟩, rfl⟩

/-- Loads that are there are not read again. -/
theorem fillLoads_some (loadavg : List Text) (loads : List ℚ) (k : ℕ) :
    ∃ rest, rest.length = k ∧
      fillLoads parse loadavg (loads.map some ++ List.replicate k none) = loads ++ rest := by
  have hthere : (loads.map some).zipIdx.map (fillLoad parse loadavg) = loads := by
    rw [List.zipIdx_map, List.map_map]
    exact List.zipIdx_map_fst 0 loads
  refine ⟨((List.replicate k none).zipIdx (loads.map some).length).map (fillLoad parse loadavg),
    by simp, ?_⟩
  rw [fillLoads, List.zipIdx_append, List.map_append, hthere, Nat.zero_add]

/-- Each figure stands beside the number it is made of. -/
theorem zip_figures {ns : List ℕ} {g : ℕ → ℚ} {rest : List ℚ}
    (hrest : rest.length = 3 - (ns.take 3).length) :
    ns.zip ((ns.take 3).map g ++ rest) = (ns.take 3).map fun n => (n, g n) := by
  have hlength : (ns.take 3).length = ((ns.take 3).map g).length := (List.length_map _).symm
  have htail : (ns.drop 3).zip rest = [] := by
    rw [List.length_take] at hrest
    rcases Nat.le_total ns.length 3 with hle | hle
    · rw [List.drop_eq_nil_of_le hle, List.zip_nil_left]
    · have hnil : rest = [] := List.eq_nil_of_length_eq_zero (by omega)
      rw [hnil, List.zip_nil_right]
  calc ns.zip ((ns.take 3).map g ++ rest)
      = (ns.take 3 ++ ns.drop 3).zip ((ns.take 3).map g ++ rest) := by rw [List.take_append_drop]
    _ = (ns.take 3).map fun n => (n, g n) := by
      rw [List.zip_append hlength, htail, List.append_nil, List.map_prod_left_eq_zip]

/-! ## What is collected -/

section Collected

variable {D : Type} {answer : Text → D → Except Text Text × D} {decode : Text → Option PyValue}
  {m : Program.Machine Scratch Text Text Text D} {entries : Dict Text PyValue}

/-- `collect` returns figures, and they are the loads that `ubus` reports. -/
def Collects (parse : Text → Option PyFloat) (decode : Text → Option PyValue)
    (answer : Text → D → Except Text Text × D) (m : Program.Machine Scratch Text Text Text D)
    (ns : List ℕ) : Prop :=
  ∃ fields m', (collectLoads parse decode).exec answer m = (.ok fields, m') ∧ Reports ns fields

/-- The loads of an array of integers. -/
theorem ubusLoads_ints {ns : List ℕ} (hne : ns ≠ [])
    (hload : get? "load".toList entries = some (.list (ns.map fun n : ℕ => .int n))) :
    ubusLoads parse (.dict entries) = (do
      let loads ← ((ns.take 3).map fun n : ℕ => PyValue.int n).mapM (normalizeUbusLoad parse)
      return loads ++ List.replicate (3 - loads.length) none) := by
  obtain ⟨n, ns, rfl⟩ := List.exists_cons_of_ne_nil hne
  rw [ubusLoads, PyValue.get, hload, Option.getD_some, List.map_take]
  rfl

theorem toFloat_isOk_iff (value : PyValue) :
    (toFloat parse value).isOk = true ↔ ∀ n, value = .int n → n.natAbs < limit := by
  cases value with
  | int n =>
    rw [toFloat]
    split
    · next hn => exact iff_of_true rfl fun _ h => PyValue.int.inj h ▸ hn
    · next hn => exact iff_of_false Bool.false_ne_true fun h => hn (h n rfl)
  | _ => exact iff_of_true rfl nofun

/-- The uptime can be read. -/
theorem uptime_isOk_iff :
    (ubusUptime parse (.dict entries)).isOk = true ↔ ReadableUptime entries := by
  show (toFloat parse ((get? "uptime".toList entries).getD .none)).isOk = true ↔ _
  rw [toFloat_isOk_iff parse, ReadableUptime]
  refine forall_congr' fun n => imp_congr_left ?_
  cases get? "uptime".toList entries with
  | none => exact iff_of_false nofun nofun
  | some value => exact Option.some_inj.symm

/-- What the loads and the uptime make of a run. -/
theorem exec_loadMetrics {info : PyValue} {uptime : Option ℚ} {loads : List (Option ℚ)}
    (huptime : ubusUptime parse info = .ok uptime)
    (hloads : ubusLoads parse info = .ok loads) (m : Program.Machine Scratch Text Text Text D) :
    ∃ loadavg seconds m', (loadMetrics parse info).exec answer m =
      (.ok { loads := fillLoads parse loadavg loads, uptime := seconds }, m') := by
  rw [loadMetrics, huptime, hloads]
  cases uptime with
  | some seconds =>
    rw [Program.exec_bind_of_ok rfl, Program.exec_bind_of_ok rfl,
      Program.exec_bind_of_ok (exec_sh _ _ _)]
    exact ⟨_, _, _, rfl⟩
  | none =>
    rw [Program.exec_bind_of_ok rfl, Program.exec_bind_of_ok rfl,
      Program.exec_bind_of_ok (exec_sh _ _ _)]
    dsimp only
    rw [Program.exec_bind_of_ok (exec_sh _ _ _)]
    exact ⟨_, _, _, rfl⟩

/-- A load that cannot be read is an exception. -/
theorem exec_loadMetrics_error {info : PyValue} {uptime : Option ℚ} {e : PyError}
    (huptime : ubusUptime parse info = .ok uptime)
    (hloads : ubusLoads parse info = .error e) (m : Program.Machine Scratch Text Text Text D) :
    (loadMetrics parse info).exec answer m = (.error e.name, m) := by
  rw [loadMetrics, huptime, hloads]
  rw [Program.exec_bind_of_ok rfl, Program.exec_bind_of_error rfl]

theorem exec_loadMetrics_uptime {info : PyValue} {e : PyError}
    (huptime : ubusUptime parse info = .error e)
    (m : Program.Machine Scratch Text Text Text D) :
    (loadMetrics parse info).exec answer m = (.error e.name, m) := by
  rw [loadMetrics, huptime, Program.exec_bind_of_error rfl]

/-- What `collect` does with what `ubus` returned. -/
theorem exec_collectLoads {info : PyValue}
    (hcall : ((ubusCall decode "system" "info").exec answer m).1 = .ok info) :
    (collectLoads parse decode).exec answer m =
      (loadMetrics parse info >>= fun metrics =>
        pure { loads := metrics.loads.map (roundTo 2)
               uptimeSeconds := (metrics.uptime.map (roundTo 1)).getD 0 }).exec answer
        ((ubusCall decode "system" "info").exec answer m).2 := by
  have hinfo : (systemInfo decode).exec answer m =
      (.ok info, ((ubusCall decode "system" "info").exec answer m).2) := by
    rw [systemInfo, Program.exec_bind_of_ok (Program.exec_outcome _ _), hcall]
    rfl
  rw [collectLoads, Program.exec_bind_of_ok hinfo]

/-- The figures are the loads exactly when each is taken for one in fixed point. -/
theorem reports_iff {ns : List ℕ} {loadavg : List Text} (uptime : ℚ)
    (hlimit : ∀ n ∈ ns.take 3, n < limit) :
    Reports ns
        { loads := (fillLoads parse loadavg
            ((ns.take 3).map (fun n : ℕ => some (normalize (nearest n))) ++
              List.replicate (3 - (ns.take 3).length) none)).map (roundTo 2)
          uptimeSeconds := uptime } ↔
      ∀ n ∈ ns.take 3, FixedPoint n := by
  have hsome : (ns.take 3).map (fun n : ℕ => some (normalize (nearest n))) =
      ((ns.take 3).map fun n : ℕ => normalize (nearest n)).map some := by
    rw [List.map_map]
    rfl
  obtain ⟨rest, hlength, hfill⟩ := fillLoads_some parse loadavg
    ((ns.take 3).map fun n : ℕ => normalize (nearest n)) (3 - (ns.take 3).length)
  rw [Reports, hsome, hfill, List.map_append, List.map_map,
    zip_figures (by rw [List.length_map, hlength]), List.forall_mem_map]
  refine forall₂_congr fun n hn => (figure_iff n).trans ?_
  exact or_congr_right (and_iff_left (hlimit n hn)).symm

/-- **The figures are the loads that `ubus` reports exactly when each of the three loads is 0 or
at least 1000, and no integer is too large for a float; these figures keep the order.** -/
theorem collects_iff {ns : List ℕ} (hne : ns ≠ [])
    (hcall : ((ubusCall decode "system" "info").exec answer m).1 = .ok (.dict entries))
    (hload : get? "load".toList entries = some (.list (ns.map fun n : ℕ => .int n))) :
    (Collects parse decode answer m ns ↔
      ReadableUptime entries ∧ ∀ n ∈ ns.take 3, FixedPoint n) ∧ Monotone load := by
  refine ⟨?_, fun _ _ => load_mono⟩
  have hloads := ubusLoads_ints parse hne hload
  rw [Collects, exec_collectLoads parse hcall, ← uptime_isOk_iff parse]
  cases huptime : ubusUptime parse (.dict entries) with
  | error e =>
    refine iff_of_false ?_ fun h => Bool.false_ne_true h.1
    rintro ⟨fields, m', hrun, -⟩
    rw [Program.exec_bind_of_error (exec_loadMetrics_uptime parse huptime _)] at hrun
    cases hrun
  | ok uptime =>
    rcases mapM_normalizeUbusLoad parse (ns.take 3) with
      ⟨hlimit, hmap⟩ | ⟨⟨n, hn, hlimit⟩, hmap⟩
    · have hready : ubusLoads parse (.dict entries) =
          .ok ((ns.take 3).map (fun n : ℕ => some (normalize (nearest n))) ++
            List.replicate (3 - (ns.take 3).length) none) := by
        rw [hloads, hmap]
        show Except.ok (_ ++ List.replicate (3 - List.length (List.map _ _)) none) = _
        rw [List.length_map]
      obtain ⟨loadavg, seconds, m', hrun⟩ := exec_loadMetrics parse huptime hready
        ((ubusCall decode "system" "info").exec answer m).2
      rw [Program.exec_bind_of_ok hrun]
      refine ⟨?_, fun h => ⟨_, _, rfl, (reports_iff parse _ hlimit).mpr h.2⟩⟩
      rintro ⟨fields, m'', hfields, hreports⟩
      obtain rfl := Except.ok.inj (Prod.mk.inj hfields).1
      exact ⟨rfl, (reports_iff parse _ hlimit).mp hreports⟩
    · rw [hmap] at hloads
      refine iff_of_false ?_ fun h => ?_
      · rintro ⟨fields, m', hrun, -⟩
        rw [Program.exec_bind_of_error (exec_loadMetrics_error parse huptime hloads _)] at hrun
        cases hrun
      · rcases h.2 n hn with rfl | ⟨-, hlt⟩
        · exact absurd (Nat.lt_of_lt_of_le (Nat.two_pow_pos 0) (two_pow_le_limit (by decide)))
            (Nat.not_lt.mpr hlimit)
        · exact absurd hlt (Nat.not_lt.mpr hlimit)

end Collected

/-! ## A router that is nearly idle -/

/-- A router that reports this load. -/
def reported (n : ℕ) : Dict Text PyValue := [("load".toList, .list [.int n])]

/-- What `ubus` prints, and what `json.loads` makes of it. -/
def printsOne : Text → Unit → Except Text Text × Unit := fun _ _ => (.ok ['x'], ())

def readsLoad (n : ℕ) : Text → Option PyValue := fun _ => some (.dict (reported n))

theorem call_reported (n : ℕ) :
    ((ubusCall (readsLoad n) "system" "info").exec printsOne
      { device := (), scratch := {} }).1 = .ok (.dict (reported n)) := by
  rfl

theorem load_reported (n : ℕ) :
    get? "load".toList (reported n) = some (.list ([n].map fun n : ℕ => .int n)) := by
  rfl

/-- A load of 1. -/
theorem collects_loadOne :
    Collects (fun _ => none) (readsLoad 65536) printsOne { device := (), scratch := {} }
      [65536] := by
  have hlimit : 65536 < limit :=
    Nat.lt_of_lt_of_le (by decide : 65536 < 2 ^ 17) (two_pow_le_limit (by decide))
  refine (collects_iff (fun _ => none) (List.cons_ne_nil _ _) (call_reported 65536)
    (load_reported 65536)).1.mpr ⟨fun _ h => ?_, fun n hn => ?_⟩
  · cases h
  · obtain rfl := List.mem_singleton.mp hn
    exact .inr ⟨by decide, hlimit⟩

/-- **A load of 500/65536 is taken for a load of 500.** -/
theorem idle_load_misread :
    ¬∀ (parse : Text → Option PyFloat) (decode : Text → Option PyValue)
      (answer : Text → Unit → Except Text Text × Unit)
      (m : Program.Machine Scratch Text Text Text Unit) (entries : Dict Text PyValue) (ns : List ℕ),
      ns ≠ [] → ((ubusCall decode "system" "info").exec answer m).1 = .ok (.dict entries) →
        get? "load".toList entries = some (.list (ns.map fun n : ℕ => .int n)) →
          Collects parse decode answer m ns := by
  intro h
  have hcollects := h (fun _ => none) (readsLoad 500) printsOne { device := (), scratch := {} }
    (reported 500) [500] (List.cons_ne_nil _ _) (call_reported 500) (load_reported 500)
  have hfixed := ((collects_iff (fun _ => none) (List.cons_ne_nil _ _) (call_reported 500)
    (load_reported 500)).1.mp hcollects).2 500 List.mem_cons_self
  rcases hfixed with hzero | ⟨hlarge, -⟩ <;> omega

end OpenWrtCopilot.Ports.CpuLoad
