import Mathlib.Algebra.BigOperators.Ring.List
import Mathlib.Algebra.Order.Field.Rat
import Mathlib.Data.Int.Cast.Lemmas
import Mathlib.Tactic.NormNum
import Mathlib.Tactic.Ring
import OpenWrtCopilot.Verified.PyDict
import OpenWrtCopilot.Verified.PyText

/-!
# The processor share of processes

Ports the processor column of `processes`, which takes two samples of `/proc` and relates the ticks
a process gained to a total of `/proc/stat`.  The total is the work of an awk program that sets its
sum to zero on every line, so that what it prints is the sum of the last line and not that of the
`cpu` line.  The percentages are those before rounding, and counters are added exactly.

## Main results

* `proportional_iff` — when the percentages are the shares of the aggregate `cpu` line.
* `softirq_total` — a process that takes half of the processor and is told to take five.
-/

namespace OpenWrtCopilot.Ports.ProcessCpu

open Verified
open Verified.PyDict
open Verified.PyText

/-! ## Samples -/

/-- A line of `/proc/stat`. -/
structure StatLine where
  label : Text
  counters : List Nat

/-- The ticks of a process. -/
structure ProcessRow where
  utime : Int
  stime : Int

/-- What one run of the sampler reads. -/
structure Sample where
  stat : List StatLine
  rows : Dict Text ProcessRow

/-- `awk '{s=0;for(i=2;i<=NF;i++)s+=$i}END{print s}'`; an empty file counts as zero. -/
def cpuTotal (stat : List StatLine) : Nat :=
  stat.foldl (fun _ line => line.counters.foldl (fun s counter => s + counter) 0) 0

/-- The total of the aggregate `cpu` line. -/
def aggregateTotal (stat : List StatLine) : Nat :=
  ((stat.find? (·.label = "cpu".toList)).map (·.counters.sum)).getD 0

/-! ## Percentages -/

section

variable (processors : Nat) (a b : Sample)

/-- `max(1, cpus)`. -/
def cpus : Nat := max 1 processors

/-- `elapsed_jiffies`. -/
def elapsed : Int := max ((cpuTotal b.stat : Int) - cpuTotal a.stat) 1

/-- `proc_delta`. -/
def procDelta (item : Text × ProcessRow) : Int :=
  let prev := (get? item.1 a.rows).getD item.2
  item.2.utime + item.2.stime - (prev.utime + prev.stime)

/-- `cpu_pct`. -/
def cpuPct (item : Text × ProcessRow) : ℚ :=
  max 0 ((procDelta a item : ℚ) / elapsed a b * cpus processors * 100)

/-- The processor column. -/
def processes : List (Text × ℚ) :=
  b.rows.map fun item => (item.1, cpuPct processors a b item)

/-- The increase of the aggregate `cpu` line. -/
def aggregateDelta : Int := (aggregateTotal b.stat : Int) - aggregateTotal a.stat

/-- The percentages are the shares of the aggregate total. -/
structure Proportional : Prop where
  share : ∀ item ∈ b.rows, cpuPct processors a b item * aggregateDelta a b =
    100 * cpus processors * procDelta a item
  nonneg : ∀ entry ∈ processes processors a b, 0 ≤ entry.2
  bounded : (b.rows.map (procDelta a)).sum ≤ aggregateDelta a b →
    ((processes processors a b).map Prod.snd).sum ≤ 100 * cpus processors

end

theorem cpus_pos (processors : Nat) : (0 : ℚ) < cpus processors :=
  Nat.cast_pos.mpr (Nat.lt_of_lt_of_le Nat.one_pos (Nat.le_max_left 1 processors))

theorem elapsed_pos (a b : Sample) : (0 : ℚ) < elapsed a b :=
  Int.cast_pos.mpr (Int.lt_of_lt_of_le Int.one_pos (Int.le_max_right _ 1))

theorem cpuPct_of_nonpos {processors : Nat} {a b : Sample} {item : Text × ProcessRow}
    (h : procDelta a item ≤ 0) : cpuPct processors a b item = 0 := by
  refine max_eq_left ?_
  have hdelta : (procDelta a item : ℚ) / elapsed a b ≤ 0 :=
    div_nonpos_of_nonpos_of_nonneg (Int.cast_nonpos.mpr h) (elapsed_pos a b).le
  exact mul_nonpos_of_nonpos_of_nonneg
    (mul_nonpos_of_nonpos_of_nonneg hdelta (cpus_pos processors).le) (by norm_num)

theorem cpuPct_of_pos {processors : Nat} {a b : Sample} {item : Text × ProcessRow}
    (h : 0 < procDelta a item) :
    cpuPct processors a b item = (procDelta a item : ℚ) / elapsed a b * cpus processors * 100 := by
  refine max_eq_right ?_
  have hdelta : 0 < (procDelta a item : ℚ) / elapsed a b :=
    div_pos (Int.cast_pos.mpr h) (elapsed_pos a b)
  exact (mul_pos (mul_pos hdelta (cpus_pos processors)) (by norm_num)).le

/-- When a percentage is the share of the aggregate total. -/
theorem share_iff {processors : Nat} {a b : Sample} {item : Text × ProcessRow} :
    cpuPct processors a b item * aggregateDelta a b =
        100 * cpus processors * procDelta a item ↔
      procDelta a item = 0 ∨ 0 < procDelta a item ∧ elapsed a b = aggregateDelta a b := by
  have hcpus := cpus_pos processors
  obtain hneg | hzero | hpos := Int.lt_trichotomy (procDelta a item) 0
  · rw [cpuPct_of_nonpos hneg.le, zero_mul]
    refine iff_of_false ?_ (by omega)
    have hdelta : (procDelta a item : ℚ) < 0 := Int.cast_lt_zero.mpr hneg
    exact (mul_neg_of_pos_of_neg (mul_pos (by norm_num) hcpus) hdelta).ne'
  · rw [cpuPct_of_nonpos hzero.le, hzero, zero_mul, Int.cast_zero, mul_zero]
    exact iff_of_true rfl (.inl rfl)
  · have hdelta : (procDelta a item : ℚ) ≠ 0 := Int.cast_ne_zero.mpr hpos.ne'
    have helapsed := (elapsed_pos a b).ne'
    have hside : cpuPct processors a b item * aggregateDelta a b =
        100 * cpus processors * procDelta a item * (aggregateDelta a b / elapsed a b) := by
      rw [cpuPct_of_pos hpos]
      ring
    have hne : (100 * cpus processors * procDelta a item : ℚ) ≠ 0 :=
      mul_ne_zero (mul_ne_zero (by norm_num) hcpus.ne') hdelta
    rw [hside, mul_eq_left₀ hne, div_eq_one_iff_eq helapsed, Int.cast_inj]
    constructor
    · exact fun h => .inr ⟨hpos, h.symm⟩
    · rintro (h | ⟨-, h⟩)
      · exact absurd h hpos.ne'
      · exact h.symm

/-- **The percentages are shares of the aggregate `cpu` line exactly when** every process that
gained ticks is measured by its increase, and none lost any. -/
theorem proportional_iff (processors : Nat) (a b : Sample) :
    Proportional processors a b ↔
      ∀ item ∈ b.rows,
        procDelta a item = 0 ∨ 0 < procDelta a item ∧ elapsed a b = aggregateDelta a b := by
  refine ⟨fun h item hitem => share_iff.mp (h.share item hitem), fun h => ?_⟩
  have hshare : ∀ item ∈ b.rows, cpuPct processors a b item * aggregateDelta a b =
      100 * cpus processors * procDelta a item := fun item hitem => share_iff.mpr (h item hitem)
  refine ⟨hshare, ?_, fun hsum => ?_⟩
  · intro entry hentry
    obtain ⟨item, -, rfl⟩ := List.mem_map.mp hentry
    exact le_max_left _ _
  · have hcolumn : (processes processors a b).map Prod.snd = b.rows.map (cpuPct processors a b) := by
      rw [processes, List.map_map]
      rfl
    rw [hcolumn]
    by_cases hidle : ∀ item ∈ b.rows, procDelta a item = 0
    · have hzero : (b.rows.map (cpuPct processors a b)).sum = 0 := by
        refine List.sum_eq_zero fun x hx => ?_
        obtain ⟨item, hitem, rfl⟩ := List.mem_map.mp hx
        exact cpuPct_of_nonpos (hidle item hitem).le
      rw [hzero]
      exact mul_nonneg (by norm_num) (cpus_pos processors).le
    · push Not at hidle
      obtain ⟨busy, hbusy, hgained⟩ := hidle
      have hdelta : (0 : ℚ) < aggregateDelta a b :=
        ((h busy hbusy).resolve_left hgained).2 ▸ elapsed_pos a b
      have htotal : (b.rows.map (cpuPct processors a b)).sum * aggregateDelta a b =
          100 * cpus processors * ((b.rows.map (procDelta a)).sum : Int) := by
        have hcast := map_list_sum (Int.castRingHom ℚ) (b.rows.map (procDelta a))
        rw [List.map_map] at hcast
        rw [← List.sum_map_mul_right, List.map_congr_left hshare, List.sum_map_mul_left]
        exact congrArg _ hcast.symm
      refine le_of_mul_le_mul_right ?_ hdelta
      rw [htotal]
      exact mul_le_mul_of_nonneg_left (Int.cast_le.mpr hsum)
        (mul_nonneg (by norm_num) (cpus_pos processors).le)

/-- Two samples a second apart: the processor was busy for a hundred ticks, half of them in one
process, and ten interrupts were served late. -/
def busySample (ticks : Nat) : Sample where
  stat := [{ label := "cpu", counters := [10 * ticks] }, { label := "softirq", counters := [ticks] }]
  rows := [("1", { utime := 5 * ticks, stime := 0 })]

/-- The process is told to take five processors. -/
theorem softirq_total : ¬∀ (processors : Nat) (a b : Sample), Proportional processors a b := by
  intro h
  have hshare := (h 1 (busySample 0) (busySample 10)).share _ List.mem_cons_self
  revert hshare
  decide +kernel

end OpenWrtCopilot.Ports.ProcessCpu
