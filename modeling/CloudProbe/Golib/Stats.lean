import CloudProbe.Worker.Stats
import Mathlib.Algebra.Order.Ring.Int
import Mathlib.Logic.Function.Basic

/-!
# Differences of counters

The Go side of the counters: a snapshot is a pair of words without an invariant of its own, and two
snapshots are compared and subtracted word by word. On pairs of normalised words (`StatsPair.of`)
this compares and subtracts the numbers (`compare_eq`, `sub_eq`).

Sources without a file are in `cpworker/stats.go`.
-/

namespace CloudProbe.Golib

open CloudProbe.Lib CloudProbe.Worker

/-- `BytesStats` and `PacketsStats`: `low` is `Bytes` or `Packets`, `high` is `Eib` or `Peta`.
Source: `cpworker/stats.go` -/
structure StatsPair where
  low : UInt64
  high : UInt64
deriving DecidableEq

/-- Source: Go's `cmp.Compare` -/
def cmpCompare (x y : UInt64) : ℤ := if x < y then -1 else if y < x then 1 else 0

/-- The first of two values that is not zero.
Source: Go's `cmp.Or` -/
def cmpOr (x y : ℤ) : ℤ := if x ≠ 0 then x else y

namespace StatsPair

/-- Source: `Compare` -/
def compare (s other : StatsPair) : ℤ :=
  cmpOr (cmpCompare s.high other.high) (cmpCompare s.low other.low)

/-- The difference, larger minus smaller, and whether `s` is the smaller one.
Source: `Sub` -/
def sub (unit : UInt64) (s other : StatsPair) : StatsPair × Bool :=
  let isLess : Bool := s.compare other < 0
  let xStats := if isLess then other else s
  let yStats := if isLess then s else other
  let high := xStats.high - yStats.high
  if xStats.low < yStats.low then
    (⟨unit + xStats.low - yStats.low, high - 1⟩, isLess)
  else (⟨xStats.low - yStats.low, high⟩, isLess)

end StatsPair

def bytesStatsSub : StatsPair → StatsPair → StatsPair × Bool := StatsPair.sub eibInBytes

def packetsStatsSub : StatsPair → StatsPair → StatsPair × Bool := StatsPair.sub petaInPackets

def snapshot {unit : UInt64} (c : CarryCounter unit) : StatsPair := ⟨c.low, c.high⟩

def StatsPair.of (unit : UInt64) (n : ℕ) : StatsPair :=
  ⟨UInt64.ofNat (n % unit.toNat), UInt64.ofNat (n / unit.toNat)⟩

/-! ## Normalised pairs -/

section Normalised

variable {unit : UInt64}

theorem snapshot_words (c : CarryCounter unit) :
    c.high.toNat = c.value / unit.toNat ∧ c.low.toNat = c.value % unit.toNat := by
  have hlow : c.low.toNat < unit.toNat := c.low_lt
  rw [CarryCounter.value]
  constructor
  · rw [Nat.mul_add_div (by omega), Nat.div_eq_of_lt hlow, Nat.add_zero]
  · rw [Nat.mul_add_mod, Nat.mod_eq_of_lt hlow]

/-- Snapshots compare as their values do. -/
theorem compare_eq (c d : CarryCounter unit) :
    (snapshot c).compare (snapshot d) =
      if c.value < d.value then -1 else if d.value < c.value then 1 else 0 := by
  have hc : c.low.toNat < unit.toNat := c.low_lt
  have hd : d.low.toNat < unit.toNat := d.low_lt
  have hcvalue : c.value = unit.toNat * c.high.toNat + c.low.toNat := rfl
  have hdvalue : d.value = unit.toNat * d.high.toNat + d.low.toNat := rfl
  simp only [StatsPair.compare, snapshot, cmpCompare, UInt64.lt_iff_toNat_lt]
  -- the high words decide unless they are equal
  rcases Nat.lt_trichotomy c.high.toNat d.high.toNat with hlt | heq | hgt
  · have hmul := Nat.mul_le_mul_left unit.toNat (Nat.succ_le_of_lt hlt)
    rw [Nat.mul_succ] at hmul
    have hvalue : c.value < d.value := by omega
    simp [cmpOr, hlt, hvalue]
  · rw [heq] at hcvalue
    have hlow : c.value < d.value ↔ c.low.toNat < d.low.toNat := by omega
    have hlow' : d.value < c.value ↔ d.low.toNat < c.low.toNat := by omega
    simp [cmpOr, heq, hlow, hlow']
  · have hmul := Nat.mul_le_mul_left unit.toNat (Nat.succ_le_of_lt hgt)
    rw [Nat.mul_succ] at hmul
    have hvalue : d.value < c.value := by omega
    simp [cmpOr, hgt, hgt.not_gt, hvalue, hvalue.not_gt]

theorem eq_of_words {low high : UInt64} {n : ℕ} (hlow : low.toNat < unit.toNat)
    (hvalue : unit.toNat * high.toNat + low.toNat = n) :
    (⟨low, high⟩ : StatsPair) = .of unit n := by
  obtain ⟨hhigh, hlow'⟩ := snapshot_words (⟨low, high, hlow⟩ : CarryCounter unit)
  simp only [CarryCounter.value, hvalue] at hhigh hlow'
  rw [StatsPair.of, ← hhigh, ← hlow', UInt64.ofNat_toNat, UInt64.ofNat_toNat]

/-- **The larger minus the smaller** snapshot is the normalised pair of the difference. -/
theorem sub_words (hunit : unit.toNat ≤ 2 ^ 63) {c d : CarryCounter unit}
    (hle : d.value ≤ c.value) :
    (if c.low < d.low then (⟨unit + c.low - d.low, c.high - d.high - 1⟩ : StatsPair)
      else ⟨c.low - d.low, c.high - d.high⟩) = .of unit (c.value - d.value) := by
  have hc : c.low.toNat < unit.toNat := c.low_lt
  have hd : d.low.toNat < unit.toNat := d.low_lt
  have hhigh : d.high.toNat ≤ c.high.toNat := by
    rw [(snapshot_words c).1, (snapshot_words d).1]
    exact Nat.div_le_div_right hle
  have hsub := Nat.mul_sub unit.toNat c.high.toNat d.high.toNat
  have hmul := Nat.mul_le_mul_left unit.toNat hhigh
  have hwords : (c.high - d.high).toNat = c.high.toNat - d.high.toNat :=
    UInt64.toNat_sub_of_le _ _ (UInt64.le_iff_toNat_le.mpr hhigh)
  simp only [CarryCounter.value] at hle ⊢
  split_ifs with hborrow
  · rw [UInt64.lt_iff_toNat_lt] at hborrow
    have hpos : 1 ≤ c.high.toNat - d.high.toNat := by
      by_contra hzero
      have heq : c.high.toNat = d.high.toNat := by omega
      rw [heq] at hle
      omega
    have hone : (c.high - d.high - 1).toNat = c.high.toNat - d.high.toNat - 1 := by
      rw [UInt64.toNat_sub_of_le _ _ (UInt64.le_iff_toNat_le.mpr (by rw [hwords]; exact hpos)),
        hwords]
      rfl
    have hsum : (unit + c.low).toNat = unit.toNat + c.low.toNat := by
      rw [UInt64.toNat_add]
      exact Nat.mod_eq_of_lt (by omega)
    have hlow : (unit + c.low - d.low).toNat = unit.toNat + c.low.toNat - d.low.toNat := by
      rw [UInt64.toNat_sub_of_le _ _ (UInt64.le_iff_toNat_le.mpr (by omega)), hsum]
    apply eq_of_words
    · omega
    · have hless := Nat.mul_sub unit.toNat (c.high.toNat - d.high.toNat) 1
      have hunit_le := Nat.mul_le_mul_left unit.toNat hpos
      rw [hone, hlow]
      omega
  · have hle_low : d.low.toNat ≤ c.low.toNat := by
      rw [UInt64.lt_iff_toNat_lt] at hborrow
      omega
    have hlow : (c.low - d.low).toNat = c.low.toNat - d.low.toNat :=
      UInt64.toNat_sub_of_le _ _ (UInt64.le_iff_toNat_le.mpr hle_low)
    apply eq_of_words
    · omega
    · rw [hwords, hlow]
      omega

/-- **Subtracting snapshots** gives the distance of the values and which is smaller. -/
theorem sub_eq (hunit : unit.toNat ≤ 2 ^ 63) (c d : CarryCounter unit) :
    StatsPair.sub unit (snapshot c) (snapshot d) =
      if c.value < d.value then (.of unit (d.value - c.value), true)
      else (.of unit (c.value - d.value), false) := by
  have hless : ((snapshot c).compare (snapshot d) < 0) ↔ c.value < d.value := by
    rw [compare_eq]
    split_ifs <;> simp_all
  by_cases hlt : c.value < d.value
  · have hwords := sub_words hunit (Nat.le_of_lt hlt)
    simp only [StatsPair.sub, hless, hlt, decide_true, if_true]
    rw [← hwords]
    exact (apply_ite (fun pair => (pair, true)) (d.low < c.low) _ _).symm
  · have hwords := sub_words hunit (Nat.not_lt.mp hlt)
    simp only [StatsPair.sub, hless, hlt, decide_false, Bool.false_eq_true, if_false]
    rw [← hwords]
    exact (apply_ite (fun pair => (pair, false)) (c.low < d.low) _ _).symm

end Normalised

/-! ## Snapshots of one run -/

/-- Two snapshots of a counter, between which it went from `before` to `after`: the counter holds
these numbers, the difference is exactly what was added, in either order, and comparing agrees. -/
structure SnapshotsExact {unit : UInt64} (subtract : StatsPair → StatsPair → StatsPair × Bool)
    (x y : CarryCounter unit) (before after : ℕ) : Prop where
  low_lt : x.low < unit ∧ y.low < unit
  value : x.high.toNat * unit.toNat + x.low.toNat = before ∧
    y.high.toNat * unit.toNat + y.low.toNat = after
  sub : subtract (snapshot y) (snapshot x) = (.of unit (after - before), false)
  sub_swap : subtract (snapshot x) (snapshot y) =
    (.of unit (after - before), decide (after - before ≠ 0))
  compare : (snapshot x).compare (snapshot y) = (if before < after then -1 else 0) ∧
    (snapshot y).compare (snapshot x) = if before < after then 1 else 0

/-- Two snapshots of a run, one after the other, are exact. -/
theorem snapshotsExact_run {unit : UInt64} (hunit : unit.toNat ≤ 2 ^ 63) (hpos : 0 < unit)
    {ι : Type*} [DecidableEq ι] (ops later : List (CarryCounter.Op ι)) {i : ι}
    (hfits : CarryCounter.amount (fun _ => 0) (ops ++ later) i < CarryCounter.span unit) :
    SnapshotsExact (StatsPair.sub unit)
      (CarryCounter.run hunit (fun _ => .zero hpos) ops i)
      (CarryCounter.run hunit (fun _ => .zero hpos) (ops ++ later) i)
      (CarryCounter.amount (fun _ => 0) ops i)
      (CarryCounter.amount (fun _ => 0) (ops ++ later) i) := by
  have hgrow : CarryCounter.amount (fun _ => 0) ops i ≤
      CarryCounter.amount (fun _ => 0) (ops ++ later) i := by
    conv_rhs => rw [CarryCounter.amount, List.foldl_append]
    exact CarryCounter.le_amount _ later i
  have hx := CarryCounter.value_run_zero hunit hpos ops (lt_of_le_of_lt hgrow hfits)
  have hy := CarryCounter.value_run_zero hunit hpos (ops ++ later) hfits
  obtain ⟨x, hxdef⟩ : ∃ x, x = CarryCounter.run hunit (fun _ : ι => .zero hpos) ops i := ⟨_, rfl⟩
  obtain ⟨y, hydef⟩ : ∃ y, y = CarryCounter.run hunit (fun _ : ι => .zero hpos) (ops ++ later) i :=
    ⟨_, rfl⟩
  rw [← hxdef] at hx ⊢
  rw [← hydef] at hy ⊢
  rw [← hx, ← hy] at hgrow ⊢
  constructor
  case low_lt => exact ⟨x.low_lt, y.low_lt⟩
  case value =>
    simp only [CarryCounter.value, Nat.mul_comm unit.toNat]
    exact ⟨trivial, trivial⟩
  case sub =>
    rw [sub_eq hunit, if_neg (Nat.not_lt.mpr hgrow)]
  case sub_swap =>
    rw [sub_eq hunit]
    split_ifs with hlt
    · rw [decide_eq_true (by omega)]
    · have heq : x.value = y.value := by omega
      rw [heq, Nat.sub_self]
      rfl
  case compare =>
    rw [compare_eq, compare_eq, if_neg (Nat.not_lt.mpr hgrow), if_neg (Nat.not_lt.mpr hgrow)]
    exact ⟨rfl, rfl⟩

/-- The byte counters of the worker after a sequence of operations, from zero. -/
def bytesRun {ι : Type*} [DecidableEq ι] (ops : List (CarryCounter.Op ι)) : ι → BytesStats :=
  ops.foldl (fun stats op => match op with
    | .add i bytes => Function.update stats i (bytesStatsAdd (stats i) bytes)
    | .merge dst src => Function.update stats dst (bytesStatsMerge (stats dst) (stats src)))
    fun _ => ⟨0, 0, eibInBytes_pos⟩

def packetsRun {ι : Type*} [DecidableEq ι] (ops : List (CarryCounter.Op ι)) : ι → PacketsStats :=
  ops.foldl (fun stats op => match op with
    | .add i packets => Function.update stats i (packetsStatsAdd (stats i) packets)
    | .merge dst src => Function.update stats dst (packetsStatsMerge (stats dst) (stats src)))
    fun _ => ⟨0, 0, petaInPackets_pos⟩

/-- **Counter pairs are exact across the languages**: while the total fits, the pair holds the sum
of everything added, and differences and order of snapshots are those of the sums. -/
theorem counter_pairs_exact {ι : Type*} [DecidableEq ι] (ops later : List (CarryCounter.Op ι))
    (i : ι) :
    (CarryCounter.amount (fun _ => 0) (ops ++ later) i < CarryCounter.span eibInBytes →
      SnapshotsExact bytesStatsSub (bytesRun ops i) (bytesRun (ops ++ later) i)
        (CarryCounter.amount (fun _ => 0) ops i)
        (CarryCounter.amount (fun _ => 0) (ops ++ later) i)) ∧
    (CarryCounter.amount (fun _ => 0) (ops ++ later) i < CarryCounter.span petaInPackets →
      SnapshotsExact packetsStatsSub (packetsRun ops i) (packetsRun (ops ++ later) i)
        (CarryCounter.amount (fun _ => 0) ops i)
        (CarryCounter.amount (fun _ => 0) (ops ++ later) i)) := by
  constructor
  all_goals
    intro hfits
    exact snapshotsExact_run (by decide) (by decide) ops later hfits

/-- A counter is added to, merged into itself and added to again. -/
theorem counter_pairs_exact_self_merge :
    CarryCounter.amount (fun _ => 0) ([.add () 5, .merge () ()] ++ [.add () 7]) () = 17 ∧
      SnapshotsExact bytesStatsSub (bytesRun [.add () 5, .merge () ()] ())
        (bytesRun ([.add () 5, .merge () ()] ++ [.add () 7]) ()) 10 17 :=
  ⟨by decide, (counter_pairs_exact [.add () 5, .merge () ()] [.add () 7] ()).1 (by decide)⟩

end CloudProbe.Golib
