import Mathlib.Data.Nat.ModEq
import Mathlib.Tactic.Common

/-!
# Counters kept as a low and a high machine word

A `CarryCounter unit` counts in a low word that stays below `unit` and a high word of whole units,
which wraps, so the counter counts modulo `span unit = unit * 2 ^ 64`. Adding and merging are exact
modulo the span, and so are families of counters that are added to and merged into each other
(`value_run`).
-/

namespace CloudProbe.Lib

structure CarryCounter (unit : UInt64) where
  low : UInt64
  high : UInt64
  low_lt : low < unit
deriving DecidableEq

namespace CarryCounter

variable {unit : UInt64}

def span (unit : UInt64) : ℕ := unit.toNat * 2 ^ 64

def value (c : CarryCounter unit) : ℕ := unit.toNat * c.high.toNat + c.low.toNat

/-- The low word after adding `n`, before it is normalised. -/
def rawLow (c : CarryCounter unit) (n : UInt64) : UInt64 := c.low + n % unit

theorem toNat_rawLow (c : CarryCounter unit) (n : UInt64) (hunit : unit.toNat ≤ 2 ^ 63) :
    (c.rawLow n).toNat = c.low.toNat + n.toNat % unit.toNat := by
  have hlow : c.low.toNat < unit.toNat := c.low_lt
  have hmod : n.toNat % unit.toNat < unit.toNat := Nat.mod_lt _ (by omega)
  rw [rawLow, UInt64.toNat_add, UInt64.toNat_mod]
  exact Nat.mod_eq_of_lt (by omega)

/-- Adding an amount: whole units go to the high word, the rest to the low word, with a carry when
the low word reaches `unit`. -/
def add (hunit : unit.toNat ≤ 2 ^ 63) (c : CarryCounter unit) (n : UInt64) : CarryCounter unit :=
  if h : unit ≤ c.rawLow n then
    { low := c.rawLow n - unit
      high := c.high + (n / unit + 1)
      low_lt := by
        have hlow : c.low.toNat < unit.toNat := c.low_lt
        have hmod : n.toNat % unit.toNat < unit.toNat := Nat.mod_lt _ (by omega)
        rw [UInt64.lt_iff_toNat_lt, UInt64.toNat_sub_of_le _ _ h, toNat_rawLow c n hunit]
        omega }
  else
    { low := c.rawLow n
      high := c.high + n / unit
      low_lt := UInt64.not_le.mp h }

theorem value_lt_span (c : CarryCounter unit) : c.value < span unit := by
  have hlow : c.low.toNat < unit.toNat := c.low_lt
  have hhigh : c.high.toNat + 1 ≤ 2 ^ 64 := c.high.toNat_lt
  calc c.value < unit.toNat * c.high.toNat + unit.toNat := Nat.add_lt_add_left hlow _
    _ = unit.toNat * (c.high.toNat + 1) := by rw [Nat.mul_add, Nat.mul_one]
    _ ≤ span unit := Nat.mul_le_mul_left _ hhigh

theorem unit_mul_modEq (u n : ℕ) : u * (n % 2 ^ 64) ≡ u * n [MOD u * 2 ^ 64] :=
  (Nat.mod_modEq n (2 ^ 64)).mul_left' u

/-- Adding is exact up to the span. -/
theorem value_add (hunit : unit.toNat ≤ 2 ^ 63) (c : CarryCounter unit) (n : UInt64) :
    (c.add hunit n).value ≡ c.value + n.toNat [MOD span unit] := by
  have hsplit := Nat.div_add_mod n.toNat unit.toNat
  have hraw := toNat_rawLow c n hunit
  simp only [add, span]
  split_ifs with h
  · have hle : unit.toNat ≤ (c.rawLow n).toNat := h
    simp only [value, UInt64.toNat_sub_of_le _ _ h, UInt64.toNat_add, UInt64.toNat_div]
    calc unit.toNat * ((c.high.toNat + (n.toNat / unit.toNat + UInt64.toNat 1) % 2 ^ 64) % 2 ^ 64)
          + ((c.rawLow n).toNat - unit.toNat)
        ≡ unit.toNat * (c.high.toNat + (n.toNat / unit.toNat + 1))
          + ((c.rawLow n).toNat - unit.toNat) [MOD unit.toNat * 2 ^ 64] := by
          apply Nat.ModEq.add_right
          rw [Nat.add_mod_mod]
          exact unit_mul_modEq _ _
      _ = unit.toNat * c.high.toNat + c.low.toNat + n.toNat := by
          rw [hraw] at hle ⊢
          simp only [Nat.mul_add, Nat.mul_one]
          omega
  · simp only [value, UInt64.toNat_add, UInt64.toNat_div]
    calc unit.toNat * ((c.high.toNat + n.toNat / unit.toNat) % 2 ^ 64) + (c.rawLow n).toNat
        ≡ unit.toNat * (c.high.toNat + n.toNat / unit.toNat) + (c.rawLow n).toNat
          [MOD unit.toNat * 2 ^ 64] := (unit_mul_modEq _ _).add_right _
      _ = unit.toNat * c.high.toNat + c.low.toNat + n.toNat := by
          rw [hraw]
          simp only [Nat.mul_add]
          omega

/-- Adding another counter: the low words are added first, and whole units go to the high word. -/
def merge (hunit : unit.toNat ≤ 2 ^ 63) (c d : CarryCounter unit) : CarryCounter unit where
  low := (c.low + d.low) % unit
  high := c.high + (d.high + (c.low + d.low) / unit)
  low_lt := by
    have hlow : c.low.toNat < unit.toNat := c.low_lt
    rw [UInt64.lt_iff_toNat_lt, UInt64.toNat_mod]
    exact Nat.mod_lt _ (by omega)

/-- Merging is exact up to the span. -/
theorem value_merge (hunit : unit.toNat ≤ 2 ^ 63) (c d : CarryCounter unit) :
    (c.merge hunit d).value ≡ c.value + d.value [MOD span unit] := by
  have hc : c.low.toNat < unit.toNat := c.low_lt
  have hd : d.low.toNat < unit.toNat := d.low_lt
  have hlow : (c.low + d.low).toNat = c.low.toNat + d.low.toNat := by
    rw [UInt64.toNat_add]
    exact Nat.mod_eq_of_lt (by omega)
  have hsplit := Nat.div_add_mod (c.low.toNat + d.low.toNat) unit.toNat
  simp only [merge, value, span, UInt64.toNat_add, UInt64.toNat_div, UInt64.toNat_mod] at hlow ⊢
  rw [hlow, Nat.add_mod_mod]
  calc unit.toNat * ((c.high.toNat +
          (d.high.toNat + (c.low.toNat + d.low.toNat) / unit.toNat)) % 2 ^ 64) +
        (c.low.toNat + d.low.toNat) % unit.toNat
      ≡ unit.toNat * (c.high.toNat +
          (d.high.toNat + (c.low.toNat + d.low.toNat) / unit.toNat)) +
        (c.low.toNat + d.low.toNat) % unit.toNat [MOD unit.toNat * 2 ^ 64] :=
        (unit_mul_modEq _ _).add_right _
    _ = unit.toNat * c.high.toNat + c.low.toNat + (unit.toNat * d.high.toNat + d.low.toNat) := by
        simp only [Nat.mul_add]
        omega

theorem value_eq_mod {c : CarryCounter unit} {n : ℕ} (h : c.value ≡ n [MOD span unit]) :
    c.value = n % span unit := by
  rw [← Nat.mod_eq_of_lt c.value_lt_span]
  exact h

/-! ## Families of counters -/

def zero (hpos : 0 < unit) : CarryCounter unit := ⟨0, 0, hpos⟩

inductive Op (ι : Type*) where
  | add (i : ι) (n : UInt64)
  | merge (dst src : ι)

variable {ι : Type*} [DecidableEq ι]

def apply (hunit : unit.toNat ≤ 2 ^ 63) (cs : ι → CarryCounter unit) :
    Op ι → ι → CarryCounter unit
  | .add i n => Function.update cs i ((cs i).add hunit n)
  | .merge dst src => Function.update cs dst ((cs dst).merge hunit (cs src))

/-- What one operation adds to amounts without a bound. -/
def Op.amount (as : ι → ℕ) : Op ι → ι → ℕ
  | .add i n => Function.update as i (as i + n.toNat)
  | .merge dst src => Function.update as dst (as dst + as src)

def run (hunit : unit.toNat ≤ 2 ^ 63) (cs : ι → CarryCounter unit) (ops : List (Op ι)) :
    ι → CarryCounter unit :=
  ops.foldl (apply hunit) cs

def amount (as : ι → ℕ) (ops : List (Op ι)) : ι → ℕ := ops.foldl Op.amount as

/-- **The run lemma** for additions and merges. -/
theorem value_run (hunit : unit.toNat ≤ 2 ^ 63) {cs : ι → CarryCounter unit} {as : ι → ℕ}
    (h : ∀ i, (cs i).value ≡ as i [MOD span unit]) (ops : List (Op ι)) (i : ι) :
    (run hunit cs ops i).value ≡ amount as ops i [MOD span unit] := by
  induction ops generalizing cs as with
  | nil => exact h i
  | cons op ops ih =>
    apply ih
    intro j
    cases op with
    | add i n =>
      simp only [apply, Op.amount, Function.update_apply]
      split_ifs
      · exact (value_add hunit (cs i) n).trans ((h i).add_right _)
      · exact h j
    | merge dst src =>
      simp only [apply, Op.amount, Function.update_apply]
      split_ifs
      · exact (value_merge hunit (cs dst) (cs src)).trans ((h dst).add (h src))
      · exact h j

theorem le_amount (as : ι → ℕ) (ops : List (Op ι)) (i : ι) : as i ≤ amount as ops i := by
  induction ops generalizing as with
  | nil => exact le_rfl
  | cons op ops ih =>
    apply le_trans _ (ih (Op.amount as op))
    cases op with
    | add j n | merge dst src =>
      simp only [Op.amount, Function.update_apply]
      split_ifs with hj
      · exact hj ▸ Nat.le_add_right _ _
      · exact le_rfl

/-- **As long as they fit**, the counters hold exactly what was added to them. -/
theorem value_run_zero (hunit : unit.toNat ≤ 2 ^ 63) (hpos : 0 < unit) (ops : List (Op ι)) {i : ι}
    (hfits : amount (fun _ => 0) ops i < span unit) :
    (run hunit (fun _ => zero hpos) ops i).value = amount (fun _ => 0) ops i := by
  rw [← Nat.mod_eq_of_lt hfits]
  apply value_eq_mod
  apply value_run
  intro j
  exact Nat.ModEq.refl _

end CarryCounter

end CloudProbe.Lib
