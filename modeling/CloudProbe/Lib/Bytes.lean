import Mathlib.Algebra.Order.Ring.Nat
import Mathlib.Data.Set.Basic
import Mathlib.Order.Interval.Set.Defs
import Mathlib.Tactic.Common

/-!
# Byte strings: big-endian numbers and writes into a buffer

* **Numbers** (`be`, `ofBe`): `be k n` is the `k`-byte big-endian image of `n`; it keeps `n` modulo
  `256 ^ k` (`ofBe_be`), and every byte string is such an image (`be_ofBe`).
* **Words** (`toNat_ofInt`, `or_shiftLeft`): a number cut to 32 bits, and bit fields side by side.
* **Writes** (`patch`): `patch buf pos bytes` is `buf` with `bytes` copied over it at `pos`. A read
  at that place gives `bytes` (`slice_patch`), and everything else stays (`EqOff`, `eqOff_patch`).
* **Pieces** (`flatMap_pieces`): the pieces of a list one after the other.
-/

namespace CloudProbe.Lib

open List

/-- The `k`-byte big-endian image of `n`. -/
def be : ℕ → ℕ → List UInt8
  | 0, _ => []
  | k + 1, n => UInt8.ofNat (n / 256 ^ k) :: be k n

def ofBe (bytes : List UInt8) : ℕ := bytes.foldl (fun acc b => acc * 256 + b.toNat) 0

@[simp] theorem length_be (k n : ℕ) : (be k n).length = k := by
  induction k with
  | zero => rfl
  | succ k ih => simp [be, ih]

theorem foldl_be (k n acc : ℕ) :
    (be k n).foldl (fun acc b => acc * 256 + b.toNat) acc = acc * 256 ^ k + n % 256 ^ k := by
  induction k generalizing acc with
  | zero => simp [be, Nat.mod_one]
  | succ k ih =>
    have hsplit : n % 256 ^ (k + 1) = 256 ^ k * (n / 256 ^ k % 256) + n % 256 ^ k := by
      rw [Nat.pow_succ, Nat.mod_mul]
      exact Nat.add_comm _ _
    calc (be (k + 1) n).foldl (fun acc b => acc * 256 + b.toNat) acc
        = (acc * 256 + n / 256 ^ k % 256) * 256 ^ k + n % 256 ^ k := by
          rw [be, foldl_cons, ih, UInt8.toNat_ofNat']
      _ = acc * (256 ^ k * 256) + (256 ^ k * (n / 256 ^ k % 256) + n % 256 ^ k) := by
          rw [Nat.add_mul, Nat.mul_assoc, Nat.mul_comm 256, Nat.add_assoc,
            Nat.mul_comm (n / 256 ^ k % 256)]
      _ = acc * 256 ^ (k + 1) + n % 256 ^ (k + 1) := by rw [hsplit, Nat.pow_succ]

/-- **Round trip.** Reading back a `k`-byte image gives the number modulo `256 ^ k`. -/
theorem ofBe_be (k n : ℕ) : ofBe (be k n) = n % 256 ^ k := by
  rw [ofBe, foldl_be, Nat.zero_mul, Nat.zero_add]

theorem foldl_lt (bytes : List UInt8) (acc : ℕ) :
    bytes.foldl (fun acc b => acc * 256 + b.toNat) acc < (acc + 1) * 256 ^ bytes.length := by
  induction bytes generalizing acc with
  | nil => simp
  | cons b bytes ih =>
    have hb := b.toNat_lt
    calc (b :: bytes).foldl (fun acc b => acc * 256 + b.toNat) acc
        < (acc * 256 + b.toNat + 1) * 256 ^ bytes.length := ih _
      _ ≤ ((acc + 1) * 256) * 256 ^ bytes.length := Nat.mul_le_mul_right _ (by omega)
      _ = (acc + 1) * 256 ^ (b :: bytes).length := by
          rw [length_cons, Nat.pow_succ, Nat.mul_assoc, Nat.mul_comm 256]

theorem ofBe_lt {bytes : List UInt8} {k : ℕ} (h : bytes.length ≤ k) : ofBe bytes < 256 ^ k :=
  calc ofBe bytes < (0 + 1) * 256 ^ bytes.length := foldl_lt bytes 0
    _ = 256 ^ bytes.length := by rw [Nat.zero_add, Nat.one_mul]
    _ ≤ 256 ^ k := Nat.pow_le_pow_right (by decide) h

theorem le_foldl (bytes : List UInt8) (acc : ℕ) :
    acc * 256 ^ bytes.length ≤ bytes.foldl (fun acc b => acc * 256 + b.toNat) acc := by
  induction bytes generalizing acc with
  | nil => simp
  | cons b bytes ih =>
    calc acc * 256 ^ (b :: bytes).length
        = acc * 256 * 256 ^ bytes.length := by
          rw [length_cons, Nat.pow_succ, Nat.mul_assoc, Nat.mul_comm 256]
      _ ≤ (acc * 256 + b.toNat) * 256 ^ bytes.length := Nat.mul_le_mul_right _ (by omega)
      _ ≤ _ := ih _

theorem be_foldl (bytes : List UInt8) (acc : ℕ) :
    be bytes.length (bytes.foldl (fun acc b => acc * 256 + b.toNat) acc) = bytes := by
  induction bytes generalizing acc with
  | nil => rfl
  | cons b bytes ih =>
    have hhead : bytes.foldl (fun acc b => acc * 256 + b.toNat) (acc * 256 + b.toNat) /
        256 ^ bytes.length = acc * 256 + b.toNat :=
      Nat.div_eq_of_lt_le (le_foldl bytes _) (foldl_lt bytes _)
    rw [length_cons, foldl_cons, be, ih, hhead]
    congr 1
    rw [← UInt8.toNat_inj, UInt8.toNat_ofNat', Nat.mul_add_mod_self_right]
    exact Nat.mod_eq_of_lt b.toNat_lt

theorem be_ofBe {bytes : List UInt8} {k : ℕ} (h : bytes.length = k) :
    be k (ofBe bytes) = bytes := by
  rw [← h, ofBe, be_foldl]

theorem toNat_ofInt (x : ℤ) : ((UInt32.ofInt x).toNat : ℤ) = x % 2 ^ 32 := by
  have hnonneg : 0 ≤ x % 2 ^ 32 := Int.emod_nonneg _ (by decide)
  rw [UInt32.ofInt, UInt32.toNat_ofNat']
  omega

theorem or_shiftLeft {k low high : ℕ} (hlow : low < 2 ^ k) (hhigh : 2 ^ k * high < 2 ^ 32) :
    low ||| high <<< k % 2 ^ 32 = low + 2 ^ k * high := by
  rw [Nat.shiftLeft_eq, Nat.mul_comm, Nat.mod_eq_of_lt hhigh, Nat.or_comm,
    ← Nat.two_pow_add_eq_or_of_lt hlow, Nat.add_comm]

/-- `buf` with `bytes` copied over it from position `pos` on. -/
def patch (buf : List UInt8) (pos : ℕ) (bytes : List UInt8) : List UInt8 :=
  buf.take pos ++ bytes ++ buf.drop (pos + bytes.length)

/-! ## What a write changes -/

section Writes

variable {α : Type*} {f g : List α} {S : Set ℕ}

/-- `g` is `f` except at the positions of `S`. -/
structure EqOff (S : Set ℕ) (f g : List α) : Prop where
  length_eq : g.length = f.length
  getElem? : ∀ i, i ∉ S → g[i]? = f[i]?

variable {pos n : ℕ} {bytes buf : List UInt8}

theorem slice_congr (h : ∀ i, pos ≤ i → i < pos + n → g[i]? = f[i]?) :
    (g.drop pos).take n = (f.drop pos).take n := by
  apply ext_getElem?
  intro i
  simp only [List.getElem?_take, List.getElem?_drop]
  split_ifs with hi
  · exact h (pos + i) (by omega) (by omega)
  · rfl

theorem drop_eq_append {stretch tail : List α} (hf : f.drop pos = stretch ++ tail)
    (h : ∀ i, pos ≤ i → i < pos + stretch.length → g[i]? = f[i]?) :
    g.drop pos = stretch ++ g.drop (pos + stretch.length) := by
  have hslice : (g.drop pos).take stretch.length = stretch := by
    rw [slice_congr h, hf, take_left]
  calc g.drop pos
      = (g.drop pos).take stretch.length ++ (g.drop pos).drop stretch.length :=
        (take_append_drop _ _).symm
    _ = stretch ++ g.drop (pos + stretch.length) := by rw [hslice, drop_drop]

namespace EqOff

theorem refl (S : Set ℕ) (f : List α) : EqOff S f f := ⟨rfl, fun _ _ => rfl⟩

theorem slice (h : EqOff S f g) {pos n : ℕ} (hpos : ∀ i, pos ≤ i → i < pos + n → i ∉ S) :
    (g.drop pos).take n = (f.drop pos).take n :=
  slice_congr fun i hle hlt => h.getElem? i (hpos i hle hlt)

end EqOff

theorem length_patch (hn : bytes.length = n) (h : pos + n ≤ buf.length) :
    (patch buf pos bytes).length = buf.length := by
  simp only [patch, length_append, length_take, length_drop]
  omega

theorem eqOff_patch (h : pos + bytes.length ≤ buf.length) :
    EqOff (Set.Ico pos (pos + bytes.length)) buf (patch buf pos bytes) where
  length_eq := length_patch rfl h
  getElem? i hi := by
    rw [Set.mem_Ico, not_and, not_lt] at hi
    have htake : (buf.take pos).length = pos := length_take_of_le (by omega)
    rw [patch, append_assoc]
    rcases Nat.lt_or_ge i pos with hlt | hge
    · rw [List.getElem?_append_left (by omega), List.getElem?_take_of_lt hlt]
    · have hafter := hi hge
      rw [List.getElem?_append_right (by omega), List.getElem?_append_right (by omega),
        List.getElem?_drop, htake]
      congr 1
      omega

theorem EqOff.patch {f g : List UInt8} (h : EqOff S f g) (hn : bytes.length = n)
    (hbound : pos + n ≤ f.length) (hmem : Set.Ico pos (pos + n) ⊆ S) :
    EqOff S f (patch g pos bytes) := by
  subst hn
  have hwrite := eqOff_patch (h.length_eq ▸ hbound)
  refine ⟨hwrite.length_eq.trans h.length_eq, ?_⟩
  intro i hi
  rw [hwrite.getElem? i fun hin => hi (hmem hin), h.getElem? i hi]

theorem slice_patch (bytes : List UInt8) (h : pos ≤ buf.length) :
    ((patch buf pos bytes).drop pos).take bytes.length = bytes := by
  have htake : (buf.take pos).length = pos := length_take_of_le h
  rw [patch, append_assoc, drop_append_of_le_length htake.ge, drop_eq_nil_of_le
    htake.le, nil_append, take_left]

theorem slice_patch_add (bytes : List UInt8) (h : pos ≤ buf.length) {k : ℕ}
    (hn : k + n ≤ bytes.length) :
    ((patch buf pos bytes).drop (pos + k)).take n = (bytes.drop k).take n := by
  calc ((patch buf pos bytes).drop (pos + k)).take n
      = ((((patch buf pos bytes).drop pos).take bytes.length).drop k).take n := by
        rw [drop_take, drop_drop, take_take, Nat.min_eq_left (by omega)]
    _ = (bytes.drop k).take n := by rw [slice_patch bytes h]

/-- `buf` with the `n` bytes at `i` and the `n` bytes at `j` exchanged. -/
def swapFields (buf : List UInt8) (i j n : ℕ) : List UInt8 :=
  patch (patch buf i ((buf.drop j).take n)) j ((buf.drop i).take n)

section Swap

variable {buf : List UInt8} {i j n : ℕ}

theorem eqOff_swapFields (hi : i + n ≤ buf.length) (hj : j + n ≤ buf.length) :
    EqOff (Set.Ico i (i + n) ∪ Set.Ico j (j + n)) buf (swapFields buf i j n) :=
  ((EqOff.refl _ buf).patch (by simp; omega) hi Set.subset_union_left).patch (by simp; omega) hj
    Set.subset_union_right

theorem slice_swapFields_right (hi : i + n ≤ buf.length) (hj : j + n ≤ buf.length) :
    ((swapFields buf i j n).drop j).take n = (buf.drop i).take n := by
  have hlen : ((buf.drop i).take n).length = n := by
    simp
    omega
  have hfirst : (patch buf i ((buf.drop j).take n)).length = buf.length :=
    length_patch (by simp; omega) hi
  have hread := slice_patch ((buf.drop i).take n)
    (hfirst ▸ Nat.le_trans (Nat.le_add_right j n) hj)
  rwa [hlen] at hread

theorem slice_swapFields_left (hi : i + n ≤ j) (hj : j + n ≤ buf.length) :
    ((swapFields buf i j n).drop i).take n = (buf.drop j).take n := by
  have hlen : ((buf.drop j).take n).length = n := by
    simp
    omega
  have hlen' : ((buf.drop i).take n).length = n := by
    simp
    omega
  have hfirst : (patch buf i ((buf.drop j).take n)).length = buf.length :=
    length_patch hlen (by omega)
  have hsecond := eqOff_patch (hfirst ▸ hlen'.symm ▸ hj)
  have hbound : i ≤ buf.length := by omega
  have hread := slice_patch ((buf.drop j).take n) hbound
  rw [hlen] at hread
  rw [swapFields, hsecond.slice, hread]
  intro k hle hlt hmem
  exact absurd hmem.1 (by omega)

end Swap

theorem flatMap_pieces (l : List α) (m n : ℕ) :
    (List.range n).flatMap (fun i => (l.drop (i * m)).take m) = l.take (n * m) := by
  induction n with
  | zero => simp
  | succ n ih =>
    rw [range_succ, flatMap_append, ih, Nat.succ_mul, take_add]
    simp

end Writes

end CloudProbe.Lib
