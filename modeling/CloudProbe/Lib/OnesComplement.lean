import CloudProbe.Lib.Bytes
import Mathlib.Data.Nat.ModEq

/-!
# One's complement sums

The Internet checksum as a receiver adds it up (`onesSum`: big-endian words with end-around carry)
and as a little-endian host computes it (`leSum`: the words in its own byte order, added as plain
numbers). Modulo 65535 the two differ by the factor 256 (`sum_beWords_modEq`), so a sum that the
host makes a multiple of 65535 is all ones for the receiver (`onesSum_eq`).
-/

namespace CloudProbe.Lib

open List

def beWords : List UInt8 → List ℕ
  | [] => []
  | [b] => [256 * b.toNat]
  | hi :: lo :: rest => (256 * hi.toNat + lo.toNat) :: beWords rest

def onesAdd (a b : ℕ) : ℕ := if a + b < 65536 then a + b else a + b - 65535

def onesSum (bytes : List UInt8) : ℕ := (beWords bytes).foldl onesAdd 0

/-- The sum of the words in the byte order of a little-endian host. -/
def leSum : List UInt8 → ℕ
  | [] => 0
  | [b] => b.toNat
  | lo :: hi :: rest => lo.toNat + 256 * hi.toNat + leSum rest

/-- The words in the byte order of a little-endian host; an odd last byte is the low one. -/
def leWords : List UInt8 → List ℕ
  | [] => []
  | [b] => [b.toNat]
  | lo :: hi :: rest => (lo.toNat + 256 * hi.toNat) :: leWords rest

/-! ## The receiver's sum -/

theorem beWords_le (bytes : List UInt8) : ∀ w ∈ beWords bytes, w ≤ 65535 := by
  induction bytes using beWords.induct with
  | case1 => simp [beWords]
  | case2 b =>
    have := b.toNat_lt
    simp only [beWords, mem_singleton, forall_eq]
    omega
  | case3 hi lo rest ih =>
    have := hi.toNat_lt
    have := lo.toNat_lt
    simp only [beWords, mem_cons, forall_eq_or_imp]
    exact ⟨by omega, ih⟩

/-- Adding with end-around carry is adding modulo 65535. -/
theorem foldl_onesAdd {words : List ℕ} (h : ∀ w ∈ words, w ≤ 65535) {acc : ℕ}
    (hacc : acc ≤ 65535) :
    words.foldl onesAdd acc ≤ 65535 ∧
      words.foldl onesAdd acc ≡ acc + words.sum [MOD 65535] ∧
      (words.foldl onesAdd acc = 0 ↔ acc + words.sum = 0) := by
  induction words generalizing acc with
  | nil => simp [hacc, Nat.ModEq.refl]
  | cons w words ih =>
    have hw := h w (.head _)
    have hadd : onesAdd acc w ≤ 65535 ∧ onesAdd acc w ≡ acc + w [MOD 65535] ∧
        (onesAdd acc w = 0 ↔ acc + w = 0) := by
      unfold onesAdd Nat.ModEq
      split_ifs <;> omega
    obtain ⟨hle, hmod, hzero⟩ := ih (fun v hv => h v (.tail _ hv)) hadd.1
    rw [foldl_cons, sum_cons]
    refine ⟨hle, ?_, by omega⟩
    calc words.foldl onesAdd (onesAdd acc w)
        ≡ onesAdd acc w + words.sum [MOD 65535] := hmod
      _ ≡ acc + w + words.sum [MOD 65535] := hadd.2.1.add_right _
      _ = acc + (w + words.sum) := Nat.add_assoc _ _ _

/-- **Byte order.** Modulo 65535 the receiver's words add up to 256 times those of the host. -/
theorem sum_beWords_modEq (bytes : List UInt8) :
    (beWords bytes).sum ≡ 256 * leSum bytes [MOD 65535] := by
  induction bytes using beWords.induct with
  | case1 => rfl
  | case2 b => simp [beWords, leSum, Nat.ModEq.refl]
  | case3 hi lo rest ih =>
    rw [beWords, leSum, sum_cons, Nat.mul_add]
    refine Nat.ModEq.add ?_ ih
    unfold Nat.ModEq
    omega

theorem sum_beWords_eq_zero_iff (bytes : List UInt8) :
    (beWords bytes).sum = 0 ↔ leSum bytes = 0 := by
  induction bytes using beWords.induct with
  | case1 | case2 b => simp [beWords, leSum]
  | case3 hi lo rest ih =>
    rw [beWords, leSum, sum_cons]
    omega

variable {bytes : List UInt8}

/-- **A sum that verifies.** Words that add up to a positive multiple of 65535 give the receiver all
ones. -/
theorem onesSum_eq (hdvd : 65535 ∣ leSum bytes) (hne : leSum bytes ≠ 0) :
    onesSum bytes = 0xFFFF := by
  obtain ⟨hle, hmod, hzero⟩ := foldl_onesAdd (beWords_le bytes) (Nat.zero_le 65535)
  have hpos : onesSum bytes ≠ 0 := by
    rw [onesSum, ne_eq, hzero, Nat.zero_add, sum_beWords_eq_zero_iff]
    exact hne
  have hmultiple : onesSum bytes ≡ 0 [MOD 65535] :=
    calc onesSum bytes ≡ 0 + (beWords bytes).sum [MOD 65535] := hmod
      _ = (beWords bytes).sum := Nat.zero_add _
      _ ≡ 256 * leSum bytes [MOD 65535] := sum_beWords_modEq bytes
      _ ≡ 0 [MOD 65535] := (Nat.modEq_zero_iff_dvd).mpr (hdvd.mul_left 256)
  have hbound : onesSum bytes ≤ 65535 := hle
  unfold Nat.ModEq at hmultiple
  omega

/-! ## The host's sum -/

theorem leSum_append {a : List UInt8} (h : Even a.length) (b : List UInt8) :
    leSum (a ++ b) = leSum a + leSum b := by
  induction a using leSum.induct with
  | case1 => simp [leSum]
  | case2 x => simp at h
  | case3 lo hi rest ih =>
    have hrest : Even rest.length := by
      simpa [Nat.even_add_one, parity_simps] using h
    rw [cons_append, cons_append, leSum, leSum, ih hrest]
    omega

theorem leSum_take_add {buf : List UInt8} {a : ℕ} (heven : Even a) (ha : a ≤ buf.length) (b : ℕ) :
    leSum (buf.take (a + b)) = leSum (buf.take a) + leSum ((buf.drop a).take b) := by
  rw [take_add, leSum_append]
  rwa [length_take, Nat.min_eq_left ha]

theorem leSum_split {buf : List UInt8} {a : ℕ} (heven : Even a) (ha : a ≤ buf.length) :
    leSum buf = leSum (buf.take a) + leSum (buf.drop a) := by
  rw [← leSum_append, take_append_drop]
  rwa [length_take, Nat.min_eq_left ha]

theorem leSum_le (bytes : List UInt8) : leSum bytes ≤ 32768 * (bytes.length + 1) := by
  induction bytes using leSum.induct with
  | case1 => simp [leSum]
  | case2 b =>
    have := b.toNat_lt
    simp only [leSum, length_singleton]
    omega
  | case3 lo hi rest ih =>
    have := lo.toNat_lt
    have := hi.toNat_lt
    simp only [leSum, length_cons]
    omega

theorem leSum_ne_zero {b : UInt8} (hmem : b ∈ bytes) (hb : b ≠ 0) :
    leSum bytes ≠ 0 := by
  have hpos : b.toNat ≠ 0 := fun hzero => hb (UInt8.toNat_inj.mp hzero)
  induction bytes using leSum.induct with
  | case1 => simp at hmem
  | case2 x =>
    rw [mem_singleton] at hmem
    rw [leSum, ← hmem]
    exact hpos
  | case3 lo hi rest ih =>
    rw [leSum]
    rcases mem_cons.mp hmem with rfl | hmem
    · omega
    · rcases mem_cons.mp hmem with rfl | hmem
      · omega
      · have := ih hmem
        omega

/-- **A two-byte field.** Strings that differ in one field at an even place differ in their sums by
that field. -/
theorem leSum_field {f g : List UInt8} {start n pos : ℕ} (h : EqOff (Set.Ico pos (pos + 2)) f g)
    (hstart : start ≤ pos) (heven : Even (pos - start)) (hend : pos + 2 ≤ start + n)
    (hlen : pos + 2 ≤ f.length) :
    leSum ((g.drop start).take n) + leSum ((f.drop pos).take 2) =
      leSum ((f.drop start).take n) + leSum ((g.drop pos).take 2) := by
  obtain ⟨before, rfl⟩ := Nat.exists_eq_add_of_le hstart
  obtain ⟨after, rfl⟩ := Nat.exists_eq_add_of_le (by omega : before + 2 ≤ n)
  rw [Nat.add_sub_cancel_left] at heven
  have hsplit : ∀ l : List UInt8, start + before + 2 ≤ l.length →
      leSum ((l.drop start).take (before + 2 + after)) =
        leSum ((l.drop start).take before) + leSum ((l.drop (start + before)).take 2) +
          leSum ((l.drop (start + before + 2)).take after) := by
    intro l hl
    have hrest : before + 2 ≤ (l.drop start).length := by
      rw [length_drop]
      omega
    rw [leSum_take_add (heven.add even_two) hrest, leSum_take_add heven (by omega), drop_drop,
      drop_drop, Nat.add_assoc start before 2]
  have hfirst : (g.drop start).take before = (f.drop start).take before :=
    h.slice fun i hle hlt => by rw [Set.mem_Ico]; omega
  have hlast : (g.drop (start + before + 2)).take after =
      (f.drop (start + before + 2)).take after :=
    h.slice fun i hle hlt => by rw [Set.mem_Ico]; omega
  rw [hsplit f hlen, hsplit g (by rw [h.length_eq]; exact hlen), hfirst, hlast]
  omega

/-! ## Folding -/

/-- The upper half of a word added to the lower one, twice. -/
def foldTwice (sum : ℕ) : ℕ :=
  let sum := sum / 65536 + sum % 65536
  sum / 65536 + sum % 65536

theorem foldTwice_spec {sum : ℕ} (h : sum < 2 ^ 32) :
    foldTwice sum ≤ 65535 ∧ foldTwice sum ≡ sum [MOD 65535] := by
  simp only [foldTwice, Nat.ModEq]
  omega

theorem leWords_spec (bytes : List UInt8) :
    (∀ w ∈ leWords bytes, w ≤ 65535) ∧ (leWords bytes).sum = leSum bytes := by
  induction bytes using leWords.induct with
  | case1 => simp [leWords, leSum]
  | case2 b =>
    have := b.toNat_lt
    simp only [leWords, leSum, mem_singleton, forall_eq, sum_singleton, and_true]
    omega
  | case3 lo hi rest ih =>
    have := lo.toNat_lt
    have := hi.toNat_lt
    simp only [leWords, leSum, mem_cons, forall_eq_or_imp, sum_cons, ih.2, and_true]
    exact ⟨by omega, ih.1⟩

/-- **Carries at the end.** Folding the plain sum gives what end-around carry gives. -/
theorem foldTwice_leSum (h : leSum bytes < 2 ^ 32) :
    foldTwice (leSum bytes) = (leWords bytes).foldl onesAdd 0 := by
  obtain ⟨hwords, hsum⟩ := leWords_spec bytes
  obtain ⟨hle, hmod, hzero⟩ := foldl_onesAdd hwords (Nat.zero_le 65535)
  obtain ⟨hle', hmod'⟩ := foldTwice_spec h
  have hzero' : foldTwice (leSum bytes) = 0 ↔ leSum bytes = 0 := by
    simp only [foldTwice]
    omega
  rw [Nat.zero_add, hsum] at hmod hzero
  have hcong := hmod'.trans hmod.symm
  unfold Nat.ModEq at hcong
  omega

end CloudProbe.Lib
