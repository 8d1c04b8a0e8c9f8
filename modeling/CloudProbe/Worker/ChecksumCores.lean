import CloudProbe.Worker.SplitChecksum

/-!
# The loops of the checksum core

`cksum_accumulate` loop by loop: 32 bytes at a time in four vector lanes, 16 and 8 bytes at a time
unrolled, then word by word. Every addition goes through an `Adder`, which has to be right only
where the sum fits in 32 bits: the C code has the adder that wraps around, and with one that traps
the same loops return only when no addition overflows.

Sources without a file are in `packet_split.c`.
-/

namespace CloudProbe.Worker

open Lib List

/-- A 32-bit addition that is right where it does not overflow. -/
structure Adder (m : Type → Type) [Monad m] where
  add : UInt32 → UInt32 → m UInt32
  add_eq : ∀ a b, a.toNat + b.toNat < 2 ^ 32 → add a b = pure (a + b)

def Adder.wrapping : Adder Id := ⟨fun a b => pure (a + b), fun _ _ _ => rfl⟩

/-- An addition that stops the program on overflow. -/
def Adder.trapping : Adder Option where
  add a b := if a.toNat + b.toNat < 2 ^ 32 then some (a + b) else none
  add_eq _ _ h := if_pos h

variable {m : Type → Type} [Monad m] (A : Adder m)

/-! ## The loops -/

/-- `sum += u16[0]; …; sum += u16[count - 1]`. -/
def Adder.words (sum : UInt32) (buf : List UInt8) (count : ℕ) : m UInt32 :=
  (List.range count).foldlM (fun sum i => A.add sum (wordAt buf i)) sum

def Adder.lanes (v w : Lanes) : m Lanes := do
  return ⟨← A.add v.l0 w.l0, ← A.add v.l1 w.l1, ← A.add v.l2 w.l2, ← A.add v.l3 w.l3⟩

/-- The four words of half a vector, unpacked with zeros. The two vectors of a round have four
halves; `_mm_unpacklo_epi16` unpacks the even ones, `_mm_unpackhi_epi16` the odd ones. -/
def Lanes.unpack (buf : List UInt8) (half : ℕ) : Lanes :=
  ⟨wordAt buf (4 * half), wordAt buf (4 * half + 1), wordAt buf (4 * half + 2),
    wordAt buf (4 * half + 3)⟩

/-- The SSE2 loop: two vectors, four halves a round.
Source: `cksum_accumulate` -/
def vectorLoop : ℕ → Lanes → List UInt8 → m Lanes
  | 0, v, _ => pure v
  | n + 1, v, buf => do
    let v ← (List.range 4).foldlM (fun v half => A.lanes v (.unpack buf half)) v
    vectorLoop n v (buf.drop 32)

/-- The horizontal reduction: `_MM_SHUFFLE(1, 0, 3, 2)`, then `_MM_SHUFFLE(2, 3, 0, 1)`.
Source: `cksum_accumulate` -/
def horizontal (v : Lanes) : m UInt32 := do
  let v ← A.lanes v ⟨v.l2, v.l3, v.l0, v.l1⟩
  let v ← A.lanes v ⟨v.l1, v.l0, v.l3, v.l2⟩
  return v.l0

/-- The loop unrolled eight times.
Source: `cksum_accumulate` -/
def unrolledLoop : ℕ → UInt32 → List UInt8 → m UInt32
  | 0, sum, _ => pure sum
  | n + 1, sum, buf => do unrolledLoop n (← A.words sum buf 8) (buf.drop 16)

/-- The remaining words and a trailing odd byte.
Source: `cksum_accumulate` -/
def wordLoop (sum : UInt32) : List UInt8 → m UInt32
  | [] => pure sum
  | [b] => A.add sum b.toUInt32
  | lo :: hi :: rest => do wordLoop (← A.add sum (leWord lo hi)) rest

/-- The scalar path.
Source: `cksum_accumulate` -/
def scalarLoops (sum : UInt32) (buf : List UInt8) : m UInt32 := do
  let sum ← unrolledLoop A (buf.length / 16) sum buf
  let buf := buf.drop (16 * (buf.length / 16))
  if 8 ≤ buf.length then wordLoop A (← A.words sum buf 4) (buf.drop 8)
  else wordLoop A sum buf

/-- The whole function, with and without `__SSE2__`.
Source: `cksum_accumulate` -/
def cksumAccumulateBy (sse2 : Bool) (buf : List UInt8) (initialSum : UInt32) : m UInt32 := do
  if sse2 ∧ 32 ≤ buf.length then
    let blocks := buf.length / 32
    let v ← vectorLoop A blocks ⟨0, 0, 0, 0⟩ buf
    let sum ← A.add initialSum (← horizontal A v)
    scalarLoops A sum (buf.drop (32 * blocks))
  else scalarLoops A initialSum buf

/-! ## Sums that fit -/

variable {buf : List UInt8} {n k : ℕ}

theorem Adder.add_ofNat (h : n + k < 2 ^ 32) :
    A.add (UInt32.ofNat n) (UInt32.ofNat k) = pure (UInt32.ofNat (n + k)) := by
  rw [A.add_eq, UInt32.ofNat_add]
  rwa [UInt32.toNat_ofNat_of_lt' (by rw [UInt32.size]; omega),
    UInt32.toNat_ofNat_of_lt' (by rw [UInt32.size]; omega)]

def wordValue (buf : List UInt8) (i : ℕ) : ℕ :=
  leSum [buf.getD (2 * i) 0, buf.getD (2 * i + 1) 0]

theorem wordAt_eq (buf : List UInt8) (i : ℕ) : wordAt buf i = UInt32.ofNat (wordValue buf i) := rfl

theorem leSum_take_succ {i : ℕ} (h : 2 * (i + 1) ≤ buf.length) :
    leSum (buf.take (2 * (i + 1))) = leSum (buf.take (2 * i)) + wordValue buf i := by
  rw [Nat.mul_add, leSum_take_add (even_two_mul i) (by omega), take_drop_pair (by omega)]
  rfl

variable [LawfulMonad m]

theorem Adder.words_eq (count bytes : ℕ) (hbytes : bytes = 2 * count)
    (hlen : bytes ≤ buf.length) (h : n + leSum (buf.take bytes) < 2 ^ 32) :
    A.words (UInt32.ofNat n) buf count = pure (UInt32.ofNat (n + leSum (buf.take bytes))) := by
  subst hbytes
  induction count with
  | zero => simp [Adder.words, leSum]
  | succ count ih =>
    rw [leSum_take_succ hlen] at h ⊢
    rw [Adder.words, range_succ, foldlM_append, ← Adder.words, ih (by omega) (by omega),
      pure_bind, foldlM_cons, wordAt_eq, A.add_ofNat (by omega), pure_bind, foldlM_nil,
      Nat.add_assoc]

theorem unrolledLoop_eq (hlen : 16 * k ≤ buf.length)
    (h : n + leSum (buf.take (16 * k)) < 2 ^ 32) :
    unrolledLoop A k (UInt32.ofNat n) buf =
      pure (UInt32.ofNat (n + leSum (buf.take (16 * k)))) := by
  induction k generalizing n buf with
  | zero => simp [unrolledLoop, leSum]
  | succ k ih =>
    have hrest : 16 * k ≤ (buf.drop 16).length := by
      rw [length_drop]
      omega
    rw [Nat.mul_succ, Nat.add_comm (16 * k), leSum_take_add (by decide) (by omega)] at h ⊢
    rw [unrolledLoop, A.words_eq 8 16 rfl (by omega) (by omega), pure_bind, ih hrest (by omega),
      Nat.add_assoc]

theorem wordLoop_eq (h : n + leSum buf < 2 ^ 32) :
    wordLoop A (UInt32.ofNat n) buf = pure (UInt32.ofNat (n + leSum buf)) := by
  induction buf using leSum.induct generalizing n with
  | case1 => rfl
  | case2 b =>
    have hbyte : b.toUInt32 = UInt32.ofNat b.toNat := by
      rw [← UInt8.toNat_toUInt32, UInt32.ofNat_toNat]
    rw [leSum] at h ⊢
    rw [wordLoop, hbyte, A.add_ofNat h]
  | case3 lo hi rest ih =>
    rw [leSum] at h ⊢
    rw [wordLoop, leWord, A.add_ofNat (by omega), pure_bind, ih (by omega), Nat.add_assoc]

theorem scalarLoops_eq (h : n + leSum buf < 2 ^ 32) :
    scalarLoops A (UInt32.ofNat n) buf = pure (UInt32.ofNat (n + leSum buf)) := by
  obtain ⟨k, hk⟩ : ∃ k, k = buf.length / 16 := ⟨_, rfl⟩
  have hlen : 16 * k ≤ buf.length := by omega
  rw [leSum_split (a := 16 * k) ⟨8 * k, by omega⟩ hlen] at h ⊢
  rw [scalarLoops, ← hk, unrolledLoop_eq A hlen (by omega), pure_bind]
  simp only
  generalize buf.drop (16 * k) = rest at h ⊢
  split_ifs with height
  · rw [leSum_split (a := 8) (by decide) height] at h ⊢
    rw [A.words_eq 4 8 rfl height (by omega), pure_bind, wordLoop_eq A (by omega), Nat.add_assoc,
      Nat.add_assoc]
  · rw [wordLoop_eq A (by omega), Nat.add_assoc]

/-! ### The lanes -/

def Lanes.total (v : Lanes) : ℕ := v.l0.toNat + v.l1.toNat + v.l2.toNat + v.l3.toNat

theorem Adder.lanes_eq {a b c d a' b' c' d' : UInt32} (ha : a.toNat + a'.toNat < 2 ^ 32)
    (hb : b.toNat + b'.toNat < 2 ^ 32) (hc : c.toNat + c'.toNat < 2 ^ 32)
    (hd : d.toNat + d'.toNat < 2 ^ 32) :
    A.lanes ⟨a, b, c, d⟩ ⟨a', b', c', d'⟩ = pure ⟨a + a', b + b', c + c', d + d'⟩ := by
  simp only [Adder.lanes, A.add_eq _ _ ha, A.add_eq _ _ hb, A.add_eq _ _ hc, A.add_eq _ _ hd,
    pure_bind]

variable {v : Lanes}

theorem Adder.lanes_total {w : Lanes} (h : v.total + w.total < 2 ^ 32) :
    ∃ u, A.lanes v w = pure u ∧ u.total = v.total + w.total := by
  -- every lane is at most the total of its vector
  simp only [Lanes.total] at h ⊢
  refine ⟨_, A.lanes_eq (by omega) (by omega) (by omega) (by omega), ?_⟩
  simp only [UInt32.toNat_add]
  omega

/-- Half a vector holds its words. -/
theorem unpack_total {half : ℕ} (h : 8 * (half + 1) ≤ buf.length) :
    leSum (buf.take (8 * (half + 1))) =
      leSum (buf.take (8 * half)) + (Lanes.unpack buf half).total := by
  have hvalue (i : ℕ) : (wordAt buf i).toNat = wordValue buf i := by
    have := (buf.getD (2 * i) 0).toNat_lt
    have := (buf.getD (2 * i + 1) 0).toNat_lt
    rw [wordAt_eq, UInt32.toNat_ofNat_of_lt']
    rw [UInt32.size, wordValue, leSum, leSum]
    omega
  have hstart : 8 * half = 2 * (4 * half) := by omega
  have hend : 8 * (half + 1) = 2 * (4 * half + 3 + 1) := by omega
  rw [hend, leSum_take_succ (by omega), leSum_take_succ (by omega), leSum_take_succ (by omega),
    leSum_take_succ (by omega), hstart]
  simp only [Lanes.total, Lanes.unpack, hvalue]
  omega

theorem unpackedHalves_eq (halves bytes : ℕ) (hbytes : bytes = 8 * halves)
    (hlen : bytes ≤ buf.length) (h : v.total + leSum (buf.take bytes) < 2 ^ 32) :
    ∃ u, (List.range halves).foldlM (fun v half => A.lanes v (.unpack buf half)) v = pure u ∧
      u.total = v.total + leSum (buf.take bytes) := by
  subst hbytes
  induction halves with
  | zero => exact ⟨v, rfl, by simp [leSum]⟩
  | succ halves ih =>
    rw [unpack_total hlen] at h ⊢
    obtain ⟨u, hu, htotal⟩ := ih (by omega) (by omega)
    obtain ⟨u', hu', htotal'⟩ := A.lanes_total (v := u) (w := .unpack buf halves) (by omega)
    refine ⟨u', ?_, by omega⟩
    rw [range_succ, foldlM_append, hu, pure_bind, foldlM_cons, hu', pure_bind, foldlM_nil]

/-- **The loop lemma**: the lanes add up the words. -/
theorem vectorLoop_eq (hlen : 32 * k ≤ buf.length)
    (h : v.total + leSum (buf.take (32 * k)) < 2 ^ 32) :
    ∃ u, vectorLoop A k v buf = pure u ∧ u.total = v.total + leSum (buf.take (32 * k)) := by
  induction k generalizing v buf with
  | zero => exact ⟨v, rfl, by simp [leSum]⟩
  | succ k ih =>
    have hrest : 32 * k ≤ (buf.drop 32).length := by
      rw [length_drop]
      omega
    rw [Nat.mul_succ, Nat.add_comm (32 * k), leSum_take_add (by decide) (by omega)] at h ⊢
    have hfit : v.total + leSum (buf.take 32) < 2 ^ 32 := by omega
    obtain ⟨u, hu, htotal⟩ := unpackedHalves_eq A 4 32 rfl (by omega) hfit
    obtain ⟨u', hu', htotal'⟩ := ih (v := u) hrest (by omega)
    refine ⟨u', ?_, by omega⟩
    rw [vectorLoop, hu, pure_bind, hu']

theorem horizontal_eq (h : v.total < 2 ^ 32) :
    horizontal A v = pure (UInt32.ofNat v.total) := by
  obtain ⟨a, b, c, d⟩ := v
  simp only [Lanes.total] at h ⊢
  have hpair {x y : UInt32} (hxy : x.toNat + y.toNat < 2 ^ 32) :
      (x + y).toNat = x.toNat + y.toNat := by
    rw [UInt32.toNat_add, Nat.mod_eq_of_lt hxy]
  simp only [horizontal]
  rw [A.lanes_eq (by omega) (by omega) (by omega) (by omega)]
  simp only [pure_bind]
  rw [A.lanes_eq]
  · simp only [pure_bind, UInt32.ofNat_add, UInt32.ofNat_toNat]
    congr 1
    ac_rfl
  -- after the second addition every lane holds the total
  all_goals
    rw [hpair (by omega), hpair (by omega)]
    omega

/-! ## The core -/

/-- **The core** on both paths: the initial sum plus the words, when that fits. -/
theorem cksumAccumulateBy_eq (sse2 : Bool) {buf : List UInt8} {initialSum : UInt32}
    (h : initialSum.toNat + leSum buf < 2 ^ 32) :
    cksumAccumulateBy A sse2 buf initialSum = pure (cksumAccumulate sse2 buf initialSum) := by
  rw [cksumAccumulate_eq]
  have hinitial : initialSum = UInt32.ofNat initialSum.toNat := UInt32.ofNat_toNat.symm
  generalize initialSum.toNat = n at h hinitial
  subst hinitial
  rw [← UInt32.ofNat_add, cksumAccumulateBy]
  split_ifs with hvector
  · obtain ⟨k, hk⟩ : ∃ k, k = buf.length / 32 := ⟨_, rfl⟩
    have hlen : 32 * k ≤ buf.length := by omega
    have hzero : Lanes.total ⟨0, 0, 0, 0⟩ = 0 := rfl
    rw [leSum_split (a := 32 * k) ⟨16 * k, by omega⟩ hlen] at h ⊢
    obtain ⟨v, hv, htotal⟩ := vectorLoop_eq A (v := ⟨0, 0, 0, 0⟩) hlen (by omega)
    simp only [← hk]
    rw [hv, pure_bind, horizontal_eq A (by omega), pure_bind, A.add_ofNat (by omega),
      pure_bind, scalarLoops_eq A (by omega)]
    congr 2
    omega
  · exact scalarLoops_eq A h

/-- One pass of `cksum_fold`.
Source: `cksum_fold` -/
def foldPass (sum : UInt32) : UInt32 := (sum >>> 16) + (sum &&& 0xFFFF)

theorem toNat_foldPass_twice (sum : UInt32) :
    (foldPass (foldPass sum)).toNat = foldTwice sum.toNat := by
  rw [foldPass, toNat_foldStep, foldPass, toNat_foldStep, foldTwice]

/-- **The checksum cores agree**, with and without SSE2 and on the path for an IPv4 header: one sum,
without overflow, which folds to the end-around carry sum of the words. -/
theorem checksum_cores_agree (ip : { ip : IpHdr // ip.Whole }) (protocol : UInt8) (l4Len : UInt16)
    (buf : { buf : List UInt8 // buf.length ≤ 65535 }) :
    (∃ sum : UInt32,
      (∀ sse2, cksumAccumulateBy .wrapping sse2 buf.1
        (calculatePseudoHeaderSum ip.1 protocol.toNat l4Len.toNat) = sum) ∧
      (∀ sse2, cksumAccumulateBy .trapping sse2 buf.1
        (calculatePseudoHeaderSum ip.1 protocol.toNat l4Len.toNat) = some sum) ∧
      (cksumFold sum).toNat =
        (leWords (pseudoHeader ip.1 protocol.toNat l4Len.toNat ++ buf.1)).foldl onesAdd 0) ∧
      (∀ sum : UInt32, (foldPass (foldPass sum)).toNat < 2 ^ 16 ∧
        (cksumFold sum).toNat = (foldPass (foldPass sum)).toNat) ∧
      ∀ (sse2 : Bool) (hdr : List UInt8), 20 ≤ hdr.length → (hdr.getD 0 0).toNat % 16 = 5 →
        calculateIpChecksum sse2 hdr =
          cksumFinish (cksumAccumulateBy .wrapping sse2 (hdr.take (5 * 4)) 0) := by
  obtain ⟨hinitial, heven, hshort⟩ :=
    calculatePseudoHeaderSum_eq ip.2 protocol.toNat_lt l4Len.toNat_lt
  refine ⟨?_, ?_, ?_⟩
  · generalize pseudoHeader ip.1 protocol.toNat l4Len.toNat = pseudo at *
    have hbuf := leSum_le buf.1
    have hpseudo := leSum_le pseudo
    have hlen := buf.2
    have hexact : (UInt32.ofNat (leSum pseudo)).toNat = leSum pseudo :=
      UInt32.toNat_ofNat_of_lt' (by rw [UInt32.size]; omega)
    have hfit : (UInt32.ofNat (leSum pseudo)).toNat + leSum buf.1 < 2 ^ 32 := by omega
    have hboth : leSum (pseudo ++ buf.1) = leSum pseudo + leSum buf.1 := leSum_append heven _
    rw [hinitial]
    refine ⟨UInt32.ofNat (leSum (pseudo ++ buf.1)), ?_, ?_, ?_⟩
    · intro sse2
      rw [cksumAccumulateBy_eq _ sse2 hfit, cksumAccumulate_eq, ← UInt32.ofNat_add, hboth]
      rfl
    · intro sse2
      rw [cksumAccumulateBy_eq _ sse2 hfit, cksumAccumulate_eq, ← UInt32.ofNat_add, hboth]
      rfl
    · rw [toNat_cksumFold, UInt32.toNat_ofNat_of_lt' (by rw [UInt32.size]; omega),
        foldTwice_leSum (by omega)]
  · intro sum
    rw [toNat_cksumFold, toNat_foldPass_twice]
    exact ⟨Nat.lt_succ_of_le (foldTwice_spec sum.toNat_lt).1, rfl⟩
  · intro sse2 hdr hlen hihl
    have hbound := leSum_le (hdr.take 20)
    rw [length_take] at hbound
    have hfit : (0 : UInt32).toNat + leSum (hdr.take 20) < 2 ^ 32 := by
      rw [UInt32.toNat_zero]
      omega
    rw [calculateIpChecksum_eq sse2 (n := 20) (by rw [hihl]) hlen, cksumAccumulateBy_eq _ sse2 hfit,
      cksumAccumulate_eq, UInt32.zero_add]
    rfl

end CloudProbe.Worker
