import Mathlib.Data.UInt
import Mathlib.Tactic.Common

/-!
# TCP segments in sequence space

What a segment says about its stream: the byte at each position, and the positions of SYN and FIN
(`Segment.Says`). Positions are 32-bit numbers and wrap. When the payload is cut into pieces that
all keep the control flags, the data survives (`says_byte_iff`), the flags do not
(`pieces_say_iff`).
-/

namespace CloudProbe.Lib

structure Segment where
  seq : UInt32
  syn : Bool
  fin : Bool
  payload : List UInt8
deriving DecidableEq

inductive SeqFact where
  | byte (seq : UInt32) (b : UInt8)
  | syn (seq : UInt32)
  | fin (seq : UInt32)
deriving DecidableEq

namespace Segment

/-- The position of the first data byte: a SYN takes the position before it. -/
def dataSeq (s : Segment) : UInt32 := s.seq + if s.syn then 1 else 0

/-- What a segment says: SYN takes the first position, FIN the one after the last data byte. -/
inductive Says (s : Segment) : SeqFact → Prop
  | byte {i : ℕ} {b : UInt8} (h : s.payload[i]? = some b) :
      Says s (.byte (s.dataSeq + UInt32.ofNat i) b)
  | syn (h : s.syn = true) : Says s (.syn s.seq)
  | fin (h : s.fin = true) : Says s (.fin (s.dataSeq + UInt32.ofNat s.payload.length))

/-- The `i`-th piece with at most `m` bytes of payload. -/
def piece (s : Segment) (m i : ℕ) : Segment where
  seq := s.seq + UInt32.ofNat (i * m)
  syn := s.syn
  fin := s.fin
  payload := (s.payload.drop (i * m)).take m

variable {s : Segment} {m n : ℕ}

/-- The pieces say the bytes of the segment. -/
theorem says_byte_iff (hsyn : s.syn = false) (hm : 0 < m) (hcover : s.payload.length ≤ n * m)
    (p : UInt32) (b : UInt8) :
    (∃ i < n, (s.piece m i).Says (.byte p b)) ↔ s.Says (.byte p b) := by
  have hshift : ∀ i j, (s.piece m i).dataSeq + UInt32.ofNat j =
      s.dataSeq + UInt32.ofNat (i * m + j) := by
    intro i j
    simp only [dataSeq, piece, UInt32.ofNat_add, hsyn, Bool.false_eq_true, if_false,
      UInt32.add_zero, UInt32.add_assoc]
  constructor
  · rintro ⟨i, hi, hsays⟩
    cases hsays with
    | @byte j _ h =>
      rw [hshift]
      apply Says.byte
      simp only [piece, List.getElem?_take, List.getElem?_drop] at h
      split_ifs at h
      exact h
  · intro hsays
    cases hsays with
    | @byte k _ h =>
      have hk : k < s.payload.length := (List.getElem?_eq_some_iff.mp h).1
      have hsplit : k / m * m + k % m = k := Nat.div_add_mod' k m
      refine ⟨k / m, (Nat.div_lt_iff_lt_mul hm).mpr (by omega), ?_⟩
      have hbyte : (s.piece m (k / m)).payload[k % m]? = some b := by
        simp only [piece, List.getElem?_take, Nat.mod_lt k hm, if_true, List.getElem?_drop, hsplit]
        exact h
      have hsays := Says.byte hbyte
      rwa [hshift, hsplit] at hsays

/-- **Cutting a segment** keeps what it says exactly when there are no flags to keep. -/
theorem pieces_say_iff (hm : 0 < m) (hn : 1 < n) (hlen : m < s.payload.length)
    (hlt : s.payload.length < 2 ^ 32) (hcover : s.payload.length ≤ n * m) :
    (∀ x, (∃ i < n, (s.piece m i).Says x) ↔ s.Says x) ↔ s.syn = false ∧ s.fin = false := by
  have hinj : ∀ {a b : ℕ}, a < 2 ^ 32 → b < 2 ^ 32 → s.seq + UInt32.ofNat a =
      s.seq + UInt32.ofNat b → a = b := by
    intro a b ha hb heq
    have hnat := congrArg UInt32.toNat (add_left_cancel heq)
    rwa [UInt32.toNat_ofNat_of_lt' ha, UInt32.toNat_ofNat_of_lt' hb] at hnat
  constructor
  · intro hsame
    have hsyn : s.syn = false := by
      -- the second piece has a SYN behind the first position
      by_contra hne
      have htrue := Bool.eq_true_of_not_eq_false hne
      have hsecond := (hsame (.syn (s.seq + UInt32.ofNat (1 * m)))).mp
        ⟨1, hn, .syn (s := s.piece m 1) htrue⟩
      generalize hp : s.seq + UInt32.ofNat (1 * m) = p at hsecond
      cases hsecond
      have := hinj (by omega) (by decide : 0 < 2 ^ 32) (hp.trans (by simp : s.seq = s.seq + _))
      omega
    refine ⟨hsyn, ?_⟩
    -- the first piece has a FIN before the last byte
    by_contra hne
    have htrue := Bool.eq_true_of_not_eq_false hne
    have hfirst := (hsame _).mp ⟨0, by omega, .fin (s := s.piece m 0) htrue⟩
    have hlength : (s.piece m 0).payload.length = m := by
      simp only [piece, Nat.zero_mul, List.drop_zero, List.length_take]
      omega
    have hseq : (s.piece m 0).dataSeq = s.seq := by simp [dataSeq, piece, hsyn]
    have hseq' : s.dataSeq = s.seq := by simp [dataSeq, hsyn]
    rw [hlength, hseq] at hfirst
    generalize hp : s.seq + UInt32.ofNat m = p at hfirst
    cases hfirst
    rw [hseq'] at hp
    have := hinj (by omega) hlt hp
    omega
  · rintro ⟨hsyn, hfin⟩ x
    cases x with
    | byte p b => exact says_byte_iff hsyn hm hcover p b
    | syn p =>
      refine iff_of_false ?_ ?_
      · rintro ⟨i, -, hsays⟩
        cases hsays with
        | syn h => exact Bool.false_ne_true (hsyn.symm.trans h)
      · intro hsays
        cases hsays with
        | syn h => exact Bool.false_ne_true (hsyn.symm.trans h)
    | fin p =>
      refine iff_of_false ?_ ?_
      · rintro ⟨i, -, hsays⟩
        cases hsays with
        | fin h => exact Bool.false_ne_true (hfin.symm.trans h)
      · intro hsays
        cases hsays with
        | fin h => exact Bool.false_ne_true (hfin.symm.trans h)

end Segment

end CloudProbe.Lib
