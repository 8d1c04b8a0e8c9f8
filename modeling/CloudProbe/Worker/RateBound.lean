import CloudProbe.Worker.RateLimit
import Mathlib.Data.Rat.Floor
import Mathlib.Tactic.FinCases
import Mathlib.Tactic.Linarith

/-!
# What the rate limit grants

Over every contiguous run of calls of `token_bucket_consume`, the bits granted are at most the
capacity and the rate times the length of an interval that holds the timestamps (`RateBounded`). The
bucket keeps the timestamp of the last call also when it lies before an earlier one, so a clock that
goes back and forth is credited with the same time again. The bound holds exactly as long as no run
is credited with more time than passes (`CreditWithin`).
-/

namespace CloudProbe.Worker

open List

structure ConsumeCall where
  bytes : ℕ
  ts : Timeval
deriving DecidableEq

def consumeRun (tb : TokenBucket) (calls : List ConsumeCall) : TokenBucket :=
  calls.foldl (fun tb call => (tokenBucketConsume tb call.bytes call.ts).1) tb

def grantedBits : TokenBucket → List ConsumeCall → ℕ
  | _, [] => 0
  | tb, call :: calls =>
    let consumed := tokenBucketConsume tb call.bytes call.ts
    (if consumed.2 then call.bytes * 8 else 0) + grantedBits consumed.1 calls

def Timeval.micros (t : Timeval) : ℤ := t.sec * 1000000 + t.usec

def Timeval.seconds (t : Timeval) : ℚ := t.micros / 1000000

/-- In every contiguous run of the calls, when an interval of `T` seconds holds its timestamps, at
most the capacity and `T` times the rate is granted. -/
def RateBounded (rateBps : UInt64) (calls : List ConsumeCall) : Prop :=
  ∀ before run after, calls = before ++ run ++ after → ∀ start T : ℚ, 0 ≤ T →
    (∀ call ∈ run, start ≤ call.ts.seconds ∧ call.ts.seconds ≤ start + T) →
    (grantedBits (consumeRun (tokenBucketInit rateBps) before) run : ℚ) ≤
      (tokenBucketInit rateBps).capacity.toNat + rateBps.toNat * T

/-- The time in microseconds a call at `b` is credited with after a call at `a`. -/
def refillTime (a b : Timeval) : ℕ :=
  if 0 < a.sec then (min (timevalDiff b a) 1000000).toNat else 0

def refillTimes : List Timeval → ℕ
  | a :: b :: times => refillTime a b + refillTimes (b :: times)
  | _ => 0

/-- No contiguous run is credited with more time than an interval that holds its timestamps. -/
def CreditWithin (times : List Timeval) : Prop :=
  ∀ run, run <:+: times → ∀ lo hi : ℤ, lo ≤ hi → (∀ t ∈ run, lo ≤ t.micros ∧ t.micros ≤ hi) →
    (refillTimes run : ℤ) ≤ hi - lo

/-- A bucket as `token_bucket_init` and the calls leave it. -/
structure TokenBucket.Kept (tb : TokenBucket) (rateBps : UInt64) : Prop where
  rate : tb.rateBps = rateBps
  capacity : tb.capacity = rateBps
  tokens : tb.tokens ≤ rateBps

/-! ## One call -/

section OneCall

variable {tb : TokenBucket} {rateBps : UInt64}

theorem kept_tokenBucketInit (rateBps : UInt64) : (tokenBucketInit rateBps).Kept rateBps :=
  ⟨rfl, rfl, UInt64.le_refl _⟩

theorem timevalDiff_eq (a b : Timeval) : timevalDiff a b = a.micros - b.micros := by
  simp only [timevalDiff, Timeval.micros]
  ring

/-- The tokens after the refill, before they are cut to the capacity. -/
def TokenBucket.topped (tb : TokenBucket) (ts : Timeval) : UInt64 :=
  if 1000000 ≤ timevalDiff ts tb.lastTs then tb.tokens + tb.rateBps
  else if 0 < timevalDiff ts tb.lastTs then
    tb.tokens + UInt64.ofNat ((timevalDiff ts tb.lastTs).toNat * tb.rateBps.toNat / 1000000)
  else tb.tokens

theorem TokenBucket.refill_eq (tb : TokenBucket) (ts : Timeval) :
    tb.refill ts =
      if 0 < tb.lastTs.sec then
        if tb.capacity < tb.topped ts then tb.capacity else tb.topped ts
      else tb.tokens := rfl

theorem toNat_add_le (a b : UInt64) : (a + b).toNat ≤ a.toNat + b.toNat := by
  rw [UInt64.toNat_add]
  exact Nat.mod_le _ _

theorem toNat_ofNat_le (n : ℕ) : (UInt64.ofNat n).toNat ≤ n := by
  rw [UInt64.toNat_ofNat']
  exact Nat.mod_le _ _

/-- A refill gives the rate times the time at most. -/
theorem TokenBucket.topped_mul_le (tb : TokenBucket) (ts : Timeval) (hlast : 0 < tb.lastTs.sec) :
    (tb.topped ts).toNat * 1000000 ≤
      tb.tokens.toNat * 1000000 + tb.rateBps.toNat * refillTime tb.lastTs ts := by
  rw [refillTime, if_pos hlast, TokenBucket.topped]
  split_ifs with hlong hshort
  · have hsum := toNat_add_le tb.tokens tb.rateBps
    rw [min_eq_right hlong]
    simp only [Int.reduceToNat]
    omega
  · obtain ⟨n, hn⟩ : ∃ n, n = (timevalDiff ts tb.lastTs).toNat * tb.rateBps.toNat := ⟨_, rfl⟩
    have hsum := toNat_add_le tb.tokens (UInt64.ofNat (n / 1000000))
    have hcut := toNat_ofNat_le (n / 1000000)
    rw [min_eq_left (by omega), Nat.mul_comm tb.rateBps.toNat, ← hn]
    omega
  · omega

theorem TokenBucket.Kept.refill_le (h : tb.Kept rateBps) (ts : Timeval) :
    tb.refill ts ≤ rateBps := by
  rw [TokenBucket.refill_eq, h.capacity]
  split_ifs with hlast hover
  · exact UInt64.le_refl _
  · exact UInt64.not_lt.mp hover
  · exact h.tokens

theorem TokenBucket.Kept.refill_mul_le (h : tb.Kept rateBps) (ts : Timeval) :
    (tb.refill ts).toNat * 1000000 ≤
      tb.tokens.toNat * 1000000 + rateBps.toNat * refillTime tb.lastTs ts := by
  rw [TokenBucket.refill_eq, ← h.rate]
  split_ifs with hlast hover
  · have hle : tb.capacity.toNat ≤ (tb.topped ts).toNat :=
      UInt64.le_iff_toNat_le.mp (UInt64.le_of_lt hover)
    exact le_trans (Nat.mul_le_mul_right _ hle) (tb.topped_mul_le ts hlast)
  · exact tb.topped_mul_le ts hlast
  · exact Nat.le_add_right _ _

theorem toNat_required {bytes : ℕ} (hbytes : bytes < 2 ^ 61) :
    (UInt64.ofNat (bytes * 8)).toNat = bytes * 8 := by
  rw [UInt64.toNat_ofNat']
  omega

theorem tokenBucketConsume_tokens (tb : TokenBucket) {bytes : ℕ} (ts : Timeval)
    (hbytes : bytes < 2 ^ 61) :
    (if (tokenBucketConsume tb bytes ts).2 then bytes * 8 else 0) +
      (tokenBucketConsume tb bytes ts).1.tokens.toNat = (tb.refill ts).toNat := by
  have hbits := toNat_required hbytes
  by_cases hgrant : UInt64.ofNat (bytes * 8) ≤ tb.refill ts
  · have hle := UInt64.le_iff_toNat_le.mp hgrant
    simp only [tokenBucketConsume, if_pos hgrant, if_true, UInt64.toNat_sub_of_le _ _ hgrant,
      hbits] at hle ⊢
    omega
  · simp only [tokenBucketConsume, if_neg hgrant, Bool.false_eq_true, if_false, Nat.zero_add]

@[simp] theorem tokenBucketConsume_lastTs (tb : TokenBucket) (bytes : ℕ) (ts : Timeval) :
    (tokenBucketConsume tb bytes ts).1.lastTs = ts := by
  simp only [tokenBucketConsume]
  split_ifs <;> rfl

theorem TokenBucket.Kept.consume (h : tb.Kept rateBps) (bytes : ℕ) (ts : Timeval) :
    (tokenBucketConsume tb bytes ts).1.Kept rateBps := by
  have hrefill := h.refill_le ts
  simp only [tokenBucketConsume]
  split_ifs with hgrant
  · refine ⟨h.rate, h.capacity, UInt64.le_trans ?_ hrefill⟩
    rw [UInt64.le_iff_toNat_le, UInt64.toNat_sub_of_le _ _ hgrant]
    omega
  · exact ⟨h.rate, h.capacity, hrefill⟩

end OneCall

/-! ## Runs of calls -/

section Runs

variable {tb : TokenBucket} {rateBps : UInt64}

theorem TokenBucket.Kept.run (h : tb.Kept rateBps) (calls : List ConsumeCall) :
    (consumeRun tb calls).Kept rateBps := by
  induction calls generalizing tb with
  | nil => exact h
  | cons call calls ih => exact ih (h.consume call.bytes call.ts)

/-- **What a sequence of calls grants** comes from the tokens before it and the time credited. -/
theorem TokenBucket.Kept.grantedBits_le (h : tb.Kept rateBps) (calls : List ConsumeCall)
    (hbytes : ∀ call ∈ calls, call.bytes < 2 ^ 61) :
    grantedBits tb calls * 1000000 ≤ tb.tokens.toNat * 1000000 +
      rateBps.toNat * refillTimes (tb.lastTs :: calls.map ConsumeCall.ts) := by
  induction calls generalizing tb with
  | nil => simp [grantedBits]
  | cons call calls ih =>
    have htokens := tokenBucketConsume_tokens tb call.ts (hbytes call (.head _))
    have hrefill := h.refill_mul_le call.ts
    have hrest := ih (h.consume call.bytes call.ts) fun c hc => hbytes c (.tail _ hc)
    rw [tokenBucketConsume_lastTs] at hrest
    simp only [grantedBits, map_cons, refillTimes] at hrest ⊢
    linarith

/-- **A run that starts anywhere** grants at most the capacity and the rate times the time credited.
-/
theorem TokenBucket.Kept.grantedBits_run_le (h : tb.Kept rateBps) (calls : List ConsumeCall)
    (hbytes : ∀ call ∈ calls, call.bytes < 2 ^ 61) :
    grantedBits tb calls * 1000000 ≤
      rateBps.toNat * (1000000 + refillTimes (calls.map ConsumeCall.ts)) := by
  cases calls with
  | nil => simp [grantedBits]
  | cons call calls =>
    have htokens := tokenBucketConsume_tokens tb call.ts (hbytes call (.head _))
    have hrefill := UInt64.le_iff_toNat_le.mp (h.refill_le call.ts)
    have hrest := (h.consume call.bytes call.ts).grantedBits_le calls
      fun c hc => hbytes c (.tail _ hc)
    rw [tokenBucketConsume_lastTs] at hrest
    simp only [grantedBits, map_cons] at hrest ⊢
    linarith

theorem Timeval.micros_mem {t : Timeval} {start T : ℚ}
    (h : start ≤ t.seconds ∧ t.seconds ≤ start + T) :
    ⌈start * 1000000⌉ ≤ t.micros ∧ t.micros ≤ ⌊(start + T) * 1000000⌋ := by
  rw [Timeval.seconds, le_div_iff₀ (by norm_num), div_le_iff₀ (by norm_num)] at h
  exact ⟨Int.ceil_le.mpr h.1, Int.le_floor.mpr h.2⟩

/-- **The bound** holds when no run is credited with more time than passes. -/
theorem rateBounded_of_creditWithin (rateBps : UInt64) {calls : List ConsumeCall}
    (hcredit : CreditWithin (calls.map ConsumeCall.ts))
    (hbytes : ∀ call ∈ calls, call.bytes < 2 ^ 61) : RateBounded rateBps calls := by
  rintro before run after rfl start T hT hwindow
  have hkept := (kept_tokenBucketInit rateBps).run before
  have hgranted := hkept.grantedBits_run_le run fun c hc => hbytes c (by simp [hc])
  have htime : (refillTimes (run.map ConsumeCall.ts) : ℚ) ≤ T * 1000000 := by
    rcases run with _ | ⟨call, run⟩
    · simpa [refillTimes] using hT
    · have hmem := fun c hc => Timeval.micros_mem (hwindow c hc)
      have hle := (hmem call (.head _)).1.trans (hmem call (.head _)).2
      have hcut := hcredit ((call :: run).map ConsumeCall.ts)
        ⟨before.map ConsumeCall.ts, after.map ConsumeCall.ts, by simp⟩ _ _ hle (by
          intro t ht
          obtain ⟨c, hc, rfl⟩ := mem_map.mp ht
          exact hmem c hc)
      have hlo := Int.le_ceil (start * 1000000)
      have hhi := Int.floor_le ((start + T) * 1000000)
      have hcut' : ((refillTimes ((call :: run).map ConsumeCall.ts) : ℤ) : ℚ) ≤
          (⌊(start + T) * 1000000⌋ - ⌈start * 1000000⌉ : ℤ) := by exact_mod_cast hcut
      push_cast at hcut'
      linarith
  have hgranted' : (grantedBits (consumeRun (tokenBucketInit rateBps) before) run : ℚ) * 1000000 ≤
      rateBps.toNat * (1000000 + refillTimes (run.map ConsumeCall.ts)) := by
    exact_mod_cast hgranted
  have hrate : (0 : ℚ) ≤ rateBps.toNat := Nat.cast_nonneg _
  have hmul := mul_le_mul_of_nonneg_left htime hrate
  simp only [tokenBucketInit] at *
  linarith

end Runs

/-! ## Clocks that do not go back -/

theorem refillTime_le {a b : Timeval} (h : a.micros ≤ b.micros) :
    (refillTime a b : ℤ) ≤ b.micros - a.micros := by
  have hdiff := timevalDiff_eq b a
  rw [refillTime]
  split_ifs
  all_goals omega

variable {times : List Timeval}

theorem refillTimes_le {a : Timeval} {hi : ℤ}
    (hsorted : (a :: times).Pairwise fun s t => s.micros ≤ t.micros)
    (hhi : ∀ t ∈ a :: times, t.micros ≤ hi) :
    (refillTimes (a :: times) : ℤ) ≤ hi - a.micros := by
  induction times generalizing a with
  | nil =>
    have ha := hhi a (.head _)
    simp only [refillTimes]
    omega
  | cons b times ih =>
    rw [pairwise_cons] at hsorted
    have hstep := refillTime_le (hsorted.1 b (.head _))
    have hrest := ih hsorted.2 fun t ht => hhi t (.tail _ ht)
    simp only [refillTimes]
    omega

/-- **Timestamps that never step back** are never credited with more time than passes. -/
theorem creditWithin_of_sorted (hsorted : times.Pairwise fun s t => s.micros ≤ t.micros) :
    CreditWithin times := by
  rintro run hrun lo hi hle hwindow
  rcases run with _ | ⟨a, run⟩
  · simp only [refillTimes]
    omega
  · have hlo := (hwindow a (.head _)).1
    have htimes := refillTimes_le (hsorted.sublist hrun.sublist) fun t ht => (hwindow t ht).2
    omega

/-! ## Clocks that go back

With a rate of 8 Mbit/s each microsecond of credit is worth one byte. A run that first takes the
whole capacity and then, at every call, what the call is credited with has everything granted. -/

def byteRate : UInt64 := 8000000

def idleCalls (times : List Timeval) : List ConsumeCall := times.map fun t => ⟨0, t⟩

/-- Calls that each ask for what they are credited with; `last` is the timestamp before them. -/
def spendingCalls (last : Timeval) : List Timeval → List ConsumeCall
  | [] => []
  | t :: times => ⟨refillTime last t, t⟩ :: spendingCalls t times

@[simp] theorem map_ts_idleCalls (times : List Timeval) :
    (idleCalls times).map ConsumeCall.ts = times := by
  rw [idleCalls, map_map]
  exact map_id _

@[simp] theorem map_ts_spendingCalls (last : Timeval) (times : List Timeval) :
    (spendingCalls last times).map ConsumeCall.ts = times := by
  induction times generalizing last with
  | nil => rfl
  | cons t times ih => rw [spendingCalls, map_cons, ih]

theorem refillTime_le_second (a b : Timeval) : refillTime a b ≤ 1000000 := by
  rw [refillTime]
  split_ifs
  all_goals omega

theorem bytes_spendingCalls {last : Timeval} :
    ∀ call ∈ spendingCalls last times, call.bytes ≤ 1000000 := by
  induction times generalizing last with
  | nil => simp [spendingCalls]
  | cons t times ih =>
    intro call hcall
    rcases mem_cons.mp hcall with rfl | hrest
    · exact refillTime_le_second last t
    · exact ih call hrest

section ByteRate

variable {tb : TokenBucket}

theorem refill_full (h : tb.Kept byteRate) (hfull : tb.tokens = byteRate) (ts : Timeval) :
    tb.refill ts = byteRate := by
  have htopped : byteRate ≤ tb.topped ts := by
    obtain ⟨d, hd⟩ : ∃ d, d = timevalDiff ts tb.lastTs := ⟨_, rfl⟩
    rw [TokenBucket.topped, h.rate, hfull, ← hd]
    split_ifs with hlong hshort
    · decide
    · rw [UInt64.le_iff_toNat_le, UInt64.toNat_add, UInt64.toNat_ofNat']
      simp only [byteRate, UInt64.reduceToNat]
      omega
    · exact UInt64.le_refl _
  rw [TokenBucket.refill_eq, h.capacity, hfull]
  split_ifs with hlast hover
  · rfl
  · exact UInt64.le_antisymm (UInt64.not_lt.mp hover) htopped
  · rfl

/-- An empty bucket gets the rate times the time credited. -/
theorem toNat_refill_empty (h : tb.Kept byteRate) (hempty : tb.tokens = 0) (ts : Timeval) :
    (tb.refill ts).toNat = refillTime tb.lastTs ts * 8 := by
  have htopped : 0 < tb.lastTs.sec → (tb.topped ts).toNat = refillTime tb.lastTs ts * 8 := by
    intro hlast
    obtain ⟨d, hd⟩ : ∃ d, d = timevalDiff ts tb.lastTs := ⟨_, rfl⟩
    rw [refillTime, if_pos hlast, TokenBucket.topped, h.rate, hempty, ← hd]
    split_ifs with hlong hshort
    · rw [min_eq_right hlong]
      rfl
    · rw [UInt64.zero_add, UInt64.toNat_ofNat', min_eq_left (by omega)]
      simp only [byteRate, UInt64.reduceToNat]
      omega
    · simp only [UInt64.toNat_zero]
      omega
  have hsecond := refillTime_le_second tb.lastTs ts
  rw [TokenBucket.refill_eq, h.capacity]
  split_ifs with hlast hover
  · have hover' := UInt64.lt_iff_toNat_lt.mp hover
    rw [htopped hlast] at hover'
    simp only [byteRate, UInt64.reduceToNat] at *
    omega
  · exact htopped hlast
  · rw [refillTime, if_neg hlast, hempty]
    rfl

theorem consumeRun_idleCalls (h : tb.Kept byteRate) (hfull : tb.tokens = byteRate)
    (times : List Timeval) : (consumeRun tb (idleCalls times)).tokens = byteRate := by
  induction times generalizing tb with
  | nil => exact hfull
  | cons t times ih =>
    apply ih (h.consume 0 t)
    simp [tokenBucketConsume, refill_full h hfull]

theorem tokenBucketConsume_all (bytes : ℕ) (ts : Timeval) (hbytes : bytes < 2 ^ 61)
    (hrefill : (tb.refill ts).toNat = bytes * 8) :
    (tokenBucketConsume tb bytes ts).2 = true ∧ (tokenBucketConsume tb bytes ts).1.tokens = 0 := by
  have hsame : UInt64.ofNat (bytes * 8) = tb.refill ts := by
    rw [← UInt64.toNat_inj, toNat_required hbytes, hrefill]
  simp only [tokenBucketConsume]
  rw [hsame, if_pos (UInt64.le_refl _)]
  exact ⟨rfl, UInt64.sub_self _⟩

theorem grantedBits_spendingCalls (h : tb.Kept byteRate) (hempty : tb.tokens = 0)
    (times : List Timeval) :
    grantedBits tb (spendingCalls tb.lastTs times) = refillTimes (tb.lastTs :: times) * 8 := by
  induction times generalizing tb with
  | nil => rfl
  | cons t times ih =>
    have hsecond := refillTime_le_second tb.lastTs t
    obtain ⟨hgranted, hleft⟩ := tokenBucketConsume_all (refillTime tb.lastTs t) t (by omega)
      (toNat_refill_empty h hempty t)
    have hrest := ih (h.consume (refillTime tb.lastTs t) t) hleft
    rw [tokenBucketConsume_lastTs] at hrest
    simp only [spendingCalls, grantedBits, hgranted, if_true, hrest, refillTimes]
    omega

end ByteRate

/-- **A clock that is credited with more time than passes** breaks the bound. -/
theorem creditWithin_of_rateBounded
    (hbounded : ∀ calls : List ConsumeCall, calls.map ConsumeCall.ts = times →
      (∀ call ∈ calls, call.bytes < 2 ^ 61) → RateBounded byteRate calls) :
    CreditWithin times := by
  rintro run ⟨before, after, rfl⟩ lo hi hle hwindow
  rcases run with _ | ⟨a, run⟩
  · simp only [refillTimes]
    omega
  · have hkept := (kept_tokenBucketInit byteRate).run (idleCalls before)
    have hfull := consumeRun_idleCalls (kept_tokenBucketInit byteRate) rfl before
    obtain ⟨tb, htb⟩ : ∃ tb, tb = consumeRun (tokenBucketInit byteRate) (idleCalls before) :=
      ⟨_, rfl⟩
    rw [← htb] at hkept hfull
    -- the first call takes the whole capacity, the others what they are credited with
    obtain ⟨hgranted, hempty⟩ := tokenBucketConsume_all 1000000 a (by omega)
      (by rw [refill_full hkept hfull]; rfl)
    have hspent := grantedBits_spendingCalls (hkept.consume 1000000 a) hempty run
    rw [tokenBucketConsume_lastTs] at hspent
    have htotal : grantedBits tb (⟨1000000, a⟩ :: spendingCalls a run) =
        8000000 + refillTimes (a :: run) * 8 := by
      simp only [grantedBits, hgranted, if_true, hspent]
    have hsmall : ∀ call ∈ idleCalls before ++ (⟨1000000, a⟩ :: spendingCalls a run) ++
        idleCalls after, call.bytes < 2 ^ 61 := by
      intro call hcall
      simp only [mem_append, mem_cons, idleCalls, mem_map] at hcall
      rcases hcall with (⟨t, -, rfl⟩ | rfl | hspend) | ⟨t, -, rfl⟩
      · simp
      · norm_num
      · have := bytes_spendingCalls call hspend
        omega
      · simp
    have hbound := hbounded _ (by simp) hsmall _ _ _ rfl ((lo : ℚ) / 1000000)
      (((hi : ℚ) - lo) / 1000000) (by
        have : (lo : ℚ) ≤ hi := by exact_mod_cast hle
        linarith) (by
        intro call hcall
        have hts : call.ts ∈ a :: run := by
          have hmem : call.ts ∈ List.map ConsumeCall.ts _ := mem_map_of_mem hcall
          simpa using hmem
        obtain ⟨hlo, hhi⟩ := hwindow call.ts hts
        have hlo' : (lo : ℚ) ≤ call.ts.micros := by exact_mod_cast hlo
        have hhi' : (call.ts.micros : ℚ) ≤ hi := by exact_mod_cast hhi
        rw [Timeval.seconds]
        constructor <;> linarith)
    rw [← htb, htotal] at hbound
    have hcapacity : (tokenBucketInit byteRate).capacity.toNat = 8000000 := rfl
    have hrate : byteRate.toNat = 8000000 := rfl
    rw [hcapacity, hrate] at hbound
    push_cast at hbound
    have : (refillTimes (a :: run) : ℚ) ≤ hi - lo := by linarith
    exact_mod_cast this

@[simp] theorem refill_tokenBucketInit (rateBps : UInt64) (ts : Timeval) :
    (tokenBucketInit rateBps).refill ts = rateBps := by
  rw [TokenBucket.refill_eq]
  exact if_neg (lt_irrefl 0)

/-- **A size whose bits wrap** is granted although it is more than any capacity. -/
theorem not_rateBounded_of_large {bytes : ℕ} (hlarge : 2 ^ 61 ≤ bytes) (ts : Timeval) :
    ¬ RateBounded 18446744073709551615 [⟨bytes, ts⟩] := by
  intro hbounded
  have hgranted : (tokenBucketConsume (tokenBucketInit 18446744073709551615) bytes ts).2 =
      true := by
    have hle : UInt64.ofNat (bytes * 8) ≤ 18446744073709551615 := by
      rw [UInt64.le_iff_toNat_le]
      have := (UInt64.ofNat (bytes * 8)).toNat_lt
      simp only [UInt64.reduceToNat]
      omega
    simp only [tokenBucketConsume, refill_tokenBucketInit]
    rw [if_pos hle]
  have hbound := hbounded [] [⟨bytes, ts⟩] [] rfl ts.seconds 0 le_rfl (by simp)
  have hbits : grantedBits (tokenBucketInit 18446744073709551615) [⟨bytes, ts⟩] = bytes * 8 := by
    simp [grantedBits, hgranted]
  rw [consumeRun, foldl_nil, hbits, mul_zero, add_zero] at hbound
  have hnat : bytes * 8 ≤ (18446744073709551615 : UInt64).toNat := by exact_mod_cast hbound
  simp only [UInt64.reduceToNat] at hnat
  omega

/-- **The rate limit.** For sizes below 2^61 the bound holds exactly when no run is credited with
more time than passes, which is so when the timestamps never step back. -/
theorem rate_limit_bound_iff (times : List Timeval) :
    (∀ (rateBps : UInt64) (calls : List ConsumeCall),
      (consumeRun (tokenBucketInit rateBps) calls).tokens ≤
        (consumeRun (tokenBucketInit rateBps) calls).capacity) ∧
    ((∀ (rateBps : UInt64) (calls : List ConsumeCall), calls.map ConsumeCall.ts = times →
        (∀ call ∈ calls, call.bytes < 2 ^ 61) → RateBounded rateBps calls) ↔
      CreditWithin times) ∧
    (times.Pairwise (fun s t => s.micros ≤ t.micros) → CreditWithin times) ∧
    ∀ (bytes : ℕ) (ts : Timeval), 2 ^ 61 ≤ bytes →
      ∃ rateBps, ¬ RateBounded rateBps [⟨bytes, ts⟩] := by
  refine ⟨?_, ?_, creditWithin_of_sorted, ?_⟩
  · intro rateBps calls
    have hkept := (kept_tokenBucketInit rateBps).run calls
    rw [hkept.capacity]
    exact hkept.tokens
  · constructor
    · intro hbounded
      exact creditWithin_of_rateBounded fun calls => hbounded byteRate calls
    · rintro hcredit rateBps calls rfl hbytes
      exact rateBounded_of_creditWithin rateBps hcredit hbytes
  · intro bytes ts hlarge
    exact ⟨_, not_rateBounded_of_large hlarge ts⟩

/-- Three calls within half a second, in order. -/
theorem rate_limit_bound_iff_in_order :
    RateBounded 8000000
      [⟨1000000, ⟨10, 0⟩⟩, ⟨200000, ⟨10, 200000⟩⟩, ⟨400000, ⟨10, 500000⟩⟩] := by
  obtain ⟨-, hiff, hsorted, -⟩ := rate_limit_bound_iff [⟨10, 0⟩, ⟨10, 200000⟩, ⟨10, 500000⟩]
  have hcredit := hsorted (by simp [Timeval.micros])
  exact hiff.mpr hcredit 8000000 _ rfl (by simp)

/-- A clock that goes back twice: the capacity and two halves are granted within half a second. -/
theorem clock_stepping_back_over_rate :
    ¬ RateBounded 8000000 [⟨1000000, ⟨10, 0⟩⟩, ⟨0, ⟨9, 500000⟩⟩, ⟨500000, ⟨10, 0⟩⟩,
      ⟨0, ⟨9, 500000⟩⟩, ⟨500000, ⟨10, 0⟩⟩] := by
  intro hbounded
  have hbound := hbounded [] _ [] (by simp; rfl) (19 / 2) (1 / 2) (by norm_num) (by
    intro call hcall
    fin_cases hcall <;> norm_num [Timeval.seconds, Timeval.micros])
  have hbits : grantedBits (consumeRun (tokenBucketInit 8000000) []) [⟨1000000, ⟨10, 0⟩⟩,
      ⟨0, ⟨9, 500000⟩⟩, ⟨500000, ⟨10, 0⟩⟩, ⟨0, ⟨9, 500000⟩⟩, ⟨500000, ⟨10, 0⟩⟩] = 16000000 := by
    decide +kernel
  have hrate : (8000000 : UInt64).toNat = 8000000 := rfl
  rw [hbits, tokenBucketInit, hrate] at hbound
  norm_num at hbound

end CloudProbe.Worker
