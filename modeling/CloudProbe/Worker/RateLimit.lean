import CloudProbe.Worker.Packet
import CloudProbe.Worker.Stats

/-!
# The rate limiter and the checks before a packet is carried

The refill of the token bucket is computed in exact arithmetic on microseconds and rounded down; the
tokens are a `uint64_t` and wrap like one. Every output makes the same checks (`passChecks`): a
packet of unknown direction is dropped, then the rate limit is charged with the counted length.
-/

namespace CloudProbe.Worker

/-- `token_bucket_t`.
Source: `ratelimit.h` -/
structure TokenBucket where
  rateBps : UInt64
  capacity : UInt64
  tokens : UInt64
  lastTs : Timeval
deriving DecidableEq

/-- The difference of two times in microseconds.
Source: `ratelimit.c` `timeval_diff` -/
def timevalDiff (a b : Timeval) : ℤ :=
  (a.sec - b.sec) * 1000000 + (a.usec - b.usec)

/-- Source: `ratelimit.c` `token_bucket_init` -/
def tokenBucketInit (rateBps : UInt64) : TokenBucket where
  rateBps := rateBps
  capacity := rateBps
  tokens := rateBps
  lastTs := ⟨0, 0⟩

/-- The tokens after the refill for the time since the last call. The source computes the seconds
and their product with the rate in `double`; here it is exact, in microseconds.
Source: `ratelimit.c` `token_bucket_consume`, first half -/
def TokenBucket.refill (tb : TokenBucket) (ts : Timeval) : UInt64 :=
  if 0 < tb.lastTs.sec then
    let elapsed := timevalDiff ts tb.lastTs
    let tokens :=
      if 1000000 ≤ elapsed then tb.tokens + tb.rateBps
      else if 0 < elapsed then
        tb.tokens + UInt64.ofNat (elapsed.toNat * tb.rateBps.toNat / 1000000)
      else tb.tokens
    if tb.capacity < tokens then tb.capacity else tokens
  else tb.tokens

/-- Source: `ratelimit.c` `token_bucket_consume` -/
def tokenBucketConsume (tb : TokenBucket) (bytes : ℕ) (ts : Timeval) : TokenBucket × Bool :=
  let tokens := tb.refill ts
  let required := UInt64.ofNat (bytes * 8)
  if required ≤ tokens then ({ tb with tokens := tokens - required, lastTs := ts }, true)
  else ({ tb with tokens := tokens, lastTs := ts }, false)

/-- The throttle of an output with the given `rate_limit_mbps`; without a limit it is never used.
Source: `output_zmq.c` `zmq_output_new` and its like -/
def throttleNew (rateLimitMbps : UInt64) : TokenBucket :=
  if 0 < rateLimitMbps then tokenBucketInit (rateLimitMbps * 1000000) else tokenBucketInit 0

/-- Whether the rate limit of an output lets `len` bytes pass at time `ts`. -/
def granted (rateLimitMbps : UInt64) (throttle : TokenBucket) (len : ℕ) (ts : Timeval) : Bool :=
  rateLimitMbps = 0 || (tokenBucketConsume throttle len ts).2

/-- The checks an output makes before it carries `len` bytes: the throttle after them, and the
bucket of the packet when it is dropped. Source: `zmq_send_packet`, `vxlan_send_packet`,
`gre_send_packet`, `file_write_packet`, `rotating_file_write_packet` -/
def passChecks (rateLimitMbps : UInt64) (throttle : TokenBucket) (len : ℕ) (ts : Timeval)
    (direct : PktDir) : TokenBucket × Option Bucket :=
  if direct = .unknown then (throttle, some .directionDrop)
  else if 0 < rateLimitMbps then
    let consumed := tokenBucketConsume throttle len ts
    (consumed.1, if consumed.2 then none else some .ratelimitDrop)
  else (throttle, none)

theorem passChecks_snd (rateLimitMbps : UInt64) (throttle : TokenBucket) (len : ℕ) (ts : Timeval)
    (direct : PktDir) :
    (passChecks rateLimitMbps throttle len ts direct).2 =
      if direct = .unknown then some .directionDrop
      else if granted rateLimitMbps throttle len ts then none
      else some .ratelimitDrop := by
  simp only [passChecks, granted]
  by_cases hd : direct = .unknown
  · simp [hd]
  · by_cases hr : rateLimitMbps = 0
    · simp [hd, hr]
    · have hpos : 0 < rateLimitMbps := UInt64.pos_iff_ne_zero.mpr hr
      simp [hd, hr, hpos]

/-- The bucket of a packet that an output counts at once: dropped by one of the checks, or else
`carried` or not. -/
def outcomeBucket (direct : PktDir) (granted : Bool) (carried : Prop) [Decidable carried] :
    Bucket :=
  if direct = .unknown then .directionDrop
  else if granted then if carried then .fwd else .errorDrop
  else .ratelimitDrop

theorem outcomeBucket_eq_fwd (direct : PktDir) (granted : Bool) (carried : Prop)
    [Decidable carried] :
    outcomeBucket direct granted carried = .fwd ↔
      direct ≠ .unknown ∧ granted = true ∧ carried := by
  rw [outcomeBucket]
  split_ifs <;> simp_all

theorem outcomeBucket_eq_getD (rateLimitMbps : UInt64) (throttle : TokenBucket) (len : ℕ)
    (ts : Timeval) (direct : PktDir) (carried : Prop) [Decidable carried] :
    outcomeBucket direct (granted rateLimitMbps throttle len ts) carried =
      (passChecks rateLimitMbps throttle len ts direct).2.getD
        (if carried then .fwd else .errorDrop) := by
  rw [passChecks_snd, outcomeBucket]
  split_ifs <;> rfl

end CloudProbe.Worker
