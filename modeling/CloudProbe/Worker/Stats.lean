import CloudProbe.Lib.Batching
import CloudProbe.Lib.CarryCounter

/-!
# The counters of the outputs

Bytes and packets are kept as pairs of a low and a high word, here `CarryCounter`s in units of 2^60
bytes and 10^16 packets. An output counts bytes and packets of a packet together, in one of four
`Bucket`s. `Posted` says that the counters moved by exactly what a ledger gained; it speaks of
differences only, so it also holds for outputs that share their counters.
-/

namespace CloudProbe.Worker

open Lib List

/-- `EIB_IN_BYTES`.
Source: `stats.h` -/
def eibInBytes : UInt64 := 1024 * 1024 * 1024 * 1024 * 1024 * 1024

/-- `PETA_IN_PACKETS`.
Source: `stats.h` -/
def petaInPackets : UInt64 := 10000000000000000

theorem eibInBytes_pos : 0 < eibInBytes := by decide

theorem petaInPackets_pos : 0 < petaInPackets := by decide

/-- `bytes_stats_t`: `low` is `bytes`, `high` is `eib`.
Source: `stats.h` -/
abbrev BytesStats := CarryCounter eibInBytes

/-- `packets_stats_t`: `low` is `packets`, `high` is `peta`.
Source: `stats.h` -/
abbrev PacketsStats := CarryCounter petaInPackets

/-- Source: `stats.c` `bytes_stats_add` -/
def bytesStatsAdd (stat : BytesStats) (bytes : UInt64) : BytesStats :=
  stat.add (by decide) bytes

/-- Source: `stats.c` `packets_stats_add` -/
def packetsStatsAdd (stat : PacketsStats) (packets : UInt64) : PacketsStats :=
  stat.add (by decide) packets

/-- Source: `stats.c` `bytes_stats_merge` -/
def bytesStatsMerge (dst src : BytesStats) : BytesStats := dst.merge (by decide) src

/-- Source: `stats.c` `packets_stats_merge` -/
def packetsStatsMerge (dst src : PacketsStats) : PacketsStats := dst.merge (by decide) src

/-- The four outcomes an output counts. -/
inductive Bucket where
  | fwd
  | directionDrop
  | errorDrop
  | ratelimitDrop
deriving DecidableEq, Repr

/-- The nine counters of `output_stats_t`. -/
inductive Counter where
  | bytes (b : Bucket)
  | packets (b : Bucket)
  | heartbeats
deriving DecidableEq

/-- `output_stats_t`.
Source: `stats.h` -/
structure OutputStats where
  fwdBytes : BytesStats
  fwdPackets : PacketsStats
  directionDropBytes : BytesStats
  directionDropPackets : PacketsStats
  errorDropBytes : BytesStats
  errorDropPackets : PacketsStats
  ratelimitDropBytes : BytesStats
  ratelimitDropPackets : PacketsStats
  heartbeatPackets : PacketsStats
  /-- history: the additions to the counters, oldest first -/
  log : List (Counter × ℕ)
deriving DecidableEq

namespace OutputStats

/-- All counters at zero.
Source: `task.c` `task_manager_new`, the zeroed `stats_summary` -/
def zero : OutputStats :=
  let bytes : BytesStats := ⟨0, 0, eibInBytes_pos⟩
  let packets : PacketsStats := ⟨0, 0, petaInPackets_pos⟩
  ⟨bytes, packets, bytes, packets, bytes, packets, bytes, packets, packets, []⟩

def bytes (st : OutputStats) : Bucket → BytesStats
  | .fwd => st.fwdBytes
  | .directionDrop => st.directionDropBytes
  | .errorDrop => st.errorDropBytes
  | .ratelimitDrop => st.ratelimitDropBytes

def packets (st : OutputStats) : Bucket → PacketsStats
  | .fwd => st.fwdPackets
  | .directionDrop => st.directionDropPackets
  | .errorDrop => st.errorDropPackets
  | .ratelimitDrop => st.ratelimitDropPackets

/-- `bytes_stats_add` and `packets_stats_add` on the two counters of a bucket. -/
def count (st : OutputStats) (b : Bucket) (bytes packets : UInt64) : OutputStats :=
  let st : OutputStats :=
    { st with log := st.log ++ [(.bytes b, bytes.toNat), (.packets b, packets.toNat)] }
  match b with
  | .fwd => { st with
      fwdBytes := bytesStatsAdd st.fwdBytes bytes
      fwdPackets := packetsStatsAdd st.fwdPackets packets }
  | .directionDrop => { st with
      directionDropBytes := bytesStatsAdd st.directionDropBytes bytes
      directionDropPackets := packetsStatsAdd st.directionDropPackets packets }
  | .errorDrop => { st with
      errorDropBytes := bytesStatsAdd st.errorDropBytes bytes
      errorDropPackets := packetsStatsAdd st.errorDropPackets packets }
  | .ratelimitDrop => { st with
      ratelimitDropBytes := bytesStatsAdd st.ratelimitDropBytes bytes
      ratelimitDropPackets := packetsStatsAdd st.ratelimitDropPackets packets }

/-- `packets_stats_add` on `heartbeat_packets`. -/
def countHeartbeats (st : OutputStats) (packets : UInt64) : OutputStats :=
  { st with
    heartbeatPackets := packetsStatsAdd st.heartbeatPackets packets
    log := st.log ++ [(.heartbeats, packets.toNat)] }

variable (st : OutputStats)

theorem bytes_count (b c : Bucket) (n m : UInt64) :
    (st.count b n m).bytes c = if b = c then bytesStatsAdd (st.bytes c) n else st.bytes c := by
  cases b <;> cases c <;> rfl

theorem packets_count (b c : Bucket) (n m : UInt64) :
    (st.count b n m).packets c =
      if b = c then packetsStatsAdd (st.packets c) m else st.packets c := by
  cases b <;> cases c <;> rfl

@[simp] theorem heartbeatPackets_count (b : Bucket) (n m : UInt64) :
    (st.count b n m).heartbeatPackets = st.heartbeatPackets := by
  cases b <;> rfl

@[simp] theorem bytes_countHeartbeats (n : UInt64) :
    (st.countHeartbeats n).bytes = st.bytes := rfl

@[simp] theorem packets_countHeartbeats (n : UInt64) :
    (st.countHeartbeats n).packets = st.packets := rfl

end OutputStats

/-! ## Counters and ledgers -/

variable {κ η : Type*}

theorem total_buckets (f : κ → ℕ) (l : Ledger κ Bucket) :
    l.total f (some .fwd) + l.total f (some .directionDrop) + l.total f (some .ratelimitDrop) +
      l.total f (some .errorDrop) + l.total f none = ((l.map Prod.fst).map f).sum := by
  induction l with
  | nil => rfl
  | cons e l ih =>
    rcases e with ⟨k, x⟩
    rw [map_cons, map_cons, sum_cons, ← ih]
    simp only [Ledger.total, map_cons, sum_cons]
    rcases hx : x.bucket with _ | b
    · simp; omega
    · cases b <;> simp <;> omega

/-- From `st` to `st'` every counter moved by what its bucket gained from the ledger `l` to the
ledger `l'`, where an entry `k` weighs one packet and `len k` bytes. -/
structure Posted (len : κ → ℕ) (st st' : OutputStats) (l l' : Ledger κ Bucket) : Prop where
  packets : ∀ b, (st'.packets b).value + l.total (fun _ => 1) (some b) ≡
    (st.packets b).value + l'.total (fun _ => 1) (some b) [MOD CarryCounter.span petaInPackets]
  bytes : ∀ b, (st'.bytes b).value + l.total len (some b) ≡
    (st.bytes b).value + l'.total len (some b) [MOD CarryCounter.span eibInBytes]

theorem modEq_chain {n a b c x y z : ℕ} (h₁ : b + x ≡ a + y [MOD n]) (h₂ : c + y ≡ b + z [MOD n]) :
    c + x ≡ a + z [MOD n] := by
  apply Nat.ModEq.add_right_cancel' (b + y)
  calc c + x + (b + y) = (b + x) + (c + y) := by omega
    _ ≡ (a + y) + (b + z) [MOD n] := h₁.add h₂
    _ = a + z + (b + y) := by omega

namespace Posted

variable {len : κ → ℕ} {st st' st'' : OutputStats} {l l' l'' : Ledger κ Bucket}

theorem refl (st : OutputStats) (l : Ledger κ Bucket) : Posted len st st l l :=
  ⟨fun _ => Nat.ModEq.refl _, fun _ => Nat.ModEq.refl _⟩

theorem trans (h₁ : Posted len st st' l l') (h₂ : Posted len st' st'' l' l'') :
    Posted len st st'' l l'' :=
  ⟨fun b => modEq_chain (h₁.packets b) (h₂.packets b),
    fun b => modEq_chain (h₁.bytes b) (h₂.bytes b)⟩

theorem countHeartbeats (h : Posted len st st' l l') (n : UInt64) :
    Posted len st (st'.countHeartbeats n) l l' :=
  ⟨h.packets, h.bytes⟩

theorem of_total {b : Bucket} {n m : UInt64}
    (hpackets : ∀ c, l'.total (fun _ => 1) (some c) =
      l.total (fun _ => 1) (some c) + if b = c then m.toNat else 0)
    (hbytes : ∀ c, l'.total len (some c) = l.total len (some c) + if b = c then n.toNat else 0) :
    Posted len st (st.count b n m) l l' := by
  constructor
  · intro c
    rw [OutputStats.packets_count, hpackets c]
    split_ifs
    · rw [Nat.add_comm (l.total _ _), ← Nat.add_assoc]
      exact (CarryCounter.value_add (by decide) _ m).add_right _
    · exact Nat.ModEq.refl _
  · intro c
    rw [OutputStats.bytes_count, hbytes c]
    split_ifs
    · rw [Nat.add_comm (l.total _ _), ← Nat.add_assoc]
      exact (CarryCounter.value_add (by decide) _ n).add_right _
    · exact Nat.ModEq.refl _

theorem counted (st : OutputStats) (l : Ledger κ Bucket) (k : κ) (b : Bucket)
    (hlen : len k < 2 ^ 64) :
    Posted len st (st.count b (UInt64.ofNat (len k)) 1) l (l ++ [(k, .counted b)]) := by
  apply of_total
  · intro c
    rw [Ledger.total_concat]
    by_cases hc : b = c <;> simp [Fate.bucket, hc]
  · intro c
    rw [Ledger.total_concat, UInt64.toNat_ofNat', Nat.mod_eq_of_lt hlen]
    by_cases hc : b = c <;> simp [Fate.bucket, hc]

theorem pending (st : OutputStats) (l : Ledger κ Bucket) (k : κ) :
    Posted len st st l (l ++ [(k, .pending)]) := by
  have htotal : ∀ (f : κ → ℕ) (b : Bucket),
      Ledger.total f (some b) (l ++ [(k, .pending)]) = l.total f (some b) := by
    intro f b
    rw [Ledger.total_concat]
    simp [Fate.bucket]
  constructor
  all_goals
    intro b
    rw [htotal]

theorem close (st : OutputStats) (B : Book κ η Bucket) (b : Bucket) {n m : UInt64}
    (hn : n.toNat = ((accounted B.current).map len).sum)
    (hm : m.toNat = (accounted B.current).length) :
    Posted len st (st.count b n m) B.ledger (B.close b).ledger := by
  apply of_total
  · intro c
    rw [B.total_close, hm]
    simp
  · intro c
    rw [B.total_close, hn]

/-- **Reading the counters.** Each holds what it held before plus its bucket, modulo the span of the
counter. -/
theorem value_packets (h : Posted len st st' [] l) (b : Bucket) :
    (st'.packets b).value =
      ((st.packets b).value + l.total (fun _ => 1) (some b)) % CarryCounter.span petaInPackets :=
  CarryCounter.value_eq_mod (h.packets b)

theorem value_bytes (h : Posted len st st' [] l) (b : Bucket) :
    (st'.bytes b).value =
      ((st.bytes b).value + l.total len (some b)) % CarryCounter.span eibInBytes :=
  CarryCounter.value_eq_mod (h.bytes b)

end Posted

end CloudProbe.Worker
