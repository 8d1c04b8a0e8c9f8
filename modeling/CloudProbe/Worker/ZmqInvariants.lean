import CloudProbe.Worker.ZmqBook

/-!
# Invariants of the batches

What holds of the batches of a zmq output after any calls and flushes. A property of the output, its
open batch and its closed batches that every write to the buffer and every flush keeps is kept by
the calls (`BatchRule.run`).
-/

namespace CloudProbe.Worker

open Lib List Option

/-! ## Calls and flushes -/

/-- A call of the output, or a flush from outside. -/
inductive ZmqOp where
  | call (c : Call)
  | flush
deriving DecidableEq

/-- The time a call is made at; a flush has none. -/
def ZmqOp.time : ZmqOp → Option ℤ
  | .call (.sendPacket h) => some h.packet.hdr.ts.sec
  | .call (.heartbeat now) => some now
  | .flush => none

/-- Source: `output_zmq.c` `zmq_send_packet`, `zmq_heartbeat`, `zmq_flush_packet` -/
def zmqOp (env : Env) (o : ZmqOutput) : ZmqOp → ZmqOutput
  | .call c => zmqCall env o c
  | .flush => zmqFlushPacket env o

def zmqOps (env : Env) (o : ZmqOutput) (ops : List ZmqOp) : ZmqOutput := ops.foldl (zmqOp env) o

/-- The packet accepted or the heartbeat generated by one call. -/
def zmqRecorded (env : Env) (o : ZmqOutput) : ZmqOp → List ZmqItem
  | .call (.sendPacket h) => if (zmqSendPacket env o h).2 = 0 then [.inl h] else []
  | .call (.heartbeat now) => ((zmqBeat env o now).map .inr).toList
  | .flush => []

/-- The packets accepted and the heartbeats generated by a list of calls and flushes, in order. -/
def zmqRecords (env : Env) : ZmqOutput → List ZmqOp → List ZmqItem
  | _, [] => []
  | o, op :: ops => zmqRecorded env o op ++ zmqRecords env (zmqOp env o op) ops

/-! ## The rule -/

/-- The open batch is not older than a second at time `now`, as far as the output can tell. -/
def NotStale (o : ZmqOutput) (batch : List ZmqItem) (now : ℤ) : Prop :=
  batch = [] ∨ o.firstPktsec = 0 ∨ now ≤ o.firstPktsec + zmqPktsFlushMaxDurSec

/-- A property of the output, its open batch and its closed batches that every write to the buffer
and every flush keeps, if the packets written meet `valid`. -/
structure BatchRule (env : Env) (opts : ZmqOptions) (valid : Handed → Prop)
    (P : ZmqOutput → List ZmqItem → List (List ZmqItem) → Prop) : Prop where
  pending : ∀ {o batch closed}, P o batch closed → Pending opts o batch
  /-- what is not about the batches does not matter -/
  other : ∀ {o batch closed}, P o batch closed → ∀ stats throttle errorInfo lastPktTv clockReads,
    P { o with stats, throttle, errorInfo, lastPktTv, clockReads } batch closed
  flush : ∀ {o batch closed}, P o batch closed →
    P (zmqFlushPacket env o) [] (closed ++ [batch])
  /-- a packet is written: an empty batch starts with it, another one keeps its time -/
  accept : ∀ {o batch closed hd first}, P o batch closed → valid hd → zmqL2Len hd.packet ≠ 0 →
    o.batchBufpos + zmqRecordHdrLen + zmqRecordLen opts.slice hd.packet ≤ zmqMaxBatchBufSize →
    (batch = [] ∨ o.firstPktsec = 0 → first = hd.packet.hdr.ts.sec) →
    (batch ≠ [] → o.firstPktsec ≠ 0 →
      first = o.firstPktsec ∧ hd.packet.hdr.ts.sec ≤ first + zmqPktsFlushMaxDurSec) →
    P { zmqAppend (o.startAt first) (zmqDataRecord o.serviceTag o.slice hd) with
        dataBytes := o.dataBytes + UInt32.ofNat (zmqFrameLen opts.slice hd.packet)
        lastPktTv := hd.packet.hdr.ts } (batch ++ [.inl hd]) closed
  /-- a heartbeat is written and the batch flushed -/
  beat : ∀ {o batch closed tv}, P o batch closed →
    o.batchBufpos + zmqRecordHdrLen + etherHeaderLen ≤ zmqMaxBatchBufSize → ∀ first,
    P (zmqFlushPacket env { zmqAppend (o.startAt first) (zmqHeartbeatRecord tv) with
        heartbeatNum := o.heartbeatNum + 1 }) [] (closed ++ [batch ++ [.inr tv]])

/-- The packets handed over meet `valid`. -/
def ZmqOp.Valid (valid : Handed → Prop) : ZmqOp → Prop
  | .call (.sendPacket h) => valid h
  | _ => True

namespace BatchRule

variable {env : Env} {opts : ZmqOptions} {valid : Handed → Prop}
  {P : ZmqOutput → List ZmqItem → List (List ZmqItem) → Prop} {o : ZmqOutput}
  {batch : List ZmqItem} {closed : List (List ZmqItem)}

variable (rule : BatchRule env opts valid P)

include rule

theorem eq_nil_iff (h : P o batch closed) :
    batch = [] ↔ o.pktsNum = 0 := by
  constructor
  · rintro rfl
    exact (rule.pending h).of_nil.1
  · exact (rule.pending h).eq_nil

theorem flushIfStale (h : P o batch closed) (now : ℤ) :
    ∃ batch' closed', P (zmqFlushIfStale env o now) batch' closed' ∧
      closed'.flatten ++ batch' = closed.flatten ++ batch ∧
      NotStale (zmqFlushIfStale env o now) batch' now := by
  rw [zmqFlushIfStale]
  split_ifs with hstale
  · exact ⟨[], _, rule.flush h, by simp, .inl rfl⟩
  · refine ⟨batch, closed, h, rfl, ?_⟩
    by_cases hnil : batch = []
    · exact .inl hnil
    · have hpos : 0 < o.pktsNum := UInt16.pos_iff_ne_zero.mpr ((rule.eq_nil_iff h).not.mp hnil)
      by_cases hzero : o.firstPktsec = 0
      · exact .inr (.inl hzero)
      · exact .inr (.inr (not_lt.mp fun hlt => hstale ⟨hpos, hzero, hlt⟩))

/-- A packet keeps the property, and leaves no stale batch. -/
theorem addPacket (h : P o batch closed) {hd : Handed} (hvalid : valid hd)
    (hl2 : zmqL2Len hd.packet ≠ 0) :
    ∃ batch' closed', P (zmqAddPacket env o hd) batch' closed' ∧
      closed'.flatten ++ batch' = closed.flatten ++ batch ++ [.inl hd] ∧
      NotStale (zmqAddPacket env o hd) batch' hd.packet.hdr.ts.sec := by
  have hslice := (rule.pending h).slice
  have hrecord : zmqRecordLen o.slice hd.packet < 2 ^ 16 := Nat.mod_lt _ (by decide)
  rcases zmqMakeRoom_cases env (rule.pending h) hd.packet.hdr.ts.sec hrecord with
    ⟨-, heq⟩ | ⟨first, heq, hroom, hnew, hold⟩
  · have hroom : (zmqFlushPacket env o).batchBufpos + zmqRecordHdrLen +
        zmqRecordLen opts.slice hd.packet ≤ zmqMaxBatchBufSize := by
      rw [hslice] at hrecord
      simp only [zmqFlushPacket, zmqBatchHdrLen, zmqRecordHdrLen, zmqMaxBatchBufSize]
      omega
    have hadded := rule.accept (rule.flush h) hvalid hl2 hroom (fun _ => rfl)
      fun hne => absurd rfl hne
    simp only [zmqAddPacket, heq]
    rw [← hslice] at hadded
    refine ⟨_, _, hadded, by simp, .inr (.inr ?_)⟩
    simp only [zmqAppend, ZmqOutput.startAt, zmqPktsFlushMaxDurSec]
    omega
  · rw [← rule.eq_nil_iff h] at hnew
    rw [ne_eq, ← rule.eq_nil_iff h] at hold
    rw [hslice] at hroom
    have hadded := rule.accept h hvalid hl2 hroom hnew hold
    simp only [zmqAddPacket, heq]
    rw [← hslice] at hadded
    refine ⟨_, _, hadded, by simp, ?_⟩
    simp only [NotStale, zmqAppend, ZmqOutput.startAt]
    by_cases hfirst : batch = [] ∨ o.firstPktsec = 0
    · rw [hnew hfirst]
      simp only [zmqPktsFlushMaxDurSec]
      omega
    · rw [not_or] at hfirst
      exact .inr (.inr (hold hfirst.1 hfirst.2).2)

/-- A packet call keeps the property. -/
theorem sendPacket (h : P o batch closed) {hd : Handed} (hvalid : valid hd) :
    ∃ batch' closed', P (zmqSendPacket env o hd).1 batch' closed' ∧
      closed'.flatten ++ batch' = closed.flatten ++ batch ++
        (if (zmqSendPacket env o hd).2 = 0 then [.inl hd] else []) ∧
      NotStale (zmqSendPacket env o hd).1 batch' hd.packet.hdr.ts.sec := by
  simp only [zmqSendPacket_snd_eq_zero]
  by_cases hl2 : zmqL2Len hd.packet = 0
  · have hverdict : zmqVerdict o hd = some .errorDrop := by rw [zmqVerdict, if_pos hl2]
    simp only [zmqSendPacket, hl2, if_true, hverdict, reduceCtorEq, if_false, append_nil]
    exact rule.flushIfStale (rule.other h _ o.throttle _ o.lastPktTv o.clockReads) _
  · simp only [zmqSendPacket, hl2, if_false, ← zmqVerdict_eq_passChecks hl2]
    cases zmqVerdict o hd with
    | some b =>
      simp only [reduceCtorEq, if_false, append_nil]
      exact rule.flushIfStale (rule.other h _ _ o.errorInfo o.lastPktTv o.clockReads) _
    | none =>
      simp only [if_true]
      exact rule.addPacket (rule.other h o.stats _ o.errorInfo o.lastPktTv o.clockReads) hvalid
        hl2

/-- A heartbeat that is generated closes its batch. -/
theorem sendHeartbeat (h : P o batch closed) (tv : Timeval) :
    ∃ closed', P (zmqSendHeartbeatPacket env o tv) [] closed' ∧
      closed'.flatten = closed.flatten ++ batch ++ [.inr tv] := by
  -- `o` keeps the time of its first record, or the heartbeat is the first
  have hwritten : ∀ {o batch closed}, P o batch closed →
      o.batchBufpos + zmqRecordHdrLen + etherHeaderLen ≤ zmqMaxBatchBufSize →
      let started := if o.pktsNum = 0 then o.startAt tv.sec else o
      P { zmqFlushPacket env { zmqAppend started (zmqHeartbeatRecord tv) with
          heartbeatNum := started.heartbeatNum + 1 } with lastPktTv := tv } []
        (closed ++ [batch ++ [.inr tv]]) := by
    intro o batch closed h hroom
    dsimp only
    split_ifs
    · exact rule.other (rule.beat h hroom tv.sec) _ _ _ tv _
    · exact rule.other (rule.beat h hroom o.firstPktsec) _ _ _ tv _
  obtain ⟨batch', hcases, -, hroom⟩ := zmqHeartbeatRoom_pending env (rule.pending h)
  rw [zmqSendHeartbeatPacket_eq, zmqHeartbeatStart]
  rcases hcases with ⟨-, heq⟩ | ⟨-, -, heq⟩
  · rw [heq] at hroom ⊢
    exact ⟨_, hwritten h hroom, by simp⟩
  · rw [heq] at hroom ⊢
    exact ⟨_, hwritten (rule.flush h) hroom, by simp⟩

/-- A heartbeat call keeps the property. -/
theorem heartbeat (h : P o batch closed) (now : ℤ) :
    ∃ batch' closed', P (zmqHeartbeat env o now) batch' closed' ∧
      closed'.flatten ++ batch' =
        closed.flatten ++ batch ++ ((zmqBeat env o now).map .inr).toList ∧
      NotStale (zmqHeartbeat env o now) batch' now := by
  obtain ⟨batch₁, closed₁, h₁, hitems, hstale⟩ := rule.flushIfStale h now
  rw [← zmqBeat_flushIfStale env o now now, ← hitems]
  simp only [zmqHeartbeat]
  generalize zmqFlushIfStale env o now = flushed at h₁ hstale ⊢
  simp only [zmqBeat]
  by_cases hms : flushed.heartbeatMs ≤ 0
  · rw [if_pos hms, if_neg (by omega)]
    exact ⟨batch₁, closed₁, h₁, by simp, hstale⟩
  by_cases hgate : (now - flushed.lastPktTv.sec) * 1000 < flushed.heartbeatMs - 1000
  · rw [if_neg hms, if_pos hgate, if_neg (by omega)]
    exact ⟨batch₁, closed₁, h₁, by simp, hstale⟩
  rw [if_neg hms, if_neg hgate]
  have hread := rule.other h₁ flushed.stats flushed.throttle flushed.errorInfo flushed.lastPktTv
    (flushed.clockReads + 1)
  by_cases hdue : flushed.heartbeatDue (env.gettimeofday flushed.clockReads) = true
  · rw [if_pos hdue, if_pos ⟨by omega, by omega, hdue⟩]
    obtain ⟨closed₂, h₂, hitems₂⟩ := rule.sendHeartbeat hread (env.gettimeofday flushed.clockReads)
    exact ⟨[], closed₂, h₂, by simpa using hitems₂, .inl rfl⟩
  · rw [if_neg hdue, if_neg (by tauto)]
    exact ⟨batch₁, closed₁, hread, by simp, hstale⟩

/-- **The step lemma**: a call or a flush keeps the property. -/
theorem op (h : P o batch closed) {op : ZmqOp} (hvalid : op.Valid valid) :
    ∃ batch' closed', P (zmqOp env o op) batch' closed' ∧
      closed'.flatten ++ batch' = closed.flatten ++ batch ++ zmqRecorded env o op ∧
      ∀ t, op.time = some t → NotStale (zmqOp env o op) batch' t := by
  cases op with
  | call c =>
    cases c with
    | sendPacket hd =>
      obtain ⟨batch', closed', h', hitems, hstale⟩ := rule.sendPacket h hvalid
      exact ⟨batch', closed', h', hitems, fun t ht => some.inj ht ▸ hstale⟩
    | heartbeat now =>
      obtain ⟨batch', closed', h', hitems, hstale⟩ := rule.heartbeat h now
      exact ⟨batch', closed', h', hitems, fun t ht => some.inj ht ▸ hstale⟩
  | flush => exact ⟨[], _, rule.flush h, by simp [zmqRecorded], by simp [ZmqOp.time]⟩

/-- **The run lemma.** The property holds after any calls and flushes, and the last call left no
stale batch. -/
theorem ops (h : P o batch closed) (ops : List ZmqOp) (hvalid : ∀ op ∈ ops, op.Valid valid) :
    ∃ batch' closed', P (zmqOps env o ops) batch' closed' ∧
      closed'.flatten ++ batch' = closed.flatten ++ batch ++ zmqRecords env o ops ∧
      ∀ op ∈ ops.getLast?, ∀ t, op.time = some t → NotStale (zmqOps env o ops) batch' t := by
  induction ops generalizing o batch closed with
  | nil => exact ⟨batch, closed, h, by simp [zmqRecords], by simp⟩
  | cons op ops ih =>
    obtain ⟨batch₁, closed₁, h₁, hitems₁, hstale₁⟩ := rule.op h (hvalid op (.head _))
    obtain ⟨batch₂, closed₂, h₂, hitems₂, hstale₂⟩ :=
      ih h₁ fun op' hop => hvalid op' (.tail _ hop)
    by_cases hnil : ops = []
    · subst hnil
      refine ⟨batch₁, closed₁, h₁, by simp [zmqRecords, hitems₁], ?_⟩
      intro op' hop t ht
      simp only [List.getLast?_singleton, mem_some_iff] at hop
      subst hop
      exact hstale₁ t ht
    · refine ⟨batch₂, closed₂, h₂, ?_, ?_⟩
      · rw [hitems₂, hitems₁, zmqRecords, append_assoc]
      · rw [List.getLast?_cons_of_ne_nil hnil]
        exact hstale₂

end BatchRule

/-! ## The buffer -/

/-- The open batch is pending, and the messages on the wire are the closed batches. -/
structure Batches (opts : ZmqOptions) (o : ZmqOutput) (batch : List ZmqItem)
    (closed : List (List ZmqItem)) : Prop where
  pending : Pending opts o batch
  wire : o.wire.map Prod.fst = closed.map opts.message

namespace Batches

variable {opts : ZmqOptions} {o : ZmqOutput} {batch : List ZmqItem} {closed : List (List ZmqItem)}

theorem flush (h : Batches opts o batch closed) (env : Env) :
    Batches opts (zmqFlushPacket env o) [] (closed ++ [batch]) where
  pending := h.pending.flush env
  wire := by
    rw [map_append, ← h.wire]
    simp only [zmqFlushPacket, map_append, map_cons, map_nil, h.pending.message_eq]

theorem rule (env : Env) (opts : ZmqOptions) (valid : Handed → Prop) :
    BatchRule env opts valid (Batches opts) where
  pending h := h.pending
  other h _ _ _ _ _ := ⟨{ h.pending with }, h.wire⟩
  flush h := h.flush env
  accept {_ _ _ _ first} h _ hl2 hroom _ _ :=
    ⟨(h.pending.startAt first).accept hl2 hroom _, h.wire⟩
  beat h hroom first :=
    Batches.flush ⟨(h.pending.startAt first).insert _ hroom, h.wire⟩ env

end Batches

def ZmqOptions.recordLen (opts : ZmqOptions) : ZmqItem → ℕ
  | .inl h => zmqRecordLen opts.slice h.packet
  | .inr _ => etherHeaderLen

/-- The record length of an item before it is cut to 16 bits. -/
def ZmqOptions.uncutLen (opts : ZmqOptions) : ZmqItem → ℕ
  | .inl h => zmqFrameLen opts.slice h.packet + mplsHeaderLen
  | .inr _ => etherHeaderLen

/-- The bytes an item adds to `data_bytes`. -/
def ZmqOptions.dataLen (opts : ZmqOptions) : ZmqItem → ℕ
  | .inl h => zmqFrameLen opts.slice h.packet
  | .inr _ => 0

/-- The position and the counters of the buffer are those of the pending records. -/
structure BufferKept (opts : ZmqOptions) (o : ZmqOutput) (batch : List ZmqItem) : Prop where
  bufpos_ge : zmqBatchHdrLen ≤ o.batchBufpos
  bufpos_le : o.batchBufpos ≤ zmqMaxBatchBufSize
  bufpos : o.batchBufpos =
    zmqBatchHdrLen + (batch.map fun x => zmqRecordHdrLen + opts.recordLen x).sum
  buf : o.buf.take (o.batchBufpos - zmqBatchHdrLen) = batch.flatMap opts.encode
  pktsNum : o.pktsNum.toNat = batch.length
  heartbeatNum : o.heartbeatNum.toNat = (batch.filter Sum.isRight).length
  dataBytes : o.dataBytes.toNat = (batch.map opts.dataLen).sum
  lengths : ∀ x ∈ batch, opts.recordLen x = opts.uncutLen x ∧ opts.uncutLen x < 2 ^ 16
  count : o.pktsNum < zmqPktsFlushMaxNum

/-- The record of `x` can be written: it ends within the buffer, its length fits 16 bits, no counter
wraps, and the batch is not full by its count. -/
structure WriteFits (opts : ZmqOptions) (o : ZmqOutput) (x : ZmqItem) : Prop where
  room : o.batchBufpos + (zmqRecordHdrLen + opts.uncutLen x) ≤ zmqMaxBatchBufSize
  length : (opts.encode x).length = zmqRecordHdrLen + opts.uncutLen x
  uncut : opts.uncutLen x < 2 ^ 16
  pktsNum : o.pktsNum.toNat + 1 < 2 ^ 16
  heartbeatNum : o.heartbeatNum.toNat + 1 < 2 ^ 16
  dataBytes : o.dataBytes.toNat + opts.dataLen x < 2 ^ 32
  count : o.pktsNum < zmqPktsFlushMaxNum

section Buffer

variable {opts : ZmqOptions} {o : ZmqOutput} {batch : List ZmqItem}

variable {x : ZmqItem}

theorem ZmqItem.Whole.recordLen_eq (opts : ZmqOptions) (h : x.Whole) :
    opts.recordLen x = opts.uncutLen x ∧ opts.uncutLen x < 2 ^ 16 := by
  cases x with
  | inl hd =>
    have hmax := (zmqFrameLen_bounds opts.slice h).2.2
    refine ⟨zmqRecordLen_eq opts.slice h, ?_⟩
    simp only [ZmqOptions.uncutLen, zmqMaxFrameLen, mplsHeaderLen] at *
    omega
  | inr tv => exact ⟨rfl, (by decide : etherHeaderLen < 2 ^ 16)⟩

theorem ZmqItem.Whole.length_encode (h : x.Whole) :
    (opts.encode x).length = zmqRecordHdrLen + opts.recordLen x := by
  cases x with
  | inl hd => exact length_zmqDataRecord _ _ h
  | inr tv => exact length_zmqHeartbeatRecord tv

theorem length_flatMap_encode (h : ∀ x ∈ batch, ZmqItem.Whole x) :
    (batch.flatMap opts.encode).length =
      (batch.map fun x => zmqRecordHdrLen + opts.recordLen x).sum := by
  rw [length_flatMap]
  congr 1
  exact map_congr_left fun x hx => (h x hx).length_encode

theorem length_others (batch : List ZmqItem) :
    (others batch).length = (batch.filter Sum.isRight).length := by
  induction batch with
  | nil => rfl
  | cons x batch ih => cases x <;> simp [ih, filter_cons]

theorem sum_countedLen (h : ∀ x ∈ batch, ZmqItem.Whole x) :
    ((accounted batch).map opts.countedLen).sum = (batch.map opts.dataLen).sum := by
  induction batch with
  | nil => rfl
  | cons x batch ih =>
    have hrest := ih fun y hy => h y (.tail _ hy)
    cases x with
    | inl hd =>
      have hl2 : zmqL2Len hd.packet ≠ 0 := h (.inl hd) (.head _)
      simp only [accounted_inl, map_cons, sum_cons, hrest, ZmqOptions.countedLen,
        if_neg hl2, ZmqOptions.dataLen]
    | inr tv =>
      simp only [accounted_inr, map_cons, sum_cons, hrest, ZmqOptions.dataLen, Nat.zero_add]

theorem Pending.bufferKept (h : Pending opts o batch) : BufferKept opts o batch where
  bufpos_ge := h.bufpos ▸ Nat.le_add_right _ _
  bufpos_le := h.fits
  bufpos := by rw [h.bufpos, length_flatMap_encode h.whole]
  buf := h.buf
  pktsNum := h.num
  heartbeatNum := by rw [h.heartbeats, length_others]
  dataBytes := by rw [h.data, sum_countedLen h.whole]
  lengths x hx := (h.whole x hx).recordLen_eq opts
  count := h.pktsNum_lt

theorem Pending.writeFits (h : Pending opts o batch) (hx : x.Whole)
    (hroom : o.batchBufpos + zmqRecordHdrLen + opts.recordLen x ≤ zmqMaxBatchBufSize) :
    WriteFits opts o x := by
  obtain ⟨hlen, hlt⟩ := hx.recordLen_eq opts
  have hnum := h.num
  have hbound := h.length_le
  have hparts := length_accounted_add_others batch
  have hbeats := h.heartbeats
  refine ⟨by omega, by rw [hx.length_encode, hlen], hlt, by omega, by omega, ?_, h.pktsNum_lt⟩
  cases x with
  | inl hd => exact h.dataBytes_add_lt (zmqFrameLen_bounds opts.slice hx).2.2
  | inr tv => exact o.dataBytes.toNat_lt

theorem Pending.writeFits_packet (h : Pending opts o batch) (env : Env) {hd : Handed}
    (hl2 : zmqL2Len hd.packet ≠ 0) :
    WriteFits opts
      (zmqMakeRoom env o hd.packet.hdr.ts.sec (zmqRecordLen o.slice hd.packet)) (.inl hd) := by
  have hlen : zmqRecordLen o.slice hd.packet < 2 ^ 16 := Nat.mod_lt _ (by decide)
  obtain ⟨batch', -, hpending, hroom⟩ := zmqMakeRoom_pending env h hd.packet.hdr.ts.sec hlen
  refine hpending.writeFits hl2 ?_
  rw [ZmqOptions.recordLen, ← h.slice]
  exact hroom

theorem Pending.writeFits_heartbeat (h : Pending opts o batch) (env : Env) (tv : Timeval) :
    WriteFits opts (zmqHeartbeatRoom env o) (.inr tv) := by
  obtain ⟨batch', -, hpending, hroom⟩ := zmqHeartbeatRoom_pending env h
  exact hpending.writeFits trivial hroom

end Buffer

/-- **The batch buffer** holds the records accepted and generated since the last flush, its position
and counters are theirs, and the next write fits whatever it is. -/
theorem zmq_batch_buffer_invariant (env : Env) (opts : ZmqOptions) (stats : OutputStats)
    (ops : List ZmqOp) :
    let new := zmqOutputNew env opts stats
    let o := zmqOps env new ops
    ∃ (batch : List ZmqItem) (closed : List (List ZmqItem)),
      closed.flatten ++ batch = zmqRecords env new ops ∧
      o.wire.map Prod.fst = closed.map opts.message ∧
      BufferKept opts o batch ∧
      (∀ (hd : Handed) (throttle : TokenBucket), zmqL2Len hd.packet ≠ 0 →
        WriteFits opts (zmqMakeRoom env { o with throttle } hd.packet.hdr.ts.sec
          (zmqRecordLen o.slice hd.packet)) (.inl hd)) ∧
      (∀ (now : ℤ) (clockReads : ℕ) (tv : Timeval),
        WriteFits opts (zmqHeartbeatRoom env { zmqFlushIfStale env o now with clockReads })
          (.inr tv)) := by
  have hrule := Batches.rule env opts fun _ => True
  obtain ⟨batch, closed, h, hitems, -⟩ := hrule.ops
    ⟨pending_new env opts stats, (rfl : _ = List.map opts.message [])⟩ ops
    fun op _ => by unfold ZmqOp.Valid; split <;> trivial
  refine ⟨batch, closed, by simpa using hitems, h.wire, h.pending.bufferKept, ?_, ?_⟩
  · intro hd throttle hl2
    have hthrottled : Pending opts { zmqOps env (zmqOutputNew env opts stats) ops with throttle }
        batch := { h.pending with }
    exact hthrottled.writeFits_packet env hl2
  · intro now clockReads tv
    obtain ⟨batch', closed', hflushed, -⟩ := hrule.flushIfStale h now
    have hread : Pending opts { zmqFlushIfStale env
        (zmqOps env (zmqOutputNew env opts stats) ops) now with clockReads } batch' :=
      { hflushed.pending with }
    exact hread.writeFits_heartbeat env tv

/-! ## Staleness -/

def ZmqItem.sec : ZmqItem → ℤ
  | .inl hd => hd.packet.hdr.ts.sec
  | .inr tv => tv.sec

/-- Time `t` is at most a second after the first record of the batch, if it has one. -/
def WithinSecond (batch : List ZmqItem) (t : ℤ) : Prop :=
  ∀ x ∈ batch.head?, t ≤ ZmqItem.sec x + 1

/-- The data records of a batch are at most a second later than its first record. -/
def FreshBatch (batch : List ZmqItem) : Prop :=
  ∀ hd, .inl hd ∈ batch → WithinSecond batch hd.packet.hdr.ts.sec

/-- The batches are fresh, and the output knows the time of the first record of the open one. -/
structure FreshBatches (opts : ZmqOptions) (o : ZmqOutput) (batch : List ZmqItem)
    (closed : List (List ZmqItem)) : Prop extends Batches opts o batch closed where
  closed_fresh : ∀ b ∈ closed, FreshBatch b
  fresh : FreshBatch batch
  /-- 0 stands for no time, so the time is never mistaken for none -/
  first : ∀ x ∈ batch.head?, ZmqItem.sec x = o.firstPktsec ∧ 1 ≤ ZmqItem.sec x

namespace FreshBatches

variable {opts : ZmqOptions} {o : ZmqOutput} {batch : List ZmqItem} {closed : List (List ZmqItem)}

theorem fresh_append_inr (h : FreshBatch batch) (tv : Timeval) :
    FreshBatch (batch ++ [.inr tv]) := by
  intro hd hmem x hx
  cases batch with
  | nil => simp at hmem
  | cons y batch =>
    refine h hd ?_ x hx
    simpa using hmem

theorem fresh_append_inl (h : FreshBatch batch) {hd : Handed}
    (hwithin : WithinSecond batch hd.packet.hdr.ts.sec) : FreshBatch (batch ++ [.inl hd]) := by
  intro hd' hmem x hx
  cases batch with
  | nil =>
    simp only [nil_append, List.head?_cons, mem_some_iff] at hx
    simp only [nil_append, mem_singleton, Sum.inl.injEq] at hmem
    subst hx hmem
    exact Int.le_add_one le_rfl
  | cons y batch =>
    rcases mem_append.mp hmem with hmem | hmem
    · exact h hd' hmem x hx
    · simp only [mem_singleton, Sum.inl.injEq] at hmem
      exact hmem ▸ hwithin x hx

theorem close {batch' : List ZmqItem} (env : Env) {o' : ZmqOutput}
    (hclosed : ∀ b ∈ closed, FreshBatch b) (hfresh : FreshBatch batch')
    (h : Batches opts (zmqFlushPacket env o') [] (closed ++ [batch'])) :
    FreshBatches opts (zmqFlushPacket env o') [] (closed ++ [batch']) where
  toBatches := h
  closed_fresh := by
    intro b hb
    rcases mem_append.mp hb with hb | hb
    · exact hclosed b hb
    · exact mem_singleton.mp hb ▸ hfresh
  fresh := by simp [FreshBatch]
  first := by simp

/-- A packet within a second keeps the batch fresh. -/
theorem accept (h : FreshBatches opts o batch closed) {hd : Handed} {first : ℤ} {o' : ZmqOutput}
    (hsec : 1 ≤ hd.packet.hdr.ts.sec) (hfirst : o'.firstPktsec = first)
    (hnew : batch = [] ∨ o.firstPktsec = 0 → first = hd.packet.hdr.ts.sec)
    (hold : batch ≠ [] → o.firstPktsec ≠ 0 →
      first = o.firstPktsec ∧ hd.packet.hdr.ts.sec ≤ first + zmqPktsFlushMaxDurSec)
    (hbatches : Batches opts o' (batch ++ [.inl hd]) closed) :
    FreshBatches opts o' (batch ++ [.inl hd]) closed := by
  refine { toBatches := hbatches, closed_fresh := h.closed_fresh, fresh := ?_, first := ?_ }
  · apply fresh_append_inl h.fresh
    intro x hx
    obtain ⟨heq, hpos⟩ := h.first x hx
    have hne : batch ≠ [] := by
      rintro rfl
      simp at hx
    obtain ⟨hsame, hle⟩ := hold hne (by omega)
    rw [heq, ← hsame]
    exact hle
  · intro x hx
    cases batch with
    | nil =>
      simp only [nil_append, List.head?_cons, mem_some_iff] at hx
      subst hx
      exact ⟨by rw [hfirst, hnew (.inl rfl)]; rfl, hsec⟩
    | cons y batch =>
      obtain ⟨heq, hpos⟩ := h.first x hx
      exact ⟨by rw [hfirst, (hold (by simp) (by omega)).1, heq], hpos⟩

theorem rule (env : Env) (opts : ZmqOptions) :
    BatchRule env opts (fun hd => 1 ≤ hd.packet.hdr.ts.sec) (FreshBatches opts) where
  pending h := h.pending
  other h _ _ _ _ _ :=
    { h with toBatches := (Batches.rule env opts fun _ => True).other h.toBatches _ _ _ _ _ }
  flush h := close env h.closed_fresh h.fresh (h.toBatches.flush env)
  accept h hsec hl2 hroom hnew hold := h.accept hsec rfl hnew hold
    ((Batches.rule env opts fun _ => True).accept h.toBatches trivial hl2 hroom hnew hold)
  beat h hroom first := close env h.closed_fresh (fresh_append_inr h.fresh _)
    ((Batches.rule env opts fun _ => True).beat h.toBatches hroom first)

theorem withinSecond (h : FreshBatches opts o batch closed) {t : ℤ} (hstale : NotStale o batch t) :
    WithinSecond batch t := by
  intro x hx
  obtain ⟨heq, hpos⟩ := h.first x hx
  rcases hstale with rfl | hzero | hle
  · simp at hx
  · omega
  · rw [heq]
    exact hle

end FreshBatches

/-- **Batch staleness.** The data records of a batch are at most a second later than its first, and
the last call left no batch whose first record is more than a second before it. -/
theorem zmq_batch_staleness (env : Env) (opts : ZmqOptions) (stats : OutputStats)
    (ops : List ZmqOp) (htimes : ∀ op ∈ ops, ∀ t, op.time = some t → 1 ≤ t) :
    let new := zmqOutputNew env opts stats
    let o := zmqOps env new ops
    ∃ (batch : List ZmqItem) (closed : List (List ZmqItem)),
      closed.flatten ++ batch = zmqRecords env new ops ∧
      o.wire.map Prod.fst = closed.map opts.message ∧
      Pending opts o batch ∧
      (∀ b ∈ closed ++ [batch], FreshBatch b) ∧
      ∀ op ∈ ops.getLast?, ∀ t, op.time = some t → WithinSecond batch t := by
  have hvalid : ∀ op ∈ ops, op.Valid fun hd => 1 ≤ hd.packet.hdr.ts.sec := by
    intro op hop
    unfold ZmqOp.Valid
    split
    · exact htimes _ hop _ rfl
    · trivial
  have hnew : FreshBatches opts (zmqOutputNew env opts stats) [] [] :=
    { pending := pending_new env opts stats, wire := rfl, closed_fresh := by simp,
      fresh := by simp [FreshBatch], first := by simp }
  obtain ⟨batch, closed, h, hitems, hstale⟩ := (FreshBatches.rule env opts).ops hnew ops hvalid
  refine ⟨batch, closed, by simpa using hitems, h.wire, h.pending, ?_, ?_⟩
  · intro b hb
    rcases mem_append.mp hb with hb | hb
    · exact h.closed_fresh b hb
    · exact mem_singleton.mp hb ▸ h.fresh
  · intro op hop t ht
    exact h.withinSecond (hstale op hop t ht)

/-- A packet that goes back in time stays in the batch, a later one starts a new one. -/
theorem zmq_batch_staleness_back_in_time :
    let env : Env := ⟨fun _ => true, fun _ => ⟨1, 0⟩, fun _ => .error, fun _ => 0,
      fun _ => true, false⟩
    let opts : ZmqOptions := ⟨0, List.replicate 16 0, rfl, 0, 0, 0⟩
    let frame (sec : ℤ) : Handed :=
      ⟨⟨⟨⟨sec, 0⟩, 14, 14⟩, List.replicate 14 0, rfl⟩, .noncheck⟩
    let ops : List ZmqOp := [.call (.sendPacket (frame 5)), .call (.sendPacket (frame 3)),
      .call (.sendPacket (frame 7)), .call (.heartbeat 8)]
    let new := zmqOutputNew env opts .zero
    (∀ op ∈ ops, ∀ t, op.time = some t → 1 ≤ t) ∧
    ∃ (batch : List ZmqItem) (closed : List (List ZmqItem)),
      closed.flatten ++ batch = zmqRecords env new ops ∧
      (zmqOps env new ops).wire.map Prod.fst = closed.map opts.message ∧
      Pending opts (zmqOps env new ops) batch ∧
      (∀ b ∈ closed ++ [batch], FreshBatch b) ∧
      ∀ op ∈ ops.getLast?, ∀ t, op.time = some t → WithinSecond batch t := by
  intro env opts frame ops new
  have htimes : ∀ op ∈ ops, ∀ t, op.time = some t → 1 ≤ t := by
    simp [ops, frame, ZmqOp.time]
  exact ⟨htimes, zmq_batch_staleness env opts .zero ops htimes⟩

end CloudProbe.Worker
