import CloudProbe.Worker.Zmq

/-!
# The batch buffer of the zmq output

`ZmqItem` is what a batch holds. `Pending` says that the buffer, its write position and its three
counters are those of the items in it, and every operation on the buffer keeps this.
`zmqMakeRoom_cases` says what happens to the batch before a record is written.
-/

namespace CloudProbe.Worker

open Lib List

/-! ## Record lengths -/

theorem vlanStackEnd_bounds (etherType offset : ℕ) (rest : List UInt8) :
    vlanStackEnd etherType offset rest = 0 ∨
      ∃ n, vlanStackEnd etherType offset rest = offset + 4 * n ∧ 4 * n ≤ rest.length := by
  fun_induction vlanStackEnd etherType offset rest with
  | case1 etherType offset _ _ _ t₁ t₂ rest ih =>
    rcases ih with hzero | ⟨n, heq, hle⟩
    · exact .inl hzero
    · refine .inr ⟨n + 1, ?_, ?_⟩
      · omega
      · simp only [length_cons]
        omega
  | case2 => exact .inl rfl
  | case3 => exact .inr ⟨0, rfl, Nat.zero_le _⟩

variable {p : Packet}

theorem zmqL2Len_bounds (h : zmqL2Len p ≠ 0) :
    ∃ n, zmqL2Len p = etherHeaderLen + 4 * n ∧
      zmqL2Len p ≤ outputFrameLen p.hdr.caplen 0 zmqMaxFrameLen := by
  unfold zmqL2Len l2HeaderLen at *
  split_ifs at h ⊢ with hlt
  · exact absurd rfl h
  · obtain hzero | ⟨n, heq, hle⟩ := vlanStackEnd_bounds (ofBe ((p.data.drop 12).take 2))
      etherHeaderLen ((p.data.take (outputFrameLen p.hdr.caplen 0 zmqMaxFrameLen)).drop
        etherHeaderLen)
    · exact absurd hzero h
    · have hcap := outputFrameLen_le_caplen p.hdr.caplen 0 zmqMaxFrameLen
      refine ⟨n, heq, ?_⟩
      simp only [length_drop, length_take, p.data_length] at hle
      omega

theorem zmqFrameLen_bounds (slice : ℤ) (h : zmqL2Len p ≠ 0) :
    zmqL2Len p ≤ zmqFrameLen slice p ∧ zmqFrameLen slice p ≤ p.data.length ∧
      zmqFrameLen slice p ≤ zmqMaxFrameLen := by
  obtain ⟨-, -, hl2⟩ := zmqL2Len_bounds h
  have hcap := outputFrameLen_le_caplen p.hdr.caplen slice zmqMaxFrameLen
  have hmax := outputFrameLen_le_max p.hdr.caplen slice zmqMaxFrameLen
  have hcap₀ := outputFrameLen_le_caplen p.hdr.caplen 0 zmqMaxFrameLen
  have hmax₀ := outputFrameLen_le_max p.hdr.caplen 0 zmqMaxFrameLen
  rw [p.data_length]
  simp only [zmqFrameLen]
  split_ifs <;> omega

theorem zmqRecordLen_eq (slice : ℤ) (h : zmqL2Len p ≠ 0) :
    zmqRecordLen slice p = zmqFrameLen slice p + mplsHeaderLen := by
  have hmax := (zmqFrameLen_bounds slice h).2.2
  rw [zmqRecordLen]
  apply Nat.mod_eq_of_lt
  simp only [zmqMaxFrameLen, mplsHeaderLen] at *
  omega

@[simp] theorem length_zmqPktHdr (ts : Timeval) (caplen len : ℕ) :
    (zmqPktHdr ts caplen len).length = 16 := by
  simp [zmqPktHdr]

/-- The frame of a record is longer by its label. -/
theorem length_zmqFrame (serviceTag : UInt16) (data : List UInt8) (direct : PktDir)
    {n l2Len frameLen : ℕ} (hl2 : l2Len = etherHeaderLen + 4 * n) (hframe : l2Len ≤ frameLen)
    (hdata : frameLen ≤ data.length) :
    (zmqFrame serviceTag data direct l2Len frameLen).length = frameLen + mplsHeaderLen := by
  simp only [etherHeaderLen] at hl2
  have hheaders : (if l2Len - etherHeaderLen = 0 then data.take 12 ++ be 2 etherTypeMpls
      else data.take etherHeaderLen ++ patch ((data.drop etherHeaderLen).take
        (l2Len - etherHeaderLen)) (l2Len - etherHeaderLen - 2) (be 2 etherTypeMpls)).length
      = l2Len := by
    split_ifs with hvlan
    · simp only [length_append, length_take, length_be, etherHeaderLen] at hvlan ⊢
      omega
    · simp only [patch, length_append, length_take, length_drop, length_be,
        etherHeaderLen] at hvlan ⊢
      omega
  simp only [zmqFrame, length_append, hheaders, makeMplsHdr, length_cons, length_nil,
    length_take, length_drop, mplsHeaderLen]
  omega

theorem length_zmqDataRecord (serviceTag : UInt16) (slice : ℤ) {h : Handed}
    (hl2 : zmqL2Len h.packet ≠ 0) :
    (zmqDataRecord serviceTag slice h).length =
      zmqRecordHdrLen + zmqRecordLen slice h.packet := by
  obtain ⟨hframe, hdata, -⟩ := zmqFrameLen_bounds slice hl2
  obtain ⟨n, hvlan, -⟩ := zmqL2Len_bounds hl2
  rw [zmqRecordLen_eq slice hl2, zmqDataRecord]
  simp only [length_append, length_be, length_zmqPktHdr,
    length_zmqFrame _ _ _ hvlan hframe hdata, zmqRecordHdrLen]

@[simp] theorem length_zmqHeartbeatRecord (tv : Timeval) :
    (zmqHeartbeatRecord tv).length = zmqRecordHdrLen + etherHeaderLen := by
  simp [zmqHeartbeatRecord, zmqRecordHdrLen, etherHeaderLen]

/-! ## Items -/

/-- What a batch of the zmq output holds: a packet or the time of a heartbeat. -/
abbrev ZmqItem := Handed ⊕ Timeval

def ZmqOptions.encode (opts : ZmqOptions) : ZmqItem → List UInt8
  | .inl h => zmqDataRecord opts.serviceTag.toUInt16 opts.slice h
  | .inr tv => zmqHeartbeatRecord tv

def ZmqOptions.message (opts : ZmqOptions) (batch : List ZmqItem) : List UInt8 :=
  zmqBatchHdr batch.length opts.serviceTag opts.uuid ++ batch.flatMap opts.encode

/-- The bytes a packet counts with: the frame of its record, or all captured bytes when its layer-2
headers are cut. -/
def ZmqOptions.countedLen (opts : ZmqOptions) (h : Handed) : ℕ :=
  if zmqL2Len h.packet = 0 then h.packet.hdr.caplen.toNat else zmqFrameLen opts.slice h.packet

/-- A packet in a batch has complete layer-2 headers. -/
def ZmqItem.Whole : ZmqItem → Prop
  | .inl h => zmqL2Len h.packet ≠ 0
  | .inr _ => True

theorem length_encode_inl (opts : ZmqOptions) {h : Handed} (hl2 : zmqL2Len h.packet ≠ 0) :
    (opts.encode (.inl h)).length = zmqRecordHdrLen + mplsHeaderLen + opts.countedLen h ∧
      etherHeaderLen ≤ opts.countedLen h := by
  obtain ⟨n, hvlan, -⟩ := zmqL2Len_bounds hl2
  have hframe := (zmqFrameLen_bounds opts.slice hl2).1
  rw [ZmqOptions.countedLen, if_neg hl2, ZmqOptions.encode, length_zmqDataRecord _ _ hl2,
    zmqRecordLen_eq _ hl2]
  omega

/-- What the records of a batch take at least. -/
theorem length_batch (opts : ZmqOptions) {batch : List ZmqItem}
    (hwhole : ∀ x ∈ batch, ZmqItem.Whole x) :
    32 * batch.length ≤ (batch.flatMap opts.encode).length ∧
      ((accounted batch).map opts.countedLen).sum ≤ (batch.flatMap opts.encode).length := by
  induction batch with
  | nil => simp
  | cons x batch ih =>
    obtain ⟨hnum, hsum⟩ := ih fun y hy => hwhole y (.tail _ hy)
    rw [flatMap_cons, length_append, length_cons]
    cases x with
    | inl h =>
      obtain ⟨hlen, hmin⟩ := length_encode_inl opts (hwhole (.inl h) (.head _))
      rw [accounted_inl, map_cons, sum_cons, hlen]
      simp only [zmqRecordHdrLen, mplsHeaderLen, etherHeaderLen] at *
      omega
    | inr tv =>
      rw [accounted_inr, ZmqOptions.encode, length_zmqHeartbeatRecord]
      simp only [zmqRecordHdrLen, etherHeaderLen]
      omega

/-! ## The open batch -/

/-- The buffer holds the records of `batch`, and its position and counters are theirs. -/
structure Pending (opts : ZmqOptions) (o : ZmqOutput) (batch : List ZmqItem) : Prop where
  slice : o.slice = opts.slice
  serviceTag : o.serviceTag = opts.serviceTag.toUInt16
  keybit : o.keybit = opts.serviceTag
  uuid : o.uuid = opts.uuid
  whole : ∀ x ∈ batch, ZmqItem.Whole x
  buf : o.buf.take (o.batchBufpos - zmqBatchHdrLen) = batch.flatMap opts.encode
  bufpos : o.batchBufpos = zmqBatchHdrLen + (batch.flatMap opts.encode).length
  fits : o.batchBufpos ≤ zmqMaxBatchBufSize
  num : o.pktsNum.toNat = batch.length
  heartbeats : o.heartbeatNum.toNat = (others batch).length
  data : o.dataBytes.toNat = ((accounted batch).map opts.countedLen).sum

theorem pending_new (env : Env) (opts : ZmqOptions) (stats : OutputStats) :
    Pending opts (zmqOutputNew env opts stats) [] where
  slice := rfl
  serviceTag := rfl
  keybit := rfl
  uuid := rfl
  whole := by simp
  buf := rfl
  bufpos := rfl
  fits := by simp [zmqOutputNew, zmqBatchHdrLen, zmqMaxBatchBufSize]
  num := rfl
  heartbeats := rfl
  data := rfl

namespace Pending

variable {opts : ZmqOptions} {o : ZmqOutput} {batch : List ZmqItem}

theorem length_le (h : Pending opts o batch) : batch.length ≤ 32768 := by
  have hlen := (length_batch opts h.whole).1
  have hpos := h.bufpos
  have hfits := h.fits
  simp only [zmqBatchHdrLen, zmqMaxBatchBufSize] at *
  omega

theorem pktsNum_lt (h : Pending opts o batch) : o.pktsNum < zmqPktsFlushMaxNum := by
  have hlen := h.length_le
  rw [UInt16.lt_iff_toNat_lt, h.num]
  simp only [zmqPktsFlushMaxNum, UInt16.reduceToNat]
  omega

theorem toNat_pktsNum_succ (h : Pending opts o batch) :
    (o.pktsNum + 1).toNat = batch.length + 1 := by
  have hlen := h.length_le
  rw [UInt16.toNat_add, h.num]
  exact Nat.mod_eq_of_lt (by simp only [UInt16.toNat_one]; omega)

theorem dataBytes_add_lt (h : Pending opts o batch) {n : ℕ} (hn : n ≤ zmqMaxFrameLen) :
    o.dataBytes.toNat + n < 2 ^ 32 := by
  have hsum := (length_batch opts h.whole).2
  have hpos := h.bufpos
  have hfits := h.fits
  rw [h.data]
  simp only [zmqBatchHdrLen, zmqMaxBatchBufSize, zmqMaxFrameLen] at *
  omega

theorem take_append (h : Pending opts o batch) (record : List UInt8) :
    (o.buf.take (o.batchBufpos - zmqBatchHdrLen) ++ record).take
      (o.batchBufpos + record.length - zmqBatchHdrLen) = batch.flatMap opts.encode ++ record := by
  rw [h.buf]
  apply take_of_length_le
  rw [length_append, h.bufpos]
  omega

theorem of_nil (h : Pending opts o []) : o.pktsNum = 0 ∧ o.batchBufpos = zmqBatchHdrLen :=
  ⟨UInt16.toNat_inj.mp h.num, h.bufpos⟩

theorem ne_nil (h : Pending opts o batch) (hpos : 0 < o.pktsNum) : batch ≠ [] := by
  rintro rfl
  rw [h.of_nil.1] at hpos
  exact absurd hpos (by decide)

theorem eq_nil (h : Pending opts o batch) (hzero : o.pktsNum = 0) : batch = [] := by
  have hnum := h.num
  rw [hzero] at hnum
  exact eq_nil_of_length_eq_zero hnum.symm

theorem startAt (h : Pending opts o batch) (sec : ℤ) : Pending opts (o.startAt sec) batch :=
  { h with }

theorem flush (h : Pending opts o batch) (env : Env) : Pending opts (zmqFlushPacket env o) [] where
  slice := h.slice
  serviceTag := h.serviceTag
  keybit := h.keybit
  uuid := h.uuid
  whole := by simp
  buf := by simp [zmqFlushPacket]
  bufpos := rfl
  fits := by simp [zmqFlushPacket, zmqBatchHdrLen, zmqMaxBatchBufSize]
  num := rfl
  heartbeats := rfl
  data := rfl

theorem message_eq (h : Pending opts o batch) :
    zmqBatchHdr o.pktsNum.toNat o.keybit o.uuid ++ o.buf.take (o.batchBufpos - zmqBatchHdrLen) =
      opts.message batch := by
  rw [h.num, h.keybit, h.uuid, h.buf, ZmqOptions.message]

/-- A packet for which there is room joins the open batch. -/
theorem accept (h : Pending opts o batch) {hd : Handed} (hl2 : zmqL2Len hd.packet ≠ 0)
    (hroom : o.batchBufpos + zmqRecordHdrLen + zmqRecordLen opts.slice hd.packet ≤
      zmqMaxBatchBufSize) (ts : Timeval) :
    Pending opts
      { zmqAppend o (zmqDataRecord o.serviceTag o.slice hd) with
        dataBytes := o.dataBytes + UInt32.ofNat (zmqFrameLen opts.slice hd.packet)
        lastPktTv := ts }
      (batch ++ [.inl hd]) where
  slice := h.slice
  serviceTag := h.serviceTag
  keybit := h.keybit
  uuid := h.uuid
  whole := by
    intro x hx
    rcases mem_append.mp hx with hx | hx
    · exact h.whole x hx
    · rw [mem_singleton.mp hx]
      exact hl2
  buf := by
    rw [flatMap_append, h.serviceTag, h.slice]
    simpa [zmqAppend, ZmqOptions.encode] using h.take_append _
  bufpos := by
    simp only [zmqAppend, flatMap_append, length_append, h.bufpos, h.serviceTag, h.slice,
      flatMap_cons, flatMap_nil, append_nil, ZmqOptions.encode]
    omega
  fits := by
    simp only [zmqAppend, h.slice, length_zmqDataRecord _ _ hl2]
    omega
  num := by
    rw [length_append]
    exact h.toNat_pktsNum_succ
  heartbeats := by simpa [zmqAppend] using h.heartbeats
  data := by
    have hlt := h.dataBytes_add_lt (zmqFrameLen_bounds opts.slice hl2).2.2
    rw [UInt32.toNat_add, UInt32.toNat_ofNat', Nat.add_mod_mod, Nat.mod_eq_of_lt hlt, h.data]
    simp only [accounted_append, accounted_inl, accounted_nil, map_append, sum_append,
      map_cons, map_nil, sum_cons, sum_nil, ZmqOptions.countedLen, hl2,
      if_false, Nat.add_zero]

theorem toNat_heartbeatNum_succ (h : Pending opts o batch) :
    (o.heartbeatNum + 1).toNat = (others batch).length + 1 := by
  have hlen := h.length_le
  have hparts := length_accounted_add_others batch
  rw [UInt16.toNat_add, h.heartbeats]
  exact Nat.mod_eq_of_lt (by simp only [UInt16.toNat_one]; omega)

/-- A heartbeat for which there is room joins the open batch. -/
theorem insert (h : Pending opts o batch) (tv : Timeval)
    (hroom : o.batchBufpos + zmqRecordHdrLen + etherHeaderLen ≤ zmqMaxBatchBufSize) :
    Pending opts { zmqAppend o (zmqHeartbeatRecord tv) with heartbeatNum := o.heartbeatNum + 1 }
      (batch ++ [.inr tv]) where
  slice := h.slice
  serviceTag := h.serviceTag
  keybit := h.keybit
  uuid := h.uuid
  whole := by
    intro x hx
    rcases mem_append.mp hx with hx | hx
    · exact h.whole x hx
    · rw [mem_singleton.mp hx]
      trivial
  buf := by
    rw [flatMap_append]
    simpa [zmqAppend, ZmqOptions.encode] using h.take_append (zmqHeartbeatRecord tv)
  bufpos := by
    simp only [zmqAppend, flatMap_append, length_append, h.bufpos, flatMap_cons,
      flatMap_nil, append_nil, ZmqOptions.encode]
    omega
  fits := by
    simp only [zmqAppend, length_zmqHeartbeatRecord]
    omega
  num := by
    rw [length_append]
    exact h.toNat_pktsNum_succ
  heartbeats := by
    rw [others_append, length_append]
    exact h.toNat_heartbeatNum_succ
  data := by simpa [zmqAppend] using h.data

end Pending

/-! ## Room for a record -/

section Room

variable {opts : ZmqOptions} {o : ZmqOutput} {batch : List ZmqItem}

variable (env : Env)

/-- **Before a packet's record is written** a batch that is not empty is flushed, or there is room
and the packet is at most a second later. -/
theorem zmqMakeRoom_cases (h : Pending opts o batch) (sec : ℤ) {recordLen : ℕ}
    (hlen : recordLen < 2 ^ 16) :
    (0 < o.pktsNum ∧ zmqMakeRoom env o sec recordLen = (zmqFlushPacket env o).startAt sec) ∨
      ∃ first, zmqMakeRoom env o sec recordLen = o.startAt first ∧
        o.batchBufpos + zmqRecordHdrLen + recordLen ≤ zmqMaxBatchBufSize ∧
        (o.pktsNum = 0 ∨ o.firstPktsec = 0 → first = sec) ∧
        (o.pktsNum ≠ 0 → o.firstPktsec ≠ 0 →
          first = o.firstPktsec ∧ sec ≤ first + zmqPktsFlushMaxDurSec) := by
  have hcount : ¬ zmqPktsFlushMaxNum ≤ o.pktsNum := UInt16.not_le.mpr h.pktsNum_lt
  by_cases hzero : o.pktsNum = 0
  · right
    obtain rfl := h.eq_nil hzero
    have hpos := h.of_nil.2
    have hroom : o.batchBufpos + zmqRecordHdrLen + recordLen ≤ zmqMaxBatchBufSize := by
      rw [hpos]
      simp only [zmqBatchHdrLen, zmqRecordHdrLen, zmqMaxBatchBufSize]
      omega
    refine ⟨sec, ?_, hroom, fun _ => rfl, fun hne => absurd hzero hne⟩
    have hold : ¬ (sec ≠ 0 ∧ sec + zmqPktsFlushMaxDurSec < sec) := by
      simp only [zmqPktsFlushMaxDurSec]
      omega
    simp only [zmqMakeRoom, if_pos hzero, ZmqOutput.startAt, hcount, hold, Nat.not_lt.mpr hroom,
      or_false, if_false]
    split_ifs <;> rfl
  · have hpositive : 0 < o.pktsNum := UInt16.pos_iff_ne_zero.mpr hzero
    by_cases hflush : (o.firstPktsec ≠ 0 ∧ o.firstPktsec + zmqPktsFlushMaxDurSec < sec) ∨
        zmqMaxBatchBufSize < o.batchBufpos + zmqRecordHdrLen + recordLen
    · refine .inl ⟨hpositive, ?_⟩
      simp only [zmqMakeRoom, if_neg hzero, hcount, hflush, or_true, if_true]
      split_ifs <;> rfl
    · right
      rw [not_or, not_and, not_lt, Nat.not_lt] at hflush
      have hsame : zmqMakeRoom env o sec recordLen =
          if o.firstPktsec = 0 then o.startAt sec else o := by
        have hnot : ¬ ((o.firstPktsec ≠ 0 ∧ o.firstPktsec + zmqPktsFlushMaxDurSec < sec) ∨
            zmqMaxBatchBufSize < o.batchBufpos + zmqRecordHdrLen + recordLen) := by
          rw [not_or, not_and, not_lt, Nat.not_lt]
          exact hflush
        simp only [zmqMakeRoom, if_neg hzero, hcount, hnot, or_false, if_false]
      rw [hsame]
      split_ifs with hfirst
      · exact ⟨sec, rfl, hflush.2, fun _ => rfl, fun _ hne => absurd hfirst hne⟩
      · refine ⟨o.firstPktsec, rfl, hflush.2, ?_, fun _ hne => ⟨rfl, hflush.1 hne⟩⟩
        rintro (h' | h')
        · exact absurd h' hzero
        · exact absurd h' hfirst

/-- **There is room** for the record of a packet, and the batch is the one before or a new one. -/
theorem zmqMakeRoom_pending (h : Pending opts o batch) (sec : ℤ) {recordLen : ℕ}
    (hlen : recordLen < 2 ^ 16) :
    ∃ batch', (batch' = batch ∨ batch' = []) ∧
      Pending opts (zmqMakeRoom env o sec recordLen) batch' ∧
      (zmqMakeRoom env o sec recordLen).batchBufpos + zmqRecordHdrLen + recordLen ≤
        zmqMaxBatchBufSize := by
  rcases zmqMakeRoom_cases env h sec hlen with ⟨-, heq⟩ | ⟨first, heq, hroom, -⟩
  · rw [heq]
    refine ⟨[], .inr rfl, (h.flush env).startAt sec, ?_⟩
    simp only [ZmqOutput.startAt, zmqFlushPacket, zmqBatchHdrLen, zmqRecordHdrLen,
      zmqMaxBatchBufSize]
    omega
  · rw [heq]
    exact ⟨batch, .inl rfl, h.startAt first, hroom⟩

/-- The output when a heartbeat is about to be written: flushed if the buffer is full.
Source: `output_zmq.c` `zmq_send_heartbeat_packet`, "Check buffer space" -/
def zmqHeartbeatRoom (env : Env) (o : ZmqOutput) : ZmqOutput :=
  if zmqMaxBatchBufSize < o.batchBufpos + zmqRecordHdrLen + etherHeaderLen then
    zmqFlushPacket env o
  else o

/-- The output right before a heartbeat is written: an empty batch starts with it. -/
def zmqHeartbeatStart (env : Env) (o : ZmqOutput) (sec : ℤ) : ZmqOutput :=
  if (zmqHeartbeatRoom env o).pktsNum = 0 then (zmqHeartbeatRoom env o).startAt sec
  else zmqHeartbeatRoom env o

theorem zmqAppend_heartbeatNum (o : ZmqOutput) (record : List UInt8) :
    (zmqAppend o record).heartbeatNum = o.heartbeatNum := rfl

theorem zmqSendHeartbeatPacket_eq (o : ZmqOutput) (tv : Timeval) :
    zmqSendHeartbeatPacket env o tv =
      { zmqFlushPacket env
          { zmqAppend (zmqHeartbeatStart env o tv.sec) (zmqHeartbeatRecord tv) with
            heartbeatNum := (zmqHeartbeatStart env o tv.sec).heartbeatNum + 1 } with
        lastPktTv := tv } := by
  rw [← zmqAppend_heartbeatNum (zmqHeartbeatStart env o tv.sec) (zmqHeartbeatRecord tv)]
  rfl

theorem zmqHeartbeatRoom_pending (h : Pending opts o batch) :
    ∃ batch', (batch' = batch ∧ zmqHeartbeatRoom env o = o ∨
        batch' = [] ∧ batch ≠ [] ∧ zmqHeartbeatRoom env o = zmqFlushPacket env o) ∧
      Pending opts (zmqHeartbeatRoom env o) batch' ∧
      (zmqHeartbeatRoom env o).batchBufpos + zmqRecordHdrLen + etherHeaderLen ≤
        zmqMaxBatchBufSize := by
  rw [zmqHeartbeatRoom]
  split_ifs with hfull
  · have hne : batch ≠ [] := by
      rintro rfl
      rw [h.of_nil.2] at hfull
      exact absurd hfull (by decide)
    refine ⟨[], .inr ⟨rfl, hne, rfl⟩, h.flush env, ?_⟩
    simp [zmqFlushPacket, zmqBatchHdrLen, zmqRecordHdrLen, etherHeaderLen, zmqMaxBatchBufSize]
  · exact ⟨batch, .inl ⟨rfl, rfl⟩, h, Nat.le_of_not_lt hfull⟩

end Room

end CloudProbe.Worker
